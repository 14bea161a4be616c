import Mathlib.Data.Nat.Digits.Lemmas
import ZroServices.Common.Moment
import ZroServices.Foundation.ExclusiveOr
import ZroServices.Foundation.Numeral
import ZroServices.Pix.QrCodeStatic

/-!
# PIX — the txId of a static QR code

`createTxId` writes what a static QR code says into its `txId`: the flags, the due date and the
value, the last two as numerals of nine and of eight digits in base 32.  Where there is no due date
or no value, random characters stand in its place.

What was written is read back (`roundTrips`): a number of fourteen decimal digits has nine digits in
base 32 up to the year 3518, and zeros fill up a value.
-/

namespace ZroServices.Pix

open Foundation

/-! ### Texts -/

def Alphanumeric (c : ℕ) : Prop := 48 ≤ c ∧ c ≤ 57 ∨ 65 ≤ c ∧ c ≤ 90 ∨ 97 ≤ c ∧ c ≤ 122

instance : DecidablePred Alphanumeric := fun _ => inferInstanceAs (Decidable (_ ∨ _))

/-- What `randomstring.generate` answers. -/
structure RandomText (length : ℕ) where
  text : List ℕ
  length_eq : text.length = length
  alphanumeric : ∀ c ∈ text, Alphanumeric c

/-- The number that `getMoment(date).format('YYYYMMDDHHmmss')` is. -/
def formatDateTime (date : ℤ) : ℤ :=
  let day := localDay date
  -- months are counted from March of year 0
  let month := Period.monthIndex day
  let second := (date - midnight) % msPerDay / 1000
  (((((month + 2) / 12 * 100 + ((month + 2) % 12 + 1)) * 100 +
    (day - Period.monthStart month + 1)) * 100 + second / 3600) * 100 + second / 60 % 60) * 100 +
      second % 60

/-- The year at UTC−3. -/
def localYear (date : ℤ) : ℤ := (Period.monthIndex (localDay date) + 2) / 12

/-- `getMoment(text, 'YYYYMMDDHHmmss').toDate()` of a text of fourteen digits that does not begin
with 0.  No other text is read here. -/
def parseDateTime (text : String) : Option ℤ :=
  let n : ℤ := Nat.ofDigitChars 10 text.toList 0
  let month := n / 10 ^ 10 * 12 + (n / 10 ^ 8 % 100 - 1) - 2
  let day := Period.monthStart month + (n / 10 ^ 6 % 100 - 1)
  if 10 ^ 13 ≤ n ∧ n < 10 ^ 14 ∧ 1 ≤ n / 10 ^ 8 % 100 ∧ n / 10 ^ 8 % 100 ≤ 12 ∧
      1 ≤ n / 10 ^ 6 % 100 ∧ day < Period.monthStart (month + 1) ∧ n / 10 ^ 4 % 100 < 24 ∧
      n / 10 ^ 2 % 100 < 60 ∧ n % 100 < 60 then
    some (day * msPerDay + midnight +
      (n / 10 ^ 4 % 100 * 3600 + n / 10 ^ 2 % 100 * 60 + n % 100) * 1000)
  else none

/-! ### The entity -/

/-- What the `txId` says of a static QR code. -/
structure QrCodeStatic where
  documentValue : Option ℤ
  expirationDate : Option ℤ
  payableManyTimes : Bool
  deriving DecidableEq, Repr

/-- The random texts of one call. -/
structure Randoms where
  datetime : RandomText 9
  amount : RandomText 8
  random : RandomText 6

theorem alphanumeric_replicate (k : ℕ) : ∀ c ∈ List.replicate k 97, Alphanumeric c :=
  fun c hc => by
    rw [List.eq_of_mem_replicate hc]
    decide

/-- The letter `a` alone. -/
def RandomText.constant (k : ℕ) : RandomText k where
  text := List.replicate k 97
  length_eq := List.length_replicate
  alphanumeric := alphanumeric_replicate k

def Randoms.constant : Randoms where
  datetime := .constant 9
  amount := .constant 8
  random := .constant 6

/-- The first digit of the characters, combined by exclusive or. -/
def checksum (result : List ℕ) : List ℕ :=
  (intToDhex (result.foldl (fun acc letter => letter ^^^ acc) 0xff)).take 1

namespace QrCodeStatic

variable (qrCode : QrCodeStatic) (r : Randoms)

/-- `documentValue` is there, and not 0. -/
def hasValue : Bool := qrCode.documentValue.getD 0 ≠ 0

def prefixFlag : ℕ :=
  (if qrCode.payableManyTimes then 4 else 0) ||| (if qrCode.expirationDate.isSome then 2 else 0) |||
    (if qrCode.hasValue then 1 else 0)

def datetime : List ℕ :=
  match qrCode.expirationDate with
  | some date => intToDhex (formatDateTime date).toNat
  | none => r.datetime.text

/-- A negative number has no digits. -/
def amount : List ℕ :=
  if qrCode.hasValue then (intToDhex (qrCode.documentValue.getD 0).toNat).leftpad 8 48
  else r.amount.text

/-- The `txId` without its checksum. -/
def result : List ℕ :=
  (90 - qrCode.prefixFlag) :: (qrCode.datetime r ++ qrCode.amount r ++ r.random.text)

def createTxId : Except String TxId :=
  if qrCode.payableManyTimes = false ∧ qrCode.expirationDate = none then
    .error "Expiration date is required when payableManyTimes is false."
  else .ok (qrCode.result r ++ checksum (qrCode.result r))

end QrCodeStatic

/-! ### Numerals in base 32 -/

variable {d : ℕ} {ds : List ℕ}

theorem alphanumeric_dhexDigit (h : d < 32) : Alphanumeric (dhexDigit d) := by
  rw [Alphanumeric, dhexDigit]
  split_ifs <;> omega

theorem dhexToInt_step (n : ℕ) (h : d < 32) :
    ((n : ℤ) <<< 5).lor (dhexDigit d - if dhexDigit d < 97 then 48 else 87) =
      ((n * 32 + d : ℕ) : ℤ) := by
  have hdigit : ((dhexDigit d : ℕ) : ℤ) - (if dhexDigit d < 97 then 48 else 87) = (d : ℤ) := by
    rw [dhexDigit]
    split_ifs <;> push_cast <;> omega
  rw [hdigit]
  change ((n <<< 5 ||| d : ℕ) : ℤ) = _
  rw [← Nat.shiftLeft_add_eq_or_of_lt (by simpa using h), Nat.shiftLeft_eq]

theorem dhexToInt_map (h : ∀ d ∈ ds, d < 32) : dhexToInt (ds.map dhexDigit) = readBase 32 ds := by
  have hgeneral : ∀ n : ℕ, (ds.map dhexDigit).foldl
      (fun (value : ℤ) (z : ℕ) => (value <<< 5).lor (z - if z < 97 then 48 else 87)) n =
        (ds.foldl (fun n d => n * 32 + d) n : ℕ) := by
    induction ds with
    | nil => exact fun n => rfl
    | cons d ds ih =>
        intro n
        obtain ⟨hd, hds⟩ := List.forall_mem_cons.mp h
        rw [List.map_cons, List.foldl_cons, List.foldl_cons, dhexToInt_step n hd]
        exact ih hds (n * 32 + d)
  exact hgeneral 0

theorem intToDhex_eq (n : ℕ) : intToDhex n = (Nat.digits 32 n).reverse.map dhexDigit :=
  List.map_reverse.symm

theorem leftpad_intToDhex (n k : ℕ) :
    (intToDhex n).leftpad k 48 = ((Nat.digits 32 n).reverse.leftpad k 0).map dhexDigit := by
  rw [intToDhex_eq, List.leftpad, List.leftpad, List.map_append, List.length_map,
    List.map_replicate]
  rfl

theorem lt_of_mem_digits {n : ℕ} (h : d ∈ (Nat.digits 32 n).reverse) : d < 32 :=
  Nat.digits_lt_base (by decide) (List.mem_reverse.mp h)

theorem dhexToInt_intToDhex (n : ℕ) : dhexToInt (intToDhex n) = n := by
  rw [intToDhex_eq, dhexToInt_map fun d => lt_of_mem_digits, readBase_digits]

theorem dhexToInt_leftpad (n k : ℕ) : dhexToInt ((intToDhex n).leftpad k 48) = n := by
  rw [leftpad_intToDhex, dhexToInt_map, readBase_leftpad, readBase_digits]
  intro d hd
  rcases List.mem_append.mp hd with hzero | hdigit
  · rw [List.eq_of_mem_replicate hzero]
    decide
  · exact lt_of_mem_digits hdigit

/-- **The texts that are written back as they were read** are those of digits, without a zero in
front. -/
theorem dhex_canonical_iff (text : List ℕ) : intToDhex (dhexToInt text).toNat = text ↔
    (∀ c ∈ text, ∃ d < 32, dhexDigit d = c) ∧ text.head? ≠ some (dhexDigit 0) := by
  have hzero : ∀ d < 32, dhexDigit d = dhexDigit 0 → d = 0 := by decide
  constructor
  · intro h
    rw [← h, intToDhex_eq]
    generalize (dhexToInt text).toNat = n
    refine ⟨fun c hc => ?_, fun hhead => ?_⟩
    · obtain ⟨d, hd, rfl⟩ := List.mem_map.mp hc
      exact ⟨d, lt_of_mem_digits hd, rfl⟩
    · rw [List.head?_map, List.head?_reverse, Option.map_eq_some_iff] at hhead
      obtain ⟨d, hlast, hd⟩ := hhead
      have hlt := lt_of_mem_digits (List.mem_reverse.mpr (List.mem_of_getLast? hlast))
      rw [hzero d hlt hd] at hlast
      have hn : n ≠ 0 := by rintro rfl; simp at hlast
      refine Nat.getLast_digit_ne_zero 32 hn ?_
      exact Option.some.inj ((List.getLast?_eq_some_getLast _).symm.trans hlast)
  · rintro ⟨hdigits, hhead⟩
    choose! f hf using hdigits
    obtain ⟨ds, hlt, rfl⟩ : ∃ ds : List ℕ, (∀ d ∈ ds, d < 32) ∧ ds.map dhexDigit = text := by
      refine ⟨text.map f, List.forall_mem_map.mpr fun c hc => (hf c hc).1, ?_⟩
      rw [List.map_map]
      exact (List.map_congr_left fun c hc => (hf c hc).2).trans (List.map_id' _)
    rw [dhexToInt_map hlt, Int.toNat_natCast, intToDhex_eq]
    conv_lhs => rw [← ds.reverse_reverse, readBase_reverse]
    rw [Nat.digits_ofDigits 32 (by decide) _ fun d hd => hlt d (List.mem_reverse.mp hd)]
    · rw [List.reverse_reverse]
    · intro hne h
      rw [List.getLast_reverse] at h
      rw [List.head?_map, List.head?_eq_some_head (by simpa using hne), h] at hhead
      exact hhead rfl

theorem alphanumeric_intToDhex (n : ℕ) : ∀ c ∈ intToDhex n, Alphanumeric c := by
  intro c hc
  rw [intToDhex_eq] at hc
  obtain ⟨d, hd, rfl⟩ := List.mem_map.mp hc
  exact alphanumeric_dhexDigit (lt_of_mem_digits hd)

theorem length_intToDhex (n : ℕ) : (intToDhex n).length = (Nat.digits 32 n).length := by
  rw [intToDhex_eq, List.length_map, List.length_reverse]

/-- The number of digits of a number between two powers. -/
theorem length_intToDhex_eq {n k : ℕ} (hlow : 32 ^ k ≤ n) (hhigh : n < 32 ^ (k + 1)) :
    (intToDhex n).length = k + 1 := by
  have hle := (Nat.digits_length_le_iff (by decide : 1 < 32) n).mpr hhigh
  have hlt := (Nat.lt_digits_length_iff (by decide : 1 < 32) n).mpr hlow
  rw [length_intToDhex]
  omega

/-! ### The checksum -/

/-- The upper bits of the characters: 1 of a digit, 2 of a capital letter, 3 of a small one. -/
def kinds (l : List ℕ) : ℕ := exclusiveOr (l.map fun c => c >>> 5)

theorem kinds_lt {l : List ℕ} (h : ∀ c ∈ l, c < 128) : kinds l < 4 := by
  refine exclusiveOr_lt (k := 2) fun kind hkind => ?_
  obtain ⟨c, hc, rfl⟩ := List.mem_map.mp hkind
  have hlt := h c hc
  rw [Nat.shiftRight_eq_div_pow]
  omega

theorem intToDhex_two {n : ℕ} (hlow : 32 ≤ n) (hhigh : n < 1024) :
    intToDhex n = [dhexDigit (n / 32), dhexDigit (n % 32)] := by
  rw [intToDhex, Nat.digits_def' (by decide) (by omega), Nat.digits_of_lt 32 (n / 32)]
  · rfl
  · omega
  · omega

/-- Only the upper bits make the checksum. -/
theorem checksum_eq {l : List ℕ} (h : ∀ c ∈ l, c < 128) :
    checksum l = [dhexDigit (7 - kinds l)] := by
  have hkinds := kinds_lt h
  have hfold : exclusiveOr l ^^^ 0xff < 2 ^ 8 :=
    Nat.xor_lt_two_pow (exclusiveOr_lt fun c hc => (h c hc).trans (by decide)) (by decide)
  have hupper : (exclusiveOr l ^^^ 0xff) / 32 = 7 - kinds l := by
    rw [show 32 = 2 ^ 5 from rfl, ← Nat.shiftRight_eq_div_pow, Nat.shiftRight_xor_distrib,
      exclusiveOr_shiftRight, ← kinds]
    generalize kinds l = kind at hkinds
    interval_cases kind <;> rfl
  rw [checksum, foldl_xor, intToDhex_two (by omega) (by omega), hupper]
  rfl

theorem length_checksum {l : List ℕ} (h : ∀ c ∈ l, c < 128) : (checksum l).length = 1 := by
  rw [checksum_eq h]
  rfl

/-! ### Dates -/

theorem month_le (k : ℤ) : Period.monthStart (k + 1) ≤ Period.monthStart k + 31 := by
  unfold Period.monthStart
  -- February is the last month of a year that begins in March
  by_cases hlast : k % 12 = 11
  · rw [show (k + 1) / 12 = k / 12 + 1 by omega, show (k + 1) % 12 = 0 by omega, hlast]
    omega
  · rw [show (k + 1) / 12 = k / 12 by omega, show (k + 1) % 12 = k % 12 + 1 by omega]
    omega

/-- Five numbers of two digits behind a year. -/
theorem fields_of_packed {n year month day hour minute second : ℤ}
    (hn : n = ((((year * 100 + month) * 100 + day) * 100 + hour) * 100 + minute) * 100 + second)
    (hmonth : 0 ≤ month ∧ month < 100) (hday : 0 ≤ day ∧ day < 100) (hhour : 0 ≤ hour ∧ hour < 100)
    (hminute : 0 ≤ minute ∧ minute < 100) (hsecond : 0 ≤ second ∧ second < 100) :
    n / 10 ^ 10 = year ∧ n / 10 ^ 8 % 100 = month ∧ n / 10 ^ 6 % 100 = day ∧
      n / 10 ^ 4 % 100 = hour ∧ n / 10 ^ 2 % 100 = minute ∧ n % 100 = second := by
  refine ⟨?_, ?_, ?_, ?_, ?_, ?_⟩ <;> omega

/-- The fields of a formatted date. -/
theorem formatDateTime_fields (date : ℤ) :
    let n := formatDateTime date
    let day := localDay date
    let month := Period.monthIndex day
    let second := (date - midnight) % msPerDay / 1000
    n / 10 ^ 10 = localYear date ∧ n / 10 ^ 8 % 100 = (month + 2) % 12 + 1 ∧
      n / 10 ^ 6 % 100 = day - Period.monthStart month + 1 ∧ n / 10 ^ 4 % 100 = second / 3600 ∧
      n / 10 ^ 2 % 100 = second / 60 % 60 ∧ n % 100 = second % 60 := by
  intro n day month second
  have hstart : Period.monthStart month ≤ day := Period.months.start_index_le day
  have hend : day < Period.monthStart (month + 1) := Period.months.lt_start_succ day
  have hlength := month_le month
  have hsecond : 0 ≤ second ∧ second < 86400 := by
    unfold second msPerDay
    omega
  exact fields_of_packed rfl (by omega) (by omega) (by omega) (by omega) (by omega)

/-- The day and the second of the day leave the milliseconds of a date. -/
theorem day_add_second {date day rest : ℤ} (h : day * msPerDay + rest = date - midnight) :
    day * msPerDay + midnight +
        (rest / 1000 / 3600 * 3600 + rest / 1000 / 60 % 60 * 60 + rest / 1000 % 60) * 1000 =
      date - date % 1000 := by
  unfold msPerDay midnight at *
  omega

/-- A date of four digits in the year is read back, to the second. -/
theorem parseDateTime_formatDateTime {date : ℤ} (hlow : 1000 ≤ localYear date)
    (hhigh : localYear date ≤ 9999) :
    parseDateTime (toString (formatDateTime date)) = some (date - date % 1000) := by
  obtain ⟨hyear, hmonth, hday, hhour, hminute, hsecond⟩ := formatDateTime_fields date
  have hstart : Period.monthStart (Period.monthIndex (localDay date)) ≤ localDay date :=
    Period.months.start_index_le _
  have hend : localDay date < Period.monthStart (Period.monthIndex (localDay date) + 1) :=
    Period.months.lt_start_succ _
  have hindex : localYear date * 12 + ((Period.monthIndex (localDay date) + 2) % 12 + 1 - 1) - 2 =
      Period.monthIndex (localDay date) := by
    rw [localYear]
    omega
  have htext : ((Nat.ofDigitChars 10 (toString (formatDateTime date)).toList 0 : ℕ) : ℤ) =
      formatDateTime date := by
    obtain ⟨n, hn⟩ := Int.eq_ofNat_of_zero_le (show 0 ≤ formatDateTime date by omega)
    rw [hn, show toString (n : ℤ) = n.repr from rfl, Nat.toList_repr,
      Nat.ofDigitChars_toDigits (by decide) (by decide)]
  rw [parseDateTime, htext]
  rw [hyear, hmonth, hday, hhour, hminute, hsecond, hindex, if_pos]
  · rw [show Period.monthStart (Period.monthIndex (localDay date)) +
      (localDay date - Period.monthStart (Period.monthIndex (localDay date)) + 1 - 1) =
        localDay date by omega]
    exact congrArg some (day_add_second (Int.ediv_mul_add_emod _ _))
  · have hsecond : 0 ≤ (date - midnight) % msPerDay ∧ (date - midnight) % msPerDay < 86400000 :=
      ⟨Int.emod_nonneg _ msPerDay_pos.ne', Int.emod_lt_of_pos _ msPerDay_pos⟩
    generalize (date - midnight) % msPerDay = rest at hsecond
    exact ⟨by omega, by omega, by omega, by omega, by omega, by omega, by omega, by omega, by omega⟩

/-- A date up to the year 3518 takes nine digits in base 32. -/
theorem length_formatDateTime {date : ℤ} (hlow : 1000 ≤ localYear date)
    (hhigh : localYear date ≤ 3518) :
    (intToDhex (formatDateTime date).toNat).length = 9 := by
  obtain ⟨hyear, hmonth, -, -, -, -⟩ := formatDateTime_fields date
  refine length_intToDhex_eq ?_ ?_ <;> omega

/-! ### The layout -/

namespace QrCodeStatic

variable {qrCode : QrCodeStatic} {r : Randoms}

theorem prefixFlag_le : qrCode.prefixFlag ≤ 7 := by
  rw [prefixFlag]
  split_ifs <;> decide

theorem createTxId_eq (hbuilt : qrCode.payableManyTimes ∨ qrCode.expirationDate.isSome) :
    qrCode.createTxId r = .ok (qrCode.result r ++ checksum (qrCode.result r)) := by
  rw [createTxId, if_neg]
  rintro ⟨hmany, hdate⟩
  rw [hmany, hdate] at hbuilt
  rcases hbuilt with hmany | hdate <;> contradiction

theorem alphanumeric_result : ∀ c ∈ qrCode.result r, Alphanumeric c := by
  rw [result]
  refine List.forall_mem_cons.mpr ⟨?_, ?_⟩
  · have hflag : qrCode.prefixFlag ≤ 7 := prefixFlag_le
    rw [Alphanumeric]
    omega
  · intro c hc
    rcases List.mem_append.mp hc with hc | hc
    · rcases List.mem_append.mp hc with hc | hc
      · rw [datetime] at hc
        cases hdate : qrCode.expirationDate with
        | none => exact r.datetime.alphanumeric c (by simpa only [hdate] using hc)
        | some date => exact alphanumeric_intToDhex _ c (by simpa only [hdate] using hc)
      · rw [amount] at hc
        split at hc
        · rcases List.mem_append.mp hc with hc | hc
          · rw [List.eq_of_mem_replicate hc]
            decide
          · exact alphanumeric_intToDhex _ c hc
        · exact r.amount.alphanumeric c hc
    · exact r.random.alphanumeric c hc

theorem result_lt : ∀ c ∈ qrCode.result r, c < 128 := by
  intro c hc
  have h := alphanumeric_result c hc
  rw [Alphanumeric] at h
  omega

theorem length_amount (h : qrCode.documentValue.getD 0 < 32 ^ 8) :
    (qrCode.amount r).length = 8 := by
  rw [amount]
  split
  · rw [List.length_leftpad, length_intToDhex, max_eq_left]
    rw [Nat.digits_length_le_iff (by decide)]
    omega
  · exact r.amount.length_eq

theorem length_datetime (h : ∀ t ∈ qrCode.expirationDate, 1000 ≤ localYear t ∧ localYear t ≤ 3518) :
    (qrCode.datetime r).length = 9 := by
  rw [datetime]
  cases hdate : qrCode.expirationDate with
  | none => exact r.datetime.length_eq
  | some date =>
      obtain ⟨hlow, hhigh⟩ := h date hdate
      exact length_formatDateTime hlow hhigh

/-- The flags of a `txId` whose first letter stands for them. -/
theorem flags_of_head {txId : TxId} (h : txId.headD 0 = 90 - qrCode.prefixFlag) :
    txId.isPayableManyTimes = qrCode.payableManyTimes ∧ txId.hasValue = qrCode.hasValue ∧
      txId.hasDueDate = qrCode.expirationDate.isSome := by
  rw [TxId.isPayableManyTimes, TxId.hasValue, TxId.hasDueDate, TxId.prefixFlags, h, prefixFlag]
  cases qrCode.payableManyTimes <;> cases qrCode.expirationDate.isSome <;>
    cases qrCode.hasValue <;> decide

/-- The parts of a `txId` of the right length. -/
theorem fields_of_length (hdatetime : (qrCode.datetime r).length = 9)
    (hamount : (qrCode.amount r).length = 8) :
    let txId : TxId := qrCode.result r ++ checksum (qrCode.result r)
    txId.length = 25 ∧ txId.field 1 9 = qrCode.datetime r ∧ txId.field 10 8 = qrCode.amount r ∧
      txId.take 24 = qrCode.result r ∧ txId.field 24 1 = checksum (qrCode.result r) := by
  intro txId
  have hlength : (qrCode.result r).length = 24 := by
    rw [result, List.length_cons, List.length_append, List.length_append, hdatetime, hamount,
      r.random.length_eq]
  have hchecksum : (checksum (qrCode.result r)).length = 1 := length_checksum result_lt
  refine ⟨?_, ?_, ?_, List.take_left' hlength, ?_⟩
  · rw [List.length_append, hlength, hchecksum]
  · change ((_ ++ _ ++ _) ++ _ : List ℕ).take 9 = _
    rw [List.append_assoc, List.append_assoc, List.take_left' hdatetime]
  · change (((_ ++ _ ++ _) ++ _ : List ℕ).drop 9).take 8 = _
    rw [List.append_assoc, List.append_assoc, List.drop_left' hdatetime, List.take_left' hamount]
  · rw [TxId.field, List.drop_left' hlength]
    exact List.take_of_length_le hchecksum.le

/-- What was written is read back. -/
structure RoundTrips (qrCode : QrCodeStatic) (txId : TxId) : Prop where
  length_eq : txId.length = 25
  isFastFormat : txId.isFastFormat
  checkTxId : txId.checkTxId
  isPayableManyTimes : txId.isPayableManyTimes = qrCode.payableManyTimes
  hasValue : txId.hasValue = qrCode.hasValue
  hasDueDate : txId.hasDueDate = qrCode.expirationDate.isSome
  getValue : txId.hasValue → some txId.getValue = qrCode.documentValue
  getDueDate : txId.hasDueDate →
    txId.getDueDate parseDateTime = qrCode.expirationDate.map fun date => date - date % 1000

variable (qrCode r)

/-- A value that is not negative and fits, and a due date up to the year 3518, are read back. -/
theorem roundTrips (hbuilt : qrCode.payableManyTimes ∨ qrCode.expirationDate.isSome)
    (hvalue : ∀ v ∈ qrCode.documentValue, 0 ≤ v ∧ v < 32 ^ 8)
    (hdate : ∀ t ∈ qrCode.expirationDate, 1973 ≤ localYear t ∧ localYear t ≤ 3518) :
    ∃ txId, qrCode.createTxId r = .ok txId ∧ RoundTrips qrCode txId := by
  have hvalue' : 0 ≤ qrCode.documentValue.getD 0 ∧ qrCode.documentValue.getD 0 < 32 ^ 8 := by
    cases hdocument : qrCode.documentValue with
    | none => decide
    | some v => exact hvalue v hdocument
  have hdate' : ∀ t ∈ qrCode.expirationDate, 1000 ≤ localYear t ∧ localYear t ≤ 3518 :=
    fun t ht => ⟨by have := (hdate t ht).1; omega, (hdate t ht).2⟩
  obtain ⟨hlength, hfieldDate, hfieldValue, htake, hchecksum⟩ := fields_of_length (r := r)
    (length_datetime hdate') (length_amount hvalue'.2)
  have hhead : (qrCode.result r ++ checksum (qrCode.result r)).headD 0 = 90 - qrCode.prefixFlag :=
    rfl
  obtain ⟨hmany, hhas, hdue⟩ := flags_of_head hhead
  refine ⟨_, createTxId_eq hbuilt, ⟨hlength, ?_, ?_, hmany, hhas, hdue, ?_, ?_⟩⟩
  · have hflag : qrCode.prefixFlag ≤ 7 := prefixFlag_le
    change decide (90 - 8 < 90 - qrCode.prefixFlag) && decide (90 - qrCode.prefixFlag ≤ 90)
    rw [Bool.and_eq_true, decide_eq_true_eq, decide_eq_true_eq]
    omega
  · rw [TxId.checkTxId, htake, hchecksum]
    exact beq_self_eq_true _
  · intro hread
    rw [hhas] at hread
    rw [TxId.getValue, hfieldValue, amount, if_pos hread, dhexToInt_leftpad]
    cases hdocument : qrCode.documentValue with
    | none => simp [QrCodeStatic.hasValue, hdocument] at hread
    | some v => exact congrArg some (Int.toNat_of_nonneg (hvalue v hdocument).1)
  · intro hread
    rw [hdue] at hread
    obtain ⟨date, hsome⟩ := Option.isSome_iff_exists.mp hread
    obtain ⟨hlow, hhigh⟩ := hdate' date hsome
    obtain ⟨hyear, -⟩ := formatDateTime_fields date
    rw [TxId.getDueDate, hfieldDate, datetime, hsome]
    dsimp only
    rw [dhexToInt_intToDhex, Int.toNat_of_nonneg (by omega),
      parseDateTime_formatDateTime hlow (by omega)]
    rfl

/-- 10.00, due at noon of 2 January 2024. -/
theorem roundTrips_due : ∃ txId,
    QrCodeStatic.createTxId ⟨some 1000, some 1704207600123, false⟩ .constant = .ok txId ∧
      RoundTrips ⟨some 1000, some 1704207600123, false⟩ txId :=
  roundTrips _ .constant (.inr rfl) (by decide) (by decide)

/-- A negative value is below `32 ^ 8` too. -/
theorem negative_lost : (-1 : ℤ) < 32 ^ 8 ∧
    ¬∃ txId, QrCodeStatic.createTxId ⟨some (-1), none, true⟩ .constant = .ok txId ∧
      RoundTrips ⟨some (-1), none, true⟩ txId := by
  refine ⟨by decide, ?_⟩
  rintro ⟨txId, hcreate, hround⟩
  have hflag : txId.hasValue := hround.hasValue.trans rfl
  have hget := hround.getValue hflag
  cases Except.ok.inj hcreate
  exact absurd hget (by decide)

end QrCodeStatic

end ZroServices.Pix
