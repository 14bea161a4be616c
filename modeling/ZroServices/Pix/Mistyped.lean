import ZroServices.Pix.CreateTxId

/-!
# PIX — a mistyped txId

The checksum of a `txId` is one digit in base 32, and the one that is kept is the upper one: it says
how the digits, the capital letters and the small letters of the `txId` add up, and nothing else.  A
digit in place of another digit, or a small letter in place of another, is not noticed
(`mistyped_iff`).
-/

namespace ZroServices.Pix

open Foundation

variable {qrCode : QrCodeStatic} {r : Randoms} {txId : TxId} {i c : ℕ}

/-- The `txId` with another character at a place. -/
def TxId.replaced (txId : TxId) (i c : ℕ) : TxId := txId.set i c

/-- The character that the first 24 ask for is the next one. -/
def Matches (txId : TxId) : Prop := txId[24]? = some (dhexDigit (7 - kinds (txId.take 24)))

instance : DecidablePred Matches := fun _ => inferInstanceAs (Decidable (_ = _))

/-- Where a `txId` has its usual length, the checksum is another one, or a character of another kind
stands there. -/
def Noticed (txId : TxId) (i c : ℕ) : Prop :=
  if txId.length = 25 then i = 24 ∨ (txId[i]?.map fun c => c >>> 5) ≠ some (c >>> 5)
  else ¬Matches (txId.replaced i c)

theorem kinds_set_iff {l : List ℕ} (h : i < l.length) :
    kinds (l.set i c) = kinds l ↔ (l[i]?.map fun c => c >>> 5) = some (c >>> 5) := by
  rw [kinds, kinds, List.map_set, exclusiveOr_set_eq_iff _ (by rwa [List.length_map]),
    List.getElem?_eq_getElem h, List.getElem_map, Option.map_some, Option.some_inj]
  exact eq_comm

theorem checksum_inj {l l' : List ℕ} (h : ∀ c ∈ l, c < 128) (h' : ∀ c ∈ l', c < 128) :
    checksum l = checksum l' ↔ kinds l = kinds l' := by
  have hkinds := kinds_lt h
  have hkinds' := kinds_lt h'
  rw [checksum_eq h, checksum_eq h', List.singleton_inj, dhexDigit, dhexDigit, if_pos (by omega),
    if_pos (by omega)]
  omega

theorem checkTxId_iff (h : ∀ c ∈ txId, c < 128) : txId.checkTxId ↔ Matches txId := by
  change (checksum (txId.take 24) == txId.field 24 1) = true ↔ _
  rw [beq_iff_eq, checksum_eq fun c hc => h c (List.mem_of_mem_take hc), TxId.field, Matches]
  cases hnext : txId[24]? with
  | none =>
      rw [List.drop_eq_nil_of_le (List.getElem?_eq_none_iff.mp hnext)]
      exact ⟨fun hnil => absurd hnil (List.cons_ne_nil _ _), fun hnone => by cases hnone⟩
  | some next =>
      obtain ⟨hlt, hget⟩ := List.getElem?_eq_some_iff.mp hnext
      rw [List.drop_eq_getElem_cons hlt, hget, List.take_succ_cons, List.take_zero,
        List.singleton_inj, Option.some_inj]
      exact eq_comm

/-- What is created is in the fast format, and its checksum follows it. -/
theorem created_split (h : qrCode.createTxId r = .ok txId) :
    txId = qrCode.result r ++ checksum (qrCode.result r) := by
  rw [QrCodeStatic.createTxId] at h
  split at h
  · cases h
  · exact (Except.ok.inj h).symm

theorem created_lt (h : qrCode.createTxId r = .ok txId) : ∀ c ∈ txId, c < 128 := by
  intro c hc
  rw [created_split h] at hc
  rcases List.mem_append.mp hc with hc | hc
  · exact QrCodeStatic.result_lt c hc
  · rw [checksum_eq QrCodeStatic.result_lt] at hc
    rw [List.mem_singleton.mp hc, dhexDigit]
    split <;> omega

theorem set_lt (h : ∀ c ∈ txId, c < 128) (hc : Alphanumeric c) : ∀ d ∈ txId.set i c, d < 128 := by
  intro d hd
  rcases List.mem_or_eq_of_mem_set hd with hd | rfl
  · exact h d hd
  · rw [Alphanumeric] at hc
    omega

/-- Every letter but the first is free of the format. -/
theorem isFastFormat_replaced (h : qrCode.createTxId r = .ok txId) (hi : 0 < i) :
    (txId.replaced i c).isFastFormat := by
  have hle : qrCode.prefixFlag ≤ 7 := QrCodeStatic.prefixFlag_le
  obtain ⟨i, rfl⟩ := Nat.exists_eq_add_one.mpr hi
  rw [created_split h]
  change decide (90 - 8 < 90 - qrCode.prefixFlag) && decide (90 - qrCode.prefixFlag ≤ 90)
  rw [Bool.and_eq_true, decide_eq_true_eq, decide_eq_true_eq]
  omega

/-- A character before the checksum is replaced. -/
theorem checkTxId_replaced_iff {l : List ℕ} (hlength : l.length = 24) (hl : ∀ c ∈ l, c < 128)
    (hc : Alphanumeric c) (hi : i < 24) :
    (TxId.replaced (l ++ checksum l) i c).checkTxId ↔
      (l[i]?.map fun c => c >>> 5) = some (c >>> 5) := by
  have hset : (l.set i c).length = 24 := by rw [List.length_set, hlength]
  rw [TxId.replaced, List.set_append_left i c (by omega)]
  change (checksum ((l.set i c ++ checksum l).take 24) == TxId.field _ 24 1) = true ↔ _
  rw [List.take_left' hset, TxId.field, List.drop_left' hset,
    List.take_of_length_le (length_checksum hl).le, beq_iff_eq, checksum_inj (set_lt hl hc) hl,
    kinds_set_iff (by omega)]

/-- The checksum itself is replaced. -/
theorem checkTxId_replaced_last {l : List ℕ} (hlength : l.length = 24) (hl : ∀ c ∈ l, c < 128) :
    (TxId.replaced (l ++ checksum l) 24 c).checkTxId ↔ (l ++ checksum l)[24]? = some c := by
  rw [checksum_eq hl, TxId.replaced, List.set_append_right 24 c hlength.le, hlength]
  change (checksum ((l ++ [c]).take 24) == TxId.field _ 24 1) = true ↔ _
  rw [List.take_left' hlength, TxId.field, List.drop_left' hlength, beq_iff_eq, checksum_eq hl,
    List.getElem?_append_right hlength.le, hlength]
  exact (List.singleton_inj.trans Option.some_inj.symm)

/-- Exactly a character of another kind is noticed, or another checksum. -/
theorem mistyped_iff (hcreate : qrCode.createTxId r = .ok txId) (hi : 0 < i)
    (hlt : i < txId.length) (hc : Alphanumeric c) (hne : txId[i]? ≠ some c) :
    (txId.replaced i c).isFastFormat ∧
      ((txId.replaced i c).checkTxId = false ↔ Noticed txId i c) := by
  refine ⟨isFastFormat_replaced hcreate hi, ?_⟩
  rw [← Bool.not_eq_true, Noticed]
  split
  case isFalse =>
    exact not_congr (checkTxId_iff (set_lt (created_lt hcreate) hc))
  case isTrue hlength =>
    have hresult : ∀ c ∈ qrCode.result r, c < 128 := QrCodeStatic.result_lt
    obtain rfl := created_split hcreate
    have hlength' : (qrCode.result r).length = 24 := by
      rw [List.length_append, length_checksum hresult] at hlength
      omega
    by_cases hlast : i = 24
    · rw [hlast] at hne ⊢
      rw [checkTxId_replaced_last hlength' hresult]
      exact ⟨fun _ => .inl rfl, fun _ => hne⟩
    · have hbefore : i < 24 := by omega
      rw [checkTxId_replaced_iff hlength' hresult hc hbefore,
        List.getElem?_append_left (by omega), or_iff_right hlast]

/-- The code of a QR code over 10.00. -/
def tenReais : TxId := QrCodeStatic.result ⟨some 1000, none, true⟩ .constant ++ [52]

/-- 10.01 is read where 10.00 was written, and the checksum agrees. -/
theorem ten_mistyped : QrCodeStatic.createTxId ⟨some 1000, none, true⟩ .constant = .ok tenReais ∧
    tenReais.getValue = 1000 ∧ tenReais[17]? = some 56 ∧ Alphanumeric 57 ∧
      (tenReais.replaced 17 57).checkTxId = true ∧ (tenReais.replaced 17 57).getValue = 1001 := by
  decide +kernel

theorem createTxId_ten :
    QrCodeStatic.createTxId ⟨some 1000, none, true⟩ .constant = .ok tenReais := by
  decide +kernel

theorem mistyped_iff_ten : (tenReais.replaced 17 57).isFastFormat ∧
    ((tenReais.replaced 17 57).checkTxId = false ↔ Noticed tenReais 17 57) :=
  mistyped_iff createTxId_ten (by decide) (by decide +kernel) (by decide) (by decide +kernel)

end ZroServices.Pix
