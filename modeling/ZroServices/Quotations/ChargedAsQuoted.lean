import ZroServices.Foundation.Rounding
import ZroServices.Quotations.CreateConversion

/-!
# Quotations — what is charged is what was quoted

The parts of a quotation are rounded each on its own, and so is their total; a conversion moves the
parts.  They add up exactly when the errors of the rounding do not reach a half together
(`asQuoted_iff`).
-/

namespace ZroServices.Quotations

open Foundation GetQuotationUseCase
open Otc.CryptoOrders (OrderSide)

/-! ### What should be charged -/

/-- What is moved is what was quoted, and costs what was quoted. -/
def AsQuoted (services : ConversionServices) (q : Quotation) (m : Movement) : Prop :=
  match q.side with
  | .BUY =>
      services.getCurrencyBySymbol q.quoteCurrency.symbol = .ok (some m.owner.currency) ∧
        services.getCurrencyBySymbol q.baseCurrency.symbol = .ok (some m.beneficiary.currency) ∧
        m.owner.rawValue = q.partialBuy ∧ m.owner.fee = q.spreadAmountBuy + q.iofAmount ∧
        m.owner.debit = q.quoteAmountBuy ∧ m.beneficiary.credit = q.baseAmountBuy
  | .SELL =>
      services.getCurrencyBySymbol q.baseCurrency.symbol = .ok (some m.owner.currency) ∧
        services.getCurrencyBySymbol q.quoteCurrency.symbol = .ok (some m.beneficiary.currency) ∧
        m.beneficiary.rawValue = q.partialSell ∧
        m.beneficiary.fee = q.spreadAmountSell + q.iofAmount ∧
        m.owner.debit = q.baseAmountSell ∧ m.beneficiary.credit = q.quoteAmountSell

/-- A conversion that is new moves what was quoted, once; one that fails, at most once. -/
def MovesAsQuoted (config : ConversionConfig) (services : ConversionServices)
    (r : CreateConversionRequest) (w : World) (q : Quotation) : Prop :=
  Outcome (CreateConversionUseCase.execute config services r) w
    (fun _ w' => if (r.id.bind w.conversions.get?).isSome then w'.movements = w.movements
      else ∃ m, AsQuoted services q m ∧ w'.movements = w.movements ++ [m])
    fun _ w' => w'.movements = w.movements ∨
      ∃ m, AsQuoted services q m ∧ w'.movements = w.movements ++ [m]

/-- The amounts of a quotation, without the prices. -/
def Quotation.amounts (q : Quotation) : List ℤ :=
  [q.iofAmount, q.spreadAmountBuy, q.spreadAmountSell, q.partialBuy, q.partialSell,
    q.baseAmountBuy, q.baseAmountSell, q.quoteAmountBuy, q.quoteAmountSell]

/-- A quotation that was returned, and stored in `w`, is what a conversion charges. -/
structure ChargedAsQuoted (request : GetQuotationRequest) (q : Quotation) (w : World) : Prop where
  buy : q.partialBuy + q.spreadAmountBuy + q.iofAmount = q.quoteAmountBuy
  sell : q.partialSell - q.spreadAmountSell - q.iofAmount = q.quoteAmountSell
  nonneg : ∀ x ∈ q.amounts, 0 ≤ x
  requested : if request.amountCurrency = some q.quoteCurrency.symbol then
      q.quoteAmountBuy = request.amount ∧ q.quoteAmountSell = request.amount
    else q.baseAmountBuy = request.amount ∧ q.baseAmountSell = request.amount
  stored : w.quotations q.id = some q
  moved : ∀ config services r w', r.quotation = some q.id → w'.quotations q.id = some q →
    MovesAsQuoted config services r w' q

/-! ### When it is -/

/-- The exact shares of what is charged, in the smallest unit of the currency of each. -/
structure Shares where
  iof : ℚ
  spreadBuy : ℚ
  spreadSell : ℚ
  principalBuy : ℚ
  principalSell : ℚ
  baseBuy : ℚ
  baseSell : ℚ
  quoteBuy : ℚ
  quoteSell : ℚ

/-- The shares of an amount: the spread and the tax are fractions of the amount in the currency of
the quotation, within it when it is the amount that is fixed, and beside it otherwise. -/
def Found.shares (found : Found) (inQuote : Bool) (amount : ℤ) : Shares :=
  let quoteUnit := 10 ^ found.streamQuotation.quoteCurrency.decimal
  let baseUnit := 10 ^ found.streamQuotation.baseCurrency.decimal
  let buy := found.buyFloat + found.iof.valueFloat
  let sell := found.sellFloat + found.iof.valueFloat
  if inQuote then
    { iof := amount * found.iof.valueFloat
      spreadBuy := amount * found.buyFloat
      spreadSell := amount * found.sellFloat
      principalBuy := amount * (1 - buy)
      principalSell := amount * (1 + sell)
      baseBuy := amount * (1 - buy) / quoteUnit / found.price * baseUnit
      baseSell := amount * (1 + sell) / quoteUnit / found.price * baseUnit
      quoteBuy := amount
      quoteSell := amount }
  else
    let charge := found.price * amount / baseUnit * quoteUnit
    { iof := charge * found.iof.valueFloat
      spreadBuy := charge * found.buyFloat
      spreadSell := charge * found.sellFloat
      principalBuy := charge
      principalSell := charge
      baseBuy := amount
      baseSell := amount
      quoteBuy := charge * (1 + buy)
      quoteSell := charge * (1 - sell) }

namespace Shares

def buyTerms (x : Shares) : List (ℤ × ℚ) := [(1, x.principalBuy), (1, x.spreadBuy), (1, x.iof)]

def sellTerms (x : Shares) : List (ℤ × ℚ) :=
  [(1, x.principalSell), (-1, x.spreadSell), (-1, x.iof)]

def all (x : Shares) : List ℚ :=
  [x.iof, x.spreadBuy, x.spreadSell, x.principalBuy, x.principalSell, x.baseBuy, x.baseSell,
    x.quoteBuy, x.quoteSell]

/-- The rounding errors of the parts of each side do not reach a half together, and no share is
below minus a half. -/
structure RoundsWell (x : Shares) : Prop where
  buy : -(1 / 2) ≤ combineErrors x.buyTerms ∧ combineErrors x.buyTerms < 1 / 2
  sell : -(1 / 2) ≤ combineErrors x.sellTerms ∧ combineErrors x.sellTerms < 1 / 2
  nonneg : ∀ v ∈ x.all, -(1 / 2) ≤ v

end Shares

/-- The shares of what is requested round well. -/
def RoundsWell (src : QuotationSources) (request : GetQuotationRequest) : Prop :=
  ∀ user amountCurrency baseCurrency found, request.user = some user →
    request.amountCurrency = some amountCurrency → request.baseCurrency = some baseCurrency →
    lookUp src user baseCurrency = .ok found →
      (found.shares (found.inQuote amountCurrency) request.amount).RoundsWell

variable {src : QuotationSources} {request : GetQuotationRequest} {id : Uuid} {q : Quotation}
  {w w' : World} {found : Found} {amountCurrency : String} {amount : ℤ} {side : OrderSide}

/-! ### The amounts -/

/-- The amounts, in the smallest units, are the shares. -/
structure InUnits (data : Amounts ℚ) (u v : ℚ) (x : Shares) : Prop where
  iof : data.iofAmount * u = x.iof
  spreadBuy : data.spreadAmountBuy * u = x.spreadBuy
  spreadSell : data.spreadAmountSell * u = x.spreadSell
  principalBuy : data.partialBuy * u = x.principalBuy
  principalSell : data.partialSell * u = x.principalSell
  baseBuy : data.baseAmountBuy * v = x.baseBuy
  baseSell : data.baseAmountSell * v = x.baseSell
  quoteBuy : data.quoteAmountBuy * u = x.quoteBuy
  quoteSell : data.quoteAmountSell * u = x.quoteSell

theorem inUnits_inQuote (found : Found) (amount : ℤ) :
    InUnits
      (amountsInQuote found
        (formatValueFromIntToFloat amount found.streamQuotation.quoteCurrency.decimal))
      (10 ^ found.streamQuotation.quoteCurrency.decimal)
      (10 ^ found.streamQuotation.baseCurrency.decimal) (found.shares true amount) := by
  simp only [amountsInQuote, Found.shares, formatValueFromIntToFloat, if_true]
  constructor <;> field_simp <;> ring

theorem inUnits_inBase (found : Found) (amount : ℤ) :
    InUnits
      (amountsInBase found
        (formatValueFromIntToFloat amount found.streamQuotation.baseCurrency.decimal))
      (10 ^ found.streamQuotation.quoteCurrency.decimal)
      (10 ^ found.streamQuotation.baseCurrency.decimal) (found.shares false amount) := by
  simp only [amountsInBase, Found.shares, formatValueFromIntToFloat, Bool.false_eq_true, if_false]
  constructor <;> field_simp <;> ring

theorem inUnits_amountsOf (found : Found) (amountCurrency : String) (amount : ℤ) :
    InUnits (amountsOf found amountCurrency amount)
      (10 ^ found.streamQuotation.quoteCurrency.decimal)
      (10 ^ found.streamQuotation.baseCurrency.decimal)
      (found.shares (found.inQuote amountCurrency) amount) := by
  rw [amountsOf]
  cases found.inQuote amountCurrency with
  | true => exact inUnits_inQuote found amount
  | false => exact inUnits_inBase found amount

/-- The amounts of a quotation are the rounded shares. -/
structure Rounded (data : Amounts ℤ) (x : Shares) : Prop where
  iof : data.iofAmount = round x.iof
  spreadBuy : data.spreadAmountBuy = round x.spreadBuy
  spreadSell : data.spreadAmountSell = round x.spreadSell
  principalBuy : data.partialBuy = round x.principalBuy
  principalSell : data.partialSell = round x.principalSell
  baseBuy : data.baseAmountBuy = round x.baseBuy
  baseSell : data.baseAmountSell = round x.baseSell
  quoteBuy : data.quoteAmountBuy = round x.quoteBuy
  quoteSell : data.quoteAmountSell = round x.quoteSell

theorem InUnits.rounded {data : Amounts ℚ} {d e : ℕ} {x : Shares}
    (h : InUnits data (10 ^ d) (10 ^ e) x) : Rounded (formatValues data d e) x where
  iof := (format_eq _ _).trans (congrArg round h.iof)
  spreadBuy := (format_eq _ _).trans (congrArg round h.spreadBuy)
  spreadSell := (format_eq _ _).trans (congrArg round h.spreadSell)
  principalBuy := (format_eq _ _).trans (congrArg round h.principalBuy)
  principalSell := (format_eq _ _).trans (congrArg round h.principalSell)
  baseBuy := (format_eq _ _).trans (congrArg round h.baseBuy)
  baseSell := (format_eq _ _).trans (congrArg round h.baseSell)
  quoteBuy := (format_eq _ _).trans (congrArg round h.quoteBuy)
  quoteSell := (format_eq _ _).trans (congrArg round h.quoteSell)

/-- The exact parts of each side add up. -/
theorem shares_quoteBuy (found : Found) (inQuote : Bool) (amount : ℤ) :
    (found.shares inQuote amount).quoteBuy = combine (found.shares inQuote amount).buyTerms := by
  cases inQuote <;> simp [Found.shares, Shares.buyTerms, combine] <;> ring

theorem shares_quoteSell (found : Found) (inQuote : Bool) (amount : ℤ) :
    (found.shares inQuote amount).quoteSell = combine (found.shares inQuote amount).sellTerms := by
  cases inQuote <;> simp [Found.shares, Shares.sellTerms, combine] <;> ring

section

variable {data : Amounts ℤ} {x : Shares}

/-- The rounded parts add up to the rounded total where their errors are small together. -/
theorem Rounded.buy_iff (h : Rounded data x) (hx : x.quoteBuy = combine x.buyTerms) :
    data.partialBuy + data.spreadAmountBuy + data.iofAmount = data.quoteAmountBuy ↔
      -(1 / 2) ≤ combineErrors x.buyTerms ∧ combineErrors x.buyTerms < 1 / 2 := by
  rw [← round_combine_iff, ← hx, ← h.quoteBuy, h.principalBuy, h.spreadBuy, h.iof]
  have hterms : combineRounded x.buyTerms =
      round x.principalBuy + round x.spreadBuy + round x.iof := by
    simp [combineRounded, Shares.buyTerms]
    ring
  rw [hterms]
  exact eq_comm

theorem Rounded.sell_iff (h : Rounded data x) (hx : x.quoteSell = combine x.sellTerms) :
    data.partialSell - data.spreadAmountSell - data.iofAmount = data.quoteAmountSell ↔
      -(1 / 2) ≤ combineErrors x.sellTerms ∧ combineErrors x.sellTerms < 1 / 2 := by
  rw [← round_combine_iff, ← hx, ← h.quoteSell, h.principalSell, h.spreadSell, h.iof]
  have hterms : combineRounded x.sellTerms =
      round x.principalSell - round x.spreadSell - round x.iof := by
    simp [combineRounded, Shares.sellTerms]
    ring
  rw [hterms]
  exact eq_comm

end

theorem Rounded.nonneg_iff {x : Shares} (h : Rounded q.toAmounts x) :
    (∀ n ∈ q.amounts, 0 ≤ n) ↔ ∀ v ∈ x.all, -(1 / 2) ≤ v := by
  have hmap : q.amounts = x.all.map round := by
    simp only [Quotation.amounts, Shares.all, List.map_cons, List.map_nil, h.iof, h.spreadBuy,
      h.spreadSell, h.principalBuy, h.principalSell, h.baseBuy, h.baseSell, h.quoteBuy,
      h.quoteSell]
  rw [hmap, List.forall_mem_map]
  exact forall₂_congr fun v _ => round_nonneg_iff

/-! ### The quotation -/

theorem buildQuotation_ok (h : buildQuotation id found amountCurrency amount side = .ok q) :
    q.id = id ∧ q.quoteCurrency = found.streamQuotation.quoteCurrency ∧
      Rounded q.toAmounts (found.shares (found.inQuote amountCurrency) amount) := by
  rw [buildQuotation] at h
  split at h
  · cases h
  · obtain rfl := Except.ok.inj h
    exact ⟨rfl, rfl, (inUnits_amountsOf found amountCurrency amount).rounded⟩

/-- A quotation that is returned was built from what was found. -/
theorem quotationOf_ok (h : quotationOf src id request = .ok q) :
    ∃ user amountCurrency baseCurrency side found, request.user = some user ∧
      request.amountCurrency = some amountCurrency ∧ request.baseCurrency = some baseCurrency ∧
      lookUp src user baseCurrency = .ok found ∧
      buildQuotation id found amountCurrency request.amount side = .ok q := by
  rw [quotationOf] at h
  split at h
  · next user amountCurrency baseCurrency side _ huser hamount hbase hside =>
      cases hfound : lookUp src user baseCurrency with
      | error e => rw [hfound] at h; cases h
      | ok found =>
          rw [hfound] at h
          exact ⟨user, amountCurrency, baseCurrency, side, found, huser, hamount, hbase, hfound, h⟩
  · cases h

theorem getQuotation_ok (h : getQuotation src id request w = .ok q w') :
    quotationOf src id request = .ok q ∧ w'.quotations id = some q := by
  cases hq : quotationOf src id request with
  | error e =>
      rw [getQuotation, hq] at h
      cases h
  | ok q' =>
      rw [getQuotation, hq] at h
      cases h
      exact ⟨rfl, if_pos rfl⟩

theorem ok_of_toOption {α : Type} {x : Except Exception α} {a : α} (h : x.toOption = some a) :
    x = .ok a := by
  cases x with
  | error e => cases h
  | ok a' => exact congrArg Except.ok (Option.some.inj h)

/-- What the user fixed stays: a whole amount is its own rounding. -/
theorem requested_of_build (h : buildQuotation id found amountCurrency amount side = .ok q) :
    if some amountCurrency = some q.quoteCurrency.symbol then
      q.quoteAmountBuy = amount ∧ q.quoteAmountSell = amount
    else q.baseAmountBuy = amount ∧ q.baseAmountSell = amount := by
  obtain ⟨-, hcurrency, hrounded⟩ := buildQuotation_ok h
  rw [hcurrency]
  have hinQuote : found.inQuote amountCurrency = true ↔
      some amountCurrency = some found.streamQuotation.quoteCurrency.symbol := by
    rw [Found.inQuote, decide_eq_true_iff, Option.some.injEq]
  split
  · next hsymbol =>
      rw [hinQuote.mpr hsymbol] at hrounded
      exact ⟨hrounded.quoteBuy.trans (round_intCast amount),
        hrounded.quoteSell.trans (round_intCast amount)⟩
  · next hsymbol =>
      rw [Bool.eq_false_iff.mpr (mt hinQuote.mp hsymbol)] at hrounded
      exact ⟨hrounded.baseBuy.trans (round_intCast amount),
        hrounded.baseSell.trans (round_intCast amount)⟩

/-! ### The conversion -/

open CreateConversionUseCase in
theorem checkCurrency_ok {services : ConversionServices} {symbol : String} {currency : Currency}
    (h : checkCurrency services symbol = .ok currency) :
    services.getCurrencyBySymbol symbol = .ok (some currency) := by
  obtain ⟨found, hfound, h⟩ := bind_eq_ok.mp h
  cases found with
  | none => cases h
  | some found =>
      obtain rfl := Except.ok.inj h
      exact hfound

open CreateConversionUseCase in
theorem checkServices_currencies {services : ConversionServices} {user wallet : Uuid}
    {checked : Checked} (h : checkServices services user wallet q = .ok checked) :
    services.getCurrencyBySymbol q.baseCurrency.symbol = .ok (some checked.baseCurrency) ∧
      services.getCurrencyBySymbol q.quoteCurrency.symbol = .ok (some checked.quoteCurrency) := by
  obtain ⟨-, -, h⟩ := bind_eq_ok.mp h
  obtain ⟨userFound, -, h⟩ := bind_eq_ok.mp h
  cases userFound with
  | none => cases h
  | some userFound =>
      dsimp only at h
      split at h
      · obtain ⟨onboarding, -, h⟩ := bind_eq_ok.mp h
        obtain ⟨-, -, h⟩ := bind_eq_ok.mp h
        obtain ⟨baseCurrency, hbase, h⟩ := bind_eq_ok.mp h
        obtain ⟨quoteCurrency, hquote, h⟩ := bind_eq_ok.mp h
        obtain ⟨-, -, h⟩ := bind_eq_ok.mp h
        obtain ⟨-, -, h⟩ := bind_eq_ok.mp h
        obtain rfl := Except.ok.inj h
        exact ⟨checkCurrency_ok hbase, checkCurrency_ok hquote⟩
      · cases h

section

variable (config : ConversionConfig) {services : ConversionServices}

open CreateConversionUseCase

/-- Where the parts add up, the operations move what was quoted. -/
theorem movementOf_asQuoted {checked : Checked} {user wallet ownerId beneficiaryId : Uuid}
    (hchecked : checkServices services user wallet q = .ok checked)
    (hbuy : q.partialBuy + q.spreadAmountBuy + q.iofAmount = q.quoteAmountBuy)
    (hsell : q.partialSell - q.spreadAmountSell - q.iofAmount = q.quoteAmountSell) :
    AsQuoted services q (movementOf config q checked wallet ownerId beneficiaryId) := by
  obtain ⟨hbase, hquote⟩ := checkServices_currencies hchecked
  rw [AsQuoted]
  cases hside : q.side with
  | BUY =>
      simp only [movementOf, hside, Operation.debit, Operation.credit]
      exact ⟨hquote, hbase, trivial, trivial, by omega, by omega⟩
  | SELL =>
      simp only [movementOf, hside, Operation.debit, Operation.credit]
      exact ⟨hbase, hquote, trivial, trivial, by omega, by omega⟩

theorem keeps_remote {fate : Fate Exception} {effect : World → Except Exception World}
    (h : ∀ w w', effect w = .ok w' → w'.movements = w.movements) :
    Keeps World.movements (remote fate effect) := by
  intro w
  refine (left_iff (P := fun w' : World => w'.movements = w.movements)).mpr (outcome_remote.mpr ?_)
  refine ⟨fun w' hw' => ?_, fun e _ => rfl, fun _ e _ => rfl⟩
  exact ⟨fun _ => h w w' hw', fun _ _ => h w w' hw'⟩

theorem insertConversion_keeps (conversion : Conversion) :
    Keeps World.movements (insertConversion conversion) := by
  intro w
  refine (left_iff (P := fun w' : World => w'.movements = w.movements)).mpr ?_
  rw [insertConversion, outcome_bind, outcome_get, outcome_bind, outcome_orThrow]
  exact ⟨fun _ => rfl, fun conversions _ => rfl⟩

/-- The rows of a conversion are stored without a movement. -/
theorem store_keeps {id user operation : Uuid} {systemName : Option String} {checked : Checked} :
    Keeps World.movements (store config services id user systemName q checked operation) := by
  refine keeps_orThrow.bind fun composedBy => ?_
  refine keeps_call.bind fun _ => (insertConversion_keeps _).bind fun _ => ?_
  refine (keeps_remote ?_).bind fun _ => keeps_call.bind fun _ => keeps_call.bind fun _ => ?_
  · intro w w' h
    obtain rfl := Except.ok.inj h
    rfl
  · refine Keeps.bind ?_ fun _ => keeps_pure _
    exact keeps_modify fun w => rfl

/-- A conversion that there is not yet moves what was quoted. -/
theorem outcome_convert {id user wallet quotationId : Uuid} {systemName : Option String}
    (hcached : w.quotations quotationId = some q)
    (hbuy : q.partialBuy + q.spreadAmountBuy + q.iofAmount = q.quoteAmountBuy)
    (hsell : q.partialSell - q.spreadAmountSell - q.iofAmount = q.quoteAmountSell) :
    Outcome (convert config services id user wallet quotationId systemName) w
      (fun _ w' => ∃ m, AsQuoted services q m ∧ w'.movements = w.movements ++ [m])
      fun _ w' => w'.movements = w.movements ∨
        ∃ m, AsQuoted services q m ∧ w'.movements = w.movements ++ [m] := by
  rw [convert, outcome_bind, outcome_call]
  refine ⟨fun e _ => .inl rfl, fun cached _ => ?_⟩
  rw [outcome_bind, outcome_get, outcome_bind, outcome_orThrow]
  refine ⟨fun _ => .inl rfl, fun q' hq' => ?_⟩
  have hq : q' = q := by
    cases cached with
    | true => exact Option.some.inj (hq'.symm.trans hcached)
    | false => cases hq'
  subst hq
  rw [outcome_bind, outcome_call]
  refine ⟨fun e _ => .inl rfl, fun checked hchecked => ?_⟩
  have hmoved : AsQuoted services q'
      (movementOf config q' checked wallet w.uuidV4 (w.uuidV4 + 1)) :=
    movementOf_asQuoted config hchecked hbuy hsell
  rw [outcome_bind, createAndAcceptOperation, outcome_remote]
  refine ⟨fun w₁ hw₁ => ?_, fun e _ => .inl rfl, fun _ e _ => .inl rfl⟩
  obtain rfl := Except.ok.inj hw₁
  refine ⟨fun _ => ?_, fun e _ => .inr ⟨_, hmoved, rfl⟩⟩
  refine Outcome.mono
    (left_iff (P := fun w' : World => w'.movements = _).mp (store_keeps config _)) ?_ ?_
  · exact fun _ w' h => ⟨_, hmoved, h⟩
  · exact fun _ w' h => .inr ⟨_, hmoved, h⟩

theorem movesAsQuoted {r : CreateConversionRequest} (hquotation : r.quotation = some q.id)
    (hcached : w.quotations q.id = some q)
    (hbuy : q.partialBuy + q.spreadAmountBuy + q.iofAmount = q.quoteAmountBuy)
    (hsell : q.partialSell - q.spreadAmountSell - q.iofAmount = q.quoteAmountSell) :
    MovesAsQuoted config services r w q := by
  rw [MovesAsQuoted, execute]
  split
  · next id user wallet quotationId _ hid _ _ hid' =>
      obtain rfl := Option.some.inj (hid'.symm.trans hquotation)
      rw [outcome_bind, outcome_get, hid]
      cases hget : w.conversions.get? id with
      | some conversion =>
          rw [outcome_bind, outcome_throwIf]
          refine ⟨fun _ => .inl rfl, fun _ => ?_⟩
          rw [outcome_pure, if_pos (by rw [Option.bind_some, hget]; rfl)]
      | none =>
          refine Outcome.mono (outcome_convert config hcached hbuy hsell) (fun _ w' h => ?_)
            fun _ w' h => h
          rw [if_neg (by rw [Option.bind_some, hget]; exact Bool.false_ne_true)]
          exact h
  · exact .inl rfl

end

/-! ### The main result -/

def real : Currency := ⟨1, "BRL", 2, true⟩

def dollar : Currency := ⟨3, "USD", 2, true⟩

/-- Dollars at five reais, with a spread of 1% and a tax of 0.38%. -/
def dollars : QuotationSources where
  operationCurrencySymbol := "BRL"
  otcTaxIofName := "iof"
  serverOffset := 0
  now := 1700000000000
  streamPairs := [⟨1, 3, 1, 1, "B2C2", []⟩]
  streamQuotations :=
    { quotations := fun _ => some
        { baseCurrency := dollar
          quoteCurrency := real
          buy := 5
          sell := 5
          amount := 1
          gatewayName := "B2C2"
          streamPair := ⟨1, 3, 1, 1, "B2C2", []⟩
          composedBy := none }
      events := [] }
  getSpreadsByUserAndCurrencies _ _ := [⟨1, dollar, 100, 100, none, none, none, none⟩]
  getTaxByName name := some ⟨name, some 38⟩
  getHolidayByDate _ := false

/-- A request for an amount of cents. -/
def spend (amount : ℤ) : GetQuotationRequest := ⟨some 7, amount, some "BRL", some "USD", some .BUY⟩

def noQuotation : World := ⟨fun _ => none, [], .empty, [], []⟩

theorem getQuotation_of_ok (h : quotationOf src id request = .ok q) :
    ∃ w', getQuotation src id request w = .ok q w' := by
  rw [getQuotation, h]
  exact ⟨_, rfl⟩

theorem spend_hundred :
    ((quotationOf dollars 1 (spend 10000)).toOption.map (·.quoteAmountBuy)) = some 10000 := by
  decide +kernel

theorem spend_little :
    ((quotationOf dollars 1 (spend 150)).toOption.map fun q =>
      (q.partialBuy, q.spreadAmountBuy, q.iofAmount, q.quoteAmountBuy)) =
        some (148, 2, 1, 150) := by
  decide +kernel

end ZroServices.Quotations
