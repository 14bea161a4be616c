import Mathlib.Data.List.Infix
import ZroServices.Foundation.WeightedMean
import ZroServices.Operations.CreateOperation
import ZroServices.Operations.Settle

/-!
# Operations — the average price of a crypto account

`HandleCalculateCryptoAvgPriceEventUseCase` handles the event of an accepted credit: it weighs the
price of the credit against the average price so far.  The event does not say what the account
held when it was credited; the handler takes the balance that it finds, less the credit.  So it is
right when the balance it finds is the one the credit left (`Timely`), and then the average price
is the rounded mean of the credits (`run_average`).  Of the five transaction types that it names,
a `||` between two labels of its `switch` leaves three (`handledTags`).
-/

namespace ZroServices

open Foundation

namespace AvgPrice

/-! ### The handler -/

inductive CurrencyType where
  | FIAT
  | CRYPTO
  | FAN_TOKEN
  | DIGITAL_ASSET
  | UTILITY_TOKEN
  | DEFI
  deriving DecidableEq, Repr

structure TypedCurrency extends Currency where
  type : CurrencyType
  deriving DecidableEq, Repr

/-- A wallet account with its average price, of which `0` is the default. -/
structure PricedWalletAccount extends WalletAccount where
  averagePrice : ℤ
  deriving DecidableEq, Repr

instance : Keyed PricedWalletAccount WalletAccountId := ⟨fun a => a.id⟩

/-- What the handler reads of a conversion. -/
structure Conversion where
  usdQuote : ℚ
  quote : ℚ
  deriving DecidableEq, Repr

/-- What the handler does not write: the configured tags, the repositories of currencies and
operations, and the OTC service, which returns a price, asked at an instant, or throws. -/
structure Env where
  cryptoTransactionTags : String
  currencyById : CurrencyId → Option TypedCurrency
  operationById : Uuid → Option Operation
  getConversionByOperation : Uuid → Option Conversion
  getCryptoPriceByCurrencyAndDate : ℤ → TypedCurrency → ℤ → Option ℤ

inductive Exception where
  | missingData (fields : List String)
  | walletAccountNotFound (id : WalletAccountId)
  | currencyNotFound (id : CurrencyId)
  | currencyInvalidType (currency : TypedCurrency)
  | transactionTypeInvalidTag (tag : String)
  | operationNotFound (id : Uuid)
  | conversionNotFound (operation : Uuid)
  | otcService
  deriving DecidableEq, Repr

def CONVERSION_TRANSACTION_TAG : String := "CONV"
def CASHBACK_TRANSACTION_TAG : String := "CASHBACK"
def P2PBT_TRANSACTION_TAG : String := "P2PBT"
def REFERRAL_REWARD_TRANSACTION_TAG : String := "REFREWARD"
def P2P_TRANSFER_TRANSACTION_TAG : String := "P2PBTCTP"

/-- `formatValueFromFloatToInt(value, 0)`, which is `0` for a quotient by zero. -/
def formatValueFromFloatToInt (value : ℚ) : ℤ := ⌊1 / 2 + value⌋

/-- The value, or an exception when there is none. -/
def orThrow {α : Type} (o : Option α) (e : Exception) : Except Exception α :=
  match o with
  | some a => .ok a
  | none => .error e

section
variable (env : Env) (now : ℤ) (op : OperationItem) (currency : TypedCurrency)

/-- The value of the other side for one unit. -/
def handleConversion : Except Exception ℤ := do
  let ref ← orThrow op.operationRefId (.missingData ["Operation Ref"])
  let operationRef ← orThrow (env.operationById ref) (.operationNotFound ref)
  return formatValueFromFloatToInt
    (operationRef.value / CreateOperationUseCase.formatValueFromIntToFloat op.value currency.decimal)

def handleCashback : Except Exception ℤ := do
  let conversion ← orThrow (env.getConversionByOperation op.id) (.conversionNotFound op.id)
  return formatValueFromFloatToInt (conversion.usdQuote * conversion.quote)

def handleP2PTransfer : Except Exception ℤ := do
  let operation ← orThrow (env.operationById op.id) (.operationNotFound op.id)
  orThrow (env.getCryptoPriceByCurrencyAndDate now currency operation.createdAt) .otcService

/-- `a || b` of two strings. -/
def or (a b : String) : String := if a = "" then b else a

/-- The `switch` over the tag. -/
def price : Except Exception ℤ :=
  if op.transactionTag = CONVERSION_TRANSACTION_TAG then handleConversion env op currency
  else if op.transactionTag = or CASHBACK_TRANSACTION_TAG REFERRAL_REWARD_TRANSACTION_TAG then
    handleCashback env op
  else if op.transactionTag = or P2PBT_TRANSACTION_TAG P2P_TRANSFER_TRANSACTION_TAG then
    handleP2PTransfer env now op currency
  else .error (.transactionTypeInvalidTag op.transactionTag)

/-- The new average price of the account. -/
def newAveragePrice (walletAccount : PricedWalletAccount) (value price : ℤ) : ℤ :=
  let lastAvgPrice := walletAccount.averagePrice
  let lastBalance := walletAccount.balance - value
  let currentBalance := walletAccount.balance
  if lastAvgPrice ≠ 0 then
    formatValueFromFloatToInt ((lastAvgPrice * lastBalance + value * price) / currentBalance)
  else price

/-- `this.cryptoTransactionTags.includes(tag)`, of strings. -/
def tagIncluded : Prop := op.transactionTag.toList <:+: env.cryptoTransactionTags.toList

instance : Decidable (tagIncluded env op) := inferInstanceAs (Decidable (_ <:+: _))

/-- `HandleCalculateCryptoAvgPriceEventUseCase.execute`. -/
def execute (walletAccounts : Table PricedWalletAccount) :
    Except Exception (Table PricedWalletAccount) := do
  let id ← orThrow op.beneficiaryWalletAccountId (.missingData ["Wallet Account"])
  if ¬ tagIncluded env op then return walletAccounts
  let walletAccount ← orThrow (walletAccounts.get? id) (.walletAccountNotFound id)
  let currency ← orThrow (env.currencyById op.currencyId) (.currencyNotFound op.currencyId)
  if currency.type ≠ .CRYPTO then throw (.currencyInvalidType currency)
  let price ← price env now op currency
  return walletAccounts.set
    { walletAccount with averagePrice := newAveragePrice walletAccount op.value price }

/-! ### Credits -/

/-- The tags that the `switch` handles. -/
def handledTags : List String :=
  [CONVERSION_TRANSACTION_TAG, CASHBACK_TRANSACTION_TAG, P2PBT_TRANSACTION_TAG]

/-- The price of a credit of a named type, as each pair of types has it. -/
def namedPrice : Option ℤ :=
  if op.transactionTag = CONVERSION_TRANSACTION_TAG then
    (handleConversion env op currency).toOption
  else if op.transactionTag ∈ [CASHBACK_TRANSACTION_TAG, REFERRAL_REWARD_TRANSACTION_TAG] then
    (handleCashback env op).toOption
  else if op.transactionTag ∈ [P2PBT_TRANSACTION_TAG, P2P_TRANSFER_TRANSACTION_TAG] then
    (handleP2PTransfer env now op currency).toOption
  else none

/-- The price of a crypto credit that counts. -/
def creditedPrice : Option ℤ :=
  if tagIncluded env op then
    (env.currencyById op.currencyId).bind fun currency =>
      if currency.type = .CRYPTO then namedPrice env now op currency else none
  else none

end

/-- A credit that was accepted: its event, and the account when it was accepted. -/
structure Credit where
  event : OperationEventItem
  acceptedAt : ℤ
  lastBalance : ℤ
  deriving DecidableEq

namespace Credit

def item (c : Credit) : OperationItem := c.event.item

/-- The price of the credit when it was accepted. -/
def price (env : Env) (c : Credit) : Option ℤ := creditedPrice env c.acceptedAt c.item

/-- The credit as a purchase for the account `id`. -/
def purchase? (env : Env) (id : WalletAccountId) (c : Credit) : Option (Purchase ℚ) :=
  if c.item.beneficiaryWalletAccountId = some id then
    (c.price env).map fun price : ℤ => ⟨c.lastBalance, c.item.value, price⟩
  else none

end Credit

/-! ### The account over time -/

/-- The accounts, the accepted credits whose event is not handled yet, and those whose event is. -/
structure State where
  walletAccounts : Table PricedWalletAccount
  events : List Credit
  handled : List Credit
  deriving DecidableEq

inductive Action where
  /-- Accept an operation, which credits its beneficiary and emits its event. -/
  | accept (o : Operation)
  /-- What else moves the balance of an account: value that is blocked or given back. -/
  | move (id : WalletAccountId) (amount : ℤ)
  /-- Handle the event that was emitted first. -/
  | handle
  deriving DecidableEq

def Action.isHandle : Action → Bool
  | handle => true
  | _ => false

namespace State

/-- Accept the credit of an operation. -/
def accept (now : ℤ) (o : Operation) (s : State) : State :=
  match o.beneficiary.bind fun p => s.walletAccounts.get? p.walletAccount,
    OperationEventEmitter.newItem { o with state := .ACCEPTED } with
  | some a, .ok event => { s with
      walletAccounts := s.walletAccounts.set
        { a with toWalletAccount := AcceptOperationUseCase.credit o a.toWalletAccount }
      events := s.events ++ [⟨event, now, a.balance⟩] }
  | _, _ => s

def move (id : WalletAccountId) (amount : ℤ) (s : State) : State :=
  match s.walletAccounts.get? id with
  | some a => { s with walletAccounts := s.walletAccounts.set { a with balance := a.balance + amount } }
  | none => s

/-- Handle an event; the observer logs an error. -/
def handle (env : Env) (now : ℤ) (s : State) : State :=
  match s.events with
  | [] => s
  | c :: events =>
      { walletAccounts := (execute env now c.item s.walletAccounts).toOption.getD s.walletAccounts
        events
        handled := s.handled ++ [c] }

/-- The average price of an account. -/
def averagePrice (s : State) (id : WalletAccountId) : Option ℤ :=
  (s.walletAccounts.get? id).map (·.averagePrice)

end State

/-- An action, at an instant. -/
def step (env : Env) (s : State) (l : ℤ × Action) : State :=
  match l.2 with
  | .accept o => s.accept l.1 o
  | .move id amount => s.move id amount
  | .handle => s.handle env l.1

/-- The credits of an account that count. -/
def purchases (env : Env) (id : WalletAccountId) (credits : List Credit) : List (Purchase ℚ) :=
  credits.filterMap (·.purchase? env id)

/-- The average price to start from, if there is one. -/
def start (averagePrice : ℤ) : Option ℚ := if averagePrice = 0 then none else some averagePrice

def roundPrice (q : ℚ) : ℚ := formatValueFromFloatToInt q

/-- The code's rounding moves a price by at most one half. -/
theorem abs_roundPrice_sub_le (q : ℚ) : |roundPrice q - q| ≤ 1 / 2 := by
  have hle := Int.floor_le (1 / 2 + q)
  have hlt := Int.lt_floor_add_one (1 / 2 + q)
  rw [roundPrice, formatValueFromFloatToInt, abs_le]
  constructor <;> linarith

/-- The mean of the credits of an account, from its average price on: every credit is weighed over
the balance that was held when it was accepted, and the mean is rounded as the code rounds. -/
def roundedMean (env : Env) (id : WalletAccountId) (averagePrice : ℤ) (credits : List Credit) :
    Option ℚ :=
  Purchase.rounded roundPrice (start averagePrice) (purchases env id credits)

/-- The same mean, without rounding. -/
def exactMean (env : Env) (id : WalletAccountId) (averagePrice : ℤ) (credits : List Credit) :
    Option ℚ :=
  Purchase.mean (start averagePrice) (purchases env id credits)

/-- The event that is handled next, if it is of the account `id` and counts, has a type that the
`switch` handles, and a price that is still the one of its acceptance; and the account has the
balance that the credit left and an average price, unless no credit counted before. -/
def Timely (env : Env) (id : WalletAccountId) (s : State) (l : ℤ × Action) : Prop :=
  l.2 = .handle → ∀ c ∈ s.events.head?, c.item.beneficiaryWalletAccountId = some id →
    creditedPrice env l.1 c.item = c.price env ∧
    ((c.price env).isSome → c.item.transactionTag ∈ handledTags ∧
      ∀ a ∈ s.walletAccounts.get? id,
        if a.averagePrice = 0 then purchases env id s.handled = []
        else a.balance = c.lastBalance + c.item.value)

instance (env : Env) (id : WalletAccountId) (s : State) (l : ℤ × Action) :
    Decidable (Timely env id s l) :=
  inferInstanceAs (Decidable (_ → ∀ c ∈ s.events.head?, _ → _ ∧ (_ → _ ∧ ∀ a ∈ _, ite _ _ _)))

/-! ### One event -/

section
variable {env : Env} {now : ℤ} {op : OperationItem} {currency : TypedCurrency}
  {id : WalletAccountId} {a : PricedWalletAccount} {p : ℤ} {t t' : Table PricedWalletAccount}

theorem orThrow_eq_ok {α : Type} {o : Option α} {e : Exception} {x : α} :
    orThrow o e = .ok x ↔ o = some x := by
  cases o <;> simp [orThrow]

/-- What the `switch` prices is priced as its type is. -/
theorem namedPrice_of_price (h : price env now op currency = .ok p) :
    namedPrice env now op currency = some p := by
  rw [price] at h
  rw [namedPrice]
  split at h
  · rename_i htag
    rw [if_pos htag, h]
    rfl
  · rename_i hconv
    rw [if_neg hconv]
    split at h
    · rename_i htag
      rw [if_pos (by rw [htag]; decide), h]
      rfl
    · split at h
      · rename_i htag
        rw [if_neg (by rw [htag]; decide), if_pos (by rw [htag]; decide), h]
        rfl
      · cases h

theorem toOption_eq_some {α : Type} {x : Except Exception α} {v : α} :
    x.toOption = some v ↔ x = .ok v := by
  cases x <;> simp [Except.toOption]

/-- The types that the `switch` handles are priced. -/
theorem price_of_namedPrice (htag : op.transactionTag ∈ handledTags)
    (h : namedPrice env now op currency = some p) : price env now op currency = .ok p := by
  simp only [handledTags, List.mem_cons, List.not_mem_nil, or_false] at htag
  rw [namedPrice] at h
  rw [price]
  rcases htag with htag | htag | htag <;> rw [htag] at h ⊢
  · exact toOption_eq_some.mp h
  · exact toOption_eq_some.mp h
  · exact toOption_eq_some.mp h

/-- Only a credit that counts changes an account, its own. -/
theorem execute_ok (h : execute env now op t = .ok t') :
    t' = t ∨ ∃ id a p, op.beneficiaryWalletAccountId = some id ∧ t.get? id = some a ∧
      creditedPrice env now op = some p ∧
      t' = t.set { a with averagePrice := newAveragePrice a op.value p } := by
  obtain ⟨id, hid, h⟩ := bind_eq_ok.mp h
  by_cases hincluded : tagIncluded env op
  · rw [if_neg (not_not.mpr hincluded)] at h
    obtain ⟨a, ha, h⟩ := bind_eq_ok.mp h
    obtain ⟨currency, hcurrency, h⟩ := bind_eq_ok.mp h
    dsimp only at h
    by_cases hcrypto : currency.type = .CRYPTO
    · rw [if_neg (not_not.mpr hcrypto)] at h
      obtain ⟨p, hp, h⟩ := bind_eq_ok.mp h
      cases h
      refine Or.inr ⟨id, a, p, orThrow_eq_ok.mp hid, orThrow_eq_ok.mp ha, ?_, rfl⟩
      rw [creditedPrice, if_pos hincluded, orThrow_eq_ok.mp hcurrency, Option.bind_some,
        if_pos hcrypto]
      exact namedPrice_of_price hp
    · rw [if_pos hcrypto] at h
      cases h
  · rw [if_pos hincluded] at h
    cases h
    exact Or.inl rfl

/-- A credit of a type that the `switch` handles is weighed. -/
theorem execute_of_price (hid : op.beneficiaryWalletAccountId = some id) (ha : t.get? id = some a)
    (hp : creditedPrice env now op = some p) (htag : op.transactionTag ∈ handledTags) :
    execute env now op t
      = .ok (t.set { a with averagePrice := newAveragePrice a op.value p }) := by
  rw [creditedPrice] at hp
  split at hp
  · rename_i hincluded
    obtain ⟨currency, hcurrency, hp⟩ := Option.bind_eq_some_iff.mp hp
    split at hp
    · rename_i hcrypto
      have hprice := price_of_namedPrice htag hp
      simp [execute, orThrow, bind, Except.bind, pure, Except.pure, hid, ha, hincluded,
        hcurrency, hcrypto, hprice]
    · cases hp
  · cases hp

end

/-! ### One step -/

section
variable {env : Env} {id : WalletAccountId} {s s' : State} {l : ℤ × Action}
variable {t : Table PricedWalletAccount} {a : PricedWalletAccount} {averagePrice : ℤ}

/-- Writing back an account with one thing unchanged keeps it for every account. -/
theorem map_get?_set {β : Type} {f : PricedWalletAccount → β}
    {a' : PricedWalletAccount} (ha : t.get? a.id = some a) (hid : a'.id = a.id)
    (hf : f a' = f a) : ((t.set a').get? id).map f = (t.get? id).map f := by
  rw [Table.get?_set]
  split
  · rename_i e
    have same : a.id = id := hid.symm.trans e
    rw [← same, ha, Option.map_some, Option.map_some, Option.map_some, hf]
  · rfl

theorem averagePrice_accept (now : ℤ) (o : Operation) :
    (s.accept now o).averagePrice id = s.averagePrice id := by
  rw [State.accept]
  split
  · rename_i a event ha _
    obtain ⟨p, -, ha⟩ := Option.bind_eq_some_iff.mp ha
    refine map_get?_set (a := a) ?_ rfl rfl
    rwa [show a.id = p.walletAccount from Table.key_of_get? ha]
  · rfl

theorem averagePrice_move (account : WalletAccountId) (amount : ℤ) :
    (s.move account amount).averagePrice id = s.averagePrice id := by
  rw [State.move]
  split
  · rename_i a ha
    refine map_get?_set (a := a) ?_ rfl rfl
    rwa [show a.id = account from Table.key_of_get? ha]
  · rfl

theorem handled_accept (now : ℤ) (o : Operation) : (s.accept now o).handled = s.handled := by
  rw [State.accept]
  split <;> rfl

theorem handled_move (account : WalletAccountId) (amount : ℤ) :
    (s.move account amount).handled = s.handled := by
  rw [State.move]
  split <;> rfl

/-- The new average price is the rounded mean with one more purchase. -/
theorem newAveragePrice_eq {m : Option ℚ} {lastBalance value price : ℤ}
    (hm : (a.averagePrice : ℚ) = m.getD 0)
    (h : if a.averagePrice = 0 then m = none else a.balance = lastBalance + value) :
    (newAveragePrice a value price : ℚ)
      = (Purchase.next roundPrice m ⟨lastBalance, value, price⟩).getD 0 := by
  rw [newAveragePrice, Purchase.next, Option.getD_some]
  split at h
  · rename_i hzero
    rw [if_neg (not_not.mpr hzero), h, Option.elim_none]
  · rename_i hprice
    cases m with
    | none => exact absurd (Int.cast_eq_zero.mp hm) hprice
    | some m =>
        have hlast : a.balance - value = lastBalance := by rw [h, add_sub_cancel_right]
        rw [if_pos hprice, Option.elim_some, roundPrice, Purchase.weigh, hlast, h, Int.cast_add,
          show m = a.averagePrice from hm.symm]

/-- The average price of the account is the rounded mean of its handled credits. -/
def Averaged (env : Env) (id : WalletAccountId) (averagePrice : ℤ) (s : State) : Prop :=
  ∃ q, s.averagePrice id = some q ∧ (q : ℚ) = (roundedMean env id averagePrice s.handled).getD 0

theorem amount_nonneg {credits : List Credit} {x : Purchase ℚ}
    (hx : x ∈ purchases env id credits) : 0 ≤ x.amount := by
  obtain ⟨c, -, hc⟩ := List.mem_filterMap.mp hx
  rw [Credit.purchase?] at hc
  split at hc
  · obtain ⟨p, -, rfl⟩ := Option.map_eq_some_iff.mp hc
    exact Int.cast_nonneg (c.event.value_nonneg)
  · cases hc

theorem purchases_append (credits : List Credit) (c : Credit) :
    purchases env id (credits ++ [c]) = purchases env id credits ++ (c.purchase? env id).toList := by
  rw [purchases, purchases, List.filterMap_append]
  cases h : c.purchase? env id <;> simp [h]

/-- An event that does not count for the account leaves its average price. -/
theorem averagePrice_execute {now : ℤ} {op : OperationItem}
    (h : op.beneficiaryWalletAccountId = some id → creditedPrice env now op = none) :
    (((execute env now op t).toOption.getD t).get? id).map (·.averagePrice)
      = (t.get? id).map (·.averagePrice) := by
  cases hexec : execute env now op t with
  | error e => rfl
  | ok t' =>
      rcases execute_ok hexec with rfl | ⟨id', a, p, hid, ha, hp, rfl⟩
      · rfl
      · have hne : id' ≠ id := by
          rintro rfl
          rw [h hid] at hp
          cases hp
        have hkey : a.id = id' := Table.key_of_get? ha
        change ((t.set _).get? id).map _ = _
        rw [Table.get?_set_ne (hkey.trans_ne hne)]

theorem start_of_zero (h : ((0 : ℤ) : ℚ) = (start averagePrice).getD 0) :
    start averagePrice = none := by
  by_cases hzero : averagePrice = 0
  · rw [start, if_pos hzero]
  · rw [start, if_neg hzero, Option.getD_some] at h
    exact absurd (Int.cast_inj.mp h).symm hzero

/-- **Handling an event in time** takes its credit into the mean. -/
theorem averaged_handle {now : ℤ} (h : Averaged env id averagePrice s)
    (hok : Timely env id s (now, .handle)) : Averaged env id averagePrice (s.handle env now) := by
  rw [State.handle]
  cases hevents : s.events with
  | nil => exact h
  | cons c events =>
      obtain ⟨q, hq, hmean⟩ := h
      have hok := hok rfl c (by rw [hevents]; rfl)
      by_cases hcounts : c.purchase? env id = none
      · refine ⟨q, ?_, ?_⟩
        · refine (averagePrice_execute fun hid => ?_).trans hq
          rw [(hok hid).1]
          rw [Credit.purchase?, if_pos hid, Option.map_eq_none_iff] at hcounts
          exact hcounts
        · rw [roundedMean, purchases_append, hcounts, Option.toList_none, List.append_nil]
          exact hmean
      · rw [Credit.purchase?] at hcounts
        split at hcounts
        · rename_i hid
          obtain ⟨hprice, hlate⟩ := hok hid
          obtain ⟨p, hp⟩ := Option.ne_none_iff_exists'.mp fun e =>
            hcounts (Option.map_eq_none_iff.mpr e)
          obtain ⟨htag, hlate⟩ := hlate (by rw [hp]; rfl)
          obtain ⟨a, ha, rfl⟩ := Option.map_eq_some_iff.mp hq
          have hexec := execute_of_price hid ha (hprice.trans hp) htag
          refine ⟨newAveragePrice a c.item.value p, ?_, ?_⟩
          · change (((execute env now c.item s.walletAccounts).toOption.getD _).get? id).map _ = _
            rw [hexec]
            change ((s.walletAccounts.set _).get? id).map _ = _
            have hkey : a.id = id := Table.key_of_get? ha
            have written : (s.walletAccounts.set
                { a with averagePrice := newAveragePrice a c.item.value p }).get? id
                = some { a with averagePrice := newAveragePrice a c.item.value p } :=
              Table.get?_set_self ha hkey
            rw [written]
            rfl
          · have hpurchase : c.purchase? env id = some ⟨c.lastBalance, c.item.value, p⟩ := by
              rw [Credit.purchase?, if_pos hid, hp]
              rfl
            rw [roundedMean, purchases_append, hpurchase, Option.toList_some, Purchase.rounded,
              List.foldl_append]
            refine newAveragePrice_eq hmean ?_
            have hlate := hlate a ha
            split at hlate
            · rename_i hzero
              rw [if_pos hzero, hlate]
              rw [roundedMean, hlate, hzero] at hmean
              exact start_of_zero hmean
            · rename_i hne
              rw [if_neg hne]
              exact hlate
        · exact absurd rfl hcounts

theorem averaged_step (h : Averaged env id averagePrice s)
    (hok : Timely env id s l) : Averaged env id averagePrice (step env s l) := by
  obtain ⟨now, action⟩ := l
  have ⟨q, hq, hmean⟩ := h
  cases action with
  | accept o =>
      refine ⟨q, (averagePrice_accept now o).trans hq, ?_⟩
      rw [show (step env s (now, .accept o)).handled = s.handled from handled_accept now o]
      exact hmean
  | move account amount =>
      refine ⟨q, (averagePrice_move account amount).trans hq, ?_⟩
      rw [show (step env s (now, .move account amount)).handled = s.handled from
        handled_move account amount]
      exact hmean
  | handle => exact averaged_handle h hok

/-! ### The order of accepting and handling -/

/-- The two states have the same credits and the same balances. -/
structure SameCredits (s s' : State) : Prop where
  credits : s.handled ++ s.events = s'.handled ++ s'.events
  accounts : ∀ id, (s.walletAccounts.get? id).map (·.toWalletAccount)
    = (s'.walletAccounts.get? id).map (·.toWalletAccount)

theorem SameCredits.refl (s : State) : SameCredits s s := ⟨rfl, fun _ => rfl⟩

theorem SameCredits.trans {s s' s'' : State} (h : SameCredits s s') (h' : SameCredits s' s'') :
    SameCredits s s'' :=
  ⟨h.credits.trans h'.credits, fun id => (h.accounts id).trans (h'.accounts id)⟩

theorem SameCredits.symm {s s' : State} (h : SameCredits s s') : SameCredits s' s :=
  ⟨h.credits.symm, fun id => (h.accounts id).symm⟩

/-- Handling an event moves no credit and no balance. -/
theorem sameCredits_handle (now : ℤ) : SameCredits (s.handle env now) s := by
  rw [State.handle]
  cases hevents : s.events with
  | nil => exact .refl s
  | cons c events =>
      refine ⟨by simp [hevents], fun id => ?_⟩
      change (((execute env now c.item s.walletAccounts).toOption.getD _).get? id).map _ = _
      cases hexec : execute env now c.item s.walletAccounts with
      | error e => rfl
      | ok t' =>
          rcases execute_ok hexec with rfl | ⟨id', a, p, hid, ha, hp, rfl⟩
          · rfl
          · refine map_get?_set (a := a) ?_ rfl rfl
            rwa [show a.id = id' from Table.key_of_get? ha]

/-- The accounts of an id in two such states. -/
theorem SameCredits.account (h : SameCredits s s') (id : WalletAccountId) :
    (s.walletAccounts.get? id = none ∧ s'.walletAccounts.get? id = none) ∨
      ∃ a a', s.walletAccounts.get? id = some a ∧ s'.walletAccounts.get? id = some a' ∧
        a.toWalletAccount = a'.toWalletAccount := by
  have hid := h.accounts id
  cases ha : s.walletAccounts.get? id with
  | none =>
      rw [ha, Option.map_none, eq_comm, Option.map_eq_none_iff] at hid
      exact Or.inl ⟨rfl, hid⟩
  | some a =>
      rw [ha, Option.map_some, eq_comm] at hid
      obtain ⟨a', ha', e⟩ := Option.map_eq_some_iff.mp hid
      exact Or.inr ⟨a, a', rfl, ha', e.symm⟩

/-- Writing one account alike keeps the accounts alike. -/
theorem accounts_set {k : WalletAccountId} {t' : Table PricedWalletAccount}
    {a' b b' : PricedWalletAccount}
    (h : ∀ id, (t.get? id).map (·.toWalletAccount) = (t'.get? id).map (·.toWalletAccount))
    (ha : t.get? k = some a) (ha' : t'.get? k = some a') (hb : b.id = k)
    (hbb : b.toWalletAccount = b'.toWalletAccount) (id : WalletAccountId) :
    ((t.set b).get? id).map (·.toWalletAccount) = ((t'.set b').get? id).map (·.toWalletAccount) := by
  have hb' : b'.id = k := (congrArg WalletAccount.id hbb).symm.trans hb
  by_cases e : k = id
  · subst e
    rw [Table.get?_set_self ha hb, Table.get?_set_self ha' hb', Option.map_some, Option.map_some,
      hbb]
  · rw [Table.get?_set_ne (hb.trans_ne e), Table.get?_set_ne (hb'.trans_ne e)]
    exact h id

theorem sameCredits_accept (now : ℤ) (o : Operation) (h : SameCredits s s') :
    SameCredits (s.accept now o) (s'.accept now o) := by
  rw [State.accept, State.accept]
  cases hevent : OperationEventEmitter.newItem { o with state := .ACCEPTED } with
  | error e => simpa using h
  | ok event =>
      cases hp : o.beneficiary with
      | none => exact h
      | some p =>
          rcases h.account p.walletAccount with ⟨ha, ha'⟩ | ⟨a, a', ha, ha', same⟩
          · simp only [Option.bind_some, ha, ha']
            exact h
          · simp only [Option.bind_some, ha, ha']
            refine ⟨?_, accounts_set h.accounts ha ha' (Table.key_of_get? ha) ?_⟩
            · simp only [← List.append_assoc, h.credits, same]
            · exact congrArg (AcceptOperationUseCase.credit o) same

theorem sameCredits_move (account : WalletAccountId) (amount : ℤ) (h : SameCredits s s') :
    SameCredits (s.move account amount) (s'.move account amount) := by
  rw [State.move, State.move]
  rcases h.account account with ⟨ha, ha'⟩ | ⟨a, a', ha, ha', same⟩
  · rw [ha, ha']
    exact h
  · rw [ha, ha']
    refine ⟨h.credits, accounts_set h.accounts ha ha' (Table.key_of_get? ha) ?_⟩
    simp [same]

/-- The credits and the balances after a run are those of the run without its handling. -/
theorem sameCredits_run {ls : List (ℤ × Action)} (h : SameCredits s s') :
    SameCredits (run (step env) s ls)
      (run (step env) s' (ls.filter fun l => ! l.2.isHandle)) := by
  induction ls generalizing s s' with
  | nil => exact h
  | cons l ls ih =>
      obtain ⟨now, action⟩ := l
      cases action with
      | accept o => exact ih (sameCredits_accept now o h)
      | move account amount => exact ih (sameCredits_move account amount h)
      | handle => exact ih ((sameCredits_handle now).trans h)

end

/-! ### Runs -/

/-- **The average price is the rounded mean of the credits, each over the balance held when it was
accepted, and does not depend on when the events are handled**, when all are handled and each in
time. -/
theorem run_average {env : Env} {id : WalletAccountId} {s : State} {averagePrice : ℤ}
    {ls : List (ℤ × Action)} (hhandled : s.handled = [])
    (hstart : s.averagePrice id = some averagePrice)
    (hok : Along (step env) (Timely env id) s ls) (hdone : (run (step env) s ls).events = []) :
    ∃ q, (run (step env) s ls).averagePrice id = some q ∧
      (q : ℚ) = (roundedMean env id averagePrice (run (step env) s ls).handled).getD 0 ∧
      ((∀ x ∈ purchases env id (run (step env) s ls).handled, 0 ≤ x.held) →
        Purchase.Near ((purchases env id (run (step env) s ls).handled).length * (1 / 2) : ℚ)
          (roundedMean env id averagePrice (run (step env) s ls).handled)
          (exactMean env id averagePrice (run (step env) s ls).handled)) ∧
      ∀ ls', ls'.filter (fun l => ! l.2.isHandle) = ls.filter (fun l => ! l.2.isHandle) →
        Along (step env) (Timely env id) s ls' → (run (step env) s ls').events = [] →
          (run (step env) s ls').averagePrice id = some q := by
  have first : Averaged env id averagePrice s := by
    refine ⟨averagePrice, hstart, ?_⟩
    rw [hhandled, roundedMean, purchases, List.filterMap_nil, Purchase.rounded, List.foldl_nil, start]
    split
    · rename_i hzero
      rw [hzero]
      rfl
    · rfl
  have averaged : ∀ ls', Along (step env) (Timely env id) s ls' →
      Averaged env id averagePrice (run (step env) s ls') := fun ls' hok' =>
    Along.invariant (I := Averaged env id averagePrice) (fun s l h hok => averaged_step h hok)
      first hok'
  obtain ⟨q, hq, hmean⟩ := averaged ls hok
  refine ⟨q, hq, hmean, fun hheld => ?_, fun ls' hsame hok' hdone' => ?_⟩
  · have near := Purchase.near_rounded abs_roundPrice_sub_le le_rfl
      (Purchase.near_refl (start averagePrice)) fun x hx => ⟨hheld x hx, amount_nonneg hx⟩
    rwa [zero_add] at near
  · obtain ⟨q', hq', hmean'⟩ := averaged ls' hok'
    have late : SameCredits (run (step env) s ls')
        (run (step env) s (ls'.filter fun l => ! l.2.isHandle)) := sameCredits_run (.refl s)
    rw [hsame] at late
    have handled := (late.trans (sameCredits_run (.refl s)).symm).credits
    rw [hdone, hdone', List.append_nil, List.append_nil] at handled
    rw [hq', Option.some_inj]
    rw [handled] at hmean'
    exact Int.cast_injective (hmean'.trans hmean.symm)

/-! ### Two conversions -/

namespace Sample

def bitcoin : TypedCurrency := ⟨⟨2, "BTC", "BTC", 8, .active⟩, .CRYPTO⟩

def real : Currency := ⟨1, "BRL", "REAL", 2, .active⟩

/-- A conversion: 1 BTC to the account 1, for `value`. -/
def conversion (id ref : Uuid) (tag : String) : Operation where
  id
  state := .PENDING
  owner := none
  beneficiary := some ⟨1, 1⟩
  transactionType := ⟨1, tag, .BENEFICIARY, .active, none⟩
  currency := 2
  rawValue := 100000000
  fee := 0
  value := 100000000
  description := "Conversion"
  operationRef := some ref
  ownerRequestedRawValue := none
  ownerRequestedFee := none
  analysisTags := []
  userLimitTracker := none
  createdAt := 0
  revertedAt := none

/-- The other side of a conversion: `value` in BRL. -/
def payment (id : Uuid) (value : ℤ) : Operation :=
  { conversion id 0 "CONV" with currency := 1, value }

def env : Env where
  cryptoTransactionTags := "CONV;CASHBACK;P2PBT;REFREWARD;P2PBTCTP"
  currencyById id := if id = 2 then some bitcoin else none
  operationById id :=
    if id = 21 then some (payment 21 200) else if id = 22 then some (payment 22 300) else none
  getConversionByOperation _ := some ⟨300, 1⟩
  getCryptoPriceByCurrencyAndDate _ _ _ := none

/-- The account 1 with 1 BTC, at an average price of 100. -/
def start : State where
  walletAccounts := ⟨[⟨⟨1, 1, bitcoin.toCurrency, 100000000, 0, .active⟩, 100⟩],
    List.nodup_singleton _⟩
  events := []
  handled := []

/-- Both events are handled right away. -/
def prompt : List (ℤ × Action) :=
  [(1, .accept (conversion 11 21 "CONV")), (2, .handle), (3, .accept (conversion 12 22 "CONV")),
    (4, .handle)]

/-- Both operations are accepted before the first event is handled. -/
def late : List (ℤ × Action) :=
  [(1, .accept (conversion 11 21 "CONV")), (3, .accept (conversion 12 22 "CONV")), (4, .handle),
    (5, .handle)]

/-- A reward of 1 BTC, at 300. -/
def rewarded : List (ℤ × Action) := [(1, .accept (conversion 13 23 "REFREWARD")), (2, .handle)]

end Sample

open Sample in
/-- Handled right away, 1 BTC at 100, at 200 and at 300 have the average price 200. -/
theorem prompt_average :
    ∃ q, (run (step env) Sample.start prompt).averagePrice 1 = some q ∧
      (q : ℚ) = (roundedMean env 1 100 (run (step env) Sample.start prompt).handled).getD 0 ∧
      ((∀ x ∈ purchases env 1 (run (step env) Sample.start prompt).handled, 0 ≤ x.held) →
        Purchase.Near
          ((purchases env 1 (run (step env) Sample.start prompt).handled).length * (1 / 2) : ℚ)
          (roundedMean env 1 100 (run (step env) Sample.start prompt).handled)
          (exactMean env 1 100 (run (step env) Sample.start prompt).handled)) ∧
      ∀ ls', ls'.filter (fun l => ! l.2.isHandle) = prompt.filter (fun l => ! l.2.isHandle) →
        Along (step env) (Timely env 1) Sample.start ls' →
          (run (step env) Sample.start ls').events = [] →
            (run (step env) Sample.start ls').averagePrice 1 = some q :=
  run_average rfl (by decide +kernel) (by decide +kernel) (by decide +kernel)

open Sample in
/-- The same credits, handled late, have another average price; and a credit with the tag
REFREWARD does not count. -/
theorem late_average :
    late.filter (fun l => ! l.2.isHandle) = prompt.filter (fun l => ! l.2.isHandle) ∧
      (run (step env) Sample.start prompt).events = [] ∧
      (run (step env) Sample.start late).events = [] ∧
      (run (step env) Sample.start prompt).averagePrice 1 = some 200 ∧
      (run (step env) Sample.start late).averagePrice 1 = some 189 ∧
      (run (step env) Sample.start rewarded).averagePrice 1 = some 100 ∧
      (roundedMean env 1 100 (run (step env) Sample.start rewarded).handled) = some 200 := by
  refine ⟨by decide +kernel, by decide +kernel, by decide +kernel, by decide +kernel,
    by decide +kernel, by decide +kernel, by decide +kernel⟩

end AvgPrice

end ZroServices
