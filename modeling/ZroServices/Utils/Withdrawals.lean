import Mathlib.Data.Int.Notation
import ZroServices.Foundation.Outcome

/-!
# Utils — automatic withdrawals

`SyncUserWithdrawSettingUseCase` goes through the active settings of a day and pays each one whose
wallet account holds the amount.  Nothing catches what the calls of one setting throw, so the first
setting whose calls fail ends the run, and the customers behind it get nothing (`withdrawals_iff`).

The ids that are drawn are left out.
-/

namespace ZroServices.Withdrawals

open Foundation

abbrev Uuid := ℕ

/-! ### Settings -/

inductive WithdrawSettingState where
  | ACTIVE
  | DEACTIVE
  deriving DecidableEq, Repr

inductive WithdrawSettingType where
  | DAILY
  | WEEKLY
  | MONTHLY
  | BALANCE
  deriving DecidableEq, Repr

inductive WithdrawSettingWeekDays where
  | MONDAY
  | TUESDAY
  | WEDNESDAY
  | THURSDAY
  | FRIDAY
  | SATURDAY
  | SUNDAY
  deriving DecidableEq, Repr

inductive KeyType where
  | CPF
  | CNPJ
  | EMAIL
  | PHONE
  | EVP
  deriving DecidableEq, Repr

structure UserWithdrawSetting where
  id : Uuid
  state : WithdrawSettingState
  wallet : Uuid
  user : Uuid
  transactionTypeTag : String
  pixKeyValue : String
  pixKeyType : KeyType
  type : WithdrawSettingType
  balance : ℤ
  day : Option ℕ
  weekDay : Option WithdrawSettingWeekDays
  deleted : Bool
  deriving DecidableEq, Repr

structure WithdrawFilter where
  type : Option WithdrawSettingType
  day : Option ℕ
  weekDay : Option WithdrawSettingWeekDays
  deriving DecidableEq, Repr

structure DecodedPixKey where
  user : Uuid
  key : String
  type : KeyType
  /-- What the directory says of the key. -/
  name : String
  deriving DecidableEq, Repr

structure Payment where
  user : Uuid
  value : ℤ
  decodedPixKey : DecodedPixKey
  description : String
  deriving DecidableEq, Repr

/-- A payment that was created for a wallet.  Nothing reads the setting that it was created for. -/
structure Withdrawal where
  setting : Uuid
  wallet : Uuid
  payment : Payment
  deriving DecidableEq, Repr

inductive Exception where
  | missingData (fields : List String)
  | typeError (message : String)
  | service (code : String)
  deriving DecidableEq, Repr

/-- What the services answer to the calls that are made for a setting. -/
structure Services where
  /-- The balance of the wallet account, if there is one. -/
  getWalletAccountByWalletAndCurrency : UserWithdrawSetting → String → Except Exception (Option ℤ)
  createDecoded : UserWithdrawSetting → Except Exception DecodedPixKey
  createByPixKey : UserWithdrawSetting → Payment → Except Exception Unit

/-! ### The use case -/

namespace SyncUserWithdrawSettingUseCase

/-- `BRL_TRANSACTION_TYPES`. -/
def brlTransactionTypes : List String := ["PIXSEND"]

def isBrl (tag : String) : Bool := brlTransactionTypes.contains tag

/-- What the filter lacks; a day of 0 is none. -/
def missing (filter : WithdrawFilter) : Option String :=
  match filter.type with
  | none => some "Type"
  | some .MONTHLY => if filter.day.all (· = 0) then some "Day" else none
  | some .WEEKLY => if filter.weekDay = none then some "Week day" else none
  | some _ => none

/-- `userWithdrawSettingRepository.getAllActiveByFilter`. -/
def getAllActiveByFilter (filter : WithdrawFilter) (rows : List UserWithdrawSetting) :
    List UserWithdrawSetting :=
  rows.filter fun s =>
    !s.deleted && s.state = .ACTIVE && some s.type = filter.type
      && (filter.day.all (· = 0) || s.day = filter.day)
      && (filter.weekDay = none || s.weekDay = filter.weekDay)

variable (currencyTag : String) (services : Services)

/-- The payment of a setting. -/
def newPayment (setting : UserWithdrawSetting) (decodedPixKey : DecodedPixKey) : Payment where
  user := setting.user
  value := setting.balance
  decodedPixKey
  description := "Saque automático"

def pixPaymentWithdraw (setting : UserWithdrawSetting) :
    EStateM Exception (List Withdrawal) Unit := do
  let decodedPixKey ← call (services.createDecoded setting)
  let payment := newPayment setting decodedPixKey
  call (services.createByPixKey setting payment)
  modify (· ++ [⟨setting.id, setting.wallet, payment⟩])

/-- The body of the loop. -/
def sync (setting : UserWithdrawSetting) : EStateM Exception (List Withdrawal) Unit := do
  if isBrl setting.transactionTypeTag then
    let walletAccount ←
      call (services.getWalletAccountByWalletAndCurrency setting currencyTag)
    let balance ← orThrow walletAccount (.typeError "balance")
    if balance ≥ setting.balance then pixPaymentWithdraw services setting

def execute (filter : WithdrawFilter) (rows : List UserWithdrawSetting) :
    EStateM Exception (List Withdrawal) Unit := do
  match missing filter with
  | some field => throw (.missingData [field])
  | none => (getAllActiveByFilter filter rows).forM (sync currencyTag services)

end SyncUserWithdrawSettingUseCase

open SyncUserWithdrawSettingUseCase

/-- `syncUserWithdrawSetting` of the cron, which catches what the use case throws: the payments that
a run creates. -/
def syncUserWithdrawSetting (currencyTag : String) (services : Services) (filter : WithdrawFilter)
    (rows : List UserWithdrawSetting) : List Withdrawal :=
  left (execute currencyTag services filter rows) []

/-! ### What each customer should get -/

/-- The wallet account holds the amount. -/
def Reached (currencyTag : String) (services : Services) (setting : UserWithdrawSetting) : Bool :=
  match services.getWalletAccountByWalletAndCurrency setting currencyTag with
  | .ok (some balance) => balance ≥ setting.balance
  | _ => false

/-- The payment that the calls of the setting lead to, if all of them succeed. -/
def paymentOf (services : Services) (setting : UserWithdrawSetting) : Option Withdrawal :=
  match services.createDecoded setting with
  | .error _ => none
  | .ok decodedPixKey =>
      match services.createByPixKey setting (newPayment setting decodedPixKey) with
      | .error _ => none
      | .ok _ => some ⟨setting.id, setting.wallet, newPayment setting decodedPixKey⟩

/-- What a setting should get: a payment of its amount, if it is in BRL, its wallet account holds the
amount and its calls succeed. -/
def due (currencyTag : String) (services : Services) (setting : UserWithdrawSetting) :
    List Withdrawal :=
  if isBrl setting.transactionTypeTag ∧ Reached currencyTag services setting then
    (paymentOf services setting).toList
  else []

/-- A call that the setting needs fails, or its wallet account is missing. -/
def Fails (currencyTag : String) (services : Services) (setting : UserWithdrawSetting) : Bool :=
  isBrl setting.transactionTypeTag &&
    match services.getWalletAccountByWalletAndCurrency setting currencyTag with
    | .ok (some balance) =>
        decide (balance ≥ setting.balance) && (paymentOf services setting).isNone
    | _ => true

section
variable {currencyTag : String} {services : Services} {setting : UserWithdrawSetting}
  {log : List Withdrawal}

/-! ### One setting -/

/-- A payment is created, or one of the two calls throws. -/
theorem pixPaymentWithdraw_cases (services : Services) (setting : UserWithdrawSetting)
    (log : List Withdrawal) :
    (∃ w, paymentOf services setting = some w ∧
        pixPaymentWithdraw services setting log = .ok () (log ++ [w])) ∨
      (paymentOf services setting = none ∧
        ∃ e, pixPaymentWithdraw services setting log = .error e log) := by
  cases hdecode : services.createDecoded setting with
  | error e =>
      refine .inr ⟨by simp [paymentOf, hdecode], e, ?_⟩
      rw [pixPaymentWithdraw, hdecode]
      rfl
  | ok decodedPixKey =>
      rw [pixPaymentWithdraw, hdecode]
      change _ ∨ _ ∧ ∃ e, (call (services.createByPixKey setting
        (newPayment setting decodedPixKey)) >>= _) log = .error e log
      cases hpay : services.createByPixKey setting (newPayment setting decodedPixKey) with
      | error e => exact .inr ⟨by simp [paymentOf, hdecode, hpay], e, rfl⟩
      | ok u =>
          refine .inl ⟨⟨setting.id, setting.wallet, newPayment setting decodedPixKey⟩, ?_, ?_⟩
          · simp [paymentOf, hdecode, hpay]
          · change (call (services.createByPixKey setting
              (newPayment setting decodedPixKey)) >>= _) log = _
            rw [hpay]
            rfl

theorem sync_eq :
    sync currencyTag services setting log =
      if isBrl setting.transactionTypeTag then
        match services.getWalletAccountByWalletAndCurrency setting currencyTag with
        | .error e => .error e log
        | .ok none => .error (.typeError "balance") log
        | .ok (some balance) =>
            if balance ≥ setting.balance then pixPaymentWithdraw services setting log
            else .ok () log
      else .ok () log := by
  rw [sync]
  cases isBrl setting.transactionTypeTag with
  | false => rfl
  | true =>
      simp only [if_true]
      cases services.getWalletAccountByWalletAndCurrency setting currencyTag with
      | error e => rfl
      | ok account =>
          cases account with
          | none => rfl
          | some balance =>
              change (if balance ≥ setting.balance then
                pixPaymentWithdraw services setting else pure ()) log = _
              by_cases hreached : balance ≥ setting.balance
              · simp only [if_pos hreached]
              · simp only [if_neg hreached]
                rfl

/-- A setting throws and is due nothing when a call fails, and else gets what is due. -/
theorem sync_cases (currencyTag : String) (services : Services) (setting : UserWithdrawSetting)
    (log : List Withdrawal) :
    (Fails currencyTag services setting = true ∧ due currencyTag services setting = [] ∧
        ∃ e, sync currencyTag services setting log = .error e log) ∨
      (Fails currencyTag services setting = false ∧
        sync currencyTag services setting log
          = .ok () (log ++ due currencyTag services setting)) := by
  rw [sync_eq, due, Fails, Reached]
  cases isBrl setting.transactionTypeTag with
  | false => exact .inr ⟨rfl, by simp⟩
  | true =>
      simp only [Bool.true_and, if_true, true_and]
      cases services.getWalletAccountByWalletAndCurrency setting currencyTag with
      | error e => exact .inl ⟨rfl, rfl, e, rfl⟩
      | ok account =>
          cases account with
          | none => exact .inl ⟨rfl, rfl, _, rfl⟩
          | some balance =>
              by_cases hreached : balance ≥ setting.balance
              · rcases pixPaymentWithdraw_cases services setting log with
                  ⟨w, hpay, hrun⟩ | ⟨hpay, e, hrun⟩
                · exact .inr ⟨by simp [hreached, hpay], by simp [hreached, hpay, hrun]⟩
                · exact .inl ⟨by simp [hreached, hpay], by simp [hreached, hpay],
                    e, by simp [hreached, hrun]⟩
              · exact .inr ⟨by simp [hreached], by simp [hreached]⟩

theorem sync_ok (h : Fails currencyTag services setting = false) :
    sync currencyTag services setting log = .ok () (log ++ due currencyTag services setting) := by
  rcases sync_cases currencyTag services setting log with ⟨hfails, -⟩ | ⟨-, hrun⟩
  · rw [h] at hfails
    cases hfails
  · exact hrun

theorem sync_error (h : Fails currencyTag services setting = true) (log : List Withdrawal) :
    due currencyTag services setting = [] ∧
      ∃ e, sync currencyTag services setting log = .error e log := by
  rcases sync_cases currencyTag services setting log with ⟨-, hrun⟩ | ⟨hfails, -⟩
  · exact hrun
  · rw [h] at hfails
    cases hfails

/-! ### A run -/

/-- **Automatic withdrawals.**  A run creates the payments of all the customers who should get one,
each once, and no other, exactly when none of them comes after a setting whose calls fail. -/
theorem withdrawals_iff (currencyTag : String) (services : Services) {filter : WithdrawFilter}
    (rows : List UserWithdrawSetting) (hfilter : missing filter = none) :
    (syncUserWithdrawSetting currencyTag services filter rows).Perm
        ((getAllActiveByFilter filter rows).flatMap (due currencyTag services)) ↔
      (getAllActiveByFilter filter rows).Pairwise fun s t =>
        Fails currencyTag services s = true → due currencyTag services t = [] := by
  have hrun : syncUserWithdrawSetting currencyTag services filter rows
      = ((getAllActiveByFilter filter rows).takeWhile
          fun s => !Fails currencyTag services s).flatMap (due currencyTag services) := by
    rw [syncUserWithdrawSetting, execute, hfilter]
    exact left_forM_log (f := sync currencyTag services) (fun s log h => sync_ok h)
      (fun s log h => (sync_error h log).2) (getAllActiveByFilter filter rows) []
  rw [hrun, flatMap_takeWhile_perm_iff]
  · simp only [Bool.not_eq_false']
  · intro s h
    rw [Bool.not_eq_false'] at h
    exact (sync_error h []).1

end

namespace Sample

/-- A daily withdrawal of 100. -/
def hundred (id : ℕ) : UserWithdrawSetting :=
  ⟨id, .ACTIVE, id, id, "PIXSEND", "key", .EVP, .DAILY, 100, none, none, false⟩

/-- Every wallet account holds 500, except that wallet 1 has none. -/
def answers : Services where
  getWalletAccountByWalletAndCurrency s _ := if s.wallet = 1 then .ok none else .ok (some 500)
  createDecoded s := .ok ⟨s.user, s.pixKeyValue, s.pixKeyType, "name"⟩
  createByPixKey _ _ := .ok ()

def daily : WithdrawFilter := ⟨some .DAILY, none, none⟩

end Sample

open Sample in
/-- The setting that fails is the last one. -/
theorem withdrawals_before_failure :
    (syncUserWithdrawSetting "REAL" answers daily [hundred 2, hundred 1]).Perm
        ((getAllActiveByFilter daily [hundred 2, hundred 1]).flatMap (due "REAL" answers)) ↔
      (getAllActiveByFilter daily [hundred 2, hundred 1]).Pairwise fun s t =>
        Fails "REAL" answers s = true → due "REAL" answers t = [] :=
  withdrawals_iff "REAL" answers [hundred 2, hundred 1] rfl

open Sample in
/-- Customer 2 gets nothing behind customer 1, who has no wallet account. -/
theorem withdrawal_lost :
    ¬ ∀ (currencyTag : String) (services : Services) (filter : WithdrawFilter)
        (rows : List UserWithdrawSetting), missing filter = none →
      (syncUserWithdrawSetting currencyTag services filter rows).Perm
        ((getAllActiveByFilter filter rows).flatMap (due currencyTag services)) := by
  intro h
  have hall := h "REAL" answers daily [hundred 1, hundred 2] rfl
  exact absurd hall.length_eq (by decide)

end ZroServices.Withdrawals
