import Mathlib.Data.PNat.Basic
import ZroServices.Common.Moment
import ZroServices.Foundation.Table

/-!
# Operations — the domain

The entities of the operations service, as far as the modelled use cases read or write them.

* Numeric ids are positive (`ℕ+`); UUIDs are natural numbers, of which only equality matters.
* Amounts are integers, in the smallest unit of their currency.  Limits are natural numbers; an
  optional limit that is absent or `0` does not limit (`Limit.exceededBy`).
* A user is its id, on wallets (`wallet.user`) as on limits (`userLimit.user`).
* An operation has a *party* on either side, the user together with the wallet account: the two
  are written together and read back together (`Party.ofColumns_columns`).
-/

namespace ZroServices

open Foundation

abbrev UserId := ℕ+
abbrev CurrencyId := ℕ+
abbrev TransactionTypeId := ℕ+
abbrev LimitTypeId := ℕ+
abbrev WalletAccountId := ℕ+
abbrev Uuid := ℕ

/-- Whether a wallet is a user's is looked up in a list of pairs. -/
instance : LawfulBEq (Uuid × UserId) := Prod.instLawfulBEq

/-! ### Reference data -/

inductive CurrencyState where
  | active
  | deactivate
  deriving DecidableEq, Repr

structure Currency where
  id : CurrencyId
  symbol : String
  tag : String
  decimal : ℕ
  state : CurrencyState
  deriving DecidableEq, Repr

def Currency.isActive (c : Currency) : Prop := c.state = .active

instance (c : Currency) : Decidable c.isActive := inferInstanceAs (Decidable (_ = _))

inductive LimitTypePeriodStart where
  | DATE
  | INTERVAL
  deriving DecidableEq, Repr

inductive LimitTypeCheck where
  | OWNER
  | BENEFICIARY
  | BOTH
  deriving DecidableEq, Repr

/-- A limit type.  Its transaction types are those that refer to it (`Env.transactionTypesOf`). -/
structure LimitType where
  id : LimitTypeId
  tag : String
  currency : Option CurrencyId
  periodStart : LimitTypePeriodStart
  check : LimitTypeCheck
  deriving DecidableEq, Repr

inductive TransactionTypeParticipants where
  | BOTH
  | OWNER
  | BENEFICIARY
  deriving DecidableEq, Repr

/-- The state column; `other` is a value that the enumeration does not have. -/
inductive TransactionTypeState where
  | active
  | deactivate
  | other (state : String)
  deriving DecidableEq, Repr

structure TransactionType where
  id : TransactionTypeId
  tag : String
  participants : TransactionTypeParticipants
  state : TransactionTypeState
  limitType : Option LimitTypeId
  deriving DecidableEq, Repr

namespace TransactionTypeState

/-- The value of the column. -/
def text : TransactionTypeState → String
  | active => "active"
  | deactivate => "deactivate"
  | other state => state

/-- `Object.values(TransactionTypeState).includes(state)`. -/
def isSupported : TransactionTypeState → Prop
  | active | deactivate => True
  | other _ => False

instance (s : TransactionTypeState) : Decidable s.isSupported := by
  cases s <;> unfold isSupported <;> infer_instance

end TransactionTypeState

def TransactionType.isActive (t : TransactionType) : Prop := t.state = .active

instance (t : TransactionType) : Decidable t.isActive := inferInstanceAs (Decidable (_ = _))

structure OperationStreamQuotation where
  baseCurrency : CurrencyId
  quoteCurrency : String
  priority : ℤ
  price : ℚ
  deriving DecidableEq, Repr

/-! ### Wallets and wallet accounts -/

inductive WalletState where
  | pending
  | active
  | deactivate
  deriving DecidableEq, Repr

structure Wallet where
  uuid : Uuid
  user : UserId
  default : Bool
  state : WalletState
  deriving DecidableEq, Repr

instance : Keyed Wallet Uuid := ⟨Wallet.uuid⟩

def Wallet.isActive (w : Wallet) : Prop := w.state = .active

instance (w : Wallet) : Decidable w.isActive := inferInstanceAs (Decidable (_ = _))

inductive WalletAccountState where
  | pending
  | active
  | deactivate
  deriving DecidableEq, Repr

structure WalletAccount where
  id : WalletAccountId
  wallet : Uuid
  currency : Currency
  balance : ℤ
  pendingAmount : ℤ
  state : WalletAccountState
  deriving DecidableEq, Repr

instance : Keyed WalletAccount WalletAccountId := ⟨WalletAccount.id⟩

@[simp] theorem WalletAccount.key_eq (a : WalletAccount) : Keyed.key a = a.id := rfl

def WalletAccount.isActive (a : WalletAccount) : Prop := a.state = .active

instance (a : WalletAccount) : Decidable a.isActive := inferInstanceAs (Decidable (_ = _))

/-! ### Limits -/

/-- An optional limit.  JavaScript's truthiness decides whether there is one: `0` and an absent
limit are none. -/
abbrev Limit (N : Type) := Option N

namespace Limit

/-- `limit && limit < value`. -/
def exceededBy (l : Limit ℕ) (value : ℤ) : Prop :=
  match l with
  | some n => n ≠ 0 ∧ (n : ℤ) < value
  | none => False

/-- `limit && limit - used < value`. -/
def exceededAfter (l : Limit ℕ) (used value : ℤ) : Prop :=
  match l with
  | some n => n ≠ 0 ∧ (n : ℤ) - used < value
  | none => False

/-- `limit && value < limit`. -/
def notReachedBy (l : Limit ℕ) (value : ℤ) : Prop :=
  match l with
  | some n => n ≠ 0 ∧ value < n
  | none => False

instance (l : Limit ℕ) (value : ℤ) : Decidable (l.exceededBy value) := by
  unfold exceededBy
  cases l <;> infer_instance

instance (l : Limit ℕ) (used value : ℤ) : Decidable (l.exceededAfter used value) := by
  unfold exceededAfter
  cases l <;> infer_instance

instance (l : Limit ℕ) (value : ℤ) : Decidable (l.notReachedBy value) := by
  unfold notReachedBy
  cases l <;> infer_instance

end Limit

/-- The limits of a user for a limit type, or the limits a new user starts with.
Operations are checked against natural numbers; what requests may store are integers. -/
structure LimitValues (N : Type) where
  nightlyLimit : Limit N
  dailyLimit : N
  monthlyLimit : N
  yearlyLimit : N
  maxAmount : Limit N
  minAmount : Limit N
  maxAmountNightly : Limit N
  minAmountNightly : Limit N
  userMaxAmount : Limit N
  userMinAmount : Limit N
  userMaxAmountNightly : Limit N
  userMinAmountNightly : Limit N
  userNightlyLimit : Limit N
  userDailyLimit : Limit N
  userMonthlyLimit : Limit N
  userYearlyLimit : Limit N
  nighttimeStart : Option String
  nighttimeEnd : Option String
  deriving DecidableEq, Repr

structure GlobalLimit extends LimitValues ℕ where
  limitType : LimitTypeId
  deriving DecidableEq, Repr

structure UserLimit extends LimitValues ℕ where
  id : Uuid
  user : UserId
  limitType : LimitTypeId
  creditBalance : ℕ
  deriving DecidableEq, Repr

instance : Keyed UserLimit Uuid := ⟨UserLimit.id⟩

@[simp] theorem UserLimit.key_eq (l : UserLimit) : Keyed.key l = l.id := rfl

namespace LimitValues

variable {N : Type}

/-- The compliance limit of a day, a month or a year. -/
def periodLimit (l : LimitValues N) : MomentUnit → N
  | .day => l.dailyLimit
  | .month => l.monthlyLimit
  | .year => l.yearlyLimit

/-- The user defined limit of a day, a month or a year. -/
def userPeriodLimit (l : LimitValues N) : MomentUnit → Limit N
  | .day => l.userDailyLimit
  | .month => l.userMonthlyLimit
  | .year => l.userYearlyLimit

/-- The nighttime interval in minutes of the day; none unless `hasNighttime`. -/
def nighttime (l : LimitValues N) : Option (ℕ × ℕ) := do
  let nighttimeStart ← l.nighttimeStart
  let nighttimeEnd ← l.nighttimeEnd
  let start ← hourTime nighttimeStart
  let stop ← hourTime nighttimeEnd
  return (start, stop)

/-- `userLimit.isInNighttimeInterval(base)`, evaluated at `now` on a server whose clock is `offset`
ahead of UTC. -/
def isInNighttimeInterval (l : LimitValues N) (offset now base : ℤ) : Prop :=
  match l.nighttime with
  | none => False
  | some (nighttimeStart, nighttimeEnd) =>
      let start := momentOfDay offset now nighttimeStart
      let stop := momentOfDay offset now nighttimeEnd
      let stop := if stop < start then stop + msPerDay else stop
      if base < start then start - msPerDay ≤ base ∧ base < stop - msPerDay
      else start ≤ base ∧ base < stop

instance (l : LimitValues N) (offset now base : ℤ) :
    Decidable (l.isInNighttimeInterval offset now base) := by
  unfold isInNighttimeInterval
  cases l.nighttime with
  | none => exact inferInstanceAs (Decidable False)
  | some n => infer_instance

end LimitValues

structure UserLimitTracker where
  id : Uuid
  userLimit : Uuid
  periodStart : LimitTypePeriodStart
  usedDailyLimit : ℤ
  usedMonthlyLimit : ℤ
  usedAnnualLimit : ℤ
  usedNightlyLimit : ℤ
  updatedAt : ℤ
  deriving DecidableEq, Repr

instance : Keyed UserLimitTracker Uuid := ⟨UserLimitTracker.id⟩

@[simp] theorem UserLimitTracker.key_eq (t : UserLimitTracker) : Keyed.key t = t.id := rfl

/-- What the operations found in the database have used of the limits. -/
structure UsedLimit where
  nightlyLimit : ℤ
  dailyLimit : ℤ
  monthlyLimit : ℤ
  yearlyLimit : ℤ
  deriving DecidableEq, Repr

/-- What is used of the limit of a day, a month or a year. -/
def UsedLimit.period (l : UsedLimit) : MomentUnit → ℤ
  | .day => l.dailyLimit
  | .month => l.monthlyLimit
  | .year => l.yearlyLimit

/-! ### Operations -/

inductive OperationState where
  | ACCEPTED
  | DECLINED
  | UNDONE
  | PENDING
  | REVERTED
  deriving DecidableEq, Repr

inductive OperationAnalysisTag where
  | DATE_LIMIT_INCLUDED
  | DAILY_INTERVAL_LIMIT_INCLUDED
  | MONTHLY_INTERVAL_LIMIT_INCLUDED
  | ANNUAL_INTERVAL_LIMIT_INCLUDED
  deriving DecidableEq, Repr

/-- One side of an operation. -/
structure Party where
  user : UserId
  walletAccount : WalletAccountId
  deriving DecidableEq, Repr

namespace Party

/-- The columns `OperationModel` keeps of a side: the two ids, `0` for a side that is missing. -/
def columns : Option Party → ℕ × ℕ
  | some p => (p.user, p.walletAccount)
  | none => (0, 0)

/-- The side that `OperationModel.toDomain` builds of the columns. -/
def ofColumns : ℕ × ℕ → Option Party
  | (user, walletAccount) =>
      if h : 0 < user ∧ 0 < walletAccount then some ⟨⟨user, h.1⟩, ⟨walletAccount, h.2⟩⟩ else none

/-- A side is read back as it was written. -/
@[simp] theorem ofColumns_columns (p : Option Party) : ofColumns (columns p) = p := by
  cases p with
  | none => rfl
  | some p => exact dif_pos ⟨p.user.pos, p.walletAccount.pos⟩

end Party

structure Operation where
  id : Uuid
  state : OperationState
  owner : Option Party
  beneficiary : Option Party
  transactionType : TransactionType
  currency : CurrencyId
  rawValue : ℤ
  fee : ℤ
  value : ℤ
  description : String
  operationRef : Option Uuid
  ownerRequestedRawValue : Option ℤ
  ownerRequestedFee : Option ℤ
  analysisTags : List OperationAnalysisTag
  userLimitTracker : Option Uuid
  createdAt : ℤ
  revertedAt : Option ℤ
  deriving DecidableEq, Repr

instance : Keyed Operation Uuid := ⟨Operation.id⟩

@[simp] theorem Operation.key_eq (o : Operation) : Keyed.key o = o.id := rfl

namespace Operation

def isPending (o : Operation) : Prop := o.state = .PENDING
def isReverted (o : Operation) : Prop := o.state = .REVERTED

instance (o : Operation) : Decidable o.isPending := inferInstanceAs (Decidable (_ = _))
instance (o : Operation) : Decidable o.isReverted := inferInstanceAs (Decidable (_ = _))

/-- The operation as it is read back from an `OperationModel` row it was written to. -/
def stored (o : Operation) : Operation :=
  { o with
    owner := Party.ofColumns (Party.columns o.owner)
    beneficiary := Party.ofColumns (Party.columns o.beneficiary) }

@[simp] theorem stored_eq (o : Operation) : o.stored = o := by simp [stored]

end Operation

inductive WalletAccountTransactionType where
  | CREDIT
  | DEBIT
  deriving DecidableEq, Repr

structure WalletAccountTransaction where
  walletAccount : WalletAccountId
  operation : Uuid
  transactionType : WalletAccountTransactionType
  value : ℤ
  previousBalance : ℤ
  updatedBalance : ℤ
  deriving DecidableEq, Repr

structure P2PTransfer where
  id : Uuid
  user : UserId
  wallet : Uuid
  beneficiaryWallet : Uuid
  currency : CurrencyId
  operation : Uuid
  amount : ℤ
  fee : ℤ
  description : Option String
  deriving DecidableEq, Repr

instance : Keyed P2PTransfer Uuid := ⟨P2PTransfer.id⟩

/-- A wallet account transaction that is being created, as the cache keeps it.  `expiresAt` is
set when it is given a time to live. -/
structure PendingWalletAccountTransaction where
  walletAccount : WalletAccountId
  operation : Uuid
  value : ℤ
  expiresAt : Option ℤ
  deriving DecidableEq, Repr

end ZroServices
