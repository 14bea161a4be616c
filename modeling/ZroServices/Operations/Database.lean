import Mathlib.Data.Rat.Defs
import ZroServices.Foundation.Effect
import ZroServices.Operations.Domain

/-!
# Operations — stores, exceptions and events

The use cases work on a `World`: the database and the cache of pending wallet account
transactions.  `Env` is what no modelled use case writes: the reference data and the
configuration.  A use case is a term of `App`; it runs in one database transaction (`atomic`, the
`TransactionInterceptor`), which a throw rolls back.  The cache is not part of the transaction.

Events are rows of `Db.events`: they are sent when the transaction commits, dropped when it is
rolled back, and consumed when they are delivered.  An operation event is built by a class that
validates itself, so an event that does not pass the validation cannot be built
(`OperationEventItem`).
-/

namespace ZroServices

open Foundation

/-- The exceptions the modelled use cases throw, with what they carry. -/
inductive Exception where
  | missingData (fields : List String)
  | invalidDataFormat (fields : List String)
  | data (messages : List String)
  | forbidden
  | typeError (message : String)
  | uniqueConstraint (table : String)
  | transactionTypeTagNotFound (tag : String)
  | transactionTypeNotActive (transactionType : TransactionType)
  | currencyNotFound (currency : String)
  | currencyNotActive (currency : String)
  | walletNotFound (wallet : Uuid)
  | walletNotActive (wallet : Wallet)
  | walletCannotBeDeleted (wallet : Wallet)
  | walletAccountNotFound (id : Option WalletAccountId) (wallet : Option Uuid)
      (currency : Option CurrencyId)
  | walletAccountNotActive (walletAccount : WalletAccount)
  | walletAccountHasBalance (walletAccounts : List WalletAccount)
  | notEnoughFunds (walletAccount : WalletAccount) (value : ℤ)
  | notEnoughLimit (userLimit : UserLimit) (value : ℤ)
  | notEnoughAvailableLimit (usedLimit : UsedLimit) (value : ℤ)
  | valueAboveMaxAmountLimit (userLimit : UserLimit) (value : ℤ)
  | valueUnderMinAmountLimit (userLimit : UserLimit) (value : ℤ)
  | valueAboveMaxAmountNightlyLimit (userLimit : UserLimit) (value : ℤ)
  | valueUnderMinAmountNightlyLimit (userLimit : UserLimit) (value : ℤ)
  | streamQuotationNotFound (baseCurrency : CurrencyId) (quoteCurrency : String)
  | operationNotFound (id : Uuid)
  | operationInvalidState (state : OperationState)
  | userLimitTrackerNotFound (id : Option Uuid)
  | userLimitNotFound (id : Uuid)
  deriving DecidableEq, Repr

/-! ### Events -/

inductive OperationEventType where
  | PENDING
  | ACCEPTED
  | REVERTED
  deriving DecidableEq, Repr

/-- What an operation event says about an operation. -/
structure OperationItem where
  id : Uuid
  value : ℤ
  fee : ℤ
  rawValue : ℤ
  description : String
  currencyId : CurrencyId
  state : OperationState
  ownerId : Option UserId
  beneficiaryId : Option UserId
  ownerWalletAccountId : Option WalletAccountId
  beneficiaryWalletAccountId : Option WalletAccountId
  transactionId : TransactionTypeId
  transactionTag : String
  operationRefId : Option Uuid
  ownerRequestedRawValue : Option ℤ
  ownerRequestedFee : Option ℤ
  analysisTags : List OperationAnalysisTag
  userLimitTrackerId : Option Uuid
  createdAt : ℤ
  deriving DecidableEq, Repr

namespace OperationItem

/-- The fields that do not pass the validation of the event class.  The checks that the types of
the fields settle (integers, UUIDs, positive ids, enumerations) are left out. -/
def invalidFields (e : OperationItem) : List String :=
  (if e.rawValue < 0 then ["rawValue"] else [])
    ++ (if e.fee < 0 then ["fee"] else [])
    ++ (if e.value < 0 then ["value"] else [])
    ++ (if ∃ v ∈ e.ownerRequestedRawValue, v < 0 then ["ownerRequestedRawValue"] else [])
    ++ (if ∃ v ∈ e.ownerRequestedFee, v < 0 then ["ownerRequestedFee"] else [])
    ++ (if 255 < e.description.length then ["description"] else [])
    ++ (if e.transactionTag.length < 1 ∨ 255 < e.transactionTag.length then ["transactionTag"]
        else [])

end OperationItem

/-- An operation event item, `OperationItemControllerEvent`: its fields passed the validation. -/
structure OperationEventItem where
  item : OperationItem
  valid : item.invalidFields = []
  deriving DecidableEq

namespace OperationEventItem

variable (e : OperationEventItem)

theorem amounts_nonneg : (0 ≤ e.item.rawValue ∧ 0 ≤ e.item.fee) ∧ 0 ≤ e.item.value := by
  have h := e.valid
  simp only [OperationItem.invalidFields, List.append_eq_nil_iff, ite_eq_right_iff, reduceCtorEq,
    imp_false, not_lt] at h
  exact h.1.1.1.1

theorem value_nonneg : 0 ≤ e.item.value := e.amounts_nonneg.2

theorem rawValue_nonneg : 0 ≤ e.item.rawValue := e.amounts_nonneg.1.1

theorem fee_nonneg : 0 ≤ e.item.fee := e.amounts_nonneg.1.2

end OperationEventItem

/-- `OperationControllerEvent`. -/
structure OperationControllerEvent where
  ownerOperation : Option OperationEventItem
  beneficiaryOperation : Option OperationEventItem
  deriving DecidableEq

inductive Event where
  | operation (type : OperationEventType) (event : OperationControllerEvent)
  | createdUserLimit (userLimit : UserLimit)
  deriving DecidableEq

/-! ### Stores -/

/-- Reference data and configuration. -/
structure Env where
  currencies : List Currency
  transactionTypes : List TransactionType
  transactionTypes_nodup : (transactionTypes.map (·.id)).Nodup
  limitTypes : List LimitType
  globalLimits : List GlobalLimit
  quotations : List OperationStreamQuotation
  operationSymbolCurrencyReal : String
  pendingWalletAccountTransactionTTL : ℤ
  /-- Milliseconds by which the server's clock is ahead of UTC. -/
  serverOffset : ℤ
  ZROWalletId : Uuid
  creditTransactionTypeTag : String
  debitTransactionTypeTag : String
  p2pTransactionTypeTag : String

namespace Env

def currencyByTag (env : Env) (tag : String) : Option Currency :=
  env.currencies.find? (·.tag = tag)

def currencyBySymbol (env : Env) (symbol : String) : Option Currency :=
  env.currencies.find? (·.symbol = symbol)

def transactionTypeByTag (env : Env) (tag : String) : Option TransactionType :=
  env.transactionTypes.find? (·.tag = tag)

theorem transactionType_eq {env : Env} {t u : TransactionType} (ht : t ∈ env.transactionTypes)
    (hu : u ∈ env.transactionTypes) (h : t.id = u.id) : t = u :=
  List.inj_on_of_nodup_map env.transactionTypes_nodup ht hu h

def limitTypeById (env : Env) (id : LimitTypeId) : Option LimitType :=
  env.limitTypes.find? (·.id = id)

/-- `limitType.transactionTypes`. -/
def transactionTypesOf (env : Env) (limitType : LimitType) : List TransactionType :=
  env.transactionTypes.filter (·.limitType = some limitType.id)

/-- `limitTypeRepository.getByTransactionType`. -/
def limitTypeByTransactionType (env : Env) (transactionType : TransactionType) :
    Option LimitType :=
  env.limitTypes.find? fun l =>
    (env.transactionTypesOf l).any (·.id = transactionType.id)

def globalLimitByLimitType (env : Env) (limitType : LimitType) : Option GlobalLimit :=
  env.globalLimits.find? (·.limitType = limitType.id)

end Env

/-- The tables, and the queue of the events that were sent and not delivered yet. -/
structure Db where
  wallets : Table Wallet
  walletAccounts : Table WalletAccount
  operations : Table Operation
  userLimits : Table UserLimit
  userLimitTrackers : Table UserLimitTracker
  walletAccountTransactions : List WalletAccountTransaction
  p2pTransfers : Table P2PTransfer
  /-- Wallet and user of the rows of `user_wallets`. -/
  userWallets : List (Uuid × UserId)
  events : List Event

namespace Db

/-- The UUIDs in use. -/
def uuids (db : Db) : List Uuid :=
  db.operations.rows.map (·.id) ++ db.operations.rows.filterMap (·.userLimitTracker)
    ++ db.userLimits.rows.map (·.id)
    ++ db.userLimitTrackers.rows.map (·.id) ++ db.userLimitTrackers.rows.map (·.userLimit)
    ++ db.p2pTransfers.rows.map (·.id)

/-- `uuidV4()`: a UUID that is not in use, after `drawn` others were drawn that are not stored
yet. -/
def uuidV4 (db : Db) (drawn : ℕ) : Uuid := fresh db.uuids + drawn

theorem uuidV4_ne {db : Db} {drawn : ℕ} {u : Uuid} (h : u ∈ db.uuids) : u ≠ db.uuidV4 drawn :=
  ((lt_fresh h).trans_le (Nat.le_add_right _ _)).ne

/-- `walletAccountRepository.getByWalletAndCurrency`. -/
def walletAccountByWalletAndCurrency (db : Db) (wallet : Wallet) (currency : Currency) :
    Option WalletAccount :=
  db.walletAccounts.rows.find? fun a => a.wallet = wallet.uuid ∧ a.currency.id = currency.id

/-- `walletAccountCacheRepository.getAllByUser`: `wallet_account_caches` is kept equal to the
wallet accounts by the trigger on their rows. -/
def walletAccountsByUser (db : Db) (user : UserId) : List WalletAccount :=
  db.walletAccounts.rows.filter fun a =>
    (db.wallets.get? a.wallet).any fun w => decide (w.user = user)

/-- `walletAccountCacheRepository.getAllByWallet`. -/
def walletAccountsByWallet (db : Db) (wallet : Wallet) : List WalletAccount :=
  db.walletAccounts.rows.filter (·.wallet = wallet.uuid)

/-- `userLimitRepository.getByUserAndLimitType`. -/
def userLimitByUserAndLimitType (db : Db) (user : UserId) (limitType : LimitTypeId) :
    Option UserLimit :=
  db.userLimits.rows.find? fun l => l.user = user ∧ l.limitType = limitType

/-- `userLimitTrackerRepository.getByUserLimit`. -/
def userLimitTrackerByUserLimit (db : Db) (userLimit : UserLimit) : Option UserLimitTracker :=
  db.userLimitTrackers.rows.find? (·.userLimit = userLimit.id)

/-- The `n`-th event leaves the queue. -/
def consume (db : Db) (n : ℕ) : Db := { db with events := db.events.eraseIdx n }

end Db

structure World where
  db : Db
  /-- Pending wallet account transactions, one for a wallet account and an operation. -/
  cache : List PendingWalletAccountTransaction

/-- Code of the service. -/
abbrev App := EStateM Exception World

/-- Read the database. -/
def readDb {α : Type} (f : Db → α) : App α := do
  let w ← get
  return f w.db

/-- Write to the database. -/
def writeDb (f : Db → Db) : App Unit := modify fun w => { w with db := f w.db }

/-- Append an event; it is sent at commit. -/
def emit (e : Event) : App Unit := writeDb fun db => { db with events := db.events ++ [e] }

/-- The `TransactionInterceptor`: commit when the code returns, roll back when it throws. -/
def atomic {α : Type} (x : App α) : App α :=
  transaction (fun before after => { after with db := before.db }) x

section
variable {α : Type} {a : α} {w w' : World} {e : Exception}

theorem readDb_ok {f : Db → α} : readDb f w = .ok a w' ↔ a = f w.db ∧ w' = w := by
  rw [readDb, bind_ok]
  constructor
  · rintro ⟨v, w₁, h₁, h₂⟩
    obtain ⟨rfl, rfl⟩ := get_ok.mp h₁
    exact pure_ok.mp h₂
  · rintro ⟨rfl, rfl⟩
    exact ⟨w', w', rfl, rfl⟩

theorem readDb_bind_ok {β : Type} {f : Db → α} {g : α → App β} {b : β} :
    (readDb f >>= g) w = .ok b w' ↔ g (f w.db) w = .ok b w' := Iff.rfl

theorem writeDb_ok {f : Db → Db} {t : Unit} :
    writeDb f w = .ok t w' ↔ w' = { w with db := f w.db } := modify_ok

theorem emit_ok {v : Event} {t : Unit} :
    emit v w = .ok t w' ↔ w' = { w with db := { w.db with events := w.db.events ++ [v] } } :=
  writeDb_ok

theorem atomic_ok {x : App α} : atomic x w = .ok a w' ↔ x w = .ok a w' := transaction_ok

theorem readDb_error {f : Db → α} : ¬ readDb f w = .error e w' := by
  rw [readDb, bind_error]
  rintro (h | ⟨_, _, -, h⟩)
  · exact get_error h
  · exact pure_error h

theorem writeDb_error {f : Db → Db} : ¬ writeDb f w = .error e w' := modify_error

theorem emit_error {v : Event} : ¬ emit v w = .error e w' := writeDb_error

/-- A transaction that threw left the database as it was. -/
theorem atomic_error {x : App α} (h : atomic x w = .error e w') :
    w'.db = w.db ∧ ∃ w₁, x w = .error e w₁ ∧ w'.cache = w₁.cache := by
  obtain ⟨w₁, hx, rfl⟩ := transaction_error h
  exact ⟨rfl, w₁, hx, rfl⟩

end

/-! ### Repositories -/

namespace OperationRepository

/-- Insert the operation. -/
def create (o : Operation) : App Operation := do
  let operations ← readDb (·.operations)
  let operations ← orThrow (operations.insert? o.stored) (.uniqueConstraint "operations")
  writeDb fun db => { db with operations }
  return o

/-- Write the operation over the row that has its id. -/
def update (o : Operation) : App Unit :=
  writeDb fun db => { db with operations := db.operations.set o.stored }

/-- The operations with the analysis tags of one row replaced. -/
def withAnalysisTags (t : Table Operation) (id : Uuid) (analysisTags : List OperationAnalysisTag) :
    Table Operation :=
  match t.get? id with
  | some o => t.set { o with analysisTags }
  | none => t

/-- Write the analysis tags of the row with the id. -/
def updateAnalysisTags (id : Uuid) (analysisTags : List OperationAnalysisTag) : App Unit :=
  writeDb fun db => { db with operations := withAnalysisTags db.operations id analysisTags }

theorem create_ok {o o' : Operation} {w w' : World} (h : create o w = .ok o' w') :
    o' = o ∧ ∃ t, w.db.operations.insert? o = some t ∧
      w' = { w with db := { w.db with operations := t } } := by
  simp only [create, bind_ok, readDb_ok, orThrow_ok, writeDb_ok, pure_ok, Operation.stored_eq] at h
  obtain ⟨_, _, ⟨rfl, rfl⟩, t, _, ⟨ht, rfl⟩, _, _, rfl, rfl, rfl⟩ := h
  exact ⟨rfl, t, ht, rfl⟩

theorem update_ok {o : Operation} {t : Unit} {w w' : World} :
    update o w = .ok t w' ↔
      w' = { w with db := { w.db with operations := w.db.operations.set o } } := by
  rw [update, writeDb_ok, Operation.stored_eq]

theorem updateAnalysisTags_ok {id : Uuid} {tags : List OperationAnalysisTag} {t : Unit}
    {w w' : World} :
    updateAnalysisTags id tags w = .ok t w' ↔ w' = { w with db := { w.db with
      operations := withAnalysisTags w.db.operations id tags } } :=
  writeDb_ok

end OperationRepository

namespace WalletAccountRepository

/-- Write the wallet account over the row that has its id. -/
def update (a : WalletAccount) : App Unit :=
  writeDb fun db => { db with walletAccounts := db.walletAccounts.set a }

theorem update_ok {a : WalletAccount} {t : Unit} {w w' : World} :
    update a w = .ok t w' ↔
      w' = { w with db := { w.db with walletAccounts := w.db.walletAccounts.set a } } := writeDb_ok

end WalletAccountRepository

namespace UserLimitTrackerRepository

/-- Insert the tracker, or write it over the row that has its id. -/
def createOrUpdate (now : ℤ) (t : UserLimitTracker) : App Unit :=
  writeDb fun db =>
    { db with userLimitTrackers := db.userLimitTrackers.upsert { t with updatedAt := now } }

/-- Write the tracker over the row that has its id. -/
def update (now : ℤ) (t : UserLimitTracker) : App Unit :=
  writeDb fun db =>
    { db with userLimitTrackers := db.userLimitTrackers.set { t with updatedAt := now } }

theorem createOrUpdate_ok {now : ℤ} {t : UserLimitTracker} {u : Unit} {w w' : World} :
    createOrUpdate now t w = .ok u w' ↔ w' = { w with db := { w.db with
      userLimitTrackers := w.db.userLimitTrackers.upsert { t with updatedAt := now } } } :=
  writeDb_ok

theorem update_ok {now : ℤ} {t : UserLimitTracker} {u : Unit} {w w' : World} :
    update now t w = .ok u w' ↔ w' = { w with db := { w.db with
      userLimitTrackers := w.db.userLimitTrackers.set { t with updatedAt := now } } } :=
  writeDb_ok

end UserLimitTrackerRepository

namespace PendingWalletAccountTransactionRepository

/-- The cache with the entry of a wallet account and an operation written. -/
def put (cache : List PendingWalletAccountTransaction) (p : PendingWalletAccountTransaction) :
    List PendingWalletAccountTransaction :=
  cache.filter (fun q => ¬ (q.walletAccount = p.walletAccount ∧ q.operation = p.operation)) ++ [p]

/-- Write entries, one after the other. -/
def createOrUpdate (ps : List PendingWalletAccountTransaction) : App Unit :=
  modify fun w => { w with cache := ps.foldl put w.cache }

/-- The entries of a wallet account that have not expired. -/
def getByWalletAccount (now : ℤ) (walletAccount : WalletAccountId)
    (cache : List PendingWalletAccountTransaction) : List PendingWalletAccountTransaction :=
  cache.filter fun p =>
    decide (p.walletAccount = walletAccount) && p.expiresAt.all fun t => decide (now < t)

theorem createOrUpdate_ok {ps : List PendingWalletAccountTransaction} {t : Unit}
    {w w' : World} : createOrUpdate ps w = .ok t w' ↔ w' = { w with cache := ps.foldl put w.cache } :=
  modify_ok

theorem createOrUpdate_error {ps : List PendingWalletAccountTransaction} {e : Exception}
    {w w' : World} : ¬ createOrUpdate ps w = .error e w' := modify_error

end PendingWalletAccountTransactionRepository

/-! ### The event emitter -/

namespace OperationEventEmitter

variable {o b : Option Operation}

/-- What the event says about an operation. -/
def formatItem (o : Operation) : OperationItem where
  id := o.id
  value := o.value
  fee := o.fee
  rawValue := o.rawValue
  description := o.description
  currencyId := o.currency
  state := o.state
  ownerId := o.owner.map (·.user)
  beneficiaryId := o.beneficiary.map (·.user)
  ownerWalletAccountId := o.owner.map (·.walletAccount)
  beneficiaryWalletAccountId := o.beneficiary.map (·.walletAccount)
  transactionId := o.transactionType.id
  transactionTag := o.transactionType.tag
  operationRefId := o.operationRef
  ownerRequestedRawValue := o.ownerRequestedRawValue
  ownerRequestedFee := o.ownerRequestedFee
  analysisTags := o.analysisTags
  userLimitTrackerId := o.userLimitTracker
  createdAt := o.createdAt

/-- `new OperationItemControllerEvent`, which validates itself. -/
def newItem (o : Operation) : Except Exception OperationEventItem :=
  if h : (formatItem o).invalidFields = [] then .ok ⟨formatItem o, h⟩
  else .error (.invalidDataFormat (formatItem o).invalidFields)

/-- The item of an operation that may be missing. -/
def newItem? : Option Operation → Except Exception (Option OperationEventItem)
  | none => .ok none
  | some o => (newItem o).map some

/-- `formatData`. -/
def formatData (ownerOperation beneficiaryOperation : Option Operation) :
    Except Exception OperationControllerEvent :=
  match newItem? ownerOperation with
  | .error e => .error e
  | .ok ownerOperation =>
      match newItem? beneficiaryOperation with
      | .error e => .error e
      | .ok beneficiaryOperation => .ok ⟨ownerOperation, beneficiaryOperation⟩

/-- Format the operations and append the event. -/
def emitOperationEvent (type : OperationEventType)
    (ownerOperation beneficiaryOperation : Option Operation) : App Unit :=
  match formatData ownerOperation beneficiaryOperation with
  | .ok event => emit (.operation type event)
  | .error e => throw e

/-- The event is about the two operations. -/
def About (event : OperationControllerEvent) (ownerOperation beneficiaryOperation : Option Operation) :
    Prop :=
  event.ownerOperation.map (·.item) = ownerOperation.map formatItem ∧
    event.beneficiaryOperation.map (·.item) = beneficiaryOperation.map formatItem

/-- The amounts of an operation that an event is about are not negative. -/
theorem About.nonneg {event : OperationControllerEvent} {x : Operation}
    (h : About event o b) (hx : o = some x ∨ b = some x) :
    0 ≤ x.value ∧ 0 ≤ x.rawValue ∧ 0 ≤ x.fee := by
  have item : ∃ i : OperationEventItem, i.item = formatItem x := by
    rcases hx with rfl | rfl
    · obtain ⟨i, -, hi⟩ := Option.map_eq_some_iff.mp h.1
      exact ⟨i, hi⟩
    · obtain ⟨i, -, hi⟩ := Option.map_eq_some_iff.mp h.2
      exact ⟨i, hi⟩
  obtain ⟨i, hi⟩ := item
  have hv := i.value_nonneg
  have hr := i.rawValue_nonneg
  have hf := i.fee_nonneg
  rw [hi] at hv hr hf
  exact ⟨hv, hr, hf⟩

theorem newItem?_ok {i : Option OperationEventItem}
    (h : newItem? o = .ok i) : i.map (·.item) = o.map formatItem := by
  cases o with
  | none => cases h; rfl
  | some o =>
      rw [newItem?, newItem] at h
      split at h
      · cases h; rfl
      · cases h

theorem newItem?_error {e : Exception} (h : newItem? o = .error e) :
    ∃ fields, e = .invalidDataFormat fields := by
  cases o with
  | none => cases h
  | some o =>
      rw [newItem?, newItem] at h
      split at h
      · cases h
      · cases h; exact ⟨_, rfl⟩

theorem formatData_ok {event : OperationControllerEvent}
    (h : formatData o b = .ok event) : About event o b := by
  rw [formatData] at h
  cases ho : newItem? o with
  | error e => rw [ho] at h; cases h
  | ok i =>
      cases hb : newItem? b with
      | error e => rw [ho, hb] at h; cases h
      | ok j =>
          rw [ho, hb] at h
          cases h
          exact ⟨newItem?_ok ho, newItem?_ok hb⟩

theorem formatData_error {e : Exception}
    (h : formatData o b = .error e) : ∃ fields, e = .invalidDataFormat fields := by
  rw [formatData] at h
  cases ho : newItem? o with
  | error e => rw [ho] at h; cases h; exact newItem?_error ho
  | ok i =>
      cases hb : newItem? b with
      | error e => rw [ho, hb] at h; cases h; exact newItem?_error hb
      | ok j => rw [ho, hb] at h; cases h

theorem emitOperationEvent_ok {type : OperationEventType} {t : Unit}
    {w w' : World} (h : emitOperationEvent type o b w = .ok t w') :
    ∃ e, About e o b ∧
      w' = { w with db := { w.db with events := w.db.events ++ [.operation type e] } } := by
  rw [emitOperationEvent] at h
  cases hf : formatData o b with
  | ok e =>
      rw [hf] at h
      exact ⟨e, formatData_ok hf, emit_ok.mp h⟩
  | error e =>
      rw [hf] at h
      exact absurd h throw_ok

theorem emitOperationEvent_error {type : OperationEventType}
    {e : Exception} {w w' : World} (h : emitOperationEvent type o b w = .error e w') :
    ∃ fields, e = .invalidDataFormat fields := by
  rw [emitOperationEvent] at h
  cases hf : formatData o b with
  | ok event =>
      rw [hf] at h
      exact absurd h emit_error
  | error e' =>
      rw [hf] at h
      obtain ⟨fields, rfl⟩ := formatData_error hf
      exact ⟨fields, (throw_error.mp h).1⟩

end OperationEventEmitter

end ZroServices
