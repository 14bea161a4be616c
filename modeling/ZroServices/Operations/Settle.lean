import ZroServices.Foundation.Transaction
import ZroServices.Operations.Database

/-!
# Operations — accepting and reverting an operation

`AcceptOperationUseCase` and `RevertOperationUseCase` are written as transaction programs over
rows, so that they can be executed alone (`App.ofProg`) and side by side (`Foundation.Sys`).  The
operation row is read without a lock (`getWithTransactionTypeById`); wallet account rows are read
with `SELECT … FOR UPDATE` (`walletAccountRepository.getById`).

The id is given: without one, both throw `MissingDataException`.

`accept_ok` and `revert_ok` say everything an execution that returned did.
-/

namespace ZroServices

open Foundation

/-- The rows the two use cases read and write. -/
inductive Row where
  | operation (id : Uuid)
  | walletAccount (id : WalletAccountId)
  deriving DecidableEq, Repr

/-- The type of a row. -/
abbrev Row.Val : Row → Type
  | .operation _ => Operation
  | .walletAccount _ => WalletAccount

/-- What the two use cases append. -/
inductive Output where
  | walletAccountTransaction (t : WalletAccountTransaction)
  | event (e : Event)

instance : RowStore Db Row Row.Val Output where
  get db
    | .operation id => db.operations.get? id
    | .walletAccount id => db.walletAccounts.get? id
  put db
    | .operation _, o => { db with operations := db.operations.set o.stored }
    | .walletAccount _, a => { db with walletAccounts := db.walletAccounts.set a }
  output db
    | .walletAccountTransaction t =>
        { db with walletAccountTransactions := db.walletAccountTransactions ++ [t] }
    | .event e => { db with events := db.events ++ [e] }

/-- A use case as a transaction program. -/
abbrev Program := Prog Row Row.Val Output Exception

/-- A transaction program as code of the service. -/
def App.ofProg {ρ : Type} (p : Program ρ) : App ρ := fun w =>
  match p.run w.db with
  | (.ok r, db) => .ok r { w with db }
  | (.error e, db) => .error e { w with db }

theorem ofProg_ok {ρ : Type} {p : Program ρ} {r : ρ} {w w' : World} :
    App.ofProg p w = .ok r w' ↔ ∃ db, p.run w.db = (.ok r, db) ∧ w' = { w with db } := by
  rw [App.ofProg]
  rcases p.run w.db with ⟨r' | r', db⟩ <;> simp [eq_comm]

/-- What accepting an operation returns. -/
structure AcceptedOperation where
  operation : Operation
  debitWalletAccountTransaction : Option WalletAccountTransaction
  debitWalletAccount : Option WalletAccount
  creditWalletAccountTransaction : Option WalletAccountTransaction
  creditWalletAccount : Option WalletAccount

namespace Settle

/-- Read the operation, without a lock. -/
def getOperation {ρ : Type} (id : Uuid) (next : Operation → Program ρ) : Program ρ :=
  .read (.operation id) fun
    | none => .throw (.operationNotFound id)
    | some o => next o

/-- Load a wallet account for update, and check it. -/
def getWalletAccount {ρ : Type} (id : WalletAccountId) (next : WalletAccount → Program ρ) :
    Program ρ :=
  .readForUpdate (.walletAccount id) fun
    | none => .throw (.walletAccountNotFound (some id) none none)
    | some a => if a.isActive then next a else .throw (.walletAccountNotActive a)

/-- Build an operation event and send it at commit. -/
def emitOperationEvent {ρ : Type} (type : OperationEventType)
    (ownerOperation beneficiaryOperation : Option Operation) (next : Program ρ) : Program ρ :=
  match OperationEventEmitter.formatData ownerOperation beneficiaryOperation with
  | .ok event => .output (.event (.operation type event)) next
  | .error e => .throw e

/-- The event of a settled operation: the operation, under the sides that it has. -/
def emitSettled {ρ : Type} (type : OperationEventType) (o : Operation) (next : Program ρ) :
    Program ρ :=
  emitOperationEvent type (o.owner.map fun _ => o) (o.beneficiary.map fun _ => o) next

end Settle

namespace AcceptOperationUseCase

open Settle

/-- The DEBIT transaction of an accepted operation. -/
def debitTransaction (o : Operation) (a : WalletAccount) : WalletAccountTransaction where
  walletAccount := a.id
  operation := o.id
  transactionType := .DEBIT
  value := o.value
  previousBalance := a.balance + a.pendingAmount
  updatedBalance := a.balance + a.pendingAmount - o.value

/-- The CREDIT transaction of an accepted operation. -/
def creditTransaction (o : Operation) (a : WalletAccount) : WalletAccountTransaction where
  walletAccount := a.id
  operation := o.id
  transactionType := .CREDIT
  value := o.value
  previousBalance := a.balance + a.pendingAmount
  updatedBalance := a.balance + a.pendingAmount + o.value

/-- The owner's wallet account after the debit. -/
def debit (o : Operation) (a : WalletAccount) : WalletAccount :=
  { a with pendingAmount := a.pendingAmount - o.value }

/-- The beneficiary's wallet account after the credit. -/
def credit (o : Operation) (a : WalletAccount) : WalletAccount :=
  { a with balance := a.balance + o.value }

/-- Debit the owner, if there is one. -/
def debitOwner {ρ : Type} (o : Operation) (next : Option WalletAccount → Program ρ) : Program ρ :=
  match o.owner with
  | none => next none
  | some owner =>
      getWalletAccount owner.walletAccount fun a =>
        .output (.walletAccountTransaction (debitTransaction o a)) <|
        .update (.walletAccount a.id) (debit o a) <|
        next (some a)

/-- Credit the beneficiary, if there is one. -/
def creditBeneficiary {ρ : Type} (o : Operation) (next : Option WalletAccount → Program ρ) :
    Program ρ :=
  match o.beneficiary with
  | none => next none
  | some beneficiary =>
      getWalletAccount beneficiary.walletAccount fun a =>
        .output (.walletAccountTransaction (creditTransaction o a)) <|
        .update (.walletAccount a.id) (credit o a) <|
        next (some a)

/-- What `execute` returns, from the wallet accounts it loaded. -/
def result (o : Operation) (debited credited : Option WalletAccount) : AcceptedOperation where
  operation := o
  debitWalletAccountTransaction := debited.map (debitTransaction o)
  debitWalletAccount := debited.map (debit o)
  creditWalletAccountTransaction := credited.map (creditTransaction o)
  creditWalletAccount := credited.map (credit o)

/-- `AcceptOperationUseCase.execute`. -/
def execute (id : Uuid) : Program AcceptedOperation :=
  getOperation id fun o =>
    if o.isPending then
      let o := { o with state := .ACCEPTED }
      .update (.operation o.id) o <|
      debitOwner o fun debited =>
      creditBeneficiary o fun credited =>
      if o.owner = none ∧ o.beneficiary = none then .done (result o debited credited)
      else emitSettled .ACCEPTED o (.done (result o debited credited))
    else .throw (.operationInvalidState o.state)

end AcceptOperationUseCase

namespace RevertOperationUseCase

open Settle

/-- The owner's wallet account with the blocked value back. -/
def release (o : Operation) (a : WalletAccount) : WalletAccount :=
  { a with pendingAmount := a.pendingAmount - o.value, balance := a.balance + o.value }

/-- Give the blocked value back to the owner, if there is one. -/
def releaseOwner {ρ : Type} (o : Operation) (next : Program ρ) : Program ρ :=
  match o.owner with
  | none => next
  | some owner =>
      getWalletAccount owner.walletAccount fun a =>
        .update (.walletAccount a.id) (release o a) next

/-- `RevertOperationUseCase.execute`. -/
def execute (now : ℤ) (id : Uuid) : Program Operation :=
  getOperation id fun o =>
    if o.isReverted then .done o
    else if o.isPending then
      releaseOwner o <|
      let o := { o with state := .REVERTED, revertedAt := some now }
      .update (.operation o.id) o <|
      emitSettled .REVERTED o (.done o)
    else .throw (.operationInvalidState o.state)

end RevertOperationUseCase

/-! ### What the two use cases do -/

namespace Settle

/-- The wallet account of a side was loaded and written, if there is that side. -/
inductive Moved (t : Table WalletAccount) (f : WalletAccount → WalletAccount) :
    Option Party → Table WalletAccount → Prop
  | none : Moved t f none t
  | some (p : Party) (a : WalletAccount) (ha : t.get? p.walletAccount = some a)
      (hactive : a.isActive) : Moved t f (some p) (t.set (f a))

/-- The wallet account of a side was loaded and written, and the row of its statement was added,
if there is that side. -/
inductive Recorded (t : Table WalletAccount) (f : WalletAccount → WalletAccount)
    (row : WalletAccount → WalletAccountTransaction) :
    Option Party → Table WalletAccount → List WalletAccountTransaction → Prop
  | none : Recorded t f row none t []
  | some (p : Party) (a : WalletAccount) (ha : t.get? p.walletAccount = some a)
      (hactive : a.isActive) : Recorded t f row (some p) (t.set (f a)) [row a]

theorem Recorded.moved {t t' : Table WalletAccount} {f : WalletAccount → WalletAccount}
    {row : WalletAccount → WalletAccountTransaction} {p : Option Party}
    {ts : List WalletAccountTransaction} (h : Recorded t f row p t' ts) : Moved t f p t' := by
  cases h with
  | none => exact .none
  | some p a ha hactive => exact .some p a ha hactive

variable {ρ : Type} {r : ρ} {db db' : Db} {o : Operation} {next : Program ρ}
  {nextOf : WalletAccount → Program ρ}

theorem getOperation_run {id : Uuid} {nextOf : Operation → Program ρ} :
    (getOperation id nextOf).run db =
      match db.operations.get? id with
      | none => (.error (.operationNotFound id), db)
      | some o => (nextOf o).run db := by
  rw [getOperation, Prog.run, show RowStore.get db (Row.operation id) = db.operations.get? id from rfl]
  cases db.operations.get? id <;> rfl

theorem getWalletAccount_run {id : WalletAccountId} :
    (getWalletAccount id nextOf).run db =
      match db.walletAccounts.get? id with
      | none => (.error (.walletAccountNotFound (some id) none none), db)
      | some a =>
          if a.isActive then (nextOf a).run db else (.error (.walletAccountNotActive a), db) := by
  rw [getWalletAccount, Prog.run,
    show RowStore.get db (Row.walletAccount id) = db.walletAccounts.get? id from rfl]
  cases db.walletAccounts.get? id with
  | none => rfl
  | some a =>
      by_cases h : a.isActive
      · simp only [if_pos h]
      · simp only [if_neg h, Prog.run]

theorem getWalletAccount_ok {id : WalletAccountId}
    (h : (getWalletAccount id nextOf).run db = (.ok r, db')) :
    ∃ a, db.walletAccounts.get? id = some a ∧ a.isActive ∧ (nextOf a).run db = (.ok r, db') := by
  rw [getWalletAccount_run] at h
  cases ha : db.walletAccounts.get? id with
  | none => rw [ha] at h; cases h
  | some a =>
      rw [ha] at h
      by_cases hactive : a.isActive
      · simp only [if_pos hactive] at h
        exact ⟨a, rfl, hactive, h⟩
      · simp only [if_neg hactive] at h
        cases h

theorem emitSettled_ok {type : OperationEventType}
    (h : (emitSettled type o next).run db = (.ok r, db')) :
    ∃ e, OperationEventEmitter.About e (o.owner.map fun _ => o) (o.beneficiary.map fun _ => o) ∧
      next.run { db with events := db.events ++ [.operation type e] } = (.ok r, db') := by
  rw [emitSettled, emitOperationEvent] at h
  cases hf : OperationEventEmitter.formatData (o.owner.map fun _ => o)
      (o.beneficiary.map fun _ => o) with
  | ok e =>
      rw [hf] at h
      exact ⟨e, OperationEventEmitter.formatData_ok hf, h⟩
  | error e => rw [hf] at h; cases h

end Settle

namespace AcceptOperationUseCase

open Settle

variable {ρ : Type} {r : ρ} {db db' : Db} {o : Operation} {nextOf : Option WalletAccount → Program ρ}

/-- Debiting the owner and crediting the beneficiary are one code, for a side each. -/
theorem settleSide_ok {p : Option Party} {f : WalletAccount → WalletAccount}
    {row : WalletAccount → WalletAccountTransaction}
    {x : (Option WalletAccount → Program ρ) → Program ρ}
    (hx : ∀ next, x next = match p with
      | none => next none
      | some p => getWalletAccount p.walletAccount fun a =>
          .output (.walletAccountTransaction (row a)) <|
          .update (.walletAccount a.id) (f a) <| next (some a))
    (h : (x nextOf).run db = (.ok r, db')) :
    ∃ a t ts, Recorded db.walletAccounts f row p t ts ∧ (nextOf a).run { db with
      walletAccounts := t
      walletAccountTransactions := db.walletAccountTransactions ++ ts } = (.ok r, db') := by
  rw [hx] at h
  cases p with
  | none => exact ⟨none, db.walletAccounts, [], .none, by rw [List.append_nil]; exact h⟩
  | some p =>
      obtain ⟨a, ha, hactive, h⟩ := getWalletAccount_ok h
      exact ⟨some a, _, [row a], .some p a ha hactive, h⟩

/-- An operation that is accepted. -/
def accepted (o : Operation) : Operation := { o with state := .ACCEPTED }

/-- What accepting the pending operation `o` does to the database. -/
structure Accepted (db : Db) (o : Operation) (db' : Db) : Prop where
  found : db.operations.get? o.id = some o
  pending : o.state = .PENDING
  written : ∃ t t' ts es, Moved db.walletAccounts (debit o) o.owner t ∧
    Moved t (credit o) o.beneficiary t' ∧
    (∀ e ∈ es, ∃ event, e = .operation .ACCEPTED event) ∧
    db' = { db with
      operations := db.operations.set (accepted o)
      walletAccounts := t'
      walletAccountTransactions := db.walletAccountTransactions ++ ts
      events := db.events ++ es }
  recorded : ∃ t ts ts',
    Recorded db.walletAccounts (debit o) (debitTransaction o) o.owner t ts ∧
    Recorded t (credit o) (creditTransaction o) o.beneficiary db'.walletAccounts ts' ∧
    db'.walletAccountTransactions = db.walletAccountTransactions ++ (ts ++ ts')

/-- **Everything an accept that returned did.** -/
theorem accept_ok {id : Uuid} {r : AcceptedOperation} (h : (execute id).run db = (.ok r, db')) :
    ∃ o, o.id = id ∧ Accepted db o db' := by
  rw [execute, getOperation_run] at h
  cases ho : db.operations.get? id with
  | none => rw [ho] at h; cases h
  | some o =>
      have hid : o.id = id := Table.key_of_get? ho
      rw [ho] at h
      by_cases hp : o.isPending
      · simp only [if_pos hp, Prog.run] at h
        obtain ⟨a, t, ts, ht, h⟩ := settleSide_ok (x := debitOwner (accepted o)) (fun _ => rfl) h
        obtain ⟨b, t', ts', ht', h⟩ := settleSide_ok (x := creditBeneficiary (accepted o)) (fun _ => rfl) h
        have key : (RowStore.put db (Row.operation o.id) { o with state := .ACCEPTED } : Db)
            = { db with operations := db.operations.set (accepted o) } := by
          change { db with operations := db.operations.set (accepted o).stored } = _
          rw [Operation.stored_eq]
        rw [key] at h ht
        split at h
        · cases h
          exact ⟨o, hid, hid ▸ ho, hp,
            ⟨t, t', ts ++ ts', [], ht.moved, ht'.moved, by simp, by simp⟩,
            ⟨t, ts, ts', ht, ht', by simp⟩⟩
        · obtain ⟨e, -, h⟩ := emitSettled_ok h
          cases h
          exact ⟨o, hid, hid ▸ ho, hp,
            ⟨t, t', ts ++ ts', [.operation .ACCEPTED e], ht.moved, ht'.moved, by simp, by simp⟩,
            ⟨t, ts, ts', ht, ht', by simp⟩⟩
      · simp only [if_neg hp] at h
        cases h

end AcceptOperationUseCase

namespace RevertOperationUseCase

open Settle

variable {db db' : Db} {now : ℤ}

/-- An operation that is reverted. -/
def reverted (now : ℤ) (o : Operation) : Operation :=
  { o with state := .REVERTED, revertedAt := some now }

theorem releaseOwner_ok {o : Operation} {ρ : Type} {r : ρ} {next : Program ρ}
    (h : (releaseOwner o next).run db = (.ok r, db')) :
    ∃ t, Moved db.walletAccounts (release o) o.owner t ∧
      next.run { db with walletAccounts := t } = (.ok r, db') := by
  rw [releaseOwner] at h
  cases ho : o.owner with
  | none =>
      rw [ho] at h
      exact ⟨db.walletAccounts, .none, h⟩
  | some p =>
      rw [ho] at h
      obtain ⟨a, ha, hactive, h⟩ := getWalletAccount_ok h
      exact ⟨_, .some p a ha hactive, h⟩

/-- What reverting the pending operation `o` does to the database. -/
structure Reverted (now : ℤ) (db : Db) (o : Operation) (db' : Db) : Prop where
  found : db.operations.get? o.id = some o
  pending : o.state = .PENDING
  written : ∃ t event, Moved db.walletAccounts (release o) o.owner t ∧
    OperationEventEmitter.About event (o.owner.map fun _ => reverted now o)
      (o.beneficiary.map fun _ => reverted now o) ∧
    db' = { db with
      operations := db.operations.set (reverted now o)
      walletAccounts := t
      events := db.events ++ [.operation .REVERTED event] }

/-- **Everything a revert that returned did.** -/
theorem revert_ok {id : Uuid} {r : Operation} (h : (execute now id).run db = (.ok r, db')) :
    ∃ o, o.id = id ∧ db.operations.get? id = some o ∧
      (o.state = .REVERTED ∧ db' = db ∨ Reverted now db o db') := by
  rw [execute, getOperation_run] at h
  cases ho : db.operations.get? id with
  | none => rw [ho] at h; cases h
  | some o =>
      have hid : o.id = id := Table.key_of_get? ho
      rw [ho] at h
      refine ⟨o, hid, rfl, ?_⟩
      by_cases hr : o.isReverted
      · simp only [if_pos hr, Prog.run] at h
        cases h
        exact Or.inl ⟨hr, rfl⟩
      · by_cases hp : o.isPending
        · right
          simp only [if_neg hr, if_pos hp] at h
          obtain ⟨t, ht, h⟩ := releaseOwner_ok h
          rw [Prog.run] at h
          have key : (RowStore.put { db with walletAccounts := t } (Row.operation o.id)
              { o with state := .REVERTED, revertedAt := some now } : Db)
              = { db with
                  operations := db.operations.set (reverted now o), walletAccounts := t } := by
            change { db with
              operations := db.operations.set (reverted now o).stored, walletAccounts := t } = _
            rw [Operation.stored_eq]
          rw [key] at h
          obtain ⟨e, about, h⟩ := emitSettled_ok h
          cases h
          exact ⟨hid ▸ ho, hp, t, e, ht, about, rfl⟩
        · simp only [if_neg hr, if_neg hp] at h
          cases h

end RevertOperationUseCase

end ZroServices
