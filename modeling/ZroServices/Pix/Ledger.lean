import ZroServices.Foundation.View
import ZroServices.Payments.Domain
import ZroServices.Pix.Devolutions

/-!
# PIX — executions with the operations service

`Ledgered` holds the tables of the service, the operations of the operations service, and the
events that were sent and are handled here.  An execution that throws is rolled back, and sends no
event (`executed`); what the operations service was asked before is done.  A call of it may be
refused; what else it answers depends on the operations.
-/

namespace ZroServices.Pix

open Foundation
open Payments (LedgerOperation)

/-- The events by which one handler has another create a return. -/
inductive Event where
  | createWarningPixDevolution (id warningPixDeposit : Uuid)
  | createRefundDevolution (id pixRefund : Uuid)
  deriving DecidableEq, Repr

structure Ledgered where
  db : Database
  operations : Table LedgerOperation
  events : List Event

/-- The exceptions of `Exception`, and those of the code that is read here only. -/
inductive LedgerException where
  | pix (e : Exception)
  | operationInvalidState (state : OperationState)
  | warningPixDepositOfOperationNotFound (operation : Uuid)
  | warningPixDepositInvalidState (id : Uuid)
  | warningPixDevolutionAlreadyExists (id : Uuid)
  | pixRefundOfIssueNotFound (issue : ℤ)
  | pixRefundInvalidState (id : Uuid)
  deriving DecidableEq, Repr

abbrev LedgerApp := EStateM LedgerException Ledgered

/-- Code that touches the tables only. -/
def onDatabase {α : Type} (x : App α) : LedgerApp α := fun w =>
  match x w.db with
  | .ok a db => .ok a { w with db }
  | .error e db => .error (.pix e) { w with db }

/-- The state after an execution.  When it throws, the tables are as before and no event is sent;
the operations are not rolled back. -/
def executed {α : Type} (x : LedgerApp α) (w : Ledgered) : Ledgered :=
  match x w with
  | .ok _ w' => w'
  | .error _ w' => { w with operations := w'.operations }

def emit (event : Event) : LedgerApp Unit :=
  modify fun w => { w with events := w.events ++ [event] }

/-! ### The operations service -/

/-- The calls that are refused, for a wallet account that is not found or not active or because the
service is not reached. -/
structure Refusals where
  getOperationById : Uuid → Option LedgerException
  acceptOperation : Uuid → Option LedgerException
  revertOperation : Uuid → Option LedgerException

/-- Nothing is refused. -/
def noRefusals : Refusals := ⟨fun _ => none, fun _ => none, fun _ => none⟩

def refuse (refused : Option LedgerException) : LedgerApp Unit :=
  match refused with
  | some e => throw e
  | none => pure ()

section

variable (refusals : Refusals)

def getOperationById (id : Uuid) : LedgerApp (Option LedgerOperation) := do
  refuse (refusals.getOperationById id)
  let w ← get
  return w.operations.get? id

def setOperationState (id : Uuid) (state : OperationState) : LedgerApp Unit :=
  modify fun w => { w with operations := w.operations.set { id, state } }

/-- `AcceptOperationUseCase`. -/
def acceptOperation (id : Uuid) : LedgerApp Unit := do
  refuse (refusals.acceptOperation id)
  let w ← get
  let found ← orThrow (w.operations.get? id) (.pix (.operationNotFound id))
  throwIf (found.state ≠ .PENDING) (.operationInvalidState found.state)
  setOperationState id .ACCEPTED

/-- `RevertOperationUseCase`, which does nothing to an operation that is reverted. -/
def revertOperation (id : Uuid) : LedgerApp Unit := do
  refuse (refusals.revertOperation id)
  let w ← get
  let found ← orThrow (w.operations.get? id) (.pix (.operationNotFound id))
  match found.state with
  | .REVERTED => pure ()
  | .PENDING => setOperationState id .REVERTED
  | _ => throw (.operationInvalidState found.state)

end

/-! ### What executions do -/

section

variable {α : Type} {x : App α} {w w' : Ledgered} {a : α}

theorem onDatabase_ok :
    onDatabase x w = .ok a w' ↔ ∃ db, x w.db = .ok a db ∧ w' = { w with db } := by
  rw [onDatabase]
  cases h : x w.db with
  | ok b db =>
      simp only [EStateM.Result.ok.injEq]
      constructor
      · rintro ⟨rfl, rfl⟩
        exact ⟨db, ⟨rfl, rfl⟩, rfl⟩
      · rintro ⟨_, ⟨rfl, rfl⟩, rfl⟩
        exact ⟨rfl, rfl⟩
  | error e db => simp

theorem onDatabase_bind_ok {β : Type} {f : α → LedgerApp β} {b : β} :
    (onDatabase x >>= f) w = .ok b w' ↔
      ∃ a db, x w.db = .ok a db ∧ f a { w with db } = .ok b w' := by
  rw [bind_ok]
  constructor
  · rintro ⟨a, w₁, hx, hf⟩
    obtain ⟨db, hdb, rfl⟩ := onDatabase_ok.mp hx
    exact ⟨a, db, hdb, hf⟩
  · rintro ⟨a, db, hdb, hf⟩
    exact ⟨a, _, onDatabase_ok.mpr ⟨db, hdb, rfl⟩, hf⟩

theorem call_onDatabase_bind_ok {β : Type} {x : Except Exception α} {f : α → LedgerApp β} {b : β} :
    (onDatabase (call x) >>= f) w = .ok b w' ↔ ∃ a, x = .ok a ∧ f a w = .ok b w' := by
  simp only [onDatabase_bind_ok, call_ok]
  constructor
  · rintro ⟨a, _, ⟨ha, rfl⟩, h⟩
    exact ⟨a, ha, h⟩
  · rintro ⟨a, ha, h⟩
    exact ⟨a, w.db, ⟨ha, rfl⟩, h⟩

theorem modify_onDatabase_bind {β : Type} {g : Database → Database} {f : Unit → LedgerApp β} :
    (onDatabase (modify g) >>= f) w = f () { w with db := g w.db } := rfl

theorem executed_ok {x : LedgerApp α} (h : x w = .ok a w') : executed x w = w' := by
  rw [executed, h]

/-- What holds after an execution that returned, and after one that was rolled back. -/
theorem executed_induction {P : Ledgered → Prop} {x : LedgerApp α}
    (hok : ∀ a w', x w = .ok a w' → P w')
    (herror : ∀ e w', x w = .error e w' → P { w with operations := w'.operations }) :
    P (executed x w) := by
  rw [executed]
  cases h : x w with
  | ok a w' => exact hok a w' h
  | error e w' => exact herror e w' h

/-- The same for code that throws before it has an operation changed. -/
theorem executed_induction_of_keeps {P : Ledgered → Prop} {x : LedgerApp α} (hw : P w)
    (hx : KeepsThrowing Ledgered.operations x) (hok : ∀ a w', x w = .ok a w' → P w') :
    P (executed x w) := by
  refine executed_induction hok fun e w' h => ?_
  rw [hx w e w' h]
  exact hw

theorem executed_cases {x : LedgerApp α} (hx : KeepsThrowing Ledgered.operations x) (w : Ledgered) :
    executed x w = w ∨ ∃ a, x w = .ok a (executed x w) := by
  refine executed_induction (P := fun v => v = w ∨ ∃ a, x w = .ok a v)
    (fun a w' h => .inr ⟨a, h⟩) fun e w' h => .inl ?_
  rw [hx w e w' h]

theorem keeps_onDatabase (x : App α) : Keeps Ledgered.operations (onDatabase x) := by
  intro w
  rw [left, onDatabase]
  cases x w.db <;> rfl

theorem keeps_emit (event : Event) : Keeps Ledgered.operations (emit event) :=
  keeps_modify fun _ => rfl

theorem throws_onDatabase (hx : Throws (fun _ => False) x) :
    Throws (fun _ => False) (onDatabase x) := by
  intro w e w' h
  rw [onDatabase] at h
  cases hdb : x w.db with
  | ok b db =>
      rw [hdb] at h
      cases h
  | error e db => exact hx w.db e db hdb

end

theorem refuse_bind_ok {β : Type} {refused : Option LedgerException} {f : Unit → LedgerApp β}
    {w w' : Ledgered} {b : β} :
    (refuse refused >>= f) w = .ok b w' ↔ refused = none ∧ f () w = .ok b w' := by
  cases refused with
  | none => simp only [refuse, true_and]; exact Iff.rfl
  | some e => simp [refuse, bind_ok, throw_ok]

section

variable {refusals : Refusals} {id : Uuid} {w w' : Ledgered} {t : Unit}

theorem getOperationById_ok {found : Option LedgerOperation} :
    getOperationById refusals id w = .ok found w' ↔
      refusals.getOperationById id = none ∧ found = w.operations.get? id ∧ w' = w := by
  rw [getOperationById, refuse_bind_ok, get_bind_ok, pure_ok]

theorem getOperationById_bind_ok {β : Type} {f : Option LedgerOperation → LedgerApp β} {b : β} :
    (getOperationById refusals id >>= f) w = .ok b w' ↔
      refusals.getOperationById id = none ∧ f (w.operations.get? id) w = .ok b w' := by
  rw [getOperationById, bind_assoc, refuse_bind_ok]
  exact Iff.rfl

/-- A pending operation is accepted. -/
theorem acceptOperation_ok :
    acceptOperation refusals id w = .ok t w' ↔
      refusals.acceptOperation id = none ∧
        w.operations.get? id = some ⟨id, .PENDING⟩ ∧
          w' = { w with operations := w.operations.set ⟨id, .ACCEPTED⟩ } := by
  rw [acceptOperation, refuse_bind_ok, get_bind_ok, orThrow_bind_ok]
  simp only [throwIf_bind_ok, setOperationState, modify_ok, not_not]
  refine and_congr_right fun _ => ?_
  constructor
  · rintro ⟨⟨n, s⟩, hfound, rfl, rfl⟩
    obtain rfl : n = id := Table.key_of_get? hfound
    exact ⟨hfound, rfl⟩
  · rintro ⟨hfound, rfl⟩
    exact ⟨_, hfound, rfl, rfl⟩

/-- An operation is reverted that is pending, or was reverted before. -/
theorem revertOperation_ok (h : revertOperation refusals id w = .ok t w') :
    (w.operations.get? id = some ⟨id, .PENDING⟩ ∧
        w' = { w with operations := w.operations.set ⟨id, .REVERTED⟩ }) ∨
      w.operations.get? id = some ⟨id, .REVERTED⟩ ∧ w' = w := by
  rw [revertOperation, refuse_bind_ok, get_bind_ok, orThrow_bind_ok] at h
  obtain ⟨-, ⟨n, s⟩, hfound, h⟩ := h
  obtain rfl : n = id := Table.key_of_get? hfound
  cases s with
  | REVERTED => exact .inr ⟨hfound, (pure_ok.mp h).2⟩
  | PENDING => exact .inl ⟨hfound, modify_ok.mp h⟩
  | ACCEPTED | DECLINED | UNDONE => exact absurd h throw_ok

/-! ### What calls of the operations service keep -/

/-- The operations in a state. -/
def operationsIn (state : OperationState) (operations : Table LedgerOperation) : Set Uuid :=
  { id | operations.get? id = some ⟨id, state⟩ }

theorem operationsIn_set {operations : Table LedgerOperation} {state s t : OperationState}
    (h : operations.get? id = some ⟨id, s⟩) (hs : s ≠ state) (ht : t ≠ state) :
    operationsIn state (operations.set ⟨id, t⟩) = operationsIn state operations := by
  ext i
  change (operations.set ⟨id, t⟩).get? i = _ ↔ operations.get? i = _
  by_cases hi : id = i
  · subst hi
    rw [Table.get?_set_self h rfl, h]
    simp [hs, ht]
  · rw [Table.get?_set_ne hi]

theorem operationsIn_insert {operations table : Table LedgerOperation}
    {state s : OperationState} (h : operations.insert? ⟨id, s⟩ = some table) (hs : s ≠ state) :
    operationsIn state table = operationsIn state operations := by
  ext i
  change table.get? i = _ ↔ operations.get? i = _
  by_cases hi : id = i
  · subst hi
    have hnone := (Table.insert?_eq_some h).1
    have hself : table.get? id = some ⟨id, s⟩ := Table.get?_insert?_self h
    rw [hself, show operations.get? id = none from hnone]
    simp [hs]
  · rw [Table.get?_insert?_ne h hi]

variable {state : OperationState}

theorem keeps_refuse {γ : Type*} {p : Ledgered → γ} (refused : Option LedgerException) :
    Keeps p (refuse refused) := by
  cases refused with
  | none => exact keeps_pure ()
  | some e => exact keeps_throw e

theorem keeps_getOperationById {γ : Type*} {p : Ledgered → γ} :
    Keeps p (getOperationById refusals id) :=
  (keeps_refuse _).bind fun _ => keeps_get.bind fun _ => keeps_pure _

theorem throws_setOperationState :
    Throws (fun _ => False) (setOperationState id state) := throws_modify _

theorem keepsThrowing_acceptOperation :
    KeepsThrowing Ledgered.operations (acceptOperation refusals id) :=
  .bind (keeps_refuse _) fun _ => .bind keeps_get fun _ => .bind keeps_orThrow fun _ =>
    .bind keeps_throwIf fun _ => keepsThrowing_of_returns throws_setOperationState

theorem keepsThrowing_revertOperation :
    KeepsThrowing Ledgered.operations (revertOperation refusals id) := by
  refine .bind (keeps_refuse _) fun _ => .bind keeps_get fun _ => .bind keeps_orThrow fun found => ?_
  cases found.state with
  | REVERTED => exact (keeps_pure ()).throwing
  | PENDING => exact keepsThrowing_of_returns throws_setOperationState
  | ACCEPTED | DECLINED | UNDONE => exact (keeps_throw _).throwing

theorem keepsIn_onDatabase {α : Type} (x : App α) :
    Keeps (fun w => operationsIn state w.operations) (onDatabase x) := fun w =>
  congrArg (operationsIn state) (keeps_onDatabase x w)

theorem keeps_acceptOperation (hpending : state ≠ .PENDING) (haccepted : state ≠ .ACCEPTED) :
    Keeps (fun w => operationsIn state w.operations) (acceptOperation refusals id) := by
  refine KeepsThrowing.keeps (fun w e w' h => ?_) fun w t w' h => ?_
  · rw [show w'.operations = w.operations from keepsThrowing_acceptOperation w e w' h]
  · obtain ⟨-, hfound, rfl⟩ := acceptOperation_ok.mp h
    exact operationsIn_set hfound hpending.symm haccepted.symm

theorem keeps_revertOperation (hpending : state ≠ .PENDING) (hreverted : state ≠ .REVERTED) :
    Keeps (fun w => operationsIn state w.operations) (revertOperation refusals id) := by
  refine KeepsThrowing.keeps (fun w e w' h => ?_) fun w t w' h => ?_
  · rw [show w'.operations = w.operations from keepsThrowing_revertOperation w e w' h]
  · rcases revertOperation_ok h with ⟨hfound, rfl⟩ | ⟨-, rfl⟩
    · exact operationsIn_set hfound hpending.symm hreverted.symm
    · rfl

end

end ZroServices.Pix
