import ZroServices.Foundation.Run
import ZroServices.Pix.Ledger

/-!
# PIX — deposits held by a warning

A deposit under suspicion is held: its operation stays PENDING until it is decided.  To approve it
(`approvePixDeposit`) accepts the operation; to block it (`blockPixDeposit`), and the user's own
request (`createWarningPixDevolution`), have a warning devolution created by a later event.  The
state of the warning says whether the suspicion was confirmed: REJECTED after the deposit is
approved, APPROVED after it is blocked.

`one_outcome_iff`: a deposit is never both credited and sent back, whatever is delivered later, if
and only if every approval and every block that goes through finds it NEW or WAITING, which is what
`createWarningPixDevolution` checks.
-/

namespace ZroServices.Pix

open Foundation
open Payments (LedgerOperation)

namespace Database

variable (db : Database)

/-- `WarningPixDepositRepository.getByOperation`. -/
def getWarningDepositByOperation (operation : Uuid) : Option WarningPixDeposit :=
  db.warningDeposits.rows.find? fun d => d.operation = operation

/-- `WarningPixDevolutionRepository.getByOperation`. -/
def getWarningDevolutionByOperation (operation : Uuid) : Option WarningPixDevolution :=
  db.warningDevolutions.rows.find? fun d => d.operation = operation

end Database

def updateWarningDeposit (warningDeposit : WarningPixDeposit) : App Unit :=
  modify fun db => { db with warningDeposits := db.warningDeposits.set warningDeposit }

/-- The identifiers of the warning devolutions that are asked for. -/
def Event.warningDevolution : Event → Option Uuid
  | .createWarningPixDevolution id _ => some id
  | .createRefundDevolution _ _ => none

namespace Ledgered

/-- The next identifier of a warning devolution. -/
def newWarningDevolution (w : Ledgered) : Uuid :=
  fresh (w.db.warningDevolutions.rows.map WarningPixDevolution.id ++
    w.events.filterMap Event.warningDevolution)

/-! ### The decisions -/

/-- The deposit of an operation and its warning. -/
def getDepositAndWarning (operation : Uuid) : LedgerApp (PixDeposit × WarningPixDeposit) := do
  let w ← get
  let deposit ← orThrow (w.db.getDepositByOperation operation)
    (.pix (.pixDepositOfOperationNotFound operation))
  let warningDeposit ← orThrow (w.db.getWarningDepositByOperation operation)
    (.warningPixDepositOfOperationNotFound operation)
  return (deposit, warningDeposit)

section

variable (refusals : Refusals)

/-- `ApprovePixDepositUseCase`. -/
def approvePixDeposit (operation : Uuid) : LedgerApp PixDeposit := do
  let found ← getOperationById refusals operation
  let operation ← orThrow found (.pix (.operationNotFound operation))
  let (deposit, warningDeposit) ← getDepositAndWarning operation.id
  throwIf (deposit.state = .RECEIVED) (.pix (.pixDepositInvalidState deposit.id))
  throwIf (warningDeposit.state = .REJECTED) (.warningPixDepositInvalidState warningDeposit.id)
  acceptOperation refusals operation.id
  let received : PixDeposit := { deposit with state := .RECEIVED }
  onDatabase (updateDeposit received)
  onDatabase (updateWarningDeposit { warningDeposit with state := .REJECTED })
  return received

/-- `BlockPixDepositUseCase`. -/
def blockPixDeposit (operation : Uuid) : LedgerApp PixDeposit := do
  let found ← getOperationById refusals operation
  let operation ← orThrow found (.pix (.operationNotFound operation))
  let (deposit, warningDeposit) ← getDepositAndWarning operation.id
  throwIf (deposit.state = .BLOCKED) (.pix (.pixDepositInvalidState deposit.id))
  throwIf (warningDeposit.state = .APPROVED) (.warningPixDepositInvalidState warningDeposit.id)
  let blocked : PixDeposit := { deposit with state := .BLOCKED }
  onDatabase (updateDeposit blocked)
  onDatabase (updateWarningDeposit { warningDeposit with state := .APPROVED })
  let w ← get
  emit (.createWarningPixDevolution w.newWarningDevolution warningDeposit.id)
  return blocked

end

/-- `CreateWarningPixDevolutionUseCase`: the identifier of the devolution that is asked for. -/
def createWarningPixDevolution (user operation : Uuid) : LedgerApp Uuid := do
  let w ← get
  let deposit ← orThrow (w.db.getDepositByOperation operation)
    (.pix (.pixDepositOfOperationNotFound operation))
  throwIf (deposit.user ≠ user) (.pix .forbidden)
  throwIf (deposit.state ∉ [.NEW, .WAITING]) (.pix (.pixDepositInvalidState deposit.id))
  let warningDeposit ← orThrow (w.db.getWarningDepositByOperation operation)
    (.warningPixDepositOfOperationNotFound operation)
  throwIf (warningDeposit.state ≠ .CREATED) (.warningPixDepositInvalidState warningDeposit.id)
  throwIf (w.db.getWarningDevolutionByOperation operation).isSome
    (.warningPixDevolutionAlreadyExists operation)
  onDatabase (updateDeposit { deposit with state := .BLOCKED })
  let w ← get
  emit (.createWarningPixDevolution w.newWarningDevolution warningDeposit.id)
  return w.newWarningDevolution

/-! ### The devolution -/

section

variable (config : Config) (services : Services) (refusals : Refusals)

/-- `if (!operation.isReverted())`, the operation is reverted. -/
def revertUnlessReverted (operation : LedgerOperation) : LedgerApp Unit :=
  match operation.state with
  | .REVERTED => pure ()
  | _ => revertOperation refusals operation.id

/-- `HandlePendingWarningPixDevolutionEventUseCase`, for a devolution to send. -/
def sendWarningDevolution (devolution : WarningPixDevolution) :
    LedgerApp WarningPixDevolution := do
  let found ← getOperationById refusals devolution.operation
  let operation ← orThrow found (.pix (.operationNotFound devolution.operation))
  let w ← get
  let deposit ← orThrow (w.db.getDepositByOperation devolution.operation)
    (.pix (.pixDepositOfOperationNotFound devolution.operation))
  let pspResult ← onDatabase
    (call (services.createWarningPixDevolution (devolution.pspRequest deposit)))
  let sent := devolution.sentAs pspResult
  onDatabase (updateWarningDevolution sent)
  revertUnlessReverted refusals operation
  onDatabase (notifyCompliance config services sent)
  return sent

/-- `HandlePendingWarningPixDevolutionEventUseCase`. -/
def handlePendingWarningPixDevolution (id : Uuid) : LedgerApp WarningPixDevolution := do
  let w ← get
  let devolution ← orThrow (w.db.warningDevolutions.get? id)
    (.pix (.warningPixDevolutionNotFound id))
  match devolution.state with
  | .WAITING | .CONFIRMED => return devolution
  | .PENDING | .FAILED => sendWarningDevolution config services refusals devolution
  | _ => throw (.pix (.warningPixDevolutionInvalidState id))

end

end Ledgered

/-! ### Runs -/

/-- The executions on held deposits.  A devolution is created by its event, which may be delivered
again; the other handlers of the devolution are called at any time. -/
inductive WarningCommand where
  | approve (refusals : Refusals) (operation : Uuid)
  | block (refusals : Refusals) (operation : Uuid)
  | createWarning (user operation : Uuid)
  | deliver (id warningPixDeposit : Uuid)
  | pending (config : Config) (services : Services) (refusals : Refusals) (id : Uuid)
  | complete (id : Uuid) (endToEndId : Option String)
  | revert (chargebackReason : Option String) (failed : Option Failed) (id : Uuid)

/-- The state after a command. -/
def Ledgered.warningStep (w : Ledgered) : WarningCommand → Ledgered
  | .approve refusals operation => executed (Ledgered.approvePixDeposit refusals operation) w
  | .block refusals operation => executed (Ledgered.blockPixDeposit refusals operation) w
  | .createWarning user operation =>
      executed (Ledgered.createWarningPixDevolution user operation) w
  | .deliver id warningPixDeposit =>
      if .createWarningPixDevolution id warningPixDeposit ∈ w.events then
        executed (onDatabase (handleCreateWarningPixDevolution id warningPixDeposit)) w
      else w
  | .pending config services refusals id =>
      executed (Ledgered.handlePendingWarningPixDevolution config services refusals id) w
  | .complete id endToEndId =>
      executed (onDatabase (handleCompleteWarningPixDevolution id endToEndId)) w
  | .revert chargebackReason failed id =>
      executed (onDatabase (handleRevertWarningPixDevolution chargebackReason failed id)) w

/-! ### What a decision is about -/

/-- What is known of the deposit of an operation: its state, whether its operation is accepted, and
the warning devolutions that are asked for and created. -/
structure Outlook where
  deposit : Option PixDepositState
  credited : Prop
  asked : Set Uuid
  sentBack : List Uuid

/-- The deposit is not both credited and sent back, and sent back once at most. -/
structure Outlook.OneOutcome (o : Outlook) : Prop where
  exclusive : ¬ (o.credited ∧ o.sentBack ≠ [])
  once : o.sentBack.length ≤ 1

namespace Database

variable (db : Database) (operation : Uuid)

def depositState : Option PixDepositState := (db.getDepositByOperation operation).map (·.state)

/-- The warning devolutions of an operation. -/
def sentBack : List Uuid :=
  (db.warningDevolutions.rows.filter fun d => d.operation = operation).map (·.id)

/-- The operation of a warning. -/
def warnedOperation (warningPixDeposit : Uuid) : Option Uuid :=
  (db.warningDeposits.get? warningPixDeposit).map (·.operation)

variable {db operation}

/-- A write of the row that was read keeps the other operations' rows. -/
theorem getDepositByOperation_set {d r : PixDeposit} {read : Uuid}
    (h : db.getDepositByOperation read = some d) (hid : r.id = d.id)
    (hoperation : r.operation = d.operation) (operation : Uuid) :
    ({ db with deposits := db.deposits.set r } : Database).getDepositByOperation operation =
      if read = operation then some r else db.getDepositByOperation operation := by
  have hread : d.operation = read := by simpa using List.find?_some h
  by_cases heq : read = operation
  · subst heq
    rw [if_pos rfl]
    exact Table.find?_set_self h hid (by simp [hoperation, hread])
  · rw [if_neg heq]
    refine Table.find?_set_of_not ?_ fun x hx hkey => ?_
    · simp [hoperation, hread, heq]
    · obtain rfl : x = d := Table.eq_of_key hx (List.mem_of_find?_eq_some h) (hkey.trans hid)
      simp [hread, heq]

theorem depositState_set {d r : PixDeposit} {read : Uuid}
    (h : db.getDepositByOperation read = some d) (hid : r.id = d.id)
    (hoperation : r.operation = d.operation) (operation : Uuid) :
    ({ db with deposits := db.deposits.set r } : Database).depositState operation =
      if read = operation then some r.state else db.depositState operation := by
  rw [depositState, getDepositByOperation_set h hid hoperation]
  split <;> rfl

/-- A write of a warning leaves its operation. -/
theorem warnedOperation_set {d r : WarningPixDeposit} (h : d ∈ db.warningDeposits.rows)
    (hid : r.id = d.id) (hoperation : r.operation = d.operation) (warningPixDeposit : Uuid) :
    ({ db with warningDeposits := db.warningDeposits.set r } :
      Database).warnedOperation warningPixDeposit = db.warnedOperation warningPixDeposit := by
  have hd : db.warningDeposits.get? d.id = some d := Table.get?_of_mem h
  rw [warnedOperation, warnedOperation, Table.get?_set]
  split
  · rename_i hkey
    obtain rfl : d.id = warningPixDeposit := hid.symm.trans hkey
    rw [hd]
    exact congrArg some hoperation
  · rfl

/-- The devolutions and their operations. -/
def devolutionColumns (db : Database) : List (Uuid × Uuid) :=
  db.warningDevolutions.rows.map fun d => (d.id, d.operation)

theorem sentBack_eq : db.sentBack operation =
    (db.devolutionColumns.filter fun x => x.2 = operation).map (·.1) := by
  rw [sentBack, devolutionColumns, List.filter_map, List.map_map]
  rfl

/-- A write of a devolution leaves its operation. -/
theorem devolutionColumns_set {d r : WarningPixDevolution} {id : Uuid}
    (h : db.warningDevolutions.get? id = some d) (hid : r.id = d.id)
    (hoperation : r.operation = d.operation) :
    ({ db with warningDevolutions := db.warningDevolutions.set r } :
      Database).devolutionColumns = db.devolutionColumns := by
  refine Table.map_set fun x hx hkey => ?_
  obtain rfl : x = d := Table.eq_of_key hx (Table.mem_of_get? h) (hkey.trans hid)
  rw [hid, hoperation]

end Database

namespace Ledgered

variable {w w' : Ledgered} {operation : Uuid}
variable {r : WarningPixDevolution}
variable {id : Uuid} {d : WarningPixDevolution} {refusals : Refusals} {services : Services}

/-- What is known of the deposit of an operation. -/
def outlook (w : Ledgered) (operation : Uuid) : Outlook where
  deposit := w.db.depositState operation
  credited := w.operations.get? operation = some ⟨operation, .ACCEPTED⟩
  asked := { id | ∃ warningPixDeposit, .createWarningPixDevolution id warningPixDeposit ∈ w.events ∧
    w.db.warnedOperation warningPixDeposit = some operation }
  sentBack := w.db.sentBack operation

/-- Every event and every devolution of the identifier is of the operation. -/
structure Own (w : Ledgered) (operation id : Uuid) : Prop where
  asked : ∀ warningPixDeposit, .createWarningPixDevolution id warningPixDeposit ∈ w.events →
    w.db.warnedOperation warningPixDeposit = some operation
  created : ∀ x ∈ w.db.devolutionColumns, x.1 = id → x.2 = operation

/-- What the handlers of a devolution leave as it is. -/
structure Handled (w w' : Ledgered) : Prop where
  events : w'.events = w.events
  deposits : w'.db.depositState = w.db.depositState
  warnings : w'.db.warningDeposits = w.db.warningDeposits
  columns : w'.db.devolutionColumns = w.db.devolutionColumns
  credited : ∀ operation, w'.operations.get? operation = some ⟨operation, .ACCEPTED⟩ ↔
    w.operations.get? operation = some ⟨operation, .ACCEPTED⟩

theorem Handled.refl (w : Ledgered) : w.Handled w := ⟨rfl, rfl, rfl, rfl, fun _ => Iff.rfl⟩

theorem Handled.trans {w₁ : Ledgered} (h : w.Handled w₁) (h' : w₁.Handled w') : w.Handled w' where
  events := h'.events.trans h.events
  deposits := h'.deposits.trans h.deposits
  warnings := h'.warnings.trans h.warnings
  columns := h'.columns.trans h.columns
  credited operation := (h'.credited operation).trans (h.credited operation)

theorem Handled.outlook (h : w.Handled w') (operation : Uuid) :
    w'.outlook operation = w.outlook operation := by
  have hwarned : w'.db.warnedOperation = w.db.warnedOperation := by
    funext wid
    rw [Database.warnedOperation, h.warnings, Database.warnedOperation]
  rw [Ledgered.outlook, Ledgered.outlook, h.events, h.deposits, hwarned,
    Database.sentBack_eq, Database.sentBack_eq, h.columns, propext (h.credited operation)]

theorem Handled.own (h : w.Handled w') (hown : w.Own operation id) :
    w'.Own operation id where
  asked wid hwid := by
    rw [h.events] at hwid
    rw [Database.warnedOperation, h.warnings]
    exact hown.asked wid hwid
  created x hx hid := hown.created x (h.columns ▸ hx) hid

/-- A devolution is written. -/
theorem handled_devolution (h : w.db.warningDevolutions.get? id = some d) (hid : r.id = d.id)
    (hoperation : r.operation = d.operation) :
    w.Handled { w with
      db := { w.db with warningDevolutions := w.db.warningDevolutions.set r } } where
  events := rfl
  deposits := rfl
  warnings := rfl
  columns := Database.devolutionColumns_set h hid hoperation
  credited _ := Iff.rfl

/-- A deposit is written, in the state that it has. -/
theorem handled_deposit {d r : PixDeposit} {read : Uuid}
    (h : w.db.getDepositByOperation read = some d) (hid : r.id = d.id)
    (hoperation : r.operation = d.operation) (hstate : r.state = d.state) :
    w.Handled { w with db := { w.db with deposits := w.db.deposits.set r } } where
  events := rfl
  deposits := by
    funext operation
    rw [Database.depositState_set h hid hoperation]
    split
    · rename_i heq
      rw [← heq, hstate, Database.depositState, h]
      rfl
    · rfl
  warnings := rfl
  columns := rfl
  credited _ := Iff.rfl

/-- An operation is reverted. -/
theorem handled_revert {t : Unit}
    (h : revertOperation refusals id w = .ok t w') : w.Handled w' := by
  rcases revertOperation_ok h with ⟨hpending, rfl⟩ | ⟨-, rfl⟩
  · refine ⟨rfl, rfl, rfl, rfl, fun operation => ?_⟩
    rw [Table.get?_set]
    split
    · rename_i hkey
      obtain rfl : id = operation := hkey
      simp [hpending]
    · rfl
  · exact .refl _

/-! ### What each handler does -/

theorem handleCompleteWarningPixDevolution_handled {endToEndId : Option String}
    (hok : onDatabase (handleCompleteWarningPixDevolution id endToEndId) w = .ok r w') :
    w.Handled w' := by
  obtain ⟨db, h, rfl⟩ := onDatabase_ok.mp hok
  rw [handleCompleteWarningPixDevolution, get_bind_ok, orThrow_bind_ok] at h
  obtain ⟨d, hd, h⟩ := h
  cases hstate : d.state with
  | CONFIRMED =>
      rw [hstate] at h
      obtain ⟨-, rfl⟩ := pure_ok.mp h
      exact .refl w
  | WAITING =>
      rw [hstate] at h
      simp only [updateWarningDevolution, modify_bind_ok, pure_ok] at h
      obtain ⟨-, rfl⟩ := h
      exact handled_devolution hd rfl rfl
  | PENDING | ERROR | FAILED | CANCELED =>
      rw [hstate] at h
      exact absurd h throw_ok

theorem handleRevertWarningPixDevolution_handled {chargebackReason : Option String}
    {failed : Option Failed}
    (hok : onDatabase (handleRevertWarningPixDevolution chargebackReason failed id) w = .ok r w') :
    w.Handled w' := by
  obtain ⟨db, h, rfl⟩ := onDatabase_ok.mp hok
  rw [handleRevertWarningPixDevolution, get_bind_ok, orThrow_bind_ok] at h
  obtain ⟨d, hd, h⟩ := h
  cases hstate : d.state with
  | FAILED =>
      rw [hstate] at h
      obtain ⟨-, rfl⟩ := pure_ok.mp h
      exact .refl w
  | PENDING | WAITING | CONFIRMED =>
      rw [hstate] at h
      simp only [orThrow_bind_ok, updateDeposit, updateWarningDevolution, modify_bind_ok,
        pure_ok] at h
      obtain ⟨deposit, hdeposit, -, rfl⟩ := h
      have hwritten := handled_deposit (w := w)
        (r := { deposit with returnedAmount := deposit.returnedAmount - d.amount })
        hdeposit rfl rfl rfl
      exact hwritten.trans (handled_devolution hd rfl rfl)
  | ERROR | CANCELED =>
      rw [hstate] at h
      exact absurd h throw_ok

theorem notifyCompliance_ok {config : Config}
    {db db' : Database} {t : Unit} (h : notifyCompliance config services d db = .ok t db') :
    db' = db := by
  rw [notifyCompliance] at h
  cases hcode : d.devolutionCode with
  | ORIGINAL =>
      rw [hcode] at h
      simp only [call_bind_ok, orThrow_bind_ok, call_ok] at h
      obtain ⟨-, -, -, -, -, rfl⟩ := h
      rfl
  | FRAUD | PSP_ERROR | WITHDRAWAL_CHANGE =>
      rw [hcode] at h
      exact (pure_ok.mp h).2

theorem revertUnlessReverted_handled {operation : LedgerOperation}
    {t : Unit} (h : revertUnlessReverted refusals operation w = .ok t w') : w.Handled w' := by
  rw [revertUnlessReverted] at h
  cases hstate : operation.state with
  | REVERTED =>
      rw [hstate] at h
      obtain ⟨-, rfl⟩ := pure_ok.mp h
      exact .refl _
  | ACCEPTED | DECLINED | UNDONE | PENDING =>
      rw [hstate] at h
      exact handled_revert h

theorem sendWarningDevolution_handled {config : Config}
    (hd : w.db.warningDevolutions.get? id = some d)
    (h : sendWarningDevolution config services refusals d w = .ok r w') : w.Handled w' := by
  rw [sendWarningDevolution, getOperationById_bind_ok, orThrow_bind_ok] at h
  obtain ⟨-, operation, -, h⟩ := h
  rw [get_bind_ok, orThrow_bind_ok] at h
  obtain ⟨deposit, -, h⟩ := h
  obtain ⟨pspResult, db, hcall, h⟩ := onDatabase_bind_ok.mp h
  obtain ⟨-, rfl⟩ := call_ok.mp hcall
  obtain ⟨_, db, hsent, h⟩ := onDatabase_bind_ok.mp h
  obtain rfl := modify_ok.mp hsent
  obtain ⟨_, w₁, hrevert, h⟩ := bind_ok.mp h
  obtain ⟨_, db, hnotify, h⟩ := onDatabase_bind_ok.mp h
  obtain rfl := notifyCompliance_ok hnotify
  obtain ⟨-, rfl⟩ := pure_ok.mp h
  have hwritten := handled_devolution (r := d.sentAs pspResult) hd rfl rfl
  exact hwritten.trans (revertUnlessReverted_handled hrevert)

theorem handlePendingWarningPixDevolution_handled {config : Config}
    (h : handlePendingWarningPixDevolution config services refusals id w = .ok r w') :
    w.Handled w' := by
  rw [handlePendingWarningPixDevolution, get_bind_ok, orThrow_bind_ok] at h
  obtain ⟨d, hd, h⟩ := h
  cases hstate : d.state with
  | WAITING | CONFIRMED =>
      rw [hstate] at h
      obtain ⟨-, rfl⟩ := pure_ok.mp h
      exact .refl _
  | PENDING | FAILED =>
      rw [hstate] at h
      exact sendWarningDevolution_handled hd h
  | ERROR | CANCELED =>
      rw [hstate] at h
      exact absurd h throw_ok

/-- A deposit and its warning are written, and an operation's state. -/
def decide (w : Ledgered) (d : PixDeposit) (wd : WarningPixDeposit)
    (operations : Table LedgerOperation) (events : List Event) : Ledgered where
  db := { w.db with
    deposits := w.db.deposits.set d, warningDeposits := w.db.warningDeposits.set wd }
  operations
  events

section

variable {d : PixDeposit} {wd : WarningPixDeposit}
variable {read : Uuid}

theorem getDepositAndWarning_bind_ok {β : Type} {f : PixDeposit × WarningPixDeposit → LedgerApp β}
    {b : β} :
    (getDepositAndWarning operation >>= f) w = .ok b w' ↔
      ∃ d wd, w.db.getDepositByOperation operation = some d ∧
        w.db.getWarningDepositByOperation operation = some wd ∧ f (d, wd) w = .ok b w' := by
  rw [getDepositAndWarning, bind_assoc, get_bind_ok]
  simp only [bind_assoc, orThrow_bind_ok, pure_bind]
  constructor
  · rintro ⟨d, hd, wd, hwd, h⟩
    exact ⟨d, wd, hd, hwd, h⟩
  · rintro ⟨d, wd, hd, hwd, h⟩
    exact ⟨d, hd, wd, hwd, h⟩

/-- An approval that goes through. -/
theorem approvePixDeposit_ok {refusals : Refusals} {r : PixDeposit}
    (h : approvePixDeposit refusals operation w = .ok r w') :
    ∃ d wd, w.db.getDepositByOperation operation = some d ∧
      w.db.getWarningDepositByOperation operation = some wd ∧
      d.state ≠ .RECEIVED ∧ wd.state ≠ .REJECTED ∧
      w.operations.get? operation = some ⟨operation, .PENDING⟩ ∧
      w' = w.decide { d with state := .RECEIVED } { wd with state := .REJECTED }
        (w.operations.set ⟨operation, .ACCEPTED⟩) w.events := by
  rw [approvePixDeposit, getOperationById_bind_ok, orThrow_bind_ok] at h
  obtain ⟨-, found, hfound, h⟩ := h
  have hid : found.id = operation := Table.key_of_get? hfound
  rw [hid] at h
  obtain ⟨d, wd, hd, hwd, h⟩ := getDepositAndWarning_bind_ok.mp h
  rw [throwIf_bind_ok, throwIf_bind_ok, bind_ok] at h
  obtain ⟨hreceived, hrejected, _, w₁, haccept, h⟩ := h
  obtain ⟨-, hpending, rfl⟩ := acceptOperation_ok.mp haccept
  obtain ⟨_, db, hdeposit, h⟩ := onDatabase_bind_ok.mp h
  obtain rfl := modify_ok.mp hdeposit
  obtain ⟨_, db, hwarning, h⟩ := onDatabase_bind_ok.mp h
  obtain rfl := modify_ok.mp hwarning
  obtain ⟨-, rfl⟩ := pure_ok.mp h
  exact ⟨d, wd, hd, hwd, hreceived, hrejected, hpending, rfl⟩

/-- A block that goes through. -/
theorem blockPixDeposit_ok {refusals : Refusals} {r : PixDeposit}
    (h : blockPixDeposit refusals operation w = .ok r w') :
    ∃ d wd, w.db.getDepositByOperation operation = some d ∧
      w.db.getWarningDepositByOperation operation = some wd ∧
      d.state ≠ .BLOCKED ∧ wd.state ≠ .APPROVED ∧
      w' = w.decide { d with state := .BLOCKED } { wd with state := .APPROVED } w.operations
        (w.events ++ [.createWarningPixDevolution w.newWarningDevolution wd.id]) := by
  rw [blockPixDeposit, getOperationById_bind_ok, orThrow_bind_ok] at h
  obtain ⟨-, found, hfound, h⟩ := h
  have hid : found.id = operation := Table.key_of_get? hfound
  rw [hid] at h
  obtain ⟨d, wd, hd, hwd, h⟩ := getDepositAndWarning_bind_ok.mp h
  rw [throwIf_bind_ok, throwIf_bind_ok] at h
  obtain ⟨hblocked, happroved, h⟩ := h
  obtain ⟨_, db, hdeposit, h⟩ := onDatabase_bind_ok.mp h
  obtain rfl := modify_ok.mp hdeposit
  obtain ⟨_, db, hwarning, h⟩ := onDatabase_bind_ok.mp h
  obtain rfl := modify_ok.mp hwarning
  rw [get_bind_ok, emit, modify_bind_ok] at h
  obtain ⟨-, rfl⟩ := pure_ok.mp h
  exact ⟨d, wd, hd, hwd, hblocked, happroved, rfl⟩

/-- A request of the user that goes through. -/
theorem createWarningPixDevolution_ok {user id : Uuid}
    (h : createWarningPixDevolution user operation w = .ok id w') :
    ∃ d wd, w.db.getDepositByOperation operation = some d ∧
      w.db.getWarningDepositByOperation operation = some wd ∧
      d.state ∈ [PixDepositState.NEW, .WAITING] ∧ wd.state = .CREATED ∧
      w' = w.decide { d with state := .BLOCKED } wd w.operations
        (w.events ++ [.createWarningPixDevolution w.newWarningDevolution wd.id]) := by
  rw [createWarningPixDevolution, get_bind_ok, orThrow_bind_ok] at h
  obtain ⟨d, hd, h⟩ := h
  rw [throwIf_bind_ok, throwIf_bind_ok, orThrow_bind_ok] at h
  obtain ⟨-, hstate, wd, hwd, h⟩ := h
  rw [throwIf_bind_ok, throwIf_bind_ok] at h
  obtain ⟨hcreated, -, h⟩ := h
  obtain ⟨_, db, hdeposit, h⟩ := onDatabase_bind_ok.mp h
  obtain rfl := modify_ok.mp hdeposit
  rw [get_bind_ok, emit, modify_bind_ok] at h
  obtain ⟨-, rfl⟩ := pure_ok.mp h
  refine ⟨d, wd, hd, hwd, not_not.mp hstate, not_not.mp hcreated, ?_⟩
  have hsame : w.db.warningDeposits.set wd = w.db.warningDeposits :=
    Table.set_eq_self (Table.get?_of_mem (List.mem_of_find?_eq_some hwd))
  rw [decide, hsame]
  rfl

/-- A decision leaves the operation of every warning. -/
theorem warnedOperation_decide {operations : Table LedgerOperation} {events : List Event}
    {r : PixDeposit} {u : WarningPixDeposit}
    (hwd : w.db.getWarningDepositByOperation read = some wd) (hwid : u.id = wd.id)
    (hwoperation : u.operation = wd.operation) (wid : Uuid) :
    (w.decide r u operations events).db.warnedOperation wid = w.db.warnedOperation wid :=
  Database.warnedOperation_set (List.mem_of_find?_eq_some hwd) hwid hwoperation wid

/-- What is known after a decision. -/
theorem outlook_decide {operations : Table LedgerOperation} {events : List Event}
    {r : PixDeposit} {u : WarningPixDeposit} (hd : w.db.getDepositByOperation read = some d)
    (hwd : w.db.getWarningDepositByOperation read = some wd) (hid : r.id = d.id)
    (hoperation : r.operation = d.operation) (hwid : u.id = wd.id)
    (hwoperation : u.operation = wd.operation) (operation : Uuid) :
    (w.decide r u operations events).outlook operation =
      { deposit := if read = operation then some r.state else (w.outlook operation).deposit
        credited := operations.get? operation = some ⟨operation, .ACCEPTED⟩
        asked := { id | ∃ warningPixDeposit,
          .createWarningPixDevolution id warningPixDeposit ∈ events ∧
            w.db.warnedOperation warningPixDeposit = some operation }
        sentBack := w.db.sentBack operation } := by
  have hdeposit : (w.decide r u operations events).db.depositState operation =
      if read = operation then some r.state else w.db.depositState operation :=
    Database.depositState_set hd hid hoperation operation
  have hwarned : (w.decide r u operations events).db.warnedOperation = w.db.warnedOperation :=
    funext (warnedOperation_decide hwd hwid hwoperation)
  rw [outlook, hdeposit, hwarned]
  rfl

/-- What is asked after one more request. -/
theorem asked_append {id wid : Uuid} (h : w.db.warnedOperation wid = some read) (operation : Uuid) :
    { i | ∃ warningPixDeposit, Event.createWarningPixDevolution i warningPixDeposit ∈
        w.events ++ [.createWarningPixDevolution id wid] ∧
          w.db.warnedOperation warningPixDeposit = some operation } =
      if read = operation then insert id (w.outlook operation).asked
      else (w.outlook operation).asked := by
  ext i
  simp only [List.mem_append, List.mem_singleton, Event.createWarningPixDevolution.injEq,
    Set.mem_ofPred_eq]
  by_cases heq : read = operation
  · subst heq
    rw [if_pos rfl, Set.mem_insert_iff]
    constructor
    · rintro ⟨x, hx | ⟨rfl, -⟩, hw⟩
      · exact .inr ⟨x, hx, hw⟩
      · exact .inl rfl
    · rintro (rfl | ⟨x, hx, hw⟩)
      · exact ⟨wid, .inr ⟨rfl, rfl⟩, h⟩
      · exact ⟨x, .inl hx, hw⟩
  · rw [if_neg heq]
    constructor
    · rintro ⟨x, hx | ⟨-, rfl⟩, hw⟩
      · exact ⟨x, hx, hw⟩
      · exact absurd (Option.some.inj (h.symm.trans hw)) heq
    · rintro ⟨x, hx, hw⟩
      exact ⟨x, .inl hx, hw⟩

/-- A warning that was found by its operation. -/
theorem warnedOperation_of_getByOperation (h : w.db.getWarningDepositByOperation read = some wd) :
    w.db.warnedOperation wd.id = some read := by
  have hread : wd.operation = read := by simpa using List.find?_some h
  have hrow : w.db.warningDeposits.get? wd.id = some wd :=
    Table.get?_of_mem (List.mem_of_find?_eq_some h)
  rw [Database.warnedOperation, hrow, ← hread]
  rfl

end

variable {id wid : Uuid}

/-- What is known before and after an approval that goes through. -/
theorem approve_outlook {refusals : Refusals} {r : PixDeposit} {read : Uuid}
    (h : approvePixDeposit refusals read w = .ok r w') :
    (w.outlook read).deposit ≠ some .RECEIVED ∧ ¬ (w.outlook read).credited ∧
      ∀ operation, w'.outlook operation = if read = operation then
        { w.outlook operation with
          deposit := some .RECEIVED, credited := True }
        else w.outlook operation := by
  obtain ⟨d, wd, hd, hwd, hstate, -, hpending, rfl⟩ := approvePixDeposit_ok h
  refine ⟨?_, ?_, fun operation => ?_⟩
  · change (w.db.getDepositByOperation read).map _ ≠ _
    rw [hd]
    exact fun e => hstate (Option.some.inj e)
  · change w.operations.get? read ≠ _
    rw [hpending]
    simp
  · rw [outlook_decide (r := { d with state := .RECEIVED })
      (u := { wd with state := .REJECTED }) hd hwd rfl rfl rfl rfl]
    by_cases heq : read = operation
    · subst heq
      have hset : (w.operations.set ⟨read, .ACCEPTED⟩).get? read = some ⟨read, .ACCEPTED⟩ :=
        Table.get?_set_self hpending rfl
      rw [if_pos rfl, if_pos rfl, hset, eq_self]
      rfl
    · have hset : (w.operations.set ⟨read, .ACCEPTED⟩).get? operation =
          w.operations.get? operation := Table.get?_set_ne heq
      rw [if_neg heq, if_neg heq, hset]
      rfl

/-- What is known before and after a block that goes through. -/
theorem block_outlook {refusals : Refusals} {r : PixDeposit} {read : Uuid}
    (h : blockPixDeposit refusals read w = .ok r w') :
    (w.outlook read).deposit ≠ some .BLOCKED ∧
      ∀ operation, w'.outlook operation = if read = operation then
        { w.outlook operation with
          deposit := some .BLOCKED
          asked := insert w.newWarningDevolution (w.outlook operation).asked }
        else w.outlook operation := by
  obtain ⟨d, wd, hd, hwd, hstate, -, rfl⟩ := blockPixDeposit_ok h
  refine ⟨?_, fun operation => ?_⟩
  · change (w.db.getDepositByOperation read).map _ ≠ _
    rw [hd]
    exact fun e => hstate (Option.some.inj e)
  · rw [outlook_decide (r := { d with state := .BLOCKED })
        (u := { wd with state := .APPROVED }) hd hwd rfl rfl rfl rfl,
      asked_append (warnedOperation_of_getByOperation hwd)]
    by_cases heq : read = operation
    · simp only [if_pos heq]
      rfl
    · simp only [if_neg heq]
      rfl

/-- What is known before and after a request of the user that goes through. -/
theorem createWarning_outlook {user read : Uuid}
    (h : createWarningPixDevolution user read w = .ok id w') :
    ((w.outlook read).deposit = some .NEW ∨ (w.outlook read).deposit = some .WAITING) ∧
      ∀ operation, w'.outlook operation = if read = operation then
        { w.outlook operation with
          deposit := some .BLOCKED
          asked := insert w.newWarningDevolution (w.outlook operation).asked }
        else w.outlook operation := by
  obtain ⟨d, wd, hd, hwd, hstate, -, rfl⟩ := createWarningPixDevolution_ok h
  refine ⟨?_, fun operation => ?_⟩
  · change (w.db.getDepositByOperation read).map _ = _ ∨ (w.db.getDepositByOperation read).map _ = _
    rw [hd]
    simpa using hstate
  · rw [outlook_decide (r := { d with state := .BLOCKED }) (u := wd) hd hwd rfl rfl rfl rfl,
      asked_append (warnedOperation_of_getByOperation hwd)]
    by_cases heq : read = operation
    · simp only [if_pos heq]
      rfl
    · simp only [if_neg heq]
      rfl

/-! ### The event of a devolution -/

/-- A devolution of the operation is created. -/
structure Created (w w' : Ledgered) (id operation : Uuid) : Prop where
  fresh : ∀ x ∈ w.db.devolutionColumns, x.1 ≠ id
  events : w'.events = w.events
  operations : w'.operations = w.operations
  deposits : w'.db.depositState = w.db.depositState
  warnings : w'.db.warningDeposits = w.db.warningDeposits
  columns : w'.db.devolutionColumns = w.db.devolutionColumns ++ [(id, operation)]

/-- The row of a new devolution. -/
def newWarningDevolutionRow (id : Uuid) (wd : WarningPixDeposit) (d : PixDeposit) :
    WarningPixDevolution where
  id
  user := d.user
  operation := d.operation
  endToEndId := some d.endToEndId
  externalId := none
  amount := d.amount
  description := d.description
  devolutionCode := if wd.state = .CREATED then .ORIGINAL else .FRAUD
  state := .PENDING
  chargebackReason := none
  failed := none

/-- A devolution that was not created. -/
theorem handleCreateWarningPixDevolution_ok {db db' : Database}
    {r : WarningPixDevolution} (hnone : db.warningDevolutions.get? id = none) :
    handleCreateWarningPixDevolution id wid db = .ok r db' ↔
      ∃ wd, db.warningDeposits.get? wid = some wd ∧
        ∃ d, db.getDepositByOperation wd.operation = some d ∧
          ∃ t, db.warningDevolutions.insert? (newWarningDevolutionRow id wd d) = some t ∧
            r = newWarningDevolutionRow id wd d ∧
            db' = { db with
              deposits := db.deposits.set { d with returnedAmount := d.amount }
              warningDevolutions := t } := by
  rw [handleCreateWarningPixDevolution, get_bind_ok, hnone]
  simp only [orThrow_bind_ok, updateDeposit, modify_bind_ok, createWarningDevolution,
    get_bind_ok, pure_ok]
  rfl

theorem created_of {wd : WarningPixDeposit} {d : PixDeposit}
    {t : Table WarningPixDevolution} (hnone : w.db.warningDevolutions.get? id = none)
    (hwd : w.db.warningDeposits.get? wid = some wd)
    (hd : w.db.getDepositByOperation wd.operation = some d)
    (ht : w.db.warningDevolutions.insert? (newWarningDevolutionRow id wd d) = some t) :
    w.db.warnedOperation wid = some wd.operation ∧
      w.Created { w with
        db := { w.db with
          deposits := w.db.deposits.set { d with returnedAmount := d.amount }
          warningDevolutions := t } } id wd.operation := by
  have hread : d.operation = wd.operation := by simpa using List.find?_some hd
  have hwritten := handled_deposit (w := w)
    (r := { d with returnedAmount := d.amount }) hd rfl rfl rfl
  refine ⟨?_, fun x hx hid => ?_, rfl, rfl, hwritten.deposits, rfl, ?_⟩
  · rw [Database.warnedOperation, hwd]
    rfl
  · obtain ⟨d', hd', rfl⟩ := List.mem_map.mp hx
    exact Table.get?_eq_none.mp hnone d' hd' hid
  · rw [Database.devolutionColumns, (Table.insert?_eq_some ht).2, List.map_append, ← hread]
    rfl

/-- The event of a devolution does nothing when it was created. -/
theorem deliver_cases {r : WarningPixDevolution}
    (hok : onDatabase (handleCreateWarningPixDevolution id wid) w = .ok r w') :
    w' = w ∨ ∃ operation, w.db.warnedOperation wid = some operation ∧
      w.Created w' id operation := by
  obtain ⟨db, h, rfl⟩ := onDatabase_ok.mp hok
  cases hfound : w.db.warningDevolutions.get? id with
  | some d =>
      rw [handleCreateWarningPixDevolution, get_bind_ok, hfound] at h
      obtain ⟨-, rfl⟩ := pure_ok.mp h
      exact .inl rfl
  | none =>
      obtain ⟨wd, hwd, d, hd, t, ht, -, rfl⟩ := (handleCreateWarningPixDevolution_ok hfound).mp h
      exact .inr ⟨wd.operation, created_of hfound hwd hd ht⟩

theorem Created.outlook {created : Uuid} (h : w.Created w' id created) (operation : Uuid) :
    w'.outlook operation = if created = operation then
      { w.outlook operation with sentBack := (w.outlook operation).sentBack ++ [id] }
      else w.outlook operation := by
  have hwarned : w'.db.warnedOperation = w.db.warnedOperation := by
    funext wid
    rw [Database.warnedOperation, h.warnings, Database.warnedOperation]
  have hsent : w'.db.sentBack operation =
      w.db.sentBack operation ++ if created = operation then [id] else [] := by
    rw [Database.sentBack_eq, h.columns, List.filter_append, List.map_append, Database.sentBack_eq]
    by_cases heq : created = operation <;> simp [heq]
  rw [Ledgered.outlook, h.events, h.operations, h.deposits, hwarned, hsent]
  by_cases heq : created = operation
  · rw [if_pos heq, if_pos heq]
    rfl
  · rw [if_neg heq, if_neg heq, List.append_nil]
    rfl

theorem Created.own {created i : Uuid} (h : w.Created w' id created)
    (hevent : .createWarningPixDevolution id wid ∈ w.events)
    (hwarned : w.db.warnedOperation wid = some created) (hown : w.Own operation i) :
    w'.Own operation i where
  asked x hx := by
    rw [h.events] at hx
    rw [Database.warnedOperation, h.warnings]
    exact hown.asked x hx
  created x hx hid := by
    rw [h.columns] at hx
    rcases List.mem_append.mp hx with hx | hx
    · exact hown.created x hx hid
    · obtain rfl := List.mem_singleton.mp hx
      obtain rfl : id = i := hid
      exact Option.some.inj (hwarned.symm.trans (hown.asked wid hevent))

/-- The event of a devolution that was not created creates it. -/
theorem deliver_created (hevent : .createWarningPixDevolution id wid ∈ w.events)
    (hwarned : w.db.warnedOperation wid = some operation)
    (hdeposit : w.db.depositState operation ≠ none)
    (hfresh : ∀ x ∈ w.db.devolutionColumns, x.1 ≠ id) :
    w.Created (w.warningStep (.deliver id wid)) id operation := by
  have hnone : w.db.warningDevolutions.get? id = none :=
    Table.get?_eq_none.mpr fun d hd hid => hfresh _ (List.mem_map_of_mem hd) hid
  obtain ⟨wd, hwd, hoperation⟩ := Option.map_eq_some_iff.mp hwarned
  obtain rfl : wd.operation = operation := hoperation
  obtain ⟨d, hd⟩ := Option.ne_none_iff_exists'.mp (Option.map_eq_none_iff.not.mp hdeposit)
  obtain ⟨t, ht⟩ := Table.insert?_of_fresh (r := newWarningDevolutionRow id wd d) hnone
  have hok := onDatabase_ok.mpr
    ⟨_, (handleCreateWarningPixDevolution_ok hnone).mpr ⟨wd, hwd, d, hd, t, ht, rfl, rfl⟩, rfl⟩
  rw [warningStep, if_pos hevent, executed_ok hok]
  exact (created_of hnone hwd hd ht).2

/-! ### Whose a devolution is -/

section

variable {d : PixDeposit} {wd : WarningPixDeposit}
variable {operations : Table LedgerOperation}
variable {u : WarningPixDeposit}

theorem own_decide {events : List Event} {read id : Uuid}
    {r : PixDeposit} (hwd : w.db.getWarningDepositByOperation read = some wd)
    (hwid : u.id = wd.id) (hwoperation : u.operation = wd.operation)
    (hasked : ∀ wid, .createWarningPixDevolution id wid ∈ events →
      w.db.warnedOperation wid = some operation)
    (hcreated : ∀ x ∈ w.db.devolutionColumns, x.1 = id → x.2 = operation) :
    (w.decide r u operations events).Own operation id where
  asked wid hevent := by
    rw [warnedOperation_decide hwd hwid hwoperation]
    exact hasked wid hevent
  created := hcreated

/-- A new identifier is none that was asked for or created. -/
theorem newWarningDevolution_fresh :
    (∀ wid, .createWarningPixDevolution w.newWarningDevolution wid ∉ w.events) ∧
      ∀ x ∈ w.db.devolutionColumns, x.1 ≠ w.newWarningDevolution := by
  constructor
  · intro wid hevent
    refine absurd (lt_fresh (List.mem_append_right _ ?_)) (lt_irrefl w.newWarningDevolution)
    exact List.mem_filterMap.mpr ⟨_, hevent, rfl⟩
  · intro x hx hid
    obtain ⟨d, hd, rfl⟩ := List.mem_map.mp hx
    refine absurd (lt_fresh (List.mem_append_left _ ?_)) (lt_irrefl w.newWarningDevolution)
    exact List.mem_map.mpr ⟨d, hd, hid⟩

/-- One more request leaves whose the other devolutions are. -/
theorem own_request {read id : Uuid} {r : PixDeposit}
    (hwd : w.db.getWarningDepositByOperation read = some wd)
    (hwid : u.id = wd.id) (hwoperation : u.operation = wd.operation)
    (hasked : id ∈ (w.outlook operation).asked) (hown : w.Own operation id) :
    (w.decide r u operations
      (w.events ++ [.createWarningPixDevolution w.newWarningDevolution wd.id])).Own operation
      id := by
  obtain ⟨x, hx, -⟩ := hasked
  refine own_decide hwd hwid hwoperation (fun wid hevent => ?_) hown.created
  rcases List.mem_append.mp hevent with hevent | hevent
  · exact hown.asked wid hevent
  · obtain ⟨rfl, -⟩ := Event.createWarningPixDevolution.inj (List.mem_singleton.mp hevent)
    exact absurd hx (newWarningDevolution_fresh.1 x)

/-- The devolution that is asked for is of the operation of the warning. -/
theorem own_new {read : Uuid} {r : PixDeposit}
    (hwd : w.db.getWarningDepositByOperation read = some wd)
    (hwid : u.id = wd.id) (hwoperation : u.operation = wd.operation) :
    (w.decide r u operations
      (w.events ++ [.createWarningPixDevolution w.newWarningDevolution wd.id])).Own read
      w.newWarningDevolution := by
  refine own_decide hwd hwid hwoperation (fun wid hevent => ?_) fun x hx hid =>
    absurd hid (newWarningDevolution_fresh.2 x hx)
  rcases List.mem_append.mp hevent with hevent | hevent
  · exact absurd hevent (newWarningDevolution_fresh.1 wid)
  · obtain ⟨-, rfl⟩ := Event.createWarningPixDevolution.inj (List.mem_singleton.mp hevent)
    exact warnedOperation_of_getByOperation hwd

end

/-- Whose the devolutions of an operation are. -/
def Owned (w : Ledgered) (operation : Uuid) : Prop :=
  ∀ id ∈ (w.outlook operation).asked, w.Own operation id

/-- One more request, of this operation or another. -/
theorem Owned.request {wd : WarningPixDeposit} {operations : Table LedgerOperation} {read : Uuid}
    {r : PixDeposit} {u : WarningPixDeposit} (h : w.Owned operation)
    (hwd : w.db.getWarningDepositByOperation read = some wd)
    (hwid : u.id = wd.id) (hwoperation : u.operation = wd.operation) :
    (w.decide r u operations
      (w.events ++ [.createWarningPixDevolution w.newWarningDevolution wd.id])).Owned
      operation := by
  rintro id ⟨wid, hevent, hwarned⟩
  rw [warnedOperation_decide hwd hwid hwoperation] at hwarned
  rcases List.mem_append.mp hevent with hevent | hevent
  · exact own_request hwd hwid hwoperation ⟨wid, hevent, hwarned⟩ (h id ⟨wid, hevent, hwarned⟩)
  · obtain ⟨rfl, rfl⟩ := Event.createWarningPixDevolution.inj (List.mem_singleton.mp hevent)
    obtain rfl := Option.some.inj ((warnedOperation_of_getByOperation hwd).symm.trans hwarned)
    exact own_new hwd hwid hwoperation

/-- An approval asks for nothing. -/
theorem Owned.approve {refusals : Refusals} {read : Uuid} {r : PixDeposit}
    (h : w.Owned operation) (hok : approvePixDeposit refusals read w = .ok r w') :
    w'.Owned operation := by
  obtain ⟨d, wd, -, hwd, -, -, -, rfl⟩ := approvePixDeposit_ok hok
  rintro id ⟨wid, hevent, hwarned⟩
  rw [warnedOperation_decide (u := { wd with state := .REJECTED }) hwd rfl rfl] at hwarned
  have hown := h id ⟨wid, hevent, hwarned⟩
  exact own_decide hwd rfl rfl hown.asked hown.created

end Ledgered

variable {o : Outlook}

/-! ### The fate of a deposit -/

/-- The deposit waits for a decision. -/
def Outlook.Waiting (o : Outlook) : Prop := o.deposit = some .NEW ∨ o.deposit = some .WAITING

/-- Nothing was decided. -/
structure Outlook.Held (o : Outlook) : Prop where
  waiting : o.Waiting
  credited : ¬ o.credited
  asked : o.asked = ∅
  sentBack : o.sentBack = []

/-- What may have become of a held deposit. -/
inductive Outlook.Fate (o : Outlook) : Prop
  | held (h : o.Held)
  | approved (hdeposit : o.deposit = some .RECEIVED) (hcredited : o.credited)
      (hasked : o.asked = ∅) (hsent : o.sentBack = [])
  | returned (id : Uuid) (hdeposit : o.deposit = some .BLOCKED) (hcredited : ¬ o.credited)
      (hasked : o.asked = {id}) (hsent : o.sentBack = [] ∨ o.sentBack = [id])

theorem Outlook.Fate.oneOutcome (h : o.Fate) : o.OneOutcome := by
  cases h with
  | held h => exact ⟨fun hboth => h.credited hboth.1, by rw [h.sentBack]; exact zero_le_one⟩
  | approved _ _ _ hsent => exact ⟨fun hboth => hboth.2 hsent, by rw [hsent]; exact zero_le_one⟩
  | returned id _ hcredited _ hsent =>
      refine ⟨fun hboth => hcredited hboth.1, ?_⟩
      rcases hsent with hsent | hsent <;> rw [hsent]
      · exact zero_le_one
      · exact le_refl 1

/-- A warning devolution is asked for, of a deposit that waits. -/
theorem Outlook.Fate.request (h : o.Fate) (hwaiting : o.Waiting) (id : Uuid) :
    ({ o with deposit := some .BLOCKED, asked := insert id o.asked } : Outlook).Fate := by
  cases h with
  | held h =>
      exact .returned id rfl h.credited (by rw [h.asked]; exact insert_empty_eq id)
        (.inl h.sentBack)
  | approved hdeposit | returned _ hdeposit =>
      rw [Outlook.Waiting, hdeposit] at hwaiting
      simp at hwaiting

/-- The deposit is credited, when it waits. -/
theorem Outlook.Fate.approve (h : o.Fate) (hwaiting : o.Waiting) :
    ({ o with deposit := some .RECEIVED, credited := True } : Outlook).Fate := by
  cases h with
  | held h => exact .approved rfl trivial h.asked h.sentBack
  | approved hdeposit | returned _ hdeposit =>
      rw [Outlook.Waiting, hdeposit] at hwaiting
      simp at hwaiting

/-- A devolution is created that was asked for, and was not created. -/
theorem Outlook.Fate.create (h : o.Fate) {id : Uuid} (hasked : id ∈ o.asked)
    (hfresh : id ∉ o.sentBack) :
    ({ o with sentBack := o.sentBack ++ [id] } : Outlook).Fate := by
  cases h with
  | held h =>
      rw [h.asked] at hasked
      exact hasked.elim
  | approved _ _ hnone =>
      rw [hnone] at hasked
      exact hasked.elim
  | returned i hdeposit hcredited hone hsent =>
      rw [hone] at hasked
      obtain rfl : id = i := hasked
      rcases hsent with hsent | hsent
      · exact .returned id hdeposit hcredited hone (.inr (by rw [hsent]; rfl))
      · rw [hsent] at hfresh
        exact absurd (List.mem_singleton_self id) hfresh

/-- An approval or a block of the deposit, when it goes through, finds it waiting. -/
def Ledgered.FindsWaiting (operation : Uuid) (w : Ledgered) : WarningCommand → Prop
  | .approve refusals read => read = operation →
      (returned (Ledgered.approvePixDeposit refusals read) w).isSome →
        (w.outlook operation).Waiting
  | .block refusals read => read = operation →
      (returned (Ledgered.blockPixDeposit refusals read) w).isSome →
        (w.outlook operation).Waiting
  | _ => True

namespace Ledgered

variable {w w' : Ledgered} {operation : Uuid}
variable {read : Uuid}

/-- What holds of a deposit along a run. -/
structure Sound (w : Ledgered) (operation : Uuid) : Prop where
  fate : (w.outlook operation).Fate
  owned : w.Owned operation

section

variable (h : w.Sound operation)
include h

theorem Sound.handled (hw : w.Handled w') : w'.Sound operation where
  fate := by
    rw [hw.outlook]
    exact h.fate
  owned id hid := by
    rw [hw.outlook] at hid
    exact hw.own (h.owned id hid)

/-- A request that goes through, of this operation or another. -/
theorem Sound.request {wd : WarningPixDeposit} {operations : Table LedgerOperation}
    {r : PixDeposit} {u : WarningPixDeposit}
    (hwd : w.db.getWarningDepositByOperation read = some wd)
    (hwid : u.id = wd.id) (hwoperation : u.operation = wd.operation)
    (hwaiting : read = operation → (w.outlook operation).Waiting)
    (houtlook : (w.decide r u operations (w.events ++
        [.createWarningPixDevolution w.newWarningDevolution wd.id])).outlook operation =
      if read = operation then
        { w.outlook operation with
          deposit := some .BLOCKED
          asked := insert w.newWarningDevolution (w.outlook operation).asked }
      else w.outlook operation) :
    (w.decide r u operations (w.events ++
      [.createWarningPixDevolution w.newWarningDevolution wd.id])).Sound operation where
  fate := by
    rw [houtlook]
    split
    · exact h.fate.request (hwaiting ‹_›) _
    · exact h.fate
  owned := h.owned.request hwd hwid hwoperation

theorem Sound.approve {refusals : Refusals} {r : PixDeposit}
    (hok : approvePixDeposit refusals read w = .ok r w')
    (hwaiting : read = operation → (w.outlook operation).Waiting) : w'.Sound operation where
  fate := by
    rw [(approve_outlook hok).2.2]
    split
    · exact h.fate.approve (hwaiting ‹_›)
    · exact h.fate
  owned := h.owned.approve hok

theorem Sound.block {refusals : Refusals} {r : PixDeposit}
    (hok : blockPixDeposit refusals read w = .ok r w')
    (hwaiting : read = operation → (w.outlook operation).Waiting) : w'.Sound operation := by
  have houtlook := (block_outlook hok).2 operation
  obtain ⟨d, wd, -, hwd, -, -, rfl⟩ := blockPixDeposit_ok hok
  exact h.request hwd rfl rfl hwaiting houtlook

theorem Sound.createWarning {user id : Uuid}
    (hok : createWarningPixDevolution user read w = .ok id w') : w'.Sound operation := by
  obtain ⟨hwaiting, houtlook⟩ := createWarning_outlook hok
  have hout := houtlook operation
  obtain ⟨d, wd, -, hwd, -, -, rfl⟩ := createWarningPixDevolution_ok hok
  exact h.request hwd rfl rfl (fun heq => heq ▸ hwaiting) hout

theorem Sound.deliver (id wid : Uuid) : (w.warningStep (.deliver id wid)).Sound operation := by
  rw [warningStep]
  split
  · rename_i hevent
    rcases executed_cases (keeps_onDatabase (handleCreateWarningPixDevolution id wid)).throwing w
      with hsame | ⟨r, hok⟩
    · rw [hsame]
      exact h
    rcases deliver_cases hok with hsame | ⟨created, hwarned, hcreated⟩
    · rw [hsame]
      exact h
    constructor
    · rw [hcreated.outlook]
      split
      · rename_i heq
        subst heq
        refine h.fate.create ⟨wid, hevent, hwarned⟩ fun hsent => ?_
        obtain ⟨d, hd, rfl⟩ := List.mem_map.mp hsent
        exact hcreated.fresh _ (List.mem_map_of_mem (List.mem_of_mem_filter hd)) rfl
      · exact h.fate
    · intro i hi
      have hasked : ((executed (onDatabase (handleCreateWarningPixDevolution id wid)) w).outlook
          operation).asked = (w.outlook operation).asked := by
        rw [hcreated.outlook]
        split <;> rfl
      exact hcreated.own hevent hwarned (h.owned i (hasked ▸ hi))
  · exact h

end

/-! ### What a rollback leaves -/

section

variable {refusals : Refusals} {config : Config} {services : Services} {user id : Uuid}

theorem keeps_getDepositAndWarning {γ : Type*} {p : Ledgered → γ} :
    Keeps p (getDepositAndWarning operation) :=
  keeps_get.bind fun _ => keeps_orThrow.bind fun _ => keeps_orThrow.bind fun _ => keeps_pure _

theorem keepsThrowing_approvePixDeposit :
    KeepsThrowing Ledgered.operations (approvePixDeposit refusals operation) := by
  refine .bind keeps_getOperationById fun _ => .bind keeps_orThrow fun _ =>
    .bind keeps_getDepositAndWarning fun _ => .bind keeps_throwIf fun _ =>
      .bind keeps_throwIf fun _ => .returning keepsThrowing_acceptOperation fun _ => ?_
  exact (throws_onDatabase (throws_modify _)).bind fun _ =>
    (throws_onDatabase (throws_modify _)).bind fun _ => throws_pure _

theorem keeps_blockPixDeposit : Keeps Ledgered.operations (blockPixDeposit refusals operation) :=
  keeps_getOperationById.bind fun _ => keeps_orThrow.bind fun _ =>
    keeps_getDepositAndWarning.bind fun _ => keeps_throwIf.bind fun _ =>
      keeps_throwIf.bind fun _ => (keeps_onDatabase _).bind fun _ =>
        (keeps_onDatabase _).bind fun _ => keeps_get.bind fun _ =>
          (keeps_emit _).bind fun _ => keeps_pure _

theorem keeps_createWarningPixDevolution :
    Keeps Ledgered.operations (createWarningPixDevolution user operation) :=
  keeps_get.bind fun _ => keeps_orThrow.bind fun _ => keeps_throwIf.bind fun _ =>
    keeps_throwIf.bind fun _ => keeps_orThrow.bind fun _ => keeps_throwIf.bind fun _ =>
      keeps_throwIf.bind fun _ => (keeps_onDatabase _).bind fun _ => keeps_get.bind fun _ =>
        (keeps_emit _).bind fun _ => keeps_pure _

/-- The operation of a devolution is reverted, which accepts none. -/
theorem keeps_revertUnlessReverted {found : LedgerOperation} :
    Keeps (fun w => operationsIn .ACCEPTED w.operations) (revertUnlessReverted refusals found) := by
  rw [revertUnlessReverted]
  split
  · exact keeps_pure ()
  · exact keeps_revertOperation (by rintro ⟨⟩) (by rintro ⟨⟩)

theorem keeps_handlePendingWarningPixDevolution :
    Keeps (fun w => operationsIn .ACCEPTED w.operations)
      (handlePendingWarningPixDevolution config services refusals id) := by
  have sends (d : WarningPixDevolution) : Keeps (fun w => operationsIn .ACCEPTED w.operations)
      (sendWarningDevolution config services refusals d) :=
    keeps_getOperationById.bind fun _ => keeps_orThrow.bind fun _ => keeps_get.bind fun _ =>
      keeps_orThrow.bind fun _ => (keepsIn_onDatabase _).bind fun _ =>
        (keepsIn_onDatabase _).bind fun _ => keeps_revertUnlessReverted.bind fun _ =>
          (keepsIn_onDatabase _).bind fun _ => keeps_pure _
  refine keeps_get.bind fun w => keeps_orThrow.bind fun d => ?_
  cases d.state with
  | WAITING | CONFIRMED => exact keeps_pure d
  | PENDING | FAILED => exact sends d
  | ERROR | CANCELED => exact keeps_throw _

/-- The accepted operations are what the outlook knows of the operations. -/
theorem handled_operations {operations : Table LedgerOperation}
    (h : operationsIn .ACCEPTED operations = operationsIn .ACCEPTED w.operations) :
    w.Handled { w with operations } where
  events := rfl
  deposits := rfl
  warnings := rfl
  columns := rfl
  credited operation := Set.ext_iff.mp h operation

end

/-- A command, where approvals and blocks find the deposit waiting. -/
theorem Sound.step (h : w.Sound operation) (c : WarningCommand)
    (hfinds : FindsWaiting operation w c) : (w.warningStep c).Sound operation := by
  cases c with
  | approve refusals read =>
      refine executed_induction_of_keeps (P := fun v => v.Sound operation) h
        keepsThrowing_approvePixDeposit fun r w' hok => ?_
      refine h.approve hok fun heq => hfinds heq ?_
      rw [returned, hok]
      rfl
  | block refusals read =>
      refine executed_induction_of_keeps (P := fun v => v.Sound operation) h
        keeps_blockPixDeposit.throwing fun r w' hok => ?_
      refine h.block hok fun heq => hfinds heq ?_
      rw [returned, hok]
      rfl
  | createWarning user read =>
      exact executed_induction_of_keeps h keeps_createWarningPixDevolution.throwing
        fun _ _ hok => h.createWarning hok
  | deliver id wid => exact h.deliver id wid
  | pending config services refusals id =>
      refine executed_induction (fun _ _ hok =>
        h.handled (handlePendingWarningPixDevolution_handled hok)) fun e w' herror => ?_
      refine h.handled (handled_operations ?_)
      exact keeps_handlePendingWarningPixDevolution.throwing w e w' herror
  | complete id endToEndId =>
      exact executed_induction_of_keeps h (keeps_onDatabase _).throwing
        fun _ _ hok => h.handled (handleCompleteWarningPixDevolution_handled hok)
  | revert chargebackReason failed id =>
      exact executed_induction_of_keeps h (keeps_onDatabase _).throwing
        fun _ _ hok => h.handled (handleRevertWarningPixDevolution_handled hok)

/-! ### Exactly when there is one outcome -/

/-- The state after deliveries of events. -/
def delivered (w : Ledgered) (ds : List (Uuid × Uuid)) : Ledgered :=
  run warningStep w (ds.map fun d => .deliver d.1 d.2)

theorem Sound.delivered (h : w.Sound operation) (ds : List (Uuid × Uuid)) :
    (w.delivered ds).Sound operation := by
  induction ds generalizing w with
  | nil => exact h
  | cons d ds ih => exact ih (h.deliver d.1 d.2)

/-- A deposit that is credited while its return is asked for is sent back by the event. -/
theorem two_outcomes {id : Uuid} (hcredited : (w.outlook operation).credited)
    (hasked : id ∈ (w.outlook operation).asked) (hdeposit : (w.outlook operation).deposit ≠ none)
    (hown : w.Own operation id) :
    ∃ ds, ¬ ((w.delivered ds).outlook operation).OneOutcome := by
  by_cases hsent : (w.outlook operation).sentBack = []
  · obtain ⟨wid, hevent, hwarned⟩ := hasked
    have hfresh : ∀ x ∈ w.db.devolutionColumns, x.1 ≠ id := by
      intro x hx hid
      have hmem : x ∈ w.db.devolutionColumns.filter fun x => x.2 = operation :=
        List.mem_filter.mpr ⟨hx, decide_eq_true (hown.created x hx hid)⟩
      have hnone : w.db.sentBack operation = [] := hsent
      rw [Database.sentBack_eq, List.map_eq_nil_iff] at hnone
      rw [hnone] at hmem
      cases hmem
    have hcreated := deliver_created hevent hwarned hdeposit hfresh
    refine ⟨[(id, wid)], fun hone => hone.exclusive ?_⟩
    change ((w.warningStep (.deliver id wid)).outlook operation).credited ∧ _
    change _ ∧ ((w.warningStep (.deliver id wid)).outlook operation).sentBack ≠ []
    rw [hcreated.outlook, if_pos rfl]
    exact ⟨hcredited, by simp⟩
  · exact ⟨[], fun hone => hone.exclusive ⟨hcredited, hsent⟩⟩

/-- A command that leaves one outcome, whatever is delivered, found the deposit waiting. -/
theorem Sound.findsWaiting (h : w.Sound operation) (c : WarningCommand)
    (hone : ∀ ds, (((w.warningStep c).delivered ds).outlook operation).OneOutcome) :
    FindsWaiting operation w c := by
  cases c with
  | approve refusals read =>
      rintro rfl hreturned
      obtain ⟨r, hr⟩ := Option.isSome_iff_exists.mp hreturned
      obtain ⟨w', hok⟩ := returned_eq_some.mp hr
      obtain ⟨hreceived, -, houtlook⟩ := approve_outlook hok
      have hout := houtlook read
      rw [if_pos rfl] at hout
      cases h.fate with
      | held hheld => exact hheld.waiting
      | approved hdeposit => exact absurd hdeposit hreceived
      | returned id _ _ hasked =>
          have hid : id ∈ (w'.outlook read).asked := by
            rw [hout, hasked]
            exact rfl
          obtain ⟨ds, hds⟩ := two_outcomes (w := w') (by rw [hout]; trivial) hid
            (by rw [hout]; simp) (h.owned.approve hok id hid)
          rw [warningStep, executed_ok hok] at hone
          exact absurd (hone ds) hds
  | block refusals read =>
      rintro rfl hreturned
      obtain ⟨r, hr⟩ := Option.isSome_iff_exists.mp hreturned
      obtain ⟨w', hok⟩ := returned_eq_some.mp hr
      obtain ⟨hblocked, houtlook⟩ := block_outlook hok
      have hout := houtlook read
      rw [if_pos rfl] at hout
      cases h.fate with
      | held hheld => exact hheld.waiting
      | approved _ hcredited =>
          have hid : w.newWarningDevolution ∈ (w'.outlook read).asked := by
            rw [hout]
            exact Set.mem_insert _ _
          have hown : w'.Owned read := by
            obtain ⟨d, wd, -, hwd, -, -, rfl⟩ := blockPixDeposit_ok hok
            exact h.owned.request hwd rfl rfl
          obtain ⟨ds, hds⟩ := two_outcomes (w := w') (by rw [hout]; exact hcredited) hid
            (by rw [hout]; simp) (hown _ hid)
          rw [warningStep, executed_ok hok] at hone
          exact absurd (hone ds) hds
      | returned _ hdeposit => exact absurd hdeposit hblocked
  | createWarning | deliver | pending | complete | revert => trivial

theorem sound_of_held (h : (w.outlook operation).Held) : w.Sound operation where
  fate := .held h
  owned id hid := by
    rw [h.asked] at hid
    exact hid.elim

end Ledgered

/-- In every state of a run, and whatever is delivered then, a deposit that was held has one
outcome, if and only if every approval and every block of it that goes through finds it waiting. -/
theorem one_outcome_iff (operation : Uuid) (w : Ledgered) (hheld : (w.outlook operation).Held)
    (as : List WarningCommand) :
    (∀ bs, bs <+: as → ∀ ds,
      (((run Ledgered.warningStep w bs).delivered ds).outlook operation).OneOutcome) ↔
      Along Ledgered.warningStep (Ledgered.FindsWaiting operation) w as := by
  refine along_iff (I := fun w : Ledgered => w.Sound operation)
    (P := fun w : Ledgered => ∀ ds, ((w.delivered ds).outlook operation).OneOutcome)
    (fun w h ds => (h.delivered ds).fate.oneOutcome) (fun w c h => ⟨?_, ?_⟩)
    (fun w c h hfinds => h.step c hfinds) (Ledgered.sound_of_held hheld) as
  · exact h.findsWaiting c
  · exact fun hfinds ds => ((h.step c hfinds).delivered ds).fate.oneOutcome

/-! A deposit that is blocked, and then approved. -/

def heldDeposit : PixDeposit where
  id := 1
  user := 7
  wallet := 8
  operation := 2
  state := .WAITING
  endToEndId := "E1"
  amount := 100
  returnedAmount := 0
  thirdPartBank := "00000000"
  thirdPartAccountNumber := "1"
  description := none
  transactionTag := "PIXREC"
  createdAt := 0

/-- A deposit of one real that waits for a decision. -/
def heldWorld : Ledgered where
  db :=
    { Database.empty with
      deposits := Table.empty.upsert heldDeposit
      warningDeposits := Table.empty.upsert ⟨3, 2, .CREATED⟩ }
  operations := Table.empty.upsert ⟨2, .PENDING⟩
  events := []

theorem heldWorld_held : (heldWorld.outlook 2).Held where
  waiting := .inr rfl
  credited h := by cases h
  asked := Set.eq_empty_of_forall_notMem fun _ h => by
    obtain ⟨_, hevent, -⟩ := h
    cases hevent
  sentBack := rfl

theorem one_outcome_held :
    (∀ bs, bs <+: [.block noRefusals 2, .deliver 1 3] → ∀ ds,
      (((run Ledgered.warningStep heldWorld bs).delivered ds).outlook 2).OneOutcome) ↔
      Along Ledgered.warningStep (Ledgered.FindsWaiting 2) heldWorld
        [.block noRefusals 2, .deliver 1 3] :=
  one_outcome_iff 2 heldWorld heldWorld_held _

/-- The deposit is sent back and credited. -/
theorem blocked_then_approved :
    ¬ ∀ (operation : Uuid) (w : Ledgered), (w.outlook operation).Held →
      ∀ as : List WarningCommand,
        ((run Ledgered.warningStep w as).outlook operation).OneOutcome := by
  intro h
  have hone := h 2 heldWorld heldWorld_held
    [.block noRefusals 2, .deliver 1 3, .approve noRefusals 2]
  refine hone.exclusive ⟨?_, ?_⟩
  · change (run Ledgered.warningStep heldWorld _).operations.get? 2 = some ⟨2, .ACCEPTED⟩
    decide +kernel
  · change (run Ledgered.warningStep heldWorld _).db.sentBack 2 ≠ []
    decide +kernel

end ZroServices.Pix
