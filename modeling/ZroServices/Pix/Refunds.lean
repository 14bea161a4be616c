import ZroServices.Foundation.Run
import ZroServices.Pix.Ledger

/-!
# PIX — refunds and their devolutions

Another bank asks for money back, and the money is held by the refund operations of the refund.
The issue desk closes the refund (`closePixRefund`), and a refund devolution sends the money; or
cancels it (`cancelPixRefund`), and the refund operations are reverted.  A devolution that is
completed accepts them, one that is reverted reverts them.

The refund operations of a list are settled one after the other, each by a call of the operations
service.  An execution that throws after some of these calls is rolled back, and the calls are not;
`Whole` says that this does not happen.
-/

namespace ZroServices.Pix

open Foundation
open Payments (LedgerOperation)

/-- The request of the cancellation; the columns that only the PSP reads are left out. -/
structure CancelPixRefundPspRequest where
  solicitationPspId : String
  analisysDetails : Option String

/-- The refund devolution that an event asks for, and its refund. -/
def Event.refundDevolution : Event → Option Uuid
  | .createRefundDevolution id _ => some id
  | .createWarningPixDevolution _ _ => none

namespace Ledgered

/-- The next identifier of a refund devolution. -/
def newRefundDevolution (w : Ledgered) : Uuid :=
  fresh ((w.db.refundDevolutions.rows.map PixRefundDevolution.id ++
    w.events.filterMap Event.refundDevolution) ++
      w.db.refunds.rows.filterMap PixRefund.refundDevolution)

/-- Settle a refund operation, and close the infraction refund operation. -/
def settleRefundOperation (settle : Uuid → LedgerApp Unit) (o : PixInfractionRefundOperation) :
    LedgerApp Unit := do
  settle o.refundOperation
  onDatabase (updateInfractionRefundOperation { o with state := .CLOSED })

/-- Settle the open refund operations of a refund. -/
def settleRefundOperations (settle : Uuid → LedgerApp Unit) (pixRefund : Uuid) :
    LedgerApp Unit := do
  let w ← get
  (w.db.getOpenInfractionRefundOperations pixRefund).forM (settleRefundOperation settle)

/-! ### The issue desk -/

section

-- the refund that an issue was created for
variable (issues : ℤ → Option Uuid)

/-- `PixRefundRepository.getByIssueId`. -/
def getRefundByIssue (issueId : ℤ) : LedgerApp PixRefund := do
  let w ← get
  orThrow ((issues issueId).bind w.db.refunds.get?) (.pixRefundOfIssueNotFound issueId)

/-- `ClosePixRefundUseCase`. -/
def closePixRefund (issueId : ℤ) (analysisDetails : String) : LedgerApp PixRefund := do
  throwIf (issueId = 0 ∨ analysisDetails = "") (.pix (.missingData
    ((if issueId = 0 then ["Issue ID"] else []) ++
      if analysisDetails = "" then ["Analysis Details"] else [])))
  let pixRefund ← getRefundByIssue issues issueId
  match pixRefund.state with
  | .CLOSED_PENDING => return pixRefund
  | _ => do
      let closed : PixRefund :=
        { pixRefund with state := .CLOSED_PENDING, analysisDetails := some analysisDetails }
      onDatabase (updateRefund closed)
      return closed

/-- `CancelPixRefundUseCase`. -/
def cancelPixRefund (refusals : Refusals) (issueId : ℤ) (analysisDetails : Option String) :
    LedgerApp PixRefund := do
  throwIf (issueId = 0) (.pix (.missingData ["Issue ID"]))
  let pixRefund ← getRefundByIssue issues issueId
  match pixRefund.state with
  | .CANCEL_PENDING => return pixRefund
  | _ => do
      let canceled : PixRefund := { pixRefund with state := .CANCEL_PENDING, analysisDetails }
      onDatabase (updateRefund canceled)
      settleRefundOperations (revertOperation refusals) pixRefund.id
      return canceled

end

/-! ### The events of a refund -/

/-- `HandleClosePendingPixRefundEventUseCase`. -/
def handleClosePendingPixRefund (id : Uuid) : LedgerApp PixRefund := do
  let w ← get
  let pixRefund ← orThrow (w.db.refunds.get? id) (.pix (.pixRefundNotFound id))
  match pixRefund.state with
  | .CLOSED_WAITING | .CLOSED_CONFIRMED => return pixRefund
  | .CLOSED_PENDING | .ERROR => do
      let waiting : PixRefund :=
        { pixRefund with
          refundDevolution := some w.newRefundDevolution, state := .CLOSED_WAITING }
      onDatabase (updateRefund waiting)
      emit (.createRefundDevolution w.newRefundDevolution id)
      return waiting
  | _ => throw (.pixRefundInvalidState id)

/-- `HandleCancelPendingPixRefundEventUseCase`. -/
def handleCancelPendingPixRefund
    (cancelRefundRequest : CancelPixRefundPspRequest → Except Exception Unit) (id : Uuid) :
    LedgerApp PixRefund := do
  let w ← get
  let pixRefund ← orThrow (w.db.refunds.get? id) (.pix (.pixRefundNotFound id))
  match pixRefund.state with
  | .CANCEL_CONFIRMED => return pixRefund
  | .CANCEL_PENDING | .ERROR => do
      onDatabase (call (cancelRefundRequest
        { solicitationPspId := pixRefund.solicitationPspId
          analisysDetails := pixRefund.analysisDetails }))
      let canceled : PixRefund := { pixRefund with state := .CANCEL_CONFIRMED }
      onDatabase (updateRefund canceled)
      return canceled
  | _ => throw (.pixRefundInvalidState id)

/-- `HandleRevertPixRefundEventUseCase`. -/
def handleRevertPixRefund (id : Uuid) : LedgerApp PixRefund := do
  let w ← get
  let refund ← orThrow (w.db.refunds.get? id) (.pix (.pixRefundNotFound id))
  match refund.state with
  | .ERROR => return refund
  | _ => do
      let reverted : PixRefund := { refund with state := .ERROR }
      onDatabase (updateRefund reverted)
      return reverted

/-! ### The events of a refund devolution -/

section

variable (config : Config) (services : Services) (refusals : Refusals)

/-- An operation that is accepted comes to be. -/
def createAndAcceptOperation (id : Uuid) (rawValue : ℕ) (ownerWallet : Option Uuid)
    (beneficiaryWallet : Uuid) : LedgerApp Unit := do
  onDatabase (call (services.createAndAcceptOperation id rawValue ownerWallet beneficiaryWallet))
  let w ← get
  let operations ← orThrow (w.operations.insert? ⟨id, .ACCEPTED⟩) (.pix (.uniqueConstraint id))
  modify fun w => { w with operations }

/-- `HandlePendingPixRefundDevolutionEventUseCase.sendDevolutionP2P`. -/
def sendRefundDevolutionP2P (devolution : PixRefundDevolution) (beneficiaryWallet : Uuid) :
    LedgerApp PixRefundDevolution := do
  createAndAcceptOperation services devolution.operation devolution.amount none beneficiaryWallet
  let confirmed : PixRefundDevolution := { devolution with state := .CONFIRMED }
  onDatabase (updateRefundDevolution confirmed)
  return confirmed

/-- `HandlePendingPixRefundDevolutionEventUseCase`. -/
def handlePendingPixRefundDevolution (id : Uuid) : LedgerApp PixRefundDevolution := do
  let w ← get
  let devolution ← orThrow (w.db.refundDevolutions.get? id) (.pix (.pixRefundDevolutionNotFound id))
  match devolution.state with
  | .WAITING | .CONFIRMED => return devolution
  | .PENDING => do
      let transaction ← orThrow
        (transactionFound (w.db.deposits.get? devolution.transaction)
          (w.db.devolutionsReceived.get? devolution.transaction))
        (.pix (.pixTransactionNotFound devolution.transaction))
      match decide (transaction.thirdPartBank = config.pixDevolutionZroBankIspb) with
      | false => onDatabase (sendRefundDevolutionPSP services devolution transaction)
      | true => do
          let found ← onDatabase (call
            (services.getWalletAccountByAccountNumberAndCurrency
              transaction.thirdPartAccountNumber))
          let account ← orThrow found
            (.pix (.pixRefundTransactionZroAccountNotExists transaction.id))
          throwIf (¬ account.isActive) (.pix (.walletAccountNotActive account.wallet))
          sendRefundDevolutionP2P services devolution transaction.wallet
  | _ => throw (.pix (.pixRefundDevolutionInvalidState id))

/-- `HandleCompletePixRefundDevolutionEventUseCase`. -/
def handleCompletePixRefundDevolution (id : Uuid) (endToEndId : Option String) :
    LedgerApp PixRefundDevolution := do
  let w ← get
  let devolution ← orThrow (w.db.refundDevolutions.get? id) (.pix (.pixRefundDevolutionNotFound id))
  match devolution.state with
  | .CONFIRMED => return devolution
  | .WAITING => do
      let pixRefund ← orThrow (w.db.getRefundByRefundDevolution id)
        (.pix (.pixRefundOfDevolutionNotFound id))
      settleRefundOperations (acceptOperation refusals) pixRefund.id
      let confirmed : PixRefundDevolution := { devolution with state := .CONFIRMED, endToEndId }
      onDatabase (updateRefundDevolution confirmed)
      onDatabase (call (services.closeRefundRequest
        { solicitationPspId := pixRefund.solicitationPspId
          devolutionId := pixRefund.refundDevolution
          devolutionEndToEndId := confirmed.endToEndId
          analisysDetails := pixRefund.analysisDetails }))
      onDatabase (updateRefund { pixRefund with state := .CLOSED_CONFIRMED })
      return confirmed
  | _ => throw (.pix (.pixRefundDevolutionInvalidState id))

/-- `revertOperation` of a refund devolution. -/
def revertRefundOperations (hasOperation : Option LedgerOperation) (id : Uuid) :
    LedgerApp Unit :=
  match hasOperation with
  | some _ => do
      let w ← get
      let pixRefund ← orThrow (w.db.getRefundByRefundDevolution id)
        (.pix (.pixRefundOfDevolutionNotFound id))
      settleRefundOperations (revertOperation refusals) pixRefund.id
  | none => pure ()

/-- `HandleRevertPixRefundDevolutionEventUseCase`. -/
def handleRevertPixRefundDevolution (chargebackReason : Option String) (failed : Option Failed)
    (id : Uuid) : LedgerApp PixRefundDevolution := do
  let w ← get
  let devolution ← orThrow (w.db.refundDevolutions.get? id) (.pix (.pixRefundDevolutionNotFound id))
  match devolution.state with
  | .FAILED => return devolution
  | .PENDING | .WAITING | .CONFIRMED => do
      onDatabase (subtractReturnedAmount w.db devolution)
      let reverted : PixRefundDevolution :=
        { devolution with state := .FAILED, chargebackReason, failed }
      onDatabase (updateRefundDevolution reverted)
      let hasOperation ← getOperationById refusals devolution.operation
      revertRefundOperations refusals hasOperation id
      return reverted
  | _ => throw (.pix (.pixRefundDevolutionInvalidState id))

end

end Ledgered

/-! ### Runs -/

/-- The executions on refunds.  A refund devolution is created by its event, which may be delivered
again; the other handlers are called at any time. -/
inductive RefundCommand where
  | close (issueId : ℤ) (analysisDetails : String)
  | cancel (refusals : Refusals) (issueId : ℤ) (analysisDetails : Option String)
  | closePending (id : Uuid)
  | cancelPending (cancelRefundRequest : CancelPixRefundPspRequest → Except Exception Unit)
      (id : Uuid)
  | revert (id : Uuid)
  | create (now : ℤ) (id pixRefund : Uuid)
  | pendingDevolution (services : Services) (id : Uuid)
  | completeDevolution (services : Services) (refusals : Refusals) (id : Uuid)
      (endToEndId : Option String)
  | revertDevolution (refusals : Refusals) (chargebackReason : Option String)
      (failed : Option Failed) (id : Uuid)

/-- The state after a command. -/
def Ledgered.refundStep (config : Config) (issues : ℤ → Option Uuid) (w : Ledgered) :
    RefundCommand → Ledgered
  | .close issueId analysisDetails =>
      executed (Ledgered.closePixRefund issues issueId analysisDetails) w
  | .cancel refusals issueId analysisDetails =>
      executed (Ledgered.cancelPixRefund issues refusals issueId analysisDetails) w
  | .closePending id => executed (Ledgered.handleClosePendingPixRefund id) w
  | .cancelPending cancelRefundRequest id =>
      executed (Ledgered.handleCancelPendingPixRefund cancelRefundRequest id) w
  | .revert id => executed (Ledgered.handleRevertPixRefund id) w
  | .create now id pixRefund =>
      if .createRefundDevolution id pixRefund ∈ w.events then
        executed (onDatabase (handleCreatePixRefundDevolution config now id pixRefund)) w
      else w
  | .pendingDevolution services id =>
      executed (Ledgered.handlePendingPixRefundDevolution config services id) w
  | .completeDevolution services refusals id endToEndId =>
      executed (Ledgered.handleCompletePixRefundDevolution services refusals id endToEndId) w
  | .revertDevolution refusals chargebackReason failed id =>
      executed (Ledgered.handleRevertPixRefundDevolution refusals chargebackReason failed id) w

namespace Ledgered

section

variable {issues : ℤ → Option Uuid} {issueId : ℤ} {w w' : Ledgered}

theorem getRefundByIssue_ok {r : PixRefund} :
    getRefundByIssue issues issueId w = .ok r w' ↔
      issues issueId = some r.id ∧ w.db.refunds.get? r.id = some r ∧ w' = w := by
  rw [getRefundByIssue, get_bind_ok, orThrow_ok, Option.bind_eq_some_iff, ← and_assoc]
  refine and_congr_left fun _ => ?_
  constructor
  · rintro ⟨i, hi, hr⟩
    obtain rfl : r.id = i := Table.key_of_get? hr
    exact ⟨hi, hr⟩
  · rintro ⟨hi, hr⟩
    exact ⟨r.id, hi, hr⟩

theorem getRefundByIssue_bind_ok {β : Type} {b : β} {f : PixRefund → LedgerApp β} :
    (getRefundByIssue issues issueId >>= f) w = .ok b w' ↔
      ∃ r, issues issueId = some r.id ∧ w.db.refunds.get? r.id = some r ∧ f r w = .ok b w' := by
  simp only [bind_ok, getRefundByIssue_ok]
  constructor
  · rintro ⟨r, _, ⟨hissue, hr, rfl⟩, h⟩
    exact ⟨r, hissue, hr, h⟩
  · rintro ⟨r, hissue, hr, h⟩
    exact ⟨r, w, ⟨hissue, hr, rfl⟩, h⟩

theorem keeps_getRefundByIssue {γ : Type*} {p : Ledgered → γ} :
    Keeps p (getRefundByIssue issues issueId) :=
  keeps_get.bind fun _ => keeps_orThrow

end

/-! ### The settlement of refund operations -/

/-- The code writes the state of an operation. -/
def Settles (settle : Uuid → LedgerApp Unit) (state : OperationState) : Prop :=
  ∀ id w w' t, settle id w = .ok t w' → w' = { w with operations := w.operations.set ⟨id, state⟩ }

theorem settles_acceptOperation (refusals : Refusals) :
    Settles (acceptOperation refusals) .ACCEPTED := fun _ _ _ _ h => (acceptOperation_ok.mp h).2.2

theorem settles_revertOperation (refusals : Refusals) :
    Settles (revertOperation refusals) .REVERTED := by
  intro id w w' t h
  rcases revertOperation_ok h with ⟨-, rfl⟩ | ⟨hfound, rfl⟩
  · rfl
  · rw [Table.set_eq_self hfound]

/-- The refund operations of a list settled in a state. -/
def settledAs (w : Ledgered) (state : OperationState) (os : List PixInfractionRefundOperation) :
    Ledgered :=
  { w with
    db := { w.db with
      infractionRefundOperations := w.db.infractionRefundOperations.setAll
        (os.map fun o => { o with state := .CLOSED }) }
    operations := w.operations.setAll (os.map fun o => ⟨o.refundOperation, state⟩) }

section

variable {settle : Uuid → LedgerApp Unit} {state : OperationState} {w w' : Ledgered} {t : Unit}
  {os : List PixInfractionRefundOperation} {o : PixInfractionRefundOperation}

theorem settleRefundOperation_ok (hsettle : Settles settle state)
    (h : settleRefundOperation settle o w = .ok t w') : w' = w.settledAs state [o] := by
  rw [settleRefundOperation, bind_ok] at h
  obtain ⟨_, s, hs, h⟩ := h
  obtain rfl := hsettle _ _ _ _ hs
  obtain ⟨db, hdb, rfl⟩ := onDatabase_ok.mp h
  obtain rfl := modify_ok.mp hdb
  rfl

theorem settleAll_ok (hsettle : Settles settle state)
    (h : os.forM (settleRefundOperation settle) w = .ok t w') : w' = w.settledAs state os := by
  refine (forM_writes (g := fun w o => w.settledAs state [o])
    (fun _ _ _ _ ho => settleRefundOperation_ok hsettle ho) h).trans ?_
  clear h
  induction os generalizing w with
  | nil => rfl
  | cons o os ih => exact ih

theorem settleRefundOperations_ok {r : Uuid} (hsettle : Settles settle state)
    (h : settleRefundOperations settle r w = .ok t w') :
    w' = w.settledAs state (w.db.getOpenInfractionRefundOperations r) :=
  settleAll_ok hsettle h

/-- What is open after the refund operations of a list were settled. -/
theorem open_settledAs (ho : o ∈ (w.settledAs state os).db.infractionRefundOperations.rows)
    (hopen : o.state = .OPEN) : o ∈ w.db.infractionRefundOperations.rows ∧ o ∉ os := by
  rcases Table.mem_setAll ho with ⟨ho, hne⟩ | ho
  · exact ⟨ho, fun hmem => hne _ (List.mem_map_of_mem hmem) rfl⟩
  · obtain ⟨x, -, rfl⟩ := List.mem_map.mp ho
    cases hopen

/-- A row after the refund operations of a list were settled. -/
theorem row_settledAs (ho : o ∈ (w.settledAs state os).db.infractionRefundOperations.rows) :
    (o ∈ w.db.infractionRefundOperations.rows ∧ o ∉ os) ∨
      ∃ x ∈ os, o = { x with state := .CLOSED } := by
  rcases Table.mem_setAll ho with ⟨ho, hne⟩ | ho
  · exact .inl ⟨ho, fun hmem => hne _ (List.mem_map_of_mem hmem) rfl⟩
  · obtain ⟨x, hx, rfl⟩ := List.mem_map.mp ho
    exact .inr ⟨x, hx, rfl⟩

/-- An operation after the refund operations of a list were settled. -/
theorem operation_settledAs {x : LedgerOperation}
    (hx : x ∈ (w.settledAs state os).operations.rows) :
    x ∈ w.operations.rows ∨ ∃ o ∈ os, x = ⟨o.refundOperation, state⟩ := by
  rcases Table.mem_setAll hx with ⟨hx, -⟩ | hx
  · exact .inl hx
  · obtain ⟨o, ho, rfl⟩ := List.mem_map.mp hx
    exact .inr ⟨o, ho, rfl⟩

/-- An operation after some refund operations of a list were settled, and one was not. -/
theorem settleAll_error {e : LedgerException} (hsettle : Settles settle state)
    (hkeeps : ∀ id, KeepsThrowing Ledgered.operations (settle id))
    (h : os.forM (settleRefundOperation settle) w = .error e w') :
    ∀ x ∈ w'.operations.rows,
      x ∈ w.operations.rows ∨ ∃ o ∈ os, x = ⟨o.refundOperation, state⟩ := by
  induction os generalizing w with
  | nil => exact absurd h pure_error
  | cons o os ih =>
      intro x hx
      rcases bind_error.mp h with h | ⟨_, s, ho, h⟩
      · rcases bind_error.mp h with h | ⟨_, s, -, h⟩
        · rw [hkeeps _ w e w' h] at hx
          exact .inl hx
        · exact (throws_onDatabase (throws_modify _) s e w' h).elim
      · obtain rfl := settleRefundOperation_ok hsettle ho
        rcases ih h x hx with hx | ⟨p, hp, rfl⟩
        · rcases operation_settledAs hx with hx | ⟨p, hp, rfl⟩
          · exact .inl hx
          · exact .inr ⟨p, List.mem_cons.mpr (.inl (List.mem_singleton.mp hp)), rfl⟩
        · exact .inr ⟨p, List.mem_cons_of_mem o hp, rfl⟩

end

/-- Refund operations of which all are settled, or not the first. -/
def Whole (settles : Uuid → Prop) (os : List PixInfractionRefundOperation) : Prop :=
  ∀ o ∈ os.head?, settles o.refundOperation → ∀ p ∈ os, settles p.refundOperation

/-- A call reverts the operation, or finds it reverted. -/
structure Reverts (refusals : Refusals) (operations : Table LedgerOperation) (id : Uuid) :
    Prop where
  taken : refusals.revertOperation id = none
  found : operations.get? id = some ⟨id, .PENDING⟩ ∨ operations.get? id = some ⟨id, .REVERTED⟩

section

variable {refusals : Refusals} {w w' : Ledgered} {id : Uuid} {e : LedgerException}
  {os : List PixInfractionRefundOperation} {o : PixInfractionRefundOperation}

theorem reverts_of_ok {t : Unit} (h : revertOperation refusals id w = .ok t w') :
    Reverts refusals w.operations id := by
  refine ⟨(refuse_bind_ok.mp h).1, ?_⟩
  rcases revertOperation_ok h with ⟨hfound, -⟩ | ⟨hfound, -⟩
  · exact .inl hfound
  · exact .inr hfound

theorem Reverts.returns (h : Reverts refusals w.operations id) :
    revertOperation refusals id w =
      .ok () { w with operations := w.operations.set ⟨id, .REVERTED⟩ } := by
  rw [revertOperation, h.taken]
  rcases h.found with hfound | hfound
  · change (orThrow (w.operations.get? id) _ >>= _) w = _
    rw [hfound]
    rfl
  · change (orThrow (w.operations.get? id) _ >>= _) w = _
    rw [hfound, Table.set_eq_self hfound]
    rfl

/-- An operation that can be reverted, after another was. -/
theorem Reverts.settledAs (h : Reverts refusals w.operations id) :
    Reverts refusals (w.settledAs .REVERTED [o]).operations id := by
  refine ⟨h.taken, ?_⟩
  change (w.operations.set ⟨o.refundOperation, .REVERTED⟩).get? id = _ ∨ _
  by_cases hid : o.refundOperation = id
  · refine .inr ?_
    subst hid
    rcases h.found with hfound | hfound
    · exact Table.get?_set_self hfound rfl
    · exact Table.get?_set_self hfound rfl
  · change _ ∨ (w.operations.set ⟨o.refundOperation, .REVERTED⟩).get? id = _
    rw [Table.get?_set_ne hid]
    exact h.found

theorem settleRefundOperation_returns (h : Reverts refusals w.operations o.refundOperation) :
    settleRefundOperation (revertOperation refusals) o w = .ok () (w.settledAs .REVERTED [o]) := by
  rw [settleRefundOperation, bind_of_ok h.returns]
  rfl

theorem revertAll_returns (h : ∀ o ∈ os, Reverts refusals w.operations o.refundOperation) :
    os.forM (settleRefundOperation (revertOperation refusals)) w =
      .ok () (w.settledAs .REVERTED os) := by
  induction os generalizing w with
  | nil => rfl
  | cons o os ih =>
      refine (bind_of_ok (settleRefundOperation_returns (h o List.mem_cons_self))).trans ?_
      exact ih fun p hp => (h p (List.mem_cons_of_mem o hp)).settledAs

/-- Refund operations that are reverted as a whole or not at all. -/
theorem revertAll_error (hwhole : Whole (Reverts refusals w.operations) os)
    (h : os.forM (settleRefundOperation (revertOperation refusals)) w = .error e w') :
    w'.operations = w.operations := by
  cases os with
  | nil => exact absurd h pure_error
  | cons o os =>
      by_cases ho : Reverts refusals w.operations o.refundOperation
      · rw [revertAll_returns (hwhole o rfl ho)] at h
        cases h
      · rcases bind_error.mp h with h | ⟨t, s, h, -⟩
        · rcases bind_error.mp h with h | ⟨t, s, -, h⟩
          · exact keepsThrowing_revertOperation w e w' h
          · exact (throws_onDatabase (throws_modify _) s e w' h).elim
        · obtain ⟨t, s, h, -⟩ := bind_ok.mp h
          exact absurd (reverts_of_ok h) ho

end

end Ledgered

end ZroServices.Pix
