import ZroServices.Foundation.Run
import ZroServices.Foundation.View
import ZroServices.Operations.Domain

/-!
# Compliance — warning transactions

A PIX deposit under suspicion is held while its warning transaction is analysed.  The warning is
closed by the analyst (`closeWarningTransaction`), or by a job 72 hours after its creation
(`syncWarningTransactionDueDate`); a suspicion that is approved has the deposit blocked, and one
that is rejected or expired has it approved, each by a call of the PIX service.

A request runs in a database transaction, which is rolled back when it throws, and the job in
none: each of its updates is stored at once.  Both store the warning before the call.

* `closed_decided`: the warnings that are stored closed have their deposits decided, along a run,
  if and only if no call of the job fails.

Times are in milliseconds.  The columns that neither of the two reads or writes are left out.
-/

namespace ZroServices.Compliance

open Foundation

inductive WarningTransactionStatus where
  | PENDING
  | SENT
  | CLOSED
  | FAILED
  deriving DecidableEq, Repr

inductive WarningTransactionAnalysisResultType where
  | APPROVED
  | REJECTED
  | EXPIRED
  deriving DecidableEq, Repr

structure WarningTransaction where
  id : Uuid
  operation : Uuid
  status : WarningTransactionStatus
  analysisResult : Option WarningTransactionAnalysisResultType
  analysisDetails : Option String
  createdAt : ℤ
  deriving DecidableEq, Repr

instance : Keyed WarningTransaction Uuid := ⟨WarningTransaction.id⟩

/-- What the PIX service makes of a deposit. -/
inductive Decision where
  | approved
  | blocked
  deriving DecidableEq, Repr

/-- What the analysis means for the deposit. -/
def WarningTransactionAnalysisResultType.decision :
    WarningTransactionAnalysisResultType → Decision
  | APPROVED => .blocked
  | REJECTED | EXPIRED => .approved

/-- The warnings, and the deposits that the PIX service was made to decide, by their
operations. -/
structure World where
  warningTransactions : Table WarningTransaction
  decisions : List (Uuid × Decision)

inductive Exception where
  | missingData (fields : List String)
  | warningTransactionNotFound (operation : Uuid)
  | warningTransactionInvalidStatus (id : Uuid)
  | service (message : String)
  deriving DecidableEq, Repr

/-- The answers of the PIX service; a call that is refused has no effect. -/
structure PixPaymentService where
  approvePixDeposit : Uuid → Except Exception Unit
  blockPixDeposit : Uuid → Except Exception Unit

abbrev App := EStateM Exception World

namespace World

variable (w : World)

/-- `WarningTransactionRepository.getByOperation`. -/
def getByOperation (operation : Uuid) : Option WarningTransaction :=
  w.warningTransactions.rows.find? fun x => x.operation = operation

/-- `WarningTransactionRepository.getAllInAnalysis`. -/
def getAllInAnalysis : List WarningTransaction :=
  w.warningTransactions.rows.filter fun x => x.status = .SENT

end World

/-- `WarningTransactionRepository.update`. -/
def update (warningTransaction : WarningTransaction) : App Unit :=
  modify fun w => { w with warningTransactions := w.warningTransactions.set warningTransaction }

section

variable (pixPaymentService : PixPaymentService)

def approvePixDeposit (operation : Uuid) : App Unit := do
  call (pixPaymentService.approvePixDeposit operation)
  modify fun w => { w with decisions := w.decisions ++ [(operation, .approved)] }

def blockPixDeposit (operation : Uuid) : App Unit := do
  call (pixPaymentService.blockPixDeposit operation)
  modify fun w => { w with decisions := w.decisions ++ [(operation, .blocked)] }

/-! ### The analyst -/

def closeApproved (warningTransaction : WarningTransaction) : App WarningTransaction := do
  let closed : WarningTransaction := { warningTransaction with status := .CLOSED }
  update closed
  blockPixDeposit pixPaymentService closed.operation
  return closed

def closeRejected (warningTransaction : WarningTransaction) : App WarningTransaction := do
  let closed : WarningTransaction := { warningTransaction with status := .CLOSED }
  update closed
  approvePixDeposit pixPaymentService closed.operation
  return closed

/-- What a request to close asks for. -/
structure CloseRequest where
  operation : Option Uuid
  analysisResult : Option WarningTransactionAnalysisResultType
  analysisDetails : Option String

/-- `CloseWarningTransactionUseCase`.  A request with the result `EXPIRED` is answered with
nothing. -/
def closeWarningTransaction (request : CloseRequest) : App (Option WarningTransaction) :=
  match request.operation, request.analysisResult with
  | some operation, some analysisResult => do
      let w ← get
      let found ← orThrow (w.getByOperation operation) (.warningTransactionNotFound operation)
      throwIf (found.status = .CLOSED) (.warningTransactionInvalidStatus found.id)
      let analysed : WarningTransaction :=
        { found with
          analysisResult := some analysisResult, analysisDetails := request.analysisDetails }
      match analysisResult with
      | .APPROVED => do
          let closed ← closeApproved pixPaymentService analysed
          return some closed
      | .REJECTED => do
          let closed ← closeRejected pixPaymentService analysed
          return some closed
      | .EXPIRED => return none
  | operation, analysisResult =>
      throw (.missingData ((if operation.isNone then ["Operation ID"] else []) ++
        if analysisResult.isNone then ["Analysis Result"] else []))

/-! ### The due date -/

/-- Milliseconds of 72 hours. -/
def msPer72Hours : ℤ := 259200000

/-- `hasPassed72HoursAfterCreation`. -/
def hasPassed72HoursAfterCreation (now : ℤ) (x : WarningTransaction) : Prop :=
  now > x.createdAt + msPer72Hours

instance (now : ℤ) : DecidablePred (hasPassed72HoursAfterCreation now) := fun _ =>
  inferInstanceAs (Decidable (_ > _))

/-- A warning that the job has read, at the time at which it comes to it. -/
def expire (now : Uuid → ℤ) (x : WarningTransaction) : App Unit :=
  if hasPassed72HoursAfterCreation (now x.id) x then do
    update { x with status := .CLOSED, analysisResult := some .EXPIRED }
    approvePixDeposit pixPaymentService x.operation
  else pure ()

/-- `SyncWarningTransactionDueDateUseCase`. -/
def syncWarningTransactionDueDate (now : Uuid → ℤ) : App Unit := do
  let w ← get
  w.getAllInAnalysis.forM (expire pixPaymentService now)

end

/-! ### Runs -/

inductive Command where
  | close (pixPaymentService : PixPaymentService) (request : CloseRequest)
  | sync (pixPaymentService : PixPaymentService) (now : Uuid → ℤ)

/-- The tables of before, after a request that threw; the PIX service is not rolled back. -/
def World.rollback (before after : World) : World :=
  { before with decisions := after.decisions }

/-- The state after a command. -/
def step (w : World) : Command → World
  | .close pixPaymentService request =>
      left (transaction World.rollback (closeWarningTransaction pixPaymentService request)) w
  | .sync pixPaymentService now => left (syncWarningTransactionDueDate pixPaymentService now) w

/-- The calls of the job are answered. -/
def Answered (w : World) : Command → Prop
  | .close _ _ => True
  | .sync pixPaymentService now =>
      ∀ x ∈ w.getAllInAnalysis, hasPassed72HoursAfterCreation (now x.id) x →
        pixPaymentService.approvePixDeposit x.operation = .ok ()

/-- Warnings of different operations, as they are created; the deposits of those that are closed
are decided, and no others. -/
structure World.Analysed (w : World) : Prop where
  apart : ∀ x ∈ w.warningTransactions.rows, ∀ y ∈ w.warningTransactions.rows,
    x.operation = y.operation → x = y
  closed : ∀ x ∈ w.warningTransactions.rows, x.status = .CLOSED → ∀ result,
    x.analysisResult = some result → (x.operation, result.decision) ∈ w.decisions
  held : ∀ x ∈ w.warningTransactions.rows, x.status ≠ .CLOSED → ∀ d, (x.operation, d) ∉ w.decisions
  one : ∀ operation, (operation, Decision.approved) ∈ w.decisions →
    (operation, Decision.blocked) ∉ w.decisions

/-- Every warning that is closed has a decided deposit, no deposit is decided both ways, and a
warning of `before` that was in analysis is taken up by the job when it is past its due date,
until its deposit is decided. -/
structure Decided (before w : World) : Prop where
  blocked : ∀ x ∈ w.warningTransactions.rows, x.status = .CLOSED →
    x.analysisResult = some .APPROVED → (x.operation, .blocked) ∈ w.decisions
  approved : ∀ x ∈ w.warningTransactions.rows, x.status = .CLOSED →
    x.analysisResult = some .REJECTED ∨ x.analysisResult = some .EXPIRED →
      (x.operation, .approved) ∈ w.decisions
  one : ∀ operation, (operation, Decision.approved) ∈ w.decisions →
    (operation, Decision.blocked) ∉ w.decisions
  takenUp : ∀ now, ∀ x ∈ before.getAllInAnalysis, hasPassed72HoursAfterCreation now x →
    (∀ d, (x.operation, d) ∉ w.decisions) → x ∈ w.getAllInAnalysis

/-! ### What a decision makes of the warnings -/

/-- The invariant of a run from `before`. -/
structure Sound (before w : World) : Prop extends w.Analysed where
  inAnalysis : ∀ x ∈ before.getAllInAnalysis,
    x ∈ w.getAllInAnalysis ∨ ∃ d, (x.operation, d) ∈ w.decisions

theorem World.mem_getAllInAnalysis {w : World} {x : WarningTransaction} :
    x ∈ w.getAllInAnalysis ↔ x ∈ w.warningTransactions.rows ∧ x.status = .SENT := by
  rw [World.getAllInAnalysis, List.mem_filter, decide_eq_true_iff]

theorem World.Analysed.sound {w : World} (h : w.Analysed) : Sound w w :=
  ⟨h, fun _ hx => .inl hx⟩

section

variable {before w w' : World} {x y : WarningTransaction} {now : Uuid → ℤ}
  {result : WarningTransactionAnalysisResultType} {pixPaymentService : PixPaymentService}
variable {operation : Uuid} {request : CloseRequest}

theorem Sound.decided (h : Sound before w) : Decided before w where
  blocked x hx hclosed hresult := h.closed x hx hclosed _ hresult
  approved x hx hclosed hresult := by
    rcases hresult with hresult | hresult
    · exact h.closed x hx hclosed _ hresult
    · exact h.closed x hx hclosed _ hresult
  one := h.one
  takenUp now x hx _ hheld := by
    rcases h.inAnalysis x hx with hin | ⟨d, hd⟩
    · exact hin
    · exact absurd hd (hheld d)

/-- The row `y` closes the warning `x` with a result. -/
structure Closes (x y : WarningTransaction) (result : WarningTransactionAnalysisResultType) :
    Prop where
  id : y.id = x.id
  operation : y.operation = x.operation
  status : y.status = .CLOSED
  analysisResult : y.analysisResult = some result

/-- The warnings after a row was written, and the decision of its deposit. -/
def World.close (w : World) (y : WarningTransaction)
    (result : WarningTransactionAnalysisResultType) : World where
  warningTransactions := w.warningTransactions.set y
  decisions := w.decisions ++ [(y.operation, result.decision)]

/-- A warning that was not closed is closed, and its deposit decided by the result. -/
theorem Sound.close (h : Sound before w) (hx : x ∈ w.warningTransactions.rows)
    (hopen : x.status ≠ .CLOSED) (hy : Closes x y result) : Sound before (w.close y result) := by
  have hrow {z : WarningTransaction} (hz : z ∈ (w.warningTransactions.set y).rows) :
      (z ∈ w.warningTransactions.rows ∧ z ≠ x) ∨ z = y := by
    rcases Table.mem_set.mp hz with ⟨hz, hne⟩ | ⟨hz, -⟩
    · refine .inl ⟨hz, ?_⟩
      rintro rfl
      exact hne hy.id.symm
    · exact .inr hz
  have hother {z : WarningTransaction} (hz : z ∈ w.warningTransactions.rows) (hne : z ≠ x) :
      z.operation ≠ y.operation := fun he => hne (h.apart z hz x hx (he.trans hy.operation))
  have hmem {p : Uuid × Decision} (hp : p ∈ (w.close y result).decisions) :
      p ∈ w.decisions ∨ p = (y.operation, result.decision) := by
    simpa [World.close] using hp
  have hnone (d : Decision) : (y.operation, d) ∉ w.decisions := by
    rw [hy.operation]
    exact h.held x hx hopen d
  refine ⟨⟨?_, ?_, ?_, ?_⟩, ?_⟩
  · intro z hz z' hz' he
    rcases hrow hz with ⟨hold, hne⟩ | hnew
    · rcases hrow hz' with ⟨hold', -⟩ | hnew'
      · exact h.apart z hold z' hold' he
      · exact absurd (hnew' ▸ he) (hother hold hne)
    · rcases hrow hz' with ⟨hold', hne⟩ | hnew'
      · exact absurd (hnew ▸ he.symm) (hother hold' hne)
      · exact hnew.trans hnew'.symm
  · intro z hz hclosed r hr
    rcases hrow hz with ⟨hz, -⟩ | rfl
    · exact List.mem_append_left _ (h.closed z hz hclosed r hr)
    · obtain rfl : r = result := Option.some.inj (hr.symm.trans hy.analysisResult)
      exact List.mem_append_right _ (List.mem_singleton.mpr rfl)
  · intro z hz hz' d hd
    rcases hrow hz with ⟨hz, hne⟩ | rfl
    · rcases hmem hd with hd | hd
      · exact h.held z hz hz' d hd
      · exact hother hz hne (congrArg Prod.fst hd)
    · exact hz' hy.status
  · intro operation happroved hblocked
    rcases hmem happroved with ha | ha
    · rcases hmem hblocked with hb | hb
      · exact h.one operation ha hb
      · obtain rfl := congrArg Prod.fst hb
        exact hnone _ ha
    · obtain rfl := congrArg Prod.fst ha
      rcases hmem hblocked with hb | hb
      · exact hnone _ hb
      · exact absurd ((congrArg Prod.snd ha).trans (congrArg Prod.snd hb).symm) (by rintro ⟨⟩)
  · intro z hz
    rcases h.inAnalysis z hz with hin | ⟨d, hd⟩
    · obtain ⟨hrows, hsent⟩ := World.mem_getAllInAnalysis.mp hin
      by_cases hzx : z = x
      · refine .inr ⟨result.decision, List.mem_append_right _ ?_⟩
        rw [hzx, ← hy.operation]
        exact List.mem_singleton.mpr rfl
      · refine .inl (World.mem_getAllInAnalysis.mpr ⟨Table.mem_set.mpr (.inl ⟨hrows, ?_⟩), hsent⟩)
        intro he
        exact hzx (Table.eq_of_key hrows hx (he.trans hy.id))
    · exact .inr ⟨d, List.mem_append_left _ hd⟩

/-- A warning is stored closed, and its deposit is not decided. -/
theorem Sound.not_decided (h : Sound before w) (hx : x ∈ w.warningTransactions.rows)
    (hopen : x.status ≠ .CLOSED) (hy : Closes x y .EXPIRED) :
    ¬ Decided before { w with warningTransactions := w.warningTransactions.set y } := by
  intro hdecided
  have hrow : y ∈ (w.warningTransactions.set y).rows :=
    Table.mem_set.mpr (.inr ⟨rfl, x, hx, hy.id.symm⟩)
  have happroved := hdecided.approved y hrow hy.status (.inr hy.analysisResult)
  rw [hy.operation] at happroved
  exact h.held x hx hopen _ happroved

/-! ### The analyst -/

theorem blockPixDeposit_ok {t : Unit} :
    blockPixDeposit pixPaymentService operation w = .ok t w' ↔
      pixPaymentService.blockPixDeposit operation = .ok () ∧
        w' = { w with decisions := w.decisions ++ [(operation, .blocked)] } := by
  simp only [blockPixDeposit, call_bind_ok, modify_ok]
  exact ⟨fun ⟨(), h⟩ => h, fun h => ⟨(), h⟩⟩

theorem approvePixDeposit_ok {t : Unit} :
    approvePixDeposit pixPaymentService operation w = .ok t w' ↔
      pixPaymentService.approvePixDeposit operation = .ok () ∧
        w' = { w with decisions := w.decisions ++ [(operation, .approved)] } := by
  simp only [approvePixDeposit, call_bind_ok, modify_ok]
  exact ⟨fun ⟨(), h⟩ => h, fun h => ⟨(), h⟩⟩

/-- A warning that is not closed is closed, with its decision. -/
def ClosesOne (w w' : World) : Prop :=
  ∃ x ∈ w.warningTransactions.rows, x.status ≠ .CLOSED ∧
    ∃ y result, Closes x y result ∧ w' = w.close y result

theorem closeApproved_ok {closed : WarningTransaction}
    (h : closeApproved pixPaymentService y w = .ok closed w') :
    w' = w.close { y with status := .CLOSED } .APPROVED := by
  simp only [closeApproved, update, modify_bind_ok] at h
  obtain ⟨_, s, hblock, h⟩ := bind_ok.mp h
  obtain ⟨-, rfl⟩ := blockPixDeposit_ok.mp hblock
  exact (pure_ok.mp h).2

theorem closeRejected_ok {closed : WarningTransaction}
    (h : closeRejected pixPaymentService y w = .ok closed w') :
    w' = w.close { y with status := .CLOSED } .REJECTED := by
  simp only [closeRejected, update, modify_bind_ok] at h
  obtain ⟨_, s, happrove, h⟩ := bind_ok.mp h
  obtain ⟨-, rfl⟩ := approvePixDeposit_ok.mp happrove
  exact (pure_ok.mp h).2

/-- What a request does that is answered. -/
theorem closeWarningTransaction_ok {r : Option WarningTransaction}
    (h : closeWarningTransaction pixPaymentService request w = .ok r w') :
    w' = w ∨ ClosesOne w w' := by
  obtain ⟨operation, analysisResult, analysisDetails⟩ := request
  rw [closeWarningTransaction] at h
  cases operation with
  | none => exact absurd h throw_ok
  | some operation =>
      cases analysisResult with
      | none => exact absurd h throw_ok
      | some analysisResult =>
          simp only [get_bind_ok, orThrow_bind_ok, throwIf_bind_ok] at h
          obtain ⟨x, hfound, hopen, h⟩ := h
          have hx : x ∈ w.warningTransactions.rows := List.mem_of_find?_eq_some hfound
          cases analysisResult with
          | APPROVED =>
              obtain ⟨_, _, hclose, h⟩ := bind_ok.mp h
              obtain ⟨-, rfl⟩ := pure_ok.mp h
              refine .inr ⟨x, hx, hopen, _, _, ?_, closeApproved_ok hclose⟩
              exact ⟨rfl, rfl, rfl, rfl⟩
          | REJECTED =>
              obtain ⟨_, _, hclose, h⟩ := bind_ok.mp h
              obtain ⟨-, rfl⟩ := pure_ok.mp h
              refine .inr ⟨x, hx, hopen, _, _, ?_, closeRejected_ok hclose⟩
              exact ⟨rfl, rfl, rfl, rfl⟩
          | EXPIRED => exact .inl (pure_ok.mp h).2

theorem keeps_update : Keeps World.decisions (update x) := keeps_modify fun _ => rfl

theorem keepsThrowing_approvePixDeposit :
    KeepsThrowing World.decisions (approvePixDeposit pixPaymentService operation) :=
  .bind keeps_call fun _ => keepsThrowing_of_returns (throws_modify _)

theorem keepsThrowing_blockPixDeposit :
    KeepsThrowing World.decisions (blockPixDeposit pixPaymentService operation) :=
  .bind keeps_call fun _ => keepsThrowing_of_returns (throws_modify _)

/-- A request that throws has had no deposit decided. -/
theorem keepsThrowing_closeWarningTransaction :
    KeepsThrowing World.decisions (closeWarningTransaction pixPaymentService request) := by
  obtain ⟨operation, analysisResult, analysisDetails⟩ := request
  rw [closeWarningTransaction]
  cases operation with
  | none => exact (keeps_throw _).throwing
  | some operation =>
      cases analysisResult with
      | none => exact (keeps_throw _).throwing
      | some analysisResult =>
          refine .bind keeps_get fun _ => .bind keeps_orThrow fun _ => .bind keeps_throwIf fun _ => ?_
          cases analysisResult with
          | APPROVED =>
              refine .returning (.bind keeps_update fun _ => ?_) fun _ => throws_pure _
              exact keepsThrowing_blockPixDeposit.returning fun _ => throws_pure _
          | REJECTED =>
              refine .returning (.bind keeps_update fun _ => ?_) fun _ => throws_pure _
              exact keepsThrowing_approvePixDeposit.returning fun _ => throws_pure _
          | EXPIRED => exact (keeps_pure _).throwing

theorem Sound.closeWarningTransaction (h : Sound before w) :
    Sound before (step w (.close pixPaymentService request)) := by
  refine transaction_induction (fun r w' hok => ?_) fun e w' herror => ?_
  · rcases closeWarningTransaction_ok hok with rfl | ⟨x, hx, hopen, y, result, hy, rfl⟩
    · exact h
    · exact h.close hx hopen hy
  · rw [World.rollback, keepsThrowing_closeWarningTransaction w e w' herror]
    exact h

/-! ### The job -/

/-- The warnings that the job has still to look at. -/
structure Found (w : World) (xs : List WarningTransaction) : Prop where
  inAnalysis : ∀ x ∈ xs, x ∈ w.getAllInAnalysis
  apart : (xs.map WarningTransaction.id).Nodup

theorem found_getAllInAnalysis : Found w w.getAllInAnalysis where
  inAnalysis _ hx := hx
  apart := w.warningTransactions.nodup.sublist (List.filter_sublist.map _)

/-- The others are found after the row of one was written. -/
theorem Found.tail {xs : List WarningTransaction} (h : Found w (x :: xs)) (hy : y.id = x.id)
    (decisions : List (Uuid × Decision)) :
    Found ⟨w.warningTransactions.set y, decisions⟩ xs where
  inAnalysis z hz := by
    obtain ⟨hrow, hsent⟩ := World.mem_getAllInAnalysis.mp
      (h.inAnalysis z (List.mem_cons_of_mem x hz))
    refine World.mem_getAllInAnalysis.mpr ⟨Table.mem_set.mpr (.inl ⟨hrow, fun he => ?_⟩), hsent⟩
    refine (List.nodup_cons.mp h.apart).1 ?_
    rw [← hy, ← show z.id = y.id from he]
    exact List.mem_map_of_mem hz
  apart := (List.nodup_cons.mp h.apart).2

/-- A warning that the job comes to. -/
inductive Expired (pixPaymentService : PixPaymentService) (now : Uuid → ℤ) (w : World)
    (x : WarningTransaction) : EStateM.Result Exception World Unit → Prop
  | kept (h : ¬ hasPassed72HoursAfterCreation (now x.id) x) : Expired _ now w x (.ok () w)
  | approved (h : hasPassed72HoursAfterCreation (now x.id) x)
      (hcall : pixPaymentService.approvePixDeposit x.operation = .ok ()) :
      Expired _ now w x
        (.ok () (w.close { x with status := .CLOSED, analysisResult := some .EXPIRED } .EXPIRED))
  | failed (e : Exception) (h : hasPassed72HoursAfterCreation (now x.id) x)
      (hcall : pixPaymentService.approvePixDeposit x.operation = .error e) :
      Expired _ now w x
        (.error e { w with
          warningTransactions := w.warningTransactions.set
            { x with status := .CLOSED, analysisResult := some .EXPIRED } })

theorem expired_expire : Expired pixPaymentService now w x (expire pixPaymentService now x w) := by
  rw [expire]
  by_cases h : hasPassed72HoursAfterCreation (now x.id) x
  · rw [if_pos h, update, modify_bind_apply, approvePixDeposit, call_bind_apply]
    cases hcall : pixPaymentService.approvePixDeposit x.operation with
    | ok t => exact .approved h hcall
    | error e => exact .failed e h hcall
  · rw [if_neg h]
    exact .kept h

variable (pixPaymentService now) in
/-- What the job makes of the warnings that it has still to look at. -/
theorem Sound.expireAll {xs : List WarningTransaction} (h : Sound before w) (hfound : Found w xs) :
    (Sound before (left (xs.forM (expire pixPaymentService now)) w) ∧
        ∀ x ∈ xs, hasPassed72HoursAfterCreation (now x.id) x →
          pixPaymentService.approvePixDeposit x.operation = .ok ()) ∨
      (¬ Decided before (left (xs.forM (expire pixPaymentService now)) w) ∧
        ∃ x ∈ xs, hasPassed72HoursAfterCreation (now x.id) x ∧
          pixPaymentService.approvePixDeposit x.operation ≠ .ok ()) := by
  induction xs generalizing w with
  | nil => exact .inl ⟨h, fun x hx => absurd hx List.not_mem_nil⟩
  | cons x xs ih =>
      have hx := World.mem_getAllInAnalysis.mp (hfound.inAnalysis x List.mem_cons_self)
      have hopen : x.status ≠ .CLOSED := by
        rw [hx.2]
        rintro ⟨⟩
      change (Sound before (left (expire pixPaymentService now x >>= fun _ => _) w) ∧ _) ∨
        ¬ Decided before (left (expire pixPaymentService now x >>= fun _ => _) w) ∧ _
      have hexpired : Expired pixPaymentService now w x (expire pixPaymentService now x w) :=
        expired_expire
      generalize hr : expire pixPaymentService now x w = r at hexpired
      cases hexpired with
      | kept hdue =>
          have hxs : Found w xs := ⟨fun y hy => hfound.inAnalysis y (List.mem_cons_of_mem x hy),
            (List.nodup_cons.mp hfound.apart).2⟩
          rw [left_bind_ok hr]
          rcases ih h hxs with ⟨hs, hall⟩ | ⟨hs, y, hy, hfails⟩
          · exact .inl ⟨hs, List.forall_mem_cons.mpr ⟨fun hpassed => absurd hpassed hdue, hall⟩⟩
          · exact .inr ⟨hs, y, List.mem_cons_of_mem x hy, hfails⟩
      | approved hdue hcall =>
          have hcloses : Closes x { x with status := .CLOSED, analysisResult := some .EXPIRED }
              .EXPIRED := ⟨rfl, rfl, rfl, rfl⟩
          rw [left_bind_ok hr]
          rcases ih (h.close hx.1 hopen hcloses) (hfound.tail hcloses.id _) with
            ⟨hs, hall⟩ | ⟨hs, y, hy, hfails⟩
          · exact .inl ⟨hs, List.forall_mem_cons.mpr ⟨fun _ => hcall, hall⟩⟩
          · exact .inr ⟨hs, y, List.mem_cons_of_mem x hy, hfails⟩
      | failed e hdue hcall =>
          rw [left_bind_error hr]
          refine .inr ⟨h.not_decided hx.1 hopen ⟨rfl, rfl, rfl, rfl⟩, x, List.mem_cons_self, hdue, ?_⟩
          rw [hcall]
          rintro ⟨⟩

/-- A step from sound warnings. -/
theorem Sound.step (h : Sound before w) (c : Command) :
    (Sound before (step w c) ∧ Answered w c) ∨
      (¬ Decided before (Compliance.step w c) ∧ ¬ Answered w c) := by
  cases c with
  | close => exact .inl ⟨h.closeWarningTransaction, trivial⟩
  | sync pixPaymentService now =>
      rcases h.expireAll now pixPaymentService
        found_getAllInAnalysis with hgood | ⟨hbad, x, hx, hdue, hfails⟩
      · exact .inl hgood
      · exact .inr ⟨hbad, fun hall => hfails (hall x hx hdue)⟩

end

/-- The warnings are decided after every step of a run if and only if no call of the job fails. -/
theorem closed_decided (w : World) (h : w.Analysed) (cs : List Command) :
    (∀ ds, ds <+: cs → Decided w (run step w ds)) ↔ Along step Answered w cs := by
  refine along_iff (I := Sound w) (P := Decided w) (fun _ hs => hs.decided)
    (fun v c hs => ?_) (fun v c hs hc => ?_) h.sound cs
  · rcases hs.step c with ⟨hgood, hc⟩ | ⟨hbad, hc⟩
    · exact iff_of_true hgood.decided hc
    · exact iff_of_false hbad hc
  · rcases hs.step c with ⟨hgood, -⟩ | ⟨-, hno⟩
    · exact hgood
    · exact absurd hc hno

/-! A warning of a deposit with the operation 7 is in analysis; the PIX service is not reached. -/

def sampleWarning : WarningTransaction := ⟨1, 7, .SENT, none, none, 0⟩

def sampleWorld : World := ⟨Table.empty.upsert sampleWarning, []⟩

theorem sampleWorld_analysed : sampleWorld.Analysed where
  apart x hx y hy _ := by
    obtain rfl := List.mem_singleton.mp hx
    exact (List.mem_singleton.mp hy).symm
  closed x hx hclosed := by
    obtain rfl := List.mem_singleton.mp hx
    cases hclosed
  held _ _ _ _ := List.not_mem_nil
  one _ h := absurd h List.not_mem_nil

/-- Services that answer every call. -/
def readyPixPayments : PixPaymentService := ⟨fun _ => .ok (), fun _ => .ok ()⟩

/-- Services that are not reached. -/
def unreachedPixPayments : PixPaymentService :=
  ⟨fun _ => .error (.service "timeout"), fun _ => .error (.service "timeout")⟩

theorem closed_decided_expired :
    (∀ ds, ds <+: [.sync readyPixPayments fun _ => 300000000] →
        Decided sampleWorld (run step sampleWorld ds)) ↔
      Along step Answered sampleWorld [.sync readyPixPayments fun _ => 300000000] :=
  closed_decided sampleWorld sampleWorld_analysed _

/-- The warning is stored closed, and its deposit is held. -/
theorem expired_undecided :
    ¬ ∀ w : World, w.Analysed → ∀ cs, Decided w (run step w cs) := by
  intro h
  have hdecided := h sampleWorld sampleWorld_analysed
    [.sync unreachedPixPayments fun _ => 300000000]
  have hrow : { sampleWarning with status := .CLOSED, analysisResult := some .EXPIRED } ∈
      (run step sampleWorld
        [.sync unreachedPixPayments fun _ => 300000000]).warningTransactions.rows := by decide
  exact absurd (hdecided.approved _ hrow rfl (.inr rfl)) (by decide)

end ZroServices.Compliance
