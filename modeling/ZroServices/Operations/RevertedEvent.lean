import ZroServices.Operations.UserLimits

/-!
# Operations — handling the event of a reverted operation

`HandleRevertedOperationEventController` rebuilds the operations from the event and
`HandleRevertedOperationEventUseCase` gives the value of the operation back to the tracker it was
charged to, and empties the operation's tags.

The controller attaches the tracker to the operations by hand.  In its beneficiary half it
attaches it to the *owner's* operation, as its code does: a shared operation is given back once,
through its owner half; for an operation without an owner there is nothing to attach it to.

The observer catches what the handler throws, so an execution leaves what it has written
(`App.exec`).
-/

namespace ZroServices

open Foundation

/-- The world after code whose exceptions are caught. -/
def App.exec {α : Type} (x : App α) (w : World) : World :=
  match x w with
  | .ok _ w' => w'
  | .error _ w' => w'

/-- An operation as the controller rebuilds it: what the event says, and the tracker entity that
was attached, whose id may be missing. -/
structure RevertedOperation where
  item : OperationItem
  userLimitTracker : Option (Option Uuid)
  deriving DecidableEq, Repr

namespace HandleRevertedOperationEventUseCase

variable (env : Env) (now : ℤ)

/-- `used -= value`, and `0` instead of a negative result. -/
def subtract (used value : ℤ) : ℤ := if used - value < 0 then 0 else used - value

/-- `revertUserLimitTrackerByIntervalPeriod`. -/
def revertUserLimitTrackerByIntervalPeriod (o : OperationItem) (t : UserLimitTracker) :
    UserLimitTracker :=
  { t with
    usedDailyLimit :=
      if .DAILY_INTERVAL_LIMIT_INCLUDED ∈ o.analysisTags then subtract t.usedDailyLimit o.value
      else t.usedDailyLimit
    usedMonthlyLimit :=
      if .MONTHLY_INTERVAL_LIMIT_INCLUDED ∈ o.analysisTags then
        subtract t.usedMonthlyLimit o.value
      else t.usedMonthlyLimit
    usedAnnualLimit :=
      if .ANNUAL_INTERVAL_LIMIT_INCLUDED ∈ o.analysisTags then subtract t.usedAnnualLimit o.value
      else t.usedAnnualLimit }

/-- `revertUserLimitTrackerByDatePeriod`. -/
def revertUserLimitTrackerByDatePeriod (o : OperationItem) (t : UserLimitTracker) :
    UserLimitTracker :=
  { t with
    usedDailyLimit :=
      if 0 < t.usedDailyLimit ∧ startOf .day now ≤ o.createdAt then
        subtract t.usedDailyLimit o.value
      else t.usedDailyLimit
    usedMonthlyLimit :=
      if 0 < t.usedMonthlyLimit ∧ startOf .month now ≤ o.createdAt then
        subtract t.usedMonthlyLimit o.value
      else t.usedMonthlyLimit
    usedAnnualLimit :=
      if 0 < t.usedAnnualLimit ∧ startOf .year now ≤ o.createdAt then
        subtract t.usedAnnualLimit o.value
      else t.usedAnnualLimit }

/-- The nightly counter is decremented when the operation was made at night and it is night. -/
def revertNightly (l : UserLimit) (o : OperationItem) (t : UserLimitTracker) : UserLimitTracker :=
  if l.isInNighttimeInterval env.serverOffset now o.createdAt ∧
      l.isInNighttimeInterval env.serverOffset now now then
    { t with usedNightlyLimit := subtract t.usedNightlyLimit o.value }
  else t

/-- The tracker once the operation is given back. -/
def revertUserLimitTracker (l : UserLimit) (o : OperationItem) (t : UserLimitTracker) :
    UserLimitTracker :=
  let t :=
    if .DAILY_INTERVAL_LIMIT_INCLUDED ∈ o.analysisTags ∨
        .MONTHLY_INTERVAL_LIMIT_INCLUDED ∈ o.analysisTags ∨
        .ANNUAL_INTERVAL_LIMIT_INCLUDED ∈ o.analysisTags then
      revertUserLimitTrackerByIntervalPeriod o t
    else t
  let t :=
    if .DATE_LIMIT_INCLUDED ∈ o.analysisTags then revertUserLimitTrackerByDatePeriod now o t else t
  revertNightly env now l o t

/-- `getUserLimitTrackerWithUserLimit`.  A query for an id that is missing is an error of the
database layer. -/
def getUserLimitTrackerWithUserLimit (id : Option Uuid) : App TrackedLimit := do
  let id ← orThrow id (.typeError "WHERE parameter id has invalid undefined value")
  let t ← readDb (·.userLimitTrackers.get? id)
  let t ← orThrow t (.userLimitTrackerNotFound (some id))
  let l ← readDb (·.userLimits.get? t.userLimit)
  let l ← orThrow l (.userLimitNotFound t.userLimit)
  return ⟨l, t⟩

/-- `updateOperationAndUserLimitTracker`. -/
def updateOperationAndUserLimitTracker (o : OperationItem) (c : TrackedLimit) : App Unit := do
  OperationRepository.updateAnalysisTags o.id []
  UserLimitTrackerRepository.update now (revertUserLimitTracker env now c.userLimit o c.tracker)

/-- One half of `execute`; whether it goes on to the next half.  An operation without a tracker,
or without tags, ends the execution. -/
def handleOperation : Option RevertedOperation → App Bool
  | none => return true
  | some o =>
      match o.userLimitTracker with
      | none => return false
      | some id =>
          if o.item.analysisTags = [] then return false
          else do
            let c ← getUserLimitTrackerWithUserLimit id
            updateOperationAndUserLimitTracker env now o.item c
            return true

/-- `HandleRevertedOperationEventUseCase.execute`. -/
def execute (ownerOperation beneficiaryOperation : Option RevertedOperation) : App Unit := do
  throwIf (ownerOperation = none ∧ beneficiaryOperation = none)
    (.missingData ["At least one operation"])
  let goOn ← handleOperation env now ownerOperation
  let _ ← handleOperation env now (if goOn then beneficiaryOperation else none)
  return ()

end HandleRevertedOperationEventUseCase

namespace HandleRevertedOperationEventController

variable (env : Env) (now : ℤ)

/-- The owner's operation of the event. -/
def ownerOperation (i : OperationEventItem) : RevertedOperation :=
  ⟨i.item, some i.item.userLimitTrackerId⟩

/-- The beneficiary's operation of the event: no tracker is attached to it. -/
def beneficiaryOperation (i : OperationEventItem) : RevertedOperation := ⟨i.item, none⟩

/-- `HandleRevertedOperationEventController.execute`. -/
def execute (request : OperationControllerEvent) : App Unit :=
  match request.ownerOperation, request.beneficiaryOperation with
  | none, none => HandleRevertedOperationEventUseCase.execute env now none none
  | some o, none => HandleRevertedOperationEventUseCase.execute env now (some (ownerOperation o)) none
  | some o, some b =>
      HandleRevertedOperationEventUseCase.execute env now
        (some { ownerOperation o with userLimitTracker := some b.item.userLimitTrackerId })
        (some (beneficiaryOperation b))
  | none, some _ =>
      throw (.typeError "Cannot set properties of null (setting 'userLimitTracker')")

end HandleRevertedOperationEventController

/-! ### What handling an event does -/

namespace HandleRevertedOperationEventUseCase

variable (env : Env) (now : ℤ)

/-- The database once an operation was given back to its tracker. -/
def givenBack (o : OperationItem) (c : TrackedLimit) (db : Db) : Db :=
  { db with
    operations := OperationRepository.withAnalysisTags db.operations o.id []
    userLimitTrackers := db.userLimitTrackers.set
      { revertUserLimitTracker env now c.userLimit o c.tracker with updatedAt := now } }

variable {env now} {o : RevertedOperation} {c : TrackedLimit} {id : Uuid} {w w' : World}

theorem updateOperationAndUserLimitTracker_ok :
    updateOperationAndUserLimitTracker env now o.item c w
      = .ok () { w with db := givenBack env now o.item c w.db } := by
  rw [updateOperationAndUserLimitTracker, 
    bind_of_ok ((OperationRepository.updateAnalysisTags_ok (t := ())).mpr rfl)]
  exact UserLimitTrackerRepository.update_ok.mpr rfl

/-- The tracker and the limit that a handled operation finds. -/
def Finds (db : Db) (id : Option Uuid) (c : TrackedLimit) : Prop :=
  ∃ i, id = some i ∧ db.userLimitTrackers.get? i = some c.tracker ∧
    db.userLimits.get? c.tracker.userLimit = some c.userLimit

theorem getUserLimitTrackerWithUserLimit_ok {id : Option Uuid} (h : Finds w.db id c) :
    getUserLimitTrackerWithUserLimit id w = .ok c w := by
  obtain ⟨i, rfl, ht, hl⟩ := h
  rw [getUserLimitTrackerWithUserLimit, bind_of_ok (orThrow_ok.mpr ⟨rfl, rfl⟩),
    bind_of_ok (readDb_ok.mpr ⟨rfl, rfl⟩), bind_of_ok (orThrow_ok.mpr ⟨ht, rfl⟩),
    bind_of_ok (readDb_ok.mpr ⟨rfl, rfl⟩), bind_of_ok (orThrow_ok.mpr ⟨hl, rfl⟩)]
  rfl

/-- What is not found ends the execution before anything is written. -/
theorem getUserLimitTrackerWithUserLimit_error (id : Option Uuid)
    (h : ¬ ∃ c, Finds w.db id c) : ∃ e, getUserLimitTrackerWithUserLimit id w = .error e w := by
  rw [getUserLimitTrackerWithUserLimit]
  cases id with
  | none => exact ⟨_, bind_of_error (orThrow_error.mpr ⟨rfl, rfl, rfl⟩)⟩
  | some i =>
      rw [bind_of_ok (orThrow_ok.mpr ⟨rfl, rfl⟩), bind_of_ok (readDb_ok.mpr ⟨rfl, rfl⟩)]
      cases ht : w.db.userLimitTrackers.get? i with
      | none => exact ⟨_, bind_of_error (orThrow_error.mpr ⟨rfl, rfl, rfl⟩)⟩
      | some t =>
          rw [bind_of_ok (orThrow_ok.mpr ⟨rfl, rfl⟩), bind_of_ok (readDb_ok.mpr ⟨rfl, rfl⟩)]
          cases hl : w.db.userLimits.get? t.userLimit with
          | none => exact ⟨_, bind_of_error (orThrow_error.mpr ⟨rfl, rfl, rfl⟩)⟩
          | some l => exact absurd ⟨⟨l, t⟩, i, rfl, ht, hl⟩ h

/-- One half gives the operation back when it has tags and an attached tracker that is found. -/
theorem handleOperation_ok {id : Option Uuid} (hid : o.userLimitTracker = some id)
    (htags : o.item.analysisTags ≠ []) (h : Finds w.db id c) :
    handleOperation env now (some o) w
      = .ok true { w with db := givenBack env now o.item c w.db } := by
  rw [handleOperation, hid]
  simp only [if_neg htags]
  rw [bind_of_ok (getUserLimitTrackerWithUserLimit_ok h),
    bind_of_ok updateOperationAndUserLimitTracker_ok]
  rfl

variable (env now) in
/-- Otherwise it ends the execution and changes nothing. -/
theorem handleOperation_stop (o : RevertedOperation)
    (h : ∀ id c, o.userLimitTracker = some id → Finds w.db id c → o.item.analysisTags = []) :
    handleOperation env now (some o) w = .ok false w ∨
      ∃ e, handleOperation env now (some o) w = .error e w := by
  rw [handleOperation]
  cases hid : o.userLimitTracker with
  | none => exact Or.inl rfl
  | some id =>
      by_cases htags : o.item.analysisTags = []
      · simp only [if_pos htags]
        exact Or.inl rfl
      · simp only [if_neg htags]
        obtain ⟨e, he⟩ := getUserLimitTrackerWithUserLimit_error (w := w) id
          fun ⟨c, hc⟩ => htags (h id c hid hc)
        exact Or.inr ⟨e, bind_of_error he⟩

end HandleRevertedOperationEventUseCase

namespace HandleRevertedOperationEventController

open HandleRevertedOperationEventUseCase

variable {env : Env} {now : ℤ} {w : World}

/-- The tracker that the controller attaches to the owner's operation. -/
def attachedTracker (o : OperationEventItem) (b : Option OperationEventItem) : Option Uuid :=
  match b with
  | none => o.item.userLimitTrackerId
  | some b => b.item.userLimitTrackerId

/-- The owner's operation as it reaches the use case. -/
def attached (o : OperationEventItem) (b : Option OperationEventItem) : RevertedOperation :=
  ⟨o.item, some (attachedTracker o b)⟩

theorem execute_owner (o : OperationEventItem) (b : Option OperationEventItem) :
    execute env now ⟨some o, b⟩
      = HandleRevertedOperationEventUseCase.execute env now (some (attached o b))
        (b.map beneficiaryOperation) := by
  cases b <;> rfl

variable (env now) in
/-- The beneficiary half never gives anything back. -/
theorem handleBeneficiary (b : Option OperationEventItem) (w : World) :
    ∃ goOn, handleOperation env now (b.map beneficiaryOperation) w = .ok goOn w := by
  cases b with
  | none => exact ⟨true, rfl⟩
  | some b => exact ⟨false, rfl⟩

/-- **What handling an event does.**  The owner's operation is given back, when it has tags and
its tracker is found. -/
theorem exec_given (o : OperationEventItem) (b : Option OperationEventItem)
    (htags : o.item.analysisTags ≠ []) {c : TrackedLimit}
    (h : Finds w.db (attachedTracker o b) c) :
    (execute env now ⟨some o, b⟩).exec w
      = { w with db := givenBack env now o.item c w.db } := by
  have owner : handleOperation env now (some (attached o b)) w
      = .ok true { w with db := givenBack env now o.item c w.db } :=
    handleOperation_ok rfl htags h
  obtain ⟨goOn, hb⟩ := handleBeneficiary env now b
    { w with db := givenBack env now o.item c w.db }
  rw [App.exec, execute_owner, HandleRevertedOperationEventUseCase.execute,
    bind_of_ok ((throwIf_ok (t := ())).mpr ⟨by simp, rfl⟩), bind_of_ok owner, if_pos rfl, bind_of_ok hb]
  rfl

/-- An event without an owner's operation, or whose operation has no tags or no tracker, changes
nothing. -/
theorem exec_stop (e : OperationControllerEvent)
    (h : ∀ o c, e.ownerOperation = some o →
      Finds w.db (attachedTracker o e.beneficiaryOperation) c → o.item.analysisTags = []) :
    (execute env now e).exec w = w := by
  obtain ⟨o, b⟩ := e
  cases o with
  | none => cases b <;> rfl
  | some o =>
      have owner := handleOperation_stop env now (attached o b) (w := w)
        fun id c hid hc => h o c rfl (by cases hid; exact hc)
      rw [App.exec, execute_owner, HandleRevertedOperationEventUseCase.execute,
        bind_of_ok ((throwIf_ok (t := ())).mpr ⟨by simp, rfl⟩)]
      rcases owner with howner | ⟨x, howner⟩
      · rw [bind_of_ok howner]
        rfl
      · rw [bind_of_error howner]

end HandleRevertedOperationEventController

end ZroServices
