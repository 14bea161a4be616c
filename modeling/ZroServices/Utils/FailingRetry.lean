import ZroServices.Foundation.Outcome
import ZroServices.Utils.PushRetry

/-!
# Utils — the retry agent when calls fail

A tick of the agent sets `isRunning` first, and puts it back last.  Between the two, each retry is
emitted and deleted, and nothing catches what these calls raise.  Once one raises, `isRunning` stays
set, and every later tick returns at once.

No tick disturbs the other retries exactly when none of the calls that the ticks are about to make
raises (`undisturbed_iff`).

Here a tick is one step, and retries are pushed between two ticks.
-/

namespace ZroServices.PushRetry.Failing

open Foundation

/-- An object of the queue. -/
structure Queued where
  ref : ℕ
  retry : Retry
  deriving DecidableEq, Repr

/-- What the emissions and the deletions of a tick answer. -/
structure Calls where
  emit : String → Queued → Except String Unit
  delete : Queued → Except String Unit

structure State where
  retries : Table RetryModel
  retryQueue : List Queued
  isRunning : Bool
  /-- The objects that were emitted, with their topics. -/
  emitted : List (Queued × String)
  /-- How many objects there ever were. -/
  next : ℕ

abbrev Agent := EStateM String State

namespace State

variable (s : State)

def emit (e : Queued) (topic : String) : State := { s with emitted := s.emitted ++ [(e, topic)] }

/-- `DeleteRetryUseCase.execute`: a row that is not there, or deleted, is left. -/
def delete (e : Queued) : State :=
  match (s.retries.get? e.retry.id).filter fun row => row.deleted = false with
  | some row => { s with retries := s.retries.set { row with deleted := true } }
  | none => s

/-- `this.retryQueue.filter((r) => !batch.includes(r))`. -/
def remove (batch : List Queued) : State :=
  { s with retryQueue := s.retryQueue.filter fun e => decide (e ∉ batch) }

/-- `handlePushRetryEvent`.  A retry whose row is deleted does not get into the queue. -/
def push (retry : Retry) : State :=
  match s.retries.get? retry.id with
  | none =>
      { s with
        retries := s.retries.upsert ⟨retry, false⟩
        retryQueue := s.retryQueue ++ [⟨s.next, retry⟩]
        next := s.next + 1 }
  | some row =>
      if row.deleted then s
      else { s with retryQueue := s.retryQueue ++ [⟨s.next, retry⟩], next := s.next + 1 }

end State

def setRunning (isRunning : Bool) (s : State) : State := { s with isRunning := isRunning }

/-- One round of a loop, which sends to the topic of the retry. -/
def fire (calls : Calls) (topic : Retry → String) (e : Queued) : Agent Unit := do
  call (calls.emit (topic e.retry) e)
  modify (·.emit e (topic e.retry))
  call (calls.delete e)
  modify (·.delete e)

def handleRetryEvent (calls : Calls) (now : ℤ) : Agent Unit := do
  let s ← get
  if s.isRunning then
    return ()
  else do
    modify (setRunning true)
    let retryQueue := s.retryQueue.filter fun e =>
      decide (e.retry.retryAt ≤ now ∧ now < e.retry.abortAt)
    retryQueue.forM (fire calls (·.retryQueue))
    modify (·.remove retryQueue)
    let s ← get
    let abortQueue := s.retryQueue.filter fun e => decide (e.retry.abortAt ≤ now)
    abortQueue.forM (fire calls (·.failQueue))
    modify (·.remove abortQueue)
    modify (setRunning false)

/-! ### Ticks -/

/-- A tick, and what was pushed since the last one. -/
structure Tick where
  pushed : List Retry
  now : ℤ
  calls : Calls

def State.start : State := ⟨Table.empty, [], false, [], 0⟩

/-- The state in which a tick finds the agent, after what was pushed. -/
def State.pushAll (s : State) (pushed : List Retry) : State := pushed.foldl State.push s

/-- The state after so many ticks. -/
def stateAfter (ticks : ℕ → Tick) : ℕ → State
  | 0 => .start
  | k + 1 =>
      left (handleRetryEvent (ticks k).calls (ticks k).now)
        ((stateAfter ticks k).pushAll (ticks k).pushed)

/-- The state before a tick. -/
def stateBefore (ticks : ℕ → Tick) (k : ℕ) : State :=
  (stateAfter ticks k).pushAll (ticks k).pushed

/-- The time of a retry has come. -/
def Due (now : ℤ) (e : Queued) : Prop := e.retry.retryAt ≤ now

/-- Where a retry is sent that is due. -/
def topicAt (now : ℤ) (r : Retry) : String :=
  if now < r.abortAt then r.retryQueue else r.failQueue

/-- The two calls for a retry, sent to a topic, return. -/
def Calls.Answer (calls : Calls) (topic : Retry → String) (e : Queued) : Prop :=
  calls.emit (topic e.retry) e = .ok () ∧ calls.delete e = .ok ()

/-- No call for a retry raises at any tick. -/
def Calm (ticks : ℕ → Tick) (e : Queued) : Prop :=
  ∀ k, (ticks k).calls.delete e = .ok () ∧ ∀ topic, (ticks k).calls.emit topic e = .ok ()

/-- No tick is left running, and every retry whose time has come, and for which no call raises, is
emitted by that tick or a later one. -/
structure Undisturbed (ticks : ℕ → Tick) : Prop where
  idle : ∀ k, (stateAfter ticks k).isRunning = false
  emitted : ∀ k, ∀ e ∈ (stateBefore ticks k).retryQueue, Due (ticks k).now e → Calm ticks e →
    ∃ k', k ≤ k' ∧ e ∈ (stateAfter ticks (k' + 1)).emitted.map Prod.fst

variable {calls : Calls} {now : ℤ} {s : State} {topic : Retry → String} {ticks : ℕ → Tick}

/-! ### What a tick does -/

/-- A round of a loop that returns. -/
def State.fired (topic : Retry → String) (s : State) (e : Queued) : State :=
  (s.emit e (topic e.retry)).delete e

theorem delete_isRunning (s : State) (e : Queued) : (s.delete e).isRunning = s.isRunning := by
  rw [State.delete]
  split <;> rfl

theorem delete_emitted (s : State) (e : Queued) : (s.delete e).emitted = s.emitted := by
  rw [State.delete]
  split <;> rfl

theorem delete_retryQueue (s : State) (e : Queued) : (s.delete e).retryQueue = s.retryQueue := by
  rw [State.delete]
  split <;> rfl

theorem outcome_fire (calls : Calls) (topic : Retry → String) (e : Queued) (s : State) :
    Outcome (fire calls topic e) s
      (fun _ s' => calls.Answer topic e ∧ s' = s.fired topic e)
      fun _ s' => ¬ calls.Answer topic e ∧ s'.isRunning = s.isRunning := by
  rw [fire, outcome_bind, outcome_call]
  constructor
  · intro err herr
    refine ⟨fun h => ?_, rfl⟩
    cases herr.symm.trans h.1
  · intro sent hsent
    rw [outcome_bind, outcome_modify, outcome_bind, outcome_call]
    constructor
    · intro err herr
      refine ⟨fun h => ?_, rfl⟩
      cases herr.symm.trans h.2
    · intro deleted hdeleted
      exact ⟨⟨hsent, hdeleted⟩, rfl⟩

/-- The rounds of a loop that returns. -/
theorem outcome_fireAll (calls : Calls) (topic : Retry → String) (l : List Queued) (s : State) :
    Outcome (l.forM (fire calls topic)) s
      (fun _ s' => (∀ e ∈ l, calls.Answer topic e) ∧ s' = l.foldl (State.fired topic) s ∧
        s'.isRunning = s.isRunning)
      fun _ s' => (¬ ∀ e ∈ l, calls.Answer topic e) ∧ s'.isRunning = s.isRunning :=
  outcome_forM (p := State.isRunning) (outcome_fire calls topic)
    (fun s e => delete_isRunning (s.emit e (topic e.retry)) e) l s

theorem fired_foldl (topic : Retry → String) (l : List Queued) (s : State) :
    (l.foldl (State.fired topic) s).retryQueue = s.retryQueue ∧
      (l.foldl (State.fired topic) s).emitted =
        s.emitted ++ l.map fun e => (e, topic e.retry) := by
  induction l generalizing s with
  | nil => exact ⟨rfl, (List.append_nil _).symm⟩
  | cons e l ih =>
      obtain ⟨hqueue, hemitted⟩ := ih (s.fired topic e)
      refine ⟨hqueue.trans (delete_retryQueue _ e), hemitted.trans ?_⟩
      rw [State.fired, delete_emitted, State.emit, List.append_assoc]
      rfl

/-- The calls that a tick is about to make return. -/
def Answered (calls : Calls) (now : ℤ) (s : State) : Prop :=
  ∀ e ∈ s.retryQueue, Due now e → calls.Answer (topicAt now) e

/-- The retries of the first loop, and those of the second. -/
theorem answered_iff :
    Answered calls now s ↔
      (∀ e ∈ s.retryQueue.filter fun e => decide (e.retry.retryAt ≤ now ∧ now < e.retry.abortAt),
        calls.Answer (·.retryQueue) e) ∧
      ∀ e ∈ s.retryQueue.filter fun e => decide (e.retry.abortAt ≤ now),
        calls.Answer (·.failQueue) e := by
  simp only [List.mem_filter, decide_eq_true_eq, and_imp]
  constructor
  · intro h
    refine ⟨fun e he hdue hlt => ?_, fun e he habort => ?_⟩
    · have hanswer := h e he hdue
      rwa [Calls.Answer, topicAt, if_pos hlt] at hanswer
    · have hanswer := h e he (Int.le_trans e.retry.le habort)
      rwa [Calls.Answer, topicAt, if_neg (Int.not_lt.mpr habort)] at hanswer
  · rintro ⟨hretry, habort⟩ e he hdue
    rw [Calls.Answer, topicAt]
    by_cases hlt : now < e.retry.abortAt
    · rw [if_pos hlt]
      exact hretry e he hdue hlt
    · rw [if_neg hlt]
      exact habort e he (Int.not_lt.mp hlt)

/-- A tick that finds no other running ends, with every retry emitted that is due, when its calls
return.  Otherwise it is left running. -/
theorem outcome_handleRetryEvent (hidle : s.isRunning = false) :
    Outcome (handleRetryEvent calls now) s
      (fun _ s' => Answered calls now s ∧ s'.isRunning = false ∧
        ∀ e ∈ s.retryQueue, Due now e → e ∈ s'.emitted.map Prod.fst)
      fun _ s' => ¬ Answered calls now s ∧ s'.isRunning = true := by
  rw [handleRetryEvent, outcome_bind, outcome_get, if_neg (by simp [hidle]), outcome_bind,
    outcome_modify]
  dsimp only
  generalize hdue : (s.retryQueue.filter fun e =>
    decide (e.retry.retryAt ≤ now ∧ now < e.retry.abortAt)) = due
  rw [outcome_bind]
  refine (outcome_fireAll calls (·.retryQueue) due (setRunning true s)).mono ?_ ?_
  · rintro _ s₁ ⟨hfirst, hs₁, hrunning⟩
    obtain ⟨hqueue, hemitted⟩ := hs₁ ▸ fired_foldl (·.retryQueue) due (setRunning true s)
    rw [outcome_bind, outcome_modify, outcome_bind, outcome_get, outcome_bind]
    -- none of the first loop has run out of time
    have habort : ((s₁.remove due).retryQueue.filter fun e => decide (e.retry.abortAt ≤ now)) =
        s.retryQueue.filter fun e => decide (e.retry.abortAt ≤ now) := by
      rw [State.remove, hqueue, List.filter_filter]
      refine List.filter_congr fun e he => ?_
      rw [← hdue, ← Bool.decide_and, decide_eq_decide, List.mem_filter, decide_eq_true_eq]
      exact ⟨fun h => h.1, fun h => ⟨h, fun hmem => Int.not_lt.mpr h hmem.2.2⟩⟩
    rw [habort]
    refine (outcome_fireAll calls (·.failQueue) _ (s₁.remove due)).mono ?_ ?_
    · rintro _ s₂ ⟨hsecond, hs₂, -⟩
      obtain ⟨-, hemitted₂⟩ := hs₂ ▸ fired_foldl (·.failQueue)
        (s.retryQueue.filter fun e => decide (e.retry.abortAt ≤ now)) (s₁.remove due)
      refine ⟨answered_iff.mpr ⟨hdue.symm ▸ hfirst, hsecond⟩, rfl, fun e he hcome => ?_⟩
      change e ∈ s₂.emitted.map Prod.fst
      rw [hemitted₂, List.map_append, List.mem_append]
      by_cases hlt : now < e.retry.abortAt
      · have hmem : e ∈ due := hdue ▸ List.mem_filter.mpr ⟨he, decide_eq_true ⟨hcome, hlt⟩⟩
        refine .inl ?_
        change e ∈ s₁.emitted.map Prod.fst
        rw [hemitted, List.map_append, List.map_map]
        exact List.mem_append_right _ (List.mem_map.mpr ⟨e, hmem, rfl⟩)
      · refine .inr ?_
        rw [List.map_map]
        exact List.mem_map.mpr
          ⟨e, List.mem_filter.mpr ⟨he, decide_eq_true (Int.not_lt.mp hlt)⟩, rfl⟩
    · rintro _ s₂ ⟨hsecond, hrunning₂⟩
      exact ⟨fun h => hsecond (answered_iff.mp h).2, hrunning₂.trans hrunning⟩
  · rintro _ s₁ ⟨hfirst, hrunning⟩
    exact ⟨fun h => hfirst (hdue ▸ (answered_iff.mp h).1), hrunning⟩

/-! ### Every tick -/

theorem push_isRunning (s : State) (retry : Retry) : (s.push retry).isRunning = s.isRunning := by
  rw [State.push]
  split
  · rfl
  · split_ifs <;> rfl

theorem pushAll_isRunning (pushed : List Retry) (s : State) :
    (s.pushAll pushed).isRunning = s.isRunning := by
  induction pushed generalizing s with
  | nil => rfl
  | cons retry pushed ih => exact (ih (s.push retry)).trans (push_isRunning s retry)

/-- A tick before which none was running: it is left running when one of its calls raises. -/
theorem idle_succ_iff {k : ℕ} (hidle : (stateAfter ticks k).isRunning = false) :
    (stateAfter ticks (k + 1)).isRunning = false ↔
      Answered (ticks k).calls (ticks k).now (stateBefore ticks k) := by
  have hbefore : (stateBefore ticks k).isRunning = false :=
    (pushAll_isRunning _ _).trans hidle
  refine (left_iff (P := fun s' : State => s'.isRunning = false ↔ _)).mpr
    ((outcome_handleRetryEvent hbefore).mono ?_ ?_)
  · rintro _ s' ⟨hanswered, hrunning, -⟩
    exact iff_of_true hrunning hanswered
  · rintro _ s' ⟨hanswered, hrunning⟩
    rw [hrunning]
    exact iff_of_false (fun h => Bool.noConfusion h) hanswered

theorem idle_iff : (∀ k, (stateAfter ticks k).isRunning = false) ↔
    ∀ k, Answered (ticks k).calls (ticks k).now (stateBefore ticks k) := by
  constructor
  · intro h k
    exact (idle_succ_iff (h k)).mp (h (k + 1))
  · intro h k
    induction k with
    | zero => rfl
    | succ k ih => exact (idle_succ_iff ih).mpr (h k)

/-- What is due at a tick that finds no other running, and whose calls return, is emitted by it. -/
theorem emitted_of_answered {k : ℕ} (hidle : (stateAfter ticks k).isRunning = false)
    (hanswered : Answered (ticks k).calls (ticks k).now (stateBefore ticks k)) {e : Queued}
    (he : e ∈ (stateBefore ticks k).retryQueue) (hdue : Due (ticks k).now e) :
    e ∈ (stateAfter ticks (k + 1)).emitted.map Prod.fst := by
  have hbefore : (stateBefore ticks k).isRunning = false :=
    (pushAll_isRunning _ _).trans hidle
  refine (left_iff (P := fun s' : State => e ∈ s'.emitted.map Prod.fst)).mpr
    ((outcome_handleRetryEvent hbefore).mono ?_ ?_)
  · rintro _ s' ⟨-, -, hemitted⟩
    exact hemitted e he hdue
  · rintro _ s' ⟨hnot, -⟩
    exact absurd hanswered hnot

theorem push_emitted (s : State) (retry : Retry) : (s.push retry).emitted = s.emitted := by
  rw [State.push]
  split
  · rfl
  · split_ifs <;> rfl

theorem pushAll_emitted (pushed : List Retry) (s : State) :
    (s.pushAll pushed).emitted = s.emitted := by
  induction pushed generalizing s with
  | nil => rfl
  | cons retry pushed ih => exact (ih (s.push retry)).trans (push_emitted s retry)

/-- A tick that is left running is the last one that emits anything. -/
theorem emitted_of_running {k : ℕ} (h : (stateAfter ticks k).isRunning = true) (n : ℕ) :
    (stateAfter ticks (k + n)).isRunning = true ∧
      (stateAfter ticks (k + n)).emitted = (stateAfter ticks k).emitted := by
  induction n with
  | zero => exact ⟨h, rfl⟩
  | succ n ih =>
      obtain ⟨hrunning, hemitted⟩ := ih
      have hbefore : (stateBefore ticks (k + n)).isRunning = true :=
        (pushAll_isRunning _ _).trans hrunning
      have hsame : stateAfter ticks (k + n + 1) = stateBefore ticks (k + n) := by
        refine (left_iff (P := fun s' : State => s' = stateBefore ticks (k + n))).mpr ?_
        rw [handleRetryEvent, outcome_bind, outcome_get]
        change Outcome (if (stateBefore ticks (k + n)).isRunning = true then _ else _) _ _ _
        rw [if_pos hbefore]
        rfl
      rw [← Nat.add_assoc, hsame]
      exact ⟨hbefore, (pushAll_emitted _ _).trans hemitted⟩

/-- The ticks leave the agent free and the other retries emitted as long as none of their calls
raises. -/
theorem undisturbed_iff : Undisturbed ticks ↔
    ∀ k, Answered (ticks k).calls (ticks k).now (stateBefore ticks k) := by
  constructor
  · intro h
    exact idle_iff.mp h.idle
  · intro h
    have hidle := idle_iff.mpr h
    exact ⟨hidle, fun k e he hdue _ =>
      ⟨k, Nat.le_refl k, emitted_of_answered (hidle k) (h k) he hdue⟩⟩

/-! ### A topic that cannot be reached -/

namespace OneTopic

/-- A retry that is due at once. -/
def retryTo (id : Uuid) (topic : String) : Retry := ⟨id, 1, topic, "failed", 0, 10, "", by decide⟩

/-- The first retry goes to a topic where no emission arrives, and the second to another. -/
def oneTopicDown : ℕ → Tick
  | 0 => ⟨[retryTo 1 "down", retryTo 2 "up"], 0, calls⟩
  | k + 1 => ⟨[], k + 1, calls⟩
where
  calls : Calls :=
    ⟨fun _ e => if e.retry.retryQueue = "down" then .error "" else .ok (), fun _ => .ok ()⟩

def second : Queued := ⟨1, retryTo 2 "up"⟩

theorem calm_second : Calm oneTopicDown second := by
  intro k
  cases k <;> exact ⟨rfl, fun _ => rfl⟩

end OneTopic

open OneTopic

/-- The second retry waits forever. -/
theorem not_undisturbed : ¬ Undisturbed oneTopicDown := by
  intro h
  obtain ⟨k, -, hk⟩ := h.emitted 0 second (by decide +kernel) (by unfold Due; decide) calm_second
  have hrunning : (stateAfter oneTopicDown 1).isRunning = true := by decide +kernel
  have hemitted := (emitted_of_running hrunning k).2
  rw [Nat.add_comm k 1, hemitted] at hk
  revert hk
  decide +kernel

end ZroServices.PushRetry.Failing
