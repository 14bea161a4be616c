import ZroServices.Foundation.Outcome
import ZroServices.Operations.IntervalSync
import ZroServices.Operations.RevertedRelease

/-!
# Operations — an operation leaves a counter once

Two executions take the value of an operation off the counters of an interval tracker.  The
handler of a reverted operation does so for the tags that its event carries, and empties the
stored tags; `SyncUpdateUserLimitTrackerByIntervalUseCase` does so for the tags that are stored,
and takes them away.  The handler calls the look at the tags its idempotence, but the tags of an
event are those of the moment when it was emitted.

Here an event may be delivered again, at any time, and the cron runs in between.
`State.released` notes what was subtracted.  While every event that is handled carries only
interval tags that are still stored, each value leaves each counter at most once, and a counter is
the sum of the values that are still on it (`run_released`).
-/

namespace ZroServices.ReleasedOnce

open Foundation
open CreateOperationUseCase HandleRevertedOperationEventUseCase
open HandleRevertedOperationEventController SyncUpdateUserLimitTrackerByIntervalUseCase

/-! ### The service, with events that are delivered again -/

/-- The service, the instant of the last step, and the counters that were lowered by the value of an
operation. -/
structure State where
  world : World
  clock : ℤ
  released : List (Uuid × MomentUnit)

/-- A step of the service.  An execution of the cron is `fuel` pages a rule long, or ends before. -/
inductive Label where
  | create (tag : String) (ownerInfo beneficiaryInfo : Option CreateOperationParticipant)
  | accept (id : Uuid)
  | revert (id : Uuid)
  | deliver (n : ℕ)
  | sync (order : CreatedAtOrder) (fuel : ℕ)

/-- Handle the `n`-th event, if it is of a reverted operation, and keep it. -/
def redeliver (env : Env) (now : ℤ) (n : ℕ) (w : World) : World :=
  match w.db.events[n]? with
  | some (.operation .REVERTED e) =>
      (HandleRevertedOperationEventController.execute env now e).exec w
  | _ => w

/-- The world after a step. -/
def exec (env : Env) (now : ℤ) (w : World) : Label → World
  | .create tag ownerInfo beneficiaryInfo =>
      execCommand env now w (.create tag ownerInfo beneficiaryInfo)
  | .accept id => execCommand env now w (.accept id)
  | .revert id => execCommand env now w (.revert id)
  | .deliver n => redeliver env now n w
  | .sync order fuel =>
      (SyncUpdateUserLimitTrackerByIntervalUseCase.execute order now fuel).exec w

/-- The counters whose tags are in a list. -/
def counters (tags : List OperationAnalysisTag) : List MomentUnit :=
  [.day, .month, .year].filter fun u => decide (u.tag ∈ tags)

/-- The stored tags of an operation. -/
def tagsOf (db : Db) (id : Uuid) : List OperationAnalysisTag :=
  ((db.operations.get? id).map (·.analysisTags)).getD []

/-- The operation of an event that is handled, and the counters that the event names. -/
def named (db : Db) (n : ℕ) : List (Uuid × MomentUnit) :=
  match db.delivered n with
  | some (item, _) => (counters item.analysisTags).map fun u => (item.id, u)
  | none => []

/-- The operations, and the counters whose tags they lost. -/
def lostTags (db db' : Db) : List (Uuid × MomentUnit) :=
  db.operations.rows.flatMap fun o =>
    ((counters o.analysisTags).filter fun u => decide (u.tag ∉ tagsOf db' o.id)).map fun u =>
      (o.id, u)

/-- The counters that a step lowers by the value of an operation. -/
def lowered (env : Env) (now : ℤ) (w : World) : Label → List (Uuid × MomentUnit)
  | .deliver n => named w.db n
  | .sync order fuel => lostTags w.db (exec env now w (.sync order fuel)).db
  | .create .. | .accept _ | .revert _ => []

def step (env : Env) (s : State) (l : ℤ × Label) : State where
  world := exec env l.1 s.world l.2
  clock := l.1
  released := s.released ++ lowered env l.1 s.world l.2

/-- An event that is handled names no counter whose tag its operation has lost. -/
def Label.Sound (w : World) : Label → Prop
  | .deliver n => ∀ p ∈ named w.db n, p.2.tag ∈ tagsOf w.db p.1
  | _ => True

/-- Time does not go back. -/
def Forward (s : State) (l : ℤ × Label) : Prop := s.clock ≤ l.1

instance (s : State) (l : ℤ × Label) : Decidable (Forward s l) :=
  inferInstanceAs (Decidable (_ ≤ _))

/-! ### What the counters are to be -/

/-- The operation has not left the interval.  One month before the 30th of March may be earlier than
one month before the 29th, so what has left an interval may be in it again. -/
def StillInside (clock : ℤ) (u : MomentUnit) (o : Operation) : Prop :=
  ∀ t ≤ clock, subtractOne u t ≤ o.createdAt

/-- The sum of the values that were charged to a tracker and not taken off a counter. -/
def remaining (operations : Table Operation) (released : List (Uuid × MomentUnit)) (tracker : Uuid)
    (u : MomentUnit) : ℤ :=
  operations.total fun o =>
    if o.userLimitTracker = some tracker ∧ (o.id, u) ∉ released then o.value else 0

/-- Every value leaves every counter at most once.  A counter is what remains of the values charged
to it, and not below the values of the operations that are still inside its interval. -/
structure OnceEach (s : State) : Prop where
  nodup : s.released.Nodup
  used : ∀ t ∈ s.world.db.userLimitTrackers.rows, t.periodStart = .INTERVAL → ∀ u,
    t.used u = remaining s.world.db.operations s.released t.id u
  covers : ∀ t ∈ s.world.db.userLimitTrackers.rows, t.periodStart = .INTERVAL → ∀ u,
    ∀ os : List Operation, os.Nodup →
      (∀ o ∈ os, o ∈ s.world.db.operations.rows ∧ o.userLimitTracker = some t.id ∧ o.Counts ∧
        StillInside s.clock u o) →
      (os.map (·.value)).sum ≤ t.used u

/-! ### An execution of the cron -/

section
variable {env : Env} {now : ℤ} {db db' : Db} {w : World} {order : CreatedAtOrder}
  {rule : OperationAnalysisTagRule} {rules rules' : List OperationAnalysisTagRule}
  {removed removed' : OperationAnalysisTag → List Uuid}

/-- What is taken away was due by one of the rules. -/
def OfRules (rules : List OperationAnalysisTagRule) (db : Db)
    (removed : OperationAnalysisTag → List Uuid) : Prop :=
  ∀ tag, ∀ id ∈ removed tag, ∃ rule ∈ rules, rule.tag = tag ∧ ∃ o ∈ db.due rule, o.id = id

theorem OfRules.mono (h : OfRules rules db removed) (hsub : rules ⊆ rules') :
    OfRules rules' db removed := by
  intro tag id hid
  obtain ⟨rule, hrule, hdue⟩ := h tag id hid
  exact ⟨rule, hsub hrule, hdue⟩

/-- What is due after tags were taken away was due before. -/
theorem OfRules.append (h : OfRules rules db removed) (hsynced : Synced db db' removed)
    (h' : OfRules rules db' removed') :
    OfRules rules db fun tag => removed tag ++ removed' tag := by
  intro tag id hid
  rcases List.mem_append.mp hid with hid | hid
  · exact h tag id hid
  · obtain ⟨rule, hrule, htag, o', ho', rfl⟩ := h' tag id hid
    rw [hsynced.due] at ho'
    obtain ⟨o, ho, rfl⟩ := List.mem_map.mp ho'
    exact ⟨rule, hrule, htag, o, (List.mem_filter.mp ho).1, rfl⟩

/-- The trackers keep their kinds. -/
def KeepsKinds (trackers trackers' : Table UserLimitTracker) : Prop :=
  ∀ id t, trackers.get? id = some t →
    ∃ t', trackers'.get? id = some t' ∧ t'.periodStart = t.periodStart

theorem keepsKinds_refl (trackers : Table UserLimitTracker) : KeepsKinds trackers trackers :=
  fun _ t ht => ⟨t, ht, rfl⟩

/-- Nothing else is written than tags of operations, and counters. -/
structure Frame (w w' : World) : Prop where
  events : w'.db.events = w.db.events
  kinds : KeepsKinds w.db.userLimitTrackers w'.db.userLimitTrackers

theorem Frame.refl (w : World) : Frame w w := ⟨rfl, keepsKinds_refl _⟩

theorem Frame.trans {w₁ w₂ w₃ : World} (h : Frame w₁ w₂) (h' : Frame w₂ w₃) : Frame w₁ w₃ where
  events := h'.events.trans h.events
  kinds id t ht := by
    obtain ⟨t', ht', hperiod⟩ := h.kinds id t ht
    obtain ⟨t'', ht'', hperiod'⟩ := h'.kinds id t' ht'
    exact ⟨t'', ht'', hperiod'.trans hperiod⟩

theorem decreased_periodStart (tag : OperationAnalysisTag) (value : ℤ) (t : UserLimitTracker) :
    (decreased tag value t).periodStart = t.periodStart := by
  cases tag <;> rfl

theorem decreased_id (tag : OperationAnalysisTag) (value : ℤ) (t : UserLimitTracker) :
    (decreased tag value t).id = t.id := by
  cases tag <;> rfl

theorem syncOperation_frame (now : ℤ) (rule : OperationAnalysisTagRule) (o : Operation) :
    Leads Frame (syncOperation now rule o) := by
  intro w
  refine (left_iff (P := Frame w)).mpr ?_
  rw [syncOperation, outcome_bind, outcome_orThrow]
  refine ⟨fun _ => .refl w, fun id hid => ?_⟩
  rw [outcome_bind, outcome_of_ok (readDb_ok.mpr ⟨rfl, rfl⟩)]
  cases ht : w.db.userLimitTrackers.get? id with
  | none => exact .refl w
  | some t =>
      refine ⟨rfl, fun id' t' ht' => ?_⟩
      have hid : t.id = id := Table.key_of_get? ht
      change ∃ t'', (w.db.userLimitTrackers.set _).get? id' = some t'' ∧ _
      rw [Table.get?_set]
      split
      · next heq =>
        have heq' : id = id' := by
          rw [← hid, ← decreased_id rule.tag o.value t]
          exact heq
        subst heq'
        obtain rfl := Option.some.inj (ht.symm.trans ht')
        refine ⟨_, by rw [ht]; rfl, ?_⟩
        exact decreased_periodStart rule.tag o.value t
      · exact ⟨t', ht', rfl⟩

/-- **However many pages are synced, only what is due is taken away.** -/
theorem syncPages_due (order : CreatedAtOrder) (now : ℤ) (rule : OperationAnalysisTagRule)
    (fuel page : ℕ) {w : World} (htagged : ∀ o ∈ w.db.operations.rows, o.Tagged) :
    ∃ ended db' removed, syncPages order now rule fuel page w = .ok ended { w with db := db' } ∧
      Synced w.db db' removed ∧ OfRules [rule] w.db removed ∧ Frame w { w with db := db' } := by
  induction fuel generalizing page w with
  | zero => exact ⟨false, w.db, _, rfl, synced_refl w.db, fun _ _ h => absurd h List.not_mem_nil,
      .refl w⟩
  | succ fuel ih =>
      obtain ⟨os, hos⟩ : ∃ os, os = (OperationRepository.getAllByPaginationAndAnalysisTagBeforeDate
        order page PAGE_SIZE rule w.db).data := ⟨_, rfl⟩
      rw [syncPages, bind_of_ok (readDb_ok.mpr ⟨rfl, rfl⟩), ← hos]
      by_cases hnil : os = []
      · rw [if_pos hnil]
        exact ⟨true, w.db, _, rfl, synced_refl w.db, fun _ _ h => absurd h List.not_mem_nil,
          .refl w⟩
      · obtain ⟨hdue, -, -⟩ := page_spec order rule page w.db hos
        obtain ⟨db₁, hloop, hsynced, -⟩ := syncPage_synced order now rule page htagged hos
        have hframe : Frame w { w with db := db₁ } := by
          have hleads := Leads.forM (l := os) Frame.refl (fun _ _ _ => Frame.trans)
            (fun o _ => syncOperation_frame now rule o) w
          rwa [left_ok hloop] at hleads
        have hrules : OfRules [rule] w.db
            (taken rule.tag ((os.filter fun o => decide (w.db.Stored o)).map (·.id))) := by
          intro tag id hid
          rw [taken] at hid
          split at hid
          · next heq =>
            obtain ⟨o, ho, rfl⟩ := List.mem_map.mp hid
            exact ⟨rule, List.mem_singleton_self rule, heq.symm, o,
              hdue o (List.mem_filter.mp ho).1, rfl⟩
          · exact absurd hid List.not_mem_nil
        rw [if_neg hnil, bind_of_ok hloop]
        split
        · obtain ⟨ended, db', removed, hrun, hsynced', hrules', hframe'⟩ :=
            ih (page + 1) (w := { w with db := db₁ }) (hsynced.tagged htagged)
          exact ⟨ended, db', _, hrun, hsynced.trans hsynced', hrules.append hsynced hrules',
            hframe.trans hframe'⟩
        · exact ⟨true, db₁, _, rfl, hsynced, hrules, hframe⟩

theorem syncRules_due (order : CreatedAtOrder) (now : ℤ) (fuel : ℕ)
    (rules : List OperationAnalysisTagRule) {w : World}
    (htagged : ∀ o ∈ w.db.operations.rows, o.Tagged) :
    ∃ ended db' removed, syncRules order now fuel rules w = .ok ended { w with db := db' } ∧
      Synced w.db db' removed ∧ OfRules rules w.db removed ∧ Frame w { w with db := db' } := by
  induction rules generalizing w with
  | nil => exact ⟨true, w.db, _, rfl, synced_refl w.db, fun _ _ h => absurd h List.not_mem_nil,
      .refl w⟩
  | cons rule rules ih =>
      obtain ⟨ended, db₁, removed, hpages, hsynced, hrules, hframe⟩ :=
        syncPages_due order now rule fuel CURRENT_PAGE htagged
      have hrules : OfRules (rule :: rules) w.db removed := hrules.mono fun r hr => by
        rw [List.mem_singleton.mp hr]
        exact List.mem_cons_self
      rw [syncRules, bind_of_ok hpages]
      cases ended with
      | false => exact ⟨false, db₁, removed, rfl, hsynced, hrules, hframe⟩
      | true =>
          obtain ⟨ended, db', removed', hrun, hsynced', hrules', hframe'⟩ :=
            ih (w := { w with db := db₁ }) (hsynced.tagged htagged)
          exact ⟨ended, db', _, hrun, hsynced.trans hsynced',
            hrules.append hsynced (hrules'.mono (List.subset_cons_self rule rules)),
            hframe.trans hframe'⟩

/-- What an execution of the cron leaves. -/
theorem exec_sync (env : Env) (now : ℤ) (order : CreatedAtOrder) (fuel : ℕ)
    (htagged : ∀ o ∈ w.db.operations.rows, o.Tagged) :
    ∃ removed, Synced w.db (exec env now w (.sync order fuel)).db removed ∧
      OfRules (OPERATION_ANALYSIS_TAGS_RULES now) w.db removed ∧
      Frame w (exec env now w (.sync order fuel)) := by
  obtain ⟨ended, db', removed, hrun, hsynced, hrules, hframe⟩ :=
    syncRules_due order now fuel (OPERATION_ANALYSIS_TAGS_RULES now) htagged
  have hexec : exec env now w (.sync order fuel) = { w with db := db' } := by
    change (SyncUpdateUserLimitTrackerByIntervalUseCase.execute order now fuel).exec w = _
    rw [App.exec, SyncUpdateUserLimitTrackerByIntervalUseCase.execute, hrun]
  rw [hexec]
  exact ⟨removed, hsynced, hrules, hframe⟩

/-- An operation is taken off a counter only after it has left the interval. -/
theorem OfRules.left (h : OfRules (OPERATION_ANALYSIS_TAGS_RULES now) db removed) {u : MomentUnit}
    {id : Uuid} (hid : id ∈ removed u.tag) :
    ∃ o, db.operations.get? id = some o ∧ ¬ StillInside now u o := by
  obtain ⟨rule, hrule, htag, o, ho, rfl⟩ := h u.tag id hid
  obtain ⟨hmem, -, hbefore⟩ := mem_due.mp ho
  have hdate : rule.lastDate = subtractOne u now := by
    simp only [OPERATION_ANALYSIS_TAGS_RULES, List.mem_cons, List.not_mem_nil, or_false] at hrule
    rcases hrule with rfl | rfl | rfl
    · cases u <;> first | rfl | cases htag
    · cases u <;> first | rfl | cases htag
    · cases u <;> first | rfl | cases htag
  refine ⟨o, Table.get?_of_mem hmem, fun h => ?_⟩
  rw [hdate] at hbefore
  exact absurd (h now (le_refl now)) (not_le.mpr hbefore)

end

/-! ### The invariant -/

/-- The tracker is stored, and is of the kind that has the tags. -/
def Kind (trackers : Table UserLimitTracker) (tracker : Option Uuid)
    (tags : List OperationAnalysisTag) : Prop :=
  ∀ id ∈ tracker, ∃ t, trackers.get? id = some t ∧ tags ⊆ limitIncludedTags t.periodStart

/-- What an event of a reverted operation tells of it. -/
structure Told (j : OperationEventItem) (b : Option OperationEventItem) (o : Operation) :
    Prop where
  state : o.state = .REVERTED
  value : j.item.value = o.value
  tracker : attachedTracker j b = o.userLimitTracker
  tags : o.analysisTags ⊆ j.item.analysisTags

/-- An operation charged to an interval tracker has the tags of the counters that it is still on. -/
structure Inv (clock : ℤ) (released : List (Uuid × MomentUnit)) (db : Db) : Prop where
  tagged : ∀ o ∈ db.operations.rows, o.Tagged
  nonneg : ∀ o ∈ db.operations.rows, 0 ≤ o.value
  kind : ∀ o ∈ db.operations.rows, Kind db.userLimitTrackers o.userLimitTracker o.analysisTags
  told : ∀ j b, .operation .REVERTED ⟨some j, b⟩ ∈ db.events →
    ∃ o, db.operations.get? j.item.id = some o ∧ Told j b o ∧
      Kind db.userLimitTrackers o.userLimitTracker j.item.analysisTags
  nodup : released.Nodup
  gone : ∀ p ∈ released, ∃ o, db.operations.get? p.1 = some o ∧
    (o.state = .REVERTED ∨ ¬ StillInside clock p.2 o)
  carries : ∀ o ∈ db.operations.rows, ∀ t ∈ db.userLimitTrackers.rows,
    o.userLimitTracker = some t.id → t.periodStart = .INTERVAL →
    ∀ u : MomentUnit, u.tag ∈ o.analysisTags ↔ (o.id, u) ∉ released
  used : ∀ t ∈ db.userLimitTrackers.rows, t.periodStart = .INTERVAL → ∀ u,
    t.used u = remaining db.operations released t.id u

section
variable {env : Env} {clock now : ℤ} {released : List (Uuid × MomentUnit)} {db db' : Db}
  {o o' : Operation} {tags tags' : List OperationAnalysisTag}
  {trackers trackers' : Table UserLimitTracker} {tracker : Option Uuid} {u : MomentUnit}
variable {new : List (Uuid × MomentUnit)} {left : Operation → List OperationAnalysisTag}
variable {c : TrackedLimit} {w : World} {j : OperationEventItem} {b : Option OperationEventItem}

theorem tag_mem_interval (u : MomentUnit) : u.tag ∈ limitIncludedTags .INTERVAL := by
  cases u <;> decide

/-- A tracker of the dates has no tag of an interval. -/
theorem interval_of_tag {p : LimitTypePeriodStart} (h : u.tag ∈ limitIncludedTags p) :
    p = .INTERVAL := by
  cases p with
  | INTERVAL => rfl
  | DATE => cases u <;> exact absurd h (by decide)

theorem mem_counters : u ∈ counters tags ↔ u.tag ∈ tags := by
  rw [counters, List.mem_filter, decide_eq_true_eq]
  refine and_iff_right ?_
  cases u <;> decide

theorem nodup_counters (tags : List OperationAnalysisTag) : (counters tags).Nodup :=
  List.Nodup.filter _ (by decide)

theorem remaining_nonneg {operations : Table Operation}
    (h : ∀ o ∈ operations.rows, 0 ≤ o.value) (released : List (Uuid × MomentUnit)) (id : Uuid)
    (u : MomentUnit) : 0 ≤ remaining operations released id u := by
  refine List.sum_nonneg fun v hv => ?_
  obtain ⟨o, ho, rfl⟩ := List.mem_map.mp hv
  split
  · exact h o ho
  · exact le_refl 0

theorem StillInside.mono (h : StillInside now u o) (hle : clock ≤ now) : StillInside clock u o :=
  fun t ht => h t (ht.trans hle)

theorem Inv.mono (h : Inv clock released db) (hle : clock ≤ now) : Inv now released db where
  tagged := h.tagged
  nonneg := h.nonneg
  kind := h.kind
  told := h.told
  nodup := h.nodup
  gone p hp := by
    obtain ⟨o, ho, hwhy⟩ := h.gone p hp
    exact ⟨o, ho, hwhy.imp_right fun hnot hin => hnot (hin.mono hle)⟩
  carries := h.carries
  used := h.used

theorem Kind.mono (h : Kind trackers tracker tags) (hkeeps : KeepsKinds trackers trackers')
    (hsub : tags' ⊆ tags) : Kind trackers' tracker tags' := by
  intro id hid
  obtain ⟨t, ht, htags⟩ := h id hid
  obtain ⟨t', ht', hperiod⟩ := hkeeps id t ht
  rw [← hperiod] at htags
  exact ⟨t', ht', List.Subset.trans hsub htags⟩

/-- The tracker of an operation, before its counters were written. -/
theorem Inv.before (h : Inv clock released db) (hkeeps : KeepsKinds db.userLimitTrackers trackers')
    (ho : o ∈ db.operations.rows) {t' : UserLimitTracker} (ht' : t' ∈ trackers'.rows)
    (htracker : o.userLimitTracker = some t'.id) :
    ∃ t ∈ db.userLimitTrackers.rows, t.id = t'.id ∧ t.periodStart = t'.periodStart := by
  obtain ⟨t, ht, -⟩ := h.kind o ho t'.id htracker
  obtain ⟨t'', ht'', hperiod⟩ := hkeeps _ t ht
  obtain rfl := Option.some.inj (ht''.symm.trans (Table.get?_of_mem ht'))
  exact ⟨t, Table.mem_of_get? ht, Table.key_of_get? ht, hperiod.symm⟩

/-! ### An operation is written -/

theorem remaining_set (ho : db.operations.get? o.id = some o) (hs : Operation.SameCharge o o')
    (id : Uuid) (u : MomentUnit) :
    remaining (db.operations.set o') released id u = remaining db.operations released id u := by
  rw [remaining, Table.total_set ho hs.id, hs.userLimitTracker, hs.id, hs.value]
  exact sub_add_cancel _ _

section

variable (h : Inv clock released db)
include h

/-- An operation that is accepted, reverted or linked stays on its counters. -/
theorem Inv.write (ho : db.operations.get? o.id = some o)
    (hs : Operation.SameCharge o o') (hstate : o.state = .REVERTED → o'.state = .REVERTED)
    (hops : db'.operations = db.operations.set o')
    (htrackers : db'.userLimitTrackers = db.userLimitTrackers)
    (hevents : ∀ j b, .operation .REVERTED ⟨some j, b⟩ ∈ db'.events →
      .operation .REVERTED ⟨some j, b⟩ ∈ db.events ∨
        j.item.id = o'.id ∧ Told j b o' ∧ j.item.analysisTags = o'.analysisTags) :
    Inv clock released db' := by
  have hmem := Table.mem_of_get? ho
  have hself : db'.operations.get? o'.id = some o' := by
    rw [hops, hs.id]
    exact Table.get?_set_self ho hs.id
  have hrow : ∀ x ∈ db'.operations.rows, x ∈ db.operations.rows ∨ x = o' := by
    intro x hx
    rw [hops] at hx
    rcases Table.mem_set.mp hx with ⟨hx, -⟩ | ⟨rfl, -⟩
    · exact .inl hx
    · exact .inr rfl
  have hfound : ∀ id x, db.operations.get? id = some x → x = o ∧ o.id = id ∨
      db'.operations.get? id = some x := by
    intro id x hx
    by_cases hid : o.id = id
    · subst hid
      exact .inl ⟨Option.some.inj (hx.symm.trans ho), rfl⟩
    · refine .inr ?_
      rw [hops, Table.get?_set_ne]
      · exact hx
      · exact fun e => hid (hs.id.symm.trans e)
  have hkind : Kind db.userLimitTrackers o'.userLimitTracker o'.analysisTags := by
    rw [hs.userLimitTracker, hs.analysisTags]
    exact h.kind o hmem
  refine ⟨fun x hx => ?_, fun x hx => ?_, fun x hx => ?_, fun j b hj => ?_, h.nodup,
    fun p hp => ?_, fun x hx t ht => ?_, fun t ht hperiod u => ?_⟩
  · rcases hrow x hx with hx | rfl
    · exact h.tagged x hx
    · obtain ⟨hnodup, htracker⟩ := h.tagged o hmem
      exact ⟨hs.analysisTags ▸ hnodup, fun hne => hs.userLimitTracker ▸ htracker (hs.analysisTags ▸ hne)⟩
  · rcases hrow x hx with hx | rfl
    · exact h.nonneg x hx
    · rw [hs.value]
      exact h.nonneg o hmem
  · rw [htrackers]
    rcases hrow x hx with hx | rfl
    · exact h.kind x hx
    · exact hkind
  · rw [htrackers]
    rcases hevents j b hj with hj | ⟨hid, htold, htags⟩
    · obtain ⟨x, hx, htold, hkinds⟩ := h.told j b hj
      rcases hfound _ x hx with ⟨rfl, hid⟩ | hx'
      · refine ⟨o', hid ▸ hs.id ▸ hself, ⟨hstate htold.state, ?_, ?_, ?_⟩, ?_⟩
        · rw [hs.value]
          exact htold.value
        · rw [hs.userLimitTracker]
          exact htold.tracker
        · rw [hs.analysisTags]
          exact htold.tags
        · rw [hs.userLimitTracker]
          exact hkinds
      · exact ⟨x, hx', htold, hkinds⟩
    · refine ⟨o', hid ▸ hself, htold, ?_⟩
      rw [htags]
      exact hkind
  · obtain ⟨x, hx, hwhy⟩ := h.gone p hp
    rcases hfound _ x hx with ⟨rfl, hid⟩ | hx'
    · refine ⟨o', hid ▸ hs.id ▸ hself, hwhy.imp hstate fun hnot hin => hnot ?_⟩
      rw [StillInside, hs.createdAt] at hin
      exact hin
    · exact ⟨x, hx', hwhy⟩
  · rw [htrackers] at ht
    rcases hrow x hx with hx | rfl
    · exact h.carries x hx t ht
    · rw [hs.userLimitTracker, hs.analysisTags, hs.id]
      exact h.carries o hmem t ht
  · rw [htrackers] at ht
    rw [hops, remaining_set ho hs]
    exact h.used t ht hperiod u

/-- Where neither the operations nor the trackers change. -/
theorem Inv.of_eq (hops : db'.operations = db.operations)
    (htrackers : db'.userLimitTrackers = db.userLimitTrackers)
    (hevents : ∀ j b, .operation .REVERTED ⟨some j, b⟩ ∈ db'.events →
      .operation .REVERTED ⟨some j, b⟩ ∈ db.events) : Inv clock released db' := by
  obtain ⟨tagged, nonneg, kind, told, nodup, gone, carries, used⟩ := h
  rw [← hops] at tagged nonneg kind told gone carries used
  rw [← htrackers] at kind told carries used
  exact ⟨tagged, nonneg, kind, fun j b hj => told j b (hevents j b hj), nodup, gone, carries, used⟩

/-! ### An operation is stored -/

/-- What is not stored was not taken off a counter. -/
theorem Inv.fresh {id : Uuid} (hid : db.operations.get? id = none)
    (u : MomentUnit) : (id, u) ∉ released := by
  intro hmem
  obtain ⟨o, ho, -⟩ := h.gone _ hmem
  rw [hid] at ho
  cases ho

/-- An operation that is stored with the tags of its tracker, which it was charged to. -/
theorem Inv.insert {x : Operation} {t : Table Operation}
    (hins : db.operations.insert? x = some t) (hops : db'.operations = t)
    (hevents : db'.events = db.events)
    (hkeeps : KeepsKinds db.userLimitTrackers db'.userLimitTrackers) (htagged : x.Tagged)
    (hnonneg : 0 ≤ x.value) (hkind : Kind db'.userLimitTrackers x.userLimitTracker x.analysisTags)
    (htags : ∀ t' ∈ db'.userLimitTrackers.rows, x.userLimitTracker = some t'.id →
      t'.periodStart = .INTERVAL → ∀ u : MomentUnit, u.tag ∈ x.analysisTags)
    (hused : ∀ t' ∈ db'.userLimitTrackers.rows, t'.periodStart = .INTERVAL → ∀ u,
      t'.used u = remaining db.operations released t'.id u
        + if x.userLimitTracker = some t'.id then x.value else 0) : Inv clock released db' := by
  have hfresh : ∀ u, (x.id, u) ∉ released := h.fresh (Table.insert?_eq_some hins).1
  subst hops
  refine ⟨fun o ho => ?_, fun o ho => ?_, fun o ho => ?_, fun j b hj => ?_, h.nodup,
    fun p hp => ?_, fun o ho t' ht' htracker hperiod u => ?_, fun t' ht' hperiod u => ?_⟩
  · rcases (Table.mem_insert? hins).mp ho with ho | rfl
    · exact h.tagged o ho
    · exact htagged
  · rcases (Table.mem_insert? hins).mp ho with ho | rfl
    · exact h.nonneg o ho
    · exact hnonneg
  · rcases (Table.mem_insert? hins).mp ho with ho | rfl
    · exact (h.kind o ho).mono hkeeps (List.Subset.refl _)
    · exact hkind
  · rw [hevents] at hj
    obtain ⟨o, ho, htold, hkinds⟩ := h.told j b hj
    exact ⟨o, Table.get?_insert?_of_some hins ho, htold, hkinds.mono hkeeps (List.Subset.refl _)⟩
  · obtain ⟨o, ho, hwhy⟩ := h.gone p hp
    exact ⟨o, Table.get?_insert?_of_some hins ho, hwhy⟩
  · rcases (Table.mem_insert? hins).mp ho with ho | rfl
    · obtain ⟨t, ht, hid, hperiods⟩ := h.before hkeeps ho ht' htracker
      exact h.carries o ho t ht (hid ▸ htracker) (hperiods.trans hperiod) u
    · exact iff_of_true (htags t' ht' htracker hperiod u) (hfresh u)
  · rw [hused t' ht' hperiod u]
    refine (?_ : _ = _).trans (Table.total_insert? hins _).symm
    rw [remaining]
    simp only [hfresh u, not_false_eq_true, and_true]

/-- The tracker that is charged holds what remains on it. -/
theorem Inv.upToDate {limitType : LimitType} (hc : UpToDate env now limitType db c) :
    (∀ t, db.userLimitTrackers.get? c.tracker.id = some t →
        t.periodStart = c.tracker.periodStart) ∧
      (c.tracker.periodStart = .INTERVAL → ∀ u,
        c.tracker.used u = remaining db.operations released c.tracker.id u) := by
  cases hc with
  | stored t ht hc =>
      obtain ⟨hmem, -⟩ := Db.userLimitTracker_of_find ht
      rw [hc, restart_id, restart_periodStart]
      refine ⟨fun t' ht' => ?_, fun hperiod u => ?_⟩
      · have hself : db.userLimitTrackers.get? t.id = some t := Table.get?_of_mem hmem
        rw [Option.some.inj (hself.symm.trans ht')]
      · rw [used_restart_interval (by rw [hperiod]; decide)]
        exact h.used t hmem hperiod u
  | new hnew =>
      refine ⟨fun t ht => ?_, fun _ u => ?_⟩
      · exact absurd (Table.key_of_get? ht) (hnew.no_tracker t (Table.mem_of_get? ht)).2
      · rw [hnew.used u]
        refine (List.sum_eq_zero fun v hv => ?_).symm
        obtain ⟨o, ho, rfl⟩ := List.mem_map.mp hv
        exact if_neg fun hand => hnew.no_operation o ho hand.1

/-- **A created operation is charged to its tracker.** -/
theorem Inv.opened {tt : TransactionType} {i : OperationInfo}
    {t : Table Operation} (hopen : Opening env now tt db i)
    (hins : db.operations.insert? (i.operation env now tt) = some t) :
    Inv clock released (i.store env now t db) := by
  have hvalue : 0 ≤ (i.operation env now tt).value := by
    rw [OperationInfo.operation_value]
    exact hopen.value_nonneg
  cases hc : i.userLimitTracker with
  | none =>
      have htrackers : (i.store env now t db).userLimitTrackers = db.userLimitTrackers := by
        change i.userLimitTrackers env now _ = _
        rw [OperationInfo.userLimitTrackers, hc]
      have hnone : (i.operation env now tt).userLimitTracker = none := by
        rw [OperationInfo.operation_userLimitTracker, hc]
        rfl
      refine h.insert hins rfl rfl ?_ tagged_operation hvalue ?_ ?_ fun t' ht' hperiod u => ?_
      · rw [htrackers]
        exact keepsKinds_refl _
      · rw [hnone]
        exact fun _ hid => by cases hid
      · rw [hnone]
        exact fun _ _ hid => by cases hid
      · rw [htrackers] at ht'
        rw [hnone, if_neg fun hid => by cases hid]
        exact (h.used t' ht' hperiod u).trans (add_zero _).symm
  | some c =>
      obtain ⟨limitType, hcharged⟩ := hopen.charged hc
      obtain ⟨hkinds, hused⟩ := h.upToDate hcharged.tracker
      have htracker : (i.operation env now tt).userLimitTracker = some c.tracker.id := by
        rw [OperationInfo.operation_userLimitTracker, hc]
        rfl
      have htags : (i.operation env now tt).analysisTags
          = limitIncludedTags c.tracker.periodStart := by
        rw [OperationInfo.operation_analysisTags, hc]
        rfl
      refine h.insert hins rfl rfl (fun id t' ht' => ?_) tagged_operation hvalue ?_
        (fun t' ht' hid hperiod u => ?_) fun t' ht' hperiod u => ?_
      · by_cases hid : id = c.tracker.id
        · subst hid
          exact ⟨_, get?_chargedTracker hc, (hkinds t' ht').symm⟩
        · rw [get?_chargedTracker_ne hc hid]
          exact ⟨t', ht', rfl⟩
      · rw [htracker, htags]
        intro id hid
        obtain rfl := Option.some.inj hid
        exact ⟨_, get?_chargedTracker hc, List.Subset.refl _⟩
      · rw [htracker] at hid
        have hself : (i.store env now t db).userLimitTrackers.get? t'.id = some t' :=
          Table.get?_of_mem ht'
        rw [← Option.some.inj hid, get?_chargedTracker hc] at hself
        obtain rfl := Option.some.inj hself
        rw [htags, show c.tracker.periodStart = .INTERVAL from hperiod]
        exact tag_mem_interval u
      · rcases (mem_chargedTrackers hc).mp ht' with ⟨ht', hne⟩ | rfl
        · rw [htracker, if_neg fun hid => hne (Option.some.inj hid).symm, add_zero]
          exact h.used t' ht' hperiod u
        · have hid : (c.charged env now i.value).id = c.tracker.id := rfl
          rw [htracker, hid, if_pos rfl, OperationInfo.operation_value]
          change (chargeTracker env now c.userLimit c.tracker i.value).used u = _
          rw [used_charge, hused hperiod u]

/-! ### Creating, accepting and reverting -/

theorem Inv.limitCreated (hc : db.LimitCreated env db') : Inv clock released db' := by
  refine h.of_eq hc.operations hc.userLimitTrackers fun j b hj => ?_
  cases hc with
  | same => exact hj
  | created =>
      rcases List.mem_append.mp hj with hj | hj
      · exact hj
      · cases List.mem_singleton.mp hj

theorem Inv.create (hw : w.db = db) (tag : String)
    (ownerInfo beneficiaryInfo : Option CreateOperationParticipant) :
    Inv clock released (execCommand env now w (.create tag ownerInfo beneficiaryInfo)).db := by
  subst hw
  rcases create_exec tag ownerInfo beneficiaryInfo w with heq | ⟨r, _, _, _, _, _, _, hexecution⟩
  · rw [heq]
    exact h
  · refine hexecution.invariant (I := Inv clock released) (fun _ _ hc hI => hI.limitCreated hc)
      (fun _ _ _ _ hopen hins hI => hI.opened hopen hins) (fun db o other ho hI => ?_)
      (fun db e hI => ?_) h
    · exact hI.write ho (Operation.sameCharge_linked o other) id rfl rfl fun _ _ hj => .inl hj
    · refine hI.of_eq rfl rfl fun j b hj => ?_
      rcases List.mem_append.mp hj with hj | hj
      · exact hj
      · cases List.mem_singleton.mp hj

theorem Inv.accept (hw : w.db = db) (env : Env) (now : ℤ) (id : Uuid) :
    Inv clock released (execCommand env now w (.accept id)).db := by
  subst hw
  rcases accept_exec id w with heq | ⟨o, found, pending, ⟨t, t', ts, es, -, -, hes, hdb⟩, -⟩
  · rw [heq]
    exact h
  · rw [hdb]
    refine h.write found (Operation.sameCharge_accepted o) (fun hstate => ?_) rfl rfl
      fun j b hj => .inl ?_
    · rw [pending] at hstate
      cases hstate
    · rcases List.mem_append.mp hj with hj | hj
      · exact hj
      · obtain ⟨event, heq⟩ := hes _ hj
        cases heq

end

/-- The event of a revert tells of the operation what is stored. -/
theorem told_reverted
    (hj : j.item = OperationEventEmitter.formatItem (RevertOperationUseCase.reverted now o))
    {p : Option Party} (hb : b.map (·.item)
      = p.map fun _ => OperationEventEmitter.formatItem (RevertOperationUseCase.reverted now o)) :
    Told j b (RevertOperationUseCase.reverted now o) where
  state := rfl
  value := by
    rw [hj]
    rfl
  tracker := attachedTracker_event hj hb
  tags := by
    rw [hj]
    exact List.Subset.refl _

theorem Inv.revert (h : Inv clock released db) (hw : w.db = db) (env : Env) (now : ℤ) (id : Uuid) :
    Inv clock released (execCommand env now w (.revert id)).db := by
  subst hw
  rcases revert_exec id w with heq | ⟨o, hreverted⟩
  · rw [heq]
    exact h
  · obtain ⟨e, hevents, howner, hbeneficiary⟩ := hreverted.event
    obtain ⟨found, pending, t, event, -, -, hdb⟩ := hreverted
    refine h.write found (Operation.sameCharge_reverted now o) (fun _ => rfl)
      (by rw [hdb]) (by rw [hdb]) fun j b hj => ?_
    rw [hevents] at hj
    rcases List.mem_append.mp hj with hj | hj
    · exact .inl hj
    · cases List.mem_singleton.mp hj
      obtain ⟨_, -, hitem⟩ := Option.map_eq_some_iff.mp howner.symm
      exact .inr ⟨congrArg (·.id) hitem.symm, told_reverted hitem.symm hbeneficiary,
        congrArg (·.analysisTags) hitem.symm⟩

/-! ### Operations are taken off counters -/

/-- The values that are taken off a counter. -/
def takenOff (operations : Table Operation) (new : List (Uuid × MomentUnit)) (tracker : Uuid)
    (u : MomentUnit) : ℤ :=
  operations.total fun o =>
    if o.userLimitTracker = some tracker ∧ (o.id, u) ∈ new then o.value else 0

/-- Some operations lose tags, and their values leave the counters. -/
structure Lowers (db db' : Db) (new : List (Uuid × MomentUnit))
    (left : Operation → List OperationAnalysisTag) : Prop where
  rows : db'.operations.rows = db.operations.rows.map fun o => { o with analysisTags := left o }
  sublist : ∀ o ∈ db.operations.rows, (left o).Sublist o.analysisTags
  events : db'.events = db.events
  kinds : KeepsKinds db.userLimitTrackers db'.userLimitTrackers
  nodup : new.Nodup
  lost : ∀ o ∈ db.operations.rows, ∀ u : MomentUnit,
    u.tag ∈ left o ↔ u.tag ∈ o.analysisTags ∧ (o.id, u) ∉ new
  why : ∀ p ∈ new, ∃ o, db.operations.get? p.1 = some o ∧ p.2.tag ∈ o.analysisTags

theorem Lowers.get? (hl : Lowers db db' new left) (id : Uuid) :
    db'.operations.get? id
      = (db.operations.get? id).map fun o => { o with analysisTags := left o } := by
  rw [Table.get?, Table.get?, hl.rows, List.find?_map]
  rfl

/-- What is taken off was on the counter. -/
theorem Inv.onCounter (h : Inv clock released db) (ho : o ∈ db.operations.rows)
    (htag : u.tag ∈ o.analysisTags) : (o.id, u) ∉ released := by
  obtain ⟨id, hid⟩ := Option.ne_none_iff_exists'.mp
    ((h.tagged o ho).tracker fun hnil => absurd (hnil ▸ htag) List.not_mem_nil)
  obtain ⟨t, ht, htags⟩ := h.kind o ho id hid
  have htid : t.id = id := Table.key_of_get? ht
  exact (h.carries o ho t (Table.mem_of_get? ht) (htid ▸ hid) (interval_of_tag (htags htag)) u).mp
    htag

theorem Lowers.remaining (hl : Lowers db db' new left)
    (h : Inv clock released db) (id : Uuid) (u : MomentUnit) :
    remaining db'.operations (released ++ new) id u
      = remaining db.operations released id u - takenOff db.operations new id u := by
  rw [ReleasedOnce.remaining, ReleasedOnce.remaining, takenOff, ← Table.total_sub, Table.total,
    hl.rows, List.map_map]
  refine Table.total_congr (t := db.operations) fun o ho => ?_
  have hdisj : (o.id, u) ∈ new → (o.id, u) ∉ released := by
    intro hmem
    obtain ⟨x, hx, htag⟩ := hl.why _ hmem
    obtain rfl := Option.some.inj (hx.symm.trans (Table.get?_of_mem ho))
    exact h.onCounter ho htag
  change (if o.userLimitTracker = some id ∧ (o.id, u) ∉ released ++ new then o.value else 0) = _
  by_cases htracker : o.userLimitTracker = some id
  · by_cases hnew : (o.id, u) ∈ new
    · simp [htracker, hnew, hdisj hnew]
    · simp [htracker, hnew]
  · simp [htracker]

/-- **Values that leave the counters with the tags keep the invariant.** -/
theorem Inv.lower (h : Inv clock released db) (hl : Lowers db db' new left)
    (hwhy : ∀ p ∈ new, ∀ o, db.operations.get? p.1 = some o →
      o.state = .REVERTED ∨ ¬ StillInside clock p.2 o)
    (hused : ∀ t' ∈ db'.userLimitTrackers.rows, t'.periodStart = .INTERVAL → ∀ u,
      t'.used u = remaining db.operations released t'.id u - takenOff db.operations new t'.id u) :
    Inv clock (released ++ new) db' := by
  have hrow : ∀ o' ∈ db'.operations.rows, ∃ o ∈ db.operations.rows,
      o' = { o with analysisTags := left o } := by
    intro o' ho'
    rw [hl.rows] at ho'
    obtain ⟨o, ho, rfl⟩ := List.mem_map.mp ho'
    exact ⟨o, ho, rfl⟩
  refine ⟨fun o' ho' => ?_, fun o' ho' => ?_, fun o' ho' => ?_, fun j b hj => ?_, ?_,
    fun p hp => ?_, fun o' ho' t' ht' htracker hperiod u => ?_, fun t' ht' hperiod u => ?_⟩
  · obtain ⟨o, ho, rfl⟩ := hrow o' ho'
    obtain ⟨nodup, tracker⟩ := h.tagged o ho
    refine ⟨(hl.sublist o ho).nodup nodup, fun hne => tracker fun hnil => hne ?_⟩
    exact List.sublist_nil.mp (hnil ▸ hl.sublist o ho)
  · obtain ⟨o, ho, rfl⟩ := hrow o' ho'
    exact h.nonneg o ho
  · obtain ⟨o, ho, rfl⟩ := hrow o' ho'
    exact (h.kind o ho).mono hl.kinds (hl.sublist o ho).subset
  · rw [hl.events] at hj
    obtain ⟨o, ho, ⟨state, value, tracker, tags⟩, hkinds⟩ := h.told j b hj
    refine ⟨_, (hl.get? _).trans (congrArg _ ho), ⟨state, value, tracker, ?_⟩,
      hkinds.mono hl.kinds (List.Subset.refl _)⟩
    exact List.Subset.trans (hl.sublist o (Table.mem_of_get? ho)).subset tags
  · refine h.nodup.append hl.nodup fun p hp hnew => ?_
    obtain ⟨o, ho, htag⟩ := hl.why p hnew
    have hid : o.id = p.1 := Table.key_of_get? ho
    refine h.onCounter (Table.mem_of_get? ho) htag ?_
    rw [hid]
    exact hp
  · rcases List.mem_append.mp hp with hp | hp
    · obtain ⟨o, ho, hgone⟩ := h.gone p hp
      exact ⟨_, (hl.get? _).trans (congrArg _ ho), hgone⟩
    · obtain ⟨o, ho, -⟩ := hl.why p hp
      exact ⟨_, (hl.get? _).trans (congrArg _ ho), hwhy p hp o ho⟩
  · obtain ⟨o, ho, rfl⟩ := hrow o' ho'
    obtain ⟨t, ht, hid, hperiods⟩ := h.before hl.kinds ho ht' htracker
    have hcarries := h.carries o ho t ht (hid ▸ htracker) (hperiods.trans hperiod) u
    change u.tag ∈ left o ↔ (o.id, u) ∉ released ++ new
    rw [hl.lost o ho, List.mem_append, not_or, hcarries]
  · rw [hl.remaining h]
    exact hused t' ht' hperiod u

/-- Nothing is cut off at zero. -/
theorem Lowers.le_remaining (hl : Lowers db db' new left)
    (h : Inv clock released db) (id : Uuid) (u : MomentUnit) :
    takenOff db.operations new id u ≤ ReleasedOnce.remaining db.operations released id u := by
  have hnonneg : ∀ o ∈ db'.operations.rows, 0 ≤ o.value := by
    intro o' ho'
    rw [hl.rows] at ho'
    obtain ⟨o, ho, rfl⟩ := List.mem_map.mp ho'
    exact h.nonneg o ho
  have hrest := remaining_nonneg hnonneg (released ++ new) id u
  rw [hl.remaining h] at hrest
  exact sub_nonneg.mp hrest

/-! ### An event is handled -/

/-- What is handled of an event. -/
theorem delivered_eq_some {n : ℕ} {item : OperationItem} :
    db.delivered n = some (item, c) ↔ ∃ j b,
      db.events[n]? = some (.operation .REVERTED ⟨some j, b⟩) ∧ j.item = item ∧
      j.item.analysisTags ≠ [] ∧ Finds db (attachedTracker j b) c := by
  constructor
  · intro h
    rw [Db.delivered] at h
    split at h
    · next j b he =>
      split at h
      · cases h
      · next htags =>
        simp only [bind, Option.bind_eq_some_iff] at h
        obtain ⟨t, ⟨id, hid, ht⟩, l, hl, heq⟩ := h
        obtain ⟨rfl, rfl⟩ := Prod.mk.inj (Option.some.inj heq)
        exact ⟨j, b, he, rfl, htags, id, hid, ht, hl⟩
    · cases h
  · rintro ⟨j, b, he, rfl, htags, hc⟩
    exact Db.delivered_of_finds he htags hc

/-- An event that names nothing changes nothing. -/
theorem redeliver_none {n : ℕ} (h : w.db.delivered n = none) : redeliver env now n w = w := by
  rw [redeliver]
  split
  · next e he =>
    refine exec_stop e fun j c hj hc => ?_
    by_contra htags
    obtain ⟨owner, b⟩ := e
    obtain rfl : owner = some j := hj
    rw [Db.delivered_of_finds he htags hc] at h
    cases h
  · rfl

theorem redeliver_given {n : ℕ} (he : w.db.events[n]? = some (.operation .REVERTED ⟨some j, b⟩))
    (htags : j.item.analysisTags ≠ []) (hc : Finds w.db (attachedTracker j b) c) :
    redeliver env now n w = { w with db := givenBack env now j.item c w.db } := by
  rw [redeliver, he]
  exact exec_given j b htags hc

theorem tag_eq_intervalTag (u : MomentUnit) : intervalTag u = u.tag := by
  cases u <;> rfl

theorem mem_named {item : OperationItem} {id : Uuid} :
    (id, u) ∈ (counters item.analysisTags).map (fun u => (item.id, u)) ↔
      item.id = id ∧ u.tag ∈ item.analysisTags := by
  rw [List.mem_map]
  constructor
  · rintro ⟨u', hu', heq⟩
    obtain ⟨rfl, rfl⟩ := Prod.mk.inj heq
    exact ⟨rfl, mem_counters.mp hu'⟩
  · rintro ⟨rfl, hu⟩
    exact ⟨u, mem_counters.mpr hu, rfl⟩

theorem tagsOf_of_get? {id : Uuid} (ho : db.operations.get? id = some o) :
    tagsOf db id = o.analysisTags := by
  rw [tagsOf, ho]
  rfl

/-- What is known of an event that is handled, and names only counters that its operation is still
on. -/
structure Handled (db : Db) (n : ℕ) (j : OperationEventItem) (b : Option OperationEventItem)
    (c : TrackedLimit) (x : Operation) : Prop where
  named : named db n = (counters j.item.analysisTags).map fun u => (j.item.id, u)
  operation : db.operations.get? j.item.id = some x
  told : Told j b x
  found : db.userLimitTrackers.get? c.tracker.id = some c.tracker
  tracker : x.userLimitTracker = some c.tracker.id
  kind : j.item.analysisTags ⊆ limitIncludedTags c.tracker.periodStart
  stored : ∀ u : MomentUnit, u.tag ∈ j.item.analysisTags ↔ u.tag ∈ x.analysisTags

theorem Inv.handled (h : Inv clock released w.db) {n : ℕ} (hsound : (Label.deliver n).Sound w)
    (he : w.db.events[n]? = some (.operation .REVERTED ⟨some j, b⟩))
    (htags : j.item.analysisTags ≠ []) (hc : Finds w.db (attachedTracker j b) c) :
    ∃ x, Handled w.db n j b c x := by
  obtain ⟨x, hx, htold, hkinds⟩ := h.told j b (List.mem_of_getElem? he)
  have hnamed : named w.db n = (counters j.item.analysisTags).map fun u => (j.item.id, u) := by
    rw [named, Db.delivered_of_finds he htags hc]
  obtain ⟨id, hid, hct, -⟩ := hc
  have hcid : c.tracker.id = id := Table.key_of_get? hct
  rw [← hcid] at hct hid
  have htracker : x.userLimitTracker = some c.tracker.id := htold.tracker.symm.trans hid
  refine ⟨x, hnamed, hx, htold, hct, htracker, ?_, fun u => ⟨fun hu => ?_, fun hu => ?_⟩⟩
  · obtain ⟨t, ht, hsub⟩ := hkinds _ htracker
    obtain rfl := Option.some.inj (ht.symm.trans hct)
    exact hsub
  · have hin := hsound (j.item.id, u) (hnamed ▸ mem_named.mpr ⟨rfl, hu⟩)
    rwa [tagsOf_of_get? hx] at hin
  · exact htold.tags hu

section
variable {n : ℕ} {j : OperationEventItem} {b : Option OperationEventItem} {c : TrackedLimit}
  {x : Operation}

section

variable (h : Handled db n j b c x)
include h

/-- The operation of the event is the row with its id. -/
theorem Handled.row (ho : o ∈ db.operations.rows) (hid : o.id = j.item.id) : o = x := by
  have hx : x.id = j.item.id := Table.key_of_get? h.operation
  exact Table.eq_of_key ho (Table.mem_of_get? h.operation) (hid.trans hx.symm)

theorem Handled.lowers (env : Env) (now : ℤ) :
    Lowers db (givenBack env now j.item c db) (ReleasedOnce.named db n)
      fun o => if o.id = j.item.id then [] else o.analysisTags := by
  have hx : x.id = j.item.id := Table.key_of_get? h.operation
  refine ⟨?_, fun o _ => ?_, rfl, fun id t ht => ?_, ?_, fun o ho u => ?_, fun p hp => ?_⟩
  · rw [operations_givenBack h.operation, Table.rows_set]
    refine List.map_congr_left fun o ho => ?_
    change (if o.id = x.id then x.given else o) = _
    rw [hx]
    split
    · next hid =>
      obtain rfl := h.row ho hid
      rfl
    · rfl
  · split
    · exact List.nil_sublist _
    · exact List.Sublist.refl _
  · obtain ⟨t', ht', -, hperiod⟩ := get?_givenTracker env now j.item h.found ht
    exact ⟨t', ht', hperiod⟩
  · rw [h.named]
    exact (nodup_counters _).map fun u u' heq => (Prod.mk.inj heq).2
  · rw [h.named, mem_named]
    by_cases hid : o.id = j.item.id
    · obtain rfl := h.row ho hid
      rw [if_pos hid, h.stored u]
      exact iff_of_false List.not_mem_nil fun hand => hand.2 ⟨hid.symm, hand.1⟩
    · rw [if_neg hid]
      exact ⟨fun hu => ⟨hu, fun hand => hid hand.1.symm⟩, And.left⟩
  · obtain ⟨id, u⟩ := p
    rw [h.named, mem_named] at hp
    obtain ⟨rfl, hu⟩ := hp
    exact ⟨x, h.operation, (h.stored u).mp hu⟩

/-- The value of the one operation is taken off. -/
theorem Handled.takenOff (id : Uuid) (u : MomentUnit) :
    takenOff db.operations (ReleasedOnce.named db n) id u
      = if c.tracker.id = id ∧ u.tag ∈ j.item.analysisTags then x.value else 0 := by
  have hx : x.id = j.item.id := Table.key_of_get? h.operation
  rw [ReleasedOnce.takenOff, Table.total_eq_single (Table.mem_of_get? h.operation)]
  · rw [h.named, h.tracker]
    simp only [mem_named, hx, true_and, Option.some_inj]
  · intro o _ hne
    refine if_neg fun hand => hne ?_
    rw [h.named, mem_named] at hand
    exact hand.2.1.symm.trans hx.symm

/-- The tracker that an operation is given back to, for an interval. -/
theorem Handled.used (hperiod : c.tracker.periodStart = .INTERVAL)
    (u : MomentUnit) : (givenTracker env now j.item c).used u
      = if u.tag ∈ j.item.analysisTags then subtract (c.tracker.used u) x.value
        else c.tracker.used u := by
  have hdate : ¬ (.DATE_LIMIT_INCLUDED ∈ j.item.analysisTags ∧ 0 < c.tracker.used u ∧
      startOf u now ≤ j.item.createdAt) := by
    rintro ⟨hin, -⟩
    have hdate := h.kind hin
    rw [hperiod] at hdate
    exact absurd hdate (by decide)
  rw [used_given fun tag htag => h.kind htag, tag_eq_intervalTag, if_neg hdate, h.told.value]

end

end

/-- **An event that names only counters that the operation is still on.** -/
theorem Inv.deliver {w : World} (h : Inv clock released w.db) {n : ℕ}
    (hsound : (Label.deliver n).Sound w) :
    Inv clock (released ++ named w.db n) (redeliver env now n w).db := by
  cases hdelivered : w.db.delivered n with
  | none =>
      rw [redeliver_none hdelivered, named, hdelivered, List.append_nil]
      exact h
  | some p =>
      obtain ⟨item, c⟩ := p
      obtain ⟨j, b, he, rfl, htags, hc⟩ := delivered_eq_some.mp hdelivered
      obtain ⟨x, hx⟩ := h.handled hsound he htags hc
      rw [redeliver_given he htags hc]
      have hl := hx.lowers env now
      refine h.lower hl (fun p hp o ho => .inl ?_) fun t' ht' hperiod u => ?_
      · obtain ⟨id, u⟩ := p
        rw [hx.named, mem_named] at hp
        obtain ⟨rfl, -⟩ := hp
        obtain rfl := Option.some.inj (hx.operation.symm.trans ho)
        exact hx.told.state
      · change t' ∈ (w.db.userLimitTrackers.set (givenTracker env now j.item c)).rows at ht'
        rcases Table.mem_set.mp ht' with ⟨ht, hne⟩ | ⟨rfl, -⟩
        · have hother : c.tracker.id ≠ t'.id := fun e => hne (e.symm.trans givenTracker_id.symm)
          rw [hx.takenOff, if_neg fun hand => hother hand.1, sub_zero]
          exact h.used t' ht hperiod u
        · have hinterval : c.tracker.periodStart = .INTERVAL :=
            givenTracker_periodStart.symm.trans hperiod
          have hle := hl.le_remaining h c.tracker.id u
          rw [givenTracker_id, hx.used hinterval, h.used _ (Table.mem_of_get? hx.found) hinterval u]
          rw [hx.takenOff] at hle ⊢
          by_cases hu : u.tag ∈ j.item.analysisTags
          · have hboth := And.intro (Eq.refl c.tracker.id) hu
            rw [if_pos hboth] at hle ⊢
            rw [if_pos hu, subtract, if_neg (by omega)]
          · rw [if_neg hu, if_neg fun hand => hu hand.2, sub_zero]

/-! ### The cron runs -/

theorem mem_lostTags {id : Uuid} :
    (id, u) ∈ lostTags db db' ↔
      ∃ o ∈ db.operations.rows, o.id = id ∧ u.tag ∈ o.analysisTags ∧ u.tag ∉ tagsOf db' id := by
  rw [lostTags, List.mem_flatMap]
  refine exists_congr fun o => and_congr_right fun _ => ?_
  rw [List.mem_map]
  constructor
  · rintro ⟨u', hu', heq⟩
    obtain ⟨rfl, rfl⟩ := Prod.mk.inj heq
    obtain ⟨hu, hlost⟩ := List.mem_filter.mp hu'
    exact ⟨rfl, mem_counters.mp hu, of_decide_eq_true hlost⟩
  · rintro ⟨rfl, hu, hlost⟩
    exact ⟨u, List.mem_filter.mpr ⟨mem_counters.mpr hu, decide_eq_true hlost⟩, rfl⟩

theorem nodup_lostTags (db db' : Db) : (lostTags db db').Nodup := by
  refine List.nodup_flatMap.mpr ⟨fun o _ => ?_, ?_⟩
  · exact ((nodup_counters _).filter _).map fun u u' heq => (Prod.mk.inj heq).2
  · refine (List.pairwise_map.mp db.operations.nodup).imp fun {o o'} hne p hp hp' => ?_
    obtain ⟨u, -, rfl⟩ := List.mem_map.mp hp
    obtain ⟨u', -, heq⟩ := List.mem_map.mp hp'
    exact hne (Prod.mk.inj heq).1.symm

section
variable {removed : OperationAnalysisTag → List Uuid}

/-- The cron lowers a counter for the operations that lose the tag of the counter. -/
theorem Synced.mem_lostTags (h : Synced db db' removed) {id : Uuid} :
    (id, u) ∈ lostTags db db' ↔ id ∈ removed u.tag := by
  rw [ReleasedOnce.mem_lostTags]
  constructor
  · rintro ⟨o, ho, rfl, htag, hlost⟩
    by_contra hleft
    refine hlost ?_
    rw [tagsOf, h.get?, show db.operations.get? o.id = some o from Table.get?_of_mem ho]
    exact List.mem_filter.mpr ⟨htag, decide_eq_true hleft⟩
  · intro hid
    obtain ⟨o, ho, htag⟩ := h.carried u.tag id hid
    have hkey : o.id = id := Table.key_of_get? ho
    refine ⟨o, Table.mem_of_get? ho, hkey, htag, fun hin => ?_⟩
    rw [tagsOf, h.get?, ho] at hin
    have hleft := of_decide_eq_true (List.mem_filter.mp hin).2
    rw [hkey] at hleft
    exact hleft hid

theorem Synced.lowers (h : Synced db db' removed) (hevents : db'.events = db.events)
    (hkinds : KeepsKinds db.userLimitTrackers db'.userLimitTrackers) :
    Lowers db db' (lostTags db db') fun o => (o.without removed).analysisTags where
  rows := h.operations
  sublist _ _ := List.filter_sublist
  events := hevents
  kinds := hkinds
  nodup := nodup_lostTags db db'
  lost o _ u := by
    rw [Synced.mem_lostTags h]
    exact List.mem_filter.trans (and_congr_right fun _ => decide_eq_true_iff)
  why p hp := by
    obtain ⟨id, u⟩ := p
    exact h.carried u.tag id ((Synced.mem_lostTags h).mp hp)

/-- The values that the cron takes off a counter. -/
theorem Synced.takenOff (h : Synced db db' removed) (id : Uuid) (u : MomentUnit) :
    takenOff db.operations (lostTags db db') id u = (db.values id (removed u.tag)).sum := by
  have hrows : ∀ o ∈ db.lost id (removed u.tag), o ∈ db.operations.rows := fun o ho =>
    (mem_lost.mp ho).1
  have hnodup : ((db.lost id (removed u.tag)).map (·.id)).Nodup :=
    (nodup_lost (h.nodup u.tag)).map_on fun o ho o' ho' heq =>
      Table.eq_of_key (hrows o ho) (hrows o' ho') heq
  rw [values_eq_lost, ← Table.total_mem_keys hrows hnodup, ReleasedOnce.takenOff]
  refine Table.total_congr fun o ho => ?_
  have hiff : o.userLimitTracker = some id ∧ (o.id, u) ∈ lostTags db db' ↔
      o.id ∈ (db.lost id (removed u.tag)).map (·.id) := by
    rw [Synced.mem_lostTags h, List.mem_map]
    constructor
    · exact fun hand => ⟨o, mem_lost.mpr ⟨ho, hand⟩, rfl⟩
    · rintro ⟨o', ho', heq⟩
      obtain rfl := Table.eq_of_key (hrows o' ho') ho heq
      exact (mem_lost.mp ho').2
  by_cases hmem : o.id ∈ (db.lost id (removed u.tag)).map (·.id)
  · rw [if_pos (hiff.mpr hmem)]
    exact (if_pos hmem).symm
  · rw [if_neg fun hand => hmem (hiff.mp hand)]
    exact (if_neg hmem).symm

end

/-- Values that are there are subtracted one after the other. -/
theorem foldl_subtract {vs : List ℤ} (hvs : ∀ v ∈ vs, 0 ≤ v) {used : ℤ} (hle : vs.sum ≤ used) :
    vs.foldl subtract used = used - vs.sum := by
  induction vs generalizing used with
  | nil => simp
  | cons v vs ih =>
      obtain ⟨hv, hvs⟩ := List.forall_mem_cons.mp hvs
      have hsum := List.sum_nonneg hvs
      rw [List.sum_cons] at hle ⊢
      rw [List.foldl_cons, subtract, if_neg (by omega), ih hvs (by omega)]
      omega

/-- **An execution of the cron.** -/
theorem Inv.sync {w : World} (h : Inv now released w.db) (env : Env) (order : CreatedAtOrder)
    (fuel : ℕ) :
    Inv now (released ++ lostTags w.db (exec env now w (.sync order fuel)).db)
      (exec env now w (.sync order fuel)).db := by
  obtain ⟨removed, hsynced, hrules, hframe⟩ := exec_sync env now order fuel h.tagged
  have hl := Synced.lowers hsynced hframe.events hframe.kinds
  refine h.lower hl (fun p hp o ho => .inr ?_) fun t' ht' hperiod u => ?_
  · obtain ⟨id, u⟩ := p
    obtain ⟨x, hx, hleft⟩ := hrules.left ((Synced.mem_lostTags hsynced).mp hp)
    obtain rfl := Option.some.inj (hx.symm.trans ho)
    exact hleft
  · have hself := Table.get?_of_mem ht'
    cases ht : w.db.userLimitTrackers.get? t'.id with
    | none =>
        have hnone := hsynced.untracked _ ht
        rw [UserLimitTracker.key_eq, hnone] at hself
        cases hself
    | some t =>
        obtain ⟨t'', ht'', hused⟩ := hsynced.trackers _ t ht
        obtain rfl := Option.some.inj (ht''.symm.trans hself)
        obtain ⟨t₁, ht₁, hkinds⟩ := hframe.kinds _ t ht
        obtain rfl := Option.some.inj (ht₁.symm.trans hself)
        have htid : t.id = t₁.id := Table.key_of_get? ht
        have hbefore := h.used t (Table.mem_of_get? ht) (hkinds.symm.trans hperiod) u
        have hle := hl.le_remaining h t₁.id u
        rw [Synced.takenOff hsynced, ← htid, ← hbefore] at hle
        rw [Synced.takenOff hsynced, hused, ← htid, ← hbefore]
        refine foldl_subtract (fun v hv => ?_) hle
        rw [values_eq_lost] at hv
        obtain ⟨o, ho, rfl⟩ := List.mem_map.mp hv
        exact h.nonneg o (mem_lost.mp ho).1

/-! ### Runs -/

theorem step_inv {s : State} {l : ℤ × Label} (h : Inv s.clock s.released s.world.db)
    (hclock : Forward s l) (hsound : l.2.Sound s.world) :
    Inv (step env s l).clock (step env s l).released (step env s l).world.db := by
  obtain ⟨now, label⟩ := l
  have hnow := h.mono hclock
  change Inv now (s.released ++ lowered env now s.world label) (exec env now s.world label).db
  cases label with
  | create tag ownerInfo beneficiaryInfo =>
      rw [lowered, List.append_nil]
      exact hnow.create rfl tag ownerInfo beneficiaryInfo
  | accept id =>
      rw [lowered, List.append_nil]
      exact hnow.accept rfl env now id
  | revert id =>
      rw [lowered, List.append_nil]
      exact hnow.revert rfl env now id
  | deliver n => exact hnow.deliver hsound
  | sync order fuel => exact hnow.sync env order fuel

theorem Inv.onceEach {s : State} (h : Inv s.clock s.released s.world.db) : OnceEach s where
  nodup := h.nodup
  used := h.used
  covers t ht hperiod u os hnodup hos := by
    have hkeys : (os.map (·.id)).Nodup := hnodup.map_on fun o ho o' ho' heq =>
      Table.eq_of_key (hos o ho).1 (hos o' ho').1 heq
    rw [h.used t ht hperiod u, ← Table.total_mem_keys (fun o ho => (hos o ho).1) hkeys, remaining]
    refine List.sum_le_sum fun o ho => ?_
    split
    · next hmem =>
      obtain ⟨o', ho', heq⟩ := List.mem_map.mp hmem
      obtain ⟨hrow, htracker, hcounts, hinside⟩ := hos o' ho'
      obtain rfl := Table.eq_of_key hrow ho heq
      -- It is not reverted, and has not left the interval.
      have hleft : (o'.id, u) ∉ s.released := by
        intro hin
        obtain ⟨x, hx, hwhy⟩ := h.gone _ hin
        obtain rfl := Option.some.inj (hx.symm.trans (Table.get?_of_mem ho))
        rcases hwhy with hstate | hout
        · rw [Operation.Counts, hstate] at hcounts
          rcases hcounts with hcounts | hcounts <;> cases hcounts
        · exact hout hinside
      rw [if_pos ⟨htracker, hleft⟩]
    · split
      · exact h.nonneg o ho
      · exact le_refl 0

/-- The service before its first operation. -/
structure Initial (s : State) : Prop where
  operations : s.world.db.operations.rows = []
  trackers : s.world.db.userLimitTrackers.rows = []
  events : s.world.db.events = []
  released : s.released = []

theorem inv_initial {s : State} (h : Initial s) : Inv s.clock s.released s.world.db := by
  have hops : ∀ o, o ∉ s.world.db.operations.rows := fun o => h.operations ▸ List.not_mem_nil
  have htrackers : ∀ t, t ∉ s.world.db.userLimitTrackers.rows := fun t =>
    h.trackers ▸ List.not_mem_nil
  have hevents : ∀ e, e ∉ s.world.db.events := fun e => h.events ▸ List.not_mem_nil
  have hreleased : ∀ p, p ∉ s.released := fun p => h.released ▸ List.not_mem_nil
  refine ⟨fun o ho => absurd ho (hops o), fun o ho => absurd ho (hops o),
    fun o ho => absurd ho (hops o), fun j b hj => absurd hj (hevents _), ?_,
    fun p hp => absurd hp (hreleased p), fun o ho => absurd ho (hops o),
    fun t ht => absurd ht (htrackers t)⟩
  rw [h.released]
  exact List.nodup_nil

/-- **While every event that is handled names only counters that its operation is still on, each
value leaves each counter once**, however often events are delivered and the cron runs. -/
theorem run_released (env : Env) {s : State} (hs : Initial s) (ls : List (ℤ × Label))
    (h : Along (step env) (fun s l => Forward s l ∧ l.2.Sound s.world) s ls) :
    OnceEach (run (step env) s ls) :=
  Inv.onceEach (h.invariant (I := fun s => Inv s.clock s.released s.world.db)
    (fun _ _ hI hok => step_inv hI hok.1 hok.2) (inv_initial hs))

end

/-! ### An event is delivered twice -/

namespace Redelivery

open Sample

def first : State := ⟨(start 3000 0).world, noon, []⟩

theorem initial_first : Initial first := ⟨rfl, rfl, rfl, rfl⟩

def send (operation : Uuid) (rawValue : ℤ) : Label :=
  .create "PIXSEND" (some (request operation 1 rawValue)) none

/-- 300 and 200 are sent, the 300 are reverted, and their event is delivered. -/
def once : List (ℤ × Label) :=
  [(noon, send 10 300), (noon, send 11 200), (noon, .revert 10), (noon, .deliver 2)]

end Redelivery

open Redelivery in
/-- The cron finds the 200 a day later. -/
theorem run_released_once :
    OnceEach (run (step (Sample.env .INTERVAL)) first
      (once ++ [(Sample.nextDay, .sync Sample.byCreation 3)])) := by
  refine run_released _ initial_first _ ⟨⟨?_, trivial⟩, ⟨?_, trivial⟩, ⟨?_, trivial⟩, ⟨?_, ?_⟩,
    ⟨?_, trivial⟩, trivial⟩
  · decide
  · decide
  · decide
  · decide
  · change ∀ p ∈ named _ 2, _
    decide +kernel
  · decide

open Redelivery in
/-- The event is delivered again, and the 300 are subtracted from what is left of the 200. -/
theorem released_twice : ¬ ∀ env s, Initial s → ∀ ls, Along (step env) Forward s ls →
    OnceEach (run (step env) s ls) := by
  intro h
  have honce := h (Sample.env .INTERVAL) first initial_first
    (once ++ [(Sample.noon, .deliver 2)]) (by decide +kernel)
  exact absurd honce.nodup (by decide +kernel)

end ZroServices.ReleasedOnce
