import ZroServices.Operations.PeriodLimits

/-!
# Operations — a reverted operation gives its limit back

What one revert and the delivery of its event do together (`Released`): the value of the operation
is subtracted once from each period counter that its tags name, and the stored tags are emptied.

That is so exactly for the operations that have an owner (`reverted_released_iff`).  The event of
a shared operation carries it under two fields, and it is given back once, through the owner's.
The event of an operation without an owner carries it under the beneficiary's field alone, and the
controller, which attaches the tracker to the owner's operation in both halves, has no operation to
attach it to.
-/

namespace ZroServices

open Foundation
open CreateOperationUseCase RevertOperationUseCase HandleRevertedOperationEventUseCase
open HandleRevertedOperationEventController

/-- The tag of an operation that is in the interval of a day, a month or a year. -/
def intervalTag : MomentUnit → OperationAnalysisTag
  | .day => .DAILY_INTERVAL_LIMIT_INCLUDED
  | .month => .MONTHLY_INTERVAL_LIMIT_INCLUDED
  | .year => .ANNUAL_INTERVAL_LIMIT_INCLUDED

/-- The tags of an operation name a period counter: the tag of its interval, or the tag of the
dates in the period of the operation. -/
def Operation.Names (o : Operation) (now : ℤ) (u : MomentUnit) : Prop :=
  intervalTag u ∈ o.analysisTags ∨
    .DATE_LIMIT_INCLUDED ∈ o.analysisTags ∧ u.period.Same o.createdAt now

instance (o : Operation) (now : ℤ) (u : MomentUnit) : Decidable (o.Names now u) :=
  inferInstanceAs (Decidable (_ ∨ _))

/-- The operation was given back to the tracker, which was `t`. -/
structure Released (now : ℤ) (o : Operation) (t : UserLimitTracker) (db : Db) : Prop where
  emptied : (db.operations.get? o.id).map (·.analysisTags) = some []
  counters : ∃ t', db.userLimitTrackers.get? t.id = some t' ∧
    ∀ u, t'.used u = if o.Names now u then max (t.used u - o.value) 0 else t.used u

/-- What is known at an instant of an operation that stands on the tracker of `c`: the tracker and
its limit are stored, the tags are of the tracker's kind, the counters are not negative, and the
operation is not of the future. -/
structure Releasable (now : ℤ) (db : Db) (o : Operation) (c : TrackedLimit) : Prop where
  finds : Finds db o.userLimitTracker c
  kind : ∀ tag ∈ o.analysisTags, tag ∈ limitIncludedTags c.tracker.periodStart
  used_nonneg : ∀ u, 0 ≤ c.tracker.used u
  created : o.createdAt ≤ now

section
variable {env : Env} {now : ℤ} {item : OperationItem} {c : TrackedLimit} {u : MomentUnit}

section

variable (htags : ∀ tag ∈ item.analysisTags, tag ∈ limitIncludedTags c.tracker.periodStart)
include htags

/-- The period counters, for tags that are not of two kinds. -/
theorem used_given :
    (givenTracker env now item c).used u
      = if intervalTag u ∈ item.analysisTags then subtract (c.tracker.used u) item.value
        else if .DATE_LIMIT_INCLUDED ∈ item.analysisTags ∧ 0 < c.tracker.used u ∧
            startOf u now ≤ item.createdAt then subtract (c.tracker.used u) item.value
        else c.tracker.used u := by
  have nightly : ∀ t, (revertNightly env now c.userLimit item t).used u = t.used u := by
    intro t
    rw [revertNightly]
    split_ifs <;> cases u <;> rfl
  change (revertUserLimitTracker env now c.userLimit item c.tracker).used u = _
  rw [revertUserLimitTracker, nightly]
  cases hp : c.tracker.periodStart with
  | DATE =>
      rw [hp] at htags
      have only : ∀ tag ∈ item.analysisTags, tag = .DATE_LIMIT_INCLUDED := fun tag ht =>
        List.mem_singleton.mp (htags tag ht)
      have day : OperationAnalysisTag.DAILY_INTERVAL_LIMIT_INCLUDED ∉ item.analysisTags :=
        fun h => by cases only _ h
      have month : OperationAnalysisTag.MONTHLY_INTERVAL_LIMIT_INCLUDED ∉ item.analysisTags :=
        fun h => by cases only _ h
      have year : OperationAnalysisTag.ANNUAL_INTERVAL_LIMIT_INCLUDED ∉ item.analysisTags :=
        fun h => by cases only _ h
      have interval : intervalTag u ∉ item.analysisTags := by cases u <;> assumption
      simp only [day, month, year, interval, or_self, if_false]
      by_cases hdate : OperationAnalysisTag.DATE_LIMIT_INCLUDED ∈ item.analysisTags
      · simp only [hdate, if_true, true_and]
        cases u <;> rfl
      · simp only [hdate, if_false, false_and]
  | INTERVAL =>
      rw [hp] at htags
      have date : OperationAnalysisTag.DATE_LIMIT_INCLUDED ∉ item.analysisTags := by
        intro h
        have := htags _ h
        simp [limitIncludedTags] at this
      simp only [date, if_false, false_and]
      by_cases h : OperationAnalysisTag.DAILY_INTERVAL_LIMIT_INCLUDED ∈ item.analysisTags ∨
          OperationAnalysisTag.MONTHLY_INTERVAL_LIMIT_INCLUDED ∈ item.analysisTags ∨
          OperationAnalysisTag.ANNUAL_INTERVAL_LIMIT_INCLUDED ∈ item.analysisTags
      · rw [if_pos h]
        cases u <;> rfl
      · have interval : intervalTag u ∉ item.analysisTags := by
          rw [not_or, not_or] at h
          obtain ⟨hd, hm, hy⟩ := h
          cases u <;> assumption
        rw [if_neg h, if_neg interval]

/-- The value is subtracted from the counters that the tags name. -/
theorem used_given_names
    (hv : 0 ≤ item.value) (hused : 0 ≤ c.tracker.used u) (hcreated : item.createdAt ≤ now) :
    (givenTracker env now item c).used u
      = if intervalTag u ∈ item.analysisTags ∨
          .DATE_LIMIT_INCLUDED ∈ item.analysisTags ∧ u.period.Same item.createdAt now
        then max (c.tracker.used u - item.value) 0 else c.tracker.used u := by
  have hsame : u.period.Same item.createdAt now ↔ startOf u now ≤ item.createdAt :=
    u.period.same_iff_le hcreated
  rw [used_given htags, subtract_eq]
  by_cases hinterval : intervalTag u ∈ item.analysisTags
  · rw [if_pos hinterval, if_pos (Or.inl hinterval)]
  · rw [if_neg hinterval]
    by_cases hdate : .DATE_LIMIT_INCLUDED ∈ item.analysisTags ∧
        u.period.Same item.createdAt now
    · rw [if_pos (Or.inr hdate)]
      by_cases hpos : 0 < c.tracker.used u
      · rw [if_pos ⟨hdate.1, hpos, hsame.mp hdate.2⟩]
      · -- Nothing was used, and nothing is left of it.
        have hzero : c.tracker.used u = 0 := le_antisymm (not_lt.mp hpos) hused
        rw [if_neg fun h => hpos h.2.1, hzero]
        omega
    · rw [if_neg fun h => hdate ⟨h.1, hsame.mpr h.2.2⟩, if_neg (not_or.mpr ⟨hinterval, hdate⟩)]

end

end

section
variable {env : Env} {now now' : ℤ} {db db' : Db} {x : Operation} {c : TrackedLimit}

/-- The event of the operation under the fields of its sides. -/
theorem RevertOperationUseCase.Reverted.event (h : Reverted now db x db') :
    ∃ e : OperationControllerEvent,
      db'.events = db.events ++ [.operation .REVERTED e] ∧
      e.ownerOperation.map (·.item)
        = x.owner.map (fun _ => OperationEventEmitter.formatItem (reverted now x)) ∧
      e.beneficiaryOperation.map (·.item)
        = x.beneficiary.map (fun _ => OperationEventEmitter.formatItem (reverted now x)) := by
  obtain ⟨t, e, -, about, rfl⟩ := h.written
  refine ⟨e, rfl, ?_, ?_⟩
  · rw [about.1, Option.map_map]
    rfl
  · rw [about.2, Option.map_map]
    rfl

/-- The controller attaches the operation's own tracker. -/
theorem attachedTracker_event {j : OperationEventItem} {b : Option OperationEventItem}
    {item : OperationItem} {p : Option Party} (hj : j.item = item)
    (hb : b.map (·.item) = p.map fun _ => item) :
    attachedTracker j b = item.userLimitTrackerId := by
  cases b with
  | none =>
      rw [attachedTracker, hj]
  | some b =>
      obtain ⟨_, -, e⟩ := Option.map_eq_some_iff.mp hb.symm
      exact congrArg (·.userLimitTrackerId) e.symm

/-- **A reverted operation gives its limit back exactly when it has an owner.**  For every revert
that returns, of an operation that has a tracker and tags of the tracker's kind, handling its event
at a later time subtracts the value once from each period counter that the tags name and empties
the stored tags if and only if the operation has an owner. -/
theorem reverted_released_iff (env : Env) {w : World} {id : Uuid} {r : Operation}
    (hrevert : (RevertOperationUseCase.execute now id).run w.db = (.ok r, db'))
    (hx : w.db.operations.get? id = some x) (hpending : x.state = .PENDING)
    (htags : x.analysisTags ≠ []) (hc : Releasable now' w.db x c) :
    Released now' x c.tracker (deliver env now' w.db.events.length { w with db := db' }).db ↔
      x.owner ≠ none := by
  have hxid : x.id = id := Table.key_of_get? hx
  obtain ⟨o, -, ho, ⟨hstate, -⟩ | hr⟩ := revert_ok hrevert
  · rw [hx] at ho
    obtain rfl := Option.some.inj ho
    rw [hpending] at hstate
    cases hstate
  · rw [hx] at ho
    obtain rfl := Option.some.inj ho
    obtain ⟨e, hevents, howner, hbeneficiary⟩ := hr.event
    have hget : db'.events[w.db.events.length]? = some (.operation .REVERTED e) := by
      rw [hevents, List.getElem?_append_right (le_refl _), Nat.sub_self]
      rfl
    have hdeliver : deliver env now' w.db.events.length { w with db := db' }
        = (execute env now' e).exec { w with db := db'.consume w.db.events.length } := by
      rw [deliver]
      simp only [hget]
    obtain ⟨tw, event, ht, -, hdb'⟩ := hr.written
    have stored : db'.operations.get? x.id = some (reverted now x) := by
      rw [hdb']
      exact Table.get?_set_self (hxid ▸ hx) rfl
    rw [hdeliver]
    obtain ⟨j, b⟩ := e
    cases hox : x.owner with
    | none =>
        refine iff_of_false (fun h => ?_) (fun h => h rfl)
        rw [hox] at howner
        obtain rfl : j = none := Option.map_eq_none_iff.mp howner
        rw [exec_stop (w := { w with db := db'.consume w.db.events.length }) ⟨none, b⟩
          (fun _ _ h => by cases h)] at h
        have emptied := h.emptied
        change (db'.operations.get? x.id).map _ = _ at emptied
        rw [stored] at emptied
        exact htags (Option.some.inj emptied)
    | some p =>
        refine iff_of_true ?_ (fun h => by cases h)
        rw [hox] at howner
        obtain ⟨j', rfl, hj⟩ := Option.map_eq_some_iff.mp howner
        have attached : attachedTracker j' b = x.userLimitTracker :=
          attachedTracker_event hj hbeneficiary
        have finds : Finds (db'.consume w.db.events.length) (attachedTracker j' b) c := by
          rw [attached, hdb']
          exact hc.finds
        have htags' : j'.item.analysisTags ≠ [] := by
          rw [hj]
          exact htags
        rw [exec_given (w := { w with db := db'.consume w.db.events.length }) j' b htags' finds]
        have hid : j'.item.id = x.id := by rw [hj]; rfl
        refine ⟨?_, givenTracker env now' j'.item c, ?_, fun u => ?_⟩
        · have get : (db'.consume w.db.events.length).operations.get? j'.item.id
              = some (reverted now x) := hid ▸ stored
          have given : (db'.operations.set (reverted now x).given).get? x.id
              = some (reverted now x).given := Table.get?_set_self stored rfl
          change ((givenBack env now' j'.item c (db'.consume _)).operations.get? x.id).map _ = _
          rw [operations_givenBack get]
          exact congrArg (Option.map _) given
        · obtain ⟨tracker, -, hct, -⟩ := finds
          have hctid : c.tracker.id = tracker := Table.key_of_get? hct
          exact Table.get?_set_self (hctid ▸ hct) givenTracker_id
        · have kind : ∀ tag ∈ j'.item.analysisTags,
              tag ∈ limitIncludedTags c.tracker.periodStart := by
            rw [hj]
            exact hc.kind
          have value_nonneg := j'.value_nonneg
          rw [hj] at value_nonneg kind ⊢
          exact used_given_names kind value_nonneg (hc.used_nonneg u) hc.created

end

/-! ### What stands on a tracker can be released -/

section
variable {env : Env} {now : ℤ} {s : State} {ls : List (ℤ × Command)} {t : UserLimitTracker}
  {l : UserLimit} {item : OperationItem} {c : TrackedLimit}

theorem used_restart_nonneg (h : ∀ u, 0 ≤ t.used u) (u : MomentUnit) :
    0 ≤ (restartUserLimitTracker env now l t).used u := by
  have hd := h .day
  have hm := h .month
  have hy := h .year
  simp only [UserLimitTracker.used] at hd hm hy
  cases u <;>
  · simp only [UserLimitTracker.used, restartUserLimitTracker, restartNightlyUserLimitTracker,
      restartUserLimitTrackerByDatePeriodStart]
    split_ifs <;> simp only [le_refl, hd, hm, hy]

theorem used_given_nonneg (h : ∀ u, 0 ≤ c.tracker.used u)
    (htags : ∀ tag ∈ item.analysisTags, tag ∈ limitIncludedTags c.tracker.periodStart)
    (u : MomentUnit) : 0 ≤ (givenTracker env now item c).used u := by
  have hu := h u
  rw [used_given htags, subtract_eq]
  split_ifs
  · exact le_max_right _ _
  · exact le_max_right _ _
  · exact hu

/-- The counters are not negative, and the charges are not of the future, over every run. -/
theorem run_used_nonneg (h : Along (step env) Forward s ls) (hb : Books env s.world.db)
    (htrackers : s.world.db.userLimitTrackers.rows = []) :
    Books env (run (step env) s ls).world.db ∧
      ∀ t ∈ (run (step env) s ls).world.db.userLimitTrackers.rows, (∀ u, 0 ≤ t.used u) ∧
        ∀ x ∈ (run (step env) s ls).world.db.charges t.id,
          x.time ≤ (run (step env) s ls).clock := by
  refine run_tracked (I := fun s t H => (∀ u, 0 ≤ t.used u) ∧ ∀ x ∈ H, x.time ≤ s.clock) ?_ h hb ?_
  · intro s l hb hclock hI y H hy
    change (∀ u, 0 ≤ y.used u) ∧ ∀ x ∈ H, x.time ≤ l.1
    cases hy with
    | kept t ht =>
        obtain ⟨hused, hpast⟩ := hI y ht
        exact ⟨hused, fun x hx => (hpast x hx).trans hclock⟩
    | charged l' t limitType v _ _ ht _ hv _ =>
        obtain ⟨hused, hpast⟩ := hI t (Db.userLimitTracker_of_find ht).1
        refine ⟨fun u => ?_, fun x hx => ?_⟩
        · have hrestart : 0 ≤ (restartUserLimitTracker env l.1 l' t).used u :=
            used_restart_nonneg hused u
          change 0 ≤ (chargeTracker env l.1 l' (restartUserLimitTracker env l.1 l' t) v).used u
          rw [used_charge]
          exact add_nonneg hrestart hv
        · rcases List.mem_append.mp hx with hx | hx
          · exact (hpast x hx).trans hclock
          · rw [List.mem_singleton.mp hx]
    | started c limitType v _ _ hc _ hv _ =>
        refine ⟨fun u => ?_, fun x hx => ?_⟩
        · change 0 ≤ (chargeTracker env l.1 c.userLimit c.tracker v).used u
          rw [used_charge, hc.used u, zero_add]
          exact hv
        · rw [List.mem_singleton.mp hx]
    | given n j b c pre post _ _ hc hH htags =>
        obtain ⟨_, -, hct, -⟩ := hc
        obtain ⟨hused, hpast⟩ := hI c.tracker (Table.mem_of_get? hct)
        refine ⟨used_given_nonneg hused fun tag ht => htags ▸ ht, fun x hx => ?_⟩
        rw [hH] at hpast
        exact (hpast x (mem_middle hx)).trans hclock
  · intro t ht
    rw [htrackers] at ht
    cases ht

/-- What stands on a tracker can be released, after every run and from then on. -/
theorem run_releasable (h : Along (step env) Forward s ls) (hops : s.world.db.operations.rows = [])
    (htrackers : s.world.db.userLimitTrackers.rows = []) (hevents : s.world.db.awaiting = [])
    {o : Operation} (ho : o ∈ (run (step env) s ls).world.db.operations.rows) {tracker : Uuid}
    (hs : o.Stands tracker) (hnow : (run (step env) s ls).clock ≤ now) :
    ∃ c, Releasable now (run (step env) s ls).world.db o c := by
  obtain ⟨hb, hI⟩ := run_used_nonneg h (books_start env hops htrackers hevents) htrackers
  obtain ⟨t, l, ht, hbooking⟩ := hb.booking o ho tracker hs.1
  have htid : t.id = tracker := Table.key_of_get? ht
  obtain ⟨hused, hpast⟩ := hI t (Table.mem_of_get? ht)
  refine ⟨⟨l, t⟩, ⟨tracker, hs.1, ht, hbooking.userLimit⟩, fun tag htag => ?_, hused, ?_⟩
  · rw [hbooking.tags.resolve_left hs.2] at htag
    exact htag
  · refine (hpast o.charge ?_).trans hnow
    rw [htid]
    exact List.mem_map_of_mem (Db.mem_standing.mpr ⟨ho, hs⟩)

/-- 300 are sent and reverted: they are given back. -/
theorem reverted_released_iff_sample :
    let w := (run (step (Sample.env .DATE)) (Sample.start 3000 0)
      [(Sample.noon, Sample.send 10 300)]).world
    ∃ x c db', w.db.operations.get? 10 = some x ∧ x.owner ≠ none ∧
      Released Sample.noon x c
        (deliver (Sample.env .DATE) Sample.noon w.db.events.length { w with db := db' }).db := by
  intro w
  have hop : ∃ x ∈ w.db.operations.rows, x.id = 10 ∧ x.state = .PENDING ∧ x.owner ≠ none ∧
      ∃ tracker ∈ x.userLimitTracker, x.Stands tracker := by decide +kernel
  have hok : ((RevertOperationUseCase.execute Sample.noon 10).run w.db).1.toBool = true := by
    decide +kernel
  obtain ⟨x, hmem, hid, hpending, howner, tracker, -, hs⟩ := hop
  obtain ⟨c, hc⟩ := run_releasable (s := Sample.start 3000 0)
    (by decide +kernel) rfl rfl rfl hmem hs (le_refl Sample.noon)
  have hx : w.db.operations.get? 10 = some x := hid ▸ Table.get?_of_mem hmem
  cases h : (RevertOperationUseCase.execute Sample.noon 10).run w.db with
  | mk result db' =>
      rw [h] at hok
      cases result with
      | error e => cases hok
      | ok r =>
          exact ⟨x, c.tracker, db', hx, howner, (reverted_released_iff (Sample.env .DATE) h hx
            hpending hs.2 hc).mpr howner⟩

/-- The second user receives 300, and they are reverted: they stay charged, and tagged. -/
theorem reverted_beneficiary_kept :
    let w := (run (step (Sample.env .DATE)) (Sample.start 3000 0)
      [(Sample.noon, .create "PIXREC" none (some (Sample.request 10 2 300))),
        (Sample.noon, .revert 10), (Sample.noon, .deliver 2)]).world
    w.db.events.length = 2 ∧
      ∃ o ∈ w.db.operations.get? 10, o.state = .REVERTED ∧
        o.analysisTags = [.DATE_LIMIT_INCLUDED] ∧
        ∃ t ∈ o.userLimitTracker.bind w.db.userLimitTrackers.get?, t.usedDailyLimit = 300 := by
  decide +kernel

end

end ZroServices
