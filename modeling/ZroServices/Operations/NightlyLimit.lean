import ZroServices.Foundation.Window
import ZroServices.Operations.PeriodLimits

/-!
# Operations — the nightly counter

A night of a limit is a window of `Foundation.Window`: it starts every day at `nighttimeStart`
and lasts until `nighttimeEnd`.  The nightly counter has no instant of its own.  It is emptied when
an operation is charged in the daytime, and a reverted operation is subtracted when its creation
and the current instant are both at night, each tested against the night of the server's date.

So the counter is the usage of the current night only while nothing is carried from one night to
the next (`NightOk`): a charge at night finds the counter empty or something of this night on the
tracker, and a release is of this night exactly when the two tests pass.  Along runs of such steps
the counter is the usage of the current night after every create at night (`nightly_usage`).  Two
nights without a charge in the day between them are enough to break it
(`nightly_usage_two_nights`).
-/

namespace ZroServices

open Foundation
open CreateOperationUseCase HandleRevertedOperationEventUseCase
open HandleRevertedOperationEventController

/-! ### Nights -/

/-- The night that starts at a minute of every day and lasts until another. -/
def nightWindow (start stop : ℕ) : Window where
  period := Period.unit.scale msPerDay (midnight + start * 60000) msPerDay_pos
  length := (stop + 1440 - start) % 1440 * 60000

/-- The nights of a limit. -/
def LimitValues.night (l : LimitValues ℕ) : Option Window :=
  l.nighttime.map fun n => nightWindow n.1 n.2

theorem LimitValues.nighttime_lt {N : Type} {l : LimitValues N} {start stop : ℕ}
    (h : l.nighttime = some (start, stop)) : start < 1440 ∧ stop < 1440 := by
  simp only [LimitValues.nighttime, bind, Option.bind_eq_some_iff] at h
  obtain ⟨_, -, _, -, a, ha, b, hb, e⟩ := h
  obtain ⟨rfl, rfl⟩ := Prod.mk.inj (Option.some.inj e)
  exact ⟨hourTime_lt ha, hourTime_lt hb⟩

/-! ### The nightly counter of a tracker -/

section
variable {env : Env} {now : ℤ} {t : UserLimitTracker} {l : UserLimit} {c : TrackedLimit}
  {item : OperationItem} {v : ℤ}

theorem usedNightly_charged (h : 0 ≤ t.usedNightlyLimit) :
    ((TrackedLimit.mk l (restartUserLimitTracker env now l t)).charged env now v).usedNightlyLimit
      = if l.isInNighttimeInterval env.serverOffset now now then t.usedNightlyLimit + v
        else 0 := by
  change (if l.isInNighttimeInterval env.serverOffset now now then
    (restartUserLimitTracker env now l t).usedNightlyLimit + v
    else (restartUserLimitTracker env now l t).usedNightlyLimit) = _
  rw [usedNightlyLimit_restart h]
  split_ifs <;> rfl

theorem usedNightly_started (h : c.tracker.usedNightlyLimit = 0) :
    (c.charged env now v).usedNightlyLimit
      = if c.userLimit.isInNighttimeInterval env.serverOffset now now then 0 + v else 0 := by
  change (if c.userLimit.isInNighttimeInterval env.serverOffset now now then
    c.tracker.usedNightlyLimit + v else c.tracker.usedNightlyLimit) = _
  rw [h]

/-- The handler takes the operation for one of the current night. -/
def TestedAtNight (env : Env) (now : ℤ) (l : UserLimit) (createdAt : ℤ) : Prop :=
  l.isInNighttimeInterval env.serverOffset now createdAt ∧
    l.isInNighttimeInterval env.serverOffset now now

instance (env : Env) (now : ℤ) (l : UserLimit) (createdAt : ℤ) :
    Decidable (TestedAtNight env now l createdAt) := inferInstanceAs (Decidable (_ ∧ _))

theorem usedNightly_given :
    (givenTracker env now item c).usedNightlyLimit
      = if TestedAtNight env now c.userLimit item.createdAt then
          max (c.tracker.usedNightlyLimit - item.value) 0
        else c.tracker.usedNightlyLimit := by
  have used : ∀ t : UserLimitTracker, t.usedNightlyLimit = c.tracker.usedNightlyLimit →
      (revertNightly env now c.userLimit item t).usedNightlyLimit
        = if TestedAtNight env now c.userLimit item.createdAt then
            max (c.tracker.usedNightlyLimit - item.value) 0
          else c.tracker.usedNightlyLimit := by
    intro t ht
    rw [revertNightly, ← subtract_eq, ← ht]
    by_cases h : TestedAtNight env now c.userLimit item.createdAt
    · rw [if_pos h]
      exact congrArg _ (if_pos h)
    · rw [if_neg h]
      exact congrArg _ (if_neg h)
  refine used _ ?_
  split_ifs <;> rfl

end

/-! ### Steps that carry nothing from one night to the next -/

/-- A charge at night is taken for one at night, and finds the counter of the limit empty or an
operation of this night on the tracker. -/
def ChargesTonight (env : Env) (now : ℤ) (db : Db) (user : UserId) (limitType : LimitType) : Prop :=
  ∀ values ∈ db.limitValues env user limitType, ∀ W ∈ values.night, W.Inside now →
    values.isInNighttimeInterval env.serverOffset now now ∧
    ∀ l ∈ db.userLimitByUserAndLimitType user limitType.id,
      ∀ t ∈ db.userLimitTrackerByUserLimit l,
        t.usedNightlyLimit = 0 ∨ ∃ y ∈ db.charges t.id, W.Same y.time now

instance (env : Env) (now : ℤ) (db : Db) (user : UserId) (limitType : LimitType) :
    Decidable (ChargesTonight env now db user limitType) := by
  unfold ChargesTonight
  infer_instance

/-- A release is taken for one of the current night when it is one, unless it is of nothing or no
other operation of this night stands on the tracker. -/
def ReleasesTonight (env : Env) (now : ℤ) (db : Db) (item : OperationItem) (c : TrackedLimit) :
    Prop :=
  ∀ W ∈ c.userLimit.night,
    (TestedAtNight env now c.userLimit item.createdAt ↔ W.Same item.createdAt now) ∨
      item.value = 0 ∨
      ∀ y ∈ (db.charges c.tracker.id).erase ⟨item.createdAt, item.value⟩, ¬ W.Same y.time now

instance (env : Env) (now : ℤ) (db : Db) (item : OperationItem) (c : TrackedLimit) :
    Decidable (ReleasesTonight env now db item c) := by
  unfold ReleasesTonight
  infer_instance

/-- The command carries nothing from one night to the next. -/
def NightOk (env : Env) (s : State) (l : ℤ × Command) : Prop :=
  match l.2 with
  | .deliver n => ∀ x ∈ s.world.db.delivered n, ReleasesTonight env l.1 s.world.db x.1 x.2
  | command => ∀ x ∈ command.limited env s.world.db,
      ChargesTonight env l.1 s.world.db x.1 x.2

instance (env : Env) (s : State) (l : ℤ × Command) : Decidable (NightOk env s l) :=
  match l with
  | (_, .deliver _) => inferInstanceAs (Decidable (∀ _ ∈ _, _))
  | (_, .create ..) | (_, .accept _) | (_, .revert _) => inferInstanceAs (Decidable (∀ _ ∈ _, _))

/-- The nightly counter tracks the usage of the nights of the limit. -/
def TracksNights (s : State) (t : UserLimitTracker) (H : List (Charge ℤ)) : Prop :=
  ∀ l, s.world.db.userLimits.get? t.userLimit = some l → ∀ W ∈ l.night,
    Tracks W t.usedNightlyLimit H s.clock

section
variable {env : Env} {now : ℤ} {s : State} {ls : List (ℤ × Command)}

theorem NightOk.charges {l : ℤ × Command} (h : NightOk env s l) {user : UserId}
    {limitType : LimitType} (hl : l.2.limited env s.world.db = some (user, limitType)) :
    ChargesTonight env l.1 s.world.db user limitType := by
  obtain ⟨now, command⟩ := l
  cases command with
  | create tag ownerInfo beneficiaryInfo => exact h (user, limitType) hl
  | accept | revert | deliver => cases hl

theorem erase_middle {pre post : List (Charge ℤ)} {x y : Charge ℤ} (h : y ∈ pre ++ post) :
    y ∈ (pre ++ x :: post).erase x := by
  have perm : ((pre ++ x :: post).erase x).Perm (pre ++ post) := by
    have middle : (pre ++ x :: post).Perm (x :: (pre ++ post)) := List.perm_middle
    simpa only [List.erase_cons_head] using middle.erase x
  exact perm.mem_iff.mpr h

/-- **An update keeps the nightly counter in track.** -/
theorem Update.tracksNights {l : ℤ × Command} {y : UserLimitTracker} {H : List (Charge ℤ)}
    (h : Update env l.1 s.world.db l.2 (step env s l).world.db.userLimits y H)
    (hb : Books env s.world.db) (hclock : s.clock ≤ l.1) (hok : NightOk env s l)
    (hI : ∀ t ∈ s.world.db.userLimitTrackers.rows, TracksNights s t (s.world.db.charges t.id)) :
    TracksNights (step env s l) y H := by
  intro x hx W hW
  change Tracks W _ _ l.1
  cases h with
  | kept t ht => exact (hI y ht x (step_limit hb ht hx) W hW).later hclock
  | charged x' t limitType v hcommand hl ht hget hv _ =>
      obtain ⟨htmem, hid⟩ := Db.userLimitTracker_of_find ht
      change (step env s l).world.db.userLimits.get?
        (restartUserLimitTracker env l.1 x' t).userLimit = _ at hx
      rw [restart_userLimit, hid, hget] at hx
      obtain rfl := Option.some.inj hx
      have tracks : Tracks W t.usedNightlyLimit (s.world.db.charges t.id) s.clock :=
        hI t htmem x' (by rw [hid]; exact (Db.userLimit_find hl).1) W hW
      rw [usedNightly_charged tracks.used_nonneg]
      have charges := hok.charges hcommand x'.toLimitValues (Db.limitValues_of_find hl) W hW
      by_cases hinside : W.Inside l.1
      · obtain ⟨hnight, hfresh⟩ := charges hinside
        rw [if_pos hnight]
        exact tracks.charge hclock hv (hfresh x' hl t ht)
      · refine tracks.charge_outside hclock hv ?_ hinside
        split
        · exact add_nonneg tracks.used_nonneg hv
        · exact le_refl _
  | started c limitType v hcommand hvalues hc hget hv _ =>
      change (step env s l).world.db.userLimits.get? c.tracker.userLimit = _ at hx
      rw [hc.userLimit, hget] at hx
      obtain rfl := Option.some.inj hx
      rw [usedNightly_started hc.usedNightlyLimit]
      by_cases hinside : W.Inside l.1
      · rw [if_pos (hok.charges hcommand _ hvalues W hW hinside).1]
        exact (tracks_new l.1).charge (le_refl _) hv (Or.inl rfl)
      · refine (tracks_new l.1).charge_outside (le_refl _) hv ?_ hinside
        split
        · rw [zero_add]
          exact hv
        · exact le_refl _
  | given n j b c pre post hcommand he hc hH htags =>
      have htmem : c.tracker ∈ s.world.db.userLimitTrackers.rows := by
        obtain ⟨_, -, hct, -⟩ := id hc
        exact Table.mem_of_get? hct
      obtain ⟨_, -, -, hcl⟩ := id hc
      rw [givenTracker_userLimit] at hx
      have hx' := step_limit hb htmem hx
      rw [hcl] at hx'
      obtain rfl := Option.some.inj hx'
      have tracks := hI c.tracker htmem c.userLimit hcl W hW
      rw [hH] at tracks
      have hne : j.item.analysisTags ≠ [] := htags ▸ limitIncludedTags_ne_nil _
      have releases : ReleasesTonight env l.1 s.world.db j.item c := by
        rw [NightOk, hcommand] at hok
        exact hok (j.item, c) (Db.delivered_of_finds he hne hc)
      rw [usedNightly_given]
      rcases releases W hW with htest | hzero | hlast
      · by_cases hsame : W.Same j.item.createdAt l.1
        · rw [if_pos (htest.mpr hsame)]
          exact tracks.release hclock hsame
        · rw [if_neg fun e => hsame (htest.mp e)]
          exact tracks.drop hclock (Or.inl hsame)
      · have : (if TestedAtNight env l.1 c.userLimit j.item.createdAt then
            max (c.tracker.usedNightlyLimit - j.item.value) 0
            else c.tracker.usedNightlyLimit) = c.tracker.usedNightlyLimit := by
          rw [hzero, sub_zero, max_eq_left tracks.used_nonneg, ite_self]
        rw [this]
        exact tracks.drop hclock (Or.inr hzero)
      · refine tracks.drop_last hclock ?_ fun y hy => hlast y ?_
        · split
          · exact le_max_right _ _
          · exact tracks.used_nonneg
        · rw [hH]
          exact erase_middle hy

/-- The nightly counters are in track over every run that carries nothing from one night to the
next. -/
theorem run_tracksNights (h : Along (step env) (fun s l => Forward s l ∧ NightOk env s l) s ls)
    (hb : Books env s.world.db) (htrackers : s.world.db.userLimitTrackers.rows = []) :
    Books env (run (step env) s ls).world.db ∧
      ∀ t ∈ (run (step env) s ls).world.db.userLimitTrackers.rows,
        TracksNights (run (step env) s ls) t ((run (step env) s ls).world.db.charges t.id) := by
  refine run_tracked (I := TracksNights) ?_ h hb ?_
  · rintro s l hb ⟨hclock, hok⟩ hI y H hy
    exact hy.tracksNights hb hclock hok hI
  · intro t ht
    rw [htrackers] at ht
    cases ht

/-- **The nightly counter is the usage of the current night.**  After a run without operations and
trackers at its start, in which time does not go back and nothing is carried from one night to the
next, that ends with a create at night: the nightly counter of the limit that the created
operation was charged to is the sum of the values that stand on it from the same night. -/
theorem nightly_usage (env : Env) {s : State} {ls : List (ℤ × Command)} {now : ℤ} {tag : String}
    {ownerInfo beneficiaryInfo : Option CreateOperationParticipant}
    (h : Along (step env) (fun s l => Forward s l ∧ NightOk env s l) s
      (ls ++ [(now, .create tag ownerInfo beneficiaryInfo)]))
    (hops : s.world.db.operations.rows = [])
    (htrackers : s.world.db.userLimitTrackers.rows = []) (hevents : s.world.db.awaiting = [])
    {r : CreatedOperation} {w : World}
    (hcreate : CreateOperationUseCase.execute env now tag ownerInfo beneficiaryInfo
      (run (step env) s ls).world = .ok r w)
    {o : Operation} (ho : r.ownerOperation = some o ∨ r.beneficiaryOperation = some o)
    {tracker : Uuid} (htracker : o.userLimitTracker = some tracker) :
    ∃ t l, w.db.userLimitTrackers.get? tracker = some t ∧
      w.db.userLimits.get? t.userLimit = some l ∧
      ∀ W ∈ l.night, W.Inside now →
        t.usedNightlyLimit = windowUsage W (w.db.charges tracker) now := by
  obtain ⟨hb, hI⟩ := run_tracksNights h (books_start env hops htrackers hevents) htrackers
  obtain ⟨tt, owner, beneficiary, db₁, db₂, db₃, hx⟩ := execute_ok hcreate
  -- The run ends with the execution.
  have hend : (run (step env) s (ls ++ [(now, .create tag ownerInfo beneficiaryInfo)]))
      = ⟨w, now⟩ := by
    rw [run_append, run_cons, run_nil, step, execCommand, App.exec, atomic_ok.mpr hcreate]
  rw [hend] at hb hI
  obtain ⟨hget, i, hcharge⟩ := hx.returned ho
  obtain ⟨t, l, ht, hbooking⟩ := hb.booking o (Table.mem_of_get? hget) tracker htracker
  have htid : t.id = tracker := Table.key_of_get? ht
  refine ⟨t, l, ht, hbooking.userLimit, fun W hW hinside => ?_⟩
  have tracks := hI t (Table.mem_of_get? ht) l hbooking.userLimit W hW
  rw [htid] at tracks
  -- The created operation stands on the tracker.
  have htags : o.analysisTags ≠ [] := by
    have e := hcharge.userLimitTracker
    rw [htracker, OperationInfo.operation_userLimitTracker] at e
    obtain ⟨c, hc, -⟩ := Option.map_eq_some_iff.mp e.symm
    rw [hcharge.analysisTags, OperationInfo.operation_analysisTags, hc]
    exact limitIncludedTags_ne_nil _
  have htime : o.createdAt = now := by
    rw [hcharge.createdAt, OperationInfo.operation_createdAt]
  refine tracks.usage_eq now (le_refl _) ⟨o.charge, ?_, ?_⟩
  · exact List.mem_map_of_mem (Db.mem_standing.mpr ⟨Table.mem_of_get? hget, htracker, htags⟩)
  · change W.Same o.createdAt now
    rw [htime]
    exact Window.same_self hinside

/-- Ten in the evening. -/
def Sample.evening : ℤ := Sample.noon + 10 * Sample.hour

/-- 300 and 200 are sent in one night: 500 of the nightly limit are used. -/
theorem nightly_usage_sample :
    ∃ r w t l tracker, CreateOperationUseCase.execute (Sample.env .DATE)
        (Sample.evening + Sample.hour) "PIXSEND" (some (Sample.request 11 1 200)) none
        (run (step (Sample.env .DATE)) (Sample.start 3000 0)
          [(Sample.evening, Sample.send 10 300)]).world = .ok r w ∧
      w.db.userLimitTrackers.get? tracker = some t ∧ w.db.userLimits.get? t.userLimit = some l ∧
      ∀ W ∈ l.night, W.Inside (Sample.evening + Sample.hour) →
        t.usedNightlyLimit
          = windowUsage W (w.db.charges tracker) (Sample.evening + Sample.hour) := by
  have returns : (((returned (CreateOperationUseCase.execute (Sample.env .DATE)
      (Sample.evening + Sample.hour) "PIXSEND" (some (Sample.request 11 1 200)) none)
      (run (step (Sample.env .DATE)) (Sample.start 3000 0)
        [(Sample.evening, Sample.send 10 300)]).world).bind (·.ownerOperation)).bind
      (·.userLimitTracker)).isSome := by
    decide +kernel
  obtain ⟨tracker, htracker⟩ := Option.isSome_iff_exists.mp returns
  obtain ⟨o, ho, htracker⟩ := Option.bind_eq_some_iff.mp htracker
  obtain ⟨r, hr, ho⟩ := Option.bind_eq_some_iff.mp ho
  obtain ⟨w, hcreate⟩ := returned_eq_some.mp hr
  obtain ⟨t, l, ht, hl, h⟩ := nightly_usage (Sample.env .DATE) (s := Sample.start 3000 0)
    (by decide +kernel) rfl rfl rfl hcreate (Or.inl ho) htracker
  exact ⟨r, w, t, l, tracker, hcreate, ht, hl, h⟩

/-- 300 are sent at ten in the evening, and 200 at ten in the evening of the next day: the nightly
counter is 500, and 200 are used in the night. -/
theorem nightly_usage_two_nights :
    Along (step (Sample.env .DATE)) Forward (Sample.start 3000 0)
        [(Sample.evening, Sample.send 10 300), (Sample.evening + msPerDay, Sample.send 11 200)] ∧
      (Sample.userLimit 0).night = some (nightWindow 1200 360) ∧
      (nightWindow 1200 360).Inside (Sample.evening + msPerDay) ∧
      Returns (CreateOperationUseCase.execute (Sample.env .DATE) (Sample.evening + msPerDay)
          "PIXSEND" (some (Sample.request 11 1 200)) none)
        (run (step (Sample.env .DATE)) (Sample.start 3000 0)
          [(Sample.evening, Sample.send 10 300)]).world
        (fun w => w.db.userLimitByUserAndLimitType 1 1 = some (Sample.userLimit 0) ∧
          ∃ t ∈ w.db.userLimitTrackerByUserLimit (Sample.userLimit 0),
            t.usedNightlyLimit = 500 ∧
            windowUsage (nightWindow 1200 360) (w.db.charges t.id) (Sample.evening + msPerDay)
              = 200) := by
  refine ⟨by decide +kernel, rfl, by decide +kernel, by decide +kernel⟩

end

end ZroServices
