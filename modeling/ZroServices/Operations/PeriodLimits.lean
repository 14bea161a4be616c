import ZroServices.Operations.Charges

/-!
# Operations — the period limits hold

For a limit type whose periods start at a DATE, the PENDING and ACCEPTED operations of an owner
never exceed the daily, monthly and yearly limit of the owner (`run_period_limits`).

The three period counters of the limit's tracker are usage counters, and a command does to them
what `Foundation.Counter` does: `counter_charged`, `counter_started`, `counter_given`.  So they
cover the charges that stand on the tracker, over every run in which time does not go back, and
what stands on a tracker fits into its limit (`run_fits`).  The operations that count are among
those that stand (`Booked.stands`).
-/

namespace ZroServices

open Foundation
open CreateOperationUseCase HandleRevertedOperationEventUseCase
open HandleRevertedOperationEventController

/-! ### The counters of a tracker -/

section
variable {env : Env} {now : ℤ} {t : UserLimitTracker} {l : UserLimit} {c : TrackedLimit}
  {item : OperationItem} {u : MomentUnit} {v : ℤ}

theorem counter_charged (hdate : t.periodStart = .DATE) :
    ((TrackedLimit.mk l (restartUserLimitTracker env now l t)).charged env now v).counter u
      = (t.counter u).charge u.period now v := by
  have used : ((TrackedLimit.mk l (restartUserLimitTracker env now l t)).charged env now v).used u
      = (restartUserLimitTracker env now l t).used u + v := by
    cases u <;> rfl
  rw [UserLimitTracker.counter, used, used_restart hdate]
  rfl

theorem counter_started (hc : c.tracker.used u = 0) :
    (c.charged env now v).counter u = (⟨0, now⟩ : Counter ℤ).charge u.period now v := by
  have used : (c.charged env now v).used u = c.tracker.used u + v := by
    cases u <;> rfl
  rw [UserLimitTracker.counter, used, hc, Counter.charge, Counter.restart]
  simp only [lt_self_iff_false, false_and, if_false]
  rfl

theorem subtract_eq (used value : ℤ) : subtract used value = max (used - value) 0 := by
  rw [subtract]
  split <;> omega

theorem counter_given (htags : item.analysisTags = [.DATE_LIMIT_INCLUDED]) :
    (givenTracker env now item c).counter u
      = (c.tracker.counter u).release u.period now ⟨item.createdAt, item.value⟩ := by
  have used : (givenTracker env now item c).used u
      = (revertUserLimitTrackerByDatePeriod now item c.tracker).used u := by
    rw [givenTracker, revertUserLimitTracker, htags]
    simp only [List.mem_singleton, reduceCtorEq, or_self, if_false, if_true, revertNightly]
    split_ifs <;> cases u <;> rfl
  rw [UserLimitTracker.counter, used, Counter.release]
  congr 1
  cases u <;> exact if_congr Iff.rfl (subtract_eq _ _) rfl

end

/-! ### The operations that count -/

/-- The operation counts for the limit of a user. -/
structure Operation.CountsFor (env : Env) (user : UserId) (limitType : LimitType)
    (o : Operation) : Prop where
  counts : o.Counts
  owner : o.owner.map (·.user) = some user
  limitType : o.limitType env = some limitType

instance (env : Env) (user : UserId) (limitType : LimitType) (o : Operation) :
    Decidable (o.CountsFor env user limitType) :=
  decidable_of_iff (o.Counts ∧ o.owner.map (·.user) = some user ∧ o.limitType env = some limitType)
    ⟨fun ⟨a, b, c⟩ => ⟨a, b, c⟩, fun ⟨a, b, c⟩ => ⟨a, b, c⟩⟩

/-- What the PENDING and ACCEPTED operations of an owner use of a limit type, in the day, month or
year of an instant. -/
def Db.used (env : Env) (db : Db) (user : UserId) (limitType : LimitType) (u : MomentUnit)
    (t : ℤ) : ℤ :=
  usage u.period ((db.operations.rows.filter fun o => decide (o.CountsFor env user limitType)).map
    (·.charge)) t

section
variable {env : Env} {db : Db} {user : UserId} {limitType : LimitType} {l : UserLimit}
  {o : Operation}

theorem limitTypeById_id {id : LimitTypeId} (h : env.limitTypeById id = some limitType) :
    limitType.id = id := by
  have := List.find?_some h
  exact of_decide_eq_true this

theorem Operation.limitTypeById (h : o.limitType env = some limitType) :
    env.limitTypeById limitType.id = some limitType := by
  obtain ⟨h, -⟩ := Option.filter_eq_some_iff.mp h
  obtain ⟨id, -, h⟩ := Option.bind_eq_some_iff.mp h
  rw [limitTypeById_id h]
  exact h

/-- An operation that counts for a limit stands on the tracker of the limit. -/
theorem Booked.stands (hb : Booked env db) (ho : o ∈ db.operations.rows)
    (hc : o.CountsFor env user limitType) :
    ∃ l, db.userLimitByUserAndLimitType user limitType.id = some l ∧
      ∃ t ∈ db.userLimitTrackers.rows, t.userLimit = l.id ∧
        t.periodStart = limitType.periodStart ∧ o.Stands t.id := by
  obtain ⟨p, howner, huser⟩ := Option.map_eq_some_iff.mp hc.owner
  have hcarried := hb.carried o ho (by rw [howner]; simp) (by rw [hc.limitType]; simp)
  obtain ⟨tracker, htracker⟩ := Option.ne_none_iff_exists'.mp hcarried
  obtain ⟨t, l, ht, hbooking⟩ := hb.booking o ho tracker htracker
  have htmem := Table.mem_of_get? ht
  obtain ⟨l', limitType', hl', hfind, hlt, hperiod⟩ := hb.limit t htmem
  obtain rfl := Option.some.inj (hbooking.userLimit.symm.trans hl')
  -- The limit is that of the owner, for the limit type of the operation.
  have hltid : limitType.id = l.limitType := by
    have := hbooking.limitType
    rw [hc.limitType] at this
    exact Option.some.inj this
  have hluser : user = l.user := by
    have := hbooking.user
    rw [Operation.limited, howner] at this
    exact huser.symm.trans (Option.some.inj this)
  have hlimitType : limitType' = limitType := by
    rw [← hltid, Operation.limitTypeById hc.limitType] at hlt
    exact (Option.some.inj hlt).symm
  have hid : t.id = tracker := Table.key_of_get? ht
  refine ⟨l, hltid ▸ hluser ▸ hfind, t, htmem, (Table.key_of_get? hl').symm, hlimitType ▸ hperiod,
    hid ▸ htracker, ?_⟩
  exact hb.tagged o ho hcarried hc.counts

/-- What counts for a limit is among the charges of its tracker, if anything counts. -/
theorem Booked.used_le (hb : Booked env db)
    (hl : db.userLimitByUserAndLimitType user limitType.id = some l) (u : MomentUnit) (t : ℤ) :
    db.used env user limitType u t = 0 ∨ ∃ tracker ∈ db.userLimitTrackers.rows,
      tracker.userLimit = l.id ∧ tracker.periodStart = limitType.periodStart ∧
        db.used env user limitType u t ≤ usage u.period (db.charges tracker.id) t := by
  by_cases hnone : ∃ o ∈ db.operations.rows, o.CountsFor env user limitType
  · obtain ⟨o, ho, hc⟩ := hnone
    obtain ⟨l', hl', tracker, htracker, hid, hperiod, -⟩ := hb.stands ho hc
    obtain rfl := Option.some.inj (hl.symm.trans hl')
    refine Or.inr ⟨tracker, htracker, hid, hperiod, usage_filter_le hb.nonneg fun x hx _ hcx => ?_⟩
    obtain ⟨l'', hl'', tracker', htracker', hid', -, hs⟩ := hb.stands hx hcx
    obtain rfl := Option.some.inj (hl.symm.trans hl'')
    rw [hb.one_tracker tracker htracker tracker' htracker' (hid.trans hid'.symm)]
    exact hs
  · left
    have : db.operations.rows.filter (fun o => decide (o.CountsFor env user limitType)) = [] := by
      refine List.filter_eq_nil_iff.mpr fun o ho => ?_
      rw [decide_eq_true_eq]
      exact fun hc => hnone ⟨o, ho, hc⟩
    rw [Db.used, this]
    rfl

end

/-! ### The limits -/

section
variable {env : Env} {now : ℤ} {db db' : Db} {s : State} {ls : List (ℤ × Command)}
variable {l : ℤ × Command} {H : List (Charge ℤ)}

/-- No change takes a limit away. -/
theorem Change.userLimits (h : Change env now db db') {id : Uuid} {l : UserLimit}
    (hl : db.userLimits.get? id = some l) : db'.userLimits.get? id = some l := by
  cases h with
  | limitCreated h =>
      cases h with
      | same => exact hl
      | created l' userLimits _ _ hins _ => exact Table.get?_insert?_of_some hins hl
  | opened | linked | sent => exact hl
  | accepted o h =>
      obtain ⟨t, t', ts, es, -, -, -, rfl⟩ := h.written
      exact hl
  | reverted o h =>
      obtain ⟨t, event, -, -, rfl⟩ := h.written
      exact hl
  | delivered n h => cases h <;> exact hl

theorem step_userLimits {id : Uuid} {limit : UserLimit}
    (hl : s.world.db.userLimits.get? id = some limit) :
    (step env s l).world.db.userLimits.get? id = some limit :=
  (step_changes s l).invariant (I := fun db => db.userLimits.get? id = some limit)
    (fun _ _ hc h => hc.userLimits h) hl

/-- The limit of a tracker was there before a command, as it is after. -/
theorem step_limit {t : UserLimitTracker} {x : UserLimit}
    (hb : Books env s.world.db) (ht : t ∈ s.world.db.userLimitTrackers.rows)
    (hx : (step env s l).world.db.userLimits.get? t.userLimit = some x) :
    s.world.db.userLimits.get? t.userLimit = some x := by
  obtain ⟨x', -, hx', -⟩ := hb.limit t ht
  rw [step_userLimits hx'] at hx
  rw [hx', Option.some.inj hx]

/-- Each period counter of a DATE tracker is in a relation to the charges on the tracker. -/
structure Counted (K : Period → Counter ℤ → List (Charge ℤ) → Prop) (now : ℤ)
    (t : UserLimitTracker) (H : List (Charge ℤ)) : Prop where
  time : t.updatedAt ≤ now
  counter : ∀ u, K u.period (t.counter u) H

/-- An update of a DATE tracker keeps what charging and the given releases keep. -/
theorem Update.counted {K : Period → Counter ℤ → List (Charge ℤ) → Prop}
    (hK : Counter.Chargeable K) {clock : ℤ} {command : Command} {userLimits : Table UserLimit}
    {y : UserLimitTracker}
    (h : Update env now db command userLimits y H) (hclock : clock ≤ now)
    (hI : ∀ t ∈ db.userLimitTrackers.rows, t.periodStart = .DATE →
      Counted K clock t (db.charges t.id))
    (hgiven : ∀ n j b c, command = .deliver n →
      db.events[n]? = some (.operation .REVERTED ⟨some j, b⟩) → Finds db (attachedTracker j b) c →
      j.item.analysisTags ≠ [] → c.tracker.periodStart = .DATE → ∀ u pre post,
      K u.period (c.tracker.counter u) (pre ++ ⟨j.item.createdAt, j.item.value⟩ :: post) →
      K u.period ((c.tracker.counter u).release u.period now ⟨j.item.createdAt, j.item.value⟩)
        (pre ++ post))
    (hdate : y.periodStart = .DATE) : Counted K now y H := by
  cases h with
  | kept t ht =>
      obtain ⟨htime, hcounter⟩ := hI y ht hdate
      exact ⟨htime.trans hclock, hcounter⟩
  | charged x t limitType v _ hl ht hget hv hfits =>
      change (restartUserLimitTracker env now x t).periodStart = _ at hdate
      rw [restart_periodStart] at hdate
      obtain ⟨htime, hcounter⟩ := hI t (Db.userLimitTracker_of_find ht).1 hdate
      refine ⟨le_refl _, fun u => ?_⟩
      rw [counter_charged hdate]
      exact hK.charge (hcounter u) (htime.trans hclock) hv
  | started c limitType v _ _ hc hget hv hfits =>
      refine ⟨le_refl _, fun u => ?_⟩
      rw [counter_started (hc.used u)]
      exact hK.charge (hK.new u.period now) (le_refl _) hv
  | given n j b c pre post hcommand he hc hH htags =>
      have hcmem : c.tracker ∈ db.userLimitTrackers.rows := by
        obtain ⟨_, -, hct, -⟩ := id hc
        exact Table.mem_of_get? hct
      rw [givenTracker_periodStart] at hdate
      have hne : j.item.analysisTags ≠ [] := htags ▸ limitIncludedTags_ne_nil _
      rw [hdate] at htags
      obtain ⟨htime, hcounter⟩ := hI c.tracker hcmem hdate
      rw [hH] at hcounter
      refine ⟨le_refl _, fun u => ?_⟩
      rw [counter_given htags]
      exact hgiven n j b c hcommand he hc hne hdate u pre post (hcounter u)

/-- What stands on a tracker keeps within its limit. -/
def Fits (db : Db) (t : UserLimitTracker) (H : List (Charge ℤ)) : Prop :=
  ∀ l, db.userLimits.get? t.userLimit = some l → ∀ u at', usage u.period H at' ≤ l.periodLimit u

/-- A charge that fits keeps within a limit. -/
theorem usage_charge_le {P : Period} {v used limit : ℤ}
    (hH : ∀ t, usage P H t ≤ limit) (hused : usage P H now ≤ used) (hfits : v + used ≤ limit)
    (t : ℤ) : usage P (H ++ [⟨now, v⟩]) t ≤ limit := by
  rw [usage_append, usage_singleton]
  by_cases e : P.Same now t
  · rw [if_pos e, ← usage_congr e]
    have : usage P H now + v ≤ limit := by omega
    exact this
  · rw [if_neg e, add_zero]
    exact hH t

theorem usage_release_le {P : Period} {pre post : List (Charge ℤ)} {x : Charge ℤ} {limit t : ℤ}
    (hx : 0 ≤ x.amount) (h : usage P (pre ++ x :: post) t ≤ limit) :
    usage P (pre ++ post) t ≤ limit := by
  rw [usage_middle] at h
  split at h <;> omega

/-- An update of a DATE tracker whose counters cover its charges keeps within the limit. -/
theorem Update.fits {y : UserLimitTracker}
    (h : Update env l.1 s.world.db l.2 (step env s l).world.db.userLimits y H)
    (hb : Books env s.world.db) (hclock : s.clock ≤ l.1)
    (hI : ∀ t ∈ s.world.db.userLimitTrackers.rows, t.periodStart = .DATE →
      Counted Counter.Covers s.clock t (s.world.db.charges t.id) ∧
        Fits s.world.db t (s.world.db.charges t.id))
    (hdate : y.periodStart = .DATE) : Fits (step env s l).world.db y H := by
  intro x hx u
  cases h with
  | kept t ht => exact (hI y ht hdate).2 x (step_limit hb ht hx) u
  | charged x' t limitType v _ hl ht hget hv hfits =>
      obtain ⟨htmem, hid⟩ := Db.userLimitTracker_of_find ht
      change (restartUserLimitTracker env l.1 x' t).periodStart = _ at hdate
      rw [restart_periodStart] at hdate
      change (step env s l).world.db.userLimits.get?
        (restartUserLimitTracker env l.1 x' t).userLimit = _ at hx
      rw [restart_userLimit, hid, hget] at hx
      obtain rfl := Option.some.inj hx
      have hx' : s.world.db.userLimits.get? t.userLimit = some x' := by
        rw [hid]
        exact (Db.userLimit_find hl).1
      obtain ⟨⟨htime, hcovers⟩, hwithin⟩ := hI t htmem hdate
      have fits := hfits u
      rw [used_restart hdate] at fits
      exact usage_charge_le (hwithin x' hx' u) ((hcovers u).restart (htime.trans hclock)) fits
  | started c limitType v _ _ hc hget hv hfits =>
      change (step env s l).world.db.userLimits.get? c.tracker.userLimit = _ at hx
      rw [hc.userLimit, hget] at hx
      obtain rfl := Option.some.inj hx
      have fits := hfits u
      rw [hc.used u] at fits
      refine usage_charge_le (H := []) (fun _ => ?_) (le_refl _) fits
      exact Int.natCast_nonneg _
  | given n j b c pre post _ he hc hH htags =>
      intro at'
      obtain ⟨_, -, hct, -⟩ := hc
      have htmem := Table.mem_of_get? hct
      rw [givenTracker_periodStart] at hdate
      rw [givenTracker_userLimit] at hx
      have within := (hI c.tracker htmem hdate).2 x (step_limit hb htmem hx) u at'
      rw [hH] at within
      exact usage_release_le j.value_nonneg within

/-- The counters of a DATE tracker cover the charges on it, and these fit, over every run. -/
theorem run_fits (h : Along (step env) Forward s ls) (hb : Books env s.world.db)
    (htrackers : s.world.db.userLimitTrackers.rows = []) :
    Books env (run (step env) s ls).world.db ∧
      ∀ t ∈ (run (step env) s ls).world.db.userLimitTrackers.rows, t.periodStart = .DATE →
        Counted Counter.Covers (run (step env) s ls).clock t
            ((run (step env) s ls).world.db.charges t.id) ∧
          Fits (run (step env) s ls).world.db t ((run (step env) s ls).world.db.charges t.id) := by
  refine run_tracked (I := fun s t H => t.periodStart = .DATE →
    Counted Counter.Covers s.clock t H ∧ Fits s.world.db t H) ?_ h hb ?_
  · intro s l hb hok hI y H hy hdate
    refine ⟨?_, hy.fits hb hok hI hdate⟩
    refine hy.counted Counter.covers_chargeable hok (fun t ht hd => (hI t ht hd).1) ?_ hdate
    -- A tracker that is found was last written before now.
    intro n j b c _ _ hc _ hd u pre post hcovers
    obtain ⟨_, -, hct, -⟩ := hc
    exact hcovers.release ((hI c.tracker (Table.mem_of_get? hct) hd).1.time.trans hok)
  · intro t ht
    rw [htrackers] at ht
    cases ht

/-- **The period limits are never exceeded.**  After every run of creates, accepts, reverts and
deliveries that starts without operations and trackers, in which time does not go back: what the
PENDING and ACCEPTED operations of an owner use of a DATE limit type, in the day, month or year of
any instant, is at most the owner's limit. -/
theorem run_period_limits (env : Env) {s : State} {ls : List (ℤ × Command)}
    (h : Along (step env) Forward s ls) (hops : s.world.db.operations.rows = [])
    (htrackers : s.world.db.userLimitTrackers.rows = []) (hevents : s.world.db.awaiting = [])
    {user : UserId} {limitType : LimitType} (hdate : limitType.periodStart = .DATE)
    {l : UserLimit} (hl : (run (step env) s ls).world.db.userLimitByUserAndLimitType user
      limitType.id = some l) (u : MomentUnit) (now : ℤ) :
    (run (step env) s ls).world.db.used env user limitType u now ≤ l.periodLimit u := by
  obtain ⟨hb, hkept⟩ := run_fits h (books_start env hops htrackers hevents) htrackers
  rcases hb.used_le hl u now with e | ⟨t, ht, hid, hperiod, hle⟩
  · rw [e]
    exact Int.natCast_nonneg _
  · refine hle.trans ((hkept t ht (hperiod.trans hdate)).2 l ?_ u now)
    rw [hid]
    exact (Db.userLimit_find hl).1

/-- 600 and 300 are sent, the 600 are reverted, and the event arrives a day later. -/
theorem run_period_limits_sample :
    (run (step (Sample.env .DATE)) (Sample.start 3000 0)
      [(Sample.noon, Sample.send 10 600), (Sample.noon, .revert 10),
        (Sample.noon, Sample.send 11 300), (Sample.noon + msPerDay, .deliver 1),
        (Sample.noon + msPerDay, Sample.send 12 100)]).world.db.used (Sample.env .DATE) 1
          (Sample.limitType .DATE) .month Sample.noon ≤ 5000 :=
  run_period_limits (Sample.env .DATE) (by decide +kernel) rfl rfl rfl rfl
    (l := Sample.userLimit 0) (by decide +kernel) .month Sample.noon

end

end ZroServices
