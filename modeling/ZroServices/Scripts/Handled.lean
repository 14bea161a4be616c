import ZroServices.Scripts.UpdateUserLimitTracker

/-!
# Scripts — what handling an operation does

An operation that has a user of the checked side and a limit for him is given the id of the tracker
of that limit (`handleOperation_handled`).  The tracker of no other user changes, and an operation
without a user limit changes nothing (`handleOperation_skipped`).
-/

namespace ZroServices.Scripts.UpdateUserLimitTracker

open Foundation

/-! ### Fresh ids -/

namespace Tables

variable {t : Tables}

theorem uuidV4_notMem : t.uuidV4 ∉ t.uuids := fun h => lt_irrefl _ (lt_fresh h)

theorem operation_mem_uuids {o : OperationRow} {id : Uuid} (ho : o ∈ t.operations.rows)
    (h : o.userLimitTracker = some id) : id ∈ t.uuids := by
  have hmem : id ∈ t.operations.rows.filterMap (·.userLimitTracker) :=
    List.mem_filterMap.mpr ⟨o, ho, h⟩
  simp only [uuids, List.mem_append]
  tauto

theorem userLimit_mem_uuids {l : UserLimit} (hl : l ∈ t.userLimits.rows) : l.id ∈ t.uuids := by
  have hmem : l.id ∈ t.userLimits.rows.map (·.id) := List.mem_map_of_mem hl
  simp only [uuids, List.mem_append]
  tauto

theorem tracker_mem_uuids {r : UserLimitTracker} (hr : r ∈ t.userLimitTrackers.rows) :
    r.id ∈ t.uuids ∧ r.userLimit ∈ t.uuids := by
  have hid : r.id ∈ t.userLimitTrackers.rows.map (·.id) := List.mem_map_of_mem hr
  have huserLimit : r.userLimit ∈ t.userLimitTrackers.rows.map (·.userLimit) :=
    List.mem_map_of_mem hr
  simp only [uuids, List.mem_append]
  tauto

end Tables

/-! ### Limits and trackers of users -/

section
variable (setting : Setting) (limitType : LimitType)

/-- The tracker of the limit of a user. -/
def trackerOf (t : Tables) (user : UserId) : Option UserLimitTracker :=
  (t.userLimitByUserAndLimitType user limitType).bind fun l => t.userLimitTrackerByUserLimit l.id

/-- The values of the limit of a user, who is given the global one if he has none. -/
def valuesOf (t : Tables) (user : UserId) : Option (LimitValues ℕ) :=
  match t.userLimitByUserAndLimitType user limitType with
  | some l => some l.toLimitValues
  | none => (setting.env.globalLimitByLimitType limitType).map (·.toLimitValues)

/-- The values that an operation is handled with; without them it is skipped. -/
def valuesFor (t : Tables) (o : Operation) : Option (LimitValues ℕ) :=
  (checkedUser limitType.check o).bind (valuesOf setting limitType t)

end

section
variable {setting : Setting} {limitType : LimitType} {t : Tables}
variable {user : UserId}
variable {l : UserLimit} {o : OperationRow}

theorem userLimit_found (h : t.userLimitByUserAndLimitType user limitType = some l) :
    l ∈ t.userLimits.rows ∧ l.user = user ∧ l.limitType = limitType.id := by
  rw [Tables.userLimitByUserAndLimitType] at h
  exact ⟨List.mem_of_find?_eq_some h, by simpa using List.find?_some h⟩

/-- Limits of two users, or of two limit types, have two ids. -/
theorem userLimit_id_ne {user' : UserId} {limitType' : LimitType} {l' : UserLimit}
    (hne : user' ≠ user ∨ limitType'.id ≠ limitType.id)
    (h : t.userLimitByUserAndLimitType user limitType = some l)
    (h' : t.userLimitByUserAndLimitType user' limitType' = some l') : l'.id ≠ l.id := by
  obtain ⟨hl, huser, htype⟩ := userLimit_found h
  obtain ⟨hl', huser', htype'⟩ := userLimit_found h'
  intro hid
  obtain rfl := Table.eq_of_key hl' hl hid
  exact hne.elim (· (huser'.symm.trans huser)) (· (htype'.symm.trans htype))

/-- An operation without a user or a limit changes nothing. -/
theorem handleOperation_skipped {now : ℤ} (h : valuesFor setting limitType t o.toOperation = none) :
    handleOperation setting now limitType t o = t := by
  have hnone : getTUserLimit setting limitType o.toOperation t = (none, t) := by
    rw [getTUserLimit]
    cases huser : checkedUser limitType.check o.toOperation with
    | none => rfl
    | some user =>
        rw [valuesFor, huser, Option.bind_some, valuesOf] at h
        cases hlimit : t.userLimitByUserAndLimitType user limitType with
        | some l =>
            rw [hlimit] at h
            cases h
        | none =>
            rw [hlimit] at h
            have hglobal := Option.map_eq_none_iff.mp h
            simp only [hlimit, createUserLimitByUserAndLimitType, hglobal]
  rw [handleOperation, hnone]

/-- What `getTUserLimit` leaves for the operation. -/
structure Limited (limitType : LimitType) (t : Tables) (user : UserId)
    (l : UserLimit) (t' : Tables) : Prop where
  operations : t'.operations = t.operations
  trackers : t'.userLimitTrackers = t.userLimitTrackers
  limit : t'.userLimitByUserAndLimitType user limitType = some l
  others : ∀ user' limitType', user' ≠ user ∨ limitType'.id ≠ limitType.id →
    t'.userLimitByUserAndLimitType user' limitType'
      = t.userLimitByUserAndLimitType user' limitType'
  tracker : t'.userLimitTrackerByUserLimit l.id = trackerOf limitType t user
  fresh : t'.uuidV4 ∉ t.uuids

theorem limited_of_some (h : t.userLimitByUserAndLimitType user limitType = some l) :
    Limited limitType t user l t where
  operations := rfl
  trackers := rfl
  limit := h
  others _ _ _ := rfl
  tracker := by rw [trackerOf, h, Option.bind_some]
  fresh := Tables.uuidV4_notMem

/-- A limit is made of the global one. -/
theorem limited_of_none (hid : l.id = t.uuidV4)
    (huser : l.user = user) (htype : l.limitType = limitType.id)
    (h : t.userLimitByUserAndLimitType user limitType = none) :
    Limited limitType t user l { t with userLimits := t.userLimits.upsert l } := by
  have hrows : (t.userLimits.upsert l).rows = t.userLimits.rows ++ [l] := by
    refine Table.rows_upsert_of_fresh (Table.get?_eq_none.mpr fun l' hl' hkey => ?_)
    refine Tables.uuidV4_notMem (t := t) ?_
    rw [← hid, ← UserLimit.key_eq, ← hkey]
    exact Tables.userLimit_mem_uuids hl'
  refine ⟨rfl, rfl, ?_, fun user' limitType' hne => ?_, ?_, fun hmem => ?_⟩
  · rw [Tables.userLimitByUserAndLimitType] at h ⊢
    rw [hrows, List.find?_append, h, Option.none_or, List.find?_singleton]
    simp [huser, htype]
  · rw [Tables.userLimitByUserAndLimitType, Tables.userLimitByUserAndLimitType, hrows,
      List.find?_append, List.find?_singleton, if_neg, Option.or_none]
    rw [decide_eq_true_eq, huser, htype]
    exact fun hboth => hne.elim (· hboth.1.symm) (· hboth.2.symm)
  · rw [trackerOf, h, Option.bind_none]
    refine List.find?_eq_none.mpr fun r hr heq => Tables.uuidV4_notMem (t := t) ?_
    rw [← hid, ← of_decide_eq_true heq]
    exact (Tables.tracker_mem_uuids (t := t) hr).2
  · refine Tables.uuidV4_notMem (t := { t with userLimits := t.userLimits.upsert l }) ?_
    simp only [Tables.uuids, hrows, List.map_append, List.mem_append] at hmem ⊢
    tauto

theorem getTUserLimit_limited {o : Operation} {v : LimitValues ℕ}
    (huser : checkedUser limitType.check o = some user)
    (h : valuesOf setting limitType t user = some v) :
    ∃ l t', getTUserLimit setting limitType o t = (some l, t') ∧ l.toLimitValues = v ∧
      Limited limitType t user l t' := by
  rw [getTUserLimit, huser]
  rw [valuesOf] at h
  cases hlimit : t.userLimitByUserAndLimitType user limitType with
  | some l =>
      rw [hlimit] at h
      exact ⟨l, t, by simp only [hlimit], Option.some.inj h, limited_of_some hlimit⟩
  | none =>
      rw [hlimit] at h
      obtain ⟨g, hg, rfl⟩ := Option.map_eq_some_iff.mp h
      simp only [hlimit, createUserLimitByUserAndLimitType, hg]
      exact ⟨_, _, rfl, rfl, limited_of_none rfl rfl rfl hlimit⟩

/-- The row of an operation that was handled. -/
def OperationRow.analyse (o : OperationRow) (tags : List OperationAnalysisTag) (tracker : Uuid) :
    OperationRow :=
  { o with analysisTags := tags, userLimitTracker := some tracker, analysed := true }

/-- What handling an operation of a user does, with the tracker of his limit or a new one. -/
structure Handled (setting : Setting) (now : ℤ) (limitType : LimitType) (t : Tables)
    (user : UserId) (v : LimitValues ℕ) (o : OperationRow) (tracker : UserLimitTracker)
    (t' : Tables) : Prop where
  found : trackerOf limitType t user = some tracker ∨
    trackerOf limitType t user = none ∧ tracker.id ∉ t.uuids ∧
      tracker.usedDailyLimit = 0 ∧ tracker.usedMonthlyLimit = 0 ∧ tracker.usedAnnualLimit = 0 ∧
      tracker.usedNightlyLimit = 0
  operations : t'.operations
    = t.operations.set (o.analyse (includedTags setting now limitType v o.toOperation) tracker.id)
  limit : ∃ l, t'.userLimitByUserAndLimitType user limitType = some l ∧ l.toLimitValues = v
  limits : ∀ user' limitType', user' ≠ user ∨ limitType'.id ≠ limitType.id →
    t'.userLimitByUserAndLimitType user' limitType'
      = t.userLimitByUserAndLimitType user' limitType'
  tracker : trackerOf limitType t' user =
    if countsForAny setting now limitType v o.toOperation then
      some { addOperation setting now limitType v o.toOperation tracker with updatedAt := now }
    else trackerOf limitType t user
  trackers : ∀ user' limitType', user' ≠ user ∨ limitType'.id ≠ limitType.id →
    trackerOf limitType' t' user' = trackerOf limitType' t user'
  once : (t.userLimitTrackers.rows.map (·.userLimit)).Nodup →
    (t'.userLimitTrackers.rows.map (·.userLimit)).Nodup

/-- What is written is the first tracker of its limit, or a new one. -/
def Writes (trackers : Table UserLimitTracker) (r : UserLimitTracker) : Prop :=
  (∃ s, trackers.rows.find? (·.userLimit = r.userLimit) = some s ∧ s.id = r.id) ∨
    trackers.rows.find? (·.userLimit = r.userLimit) = none ∧ ∀ s ∈ trackers.rows, s.id ≠ r.id

/-- The tracker of a limit is written. -/
theorem find?_upsert_tracker {trackers : Table UserLimitTracker} {r : UserLimitTracker}
    (h : Writes trackers r) (userLimit : Uuid) :
    (trackers.upsert r).rows.find? (·.userLimit = userLimit)
      = if userLimit = r.userLimit then some r
        else trackers.rows.find? (·.userLimit = userLimit) := by
  rcases h with ⟨s, hs, hid⟩ | ⟨hnone, hfresh⟩
  · have hmem := List.mem_of_find?_eq_some hs
    have hlimit : s.userLimit = r.userLimit := by simpa using List.find?_some hs
    have hget : trackers.get? (Keyed.key r) = some s :=
      Table.get?_eq_some.mpr ⟨hmem, hid⟩
    rw [Table.upsert_of_get? hget]
    by_cases heq : userLimit = r.userLimit
    · rw [if_pos heq, heq]
      exact Table.find?_set_self hs hid.symm (by simp)
    · rw [if_neg heq]
      refine Table.find?_set_of_not (by simpa using Ne.symm heq) fun x hx hkey => ?_
      obtain rfl := Table.eq_of_key hx hmem (hkey.trans hid.symm)
      simpa [hlimit] using Ne.symm heq
  · have hrows : (trackers.upsert r).rows = trackers.rows ++ [r] :=
      Table.rows_upsert_of_fresh (Table.get?_eq_none.mpr hfresh)
    rw [hrows, List.find?_append, List.find?_singleton]
    by_cases heq : userLimit = r.userLimit
    · rw [if_pos heq, heq, hnone]
      simp
    · rw [if_neg heq, if_neg (by simpa using Ne.symm heq), Option.or_none]

/-- No second tracker of a limit is written. -/
theorem nodup_upsert_tracker {trackers : Table UserLimitTracker} {r : UserLimitTracker}
    (h : Writes trackers r) (hnodup : (trackers.rows.map (·.userLimit)).Nodup) :
    ((trackers.upsert r).rows.map (·.userLimit)).Nodup := by
  rcases h with ⟨s, hs, hid⟩ | ⟨hnone, hfresh⟩
  · have hmem := List.mem_of_find?_eq_some hs
    have hlimit : s.userLimit = r.userLimit := by simpa using List.find?_some hs
    rw [Table.upsert_of_get? (Table.get?_eq_some.mpr ⟨hmem, hid⟩), Table.map_set]
    · exact hnodup
    · intro x hx hkey
      rw [Table.eq_of_key hx hmem (hkey.trans hid.symm), hlimit]
  · rw [Table.rows_upsert_of_fresh (Table.get?_eq_none.mpr hfresh), List.map_append,
      List.map_singleton]
    refine hnodup.append (List.nodup_singleton _) (List.disjoint_singleton.mpr fun hmem => ?_)
    obtain ⟨s, hs, hlimit⟩ := List.mem_map.mp hmem
    exact absurd (decide_eq_true hlimit) (List.find?_eq_none.mp hnone s hs)

/-- The limit and the tracker are there: the operation is added. -/
theorem handled_update {now : ℤ} {t₁ : Tables}
    {tracker : UserLimitTracker} (hlimited : Limited limitType t user l t₁)
    (h : trackerOf limitType t user = some tracker ∨
      trackerOf limitType t user = none ∧ tracker.userLimit = l.id ∧ tracker.id ∉ t.uuids ∧
        tracker.usedDailyLimit = 0 ∧ tracker.usedMonthlyLimit = 0 ∧ tracker.usedAnnualLimit = 0 ∧
        tracker.usedNightlyLimit = 0) :
    Handled setting now limitType t user l.toLimitValues o tracker
      (updateUserLimitTracker setting now limitType l tracker o t₁) := by
  have hlimit : tracker.userLimit = l.id := by
    rcases h with hsome | ⟨-, hlimit, -⟩
    · have hfound := hlimited.tracker.trans hsome
      rw [Tables.userLimitTrackerByUserLimit] at hfound
      simpa using List.find?_some hfound
    · exact hlimit
  set r : UserLimitTracker :=
    { addOperation setting now limitType l.toLimitValues o.toOperation tracker with
      updatedAt := now } with hr
  have htracker : t.userLimitTrackerByUserLimit l.id = trackerOf limitType t user := by
    rw [← hlimited.tracker, Tables.userLimitTrackerByUserLimit,
      Tables.userLimitTrackerByUserLimit, hlimited.trackers]
  have hwrites : Writes t.userLimitTrackers r := by
    have hfind : t.userLimitTrackers.rows.find? (·.userLimit = r.userLimit)
        = trackerOf limitType t user := by
      rw [← htracker, ← hlimit]
      rfl
    rw [Writes, hfind]
    rcases h with hsome | ⟨hnone, -, hfresh, -⟩
    · exact .inl ⟨tracker, hsome, rfl⟩
    · exact .inr ⟨hnone, fun s hs hid => hfresh (hid ▸ (Tables.tracker_mem_uuids hs).1)⟩
  set t₂ := updateUserLimitTracker setting now limitType l tracker o t₁ with ht₂
  have htrackers : t₂.userLimitTrackers =
      if countsForAny setting now limitType l.toLimitValues o.toOperation then
        t.userLimitTrackers.upsert r
      else t.userLimitTrackers := by
    rw [← hlimited.trackers]
    rfl
  -- The tracker that a limit has afterwards.
  have hafter : ∀ userLimit, t₂.userLimitTrackerByUserLimit userLimit
      = if userLimit = l.id ∧ countsForAny setting now limitType l.toLimitValues o.toOperation
        then some r else t.userLimitTrackerByUserLimit userLimit := by
    intro userLimit
    rw [Tables.userLimitTrackerByUserLimit, htrackers, Tables.userLimitTrackerByUserLimit]
    by_cases hcounts : countsForAny setting now limitType l.toLimitValues o.toOperation = true
    · simp only [hcounts, and_true, if_true]
      rw [find?_upsert_tracker hwrites, ← hlimit]
      rfl
    · simp only [hcounts, Bool.false_eq_true, and_false, if_false]
  have hsame : ∀ user' limitType', trackerOf limitType' t₂ user'
      = (t₁.userLimitByUserAndLimitType user' limitType').bind fun l' =>
        t₂.userLimitTrackerByUserLimit l'.id := fun _ _ => rfl
  refine ⟨?_, ?_, ⟨l, hlimited.limit, rfl⟩, hlimited.others, ?_, ?_, ?_⟩
  · exact h.imp_right fun ⟨hnone, _, hfresh, hzero⟩ => ⟨hnone, hfresh, hzero⟩
  · rw [← hlimited.operations]
    rfl
  · rw [hsame, hlimited.limit, Option.bind_some, hafter, htracker]
    simp only [true_and, hr]
  · intro user' limitType' hne
    have hother := hlimited.others user' limitType' hne
    rw [hsame, hother, trackerOf]
    cases hlimit' : t.userLimitByUserAndLimitType user' limitType' with
    | none => rfl
    | some l' =>
        have hid : l'.id ≠ l.id := userLimit_id_ne hne hlimited.limit (hother.trans hlimit')
        rw [Option.bind_some, Option.bind_some, hafter, if_neg fun hboth => hid hboth.1]
  · intro hnodup
    rw [htrackers]
    split
    · exact nodup_upsert_tracker hwrites hnodup
    · exact hnodup

/-- **An operation is handled.** -/
theorem handleOperation_handled (now : ℤ) {v : LimitValues ℕ}
    (huser : checkedUser limitType.check o.toOperation = some user)
    (h : valuesOf setting limitType t user = some v) :
    ∃ tracker, Handled setting now limitType t user v o tracker
      (handleOperation setting now limitType t o) := by
  obtain ⟨l, t₁, hget, rfl, hlimited⟩ := getTUserLimit_limited huser h
  rw [handleOperation, hget]
  simp only [hlimited.tracker]
  set tracker := (trackerOf limitType t user).getD (newUserLimitTracker now limitType l t₁)
    with htracker
  refine ⟨tracker, handled_update hlimited ?_⟩
  cases hfound : trackerOf limitType t user with
  | some r =>
      rw [hfound, Option.getD_some] at htracker
      rw [htracker]
      exact .inl rfl
  | none =>
      rw [hfound, Option.getD_none] at htracker
      rw [htracker]
      exact .inr ⟨rfl, rfl, hlimited.fresh, rfl, rfl, rfl, rfl⟩

end

end ZroServices.Scripts.UpdateUserLimitTracker
