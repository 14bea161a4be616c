import ZroServices.Operations.System
import ZroServices.Scripts.Passes

/-!
# Scripts — the operations that a pass covers

A pass should end, and every selected operation with a user limit should carry the tracker of that
limit.  It does exactly when no page is taken by operations without a limit, and the first operation
of each user without a tracker is counted by some counter: otherwise the tracker is not stored whose
id the operation is given (`covers_all_iff`).
-/

namespace ZroServices.Scripts.UpdateUserLimitTracker

open Foundation

section
variable (setting : Setting) (clock : Uuid → ℤ) (limitType : LimitType)

/-- The tracker that an operation carries. -/
def carried (t : Tables) (operation : Uuid) : Option Uuid :=
  (t.operations.get? operation).bind (·.userLimitTracker)

/-- The operation carries the tracker of its user's limit. -/
def Covered (t : Tables) (o : OperationRow) : Prop :=
  ∃ user tracker, checkedUser limitType.check o.toOperation = some user ∧
    trackerOf limitType t user = some tracker ∧ carried t o.id = some tracker.id

/-- The operation has a user limit. -/
def HasLimit (t : Tables) (o : OperationRow) : Prop :=
  ∃ user l, checkedUser limitType.check o.toOperation = some user ∧
    t.userLimitByUserAndLimitType user limitType = some l

/-- Some counter counts the operation when it is handled. -/
def Counted (t : Tables) (o : OperationRow) : Prop :=
  ∃ v, valuesFor setting limitType t o.toOperation = some v ∧
    countsForAny setting (clock o.id) limitType v o.toOperation = true

end

/-- The limit of a step: that of a user for a limit type. -/
def Step.isFor (user : UserId) (limitType : LimitType) (s : Step) : Bool :=
  checkedUser s.limitType.check s.operation.toOperation = some user ∧
    s.limitType.id = limitType.id

/-- The first operation of each limit without a tracker is counted. -/
def Started (setting : Setting) (clock : Uuid → ℤ) (t : Tables) (steps : List Step) : Prop :=
  ∀ s ∈ steps, ∀ user, checkedUser s.limitType.check s.operation.toOperation = some user →
    steps.find? (Step.isFor user s.limitType) = some s →
    trackerOf s.limitType t user ≠ none ∨ Counted setting clock s.limitType t s.operation

section
variable {setting : Setting} {clock : Uuid → ℤ} {limitType : LimitType} {t t' : Tables} {now : ℤ}
  {user : UserId} {v : LimitValues ℕ} {o o' : OperationRow} {tracker : UserLimitTracker}

/-! ### One operation -/

theorem carried_mem_uuids {operation id : Uuid} (h : carried t operation = some id) :
    id ∈ t.uuids := by
  obtain ⟨row, hrow, hid⟩ := Option.bind_eq_some_iff.mp h
  exact Tables.operation_mem_uuids (Table.mem_of_get? hrow) hid

section

variable (h : Handled setting now limitType t user v o tracker t')
include h

theorem Handled.carried_self (ho : o ∈ t.operations.rows) : carried t' o.id = some tracker.id := by
  have hget : t.operations.get? o.id = some o := Table.get?_of_mem ho
  have hset : (t.operations.set (o.analyse (includedTags setting now limitType v o.toOperation)
      tracker.id)).get? o.id = some (o.analyse _ tracker.id) := Table.get?_set_self hget rfl
  rw [carried, h.operations, hset]
  rfl

theorem Handled.carried_ne {id : Uuid} (hne : o.id ≠ id) : carried t' id = carried t id := by
  rw [carried, h.operations, Table.get?_set_ne (by exact hne)]
  rfl

/-- The id of the user's tracker afterwards. -/
theorem Handled.tracker_id :
    (trackerOf limitType t' user).map (·.id) =
      if trackerOf limitType t user ≠ none ∨ countsForAny setting now limitType v o.toOperation
      then some tracker.id else none := by
  rw [h.tracker]
  cases hcounts : countsForAny setting now limitType v o.toOperation with
  | true => simp [addOperation]
  | false =>
      rcases h.found with hsome | ⟨hnone, -⟩
      · simp [hsome]
      · simp [hnone]

end

theorem trackerOf_congr {limitType' : LimitType} (h : limitType'.id = limitType.id) :
    trackerOf limitType' t user = trackerOf limitType t user := by
  rw [trackerOf, trackerOf, Tables.userLimitByUserAndLimitType,
    Tables.userLimitByUserAndLimitType, h]

theorem covered_iff_carried {user : UserId}
    (huser : checkedUser limitType.check o.toOperation = some user) :
    Covered limitType t o ↔
      ∃ id, (trackerOf limitType t user).map (·.id) = some id ∧ carried t o.id = some id := by
  simp only [Option.map_eq_some_iff]
  constructor
  · rintro ⟨user', tracker, huser', htracker, hcarried⟩
    obtain rfl := Option.some.inj (huser.symm.trans huser')
    exact ⟨tracker.id, ⟨tracker, htracker, rfl⟩, hcarried⟩
  · rintro ⟨-, ⟨tracker, htracker, rfl⟩, hcarried⟩
    exact ⟨user, tracker, huser, htracker, hcarried⟩

section

variable (h : Handled setting now limitType t user v o tracker t')
include h

/-- An operation is covered when it is handled, if there is a tracker or it is counted. -/
theorem Handled.covered_self
    (ho : o ∈ t.operations.rows) (huser : checkedUser limitType.check o.toOperation = some user) :
    Covered limitType t' o ↔
      trackerOf limitType t user ≠ none ∨ countsForAny setting now limitType v o.toOperation := by
  rw [covered_iff_carried huser, h.tracker_id, h.carried_self ho]
  split
  · simp_all
  · simp_all

/-- Whether another operation is covered does not change. -/
theorem Handled.covered_ne (hne : o.id ≠ o'.id) (limitType' : LimitType) :
    Covered limitType' t' o' ↔ Covered limitType' t o' := by
  cases huser' : checkedUser limitType'.check o'.toOperation with
  | none =>
      refine iff_of_false ?_ ?_ <;> rintro ⟨user', tracker', huser, -⟩ <;>
        exact nomatch huser'.symm.trans huser
  | some user' =>
      rw [covered_iff_carried huser', covered_iff_carried huser', h.carried_ne hne]
      by_cases hsame : user' = user ∧ limitType'.id = limitType.id
      · rw [hsame.1, trackerOf_congr hsame.2, trackerOf_congr hsame.2, h.tracker_id]
        rcases h.found with hsome | ⟨hnone, hfresh, -⟩
        · simp [hsome]
        · -- A new tracker has an id that no operation carried.
          rw [hnone]
          refine iff_of_false ?_ ?_
          · rintro ⟨id, hid, hcarried'⟩
            split at hid
            · obtain rfl := Option.some.inj hid
              exact hfresh (carried_mem_uuids hcarried')
            · cases hid
          · rintro ⟨id, hid, -⟩
            cases hid
      · rw [h.trackers user' limitType' (not_and_or.mp hsame)]

theorem Handled.hasLimit
    {limitType' : LimitType} (hlimit : HasLimit limitType' t o') : HasLimit limitType' t' o' := by
  obtain ⟨user', l, huser', hl⟩ := hlimit
  by_cases hsame : user' = user ∧ limitType'.id = limitType.id
  · obtain ⟨l', hl', -⟩ := h.limit
    refine ⟨user', l', huser', ?_⟩
    rwa [Tables.userLimitByUserAndLimitType, hsame.1, hsame.2]
  · exact ⟨user', l, huser', (h.limits user' limitType' (not_and_or.mp hsame)).trans hl⟩

end

/-! ### Operations, one after the other -/

/-- Stored operations that have a user limit. -/
structure Ready (setting : Setting) (t : Tables) (steps : List Step) : Prop where
  nodup : (steps.map (·.operation.id)).Nodup
  stored : ∀ s ∈ steps, s.operation ∈ t.operations.rows
  limited : ∀ s ∈ steps, skips setting s.limitType t s.operation = false

namespace Ready

variable {steps : List Step} {s s' : Step}

theorem id_ne (h : Ready setting t (s :: steps)) (hs' : s' ∈ steps) :
    s.operation.id ≠ s'.operation.id := by
  intro heq
  exact (List.nodup_cons.mp h.nodup).1 (List.mem_map.mpr ⟨s', hs', heq.symm⟩)

/-- The other operations are still to be handled. -/
theorem tail (h : Ready setting t (s :: steps)) :
    Ready setting (handleOperation setting now s.limitType t s.operation) steps where
  nodup := (List.nodup_cons.mp h.nodup).2
  stored s' hs' := by
    obtain ⟨user, v, tracker, -, -, -, hhandled⟩ :=
      handled_of_not_skips now (h.limited s List.mem_cons_self)
    rw [hhandled.operations]
    refine Table.mem_set.mpr (.inl ⟨h.stored s' (List.mem_cons_of_mem s hs'), ?_⟩)
    exact (h.id_ne hs').symm
  limited s' hs' := by
    rw [skips, valuesFor_handleOperation]
    exact h.limited s' (List.mem_cons_of_mem s hs')

/-- What every handled operation keeps. -/
theorem invariant (h : Ready setting t steps) {P : Tables → Prop}
    (hstep : ∀ s ∈ steps, ∀ t t' user v tracker, checkedUser s.limitType.check
      s.operation.toOperation = some user → Handled setting (clock s.operation.id) s.limitType t
        user v s.operation tracker t' → P t → P t') (hP : P t) :
    P (handleAll setting clock t steps) := by
  induction steps generalizing t with
  | nil => exact hP
  | cons s steps ih =>
      obtain ⟨user, v, tracker, huser, -, -, hhandled⟩ :=
        handled_of_not_skips (clock s.operation.id) (h.limited s List.mem_cons_self)
      refine ih h.tail (fun s' hs' => hstep s' (List.mem_cons_of_mem s hs')) ?_
      exact hstep s List.mem_cons_self _ _ _ _ _ huser hhandled hP

/-- An operation that is handled no more stays as it is. -/
theorem covered_of_ne (h : Ready setting t steps) (hne : ∀ s ∈ steps, s.operation.id ≠ o.id) :
    Covered limitType (handleAll setting clock t steps) o ↔ Covered limitType t o :=
  h.invariant (P := fun t' => Covered limitType t' o ↔ Covered limitType t o)
    (fun s hs _ _ _ _ _ _ hhandled hP => (hhandled.covered_ne (hne s hs) limitType).trans hP) .rfl

/-- Every operation that was handled has a limit. -/
theorem hasLimit (h : Ready setting t steps) (hs : s ∈ steps) :
    HasLimit s.limitType (handleAll setting clock t steps) s.operation := by
  induction steps generalizing t with
  | nil => cases hs
  | cons a steps ih =>
      rcases List.mem_cons.mp hs with rfl | hs
      · obtain ⟨user, v, tracker, huser, -, -, hhandled⟩ :=
          handled_of_not_skips (clock s.operation.id) (h.limited s List.mem_cons_self)
        obtain ⟨l, hl, -⟩ := hhandled.limit
        refine h.tail.invariant (P := fun t' => HasLimit s.limitType t' s.operation)
          (fun _ _ _ _ _ _ _ _ hhandled' hP => hhandled'.hasLimit hP) ?_
        exact ⟨user, l, huser, hl⟩
      · exact ih h.tail hs

theorem valuesFor_handleAll (clock : Uuid → ℤ) (steps : List Step) (o : Operation) :
    valuesFor setting limitType (handleAll setting clock t steps) o
      = valuesFor setting limitType t o := by
  induction steps generalizing t with
  | nil => rfl
  | cons s steps ih => exact ih.trans (valuesFor_handleOperation limitType o)

theorem counted_handleOperation {limitType' : LimitType} :
    Counted setting clock limitType' (handleOperation setting now limitType t o) o' ↔
      Counted setting clock limitType' t o' := by
  rw [Counted, Counted, valuesFor_handleOperation]

/-- **All operations are covered** exactly when the first one of each limit is. -/
theorem covered_iff_started (h : Ready setting t steps) :
    (∀ s ∈ steps, Covered s.limitType (handleAll setting clock t steps) s.operation) ↔
      Started setting clock t steps := by
  induction steps generalizing t with
  | nil => exact iff_of_true (fun s hs => nomatch hs) fun s hs => nomatch hs
  | cons a steps ih =>
      obtain ⟨user, v, tracker, huser, hvalues, hv, hhandled⟩ :=
        handled_of_not_skips (clock a.operation.id) (h.limited a List.mem_cons_self)
      have hfirst := hhandled.covered_self (h.stored a List.mem_cons_self) huser
      have hcounted : Counted setting clock a.limitType t a.operation ↔
          countsForAny setting (clock a.operation.id) a.limitType v a.operation.toOperation
            = true := by
        rw [Counted, hvalues]
        simp
      rw [← hcounted] at hfirst
      -- The step is one of the limit of a user exactly when it is one of its own.
      have hisFor : ∀ user' (limitType' : LimitType), a.isFor user' limitType' = true ↔
          user' = user ∧ limitType'.id = a.limitType.id := by
        intro user' limitType'
        rw [Step.isFor, huser, decide_eq_true_eq, Option.some_inj, eq_comm,
          eq_comm (a := a.limitType.id)]
      rw [List.forall_mem_cons]
      refine (and_congr ((h.tail.covered_of_ne fun s hs => (h.id_ne hs).symm).trans hfirst)
        (ih h.tail)).trans ?_
      constructor
      · rintro ⟨hstart, hrest⟩ s hs user' huser' hfind
        by_cases hsame : user' = user ∧ s.limitType.id = a.limitType.id
        · rw [List.find?_cons_of_pos ((hisFor _ _).mpr hsame)] at hfind
          obtain rfl := Option.some.inj hfind
          rwa [hsame.1]
        · rw [List.find?_cons_of_neg fun hpos => hsame ((hisFor _ _).mp hpos)] at hfind
          have hcase := hrest s (List.mem_of_find?_eq_some hfind) user' huser' hfind
          rwa [hhandled.trackers user' s.limitType (not_and_or.mp hsame),
            counted_handleOperation] at hcase
      · intro hall
        have hstart : trackerOf a.limitType t user ≠ none ∨
            Counted setting clock a.limitType t a.operation :=
          hall a List.mem_cons_self user huser
            (List.find?_cons_of_pos ((hisFor _ _).mpr ⟨rfl, rfl⟩))
        refine ⟨hstart, fun s hs user' huser' hfind => ?_⟩
        by_cases hsame : user' = user ∧ s.limitType.id = a.limitType.id
        · refine .inl fun hnone => ?_
          have hid := hhandled.tracker_id
          rw [if_pos (hstart.imp_right hcounted.mp), ← hsame.1, ← trackerOf_congr hsame.2,
            hnone] at hid
          cases hid
        · rw [hhandled.trackers user' s.limitType (not_and_or.mp hsame), counted_handleOperation]
          refine hall s (List.mem_cons_of_mem a hs) user' huser' ?_
          rwa [List.find?_cons_of_neg fun hpos => hsame ((hisFor _ _).mp hpos)]

end Ready

/-! ### The pass -/

variable {transactionType : TransactionType} {filter : TGetOperationsFilter}

theorem mem_handled {currency : CurrencyId} {s : Step} :
    s ∈ handled setting limitType transactionType currency filter t ↔
      s.limitType = limitType ∧ s.operation ∈ selection transactionType currency filter t ∧
        skips setting limitType t s.operation = false := by
  rw [handled, List.mem_map]
  constructor
  · rintro ⟨o, ho, rfl⟩
    obtain ⟨hselected, hskip⟩ := List.mem_filter.mp ho
    exact ⟨rfl, hselected, by simpa using hskip⟩
  · rintro ⟨rfl, hselected, hskip⟩
    exact ⟨s.operation, List.mem_filter.mpr ⟨hselected, by simpa using hskip⟩, rfl⟩

theorem ready_handled {currency : CurrencyId} :
    Ready setting t (handled setting limitType transactionType currency filter t) where
  nodup := by
    rw [handled, List.map_map]
    refine List.Nodup.map_on (fun o ho o' ho' hid => ?_) (selection_nodup.filter _)
    exact Table.eq_of_key (mem_selection.mp (List.mem_filter.mp ho).1).1
      (mem_selection.mp (List.mem_filter.mp ho').1).1 hid
  stored s hs := (mem_selection.mp (mem_handled.mp hs).2.1).1
  limited s hs := by
    obtain ⟨rfl, -, hskip⟩ := mem_handled.mp hs
    exact hskip

/-- An operation of the selection of the pass. -/
def Selected (transactionType : TransactionType) (limitType : LimitType)
    (filter : TGetOperationsFilter) (t : Tables) (o : OperationRow) : Prop :=
  ∃ currency, limitType.currency = some currency ∧
    o ∈ selection transactionType currency filter t

/-- An operation that was skipped has no limit afterwards, either. -/
theorem not_hasLimit_of_skips {steps : List Step} (hskip : skips setting limitType t o = true) :
    ¬ HasLimit limitType (handleAll setting clock t steps) o := by
  rintro ⟨user, l, huser, hl⟩
  rw [skips, ← Ready.valuesFor_handleAll clock steps, valuesFor, huser,
    Option.bind_some, valuesOf, hl] at hskip
  cases hskip

/-- **The pass ends and covers everything** exactly when the operations without a limit leave room
on the page, and the first operation of each user without a tracker is counted. -/
theorem covers_all_iff :
    (∃ rounds t', updateUserLimitTrackerByTransactionTypeAndDateRange setting clock
        transactionType limitType filter rounds t = some (.ok t') ∧
      ∀ o, Selected transactionType limitType filter t o → HasLimit limitType t' o →
        Covered limitType t' o) ↔
      ∃ currency, limitType.currency = some currency ∧
        EndsWithin (skips setting limitType t) pageSize
          (selection transactionType currency filter t) ∧
        Started setting clock t
          (handled setting limitType transactionType currency filter t) := by
  rw [finished_iff]
  refine exists_congr fun currency => and_congr_right fun hcurrency => and_congr_right fun _ => ?_
  rw [← ready_handled.covered_iff_started]
  constructor
  · intro hcovered s hs
    obtain ⟨rfl, hselected, -⟩ := mem_handled.mp hs
    exact hcovered s.operation ⟨currency, hcurrency, hselected⟩ (ready_handled.hasLimit hs)
  · rintro hcovered o ⟨currency', hcurrency', ho⟩ hlimit
    obtain rfl := Option.some.inj (hcurrency.symm.trans hcurrency')
    refine hcovered ⟨limitType, o⟩ (mem_handled.mpr ⟨rfl, ho, ?_⟩)
    cases hskip : skips setting limitType t o with
    | true => exact absurd hlimit (not_hasLimit_of_skips hskip)
    | false => rfl

end

namespace SamplePass

def setting : Setting := ⟨ZroServices.Sample.env .DATE, fun _ _ => none⟩

/-- An operation without an owner. -/
def ownerless (id : Uuid) : OperationRow where
  id
  state := .ACCEPTED
  owner := none
  beneficiary := some ⟨1, 1⟩
  transactionType := ZroServices.Sample.pix 1 "PIXSEND" .OWNER
  currency := 1
  rawValue := 100
  fee := 0
  value := 100
  description := "PIX"
  operationRef := none
  ownerRequestedRawValue := none
  ownerRequestedFee := none
  analysisTags := []
  userLimitTracker := none
  createdAt := ZroServices.Sample.noon
  revertedAt := none
  analysed := false

def today : TGetOperationsFilter := ⟨ZroServices.Sample.noon, ZroServices.Sample.noon⟩

/-- Operations without an owner, and no limits. -/
def tables (count : ℕ) : Tables where
  operations := ⟨(List.range count).map ownerless, by
    rw [List.map_map]
    exact (List.map_id _).symm ▸ List.nodup_range⟩
  userLimits := .empty
  userLimitTrackers := .empty

theorem selection_tables (count : ℕ) :
    (selection (ownerless 0).transactionType 1 today (tables count)).length = count := by
  have hall : ∀ o ∈ byCreatedAt (tables count).operations.rows,
      selects (ownerless 0).transactionType 1 today o = true := by
    intro o ho
    obtain ⟨id, -, rfl⟩ := List.mem_map.mp (List.mem_mergeSort.mp ho)
    rfl
  rw [selection, List.filter_eq_self.mpr hall, byCreatedAt, List.length_mergeSort]
  exact (List.length_map _).trans List.length_range

end SamplePass

open SamplePass

/-- Of 101 operations without an owner the loop asks for the first 100 again and again. -/
theorem endless_without_owner :
    ¬ ∃ rounds t', updateUserLimitTrackerByTransactionTypeAndDateRange setting
        (fun _ => ZroServices.Sample.noon) (ownerless 0).transactionType
        (ZroServices.Sample.limitType .DATE) today rounds (tables 101) = some (.ok t') ∧
      ∀ o, Selected (ownerless 0).transactionType (ZroServices.Sample.limitType .DATE) today
          (tables 101) o →
        HasLimit (ZroServices.Sample.limitType .DATE) t' o →
        Covered (ZroServices.Sample.limitType .DATE) t' o := by
  rw [finished_iff]
  rintro ⟨currency, hcurrency, hends, -⟩
  obtain rfl := Option.some.inj hcurrency
  have hskipped : (selection (ownerless 0).transactionType 1 today (tables 101)).countP
      (skips setting (ZroServices.Sample.limitType .DATE) (tables 101)) = 101 := by
    rw [List.countP_eq_length.mpr, selection_tables]
    intro o ho
    obtain ⟨id, -, rfl⟩ := List.mem_map.mp (mem_selection.mp ho).1
    rfl
  rw [EndsWithin, hskipped, pageSize] at hends
  omega

end ZroServices.Scripts.UpdateUserLimitTracker
