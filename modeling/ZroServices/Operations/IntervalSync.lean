import ZroServices.Operations.Known

/-!
# Operations — the operations that leave an interval

A limit type whose periods are intervals counts an operation for a day, a month and a year after it
was created.  `SyncUpdateUserLimitTrackerByIntervalUseCase` takes the operations off the counters
when they leave an interval: it looks for those that still have the tag of the interval, page by
page, decreases the counter of their tracker by their value and takes the tag away.

What has lost its tag is no longer found, so the operations of the next page move up while its
offset does not move back.  The first page is complete, and each later one passes over as many
operations as the pages before it have.  So an execution takes everything off the counters exactly
when no interval has left more operations than fit on one page, and all of these have a tracker
(`complete_iff`).
-/

namespace ZroServices

open Foundation
open CreateOperationUseCase HandleRevertedOperationEventUseCase

/-! ### The use case -/

/-- `OperationAnalysisTagRule`. -/
structure OperationAnalysisTagRule where
  tag : OperationAnalysisTag
  lastDate : ℤ
  deriving DecidableEq, Repr

/-- The rows of a query that is sorted by their creation.  Those of one instant come in any order,
which may be another for each query. -/
structure CreatedAtOrder where
  rows : OperationAnalysisTag → ℕ → List Operation → List Operation
  perm : ∀ tag page l, (rows tag page l).Perm l
  sorted : ∀ tag page l, (rows tag page l).Pairwise fun x y => x.createdAt ≤ y.createdAt

/-- What a page of a query says. -/
structure TPaginationResponse where
  data : List Operation
  page : ℕ
  pageTotal : ℕ
  total : ℕ

/-- The operation has the tag of the rule, and was created before its date. -/
def OperationAnalysisTagRule.Due (rule : OperationAnalysisTagRule) (o : Operation) : Prop :=
  rule.tag ∈ o.analysisTags ∧ o.createdAt < rule.lastDate

instance (rule : OperationAnalysisTagRule) (o : Operation) : Decidable (rule.Due o) :=
  inferInstanceAs (Decidable (_ ∧ _))

/-- The operations that are due. -/
def Db.due (db : Db) (rule : OperationAnalysisTagRule) : List Operation :=
  db.operations.rows.filter fun o => decide (rule.Due o)

/-- `getAllByPaginationAndAnalysisTagBeforeDate`. -/
def OperationRepository.getAllByPaginationAndAnalysisTagBeforeDate (order : CreatedAtOrder)
    (page pageSize : ℕ) (rule : OperationAnalysisTagRule) (db : Db) : TPaginationResponse where
  data := ((order.rows rule.tag page (db.due rule)).drop ((page - 1) * pageSize)).take pageSize
  page := page
  pageTotal := ((db.due rule).length + pageSize - 1) / pageSize
  total := (db.due rule).length

/-- The tag of the interval of a unit. -/
def MomentUnit.tag : MomentUnit → OperationAnalysisTag
  | .day => .DAILY_INTERVAL_LIMIT_INCLUDED
  | .month => .MONTHLY_INTERVAL_LIMIT_INCLUDED
  | .year => .ANNUAL_INTERVAL_LIMIT_INCLUDED

namespace SyncUpdateUserLimitTrackerByIntervalUseCase

variable (order : CreatedAtOrder) (now : ℤ)

def PAGE_SIZE : ℕ := 100

def CURRENT_PAGE : ℕ := 1

/-- `OPERATION_ANALYSIS_TAGS_RULES`. -/
def OPERATION_ANALYSIS_TAGS_RULES : List OperationAnalysisTagRule :=
  [⟨.DAILY_INTERVAL_LIMIT_INCLUDED, subtractOne .day now⟩,
    ⟨.MONTHLY_INTERVAL_LIMIT_INCLUDED, subtractOne .month now⟩,
    ⟨.ANNUAL_INTERVAL_LIMIT_INCLUDED, subtractOne .year now⟩]

/-- `removeAnalysisTagFromOperation`. -/
def removeAnalysisTagFromOperation (tag : OperationAnalysisTag) (o : Operation) : Operation :=
  { o with analysisTags := o.analysisTags.erase tag }

/-- The tracker once a value has left the interval of a tag. -/
def decreased (tag : OperationAnalysisTag) (value : ℤ) (t : UserLimitTracker) : UserLimitTracker :=
  match tag with
  | .DAILY_INTERVAL_LIMIT_INCLUDED => { t with usedDailyLimit := subtract t.usedDailyLimit value }
  | .MONTHLY_INTERVAL_LIMIT_INCLUDED =>
      { t with usedMonthlyLimit := subtract t.usedMonthlyLimit value }
  | .ANNUAL_INTERVAL_LIMIT_INCLUDED =>
      { t with usedAnnualLimit := subtract t.usedAnnualLimit value }
  | .DATE_LIMIT_INCLUDED => t

/-- What is done with one operation of a page. -/
def syncOperation (rule : OperationAnalysisTagRule) (o : Operation) : App Unit := do
  let id ← orThrow o.userLimitTracker (.userLimitTrackerNotFound none)
  match ← readDb (·.userLimitTrackers.get? id) with
  | none => return ()
  | some t => do
      UserLimitTrackerRepository.update now (decreased rule.tag o.value t)
      OperationRepository.update (removeAnalysisTagFromOperation rule.tag o)

/-- The pages of a rule from `page` on, at most `fuel` of them; whether there are no more. -/
def syncPages (rule : OperationAnalysisTagRule) : ℕ → ℕ → App Bool
  | 0, _ => return false
  | fuel + 1, page => do
      let response ← readDb
        (OperationRepository.getAllByPaginationAndAnalysisTagBeforeDate order page PAGE_SIZE rule)
      if response.data = [] then return true
      else do
        response.data.forM (syncOperation now rule)
        if response.page < response.pageTotal then syncPages rule fuel (page + 1) else return true

/-- The rules, one after the other. -/
def syncRules (fuel : ℕ) : List OperationAnalysisTagRule → App Bool
  | [] => return true
  | rule :: rules => do
      let ended ← syncPages order now rule fuel CURRENT_PAGE
      if ended then syncRules fuel rules else return false

/-- `SyncUpdateUserLimitTrackerByIntervalUseCase.execute`, with at most `fuel` pages a rule. -/
def execute (fuel : ℕ) : App Bool :=
  syncRules order now fuel (OPERATION_ANALYSIS_TAGS_RULES now)

end SyncUpdateUserLimitTrackerByIntervalUseCase

open SyncUpdateUserLimitTrackerByIntervalUseCase

/-! ### Taking operations off the counters -/

/-- The tags of the operation are as the service writes them: each once, and with a tracker. -/
structure Operation.Tagged (o : Operation) : Prop where
  nodup : o.analysisTags.Nodup
  tracker : o.analysisTags ≠ [] → o.userLimitTracker ≠ none

/-- The tracker of the operation is stored. -/
def Db.Stored (db : Db) (o : Operation) : Prop :=
  ∃ id ∈ o.userLimitTracker, db.userLimitTrackers.get? id ≠ none

instance (db : Db) (o : Operation) : Decidable (db.Stored o) :=
  inferInstanceAs (Decidable (∃ id ∈ _, _))

/-- The operation without the tags that were taken from it. -/
def Operation.without (removed : OperationAnalysisTag → List Uuid) (o : Operation) : Operation :=
  { o with analysisTags := o.analysisTags.filter fun tag => decide (o.id ∉ removed tag) }

/-- The values of the operations of a tracker. -/
def Db.values (db : Db) (tracker : Uuid) (ids : List Uuid) : List ℤ :=
  ids.filterMap fun id => ((db.operations.get? id).filter fun o =>
    decide (o.userLimitTracker = some tracker)).map (·.value)

/-- Tags were taken from the operations of `removed`, and their values off the counters. -/
structure Synced (db db' : Db) (removed : OperationAnalysisTag → List Uuid) : Prop where
  nodup : ∀ tag, (removed tag).Nodup
  carried : ∀ tag, ∀ id ∈ removed tag, ∃ o, db.operations.get? id = some o ∧ tag ∈ o.analysisTags
  operations : db'.operations.rows = db.operations.rows.map (·.without removed)
  trackers : ∀ id t, db.userLimitTrackers.get? id = some t →
    ∃ t', db'.userLimitTrackers.get? id = some t' ∧
      ∀ u, t'.used u = (db.values id (removed u.tag)).foldl subtract (t.used u)
  untracked : ∀ id, db.userLimitTrackers.get? id = none → db'.userLimitTrackers.get? id = none

section
variable {order : CreatedAtOrder} {now : ℤ} {db db' db'' : Db} {o : Operation}
  {removed removed' : OperationAnalysisTag → List Uuid} {rule : OperationAnalysisTagRule}
  {w : World}

section

variable (h : Synced db db' removed)
include h

/-- An operation keeps everything but its tags. -/
theorem Synced.get? (id : Uuid) :
    db'.operations.get? id = (db.operations.get? id).map (·.without removed) := by
  rw [Table.get?, Table.get?, h.operations, List.find?_map]
  rfl

theorem Synced.values_eq (tracker : Uuid) (ids : List Uuid) :
    db'.values tracker ids = db.values tracker ids := by
  rw [Db.values, Db.values]
  refine List.filterMap_congr fun id _ => ?_
  rw [h.get?]
  cases hget : db.operations.get? id with
  | none => rfl
  | some o =>
      by_cases htracker : o.userLimitTracker = some tracker
      · simp [Operation.without, Option.filter_some, htracker]
      · simp [Operation.without, Option.filter_some, htracker]

theorem Synced.stored_iff : db'.Stored o ↔ db.Stored o := by
  refine exists_congr fun id => and_congr_right fun _ => not_congr ?_
  constructor
  · intro hnone
    cases hget : db.userLimitTrackers.get? id with
    | none => rfl
    | some t =>
        obtain ⟨t', ht', -⟩ := h.trackers id t hget
        rw [hnone] at ht'
        cases ht'
  · exact h.untracked id

/-- What one after the other takes away, both take away together. -/
theorem Synced.trans (h' : Synced db' db'' removed') :
    Synced db db'' fun tag => removed tag ++ removed' tag where
  nodup tag := by
    refine List.nodup_append'.mpr ⟨h.nodup tag, h'.nodup tag, fun id hid hid' => ?_⟩
    obtain ⟨o', ho', htag⟩ := h'.carried tag id hid'
    rw [h.get?] at ho'
    obtain ⟨o, ho, rfl⟩ := Option.map_eq_some_iff.mp ho'
    have hkey : o.id = id := Table.key_of_get? ho
    have hnot := (List.mem_filter.mp htag).2
    rw [hkey, decide_eq_true_eq] at hnot
    exact hnot hid
  carried tag id hid := by
    rcases List.mem_append.mp hid with hid | hid
    · exact h.carried tag id hid
    · obtain ⟨o', ho', htag⟩ := h'.carried tag id hid
      rw [h.get?] at ho'
      obtain ⟨o, ho, rfl⟩ := Option.map_eq_some_iff.mp ho'
      exact ⟨o, ho, (List.mem_filter.mp htag).1⟩
  operations := by
    rw [h'.operations, h.operations, List.map_map]
    refine List.map_congr_left fun o _ => ?_
    simp only [Function.comp_apply, Operation.without, List.filter_filter, List.mem_append, not_or,
      Bool.decide_and, Operation.mk.injEq, true_and, and_true]
    exact List.filter_congr fun tag _ => Bool.and_comm ..
  trackers id t ht := by
    obtain ⟨t', ht', hused⟩ := h.trackers id t ht
    obtain ⟨t'', ht'', hused'⟩ := h'.trackers id t' ht'
    refine ⟨t'', ht'', fun u => ?_⟩
    rw [hused', hused, h.values_eq, ← List.foldl_append, Db.values, Db.values, Db.values,
      List.filterMap_append]
  untracked id hid := h'.untracked id (h.untracked id hid)

end

theorem synced_refl (db : Db) : Synced db db fun _ => [] where
  nodup _ := List.nodup_nil
  carried _ _ hid := absurd hid List.not_mem_nil
  operations := by
    refine (List.map_id'' (fun o => ?_) _).symm
    simp [Operation.without]
  trackers _ t ht := ⟨t, ht, fun _ => rfl⟩
  untracked _ hid := hid

/-- What is due after tags were taken away. -/
theorem Synced.due (h : Synced db db' removed) (rule : OperationAnalysisTagRule) :
    db'.due rule = ((db.due rule).filter fun o => decide (o.id ∉ removed rule.tag)).map
      (·.without removed) := by
  rw [Db.due, Db.due, h.operations, List.filter_map, List.filter_filter]
  congr 1
  refine List.filter_congr fun o _ => ?_
  rw [← Bool.decide_and]
  refine decide_eq_decide.mpr ?_
  change _ ∈ List.filter _ _ ∧ _ < _ ↔ _ ∧ _ ∈ _ ∧ _ < _
  rw [List.mem_filter, decide_eq_true_eq]
  exact ⟨fun q => ⟨q.1.2, q.1.1, q.2⟩, fun q => ⟨⟨q.2.1, q.1⟩, q.2.2⟩⟩

/-- A tag that is taken from some operations. -/
def taken (tag : OperationAnalysisTag) (ids : List Uuid) (tag' : OperationAnalysisTag) :
    List Uuid :=
  if tag' = tag then ids else []

theorem mem_taken {tag tag' : OperationAnalysisTag} {ids : List Uuid} {id : Uuid} :
    id ∈ taken tag ids tag' ↔ tag' = tag ∧ id ∈ ids := by
  rw [taken]
  split
  · next heq => exact (and_iff_right heq).symm
  · next hne => simp [hne]

theorem without_taken {tag : OperationAnalysisTag} {id : Uuid} (h : o.id ≠ id) :
    o.without (taken tag [id]) = o := by
  rw [Operation.without, List.filter_eq_self.mpr fun tag' _ => ?_]
  exact decide_eq_true fun hmem => h (List.mem_singleton.mp (mem_taken.mp hmem).2)

theorem taken_append (tag : OperationAnalysisTag) (ids ids' : List Uuid) :
    (fun tag' => taken tag ids tag' ++ taken tag ids' tag') = taken tag (ids ++ ids') := by
  funext tag'
  rw [taken, taken, taken]
  split
  · rfl
  · rfl

theorem used_decreased (tag : OperationAnalysisTag) (value : ℤ) (t : UserLimitTracker)
    (u : MomentUnit) : { decreased tag value t with updatedAt := now }.used u
      = if u.tag = tag then subtract (t.used u) value else t.used u := by
  cases tag <;> cases u <;> rfl

/-! ### One operation -/

/-- An operation whose tracker is not stored is passed over. -/
theorem syncOperation_unstored {id : Uuid} (hid : o.userLimitTracker = some id)
    (hnone : w.db.userLimitTrackers.get? id = none) : syncOperation now rule o w = .ok () w := by
  rw [syncOperation, bind_of_ok (orThrow_ok.mpr ⟨hid, rfl⟩), bind_of_ok (readDb_ok.mpr ⟨rfl, rfl⟩),
    hnone]
  rfl

/-- **An operation whose tracker is stored leaves its counter.** -/
theorem syncOperation_stored (now : ℤ) {id : Uuid} {t : UserLimitTracker}
    (ho : o ∈ w.db.operations.rows)
    (hnodup : o.analysisTags.Nodup) (htag : rule.tag ∈ o.analysisTags)
    (hid : o.userLimitTracker = some id) (ht : w.db.userLimitTrackers.get? id = some t) :
    ∃ db', syncOperation now rule o w = .ok () { w with db := db' } ∧
      Synced w.db db' (taken rule.tag [o.id]) := by
  have hkey : t.id = id := Table.key_of_get? ht
  have hupdated : (decreased rule.tag o.value t).id = id := by
    rw [← hkey]
    cases rule.tag <;> rfl
  refine ⟨{ w.db with
      userLimitTrackers := w.db.userLimitTrackers.set
        { decreased rule.tag o.value t with updatedAt := now }
      operations := w.db.operations.set (removeAnalysisTagFromOperation rule.tag o).stored },
    ?_, ?_⟩
  · rw [syncOperation, bind_of_ok (orThrow_ok.mpr ⟨hid, rfl⟩),
      bind_of_ok (readDb_ok.mpr ⟨rfl, rfl⟩), ht]
    rfl
  refine ⟨fun tag => ?_, fun tag id' hid' => ?_, ?_, fun id' t' ht' => ?_, fun id' hnone => ?_⟩
  · rw [taken]
    split
    · exact List.nodup_singleton _
    · exact List.nodup_nil
  · obtain ⟨rfl, hmem⟩ := mem_taken.mp hid'
    obtain rfl := List.mem_singleton.mp hmem
    exact ⟨o, Table.get?_of_mem ho, htag⟩
  · refine List.map_congr_left fun x hx => ?_
    rw [Operation.stored_eq, Operation.key_eq, Operation.key_eq, removeAnalysisTagFromOperation]
    by_cases hxo : x.id = o.id
    · obtain rfl : x = o := Table.eq_of_key hx ho hxo
      rw [if_pos rfl, Operation.without, hnodup.erase_eq_filter]
      congr 1
      refine List.filter_congr fun tag _ => ?_
      simp [mem_taken, bne, beq_eq_decide]
    · rw [if_neg hxo, without_taken hxo]
  · have hvalue : ∀ u : MomentUnit, w.db.values id' (taken rule.tag [o.id] u.tag)
        = if u.tag = rule.tag ∧ id = id' then [o.value] else [] := by
      intro u
      have hget : w.db.operations.get? o.id = some o := Table.get?_of_mem ho
      by_cases hu : u.tag = rule.tag
      · by_cases heq : id = id'
        · simp [Db.values, taken, hu, hget, hid, heq, Option.filter_some]
        · simp [Db.values, taken, hu, hget, hid, heq, Option.filter_some]
      · simp [Db.values, taken, hu]
    by_cases heq : id = id'
    · subst heq
      obtain rfl := Option.some.inj (ht.symm.trans ht')
      refine ⟨_, Table.get?_set_self ht hupdated, fun u => ?_⟩
      rw [used_decreased, hvalue u]
      by_cases hu : u.tag = rule.tag
      · rw [if_pos hu, if_pos ⟨hu, rfl⟩]
        rfl
      · rw [if_neg hu, if_neg fun q => hu q.1]
        rfl
    · refine ⟨t', (Table.get?_set_ne fun e => heq ?_).trans ht', fun u => ?_⟩
      · exact hupdated.symm.trans e
      · rw [hvalue u, if_neg fun q => heq q.2]
        rfl
  · rw [Table.get?_set_ne]
    · exact hnone
    · intro e
      have hid' : id = id' := hupdated.symm.trans e
      rw [← hid', ht] at hnone
      cases hnone

/-! ### One page -/

theorem Synced.tagged (h : Synced db db' removed) (htagged : ∀ o ∈ db.operations.rows, o.Tagged) :
    ∀ o ∈ db'.operations.rows, o.Tagged := by
  intro o ho
  rw [h.operations] at ho
  obtain ⟨x, hx, rfl⟩ := List.mem_map.mp ho
  obtain ⟨hnodup, htracker⟩ := htagged x hx
  refine ⟨hnodup.filter _, fun hne => htracker fun hnil => hne ?_⟩
  rw [Operation.without, hnil]
  rfl

theorem mem_due : o ∈ db.due rule ↔ o ∈ db.operations.rows ∧ rule.Due o := by
  rw [Db.due, List.mem_filter, decide_eq_true_eq]

/-- What is due has a tracker. -/
theorem tracker_of_due (htagged : ∀ o ∈ db.operations.rows, o.Tagged) (ho : o ∈ db.due rule) :
    ∃ id, o.userLimitTracker = some id := by
  obtain ⟨hmem, htag, -⟩ := mem_due.mp ho
  exact Option.ne_none_iff_exists'.mp
    ((htagged o hmem).tracker fun hnil => absurd (hnil ▸ htag) List.not_mem_nil)

/-- **The operations of a page whose trackers are stored leave their counters.** -/
theorem syncOperations_synced {os : List Operation} (hos : ∀ o ∈ os, o ∈ w.db.due rule)
    (hnodup : (os.map (·.id)).Nodup) (htagged : ∀ o ∈ w.db.operations.rows, o.Tagged) :
    ∃ db', os.forM (syncOperation now rule) w = .ok () { w with db := db' } ∧
      Synced w.db db'
        (taken rule.tag ((os.filter fun o => decide (w.db.Stored o)).map (·.id))) := by
  induction os generalizing w with
  | nil =>
      refine ⟨w.db, rfl, ?_⟩
      have hnone : taken rule.tag [] = fun _ => [] := funext fun tag => ite_self _
      rw [List.filter_nil, List.map_nil, hnone]
      exact synced_refl w.db
  | cons o os ih =>
      obtain ⟨hfirst, hrest⟩ := List.forall_mem_cons.mp hos
      obtain ⟨hnew, hnodup⟩ := List.nodup_cons.mp hnodup
      obtain ⟨hmem, htag, -⟩ := mem_due.mp hfirst
      obtain ⟨id, hid⟩ := tracker_of_due htagged hfirst
      change ∃ db',
        (syncOperation now rule o >>= fun _ => os.forM (syncOperation now rule)) w = _ ∧ _
      cases ht : w.db.userLimitTrackers.get? id with
      | none =>
          have hunstored : ¬ w.db.Stored o := by
            rintro ⟨id', hid', hne⟩
            obtain rfl := Option.some.inj (hid.symm.trans hid')
            exact hne ht
          rw [bind_of_ok (syncOperation_unstored hid ht),
            List.filter_cons_of_neg (by simpa using hunstored)]
          exact ih hrest hnodup htagged
      | some t =>
          have hstored : w.db.Stored o := ⟨id, hid, by simp [ht]⟩
          obtain ⟨db₁, hstep, hsynced⟩ := syncOperation_stored now hmem
            (htagged o hmem).nodup htag hid ht
          -- The other operations of the page are as they were.
          have hdue : ∀ x ∈ os, x ∈ db₁.due rule := by
            intro x hx
            have hne : x.id ≠ o.id := fun e => hnew (List.mem_map.mpr ⟨x, hx, e⟩)
            rw [hsynced.due]
            refine List.mem_map.mpr ⟨x, List.mem_filter.mpr ⟨hrest x hx, ?_⟩, without_taken hne⟩
            exact decide_eq_true fun hmem => hne (List.mem_singleton.mp (mem_taken.mp hmem).2)
          obtain ⟨db', hloop, hsynced'⟩ := ih (w := { w with db := db₁ }) hdue hnodup
            (hsynced.tagged htagged)
          refine ⟨db', ?_, ?_⟩
          · rw [bind_of_ok hstep]
            exact hloop
          · have htrans := hsynced.trans hsynced'
            rw [taken_append] at htrans
            have hfilter : os.filter (fun o => decide (db₁.Stored o))
                = os.filter fun o => decide (w.db.Stored o) :=
              List.filter_congr fun x _ => decide_eq_decide.mpr hsynced.stored_iff
            rw [hfilter] at htrans
            rw [List.filter_cons_of_pos (p := fun o => decide (w.db.Stored o))
              (decide_eq_true hstored)]
            exact htrans

theorem nodup_due : ((db.due rule).map (·.id)).Nodup :=
  (List.filter_sublist.map _).nodup db.operations.nodup

/-- The operations of a page are due, and no more than are left after the pages before it. -/
theorem page_spec (order : CreatedAtOrder) (rule : OperationAnalysisTagRule) (page : ℕ) (db : Db)
    {os : List Operation}
    (hos : os = (OperationRepository.getAllByPaginationAndAnalysisTagBeforeDate
      order page PAGE_SIZE rule db).data) :
    (∀ o ∈ os, o ∈ db.due rule) ∧ (os.map (·.id)).Nodup ∧
      os.length = min PAGE_SIZE ((db.due rule).length - (page - 1) * PAGE_SIZE) := by
  subst hos
  have hperm := order.perm rule.tag page (db.due rule)
  refine ⟨fun o ho => ?_, ?_, ?_⟩
  · exact hperm.subset (List.mem_of_mem_drop (List.mem_of_mem_take ho))
  · refine (((List.take_sublist _ _).trans (List.drop_sublist _ _)).map _).nodup ?_
    exact (hperm.map _).nodup_iff.mpr nodup_due
  · change (List.take _ (List.drop _ _)).length = _
    rw [List.length_take, List.length_drop, hperm.length_eq]

/-- At most the operations that were taken are not due any more. -/
theorem Synced.due_length (h : Synced db db' removed) (rule : OperationAnalysisTagRule) :
    (db.due rule).length ≤ (db'.due rule).length + (removed rule.tag).length := by
  rw [h.due, List.length_map]
  have hsplit := List.length_eq_length_filter_add (l := db.due rule)
    fun o => decide (o.id ∉ removed rule.tag)
  have hremoved : ((db.due rule).filter fun o => !decide (o.id ∉ removed rule.tag)).length
      ≤ (removed rule.tag).length := by
    rw [← List.length_map (f := Operation.id)]
    refine (List.subperm_of_subset ((List.filter_sublist.map _).nodup nodup_due) ?_).length_le
    intro id hid
    obtain ⟨o, ho, rfl⟩ := List.mem_map.mp hid
    simpa using (List.mem_filter.mp ho).2
  omega

/-- What is taken away with one page. -/
theorem syncPage_synced (order : CreatedAtOrder) (now : ℤ) (rule : OperationAnalysisTagRule)
    (page : ℕ) (htagged : ∀ o ∈ w.db.operations.rows, o.Tagged) {os : List Operation}
    (hos : os = (OperationRepository.getAllByPaginationAndAnalysisTagBeforeDate
      order page PAGE_SIZE rule w.db).data) :
    ∃ db', os.forM (syncOperation now rule) w = .ok () { w with db := db' } ∧
      Synced w.db db'
        (taken rule.tag ((os.filter fun o => decide (w.db.Stored o)).map (·.id))) ∧
      (w.db.due rule).length ≤ (db'.due rule).length + os.length := by
  have hpage := page_spec order rule page w.db hos
  refine (syncOperations_synced hpage.1 hpage.2.1 htagged).imp fun db' ⟨hloop, hsynced⟩ =>
    ⟨hloop, hsynced, (hsynced.due_length rule).trans (Nat.add_le_add_left ?_ _)⟩
  rw [taken, if_pos rfl, List.length_map]
  exact List.length_filter_le _ _

theorem Synced.length_rows (h : Synced db db' removed) :
    db'.operations.rows.length = db.operations.rows.length := by
  rw [h.operations, List.length_map]

theorem length_due_le (db : Db) (rule : OperationAnalysisTagRule) :
    (db.due rule).length ≤ db.operations.rows.length := List.length_filter_le _ _

/-! ### The pages of a rule -/

variable (order now rule) in
/-- The loop ends, and takes away nothing but tags of its rule. -/
def Ends (fuel page : ℕ) (w : World) (P : Db → Prop) : Prop :=
  ∃ db' removed, syncPages order now rule fuel page w = .ok true { w with db := db' } ∧
    Synced w.db db' removed ∧ (∀ tag, tag ≠ rule.tag → removed tag = []) ∧ P db'

theorem taken_of_ne {tag tag' : OperationAnalysisTag} {ids : List Uuid} (h : tag' ≠ tag) :
    taken tag ids tag' = [] := if_neg h

/-- The loop goes on after a page. -/
theorem Ends.next {fuel page : ℕ} {db₁ : Db} {P : Db → Prop} {os : List Operation} {ids : List Uuid}
    (hos : os = (OperationRepository.getAllByPaginationAndAnalysisTagBeforeDate
      order page PAGE_SIZE rule w.db).data) (hne : os ≠ [])
    (hloop : os.forM (syncOperation now rule) w = .ok () { w with db := db₁ })
    (hsynced : Synced w.db db₁ (taken rule.tag ids))
    (hnext : if page < ((w.db.due rule).length + PAGE_SIZE - 1) / PAGE_SIZE then
      Ends order now rule fuel (page + 1) { w with db := db₁ } P else P db₁) :
    Ends order now rule (fuel + 1) page w P := by
  have hpages : syncPages order now rule (fuel + 1) page w =
      (if page < ((w.db.due rule).length + PAGE_SIZE - 1) / PAGE_SIZE then
        syncPages order now rule fuel (page + 1) else (return true : App Bool))
        { w with db := db₁ } := by
    rw [syncPages, bind_of_ok (readDb_ok.mpr ⟨rfl, rfl⟩), if_neg (hos ▸ hne), ← hos,
      bind_of_ok hloop]
    rfl
  split at hnext
  · next hmore =>
    obtain ⟨db', removed, hrest, hsynced', hother, hP⟩ := hnext
    refine ⟨db', _, ?_, hsynced.trans hsynced', fun tag htag => ?_, hP⟩
    · rw [hpages, if_pos hmore]
      exact hrest
    · rw [taken_of_ne htag, hother tag htag]
      rfl
  · next hlast =>
    refine ⟨db₁, _, ?_, hsynced, fun tag htag => taken_of_ne htag, hnext⟩
    rw [hpages, if_neg hlast]
    rfl

/-- The loop ends at a page without operations. -/
theorem Ends.empty {fuel page : ℕ} {P : Db → Prop}
    (hnil : (OperationRepository.getAllByPaginationAndAnalysisTagBeforeDate
      order page PAGE_SIZE rule w.db).data = []) (hP : P w.db) :
    Ends order now rule (fuel + 1) page w P := by
  refine ⟨w.db, fun _ => [], ?_, synced_refl w.db, fun _ _ => rfl, hP⟩
  rw [syncPages, bind_of_ok (readDb_ok.mpr ⟨rfl, rfl⟩), if_pos hnil]
  rfl

/-- **A later page passes over operations.**  From the second page on, something that is due stays
so. -/
theorem later_pages (htagged : ∀ o ∈ w.db.operations.rows, o.Tagged) {fuel page : ℕ}
    (hfuel : w.db.operations.rows.length + 1 < fuel + page)
    (hpage : page ≤ w.db.operations.rows.length + 1) (hlater : 2 ≤ page)
    (hdue : w.db.due rule ≠ []) :
    Ends order now rule fuel page w fun db' => db'.due rule ≠ [] := by
  induction fuel generalizing page w with
  | zero => omega
  | succ fuel ih =>
      obtain ⟨os, hos⟩ : ∃ os, os = (OperationRepository.getAllByPaginationAndAnalysisTagBeforeDate
        order page PAGE_SIZE rule w.db).data := ⟨_, rfl⟩
      by_cases hnil : os = []
      · exact .empty (hos ▸ hnil) hdue
      · obtain ⟨db₁, hloop, hsynced, hleft⟩ := syncPage_synced order now rule page htagged hos
        obtain ⟨-, -, hlength⟩ := page_spec order rule page w.db hos
        have hpos : 0 < os.length := List.length_pos_iff.mpr hnil
        rw [PAGE_SIZE] at hlength
        -- The operations before the page stay.
        have hdue₁ : db₁.due rule ≠ [] := by
          intro h
          rw [h, List.length_nil] at hleft
          omega
        refine .next hos hnil hloop hsynced ?_
        split
        · next hmore =>
          have hrows := length_due_le w.db rule
          rw [PAGE_SIZE] at hmore
          refine ih (hsynced.tagged htagged) ?_ ?_ (by omega) hdue₁
          · change db₁.operations.rows.length + 1 < _
            rw [hsynced.length_rows]
            omega
          · change _ ≤ db₁.operations.rows.length + 1
            rw [hsynced.length_rows]
            omega
        · exact hdue₁

/-- What is due of a rule fits on one page, and can be taken off the counters. -/
def OnePage (rule : OperationAnalysisTagRule) (db : Db) : Prop :=
  (db.due rule).length ≤ PAGE_SIZE ∧ ∀ o ∈ db.due rule, db.Stored o

/-- **The pages of a rule are complete when there is one.** -/
theorem all_pages (order : CreatedAtOrder) (now : ℤ) (rule : OperationAnalysisTagRule)
    (htagged : ∀ o ∈ w.db.operations.rows, o.Tagged) {fuel : ℕ}
    (hfuel : w.db.operations.rows.length < fuel) :
    Ends order now rule fuel CURRENT_PAGE w fun db' => db'.due rule = [] ↔ OnePage rule w.db := by
  cases fuel with
  | zero => omega
  | succ fuel =>
      obtain ⟨os, hos⟩ : ∃ os, os = (OperationRepository.getAllByPaginationAndAnalysisTagBeforeDate
        order CURRENT_PAGE PAGE_SIZE rule w.db).data := ⟨_, rfl⟩
      obtain ⟨hmem, -, hlength⟩ := page_spec order rule CURRENT_PAGE w.db hos
      rw [PAGE_SIZE, CURRENT_PAGE] at hlength
      by_cases hnil : os = []
      · have hdue : w.db.due rule = [] := by
          rw [hnil, List.length_nil] at hlength
          exact List.eq_nil_of_length_eq_zero (by omega)
        refine .empty (hos ▸ hnil) (iff_of_true hdue ⟨?_, ?_⟩)
        · rw [hdue]
          exact Nat.zero_le _
        · rw [hdue]
          exact fun _ h => absurd h List.not_mem_nil
      · obtain ⟨db₁, hloop, hsynced, hleft⟩ := syncPage_synced order now rule CURRENT_PAGE htagged hos
        refine .next hos hnil hloop hsynced ?_
        split
        · next hmore =>
          rw [CURRENT_PAGE, PAGE_SIZE] at hmore
          have hdue₁ : db₁.due rule ≠ [] := by
            intro h
            rw [h, List.length_nil] at hleft
            omega
          have hrows := length_due_le w.db rule
          have hrest : Ends order now rule fuel 2 { w with db := db₁ } fun db' =>
              db'.due rule ≠ [] := by
            refine later_pages (hsynced.tagged htagged) ?_ ?_ (by omega) hdue₁
            · change db₁.operations.rows.length + 1 < _
              rw [hsynced.length_rows]
              omega
            · change _ ≤ db₁.operations.rows.length + 1
              rw [hsynced.length_rows]
              omega
          obtain ⟨db', removed, hpages, hsynced', hother, hstays⟩ := hrest
          refine ⟨db', removed, hpages, hsynced', hother, iff_of_false hstays fun h => ?_⟩
          have hle : (w.db.due rule).length ≤ 100 := h.1
          omega
        · next hlast =>
          rw [CURRENT_PAGE, PAGE_SIZE] at hlast
          have hle : (w.db.due rule).length ≤ PAGE_SIZE := by
            rw [PAGE_SIZE]
            omega
          -- The page has everything that is due.
          have hall : ∀ o ∈ w.db.due rule, o ∈ os := by
            have hperm := order.perm rule.tag CURRENT_PAGE (w.db.due rule)
            intro o ho
            rw [hos]
            change o ∈ List.take _ (List.drop 0 _)
            rw [List.drop_zero, List.take_of_length_le (hperm.length_eq.trans_le hle)]
            exact hperm.mem_iff.mpr ho
          rw [hsynced.due, List.map_eq_nil_iff, List.filter_eq_nil_iff, taken, if_pos rfl]
          refine ⟨fun h => ⟨hle, fun o ho => ?_⟩, fun h o ho => ?_⟩
          · have hin := h o ho
            rw [decide_eq_true_eq, not_not] at hin
            obtain ⟨x, hx, hkey⟩ := List.mem_map.mp hin
            obtain ⟨hx, hstored⟩ := List.mem_filter.mp hx
            obtain rfl : x = o :=
              Table.eq_of_key (mem_due.mp (hmem x hx)).1 (mem_due.mp ho).1 hkey
            exact of_decide_eq_true hstored
          · rw [decide_eq_true_eq, not_not]
            exact List.mem_map.mpr
              ⟨o, List.mem_filter.mpr ⟨hall o ho, decide_eq_true (h.2 o ho)⟩, rfl⟩

/-! ### The rules -/

/-- What is due of another rule stays due. -/
theorem Synced.due_of_nil (h : Synced db db' removed) (hnil : removed rule.tag = []) :
    db'.due rule = (db.due rule).map (·.without removed) := by
  rw [h.due, hnil, List.filter_eq_self.mpr fun _ _ => decide_eq_true List.not_mem_nil]

theorem Synced.onePage_iff (h : Synced db db' removed) (hnil : removed rule.tag = []) :
    OnePage rule db' ↔ OnePage rule db := by
  rw [OnePage, OnePage, h.due_of_nil hnil, List.length_map, List.forall_mem_map]
  exact and_congr_right fun _ => forall₂_congr fun _ _ => h.stored_iff

/-- **The rules do not meet.**  Each is complete when what is due of it was on one page before. -/
theorem syncRules_synced (order : CreatedAtOrder) (now : ℤ) {rules : List OperationAnalysisTagRule}
    (hrules : (rules.map (·.tag)).Nodup) (htagged : ∀ o ∈ w.db.operations.rows, o.Tagged)
    {fuel : ℕ} (hfuel : w.db.operations.rows.length < fuel) :
    ∃ db' removed, syncRules order now fuel rules w = .ok true { w with db := db' } ∧
      Synced w.db db' removed ∧ (∀ tag, tag ∉ rules.map (·.tag) → removed tag = []) ∧
      ∀ rule ∈ rules, (db'.due rule = [] ↔ OnePage rule w.db) := by
  induction rules generalizing w with
  | nil =>
      exact ⟨w.db, fun _ => [], rfl, synced_refl w.db, fun _ _ => rfl,
        fun _ h => absurd h List.not_mem_nil⟩
  | cons rule rules ih =>
      obtain ⟨hnew, hrules⟩ := List.nodup_cons.mp hrules
      obtain ⟨db₁, removed₁, hpages, hsynced, hother, hfirst⟩ :=
        all_pages order now rule htagged hfuel
      have hfuel₁ : db₁.operations.rows.length < fuel := by
        rw [hsynced.length_rows]
        exact hfuel
      obtain ⟨db', removed₂, hrest, hsynced', hother', hlater⟩ :=
        ih (w := { w with db := db₁ }) hrules (hsynced.tagged htagged) hfuel₁
      refine ⟨db', _, ?_, hsynced.trans hsynced', fun tag htag => ?_, fun r hr => ?_⟩
      · rw [syncRules, bind_of_ok hpages]
        exact hrest
      · rw [List.map_cons, List.mem_cons, not_or] at htag
        rw [hother tag htag.1, hother' tag htag.2]
        rfl
      · rcases List.mem_cons.mp hr with rfl | hr
        · rw [hsynced'.due_of_nil (hother' _ hnew), List.map_eq_nil_iff]
          exact hfirst
        · have hne : r.tag ≠ rule.tag := fun e => hnew (List.mem_map.mpr ⟨r, hr, e⟩)
          exact (hlater r hr).trans (hsynced.onePage_iff (hother _ hne))

/-! ### Completeness -/

/-- What an execution is for: no operation that left an interval has its tag, and every counter was
decreased by the values of the operations that lost theirs. -/
structure Complete (now : ℤ) (db db' : Db) : Prop where
  removed : ∀ rule ∈ OPERATION_ANALYSIS_TAGS_RULES now, ∀ o ∈ db'.operations.rows,
    o.userLimitTracker ≠ none → o.createdAt < rule.lastDate → rule.tag ∉ o.analysisTags
  decreased : ∀ id t, db.userLimitTrackers.get? id = some t →
    ∃ t', db'.userLimitTrackers.get? id = some t' ∧ ∀ u : MomentUnit, ∃ os : List Operation,
      os.Nodup ∧
      (∀ o, o ∈ os ↔ o ∈ db.operations.rows ∧ o.userLimitTracker = some id ∧
        u.tag ∈ o.analysisTags ∧ ∃ o' ∈ db'.operations.rows, o'.id = o.id ∧
          u.tag ∉ o'.analysisTags) ∧
      t'.used u = (os.map (·.value)).foldl subtract (t.used u)

theorem Complete.due (h : Complete now db db') (htagged : ∀ o ∈ db'.operations.rows, o.Tagged)
    (hrule : rule ∈ OPERATION_ANALYSIS_TAGS_RULES now) : db'.due rule = [] := by
  refine List.filter_eq_nil_iff.mpr fun o ho => ?_
  rw [decide_eq_true_eq]
  rintro ⟨htag, hbefore⟩
  refine h.removed rule hrule o ho ?_ hbefore htag
  exact (htagged o ho).tracker fun hnil => absurd (hnil ▸ htag) List.not_mem_nil

/-- The operations of a tracker that lost a tag. -/
def Db.lost (db : Db) (tracker : Uuid) (ids : List Uuid) : List Operation :=
  ids.filterMap fun id => (db.operations.get? id).filter fun o =>
    decide (o.userLimitTracker = some tracker)

theorem values_eq_lost (db : Db) (tracker : Uuid) (ids : List Uuid) :
    db.values tracker ids = (db.lost tracker ids).map (·.value) := by
  rw [Db.values, Db.lost, List.map_filterMap]

theorem mem_lost {tracker : Uuid} {ids : List Uuid} :
    o ∈ db.lost tracker ids ↔
      o ∈ db.operations.rows ∧ o.userLimitTracker = some tracker ∧ o.id ∈ ids := by
  rw [Db.lost, List.mem_filterMap]
  constructor
  · rintro ⟨id, hid, ho⟩
    obtain ⟨hget, htracker⟩ := Option.filter_eq_some_iff.mp ho
    have hkey : o.id = id := Table.key_of_get? hget
    exact ⟨Table.mem_of_get? hget, of_decide_eq_true htracker, hkey ▸ hid⟩
  · rintro ⟨ho, htracker, hid⟩
    exact ⟨o.id, hid, Option.filter_eq_some_iff.mpr
      ⟨Table.get?_of_mem ho, decide_eq_true htracker⟩⟩

theorem nodup_lost {tracker : Uuid} {ids : List Uuid} (h : ids.Nodup) :
    (db.lost tracker ids).Nodup := by
  refine h.filterMap fun id id' o ho ho' => ?_
  obtain ⟨hget, -⟩ := Option.filter_eq_some_iff.mp ho
  obtain ⟨hget', -⟩ := Option.filter_eq_some_iff.mp ho'
  exact (Table.key_of_get? hget).symm.trans (Table.key_of_get? hget')

/-- An operation lost a tag that it had when it was taken from it. -/
theorem Synced.lost_iff (h : Synced db db' removed) {tag : OperationAnalysisTag}
    (ho : o ∈ db.operations.rows) (htag : tag ∈ o.analysisTags) :
    (∃ o' ∈ db'.operations.rows, o'.id = o.id ∧ tag ∉ o'.analysisTags) ↔ o.id ∈ removed tag := by
  rw [h.operations]
  constructor
  · rintro ⟨o', ho', hid, hnot⟩
    obtain ⟨x, hx, rfl⟩ := List.mem_map.mp ho'
    obtain rfl : x = o := Table.eq_of_key hx ho hid
    by_contra hleft
    exact hnot (List.mem_filter.mpr ⟨htag, decide_eq_true hleft⟩)
  · intro hid
    refine ⟨o.without removed, List.mem_map_of_mem ho, rfl, fun hin => ?_⟩
    exact of_decide_eq_true (List.mem_filter.mp hin).2 hid

/-- The counters follow the tags, whatever is passed over. -/
theorem Synced.decreased (h : Synced db db' removed) {id : Uuid} {t : UserLimitTracker}
    (ht : db.userLimitTrackers.get? id = some t) :
    ∃ t', db'.userLimitTrackers.get? id = some t' ∧ ∀ u : MomentUnit, ∃ os : List Operation,
      os.Nodup ∧
      (∀ o, o ∈ os ↔ o ∈ db.operations.rows ∧ o.userLimitTracker = some id ∧
        u.tag ∈ o.analysisTags ∧ ∃ o' ∈ db'.operations.rows, o'.id = o.id ∧
          u.tag ∉ o'.analysisTags) ∧
      t'.used u = (os.map (·.value)).foldl subtract (t.used u) := by
  obtain ⟨t', ht', hused⟩ := h.trackers id t ht
  refine ⟨t', ht', fun u => ⟨db.lost id (removed u.tag), nodup_lost (h.nodup _), fun o => ?_, ?_⟩⟩
  · rw [mem_lost]
    refine and_congr_right fun ho => and_congr_right fun _ => ?_
    constructor
    · intro hid
      obtain ⟨x, hx, htag⟩ := h.carried u.tag o.id hid
      obtain rfl : x = o := Option.some.inj (hx.symm.trans (Table.get?_of_mem ho))
      exact ⟨htag, (h.lost_iff ho htag).mpr hid⟩
    · rintro ⟨htag, hlost⟩
      exact (h.lost_iff ho htag).mp hlost
  · rw [hused, values_eq_lost]

end

/-! ### Tags as the service writes them -/

section
variable {env : Env} {now : ℤ} {db db' : Db} {o o' : Operation} {tt : TransactionType}
  {i : OperationInfo}

theorem nodup_limitIncludedTags (periodStart : LimitTypePeriodStart) :
    (limitIncludedTags periodStart).Nodup := by
  cases periodStart <;> decide

theorem tagged_operation : (i.operation env now tt).Tagged := by
  refine ⟨?_, fun htags => ?_⟩
  · rw [OperationInfo.operation_analysisTags]
    cases i.userLimitTracker with
    | none => exact List.nodup_nil
    | some c => exact nodup_limitIncludedTags _
  · rw [OperationInfo.operation_analysisTags] at htags
    rw [OperationInfo.operation_userLimitTracker]
    cases hc : i.userLimitTracker with
    | none =>
        rw [hc] at htags
        exact absurd rfl htags
    | some c => exact Option.some_ne_none _

theorem Operation.Tagged.of_becomes (h : o.Tagged) (hb : o.Becomes o') : o'.Tagged := by
  have htracker : o'.userLimitTracker = o.userLimitTracker := by rw [hb.same]
  rcases hb.analysisTags with htags | hnone
  · exact ⟨htags ▸ h.nodup, fun hne => htracker ▸ h.tracker (htags ▸ hne)⟩
  · exact ⟨hnone ▸ List.nodup_nil, fun hne => absurd hnone hne⟩

end

/-- **The interval sync is complete exactly when nothing is due on a second page.** -/
theorem complete_iff (order : CreatedAtOrder) (now : ℤ) {w : World}
    (htagged : ∀ o ∈ w.db.operations.rows, o.Tagged) {fuel : ℕ}
    (hfuel : w.db.operations.rows.length < fuel) :
    ∃ db', execute order now fuel w = .ok true { w with db := db' } ∧
      (Complete now w.db db' ↔ ∀ rule ∈ OPERATION_ANALYSIS_TAGS_RULES now, OnePage rule w.db) := by
  have hrules : ((OPERATION_ANALYSIS_TAGS_RULES now).map (·.tag)).Nodup := by
    change [OperationAnalysisTag.DAILY_INTERVAL_LIMIT_INCLUDED, .MONTHLY_INTERVAL_LIMIT_INCLUDED,
      .ANNUAL_INTERVAL_LIMIT_INCLUDED].Nodup
    decide
  obtain ⟨db', removed, hrun, hsynced, -, hdue⟩ := syncRules_synced order now hrules htagged hfuel
  refine ⟨db', hrun, ?_⟩
  constructor
  · intro h rule hrule
    exact (hdue rule hrule).mp (h.due (hsynced.tagged htagged) hrule)
  · intro h
    refine ⟨fun rule hrule o ho _ hbefore htag => ?_, fun id t ht => hsynced.decreased ht⟩
    have hnone := (hdue rule hrule).mpr (h rule hrule)
    exact List.not_mem_nil (hnone ▸ mem_due.mpr ⟨ho, htag, hbefore⟩)

namespace Sample

/-- By its creation. -/
def byCreation : CreatedAtOrder where
  rows _ _ l := l.insertionSort fun x y => x.createdAt ≤ y.createdAt
  perm _ _ l := List.perm_insertionSort _ l
  sorted _ _ l := List.pairwise_insertionSort _ l

/-- Five cents that the first user sent at noon. -/
def sentAtNoon (id : Uuid) : Operation where
  id := id
  state := .ACCEPTED
  owner := some ⟨1, 1⟩
  beneficiary := none
  transactionType := pix 1 "PIXSEND" .OWNER
  currency := 1
  rawValue := 5
  fee := 0
  value := 5
  description := "PIX"
  operationRef := none
  ownerRequestedRawValue := none
  ownerRequestedFee := none
  analysisTags := limitIncludedTags .INTERVAL
  userLimitTracker := some 200
  createdAt := noon
  revertedAt := none

/-- The service after the first user sent five cents so many times. -/
def sentOften (count : ℕ) : World :=
  let w := (start 3000 0).world
  { w with
    db :=
      { w.db with
        operations := ⟨(List.range count).map sentAtNoon, by
          rw [List.map_map]
          exact List.nodup_range.map fun _ _ h => h⟩
        userLimitTrackers := ⟨[⟨200, 1, .INTERVAL, 5 * count, 5 * count, 5 * count, 0, noon⟩],
          List.nodup_singleton _⟩ } }

/-- More than a day after noon. -/
def nextDay : ℤ := noon + 25 * hour

theorem tagged_sentOften (count : ℕ) : ∀ o ∈ (sentOften count).db.operations.rows, o.Tagged := by
  intro o ho
  obtain ⟨id, -, rfl⟩ := List.mem_map.mp ho
  exact ⟨nodup_limitIncludedTags .INTERVAL, fun _ => Option.some_ne_none _⟩

theorem stored_sentOften (count : ℕ) :
    ∀ o ∈ (sentOften count).db.operations.rows, (sentOften count).db.Stored o := by
  intro o ho
  obtain ⟨id, -, rfl⟩ := List.mem_map.mp ho
  exact ⟨200, rfl, Option.some_ne_none _⟩

end Sample

/-- Two operations, more than a day ago. -/
theorem complete_sentTwice :
    ∃ db', execute Sample.byCreation Sample.nextDay 3 (Sample.sentOften 2)
        = .ok true { Sample.sentOften 2 with db := db' } ∧
      Complete Sample.nextDay (Sample.sentOften 2).db db' := by
  obtain ⟨db', hrun, hiff⟩ := complete_iff Sample.byCreation Sample.nextDay
    (Sample.tagged_sentOften 2)
    (show (Sample.sentOften 2).db.operations.rows.length < 3 by decide)
  refine ⟨db', hrun, hiff.mpr fun rule hrule => ⟨?_, fun o ho => ?_⟩⟩
  · exact (length_due_le _ rule).trans (by decide)
  · exact Sample.stored_sentOften 2 o (mem_due.mp ho).1

/-- A hundred and one operations, more than a day ago.  The first page has a hundred of them, and
the second is empty. -/
theorem not_complete_sentOften :
    ∃ db', execute Sample.byCreation Sample.nextDay 102 (Sample.sentOften 101)
        = .ok true { Sample.sentOften 101 with db := db' } ∧
      ¬ Complete Sample.nextDay (Sample.sentOften 101).db db' := by
  have hrules : ((OPERATION_ANALYSIS_TAGS_RULES Sample.nextDay).map (·.tag)).Nodup := by decide
  obtain ⟨db', removed, hrun, hsynced, -, hdue⟩ := syncRules_synced Sample.byCreation
    Sample.nextDay hrules (Sample.tagged_sentOften 101)
    (show (Sample.sentOften 101).db.operations.rows.length < 102 by decide)
  refine ⟨db', hrun, fun h => ?_⟩
  have hdaily : (⟨.DAILY_INTERVAL_LIMIT_INCLUDED, subtractOne .day Sample.nextDay⟩ :
      OperationAnalysisTagRule) ∈ OPERATION_ANALYSIS_TAGS_RULES Sample.nextDay :=
    List.mem_cons_self
  have hpage := (hdue _ hdaily).mp (h.due (hsynced.tagged (Sample.tagged_sentOften 101)) hdaily)
  exact absurd hpage.1 (by decide +kernel)

end ZroServices
