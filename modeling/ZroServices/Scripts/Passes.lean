import ZroServices.Foundation.Drain
import ZroServices.Scripts.Handled

/-!
# Scripts — the pages of a pass

`updateUserLimitTrackerByTransactionTypeAndDateRange` drains its selection by the first page
(`whileGoOn_eq`): what is handled leaves the selection (`Handled.selection`), and what has no user
limit stays in it.  So the loop ends unless a page of such operations is in the way of another
operation, and then it has handled the others in the order of their creation (`finished_iff`).
-/

namespace ZroServices.Scripts.UpdateUserLimitTracker

open Foundation

section
variable {setting : Setting} {limitType : LimitType} {t t' : Tables} {now : ℤ} {user : UserId}
  {v : LimitValues ℕ} {o : OperationRow} {tracker : UserLimitTracker}

theorem valuesOf_congr {limitType' : LimitType} (h : limitType'.id = limitType.id)
    (user : UserId) : valuesOf setting limitType' t user = valuesOf setting limitType t user := by
  rw [valuesOf, valuesOf, Tables.userLimitByUserAndLimitType, Tables.userLimitByUserAndLimitType,
    Env.globalLimitByLimitType, Env.globalLimitByLimitType, h]

/-- Handling keeps the values of everybody's limit, of every limit type. -/
theorem Handled.valuesOf (h : Handled setting now limitType t user v o tracker t')
    (huser : valuesOf setting limitType t user = some v) (limitType' : LimitType)
    (user' : UserId) : UpdateUserLimitTracker.valuesOf setting limitType' t' user'
      = UpdateUserLimitTracker.valuesOf setting limitType' t user' := by
  by_cases hsame : user' = user ∧ limitType'.id = limitType.id
  · obtain ⟨l, hl, rfl⟩ := h.limit
    rw [hsame.1, valuesOf_congr hsame.2, valuesOf_congr hsame.2, huser,
      UpdateUserLimitTracker.valuesOf, hl]
  · rw [UpdateUserLimitTracker.valuesOf, h.limits user' limitType' (not_and_or.mp hsame),
      UpdateUserLimitTracker.valuesOf]

/-! ### The selection -/

variable {transactionType : TransactionType} {currency : CurrencyId}
  {filter : TGetOperationsFilter}

theorem mem_selection {x : OperationRow} : x ∈ selection transactionType currency filter t ↔
    x ∈ t.operations.rows ∧ selects transactionType currency filter x = true := by
  rw [selection, List.mem_filter, byCreatedAt, List.mem_mergeSort]

theorem selection_nodup : (selection transactionType currency filter t).Nodup := by
  have hrows : t.operations.rows.Nodup := List.Nodup.of_map _ t.operations.nodup
  exact ((List.mergeSort_perm _ _).nodup_iff.mpr hrows).filter _

/-- A row that was handled is not selected any more. -/
theorem selects_analyse (tags : List OperationAnalysisTag) (id : Uuid) :
    selects transactionType currency filter (o.analyse tags id) = false := by
  simp [selects, OperationRow.analyse]

/-- **What was handled leaves the selection.** -/
theorem Handled.selection (h : Handled setting now limitType t user v o tracker t')
    (ho : o ∈ t.operations.rows) :
    selection transactionType currency filter t'
      = (UpdateUserLimitTracker.selection transactionType currency filter t).erase o := by
  rw [UpdateUserLimitTracker.selection, byCreatedAt, h.operations]
  exact Table.filter_mergeSort_set ho rfl (fun _ => ⟨rfl, rfl⟩) (selects_analyse _ _)

/-! ### The loop -/

/-- What is skipped: operations without a user of the checked side, or without a limit. -/
def skips (setting : Setting) (limitType : LimitType) (t : Tables) (o : OperationRow) : Bool :=
  (valuesFor setting limitType t o.toOperation).isNone

/-- What is not skipped is handled. -/
theorem handled_of_not_skips (now : ℤ) (h : skips setting limitType t o = false) :
    ∃ user v tracker, checkedUser limitType.check o.toOperation = some user ∧
      valuesFor setting limitType t o.toOperation = some v ∧
      UpdateUserLimitTracker.valuesOf setting limitType t user = some v ∧
      Handled setting now limitType t user v o tracker
        (handleOperation setting now limitType t o) := by
  obtain ⟨v, hvalues⟩ := Option.isSome_iff_exists.mp (Option.isNone_eq_false_iff.mp h)
  obtain ⟨user, huser, hv⟩ := Option.bind_eq_some_iff.mp hvalues
  obtain ⟨tracker, hhandled⟩ := handleOperation_handled now huser hv
  exact ⟨user, v, tracker, huser, hvalues, hv, hhandled⟩

/-- Handling an operation keeps the values of all operations. -/
theorem valuesFor_handleOperation (limitType' : LimitType) (o' : Operation) :
    valuesFor setting limitType' (handleOperation setting now limitType t o) o'
      = valuesFor setting limitType' t o' := by
  cases hskip : skips setting limitType t o with
  | true => rw [handleOperation_skipped (Option.isNone_iff_eq_none.mp hskip)]
  | false =>
      obtain ⟨user, v, tracker, huser, -, hv, h⟩ := handled_of_not_skips now hskip
      rw [valuesFor, valuesFor, funext fun user' => h.valuesOf hv limitType' user']

variable {clock : Uuid → ℤ}

theorem drains (setting : Setting) (clock : Uuid → ℤ) (transactionType : TransactionType)
    (limitType : LimitType) (currency : CurrencyId) (filter : TGetOperationsFilter) (t₀ : Tables) :
    Drains (selection transactionType currency filter)
    (fun t o => handleOperation setting (clock o.id) limitType t o)
    (fun t => ∀ o, valuesFor setting limitType t o = valuesFor setting limitType t₀ o)
    (skips setting limitType t₀) where
  nodup _ := selection_nodup
  inv hs _ o := (valuesFor_handleOperation limitType o).trans (hs o)
  skipped hs _ hskip :=
    handleOperation_skipped ((hs _).trans (Option.isNone_iff_eq_none.mp hskip))
  handled hs ho hskip := by
    rw [skips, ← hs] at hskip
    obtain ⟨user, v, tracker, -, -, -, h⟩ := handled_of_not_skips (clock _) hskip
    exact h.selection (mem_selection.mp ho).1

theorem one_lt_pageTotal {total : ℕ} : 1 < pageTotal total ↔ pageSize < total := by
  rw [pageTotal, pageSize]
  omega

/-- The loop drains the selection. -/
theorem whileGoOn_eq (rounds : ℕ) (t : Tables) :
    whileGoOn setting clock transactionType limitType currency filter rounds t
      = drain (selection transactionType currency filter)
        (fun t o => handleOperation setting (clock o.id) limitType t o) pageSize rounds t := by
  induction rounds generalizing t with
  | zero => rfl
  | succ rounds ih =>
      rw [whileGoOn, drain]
      simp only [one_lt_pageTotal, ih]
      by_cases hpage : (selection transactionType currency filter t).take pageSize = []
      · have hempty : selection transactionType currency filter t = [] := by
          simpa [pageSize] using hpage
        simp [hempty]
      · rw [if_neg hpage]

/-- An operation that is handled, and the limit type of the pass. -/
structure Step where
  limitType : LimitType
  operation : OperationRow
  deriving DecidableEq

/-- The operations of a selection that have a user limit. -/
def handled (setting : Setting) (limitType : LimitType) (transactionType : TransactionType)
    (currency : CurrencyId) (filter : TGetOperationsFilter) (t : Tables) : List Step :=
  ((selection transactionType currency filter t).filter (!skips setting limitType t ·)).map
    fun o => ⟨limitType, o⟩

/-- The tables after operations were handled, each at its own instant. -/
def handleAll (setting : Setting) (clock : Uuid → ℤ) (t : Tables) (steps : List Step) : Tables :=
  steps.foldl
    (fun t s => handleOperation setting (clock s.operation.id) s.limitType t s.operation) t

/-- **What a pass does when it ends**, and when it does. -/
theorem finished_iff {P : Tables → Prop} :
    (∃ rounds t', updateUserLimitTrackerByTransactionTypeAndDateRange setting clock
        transactionType limitType filter rounds t = some (.ok t') ∧ P t') ↔
      ∃ currency, limitType.currency = some currency ∧
        EndsWithin (skips setting limitType t) pageSize
          (selection transactionType currency filter t) ∧
        P (handleAll setting clock t
          (handled setting limitType transactionType currency filter t)) := by
  simp only [updateUserLimitTrackerByTransactionTypeAndDateRange]
  cases hcurrency : limitType.currency with
  | none => simp
  | some currency =>
      have hdrains := drains setting clock transactionType limitType currency filter t
      have hends := hdrains.drain_isSome_iff (n := pageSize) fun _ => rfl
      have hall : handleAll setting clock t
          (handled setting limitType transactionType currency filter t)
            = ((selection transactionType currency filter t).filter
              (!skips setting limitType t ·)).foldl
                (fun t o => handleOperation setting (clock o.id) limitType t o) t :=
        List.foldl_map
      simp only [whileGoOn_eq, Option.map_eq_some_iff, Except.ok.injEq, exists_eq_right,
        Option.some.injEq, exists_eq_left']
      rw [← hends]
      constructor
      · rintro ⟨rounds, t', hdrain, hP⟩
        refine ⟨⟨rounds, by rw [hdrain]; rfl⟩, ?_⟩
        rwa [hdrains.eq_of_drain (fun _ => rfl) hdrain, ← hall] at hP
      · rintro ⟨⟨rounds, hsome⟩, hP⟩
        obtain ⟨t', hdrain⟩ := Option.isSome_iff_exists.mp hsome
        refine ⟨rounds, t', hdrain, ?_⟩
        rwa [hdrains.eq_of_drain (fun _ => rfl) hdrain, ← hall]

end

end ZroServices.Scripts.UpdateUserLimitTracker
