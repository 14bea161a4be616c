import ZroServices.Scripts.Covered

/-!
# Scripts — the trackers that are filled, and the history

The script should leave every owner one tracker with the used limits that `getUsedLimit` computes of
the same operations.  It adds up what the tracker counts of the operations of the two windows
(`usage_handleAll`), each once, and `getUsedLimit` what it counts of the account since the day the
year starts.  The two agree exactly when what only one of them counts cancels out, and the
operations refer to stored trackers when the first of each owner is counted (`backfilled_iff`).
-/

namespace ZroServices.Scripts.UpdateUserLimitTracker

open Foundation
open CreateOperationUseCase

/-! ### The passes -/

/-- A transaction type with its limit type. -/
abbrev Typed := TransactionType × LimitType

section
variable (setting : Setting) (now : ℤ)

/-- The passes of `execute`. -/
def passes : List (Typed × MomentUnit) :=
  [MomentUnit.month, .year].flatMap fun u =>
    (getAllTransactionTypesWithLimitType setting).map (·, u)

/-- The window of a pass. -/
def window (p : Typed × MomentUnit) : TGetOperationsFilter := ⟨periodStartOf now p.1.2 p.2, now⟩

/-- The operations of a pass that have a user limit. -/
def stepsOf (t : Tables) (p : Typed × MomentUnit) : List Step :=
  p.1.2.currency.elim [] fun currency =>
    handled setting p.1.2 p.1.1 currency (window now p) t

def Step.id (s : Step) : Uuid := s.operation.id

/-- What the script handles: in each pass what those before have left of the selection. -/
def planned (t : Tables) : List Step := inTurn Step.id ((passes setting).map (stepsOf setting now t))

end

section
variable {setting : Setting} {now : ℤ} {t t' : Tables} {p : Typed × MomentUnit} {s : Step}
  {steps : List Step} {rounds : ℕ}

theorem ready_stepsOf : Ready setting t (stepsOf setting now t p) := by
  rw [stepsOf]
  cases p.1.2.currency with
  | none => constructor <;> simp
  | some currency => exact ready_handled

theorem ready_planned : Ready setting t (planned setting now t) := by
  have hlist : ∀ l ∈ (passes setting).map (stepsOf setting now t), Ready setting t l := by
    intro l hl
    obtain ⟨p, -, rfl⟩ := List.mem_map.mp hl
    exact ready_stepsOf
  refine ⟨nodup_inTurn fun l hl => (hlist l hl).nodup, fun s hs => ?_, fun s hs => ?_⟩
  · obtain ⟨l, hl, hs⟩ := exists_of_mem_inTurn hs
    exact (hlist l hl).stored s hs
  · obtain ⟨l, hl, hs⟩ := exists_of_mem_inTurn hs
    exact (hlist l hl).limited s hs

/-- A pass handles what is left. -/
theorem stepsOf_handleAll (h : Ready setting t steps) :
    stepsOf setting now (handleAll setting (fun _ => now) t steps) p
      = (stepsOf setting now t p).filter (·.id ∉ steps.map Step.id) := by
  induction steps generalizing t with
  | nil => simp [handleAll]
  | cons a steps ih =>
      have hfirst : stepsOf setting now (handleOperation setting now a.limitType t a.operation) p
          = (stepsOf setting now t p).filter (·.id ≠ a.id) := by
        have ha := h.stored a List.mem_cons_self
        obtain ⟨user, v, tracker, -, -, -, hhandled⟩ :=
          handled_of_not_skips now (h.limited a List.mem_cons_self)
        rw [stepsOf, stepsOf]
        cases p.1.2.currency with
        | none => rfl
        | some currency =>
            rw [Option.elim_some, Option.elim_some, handled, handled, hhandled.selection ha,
              selection_nodup.erase_eq_filter, List.filter_map, List.filter_filter,
              List.filter_filter]
            refine congrArg _ (List.filter_congr fun o ho => ?_)
            have hid : o.id = a.operation.id ↔ o = a.operation :=
              ⟨Table.eq_of_key (mem_selection.mp ho).1 ha, fun e => e ▸ rfl⟩
            rw [skips, valuesFor_handleOperation, Bool.and_comm, ← skips]
            simp [Step.id, hid, bne, beq_eq_decide]
      refine (ih h.tail).trans ?_
      rw [hfirst, List.filter_filter]
      refine List.filter_congr fun s _ => ?_
      rw [← Bool.decide_and, decide_eq_decide, List.map_cons, List.mem_cons]
      tauto

/-- **The script handles what its passes find.** -/
theorem execute_planned (h : execute setting now rounds t = some (.ok t')) :
    t' = handleAll setting (fun _ => now) t (planned setting now t) := by
  rw [execute] at h
  change (passes setting).foldl _ _ = _ at h
  rw [planned]
  generalize passes setting = ps at h
  induction ps generalizing t with
  | nil => exact (Except.ok.inj (Option.some.inj h)).symm
  | cons p ps ih =>
      rw [List.foldl_cons] at h
      cases hpass : updateUserLimitTrackerByTransactionTypeAndDateRange setting (fun _ => now)
          p.1.1 p.1.2 ⟨periodStartOf now p.1.2 p.2, now⟩ rounds t with
      | none =>
          simp only [hpass] at h
          rw [List.foldl_fixed' fun _ => rfl] at h
          cases h
      | some result =>
          simp only [hpass] at h
          cases result with
          | error e =>
              rw [List.foldl_fixed' fun _ => rfl] at h
              cases h
          | ok t₁ =>
              have hfirst : t₁ = handleAll setting (fun _ => now) t (stepsOf setting now t p) := by
                obtain ⟨currency, hcurrency, -, hall⟩ := finished_iff.mp ⟨rounds, t₁, hpass, rfl⟩
                rw [hall, stepsOf, hcurrency]
                rfl
              have hrest : ps.map (stepsOf setting now t₁)
                  = (ps.map (stepsOf setting now t)).map
                    (·.filter (·.id ∉ (stepsOf setting now t p).map Step.id)) := by
                rw [List.map_map, hfirst]
                exact List.map_congr_left fun q _ => stepsOf_handleAll ready_stepsOf
              rw [ih h, hrest, inTurn_filter, hfirst, handleAll, handleAll, ← List.foldl_append]
              rfl

/-! ### What the trackers count -/

/-- A used limit: the nightly one, or that of a day, a month or a year. -/
def usedLimitOf (used : UsedLimit) : Option MomentUnit → ℤ
  | none => used.nightlyLimit
  | some u => used.period u

/-- The counter counts the operation. -/
def counts (setting : Setting) (now : ℤ) (limitType : LimitType) (l : LimitValues ℕ)
    (o : Operation) : Option MomentUnit → Bool
  | none => countsForNight setting now l
  | some u => countsFor now limitType o u

/-- What the tracker of a user has used. -/
def usage (limitType : LimitType) (t : Tables) (user : UserId) (k : Option MomentUnit) : ℤ :=
  (trackerOf limitType t user).elim 0 (usedLimitOf ·.usedLimit k)

variable {limitType : LimitType} {user : UserId} {v : LimitValues ℕ} {o : OperationRow}
  {tracker : UserLimitTracker} {k : Option MomentUnit}

theorem Handled.usage (h : Handled setting now limitType t user v o tracker t') :
    UpdateUserLimitTracker.usage limitType t' user k
      = UpdateUserLimitTracker.usage limitType t user k
        + if counts setting now limitType v o.toOperation k then o.value else 0 := by
  have hfound : usedLimitOf tracker.usedLimit k
      = UpdateUserLimitTracker.usage limitType t user k := by
    rw [UpdateUserLimitTracker.usage]
    rcases h.found with hsome | ⟨hnone, -, hday, hmonth, hyear, hnight⟩
    · rw [hsome, Option.elim_some]
    · rw [hnone, Option.elim_none]
      rcases k with _ | _ | _ | _
      exacts [hnight, hday, hmonth, hyear]
  rw [← hfound, UpdateUserLimitTracker.usage, h.tracker]
  split
  · rcases k with _ | _ | _ | _ <;> rfl
  · rename_i hnot
    have hk : counts setting now limitType v o.toOperation k = false := by
      rcases k with _ | _ | _ | _ <;> simp_all [countsForAny, counts]
    rw [hk, hfound]
    simp [UpdateUserLimitTracker.usage]

/-- **Every step is added to the counters that count it.** -/
theorem usage_handleAll (h : Ready setting t steps) {f : OperationRow → ℤ}
    (hf : ∀ s ∈ steps, f s.operation = if s.isFor user limitType ∧
      (valuesFor setting s.limitType t s.operation.toOperation).any
        (counts setting now s.limitType · s.operation.toOperation k)
      then s.operation.value else 0) :
    usage limitType (handleAll setting (fun _ => now) t steps) user k
      = usage limitType t user k + ((steps.map (·.operation)).map f).sum := by
  induction steps generalizing t with
  | nil => simp [handleAll]
  | cons a steps ih =>
      obtain ⟨user', v, tracker, huser, hvalues, -, hhandled⟩ :=
        handled_of_not_skips now (h.limited a List.mem_cons_self)
      refine (ih h.tail fun s hs => ?_).trans ?_
      · rw [hf s (List.mem_cons_of_mem a hs), valuesFor_handleOperation]
      rw [List.map_cons, List.map_cons, List.sum_cons, hf a List.mem_cons_self, hvalues,
        Option.any_some, ← add_assoc]
      refine congrArg (· + _) ?_
      by_cases hfor : a.isFor user limitType = true
      · obtain ⟨huser', hid⟩ := of_decide_eq_true hfor
        obtain rfl := Option.some.inj (huser.symm.trans huser')
        simp only [hfor, true_and, usage, ← trackerOf_congr hid]
        exact hhandled.usage
      · have hother : user ≠ user' ∨ limitType.id ≠ a.limitType.id := by
          rw [Step.isFor, huser, decide_eq_true_eq, not_and_or, Option.some_inj] at hfor
          exact hfor.imp (Ne.symm ·) (Ne.symm ·)
        rw [usage, usage, hhandled.trackers user limitType hother, if_neg (hfor ·.1), add_zero]

/-- An operation carries a tracker when it was handled. -/
theorem Ready.carried_iff (h : Ready setting t steps) (id : Uuid) :
    carried (handleAll setting (fun _ => now) t steps) id ≠ none ↔
      carried t id ≠ none ∨ id ∈ steps.map Step.id := by
  induction steps generalizing t with
  | nil => simp [handleAll]
  | cons a steps ih =>
      obtain ⟨user, v, tracker, -, -, -, hhandled⟩ :=
        handled_of_not_skips now (h.limited a List.mem_cons_self)
      refine (ih h.tail).trans ?_
      rw [List.map_cons, List.mem_cons]
      by_cases hid : a.id = id
      · rw [← hid, Step.id, hhandled.carried_self (h.stored a List.mem_cons_self)]
        simp
      · rw [hhandled.carried_ne hid, eq_comm (b := a.id)]
        simp [hid]

end

/-! ### The history -/

section
variable (setting : Setting) (now : ℤ) (t : Tables) (x : Typed) (l : LimitValues ℕ)

/-- The operations as `getUsedLimit` reads them. -/
def Tables.db (t : Tables) : Db where
  wallets := .empty
  walletAccounts := .empty
  operations := ⟨t.operations.rows.map (·.toOperation), by
    rw [List.map_map]
    exact t.operations.nodup⟩
  userLimits := t.userLimits
  userLimitTrackers := t.userLimitTrackers
  walletAccountTransactions := []
  p2pTransfers := .empty
  userWallets := []
  events := []

/-- A counter of the user counts the operation. -/
def isCounted (user : UserId) (k : Option MomentUnit) (o : OperationRow) : Bool :=
  decide (o.transactionType.id = x.1.id ∧ o.owner.map (·.user) = some user)
    && counts setting now x.2 l o.toOperation k

/-- An operation of the window of the month or the year. -/
def inWindow (o : OperationRow) : Bool :=
  x.2.currency.any fun currency => [MomentUnit.month, .year].any fun u =>
    selects x.1 currency (window now (x, u)) o

/-- `getUsedLimit` counts an operation of its year. -/
def since (k : Option MomentUnit) (o : Operation) : Bool :=
  match k with
  | none => decide (l.isInNighttimeInterval setting.env.serverOffset now o.createdAt)
  | some .year => true
  | some u => decide (periodStartOf now x.2 u < o.createdAt)

/-- `getUsedLimit` counts the operation for the wallet account. -/
def isPast (a : WalletAccountId) (k : Option MomentUnit) (o : OperationRow) : Bool :=
  decide (o.transactionType.id = x.1.id ∧ o.owner.map (·.walletAccount) = some a ∧
      dateOnly (periodStartOf now x.2 .year) ≤ o.createdAt) && since setting now x l k o.toOperation

/-- The value of an operation that only the script counts, or with a minus of one that only
`getUsedLimit` counts. -/
def excess (user : UserId) (a : WalletAccountId) (k : Option MomentUnit) (o : OperationRow) : ℤ :=
  (if inWindow now x o && isCounted setting now x l user k o then o.value else 0)
    - if isPast setting now x l a k o then o.value else 0

/-- Limit types that check the owner, of one transaction type each, operations that no tracker
knows, and a limit for every owner. -/
structure Backlog : Prop where
  owner : ∀ x ∈ getAllTransactionTypesWithLimitType setting, x.2.check = .OWNER
  one : ∀ x ∈ getAllTransactionTypesWithLimitType setting,
    setting.env.transactionTypesOf x.2 = [x.1]
  pending : ∀ o ∈ t.operations.rows, (o.state = .PENDING ∨ o.state = .ACCEPTED) ∧
    o.analysed = false ∧ o.userLimitTracker = none
  limited : ∀ x ∈ getAllTransactionTypesWithLimitType setting, ∀ o ∈ t.operations.rows,
    ∀ p, o.owner = some p → ∃ l, t.userLimitByUserAndLimitType p.user x.2 = some l
  untracked : t.userLimitTrackers.rows = []

/-- An owner with an operation in the window of the year. -/
structure Owns (user : UserId) (a : WalletAccount) (l : UserLimit) : Prop where
  type : x ∈ getAllTransactionTypesWithLimitType setting
  limit : t.userLimitByUserAndLimitType user x.2 = some l
  operation : ∃ o currency, x.2.currency = some currency ∧
    o ∈ selection x.1 currency (window now (x, .year)) t ∧ o.owner = some ⟨user, a.id⟩

/-- Each owner has one tracker, with what `getUsedLimit` computes, the operations that were changed
refer to the trackers of their owners, and each was added once. -/
structure Backfilled (t' : Tables) : Prop where
  equal : ∀ x user a l, Owns setting now t x user a l → ∃ tracker,
    trackerOf x.2 t' user = some tracker ∧ ∀ k, usedLimitOf tracker.usedLimit k
      = usedLimitOf (getUsedLimit setting.env now a l x.2 t.db) k
  one : (t'.userLimitTrackers.rows.map (·.userLimit)).Nodup
  refers : ∀ x ∈ getAllTransactionTypesWithLimitType setting, ∀ o ∈ t.operations.rows,
    o.transactionType.id = x.1.id → carried t' o.id ≠ none → Covered x.2 t' o
  once : ∀ x ∈ getAllTransactionTypesWithLimitType setting, ∀ user l,
    t.userLimitByUserAndLimitType user x.2 = some l → ∀ k, usage x.2 t' user k =
      t.operations.total fun o => if carried t' o.id ≠ none then
        if isCounted setting now x l.toLimitValues user k o then o.value else 0 else 0

end

section
variable {setting : Setting} {now : ℤ} {t t' : Tables} {x y : Typed} {p : Typed × MomentUnit}
  {s : Step} {o : OperationRow} {user : UserId} {rounds : ℕ} {l : UserLimit}
  {k : Option MomentUnit} {a : WalletAccount}

theorem mem_passes : p ∈ passes setting ↔
    p.1 ∈ getAllTransactionTypesWithLimitType setting ∧ p.2 ∈ [MomentUnit.month, .year] := by
  obtain ⟨x, u⟩ := p
  rw [passes, List.mem_flatMap]
  constructor
  · rintro ⟨u', hu, hx⟩
    obtain ⟨x', hx', heq⟩ := List.mem_map.mp hx
    obtain ⟨rfl, rfl⟩ := Prod.mk.inj heq
    exact ⟨hx', hu⟩
  · exact fun ⟨hx, hu⟩ => ⟨u, hu, List.mem_map_of_mem hx⟩

theorem mem_stepsOf : s ∈ stepsOf setting now t p ↔ ∃ currency, p.1.2.currency = some currency ∧
    s.limitType = p.1.2 ∧ s.operation ∈ selection p.1.1 currency (window now p) t ∧
      skips setting s.limitType t s.operation = false := by
  rw [stepsOf]
  cases p.1.2.currency with
  | none => simp
  | some currency => simp +contextual [mem_handled]

theorem type_of_planned (hs : s ∈ planned setting now t) :
    ∃ x ∈ getAllTransactionTypesWithLimitType setting, s.limitType = x.2 ∧
      s.operation.transactionType.id = x.1.id := by
  obtain ⟨_, hmem, hs⟩ := exists_of_mem_inTurn hs
  obtain ⟨p, hp, rfl⟩ := List.mem_map.mp hmem
  obtain ⟨_, -, hlt, hselected, -⟩ := mem_stepsOf.mp hs
  exact ⟨p.1, (mem_passes.mp hp).1, hlt, (of_decide_eq_true (mem_selection.mp hselected).2).2.1⟩

theorem eq_of_transactionType (hx : x ∈ getAllTransactionTypesWithLimitType setting)
    (hy : y ∈ getAllTransactionTypesWithLimitType setting) (h : x.1.id = y.1.id) : x = y := by
  obtain ⟨tt, htt, hlimit⟩ := List.mem_filterMap.mp hx
  obtain ⟨tt', htt', hlimit'⟩ := List.mem_filterMap.mp hy
  obtain ⟨lt, hlt, rfl⟩ := Option.map_eq_some_iff.mp hlimit
  obtain ⟨lt', hlt', rfl⟩ := Option.map_eq_some_iff.mp hlimit'
  obtain rfl := Env.transactionType_eq htt htt' h
  rw [Option.some.inj (hlt.symm.trans hlt')]

namespace Backlog

variable (h : Backlog setting t) (hx : x ∈ getAllTransactionTypesWithLimitType setting)
include h hx

theorem eq_of_limitType (hy : y ∈ getAllTransactionTypesWithLimitType setting)
    (hid : x.2.id = y.2.id) : x = y := by
  have hone := h.one x hx
  rw [Env.transactionTypesOf, hid] at hone
  have hsame : [x.1] = [y.1] := hone.symm.trans (h.one y hy)
  exact eq_of_transactionType hx hy (by rw [List.singleton_inj.mp hsame])

/-- The operations of a limit type that the script handles. -/
theorem planned_iff (now : ℤ) (ho : o ∈ t.operations.rows) :
    (o.transactionType.id = x.1.id ∧ o.id ∈ (planned setting now t).map Step.id) ↔
      inWindow now x o = true ∧ o.owner.isSome := by
  have hskips : skips setting x.2 t o = false ↔ o.owner.isSome := by
    rw [skips, valuesFor, h.owner x hx, checkedUser]
    cases howner : o.owner with
    | none => simp
    | some p =>
        obtain ⟨l, hl⟩ := h.limited x hx o ho p howner
        simp [valuesOf, hl]
  rw [planned, mem_keys_inTurn, inWindow, Option.any_eq_true]
  simp only [List.any_eq_true]
  constructor
  · rintro ⟨htype, _, hmem, hid⟩
    obtain ⟨p, hp, rfl⟩ := List.mem_map.mp hmem
    obtain ⟨⟨_, o'⟩, hs, hid⟩ := List.mem_map.mp hid
    obtain ⟨currency, hcurrency, rfl, hselected, hskip⟩ := mem_stepsOf.mp hs
    obtain ⟨hrow, hselects⟩ := mem_selection.mp hselected
    obtain rfl : o' = o := Table.eq_of_key hrow ho hid
    obtain ⟨hp, hu⟩ := mem_passes.mp hp
    obtain rfl := eq_of_transactionType hx hp
      (htype.symm.trans (of_decide_eq_true hselects).2.1)
    exact ⟨⟨currency, hcurrency, p.2, hu, hselects⟩, hskips.mp hskip⟩
  · rintro ⟨⟨currency, hcurrency, u, hu, hselects⟩, howner⟩
    refine ⟨(of_decide_eq_true hselects).2.1, _,
      List.mem_map_of_mem ((mem_passes (p := (x, u))).mpr ⟨hx, hu⟩),
      List.mem_map.mpr ⟨⟨x.2, o⟩, mem_stepsOf.mpr ⟨currency, hcurrency, rfl, ?_⟩, rfl⟩⟩
    exact ⟨mem_selection.mpr ⟨ho, hselects⟩, hskips.mpr howner⟩

/-- What the script adds up, as a sum over the operations that it changes. -/
theorem usage_planned (hl : t.userLimitByUserAndLimitType user x.2 = some l) :
    usage x.2 (handleAll setting (fun _ => now) t (planned setting now t)) user k
      = t.operations.total fun o => if o.id ∈ (planned setting now t).map Step.id then
        if isCounted setting now x l.toLimitValues user k o then o.value else 0 else 0 := by
  have hready : Ready setting t (planned setting now t) := ready_planned
  have hzero : usage x.2 t user k = 0 := by
    have hnone : trackerOf x.2 t user = none := by
      rw [trackerOf, hl, Option.bind_some, Tables.userLimitTrackerByUserLimit, h.untracked]
      rfl
    rw [usage, hnone, Option.elim_none]
  have hkeys : (planned setting now t).map Step.id
      = ((planned setting now t).map (·.operation)).map Keyed.key := by
    rw [List.map_map]
    rfl
  rw [usage_handleAll hready fun s hs => ?_, hzero, zero_add, ← Table.total_mem_keys, hkeys]
  · rfl
  · intro o ho
    obtain ⟨s, hs, rfl⟩ := List.mem_map.mp ho
    exact hready.stored s hs
  · rw [← hkeys]
    exact hready.nodup
  · obtain ⟨y, hy, hlt, htype⟩ := type_of_planned hs
    have hfor : s.isFor user x.2 = true ↔ s.operation.transactionType.id = x.1.id ∧
        s.operation.owner.map (·.user) = some user := by
      rw [Step.isFor, decide_eq_true_eq, hlt, h.owner y hy, checkedUser, and_comm, htype]
      refine and_congr_left fun _ => ⟨fun hid => ?_, fun hid => ?_⟩
      · rw [h.eq_of_limitType hx hy hid.symm]
      · rw [eq_of_transactionType hy hx hid]
    simp only [isCounted, ← hfor, Bool.and_eq_true, decide_eq_true_eq]
    refine if_congr (and_congr_right fun hisFor => ?_) rfl rfl
    obtain ⟨hid, howner⟩ := hfor.mp hisFor
    obtain rfl := eq_of_transactionType hx hy (hid.symm.trans htype)
    have hvalues : valuesFor setting x.2 t s.operation.toOperation = some l.toLimitValues := by
      rw [valuesFor, h.owner x hx, checkedUser, howner, Option.bind_some, valuesOf, hl]
    rw [hlt, hvalues, Option.any_some]

/-- What `getUsedLimit` computes, as a sum over the operations. -/
theorem usedLimitOf_getUsedLimit :
    usedLimitOf (getUsedLimit setting.env now a l x.2 t.db) k
      = t.operations.total fun o =>
        if isPast setting now x l.toLimitValues a.id k o then o.value else 0 := by
  have hsum : usedLimitOf (getUsedLimit setting.env now a l x.2 t.db) k
      = ((getValueAndCreatedAt (·.owner) a (dateOnly (periodStartOf now x.2 .year)) [x.1] t.db).map
        fun o => if since setting now x l.toLimitValues k o then o.value else 0).sum := by
    rw [getUsedLimit, h.owner x hx, h.one x hx]
    rcases k with _ | _ | _ | _ <;> simp [usedLimitOf, UsedLimit.period, since]
  have hrow : ∀ o ∈ t.operations.rows,
      (if isPast setting now x l.toLimitValues a.id k o then o.value else 0)
        = if o.owner.map (·.walletAccount) = some a.id ∧
            dateOnly (periodStartOf now x.2 .year) ≤ o.createdAt ∧
              o.transactionType.id ∈ [x.1].map (·.id) ∧ o.state ∈ getOperationLimitCheckStates
          then if since setting now x l.toLimitValues k o.toOperation then o.value else 0
          else 0 := by
    intro o ho
    have hstate : o.state ∈ getOperationLimitCheckStates := by
      rcases h.pending o ho with ⟨hstate | hstate, -⟩ <;> rw [hstate] <;> decide
    simp only [isPast, List.map_singleton, List.mem_singleton, hstate, and_true, Bool.and_eq_true,
      decide_eq_true_eq, ← ite_and]
    exact if_congr (by tauto) rfl rfl
  rw [hsum, getValueAndCreatedAt, Tables.db, List.filter_map, List.map_map,
    Table.total_congr hrow, Table.total, List.sum_map_ite]
  simp [Function.comp_def]

end Backlog

/-- **The trackers are filled from the history** exactly when the first operation of each owner is
counted, and what only the script or only `getUsedLimit` counts cancels out. -/
theorem backfilled_iff (h : Backlog setting t)
    (hfinished : execute setting now rounds t = some (.ok t')) :
    Backfilled setting now t t' ↔ Started setting (fun _ => now) t (planned setting now t) ∧
      ∀ x user a l, Owns setting now t x user a l →
        ∀ k, t.operations.total (excess setting now x l.toLimitValues user a.id k) = 0 := by
  have hplan := execute_planned hfinished
  have hready : Ready setting t (planned setting now t) := ready_planned
  have hchanged : ∀ o ∈ t.operations.rows,
      (carried t' o.id ≠ none ↔ o.id ∈ (planned setting now t).map Step.id) := by
    intro o ho
    rw [hplan, hready.carried_iff, carried,
      show t.operations.get? o.id = some o from Table.get?_of_mem ho, Option.bind_some,
      (h.pending o ho).2.2]
    simp
  -- What the trackers have used and what `getUsedLimit` computes.
  have hequal : ∀ x user a l, Owns setting now t x user a l → ∀ k,
      (usage x.2 t' user k = usedLimitOf (getUsedLimit setting.env now a l x.2 t.db) k ↔
        t.operations.total (excess setting now x l.toLimitValues user a.id k) = 0) := by
    intro x user a l howns k
    rw [hplan, h.usage_planned howns.type howns.limit, h.usedLimitOf_getUsedLimit howns.type,
      ← sub_eq_zero, ← Table.total_sub]
    refine iff_of_eq (congrArg (· = 0) (Table.total_congr fun o ho => ?_))
    have hplanned := h.planned_iff howns.type now ho
    rw [excess, ← ite_and]
    refine congrArg (· - _) (if_congr ?_ rfl rfl)
    rw [Bool.and_eq_true]
    refine and_congr_left fun hcounted => ?_
    obtain ⟨htype, howner⟩ := of_decide_eq_true (Bool.and_eq_true_iff.mp hcounted).1
    obtain ⟨p, howner, -⟩ := Option.map_eq_some_iff.mp howner
    simpa [htype, howner] using hplanned
  rw [← hready.covered_iff_started, ← hplan]
  constructor
  · intro hfilled
    refine ⟨fun s hs => ?_, fun x user a l howns k => ?_⟩
    · obtain ⟨y, hy, hlt, htype⟩ := type_of_planned hs
      have hrow := hready.stored s hs
      rw [hlt]
      exact hfilled.refers y hy _ hrow htype ((hchanged _ hrow).mpr (List.mem_map_of_mem hs))
    · obtain ⟨tracker, htracker, hused⟩ := hfilled.equal x user a l howns
      rw [← hequal x user a l howns, usage, htracker]
      exact hused k
  · rintro ⟨hcovered, hbalanced⟩
    have hrefers : ∀ x ∈ getAllTransactionTypesWithLimitType setting, ∀ o ∈ t.operations.rows,
        o.transactionType.id = x.1.id → o.id ∈ (planned setting now t).map Step.id →
          Covered x.2 t' o := by
      intro x hx o ho htype hmem
      obtain ⟨⟨lt, o'⟩, hs, hid⟩ := List.mem_map.mp hmem
      obtain rfl : o' = o := Table.eq_of_key (hready.stored _ hs) ho hid
      obtain ⟨y, hy, rfl, htype'⟩ := type_of_planned hs
      rw [eq_of_transactionType hx hy (htype.symm.trans htype')]
      exact hcovered _ hs
    refine ⟨fun x user a l howns => ?_, ?_, fun x hx o ho htype hcarried =>
      hrefers x hx o ho htype ((hchanged o ho).mp hcarried), fun x hx user l hl k => ?_⟩
    · obtain ⟨o, currency, hcurrency, hselected, howner⟩ := howns.operation
      obtain ⟨ho, hselects⟩ := mem_selection.mp hselected
      have hplanned := (h.planned_iff howns.type now ho).mpr
        ⟨by rw [inWindow, hcurrency]; simp [hselects], by rw [howner]; rfl⟩
      obtain ⟨user', tracker, huser, htracker, -⟩ :=
        hrefers x howns.type o ho hplanned.1 hplanned.2
      rw [h.owner x howns.type, checkedUser, howner] at huser
      obtain rfl := Option.some.inj huser
      refine ⟨tracker, htracker, fun k => ?_⟩
      have hused := (hequal x _ a l howns k).mpr (hbalanced x _ a l howns k)
      rwa [usage, htracker] at hused
    · rw [hplan]
      refine hready.invariant (P := fun t => (t.userLimitTrackers.rows.map (·.userLimit)).Nodup)
        (fun _ _ _ _ _ _ _ _ hhandled => hhandled.once) ?_
      rw [h.untracked]
      exact List.nodup_nil
    · refine (congrArg (usage x.2 · user k) hplan).trans ((h.usage_planned hx hl).trans ?_)
      exact Table.total_congr fun o ho => if_congr (hchanged o ho).symm rfl rfl

end

namespace SampleFill

open ZroServices.Sample

def night : ℤ := noon + 9 * hour

def setting : Setting where
  env := { env .DATE with
    transactionTypes := [pix 1 "PIXSEND" .OWNER]
    transactionTypes_nodup := List.nodup_singleton _ }
  lenient _ _ := none

/-- A payment of the owner, just now. -/
def payment (now : ℤ) : OperationRow :=
  { SamplePass.ownerless 1 with owner := some ⟨1, 1⟩, createdAt := now }

def tables (now : ℤ) : Tables where
  operations := ⟨[payment now], List.nodup_singleton _⟩
  userLimits := ⟨[userLimit 0], List.nodup_singleton _⟩
  userLimitTrackers := .empty

def filled (now : ℤ) : Tables :=
  handleAll setting (fun _ => now) (tables now) [⟨limitType .DATE, payment now⟩]

theorem backlog (now : ℤ) : Backlog setting (tables now) where
  owner := by decide
  one := by decide
  pending o ho := by
    obtain rfl := List.mem_singleton.mp ho
    exact ⟨.inr rfl, rfl, rfl⟩
  limited x hx o ho p hp := by
    obtain rfl := List.mem_singleton.mp hx
    obtain rfl := List.mem_singleton.mp ho
    obtain rfl := Option.some.inj hp
    exact ⟨_, rfl⟩
  untracked := rfl

end SampleFill

open SampleFill ZroServices.Sample

/-- A payment of the current night is not counted for the night. -/
theorem night_uncounted :
    Backlog SampleFill.setting (SampleFill.tables night) ∧
      execute SampleFill.setting night 1 (SampleFill.tables night) = some (.ok (filled night)) ∧
      ¬ Backfilled SampleFill.setting night (SampleFill.tables night) (filled night) := by
  refine ⟨backlog _, by decide +kernel, fun h => ?_⟩
  obtain ⟨tracker, htracker, hequal⟩ := h.equal (pix 1 "PIXSEND" .OWNER, limitType .DATE) 1
    (account 1 1 0) (userLimit 0) ⟨by decide, rfl, payment night, 1, rfl, by decide +kernel, rfl⟩
  have hnight : (trackerOf (limitType .DATE) (filled night) 1).map
      (usedLimitOf ·.usedLimit none) = some 0 := by decide +kernel
  rw [htracker, Option.map_some, hequal] at hnight
  revert hnight
  decide +kernel

/-- A payment at noon is counted as `getUsedLimit` does. -/
theorem backfilled_at_noon :
    Backfilled SampleFill.setting noon (SampleFill.tables noon) (filled noon) := by
  have hplanned : planned SampleFill.setting noon (SampleFill.tables noon)
      = [⟨limitType .DATE, payment noon⟩] := by decide +kernel
  have hfinished : execute SampleFill.setting noon 1 (SampleFill.tables noon)
      = some (.ok (filled noon)) := by decide +kernel
  refine (backfilled_iff (backlog _) hfinished).mpr ⟨?_, ?_⟩
  · rw [hplanned]
    rintro s hs user huser -
    obtain rfl := List.mem_singleton.mp hs
    exact .inr ⟨_, rfl, by decide +kernel⟩
  · rintro x user a l ⟨hx, hl, o, currency, -, ho, howner⟩ k
    obtain rfl := List.mem_singleton.mp hx
    obtain rfl := List.mem_singleton.mp (mem_selection.mp ho).1
    obtain ⟨rfl, ha⟩ := Party.mk.inj (Option.some.inj howner)
    obtain rfl := Option.some.inj hl
    rw [← ha]
    rcases k with _ | _ | _ | _ <;> decide +kernel

end ZroServices.Scripts.UpdateUserLimitTracker
