import ZroServices.Operations.LimitRefusal

/-!
# Operations — the first limit check and the second

A limit that has no tracker is checked against the operations that are stored (`getUsedLimit`), and
gets a tracker with the operation that was checked.  From then on it is checked against the tracker.
The tracker starts at zero, whatever was counted before it.

`second_check_iff`: the second check compares with what the first counted plus the value of the
first operation exactly when the first counted nothing (`Operation.Counted`), and, for a DATE limit
type, the second is made in the day, month or year of the first.
-/

namespace ZroServices

open Foundation
open CreateOperationUseCase

/-! ### What the first check counts -/

/-- The wallet account is on a side of the operation that the limit type looks at. -/
def Operation.OnSide (o : Operation) (limitType : LimitType) (a : WalletAccount) : Prop :=
  (limitType.check = .BOTH ∨ limitType.check = .OWNER) ∧
      o.owner.map (·.walletAccount) = some a.id ∨
    (limitType.check = .BOTH ∨ limitType.check = .BENEFICIARY) ∧
      o.beneficiary.map (·.walletAccount) = some a.id

/-- The operation is of the current day, month or year of the limit type, as a check counts it. -/
def Operation.Since (o : Operation) (now : ℤ) (limitType : LimitType) : MomentUnit → Prop
  | .year => True
  | u => periodStartOf now limitType u < o.createdAt

/-- A check without a tracker counts the operation for a wallet account. -/
structure Operation.Counted (env : Env) (now : ℤ) (limitType : LimitType) (a : WalletAccount)
    (u : MomentUnit) (o : Operation) : Prop where
  onSide : o.OnSide limitType a
  year : dateOnly (periodStartOf now limitType .year) ≤ o.createdAt
  ofType : o.transactionType.id ∈ (env.transactionTypesOf limitType).map (·.id)
  state : o.state ∈ getOperationLimitCheckStates
  since : o.Since now limitType u

instance (o : Operation) (limitType : LimitType) (a : WalletAccount) :
    Decidable (o.OnSide limitType a) := inferInstanceAs (Decidable (_ ∧ _ ∨ _ ∧ _))

instance (o : Operation) (now : ℤ) (limitType : LimitType) (u : MomentUnit) :
    Decidable (o.Since now limitType u) := by
  cases u <;> unfold Operation.Since <;> infer_instance

section
variable {env : Env} {now : ℤ} {limitType : LimitType} {a : WalletAccount} {u : MomentUnit}
  {db : Db} {l : UserLimit} {os : List Operation}

/-- The values of the operations that meet `p` add up to nothing when each is nothing. -/
theorem sum_values_eq_zero_iff {p : Operation → Prop} [DecidablePred p]
    (hnonneg : ∀ o ∈ os, 0 ≤ o.value) :
    0 ≤ (os.map fun o => if p o then o.value else 0).sum ∧
      ((os.map fun o => if p o then o.value else 0).sum = 0 ↔ ∀ o ∈ os, p o → o.value = 0) := by
  induction os with
  | nil => simp
  | cons o os ih =>
      obtain ⟨sum, rest⟩ := ih fun x hx => hnonneg x (List.mem_cons_of_mem o hx)
      have first : 0 ≤ if p o then o.value else 0 := by
        split
        · exact hnonneg o List.mem_cons_self
        · exact le_refl _
      rw [List.map_cons, List.sum_cons, add_eq_zero_iff_of_nonneg first sum, rest,
        List.forall_mem_cons, ite_eq_right_iff]
      exact ⟨add_nonneg first sum, Iff.rfl⟩

/-- The operations of the current year that a check without a tracker looks at. -/
theorem mem_yearOperations {o : Operation} :
    o ∈ (if limitType.check = .BOTH ∨ limitType.check = .OWNER then
          getValueAndCreatedAt (·.owner) a (dateOnly (periodStartOf now limitType .year))
            (env.transactionTypesOf limitType) db else [])
        ++ (if limitType.check = .BOTH ∨ limitType.check = .BENEFICIARY then
          getValueAndCreatedAt (·.beneficiary) a (dateOnly (periodStartOf now limitType .year))
            (env.transactionTypesOf limitType) db else []) ↔
      o ∈ db.operations.rows ∧ o.Counted env now limitType a .year := by
  have side : ∀ {s : Operation → Option Party} {p : Prop} [Decidable p],
      o ∈ (if p then getValueAndCreatedAt s a (dateOnly (periodStartOf now limitType .year))
        (env.transactionTypesOf limitType) db else []) ↔
      p ∧ (s o).map (·.walletAccount) = some a.id ∧ o ∈ db.operations.rows ∧
        dateOnly (periodStartOf now limitType .year) ≤ o.createdAt ∧
        o.transactionType.id ∈ (env.transactionTypesOf limitType).map (·.id) ∧
        o.state ∈ getOperationLimitCheckStates := by
    intro s p _
    by_cases hp : p
    · simp only [hp, if_true, getValueAndCreatedAt, List.mem_filter, decide_eq_true_eq, true_and]
      tauto
    · simp [hp]
  rw [List.mem_append, side, side]
  constructor
  · rintro (⟨hcheck, hside, hmem, hyear, htype, hstate⟩ |
      ⟨hcheck, hside, hmem, hyear, htype, hstate⟩)
    · exact ⟨hmem, Or.inl ⟨hcheck, hside⟩, hyear, htype, hstate, trivial⟩
    · exact ⟨hmem, Or.inr ⟨hcheck, hside⟩, hyear, htype, hstate, trivial⟩
  · rintro ⟨hmem, ⟨hcheck, hside⟩ | ⟨hcheck, hside⟩, hyear, htype, hstate, -⟩
    · exact Or.inl ⟨hcheck, hside, hmem, hyear, htype, hstate⟩
    · exact Or.inr ⟨hcheck, hside, hmem, hyear, htype, hstate⟩

/-- A check without a tracker takes nothing as used when what it counts is nothing. -/
theorem getUsedLimit_eq_zero_iff (env : Env) (now : ℤ) (limitType : LimitType)
    (a : WalletAccount) (hnonneg : ∀ o ∈ db.operations.rows, 0 ≤ o.value)
    (l : UserLimit) (u : MomentUnit) :
    0 ≤ (getUsedLimit env now a l limitType db).period u ∧
      ((getUsedLimit env now a l limitType db).period u = 0 ↔
        ∀ o ∈ db.operations.rows, o.Counted env now limitType a u → o.value = 0) := by
  have counted : ∀ o : Operation, o.Counted env now limitType a u ↔
      o.Counted env now limitType a .year ∧ o.Since now limitType u := fun o =>
    ⟨fun h => ⟨⟨h.onSide, h.year, h.ofType, h.state, trivial⟩, h.since⟩,
      fun ⟨h, hs⟩ => ⟨h.onSide, h.year, h.ofType, h.state, hs⟩⟩
  rw [getUsedLimit]
  generalize hos : ((if limitType.check = .BOTH ∨ limitType.check = .OWNER then
      getValueAndCreatedAt (·.owner) a (dateOnly (periodStartOf now limitType .year))
        (env.transactionTypesOf limitType) db else [])
    ++ if limitType.check = .BOTH ∨ limitType.check = .BENEFICIARY then
      getValueAndCreatedAt (·.beneficiary) a (dateOnly (periodStartOf now limitType .year))
        (env.transactionTypesOf limitType) db else []) = os
  have mem : ∀ o, o ∈ os ↔ o ∈ db.operations.rows ∧ o.Counted env now limitType a .year := by
    intro o
    rw [← hos]
    exact mem_yearOperations
  have values : 0 ≤ (os.map fun o => if o.Since now limitType u then o.value else 0).sum ∧
      ((os.map fun o => if o.Since now limitType u then o.value else 0).sum = 0 ↔
        ∀ o ∈ db.operations.rows, o.Counted env now limitType a u → o.value = 0) := by
    have nonneg : ∀ o ∈ os, 0 ≤ o.value := fun o ho => hnonneg o ((mem o).mp ho).1
    obtain ⟨sum, zero⟩ := sum_values_eq_zero_iff (p := fun o => o.Since now limitType u) nonneg
    refine ⟨sum, zero.trans ⟨fun h o ho hc => ?_, fun h o ho hs => ?_⟩⟩
    · obtain ⟨hyear, hs⟩ := (counted o).mp hc
      exact h o ((mem o).mpr ⟨ho, hyear⟩) hs
    · obtain ⟨ho, hyear⟩ := (mem o).mp ho
      exact h o ho ((counted o).mpr ⟨hyear, hs⟩)
  cases u with
  | day => exact values
  | month => exact values
  | year =>
      have every : (os.map fun o => if o.Since now limitType .year then o.value else 0)
          = os.map (·.value) := List.map_congr_left fun o _ => if_pos trivial
      rw [every] at values
      exact values

end

/-! ### What the first operation leaves -/

namespace CreateOperationUseCase

section
variable {env : Env} {now : ℤ} {tag : String}
  {ownerInfo beneficiaryInfo : Option CreateOperationParticipant} {w w' : World}
  {r : CreatedOperation} {tt : TransactionType} {owner : Option OwnerSide}
  {beneficiary : Option BeneficiarySide} {db₁ db₂ db₃ : Db} {x : Operation} {tracker : Uuid}

/-- The side that a returned operation was charged to. -/
inductive ChargedSide (owner : Option OwnerSide) (beneficiary : Option BeneficiarySide)
    (c : TrackedLimit) : Prop
  | owner (o : OwnerSide) (ho : owner = some o) (hc : o.userLimitTracker = some c)
  | beneficiary (b : BeneficiarySide) (hb : beneficiary = some b)
      (hc : b.userLimitTracker = some c)

/-- What is charged for a returned operation, and to which side. -/
theorem Execution.charged
    (h : Execution env now tag ownerInfo beneficiaryInfo w w' r tt owner beneficiary db₁ db₂ db₃)
    (hx : r.ownerOperation = some x ∨ r.beneficiaryOperation = some x)
    (htracker : x.userLimitTracker = some tracker) :
    ∃ c, ChargedSide owner beneficiary c ∧ c.tracker.id = tracker ∧ 0 ≤ x.value ∧
      w'.db.userLimits = db₂.userLimits ∧
      w'.db.userLimitTrackers = db₂.userLimitTrackers.upsert (c.charged env now x.value) := by
  obtain ⟨e, about, hw'⟩ := h.event
  have hv := (about.nonneg hx).1
  rw [hw']
  cases hstored : h.stored with
  | single i _ t _ hins =>
      have hi : i.operation env now tt = x := by
        rcases hx with hx | hx
        · obtain ⟨_, -, hi⟩ := Option.map_eq_some_iff.mp hx
          exact hi
        · obtain ⟨_, -, hi⟩ := Option.map_eq_some_iff.mp hx
          exact hi
      subst hi
      rw [OperationInfo.operation_userLimitTracker] at htracker
      obtain ⟨c, hc, hid⟩ := Option.map_eq_some_iff.mp htracker
      refine ⟨c, ?_, hid, hv, rfl, ?_⟩
      · cases i with
        | owner o => exact .owner o rfl hc
        | shared o b => exact .owner o rfl hc
        | beneficiary b => exact .beneficiary b rfl hc
      · change i.userLimitTrackers env now db₂.userLimitTrackers = _
        rw [OperationInfo.userLimitTrackers, hc, OperationInfo.operation_value]
        rfl
  | independent o b _ db₁' db₂' t₁ t₂ o₁ o₂ hne ho₁ ho₂ hins₁ hdb₁ hins₂ hdb₂ =>
      subst ho₁ ho₂ hdb₁ hdb₂
      -- With two currencies, one of the two is not limited.
      have ownerLimit := (h.ownerChecked o rfl).limit
      have beneficiaryLimit := h.beneficiaryChecked b rfl
      have trackers : ∀ y, y = (OperationInfo.beneficiary b).userLimitTrackers env now
          ((OperationInfo.owner o).userLimitTrackers env now db₂.userLimitTrackers) →
          ∀ c, ((o.userLimitTracker = some c ∧ b.userLimitTracker = none ∧
              x.value = (OperationInfo.owner o).value) ∨
            (o.userLimitTracker = none ∧ b.userLimitTracker = some c ∧
              x.value = (OperationInfo.beneficiary b).value)) →
          y = db₂.userLimitTrackers.upsert (c.charged env now x.value) := by
        rintro y rfl c (⟨ho, hb, hvalue⟩ | ⟨ho, hb, hvalue⟩)
        · have e₁ : (OperationInfo.owner o).userLimitTracker = some c := ho
          have e₂ : (OperationInfo.beneficiary b).userLimitTracker = none := hb
          rw [OperationInfo.userLimitTrackers, e₂, OperationInfo.userLimitTrackers, e₁, hvalue]
          rfl
        · have e₁ : (OperationInfo.owner o).userLimitTracker = none := ho
          have e₂ : (OperationInfo.beneficiary b).userLimitTracker = some c := hb
          rw [OperationInfo.userLimitTrackers, e₂, OperationInfo.userLimitTrackers, e₁, hvalue]
          rfl
      rcases hx with hx | hx
      · obtain rfl := Option.some.inj hx
        have ht := htracker
        change ((OperationInfo.owner o).operation env now tt).userLimitTracker = _ at ht
        rw [OperationInfo.operation_userLimitTracker] at ht
        obtain ⟨c, hc, hid⟩ := Option.map_eq_some_iff.mp ht
        have hc' : o.userLimitTracker = some c := hc
        rw [hc'] at ownerLimit
        have hb := beneficiaryLimit.owner_none ownerLimit hne.symm
        exact ⟨c, .owner o rfl hc', hid, hv, rfl,
          trackers _ rfl c (Or.inl ⟨hc', hb, OperationInfo.operation_value⟩)⟩
      · obtain rfl := Option.some.inj hx
        have ht := htracker
        change ((OperationInfo.beneficiary b).operation env now tt).userLimitTracker = _ at ht
        rw [OperationInfo.operation_userLimitTracker] at ht
        obtain ⟨c, hc, hid⟩ := Option.map_eq_some_iff.mp ht
        have hc' : b.userLimitTracker = some c := hc
        rw [hc'] at beneficiaryLimit
        have ho := ownerLimit.owner_none beneficiaryLimit hne
        exact ⟨c, .beneficiary b rfl hc', hid, hv, rfl,
          trackers _ rfl c (Or.inr ⟨ho, hc', OperationInfo.operation_value⟩)⟩

/-- A limit whose tracker was not stored was checked against the stored operations. -/
theorem LimitFound.flag_eq_true {drawn : ℕ} {user : UserId} {limitType : LimitType} {db db' : Db}
    {c : TrackedLimit} {flag : Bool}
    (h : LimitFound env now drawn user limitType db db' c flag)
    (hnew : db.userLimitTrackers.get? c.tracker.id = none) : flag = true := by
  cases h with
  | tracked l t hl ht =>
      rw [restart_id] at hnew
      have := Table.get?_of_mem (Db.userLimitTracker_of_find ht).1
      rw [UserLimitTracker.key_eq, hnew] at this
      cases this
  | untracked | created => rfl

/-- The stored operations are all that a check without a tracker depends on. -/
theorem getUsedLimit_congr {db db' : Db} (h : db'.operations = db.operations) (a : WalletAccount)
    (l : UserLimit) (limitType : LimitType) :
    getUsedLimit env now a l limitType db' = getUsedLimit env now a l limitType db := by
  simp only [getUsedLimit, getValueAndCreatedAt, h]

end

end CreateOperationUseCase

/-- The limit check of a side `q` of a create compares `used` with the limit `l`. -/
inductive Compared (env : Env) (now : ℤ) (db : Db) (tag : String)
    (ownerInfo beneficiaryInfo : Option CreateOperationParticipant) (q : LoadedParticipant)
    (limitType : LimitType) (l : UserLimit) (used : UsedLimit) : Prop
  | owner (tt : TransactionType) (hq : Names env db tag ownerInfo tt q)
      (hl : LooksAt env now 0 db tt q limitType l used)
  | beneficiary (tt : TransactionType) (db' : Db) (hq : Names env db tag beneficiaryInfo tt q)
      (hdb' : db.LimitCreated env db') (hl : LooksAt env now 1 db' tt q limitType l used)

section
variable {env : Env} {now : ℤ} {tag : String}
  {ownerInfo beneficiaryInfo : Option CreateOperationParticipant} {w w' : World}
  {r : CreatedOperation} {tt : TransactionType} {owner : Option OwnerSide}
  {beneficiary : Option BeneficiarySide} {db db' db₁ db₂ db₃ : Db} {x : Operation} {tracker : Uuid}
  {user : UserId} {q : LoadedParticipant} {limitType : LimitType} {l : UserLimit}
  {c : TrackedLimit} {used : UsedLimit}

/-- The limit check of the side that a returned operation was charged to. -/
theorem CreateOperationUseCase.Execution.chargedSide
    (h : Execution env now tag ownerInfo beneficiaryInfo w w' r tt owner beneficiary db₁ db₂ db₃)
    (hside : ChargedSide owner beneficiary c)
    (hnew : w.db.userLimitTrackers.get? c.tracker.id = none) :
    ∃ q limitType, Compared env now w.db tag ownerInfo beneficiaryInfo q limitType c.userLimit
        (getUsedLimit env now q.walletAccount c.userLimit limitType w.db) ∧
      db₂.userLimitByUserAndLimitType q.wallet.user limitType.id = some c.userLimit ∧
      NewTracker limitType db₂ c := by
  have untracked : ∀ {drawn : ℕ} {side : Option CreateOperationParticipant} {p : LoadedParticipant}
      {db db' : Db}, Option.Rel Requested side (some p.info) → Loaded env w.db p →
      w.db.LimitCreated env db → Found env now drawn tt p db db' (some c) →
      ∃ limitType, Names env w.db tag side tt p ∧
        LimitFound env now drawn p.wallet.user limitType db db' c true ∧
        LooksAt env now drawn db tt p limitType c.userLimit
          (getUsedLimit env now p.walletAccount c.userLimit limitType w.db) := by
    intro drawn side p db db' hrequested hloaded hcreated hfound
    obtain ⟨limitType, flag, hlt, hfound⟩ := hfound c rfl
    obtain rfl := hfound.flag_eq_true (by rwa [hcreated.userLimitTrackers])
    refine ⟨limitType, ⟨h.transactionType, ?_, hloaded⟩, hfound, hlt, c, true, db', hfound, rfl, ?_⟩
    · cases hrequested with
      | some hr => exact ⟨_, rfl, hr⟩
    · rw [usedOf, if_pos rfl]
      exact (getUsedLimit_congr
        (hfound.created_or.operations.trans hcreated.operations) _ _ _).symm
  cases hside with
  | owner o ho hc =>
      subst ho
      have checked := (h.ownerChecked o rfl).found
      rw [hc] at checked
      obtain ⟨limitType, names, hfound, looks⟩ :=
        untracked h.ownerRequested (h.ownerLoaded o rfl) .same checked
      refine ⟨o.toLoadedParticipant, limitType, .owner tt names looks,
        h.beneficiaryLimit.find hfound.find, hfound.new.extend ?_⟩
      exact limitCreated_extends h.beneficiaryLimit
  | beneficiary b hb hc =>
      subst hb
      have checked := h.beneficiaryFound b rfl
      rw [hc] at checked
      obtain ⟨limitType, names, hfound, looks⟩ :=
        untracked h.beneficiaryRequested (h.beneficiaryLoaded b rfl) h.ownerLimit checked
      exact ⟨b.toLoadedParticipant, limitType, .beneficiary tt db₁ names h.ownerLimit looks,
        hfound.find, hfound.new⟩

/-- A limit with a tracker is compared with what the tracker has, brought up to date. -/
theorem Compared.tracked {t : UserLimitTracker}
    (h : Compared env now db tag ownerInfo beneficiaryInfo q limitType l used)
    (hl : db.userLimitByUserAndLimitType q.wallet.user limitType.id = some c.userLimit)
    (ht : db.userLimitTrackerByUserLimit c.userLimit = some t) :
    l = c.userLimit ∧ used = (restartUserLimitTracker env now c.userLimit t).usedLimit := by
  have looks : ∀ {drawn : ℕ} {tt : TransactionType} {db' : Db}, db.LimitCreated env db' →
      LooksAt env now drawn db' tt q limitType l used →
      l = c.userLimit ∧ used = (restartUserLimitTracker env now c.userLimit t).usedLimit := by
    intro drawn tt db' hcreated hlooks
    obtain ⟨-, c', flag, db'', hfound, rfl, rfl⟩ := hlooks
    have hl' := hcreated.find hl
    have ht' : db'.userLimitTrackerByUserLimit c.userLimit = some t := by
      rw [Db.userLimitTrackerByUserLimit, hcreated.userLimitTrackers]
      exact ht
    cases hfound with
    | tracked l t' hl₁ ht₁ =>
        obtain rfl := Option.some.inj (hl₁.symm.trans hl')
        obtain rfl := Option.some.inj (ht₁.symm.trans ht')
        exact ⟨rfl, rfl⟩
    | untracked l hl₁ hnone =>
        obtain rfl := Option.some.inj (hl₁.symm.trans hl')
        rw [ht'] at hnone
        cases hnone
    | created g T _ hnone =>
        rw [hl'] at hnone
        cases hnone
  cases h with
  | owner tt hq hlooks => exact looks .same hlooks
  | beneficiary tt db' hq hcreated hlooks => exact looks hcreated hlooks

/-- A counter that starts with a value at `now`, brought up to date. -/
theorem CreateOperationUseCase.NewTracker.used_restart {now' : ℤ} {v : ℤ} (h : NewTracker limitType db c)
    (hv : 0 ≤ v) (u : MomentUnit) :
    (restartUserLimitTracker env now' c.userLimit (c.charged env now v)).used u
      = if limitType.periodStart = .DATE ∧ ¬ u.period.Same now' now then 0 else v := by
  have charged : (c.charged env now v).used u = v := by
    change (chargeTracker env now c.userLimit c.tracker v).used u = v
    rw [used_charge, h.used u, zero_add]
  by_cases hdate : limitType.periodStart = .DATE
  · have restarted : (restartUserLimitTracker env now' c.userLimit (c.charged env now v)).used u
        = ((c.charged env now v).counter u).restart u.period now' :=
      CreateOperationUseCase.used_restart (h.periodStart.trans hdate)
    rw [restarted, Counter.restart]
    change (if 0 < (c.charged env now v).used u ∧ ¬ u.period.Same now' now then 0
      else (c.charged env now v).used u) = _
    rw [charged]
    by_cases hsame : u.period.Same now' now
    · rw [if_neg fun q => q.2 hsame, if_neg fun q => q.2 hsame]
    · rw [if_pos (⟨hdate, hsame⟩ : limitType.periodStart = .DATE ∧ _)]
      split
      · rfl
      · rename_i hzero
        exact le_antisymm (not_lt.mp fun hpos => hzero ⟨hpos, hsame⟩) hv
  · have restarted : (restartUserLimitTracker env now' c.userLimit (c.charged env now v)).used u
        = (c.charged env now v).used u :=
      used_restart_interval fun e => hdate (h.periodStart.symm.trans e)
    rw [restarted, charged, if_neg fun q => hdate q.1]

/-- **When the second check agrees with the first.**  A create is charged to a limit that had no
tracker.  The next check of the limit, whatever the request, compares with what the first one
counted plus the value of the first operation exactly when the first one counted nothing, and, for
a DATE limit type, the two are of one day, month or year or the value is nothing. -/
theorem second_check_iff
    (hcreate : CreateOperationUseCase.execute env now tag ownerInfo beneficiaryInfo w = .ok r w')
    (hx : r.ownerOperation = some x ∨ r.beneficiaryOperation = some x)
    (htracker : x.userLimitTracker = some tracker)
    (hnew : w.db.userLimitTrackers.get? tracker = none)
    (hnonneg : ∀ o ∈ w.db.operations.rows, 0 ≤ o.value) :
    ∃ q limitType l used, Compared env now w.db tag ownerInfo beneficiaryInfo q limitType l used ∧
      used = getUsedLimit env now q.walletAccount l limitType w.db ∧
      ∀ now' tag' ownerInfo' beneficiaryInfo' q' l' used', q'.wallet.user = q.wallet.user →
        Compared env now' w'.db tag' ownerInfo' beneficiaryInfo' q' limitType l' used' →
        l' = l ∧ ∀ u, used'.period u = used.period u + x.value ↔
          (∀ o ∈ w.db.operations.rows, o.Counted env now limitType q.walletAccount u →
            o.value = 0) ∧
          (limitType.periodStart = .DATE → u.period.Same now' now ∨ x.value = 0) := by
  obtain ⟨tt, owner, beneficiary, db₁, db₂, db₃, hexec⟩ := execute_ok hcreate
  obtain ⟨c, hside, rfl, hv, hlimits, htrackers⟩ := hexec.charged hx htracker
  obtain ⟨q, limitType, hfirst, hl, hc⟩ := hexec.chargedSide hside hnew
  -- The limit and its tracker, as the next check finds them.
  have hl' : w'.db.userLimitByUserAndLimitType q.wallet.user limitType.id = some c.userLimit := by
    rw [Db.userLimitByUserAndLimitType, hlimits]
    exact hl
  have ht' : w'.db.userLimitTrackerByUserLimit c.userLimit = some (c.charged env now x.value) := by
    refine find?_eq_some_of_forall ?_ ?_ fun t ht hlimit => ?_
    · rw [htrackers]
      exact Table.mem_upsert.mpr (Or.inr rfl)
    · exact decide_eq_true hc.userLimit
    · rw [htrackers, Table.mem_upsert] at ht
      rcases ht with ⟨ht, -⟩ | rfl
      · exact absurd (of_decide_eq_true hlimit) (hc.no_tracker t ht).1
      · rfl
  refine ⟨q, limitType, c.userLimit, _, hfirst, rfl, ?_⟩
  intro now' tag' ownerInfo' beneficiaryInfo' q' l' used' huser hsecond
  rw [← huser] at hl'
  obtain ⟨rfl, rfl⟩ := hsecond.tracked hl' ht'
  refine ⟨rfl, fun u => ?_⟩
  obtain ⟨counted, zero⟩ := getUsedLimit_eq_zero_iff env now limitType q.walletAccount hnonneg
    c.userLimit u
  rw [UserLimitTracker.usedLimit_period, hc.used_restart hv, ← zero]
  by_cases hrestart : limitType.periodStart = .DATE ∧ ¬ u.period.Same now' now
  · rw [if_pos hrestart]
    constructor
    · intro h
      exact ⟨by omega, fun _ => Or.inr (by omega)⟩
    · rintro ⟨hzero, hsame⟩
      rcases hsame hrestart.1 with hsame | hzero'
      · exact absurd hsame hrestart.2
      · omega
  · rw [if_neg hrestart]
    constructor
    · intro h
      exact ⟨by omega, fun hdate => Or.inl (not_not.mp fun hsame => hrestart ⟨hdate, hsame⟩)⟩
    · rintro ⟨hzero, -⟩
      omega

/-- The first user, who has sent nothing, sends 300. -/
theorem second_check_iff_sample :
    ∃ (r : CreatedOperation) (w' : World) (x : Operation) (q : LoadedParticipant)
      (limitType : LimitType) (l : UserLimit) (used : UsedLimit),
      r.ownerOperation = some x ∧
      Compared (Sample.env .DATE) Sample.noon (Sample.start 3000 0).world.db "PIXSEND"
        (some (Sample.request 11 1 300)) none q limitType l used ∧
      used = getUsedLimit (Sample.env .DATE) Sample.noon q.walletAccount l limitType
        (Sample.start 3000 0).world.db ∧
      ∀ now' tag' ownerInfo' beneficiaryInfo' q' l' used', q'.wallet.user = q.wallet.user →
        Compared (Sample.env .DATE) now' w'.db tag' ownerInfo' beneficiaryInfo' q' limitType l'
          used' →
        l' = l ∧ ∀ u, used'.period u = used.period u + x.value ↔
          (∀ o ∈ (Sample.start 3000 0).world.db.operations.rows,
            o.Counted (Sample.env .DATE) Sample.noon limitType q.walletAccount u → o.value = 0) ∧
          (limitType.periodStart = .DATE → u.period.Same now' Sample.noon ∨ x.value = 0) := by
  have returns : (((returned (CreateOperationUseCase.execute (Sample.env .DATE) Sample.noon
      "PIXSEND" (some (Sample.request 11 1 300)) none) (Sample.start 3000 0).world).bind
      (·.ownerOperation)).bind (·.userLimitTracker)).isSome := by
    decide +kernel
  obtain ⟨tracker, htracker⟩ := Option.isSome_iff_exists.mp returns
  obtain ⟨x, hx, htracker⟩ := Option.bind_eq_some_iff.mp htracker
  obtain ⟨r, hr, hx⟩ := Option.bind_eq_some_iff.mp hx
  obtain ⟨w', hcreate⟩ := returned_eq_some.mp hr
  obtain ⟨q, limitType, l, used, h⟩ := second_check_iff hcreate (Or.inl hx) htracker rfl
    (fun o ho => absurd ho List.not_mem_nil)
  exact ⟨r, w', x, q, limitType, l, used, hx, h⟩

/-- The service with a limit type that looks at both sides of an operation. -/
def Sample.bothSides : Env :=
  { Sample.env .DATE with limitTypes := [{ Sample.limitType .DATE with check := .BOTH }] }

/-- The second user receives 900, and 600 on the next day, and sends 100: 600 of the day's limit of
1000 are counted as used.  Of a second 950 it is then said that 100 are used, and a second 450 is
accepted. -/
theorem second_check_forgets :
    let s := run (step Sample.bothSides) (Sample.start 3000 0)
      [(Sample.noon, Sample.transfer 10 900), (Sample.noon, .accept 10),
        (Sample.noon + msPerDay, Sample.transfer 11 600), (Sample.noon + msPerDay, .accept 11)]
    let send := fun operation rawValue => CreateOperationUseCase.execute Sample.bothSides
      (Sample.noon + msPerDay) "PIXSEND" (some (Sample.request operation 2 rawValue)) none
    (s.world.db.userLimitByUserAndLimitType 2 1).bind s.world.db.userLimitTrackerByUserLimit
        = none ∧
      Fails (send 12 950) s.world (.notEnoughAvailableLimit ⟨0, 600, 600, 1500⟩ 950) ∧
      Returns (send 12 100) s.world fun w =>
        Fails (send 13 950) w (.notEnoughAvailableLimit ⟨0, 100, 100, 100⟩ 950) ∧
        Returns (send 13 450) w fun _ => True := by
  decide +kernel

end

end ZroServices
