import ZroServices.Limits.UpdateUserLimit

/-!
# Limits — what the updates keep

A user limit is `Coherent` when the user defined limits are within the compliance limits and both
levels are in order.  The two updates do not verify all of it.

* `Guarded` is the part that both keep, whatever is supplied.
* Not verified: the order of the user defined limits (`UserOrder`); that a new daily limit is not
  under the nightly limit; and that a new `maxAmount` or `minAmount`, which moves the user defined
  amount, does not pass the other one.  A run in which every execution meets these (`InOrder`)
  keeps the limits coherent.

Two limits are compared when both are given: `null` and `0` do not limit.
-/

namespace ZroServices

open Foundation

/-- The limits are in order, when both are given. -/
def Limit.AtMost (a b : Limit ℤ) : Prop := a.Given → b.Given → a.number ≤ b.number

instance (a b : Limit ℤ) : Decidable (a.AtMost b) := inferInstanceAs (Decidable (_ → _ → _))

/-- The limit is within a bound, when it is given. -/
def Limit.Under (a : Limit ℤ) (b : ℤ) : Prop := a.Given → a.number ≤ b

instance (a : Limit ℤ) (b : ℤ) : Decidable (a.Under b) := inferInstanceAs (Decidable (_ → _))

namespace Limit

variable {P : Limit ℤ → Prop} {new old user limit : Limit ℤ}

/-- What the supplied and the stored limit have, the chosen one has. -/
theorem override_induction (hnew : new.Given → P new) (hold : P old) : P (new.override old) := by
  rw [override]
  split
  · exact hnew ‹_›
  · exact hold

theorem override_of_given (h : new.Given) : new.override old = new := if_pos h

theorem override_of_not_given (h : ¬ new.Given) : new.override old = old := if_neg h

theorem number_override :
    (new.override old).number = if new.number ≠ 0 then new.number else old.number := by
  rw [override]
  split
  · rw [if_pos ‹_›]
  · rw [if_neg ‹_›]

end Limit

namespace Limits

/-- What both updates verify. -/
structure Guarded (l : LimitValues ℤ) : Prop where
  userNightly : l.userNightlyLimit.AtMost l.nightlyLimit
  userDaily : l.userDailyLimit.Under l.dailyLimit
  userMonthly : l.userMonthlyLimit.Under l.monthlyLimit
  userYearly : l.userYearlyLimit.Under l.yearlyLimit
  userMaxAmount : l.userMaxAmount.AtMost l.maxAmount
  userMaxAmountNightly : l.userMaxAmountNightly.AtMost l.maxAmountNightly
  daily : l.dailyLimit ≤ l.monthlyLimit
  monthly : l.monthlyLimit ≤ l.yearlyLimit
  maxAmount : l.maxAmount.Under l.dailyLimit
  maxAmountNightly : l.maxAmountNightly.AtMost l.nightlyLimit
  minAmount : l.minAmount.AtMost l.maxAmount
  userMinAmount : l.minAmount.AtMost l.userMinAmount

/-- The user defined limits are in order. -/
def UserOrder (l : LimitValues ℤ) : Prop :=
  [l.userNightlyLimit, l.userDailyLimit, l.userMonthlyLimit, l.userYearlyLimit].Pairwise
    Limit.AtMost

instance (l : LimitValues ℤ) : Decidable (UserOrder l) :=
  inferInstanceAs (Decidable (List.Pairwise _ _))

theorem userOrder_iff {l : LimitValues ℤ} : UserOrder l ↔
    (l.userNightlyLimit.AtMost l.userDailyLimit ∧ l.userNightlyLimit.AtMost l.userMonthlyLimit ∧
      l.userNightlyLimit.AtMost l.userYearlyLimit) ∧
    (l.userDailyLimit.AtMost l.userMonthlyLimit ∧ l.userDailyLimit.AtMost l.userYearlyLimit) ∧
    l.userMonthlyLimit.AtMost l.userYearlyLimit := by
  simp [UserOrder]

/-- The compliance limits are not negative. -/
structure NonNeg (l : LimitValues ℤ) : Prop where
  minAmount : 0 ≤ l.minAmount.number
  minAmountNightly : 0 ≤ l.minAmountNightly.number
  maxAmount : 0 ≤ l.maxAmount.number
  maxAmountNightly : 0 ≤ l.maxAmountNightly.number
  nightly : 0 ≤ l.nightlyLimit.number
  daily : 0 ≤ l.dailyLimit

/-- The user defined limits are within the compliance limits, and both levels are in order. -/
structure Coherent (l : LimitValues ℤ) : Prop extends Guarded l where
  nonneg : NonNeg l
  userNightly_le : l.userNightlyLimit.Under l.nightlyLimit.number
  nightly_le : l.nightlyLimit.number ≤ l.dailyLimit
  userAmounts : l.userMinAmount.AtMost l.userMaxAmount
  userOrder : UserOrder l

/-! ### The user's update of one limit -/

namespace UpdateUserLimitUseCase

/-- The limit with what the user supplied. -/
def supplied (n : NewLimits) (l : LimitValues ℤ) : LimitValues ℤ :=
  { l with
    userDailyLimit := n.userDailyLimit.override l.userDailyLimit
    userMonthlyLimit := n.userMonthlyLimit.override l.userMonthlyLimit
    userYearlyLimit := n.userYearlyLimit.override l.userYearlyLimit
    userNightlyLimit := n.userNightlyLimit.override l.userNightlyLimit
    userMaxAmount := n.userMaxAmount.override l.userMaxAmount
    userMaxAmountNightly := n.userMaxAmountNightly.override l.userMaxAmountNightly
    userMinAmount := n.userMinAmount.override l.userMinAmount
    userMinAmountNightly := n.userMinAmountNightly.override l.userMinAmountNightly
    nighttimeStart := if hasNighttime n then n.nighttimeStart else l.nighttimeStart
    nighttimeEnd := if hasNighttime n then n.nighttimeEnd else l.nighttimeEnd }

/-- What the user's update verifies of the supplied limits. -/
structure Verified (n : NewLimits) (l : LimitValues ℤ) : Prop where
  daily : n.userDailyLimit.Given → n.userDailyLimit.number ≤ l.dailyLimit
  monthly : n.userMonthlyLimit.Given → n.userMonthlyLimit.number ≤ l.monthlyLimit
  yearly : n.userYearlyLimit.Given → n.userYearlyLimit.number ≤ l.yearlyLimit
  nightly : n.userNightlyLimit.Given → n.userNightlyLimit.number ≤ l.nightlyLimit.number
  maxAmount : n.userMaxAmount.AtMost l.maxAmount
  maxAmount_userMin : l.userMinAmount.AtMost n.userMaxAmount
  maxAmountNightly : n.userMaxAmountNightly.AtMost l.maxAmountNightly
  minAmount : l.minAmount.AtMost n.userMinAmount
  minAmount_userMax : n.userMinAmount.AtMost (n.userMaxAmount.override l.userMaxAmount)

variable {env : Env} {n : NewLimits} {l l' : StoredLimit} {s s' : State}

theorem applyLimits_ok (h : applyLimits env n l s = .ok l' s') :
    s' = s ∧ Verified n l.toLimitValues ∧
      l' = { l with toLimitValues := supplied n l.toLimitValues } := by
  simp only [applyLimits, bind_ok, adjust_ok, verifyPeriodLimit, verifyUserMaxAmount,
    verifyUserMaxAmountNightly, verifyUserMinAmount, verifyUserMinAmountNightly,
    List.forall_mem_cons, List.not_mem_nil, false_implies, implies_true, and_true,
    decide_eq_false_iff_not, not_and, not_lt] at h
  obtain ⟨_, _, ⟨hdaily, rfl, rfl⟩, _, _, ⟨hmonthly, rfl, rfl⟩, _, _, ⟨hyearly, rfl, rfl⟩,
    _, _, ⟨hnightly, rfl, rfl⟩, _, _, ⟨hmax, rfl, rfl⟩, _, _, ⟨hmaxNightly, rfl, rfl⟩,
    _, _, ⟨hmin, rfl, rfl⟩, _, _, ⟨-, rfl, rfl⟩, h⟩ := h
  have verified : Verified n l.toLimitValues :=
    { daily := hdaily
      monthly := hmonthly
      yearly := hyearly
      nightly := hnightly
      maxAmount := fun hn hl => (hmax hn).1 hl
      maxAmount_userMin := fun hl hn => (hmax hn).2.2 hl
      maxAmountNightly := fun hn hl => (hmaxNightly hn).1 hl
      minAmount := fun hl hn => (hmin hn).1 hl
      minAmount_userMax := fun hn hl => (hmin hn).2.2 hl }
  by_cases hn : hasNighttime n
  · rw [if_pos hn] at h
    obtain ⟨_, _, hvalid, hpure⟩ := bind_ok.mp h
    obtain ⟨-, rfl⟩ := throwIf_ok.mp hvalid
    obtain ⟨rfl, rfl⟩ := pure_ok.mp hpure
    refine ⟨rfl, verified, ?_⟩
    rw [supplied, if_pos hn, if_pos hn]
    rfl
  · rw [if_neg hn] at h
    obtain ⟨rfl, rfl⟩ := pure_ok.mp h
    refine ⟨rfl, verified, ?_⟩
    rw [supplied, if_neg hn, if_neg hn]
    rfl

/-- Supplied once more, the limits are in order as before. -/
theorem supplied_order {l : LimitValues ℤ} :
    UserOrder (supplied n (supplied n l)) ↔ UserOrder (supplied n l) := by
  have twice : ∀ new old : Limit ℤ, new.override (new.override old) = new.override old := by
    intro new old
    refine Limit.override_induction (P := (new.override · = new.override old)) (fun hn => ?_) rfl
    rw [Limit.override_of_given hn, Limit.override_of_given hn]
  rw [UserOrder, UserOrder]
  simp only [supplied, twice]

/-- What the user's update verifies is enough to keep a limit guarded. -/
theorem Verified.guarded {l : LimitValues ℤ} (v : Verified n l) (h : Guarded l) :
    Guarded (supplied n l) where
  userNightly := Limit.override_induction (P := (·.AtMost _)) (fun hn _ _ => v.nightly hn) h.userNightly
  userDaily := Limit.override_induction (P := (·.Under _)) (fun hn _ => v.daily hn)
    h.userDaily
  userMonthly := Limit.override_induction (P := (·.Under _))
    (fun hn _ => v.monthly hn) h.userMonthly
  userYearly := Limit.override_induction (P := (·.Under _))
    (fun hn _ => v.yearly hn) h.userYearly
  userMaxAmount := Limit.override_induction (P := (·.AtMost _)) (fun _ => v.maxAmount) h.userMaxAmount
  userMaxAmountNightly := Limit.override_induction (P := (·.AtMost _)) (fun _ => v.maxAmountNightly)
    h.userMaxAmountNightly
  daily := h.daily
  monthly := h.monthly
  maxAmount := h.maxAmount
  maxAmountNightly := h.maxAmountNightly
  minAmount := h.minAmount
  userMinAmount := Limit.override_induction (P := fun x => Limit.AtMost _ x) (fun _ => v.minAmount)
    h.userMinAmount

/-- A limit whose user defined limits are in order stays coherent. -/
theorem Verified.coherent {l : LimitValues ℤ} (v : Verified n l) (h : Coherent l)
    (horder : UserOrder (supplied n l)) : Coherent (supplied n l) where
  toGuarded := v.guarded h.toGuarded
  nonneg := ⟨h.nonneg.minAmount, h.nonneg.minAmountNightly, h.nonneg.maxAmount,
    h.nonneg.maxAmountNightly, h.nonneg.nightly, h.nonneg.daily⟩
  userNightly_le := Limit.override_induction (P := (·.Under _))
    (fun hn _ => v.nightly hn) h.userNightly_le
  nightly_le := h.nightly_le
  userAmounts := by
    refine Limit.override_induction (P := (·.AtMost _)) (fun _ => v.minAmount_userMax) ?_
    exact Limit.override_induction (P := fun x => Limit.AtMost _ x) (fun _ => v.maxAmount_userMin)
      h.userAmounts
  userOrder := horder

end UpdateUserLimitUseCase

/-! ### The update of one limit by compliance -/

namespace UpdateUserLimitByAdminUseCase

variable {n : NewUserLimit} {l l' : StoredLimit} {s s' : State} {user limit : Limit ℤ}

/-- What compliance's update verifies of the supplied limits, once they are in place. -/
structure Verified (n : NewUserLimit) (m : LimitValues ℤ) : Prop where
  yearly : n.yearlyLimit.Given → m.monthlyLimit ≤ n.yearlyLimit.number
  monthly : n.monthlyLimit.Given →
    n.monthlyLimit.number ≤ m.yearlyLimit ∧ m.dailyLimit ≤ n.monthlyLimit.number
  daily : n.dailyLimit.Given →
    n.dailyLimit.number ≤ m.monthlyLimit ∧ m.maxAmount.number ≤ n.dailyLimit.number
  nightly : n.nightlyLimit.Given →
    n.nightlyLimit.number ≤ m.dailyLimit ∧ m.maxAmountNightly.number ≤ n.nightlyLimit.number
  maxAmount : n.maxAmount.Given →
    n.maxAmount.number ≤ m.dailyLimit ∧ m.minAmount.number ≤ n.maxAmount.number
  minAmount : n.minAmount.Given →
    n.minAmount.number ≤ m.maxAmount.number ∧ 0 ≤ n.minAmount.number
  maxAmountNightly : n.maxAmountNightly.Given →
    n.maxAmountNightly.number ≤ m.nightlyLimit.number ∧
      m.minAmountNightly.number ≤ n.maxAmountNightly.number
  minAmountNightly : n.minAmountNightly.Given →
    n.minAmountNightly.number ≤ m.maxAmountNightly.number ∧ 0 ≤ n.minAmountNightly.number

/-- The user defined limits, moved by the supplied limits. -/
def moved (n : NewUserLimit) (m : StoredLimit) : StoredLimit :=
  { m with
    userYearlyLimit := if n.yearlyLimit.Given then
      notAbove m.userYearlyLimit (some m.yearlyLimit) else m.userYearlyLimit
    userMonthlyLimit := if n.monthlyLimit.Given then
      notAbove m.userMonthlyLimit (some m.monthlyLimit) else m.userMonthlyLimit
    userDailyLimit := if n.dailyLimit.Given then
      notAbove m.userDailyLimit (some m.dailyLimit) else m.userDailyLimit
    userNightlyLimit := if n.nightlyLimit.Given then
      notAbove m.userNightlyLimit m.nightlyLimit else m.userNightlyLimit
    userMaxAmount := if n.maxAmount.Given then
      notAbove m.userMaxAmount m.maxAmount else m.userMaxAmount
    userMinAmount := if n.minAmount.Given then
      notUnder m.userMinAmount m.minAmount else m.userMinAmount
    userMaxAmountNightly := if n.maxAmountNightly.Given then
      notAbove m.userMaxAmountNightly m.maxAmountNightly else m.userMaxAmountNightly
    userMinAmountNightly := if n.minAmountNightly.Given then
      notUnder m.userMinAmountNightly m.minAmountNightly else m.userMinAmountNightly }

theorem applyLimits_ok (h : applyLimits n l s = .ok l' s') :
    s' = s ∧ Verified n (withNewLimits n l).toLimitValues ∧ l' = moved n (withNewLimits n l) := by
  simp only [applyLimits, bind_ok, adjust_ok, verifyYearlyLimit, verifyMonthlyLimit,
    verifyDailyLimit, verifyNightlyLimit, verifyMaxAmount, verifyMinAmount, verifyMaxAmountNightly,
    verifyMinAmountNightly, List.forall_mem_cons, List.not_mem_nil, false_implies, implies_true,
    and_true, decide_eq_false_iff_not, not_lt, pure_ok] at h
  obtain ⟨_, _, ⟨hyearly, rfl, rfl⟩, _, _, ⟨hmonthly, rfl, rfl⟩, _, _, ⟨hdaily, rfl, rfl⟩,
    _, _, ⟨hnightly, rfl, rfl⟩, _, _, ⟨hmax, rfl, rfl⟩, _, _, ⟨hmin, rfl, rfl⟩,
    _, _, ⟨hmaxNightly, rfl, rfl⟩, _, _, ⟨hminNightly, rfl, rfl⟩, rfl, rfl⟩ := h
  exact ⟨rfl, ⟨hyearly, hmonthly, hdaily, hnightly, hmax, hmin, hmaxNightly, hminNightly⟩, rfl⟩

theorem notAbove_le : (notAbove user limit).number ≤ limit.number := by
  rw [notAbove]
  split
  · exact le_refl _
  · exact not_lt.mp ‹_›

theorem le_notUnder : limit.number ≤ (notUnder user limit).number := by
  rw [notUnder]
  split
  · exact le_refl _
  · exact not_lt.mp ‹_›

/-- What compliance's update verifies is enough to keep a limit guarded. -/
theorem Verified.guarded (v : Verified n (withNewLimits n l).toLimitValues)
    (h : Guarded l.toLimitValues) : Guarded (moved n (withNewLimits n l)).toLimitValues where
  userNightly := iteInduction (motive := (Limit.AtMost · _)) (fun _ _ _ => notAbove_le) fun hn => by
    simpa only [moved, withNewLimits, Limit.override_of_not_given hn] using h.userNightly
  userDaily := iteInduction (motive := (Limit.Under · _))
    (fun _ _ => notAbove_le) fun hn => by
      simpa only [moved, withNewLimits, if_neg hn] using h.userDaily
  userMonthly := iteInduction (motive := (Limit.Under · _))
    (fun _ _ => notAbove_le) fun hn => by
      simpa only [moved, withNewLimits, if_neg hn] using h.userMonthly
  userYearly := iteInduction (motive := (Limit.Under · _))
    (fun _ _ => notAbove_le) fun hn => by
      simpa only [moved, withNewLimits, if_neg hn] using h.userYearly
  userMaxAmount := iteInduction (motive := (Limit.AtMost · _)) (fun _ _ _ => notAbove_le)
    fun hn => by simpa only [moved, withNewLimits, Limit.override_of_not_given hn] using h.userMaxAmount
  userMaxAmountNightly := iteInduction (motive := (Limit.AtMost · _)) (fun _ _ _ => notAbove_le)
    fun hn => by
      simpa only [moved, withNewLimits, Limit.override_of_not_given hn] using h.userMaxAmountNightly
  daily := by
    have := h.daily
    have := v.monthly
    have := v.daily
    simp only [moved, withNewLimits, Limit.Given] at *
    split_ifs at * <;> omega
  monthly := by
    have := h.monthly
    have := v.monthly
    have := v.yearly
    simp only [moved, withNewLimits, Limit.Given] at *
    split_ifs at * <;> omega
  maxAmount := by
    have := h.maxAmount
    have := v.maxAmount
    have := v.daily
    simp only [moved, withNewLimits, Limit.Under, Limit.Given, Limit.number_override] at *
    split_ifs at * <;> omega
  maxAmountNightly := by
    have := h.maxAmountNightly
    have := v.maxAmountNightly
    have := v.nightly
    simp only [moved, withNewLimits, Limit.AtMost, Limit.Given, Limit.number_override] at *
    split_ifs at * <;> omega
  minAmount := by
    have := h.minAmount
    have := v.maxAmount
    have := v.minAmount
    simp only [moved, withNewLimits, Limit.AtMost, Limit.Given, Limit.number_override] at *
    split_ifs at * <;> omega
  userMinAmount := iteInduction (motive := fun x => Limit.AtMost _ x) (fun _ _ _ => le_notUnder)
    fun hn => by simpa only [moved, withNewLimits, Limit.override_of_not_given hn] using h.userMinAmount

/-- What compliance's update does not verify. -/
structure KeepsOrder (n : NewUserLimit) (l : StoredLimit) : Prop where
  nightly : (withNewLimits n l).nightlyLimit.number ≤ (withNewLimits n l).dailyLimit
  maxAmount : n.maxAmount.Given → l.userMinAmount.AtMost n.maxAmount
  minAmount : n.minAmount.Given → n.minAmount.AtMost l.userMaxAmount

theorem Verified.nonneg (v : Verified n (withNewLimits n l).toLimitValues)
    (h : NonNeg l.toLimitValues) : NonNeg (moved n (withNewLimits n l)).toLimitValues := by
  obtain ⟨minAmount, minAmountNightly, maxAmount, maxAmountNightly, nightly, daily⟩ := h
  obtain ⟨-, -, vdaily, vnightly, vmax, vmin, vmaxNightly, vminNightly⟩ := v
  have hmin : 0 ≤ (n.minAmount.override l.minAmount).number :=
    Limit.override_induction (P := (0 ≤ ·.number)) (fun hn => (vmin hn).2) minAmount
  have hminNightly : 0 ≤ (n.minAmountNightly.override l.minAmountNightly).number :=
    Limit.override_induction (P := (0 ≤ ·.number)) (fun hn => (vminNightly hn).2) minAmountNightly
  have hmax : 0 ≤ (n.maxAmount.override l.maxAmount).number :=
    Limit.override_induction (P := (0 ≤ ·.number)) (fun hn => hmin.trans (vmax hn).2) maxAmount
  have hmaxNightly : 0 ≤ (n.maxAmountNightly.override l.maxAmountNightly).number :=
    Limit.override_induction (P := (0 ≤ ·.number)) (fun hn => hminNightly.trans (vmaxNightly hn).2)
      maxAmountNightly
  refine ⟨hmin, hminNightly, hmax, hmaxNightly, ?_, ?_⟩
  · exact Limit.override_induction (P := (0 ≤ ·.number))
      (fun hn => hmaxNightly.trans (vnightly hn).2) nightly
  · exact iteInduction (motive := (0 ≤ ·)) (fun hn => hmax.trans (vdaily hn).2) fun _ => daily

/-- Two user defined limits stay in order when the compliance limits they move to are. -/
theorem moved_atMost {c₁ c₂ : Prop} [Decidable c₁] [Decidable c₂] {u₁ u₂ m₁ m₂ : Limit ℤ}
    (h : u₁.AtMost u₂) (hm₁ : 0 ≤ m₁.number) (hm : m₁.number ≤ m₂.number)
    (hu₁ : (if c₁ then notAbove u₁ m₁ else u₁).Under m₁.number) :
    (if c₁ then notAbove u₁ m₁ else u₁).AtMost (if c₂ then notAbove u₂ m₂ else u₂) := by
  intro given₁ given₂
  -- The second moved to its limit, or is where it was.
  have second : (if c₂ then notAbove u₂ m₂ else u₂) = m₂ ∨
      (if c₂ then notAbove u₂ m₂ else u₂) = u₂ := by
    rw [notAbove]
    split_ifs
    · exact Or.inl rfl
    · exact Or.inr rfl
    · exact Or.inr rfl
  rcases second with e | e
  · rw [e]
    exact (hu₁ given₁).trans hm
  · rw [e] at given₂ ⊢
    rw [notAbove] at given₁ ⊢
    split_ifs at given₁ ⊢ with hc hlt
    · have given : u₁.Given := by
        rw [Limit.Given]
        omega
      exact (le_of_lt hlt).trans (h given given₂)
    · exact h given₁ given₂
    · exact h given₁ given₂

/-- A limit whose order is kept stays coherent. -/
theorem Verified.coherent (v : Verified n (withNewLimits n l).toLimitValues)
    (h : Coherent l.toLimitValues) (horder : KeepsOrder n l) :
    Coherent (moved n (withNewLimits n l)).toLimitValues := by
  have guarded := v.guarded h.toGuarded
  have nonneg := v.nonneg h.nonneg
  have nightly : (moved n (withNewLimits n l)).userNightlyLimit.Under
      (withNewLimits n l).nightlyLimit.number :=
    iteInduction (motive := (Limit.Under · _)) (fun _ _ => notAbove_le) fun hn => by
      simpa only [withNewLimits, Limit.override_of_not_given hn] using h.userNightly_le
  have monthly : 0 ≤ (withNewLimits n l).monthlyLimit := nonneg.daily.trans guarded.daily
  refine ⟨guarded, nonneg, nightly, horder.nightly, ?_, ?_⟩
  · -- The amounts that a new limit moves the user's to were compared with the user's other one.
    have amounts := h.userAmounts
    have max := horder.maxAmount
    have min := horder.minAmount
    have limits := guarded.minAmount
    simp only [moved, withNewLimits, Limit.AtMost, Limit.Given, notAbove, notUnder,
      apply_ite Limit.number, Limit.number_override] at *
    split_ifs at * <;> omega
  · obtain ⟨⟨nd, nm, ny⟩, ⟨dm, dy⟩, my⟩ := userOrder_iff.mp h.userOrder
    have hdm := guarded.daily
    have hmy := guarded.monthly
    exact userOrder_iff.mpr ⟨⟨moved_atMost nd nonneg.nightly horder.nightly nightly,
      moved_atMost nm nonneg.nightly (horder.nightly.trans hdm) nightly,
      moved_atMost ny nonneg.nightly (horder.nightly.trans (hdm.trans hmy)) nightly⟩,
      ⟨moved_atMost dm nonneg.daily hdm guarded.userDaily,
        moved_atMost dy nonneg.daily (hdm.trans hmy) guarded.userDaily⟩,
      moved_atMost my monthly hmy guarded.userMonthly⟩

end UpdateUserLimitByAdminUseCase

/-! ### Executions -/

section
variable {env : Env} {s s' : State} {user : UserId} {limitType : LimitTypeId}
  {limitTypes : List LimitTypeId} {n : NewLimits} {l l' : StoredLimit}

namespace UpdateUserLimitUseCase

/-- The limit of a user for a limit type: a stored one, or the global one. -/
inductive LimitOf (env : Env) (s : State) (user : UserId) (limitType : LimitTypeId) :
    LimitValues ℤ → Prop
  | stored (l : StoredLimit) (hl : l ∈ s.userLimits.rows) (huser : l.user = user)
      (htype : l.limitType = limitType) : LimitOf env s user limitType l.toLimitValues
  | global (g : LimitValues ℤ) (hg : env.globalLimit limitType = some g) :
      LimitOf env s user limitType g

theorem getLimit_ok (h : getLimit env user limitType s = .ok l s') :
    LimitOf env s user limitType l.toLimitValues ∧ l.user = user ∧ l.limitType = limitType ∧
      ∀ x ∈ s'.userLimits.rows, x ∈ s.userLimits.rows ∨ x = l := by
  obtain ⟨_, s₁, hget, hmatch⟩ := bind_ok.mp h
  obtain ⟨rfl, rfl⟩ := get_ok.mp hget
  cases hfound : UserLimitRepository.getByUserAndLimitType user limitType s₁ with
  | some l₀ =>
      rw [hfound] at hmatch
      obtain ⟨rfl, rfl⟩ := pure_ok.mp hmatch
      have := List.find?_some hfound
      simp only [decide_eq_true_eq] at this
      exact ⟨.stored l (List.mem_of_find?_eq_some hfound) this.1 this.2, this.1, this.2,
        fun x hx => Or.inl hx⟩
  | none =>
      rw [hfound] at hmatch
      simp only [UserLimitRepository.create, UserLimitEventEmitter.createdUserLimit, bind_ok,
        orThrow_ok, get_ok, modify_ok, pure_ok] at hmatch
      obtain ⟨g, _, ⟨hg, rfl⟩, _, _, ⟨_, _, ⟨rfl, rfl⟩, _, _, ⟨hins, rfl⟩, rfl⟩, _, _, rfl, rfl,
        rfl⟩ := hmatch
      refine ⟨.global g hg, rfl, rfl, fun x hx => ?_⟩
      rw [Table.mem_insert? hins] at hx
      exact hx

/-- **What one limit type's update does to the stored limits.** -/
theorem updateUserLimit_ok (h : updateUserLimit env n user limitType s = .ok l' s') :
    ∃ v, LimitOf env s user limitType v ∧ Verified n v ∧ l'.toLimitValues = supplied n v ∧
      l'.user = user ∧ l'.limitType = limitType ∧
      ∀ x ∈ s'.userLimits.rows, x ∈ s.userLimits.rows ∨ x = l' := by
  simp only [updateUserLimit, UserLimitRepository.update, UserLimitEventEmitter.updatedUserLimit,
    bind_ok, modify_ok, pure_ok] at h
  obtain ⟨l, s₁, hget, _, _, happly, _, _, rfl, _, _, rfl, rfl, rfl⟩ := h
  obtain ⟨hof, huser, htype, hrows⟩ := getLimit_ok hget
  obtain ⟨rfl, verified, rfl⟩ := applyLimits_ok happly
  refine ⟨_, hof, verified, rfl, huser, htype, fun x hx => ?_⟩
  rcases Table.mem_set.mp hx with ⟨hx, hkey⟩ | ⟨rfl, -⟩
  · refine (hrows x hx).imp_right fun e => absurd ?_ hkey
    rw [e]
    rfl
  · exact Or.inr rfl

/-- What every limit type's update keeps, the execution keeps. -/
theorem execute_keeps {I : State → Prop} {t : Unit} (h : execute env n user limitTypes s = .ok t s')
    (hstep : ∀ limitType ∈ limitTypes, ∀ s l' s', I s →
      updateUserLimit env n user limitType s = .ok l' s' → I s') (hI : I s) : I s' := by
  rw [execute] at h
  induction limitTypes generalizing s with
  | nil =>
      obtain ⟨-, rfl⟩ := pure_ok.mp h
      exact hI
  | cons limitType limitTypes ih =>
      obtain ⟨_, s₁, hfirst, hrest⟩ := bind_ok.mp h
      obtain ⟨l', _, hupdate, hpure⟩ := bind_ok.mp hfirst
      obtain ⟨-, rfl⟩ := pure_ok.mp hpure
      exact ih hrest (fun lt hlt => hstep lt (List.mem_cons_of_mem _ hlt))
        (hstep limitType List.mem_cons_self s l' _ hI hupdate)

end UpdateUserLimitUseCase

namespace UpdateUserLimitByAdminUseCase

variable {new : NewUserLimit} {userLimit : Option Uuid}

/-- **What the update by compliance does to the stored limits.** -/
theorem execute_ok (h : execute new userLimit s = .ok l' s') :
    ∃ id l, userLimit = some id ∧ s.userLimits.get? id = some l ∧
      Verified new (withNewLimits new l).toLimitValues ∧ l' = moved new (withNewLimits new l) ∧
      s'.userLimits = s.userLimits.set l' := by
  simp only [execute, UserLimitRepository.update, UserLimitEventEmitter.updatedUserLimit,
    bind_ok, orThrow_ok, get_ok, modify_ok, pure_ok] at h
  obtain ⟨id, _, ⟨hid, rfl⟩, _, _, ⟨rfl, rfl⟩, l, _, ⟨hl, rfl⟩, _, _, happly, _, _, rfl, _, _, rfl,
    rfl, rfl⟩ := h
  obtain ⟨rfl, verified, rfl⟩ := applyLimits_ok happly
  exact ⟨id, l, hid, hl, verified, rfl, rfl⟩

end UpdateUserLimitByAdminUseCase

end

/-! ### Runs -/

section
variable {env : Env} {s : State} {c : Command} {cs : List Command}

/-- The execution supplies user defined limits that are in order with the others, and no compliance
limit that is not verified. -/
def InOrder (env : Env) (s : State) : Command → Prop
  | .update user limitTypes n =>
      (∀ l ∈ s.userLimits.rows, l.user = user → l.limitType ∈ limitTypes →
        UserOrder (UpdateUserLimitUseCase.supplied n l.toLimitValues)) ∧
      ∀ limitType ∈ limitTypes, ∀ g ∈ env.globalLimit limitType,
        UserOrder (UpdateUserLimitUseCase.supplied n g)
  | .updateByAdmin userLimit n =>
      ∀ l ∈ userLimit.bind s.userLimits.get?, UpdateUserLimitByAdminUseCase.KeepsOrder n l

/-- Every stored limit meets `P`, and so do the global ones. -/
def Every (P : LimitValues ℤ → Prop) (env : Env) (s : State) : Prop :=
  (∀ l ∈ s.userLimits.rows, P l.toLimitValues) ∧ ∀ limitType, ∀ g ∈ env.globalLimit limitType, P g

theorem Every.limitOf {P : LimitValues ℤ → Prop} {user : UserId} {limitType : LimitTypeId}
    {v : LimitValues ℤ} (h : Every P env s)
    (hv : UpdateUserLimitUseCase.LimitOf env s user limitType v) : P v := by
  cases hv with
  | stored l hl => exact h.1 l hl
  | global _ hg => exact h.2 limitType v hg

/-- Every step keeps the limits guarded. -/
theorem step_guarded (h : Every Guarded env s) : Every Guarded env (step env s c) := by
  cases c with
  | update user limitTypes n =>
      rcases committed_cases (UpdateUserLimitUseCase.execute env n user limitTypes) s with
        e | ⟨_, e⟩
      · rw [step, e]
        exact h
      · refine UpdateUserLimitUseCase.execute_keeps (I := Every Guarded env) e ?_ h
        intro limitType _ s l' s' hs hupdate
        obtain ⟨v, hof, verified, hl', -, -, hrows⟩ :=
          UpdateUserLimitUseCase.updateUserLimit_ok hupdate
        refine ⟨fun x hx => ?_, hs.2⟩
        rcases hrows x hx with hx | rfl
        · exact hs.1 x hx
        · rw [hl']
          exact verified.guarded (hs.limitOf hof)
  | updateByAdmin userLimit n =>
      rcases committed_cases (UpdateUserLimitByAdminUseCase.execute n userLimit) s with
        e | ⟨_, e⟩
      · rw [step, e]
        exact h
      · obtain ⟨id, l, -, hl, verified, rfl, hset⟩ := UpdateUserLimitByAdminUseCase.execute_ok e
        refine ⟨fun x hx => ?_, h.2⟩
        rw [step, hset] at hx
        rcases Table.mem_set.mp hx with ⟨hx, -⟩ | ⟨rfl, -⟩
        · exact h.1 x hx
        · exact verified.guarded (h.1 l (Table.mem_of_get? hl))

/-- Every step in order keeps the limits coherent. -/
theorem step_coherent (h : Every Coherent env s) (hc : InOrder env s c) :
    Every Coherent env (step env s c) := by
  cases c with
  | update user limitTypes n =>
      rcases committed_cases (UpdateUserLimitUseCase.execute env n user limitTypes) s with
        e | ⟨_, e⟩
      · rw [step, e]
        exact h
      · -- The order of what is supplied holds for the rest of the limit types, too.
        have keeps := UpdateUserLimitUseCase.execute_keeps
          (I := fun s => Every Coherent env s ∧ InOrder env s (.update user limitTypes n)) e ?_
          ⟨h, hc⟩
        · exact keeps.1
        intro limitType hmem s l' s' hs hupdate
        obtain ⟨⟨hs, hglobal⟩, horder, hglobalOrder⟩ := hs
        obtain ⟨v, hof, verified, hl', huser, htype, hrows⟩ :=
          UpdateUserLimitUseCase.updateUserLimit_ok hupdate
        have ordered : UserOrder (UpdateUserLimitUseCase.supplied n v) := by
          cases hof with
          | stored l hl hu ht => exact horder l hl hu (ht ▸ hmem)
          | global g hg => exact hglobalOrder limitType hmem v hg
        refine ⟨⟨fun x hx => ?_, hglobal⟩, fun x hx hu ht => ?_, hglobalOrder⟩
        · rcases hrows x hx with hx | rfl
          · exact hs x hx
          · rw [hl']
            exact verified.coherent (Every.limitOf ⟨hs, hglobal⟩ hof) ordered
        · rcases hrows x hx with hx | rfl
          · exact horder x hx hu ht
          · rw [hl']
            exact UpdateUserLimitUseCase.supplied_order.mpr ordered
  | updateByAdmin userLimit n =>
      rcases committed_cases (UpdateUserLimitByAdminUseCase.execute n userLimit) s with
        e | ⟨_, e⟩
      · rw [step, e]
        exact h
      · obtain ⟨id, l, rfl, hl, verified, rfl, hset⟩ :=
          UpdateUserLimitByAdminUseCase.execute_ok e
        refine ⟨fun x hx => ?_, h.2⟩
        rw [step, hset] at hx
        rcases Table.mem_set.mp hx with ⟨hx, -⟩ | ⟨rfl, -⟩
        · exact h.1 x hx
        · exact verified.coherent (h.1 l (Table.mem_of_get? hl)) (hc l hl)

end

namespace Sample

def env : Env := ⟨fun _ => none, "20:00;06:00"⟩

/-- Nothing is supplied. -/
def nothing : NewLimits := ⟨none, none, none, none, none, none, none, none, none, none⟩

/-- Nothing is supplied. -/
def nothingNew : NewUserLimit := ⟨none, none, none, none, none, none, none, none⟩

def limit : StoredLimit where
  nightlyLimit := some 1000
  dailyLimit := 5000
  monthlyLimit := 10000
  yearlyLimit := 20000
  maxAmount := some 500
  minAmount := some 10
  maxAmountNightly := some 500
  minAmountNightly := none
  userMaxAmount := some 400
  userMinAmount := some 60
  userMaxAmountNightly := none
  userMinAmountNightly := none
  userNightlyLimit := some 100
  userDailyLimit := some 2000
  userMonthlyLimit := none
  userYearlyLimit := none
  nighttimeStart := none
  nighttimeEnd := none
  id := 1
  user := 1
  limitType := 1
  creditBalance := 0

def start : State := ⟨⟨[limit], List.nodup_singleton _⟩, []⟩

theorem start_coherent : Every Coherent env start := by
  refine ⟨fun l hl => ?_, fun _ g hg => by cases hg⟩
  obtain rfl := List.mem_singleton.mp hl
  refine ⟨⟨?_, ?_, ?_, ?_, ?_, ?_, ?_, ?_, ?_, ?_, ?_, ?_⟩, ⟨?_, ?_, ?_, ?_, ?_, ?_⟩, ?_, ?_, ?_, ?_⟩
    <;> decide

end Sample

end Limits

end ZroServices
