import ZroServices.Foundation.Counter

/-!
# Foundation — counters of a window that recurs

A `Window` is the first part of every period of a division of time: a night, a shift, the hours of
a shop.  Two instants are in one window (`Window.Same`) when both are inside and in one period.

A counter of the window holds an amount, and no instant: whether the amount is of the current
window is not known to it.  `Tracks` is what can be kept: from now on, the counter is the usage of
the window of any charge that stands in it.  Nothing is said of a window in which nothing stands,
so the counter may be stale then, and a charge has to find it emptied (`Tracks.charge`); a release
has to be of the current window (`Tracks.release`), or of one in which nothing stands any more
(`Tracks.drop_last`).
-/

namespace Foundation

/-- The first `length` instants of every period. -/
structure Window where
  period : Period
  length : ℤ

namespace Window

variable (W : Window)

/-- The instant lies in the window of its period. -/
def Inside (t : ℤ) : Prop := t < W.period.startOf t + W.length

instance (t : ℤ) : Decidable (W.Inside t) := inferInstanceAs (Decidable (_ < _))

/-- Two instants of one window. -/
def Same (t u : ℤ) : Prop := W.Inside t ∧ W.Inside u ∧ W.period.Same t u

instance (t u : ℤ) : Decidable (W.Same t u) := inferInstanceAs (Decidable (_ ∧ _ ∧ _))

variable {W}

theorem same_self {t : ℤ} (h : W.Inside t) : W.Same t t := ⟨h, h, rfl⟩

theorem Same.symm {t u : ℤ} (h : W.Same t u) : W.Same u t := ⟨h.2.1, h.1, h.2.2.symm⟩

theorem Same.trans {t u v : ℤ} (h : W.Same t u) (h' : W.Same u v) : W.Same t v :=
  ⟨h.1, h'.2.1, h.2.2.trans h'.2.2⟩

/-- An instant between two instants of one window is in that window. -/
theorem Same.between {t u v : ℤ} (h : W.Same t v) (h₁ : t ≤ u) (h₂ : u ≤ v) : W.Same t u := by
  obtain ⟨ht, hv, hsame⟩ := h
  have hu := hsame.between h₁ h₂
  refine ⟨ht, ?_, hsame.trans hu.symm⟩
  have e : W.period.startOf u = W.period.startOf v := hu
  rw [Inside] at hv ⊢
  omega

end Window

variable {M : Type*} [AddCommGroup M] [LinearOrder M]

/-- The sum of the charges made in the window of `t`. -/
def windowUsage (W : Window) (H : List (Charge M)) (t : ℤ) : M :=
  (H.map fun x => if W.Same x.time t then x.amount else 0).sum

variable {W : Window} {H pre post : List (Charge M)} {x : Charge M} {used v : M}
  {t now clock : ℤ}

omit [LinearOrder M] in
theorem windowUsage_append_singleton :
    windowUsage W (H ++ [x]) t = windowUsage W H t + if W.Same x.time t then x.amount else 0 := by
  simp [windowUsage]

omit [LinearOrder M] in
theorem windowUsage_middle :
    windowUsage W (pre ++ x :: post) t
      = windowUsage W (pre ++ post) t + if W.Same x.time t then x.amount else 0 := by
  simp only [windowUsage, List.map_append, List.map_cons, List.sum_append, List.sum_cons]
  abel

omit [LinearOrder M] in
theorem windowUsage_congr {u : ℤ} (h : W.Same t u) : windowUsage W H t = windowUsage W H u := by
  refine congrArg List.sum (List.map_congr_left fun x _ => ?_)
  have : W.Same x.time t ↔ W.Same x.time u := ⟨fun e => e.trans h, fun e => e.trans h.symm⟩
  simp only [this]

omit [LinearOrder M] in
theorem windowUsage_eq_zero (h : ∀ x ∈ H, ¬ W.Same x.time t) : windowUsage W H t = 0 := by
  refine List.sum_eq_zero fun a ha => ?_
  obtain ⟨x, hx, rfl⟩ := List.mem_map.mp ha
  exact if_neg (h x hx)

/-- From `clock` on, the counter is the usage of the window of any charge that stands in it. -/
structure Tracks (W : Window) (used : M) (H : List (Charge M)) (clock : ℤ) : Prop where
  used_nonneg : 0 ≤ used
  amount_nonneg : ∀ x ∈ H, 0 ≤ x.amount
  past : ∀ x ∈ H, x.time ≤ clock
  usage_eq : ∀ t, clock ≤ t → (∃ x ∈ H, W.Same x.time t) → used = windowUsage W H t

theorem tracks_new (clock : ℤ) : Tracks W (0 : M) [] clock where
  used_nonneg := le_refl _
  amount_nonneg _ h := by cases h
  past _ h := by cases h
  usage_eq _ _ h := by
    obtain ⟨x, hx, -⟩ := h
    cases hx

theorem Tracks.later (h : Tracks W used H clock) (hnow : clock ≤ now) : Tracks W used H now where
  used_nonneg := h.used_nonneg
  amount_nonneg := h.amount_nonneg
  past x hx := (h.past x hx).trans hnow
  usage_eq t ht := h.usage_eq t (hnow.trans ht)

/-- A charge outside the window, whatever the counter is. -/
theorem Tracks.charge_outside {used' : M} (h : Tracks W used H clock) (hnow : clock ≤ now)
    (hv : 0 ≤ v) (hused : 0 ≤ used') (hout : ¬ W.Inside now) :
    Tracks W used' (H ++ [⟨now, v⟩]) now where
  used_nonneg := hused
  amount_nonneg _ hy := (mem_charge h.past hnow h.amount_nonneg hv hy).1
  past _ hy := (mem_charge h.past hnow h.amount_nonneg hv hy).2
  usage_eq t ht hstands := by
    obtain ⟨y, hy, hsame⟩ := hstands
    have := (mem_charge h.past hnow h.amount_nonneg hv hy).2
    exact absurd (hsame.between this ht).2.1 hout

/-- A charge of another window, or of nothing, is given back, and the counter is left as it is. -/
theorem Tracks.drop (h : Tracks W used (pre ++ x :: post) clock) (hnow : clock ≤ now)
    (hother : ¬ W.Same x.time now ∨ x.amount = 0) : Tracks W used (pre ++ post) now where
  used_nonneg := h.used_nonneg
  amount_nonneg y hy := h.amount_nonneg y (mem_middle hy)
  past y hy := (h.past y (mem_middle hy)).trans hnow
  usage_eq t ht hstands := by
    obtain ⟨y, hy, hy'⟩ := hstands
    have hpast := (h.past y (mem_middle hy)).trans hnow
    have current : W.Same now t := (hy'.between hpast ht).symm.trans hy'
    rw [h.usage_eq t (hnow.trans ht) ⟨y, mem_middle hy, hy'⟩, windowUsage_middle]
    rcases hother with hother | hzero
    · rw [if_neg fun e => hother (e.trans current.symm), add_zero]
    · rw [hzero, ite_self, add_zero]

/-- Nothing of the current window stands any more, whatever the counter is. -/
theorem Tracks.drop_last {used' : M} (h : Tracks W used (pre ++ x :: post) clock)
    (hnow : clock ≤ now) (hused : 0 ≤ used') (hlast : ∀ y ∈ pre ++ post, ¬ W.Same y.time now) :
    Tracks W used' (pre ++ post) now where
  used_nonneg := hused
  amount_nonneg y hy := h.amount_nonneg y (mem_middle hy)
  past y hy := (h.past y (mem_middle hy)).trans hnow
  usage_eq t ht hstands := by
    obtain ⟨y, hy, hy'⟩ := hstands
    have hpast := (h.past y (mem_middle hy)).trans hnow
    exact absurd (hy'.between hpast ht) (hlast y hy)

variable [IsOrderedAddMonoid M]

theorem windowUsage_nonneg (h : ∀ x ∈ H, 0 ≤ x.amount) (t : ℤ) : 0 ≤ windowUsage W H t :=
  sum_amount_nonneg h

/-- A charge: the counter was empty, or something of the current window stands. -/
theorem Tracks.charge (h : Tracks W used H clock) (hnow : clock ≤ now) (hv : 0 ≤ v)
    (hfresh : used = 0 ∨ ∃ x ∈ H, W.Same x.time now) :
    Tracks W (used + v) (H ++ [⟨now, v⟩]) now where
  used_nonneg := add_nonneg h.used_nonneg hv
  amount_nonneg _ hy := (mem_charge h.past hnow h.amount_nonneg hv hy).1
  past _ hy := (mem_charge h.past hnow h.amount_nonneg hv hy).2
  usage_eq t ht hstands := by
    obtain ⟨y, hy, hsame⟩ := hstands
    have hpast := (mem_charge h.past hnow h.amount_nonneg hv hy).2
    -- What stands at a later instant of a window stands in the current one.
    have current : W.Same now t := (hsame.between hpast ht).symm.trans hsame
    rw [windowUsage_append_singleton, if_pos current, ← windowUsage_congr current]
    by_cases hex : ∃ x ∈ H, W.Same x.time now
    · rw [h.usage_eq now hnow hex]
    · rw [hfresh.resolve_right hex, windowUsage_eq_zero fun x hx e => hex ⟨x, hx, e⟩]

/-- A charge of the current window is given back. -/
theorem Tracks.release (h : Tracks W used (pre ++ x :: post) clock) (hnow : clock ≤ now)
    (hsame : W.Same x.time now) :
    Tracks W (max (used - x.amount) 0) (pre ++ post) now where
  used_nonneg := le_max_right _ _
  amount_nonneg y hy := h.amount_nonneg y (mem_middle hy)
  past y hy := (h.past y (mem_middle hy)).trans hnow
  usage_eq t ht hstands := by
    obtain ⟨y, hy, hy'⟩ := hstands
    have hpast := (h.past y (mem_middle hy)).trans hnow
    have current : W.Same x.time t := hsame.trans ((hy'.between hpast ht).symm.trans hy')
    rw [h.usage_eq t (hnow.trans ht) ⟨y, mem_middle hy, hy'⟩, windowUsage_middle, if_pos current,
      add_sub_cancel_right]
    exact max_eq_left (windowUsage_nonneg (fun z hz => h.amount_nonneg z (mem_middle hz)) t)

end Foundation
