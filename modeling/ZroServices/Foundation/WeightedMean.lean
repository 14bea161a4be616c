import Mathlib.Algebra.Order.Field.Basic
import Mathlib.Tactic.Ring

/-!
# Foundation — a weighted mean that is rounded on the way

A mean over purchases: each adds an amount, at a price, to what is held.  `mean` is exact;
`rounded` rounds every time.  A purchase does not spread two means further apart
(`abs_weigh_sub_le`), so the distance grows by one rounding each time (`near_rounded`).
-/

namespace Foundation

variable {K : Type*} [Field K] [LinearOrder K] [IsStrictOrderedRing K]

/-- An amount bought at a price, and what was held before. -/
structure Purchase (K : Type*) where
  held : K
  amount : K
  price : K
  deriving DecidableEq

namespace Purchase

/-- The mean after a purchase. -/
def weigh (m : K) (x : Purchase K) : K := (m * x.held + x.amount * x.price) / (x.held + x.amount)

/-- The mean after one more purchase, rounded by `r`; the first price is not rounded. -/
def next (r : K → K) (m : Option K) (x : Purchase K) : Option K :=
  some (m.elim x.price fun m => r (x.weigh m))

/-- The mean of the purchases from `m` on, rounded by `r` at each. -/
def rounded (r : K → K) (m : Option K) (xs : List (Purchase K)) : Option K := xs.foldl (next r) m

/-- The mean of the purchases from `m` on. -/
def mean (m : Option K) (xs : List (Purchase K)) : Option K := rounded id m xs

omit [LinearOrder K] [IsStrictOrderedRing K] in
theorem weigh_sub (m m' : K) (x : Purchase K) :
    x.weigh m - x.weigh m' = (m - m') * (x.held / (x.held + x.amount)) := by
  rw [weigh, weigh, ← sub_div, mul_div_assoc']
  congr 1
  ring

/-- A purchase does not spread two means further apart. -/
theorem abs_weigh_sub_le {m m' : K} {x : Purchase K} (hheld : 0 ≤ x.held) (hamount : 0 ≤ x.amount) :
    |x.weigh m - x.weigh m'| ≤ |m - m'| := by
  have hshare : |x.held / (x.held + x.amount)| ≤ 1 := by
    rw [abs_of_nonneg (div_nonneg hheld (add_nonneg hheld hamount))]
    exact div_le_one_of_le₀ (le_add_of_nonneg_right hamount) (add_nonneg hheld hamount)
  rw [weigh_sub, abs_mul]
  exact mul_le_of_le_one_right (abs_nonneg _) hshare

/-- How far apart two means are, if there are both or none. -/
def Near (ε : K) (m m' : Option K) : Prop :=
  (m = none ∧ m' = none) ∨ ∃ a b, m = some a ∧ m' = some b ∧ |a - b| ≤ ε

variable {r : K → K} {δ : K}

/-- One purchase adds one rounding. -/
theorem near_next (hr : ∀ q, |r q - q| ≤ δ) {ε : K} (hε : 0 ≤ ε) {m m' : Option K}
    (h : Near ε m m') {x : Purchase K} (hheld : 0 ≤ x.held) (hamount : 0 ≤ x.amount) :
    Near (ε + δ) (next r m x) (next id m' x) := by
  refine Or.inr ⟨_, _, rfl, rfl, ?_⟩
  rcases h with ⟨rfl, rfl⟩ | ⟨a, b, rfl, rfl, hab⟩
  · have hδ : 0 ≤ δ := (abs_nonneg _).trans (hr 0)
    rw [Option.elim_none, Option.elim_none, sub_self, abs_zero]
    exact add_nonneg hε hδ
  · rw [Option.elim_some, Option.elim_some, id]
    calc |r (x.weigh a) - x.weigh b|
        ≤ |r (x.weigh a) - x.weigh a| + |x.weigh a - x.weigh b| := abs_sub_le _ _ _
      _ ≤ δ + ε := add_le_add (hr _) ((abs_weigh_sub_le hheld hamount).trans hab)
      _ = ε + δ := add_comm δ ε

/-- **The rounded mean is within one rounding a purchase of the mean.** -/
theorem near_rounded (hr : ∀ q, |r q - q| ≤ δ) {xs : List (Purchase K)} {ε : K} (hε : 0 ≤ ε)
    {m m' : Option K} (h : Near ε m m') (hxs : ∀ x ∈ xs, 0 ≤ x.held ∧ 0 ≤ x.amount) :
    Near (ε + xs.length * δ) (rounded r m xs) (mean m' xs) := by
  have hδ : 0 ≤ δ := (abs_nonneg _).trans (hr 0)
  induction xs generalizing ε m m' with
  | nil => simpa [rounded, mean] using h
  | cons x xs ih =>
      obtain ⟨hheld, hamount⟩ := hxs x List.mem_cons_self
      have hnext := near_next hr hε h hheld hamount
      have := ih (add_nonneg hε hδ) hnext fun y hy => hxs y (List.mem_cons_of_mem x hy)
      rw [List.length_cons, Nat.cast_add, Nat.cast_one, add_mul, one_mul, add_comm _ δ, ← add_assoc]
      exact this

theorem near_refl (m : Option K) : Near 0 m m := by
  cases m with
  | none => exact Or.inl ⟨rfl, rfl⟩
  | some a => exact Or.inr ⟨a, a, rfl, rfl, by simp⟩

end Purchase

end Foundation
