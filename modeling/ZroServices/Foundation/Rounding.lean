import Mathlib.Algebra.Order.BigOperators.Group.List
import Mathlib.Algebra.Order.Round
import Mathlib.Tactic.Ring

/-!
# Foundation — rounding the terms of a sum

A sum with integer coefficients, and its terms, are rounded to the nearest integer each on its own.
The rounded terms add up to the rounded sum exactly when what rounding adds to the terms adds up to
less than a half (`round_combine_iff`).

A number and a multiple of it, by three or more, are rounded to one integer only where that is zero
(`round_mul_eq_round_iff`).

Two parts of an integer that are rounded on their own add up to it unless they are half integers
(`round_parts_iff`).

The quotients of the terms of a sum add up to that of the sum exactly when the remainders add up to
less than the divisor (`sum_ediv_eq_iff`).
-/

namespace Foundation

/-- What the remainders of the terms of a sum add up to is divided once more. -/
theorem sum_ediv (terms : List ℤ) {n : ℤ} (hn : n ≠ 0) :
    terms.sum / n = (terms.map (· / n)).sum + (terms.map (· % n)).sum / n := by
  have hsplit : terms.sum = n * (terms.map (· / n)).sum + (terms.map (· % n)).sum := by
    induction terms with
    | nil => simp only [List.sum_nil, List.map_nil, mul_zero, add_zero]
    | cons a terms ih =>
        simp only [List.sum_cons, List.map_cons]
        have ha : n * (a / n) + a % n = a := Int.mul_ediv_add_emod a n
        linarith
  rw [hsplit, Int.mul_add_ediv_left _ _ hn]

theorem sum_ediv_eq_iff (terms : List ℤ) {n : ℤ} (hn : 0 < n) :
    (terms.map (· / n)).sum = terms.sum / n ↔ (terms.map (· % n)).sum < n := by
  have hnonneg : 0 ≤ (terms.map (· % n)).sum := by
    refine List.sum_nonneg fun r hr => ?_
    obtain ⟨a, -, rfl⟩ := List.mem_map.mp hr
    exact Int.emod_nonneg a hn.ne'
  rw [sum_ediv terms hn.ne', left_eq_add]
  constructor
  · intro h
    by_contra hle
    have hone : n / n ≤ (terms.map (· % n)).sum / n := Int.ediv_le_ediv hn (not_lt.mp hle)
    rw [Int.ediv_self hn.ne'] at hone
    omega
  · intro h
    exact Int.ediv_eq_zero_of_lt hnonneg h

universe u

variable {K : Type u} [Field K] [LinearOrder K] [FloorRing K]

/-- What rounding takes from a number. -/
def roundingError (x : K) : K := x - round x

/-- A sum of terms with coefficients. -/
def combine (terms : List (ℤ × K)) : K := (terms.map fun t => (t.1 : K) * t.2).sum

/-- The sum of the rounded terms. -/
def combineRounded (terms : List (ℤ × K)) : ℤ := (terms.map fun t => t.1 * round t.2).sum

/-- The sum of the rounding errors of the terms. -/
def combineErrors (terms : List (ℤ × K)) : K :=
  (terms.map fun t => (t.1 : K) * roundingError t.2).sum

theorem combine_eq (terms : List (ℤ × K)) :
    combine terms = combineRounded terms + combineErrors terms := by
  induction terms with
  | nil => simp [combine, combineRounded, combineErrors]
  | cons t terms ih =>
      simp only [combine, combineRounded, combineErrors, roundingError, List.map_cons,
        List.sum_cons] at ih ⊢
      rw [ih]
      push_cast
      ring

variable [IsStrictOrderedRing K]

/-- The rounded terms add up to the rounded sum when their errors are small together. -/
theorem round_combine_iff (terms : List (ℤ × K)) :
    round (combine terms) = combineRounded terms ↔
      -(1 / 2) ≤ combineErrors terms ∧ combineErrors terms < 1 / 2 := by
  rw [round_eq_iff, Set.mem_Ico, combine_eq]
  constructor
  · rintro ⟨h, h'⟩
    exact ⟨by linarith, by linarith⟩
  · rintro ⟨h, h'⟩
    exact ⟨by linarith, by linarith⟩

/-- A number that is not rounded to zero is less than a half away from a third of its multiple. -/
theorem round_mul_eq_round_iff {x c : K} (hc : 3 ≤ c) :
    round (x * c) = round x ↔ round (x * c) = 0 := by
  obtain ⟨hlow, hhigh⟩ := Set.mem_Ico.mp (round_eq_iff.mp (rfl : round x = round x))
  constructor
  · intro h
    rw [h]
    obtain ⟨hlow', hhigh'⟩ := Set.mem_Ico.mp (round_eq_iff.mp h)
    rcases lt_trichotomy (round x) 0 with hneg | hzero | hpos
    · have hround : (round x : K) ≤ -1 := by exact_mod_cast Int.le_sub_one_of_lt hneg
      nlinarith
    · exact hzero
    · have hround : (1 : K) ≤ round x := by exact_mod_cast hpos
      nlinarith
  · intro h
    rw [h]
    obtain ⟨hlow', hhigh'⟩ := Set.mem_Ico.mp (round_eq_zero_iff.mp h)
    refine (round_eq_zero_iff.mpr (Set.mem_Ico.mpr ⟨?_, ?_⟩)).symm
    · nlinarith
    · nlinarith

/-- Half integers are rounded up, so a number and its negative are rounded apart there alone. -/
theorem round_neg_add_round_iff (x : K) : round (-x) + round x = 0 ↔ Int.fract x ≠ 1 / 2 := by
  have hnonneg := Int.fract_nonneg x
  have hlt := Int.fract_lt_one x
  have hx : x = ⌊x⌋ + Int.fract x := (Int.floor_add_fract x).symm
  generalize Int.fract x = f at hnonneg hlt hx ⊢
  generalize ⌊x⌋ = m at hx
  subst hx
  rcases lt_trichotomy f (1 / 2) with hf | rfl | hf
  · have up : round ((m : K) + f) = m := by
      rw [round_eq_iff, Set.mem_Ico]
      exact ⟨by linarith, by linarith⟩
    have down : round (-((m : K) + f)) = -m := by
      rw [round_eq_iff, Set.mem_Ico]
      push_cast
      exact ⟨by linarith, by linarith⟩
    rw [up, down]
    exact iff_of_true (neg_add_cancel m) hf.ne
  · have up : round ((m : K) + 1 / 2) = m + 1 := by
      rw [round_eq_iff, Set.mem_Ico]
      push_cast
      exact ⟨by linarith, by linarith⟩
    have down : round (-((m : K) + 1 / 2)) = -m := by
      rw [round_eq_iff, Set.mem_Ico]
      push_cast
      exact ⟨by linarith, by linarith⟩
    rw [up, down]
    exact iff_of_false (by omega) fun h => h rfl
  · have up : round ((m : K) + f) = m + 1 := by
      rw [round_eq_iff, Set.mem_Ico]
      push_cast
      exact ⟨by linarith, by linarith⟩
    have down : round (-((m : K) + f)) = -m - 1 := by
      rw [round_eq_iff, Set.mem_Ico]
      push_cast
      exact ⟨by linarith, by linarith⟩
    rw [up, down]
    exact iff_of_true (by omega) hf.ne'

/-- The rounded parts of an integer add up to it unless they are half integers. -/
theorem round_parts_iff (n : ℤ) (x : K) :
    round ((n : K) - x) + round x = n ↔ Int.fract x ≠ 1 / 2 := by
  rw [← round_neg_add_round_iff, sub_eq_add_neg, round_intCast_add]
  constructor <;> intro h <;> omega

theorem round_nonneg_iff {x : K} : 0 ≤ round x ↔ -(1 / 2) ≤ x := by
  rw [round_eq, Int.le_floor, Int.cast_zero]
  constructor <;> intro h <;> linarith

end Foundation
