import Mathlib.Data.Int.ConditionallyCompleteOrder
import Mathlib.Data.Int.SuccPred

/-!
# Foundation — dividing time into periods

Instants are integers.  A `Period` divides them into consecutive numbered intervals: hours, days,
calendar months, years.  Two instants are in one period when they have the same start
(`Period.Same`), and for a past instant that is the case exactly when it is not before the start
of the current one (`same_iff_le`), which is the test programs make.

`scale` turns a division of day numbers into a division of instants, and `group` joins a fixed
number of consecutive periods.  `months` is the Gregorian calendar, on day numbers counted from
1 January 1970: `monthStart` is the first day of a month in closed form, with months counted from
March of year 0 so that the leap day ends the year.
-/

namespace Foundation

/-- A division of the integers into consecutive numbered intervals. -/
structure Period where
  start : ℤ → ℤ
  index : ℤ → ℤ
  start_lt_succ : ∀ k, start k < start (k + 1)
  start_index_le : ∀ t, start (index t) ≤ t
  lt_start_succ : ∀ t, t < start (index t + 1)

namespace Period

variable (P : Period)

theorem start_strictMono : StrictMono P.start := strictMono_int_of_lt_succ P.start_lt_succ

theorem index_eq {t k : ℤ} (h₁ : P.start k ≤ t) (h₂ : t < P.start (k + 1)) : P.index t = k := by
  have a : k < P.index t + 1 := P.start_strictMono.lt_iff_lt.mp (h₁.trans_lt (P.lt_start_succ t))
  have b : P.index t < k + 1 := P.start_strictMono.lt_iff_lt.mp ((P.start_index_le t).trans_lt h₂)
  omega

theorem le_index_iff {t k : ℤ} : k ≤ P.index t ↔ P.start k ≤ t := by
  constructor
  · intro h
    exact (P.start_strictMono.monotone h).trans (P.start_index_le t)
  · intro h
    have : k < P.index t + 1 := P.start_strictMono.lt_iff_lt.mp (h.trans_lt (P.lt_start_succ t))
    omega

theorem index_mono {t u : ℤ} (h : t ≤ u) : P.index t ≤ P.index u :=
  P.le_index_iff.mpr ((P.start_index_le t).trans h)

/-- The first instant of the period of `t`. -/
def startOf (t : ℤ) : ℤ := P.start (P.index t)

/-- Two instants of one period. -/
def Same (t u : ℤ) : Prop := P.startOf t = P.startOf u

instance (t u : ℤ) : Decidable (P.Same t u) := inferInstanceAs (Decidable (_ = _))

theorem same_iff_index {t u : ℤ} : P.Same t u ↔ P.index t = P.index u :=
  P.start_strictMono.injective.eq_iff

@[simp] theorem same_refl (t : ℤ) : P.Same t t := rfl

theorem Same.symm {P : Period} {t u : ℤ} (h : P.Same t u) : P.Same u t := Eq.symm h

theorem Same.trans {P : Period} {t u v : ℤ} (h : P.Same t u) (h' : P.Same u v) : P.Same t v :=
  Eq.trans h h'

/-- A past instant is in the current period when it is not before the start of that period. -/
theorem same_iff_le {t u : ℤ} (h : t ≤ u) : P.Same t u ↔ P.startOf u ≤ t := by
  rw [same_iff_index, startOf, ← le_index_iff]
  have := P.index_mono h
  omega

/-- An instant between two instants of one period is in that period. -/
theorem Same.between {P : Period} {t u v : ℤ} (h : P.Same t v) (h₁ : t ≤ u) (h₂ : u ≤ v) :
    P.Same u v := by
  rw [same_iff_index] at h ⊢
  have a := P.index_mono h₁
  have b := P.index_mono h₂
  omega

/-! ### Building periods -/

/-- Every integer is a period of its own. -/
def unit : Period where
  start k := k
  index t := t
  start_lt_succ k := by omega
  start_index_le _ := le_refl _
  lt_start_succ t := by omega

/-- Instants of `len` ticks to a unit, the unit 0 starting at `origin`. -/
def scale (len origin : ℤ) (h : 0 < len) : Period where
  start k := P.start k * len + origin
  index t := P.index ((t - origin) / len)
  start_lt_succ k := by
    have := mul_lt_mul_of_pos_right (P.start_lt_succ k) h
    omega
  start_index_le t := by
    have a := mul_le_mul_of_nonneg_right (P.start_index_le ((t - origin) / len)) h.le
    have b := Int.ediv_mul_le (t - origin) h.ne'
    omega
  lt_start_succ t := by
    have a := mul_le_mul_of_nonneg_right (Int.add_one_le_iff.mpr
      (P.lt_start_succ ((t - origin) / len))) h.le
    have b := Int.lt_ediv_add_one_mul_self (t - origin) h
    omega

/-- `n` consecutive periods joined, the group 0 starting at period `origin`. -/
def group (n origin : ℤ) (h : 0 < n) : Period where
  start k := P.start (k * n + origin)
  index t := (P.index t - origin) / n
  start_lt_succ k := P.start_strictMono (by rw [add_mul, one_mul]; omega)
  start_index_le t := by
    rw [← P.le_index_iff]
    have := Int.ediv_mul_le (P.index t - origin) h.ne'
    omega
  lt_start_succ t := by
    have := Int.lt_ediv_add_one_mul_self (P.index t - origin) h
    exact (P.lt_start_succ t).trans_le (P.start_strictMono.monotone (by omega))

/-! ### The Gregorian calendar -/

/-- The number of days before month `k`, months counted from March of year 0 and days from
1 January 1970. -/
def monthStart (k : ℤ) : ℤ :=
  365 * (k / 12) + k / 12 / 4 - k / 12 / 100 + k / 12 / 400 + (153 * (k % 12) + 2) / 5 - 719468

theorem monthStart_lt_succ (k : ℤ) : monthStart k < monthStart (k + 1) := by
  unfold monthStart
  omega

/-- A month is `146097 / 4800` days long, up to four days over any number of months. -/
theorem monthStart_bounds (k : ℤ) :
    146097 * k - 4800 * 4 ≤ 4800 * (monthStart k + 719468) ∧
      4800 * (monthStart k + 719468) ≤ 146097 * k + 4800 * 4 := by
  unfold monthStart
  omega

/-- The mean month that day `d` lies in; the calendar month is this one or a neighbour. -/
def monthGuess (d : ℤ) : ℤ := 4800 * (d + 719468) / 146097

/-- The month of a day. -/
def monthIndex (d : ℤ) : ℤ :=
  let g := monthGuess d
  if monthStart (g + 1) ≤ d then g + 1 else if monthStart g ≤ d then g else g - 1

theorem monthStart_guess (d : ℤ) :
    monthStart (monthGuess d - 1) ≤ d ∧ d < monthStart (monthGuess d + 2) := by
  have a := (monthStart_bounds (monthGuess d - 1)).2
  have b := (monthStart_bounds (monthGuess d + 2)).1
  unfold monthGuess at *
  omega

/-- Calendar months, on day numbers. -/
def months : Period where
  start := monthStart
  index := monthIndex
  start_lt_succ := monthStart_lt_succ
  start_index_le d := by
    unfold monthIndex
    have := (monthStart_guess d).1
    dsimp only
    split
    · assumption
    · split <;> assumption
  lt_start_succ d := by
    unfold monthIndex
    have := (monthStart_guess d).2
    dsimp only
    split
    · rw [add_assoc]; exact this
    · split
      · omega
      · rw [sub_add_cancel]; omega

/-- Calendar years, on day numbers: twelve months from January, which is two months before
March. -/
def years : Period := months.group 12 (-2) (by decide)

-- 29 February 2024 is day 19782, in month 24287 counted from March of year 0 and in year 2024.
example : months.startOf 19782 = 19754 ∧ months.index 19783 = months.index 19782 + 1 ∧
    years.index 19782 = 2024 := by decide

end Period

end Foundation
