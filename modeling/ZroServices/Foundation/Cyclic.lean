import Mathlib.Tactic.LinearCombination

/-!
# Foundation — intervals on a circle

A circle of `d` instants is gone round once a turn: the time of day, a sequence number.
`Between a b x` is the interval from `a` up to `b`, which goes through 0 when `b < a` and is empty
when they are equal.

Programs often test an instant of the line against one copy of the interval: the one that starts
in a turn they name (`copyStart`, `copyStop`), or the copy before when the instant is earlier.  The
test is right for the instants of these two copies alone (`inCopy_iff`), and where the first instant
is left out, for these without it (`insideCopy_iff`).
-/

namespace Foundation

/-- From `a` up to `b`, round the circle. -/
def Between (a b x : ℤ) : Prop := if a ≤ b then a ≤ x ∧ x < b else a ≤ x ∨ x < b

instance (a b x : ℤ) : Decidable (Between a b x) := by
  unfold Between
  infer_instance

variable {d a b x turn t : ℤ}

/-- Counted from its start, an interval is the first instants of a turn. -/
theorem between_iff (ha : 0 ≤ a ∧ a < d) (hb : 0 ≤ b ∧ b < d) (hx : 0 ≤ x ∧ x < d) :
    Between a b x ↔ (x - a) % d < (b - a) % d := by
  have forward : ∀ y, 0 ≤ y → y < d → a ≤ y → (y - a) % d = y - a := fun y hy hyd hle =>
    Int.emod_eq_of_lt (by omega) (by omega)
  have around : ∀ y, 0 ≤ y → y < d → y < a → (y - a) % d = y - a + d := fun y hy hyd hlt => by
    rw [← Int.add_emod_right, Int.emod_eq_of_lt (by omega) (by omega)]
  rw [Between]
  by_cases hle : a ≤ b
  · rw [if_pos hle, forward b hb.1 hb.2 hle]
    by_cases hax : a ≤ x
    · rw [forward x hx.1 hx.2 hax]; omega
    · rw [around x hx.1 hx.2 (by omega)]; omega
  · rw [if_neg hle, around b hb.1 hb.2 (by omega)]
    by_cases hax : a ≤ x
    · rw [forward x hx.1 hx.2 hax]; omega
    · rw [around x hx.1 hx.2 (by omega)]; omega

/-- The first instant of the copy that starts in a turn. -/
def copyStart (d a turn : ℤ) : ℤ := turn * d + a

/-- The instant after the copy that starts in a turn. -/
def copyStop (d a b turn : ℤ) : ℤ :=
  if turn * d + b < turn * d + a then turn * d + b + d else turn * d + b

theorem copyStop_eq (turn : ℤ) (ha : 0 ≤ a ∧ a < d) (hb : 0 ≤ b ∧ b < d) :
    copyStop d a b turn = copyStart d a turn + (b - a) % d := by
  rw [copyStop, copyStart]
  by_cases h : b < a
  · rw [if_pos (by omega), ← Int.add_emod_right, Int.emod_eq_of_lt (by omega) (by omega)]
    omega
  · rw [if_neg (by omega), Int.emod_eq_of_lt (by omega) (by omega)]
    omega

/-- The first instant of the copy that `t` is tested against: the one of the turn, or the one
before. -/
def testedStart (d a turn t : ℤ) : ℤ :=
  copyStart d a turn - if t < copyStart d a turn then d else 0

/-- How far an instant is from the start of a copy. -/
theorem sub_copyStart (d a turn t : ℤ) :
    t - copyStart d a turn = ((t - a) / d - turn) * d + (t - a) % d := by
  have h := Int.emod_add_mul_ediv (t - a) d
  rw [copyStart]
  linear_combination -h

/-- An instant of one of the two copies is tested against its own. -/
theorem testedStart_eq (hd : 0 < d) (h : (t - a) / d = turn ∨ (t - a) / d = turn - 1) :
    testedStart d a turn t = t - (t - a) % d := by
  have hmod := Int.emod_nonneg (t - a) hd.ne'
  have hlt := Int.emod_lt_of_pos (t - a) hd
  have hdist := sub_copyStart d a turn t
  rw [testedStart]
  rcases h with h | h
  · rw [h, sub_self, zero_mul, zero_add] at hdist
    rw [if_neg (by omega)]
    omega
  · rw [h, show turn - 1 - turn = -1 by omega, neg_one_mul] at hdist
    rw [if_pos (by omega)]
    omega

/-- An instant within a turn of the start it is tested against is of one of the two copies. -/
theorem of_testedStart (hd : 0 < d) (h : testedStart d a turn t ≤ t)
    (h' : t < testedStart d a turn t + d) : (t - a) / d = turn ∨ (t - a) / d = turn - 1 := by
  have hmod := Int.emod_nonneg (t - a) hd.ne'
  have hlt := Int.emod_lt_of_pos (t - a) hd
  have hdist := sub_copyStart d a turn t
  generalize hk : (t - a) / d - turn = k at hdist
  rw [testedStart] at h h'
  -- The copy of the instant is `k` turns after the one of the turn.
  by_contra hne
  rcases lt_or_ge k 0 with hneg | hpos
  · have : k * d ≤ -2 * d := mul_le_mul_of_nonneg_right (by omega) hd.le
    split_ifs at h h' <;> omega
  · have : 1 * d ≤ k * d := mul_le_mul_of_nonneg_right (by omega) hd.le
    split_ifs at h h' <;> omega

/-- **The test of one copy.**  An instant is in the copy it is tested against if it is in the
interval and its own copy is the one of the turn or the one before. -/
theorem inCopy_iff (turn t : ℤ) (ha : 0 ≤ a ∧ a < d) (hb : 0 ≤ b ∧ b < d) :
    testedStart d a turn t ≤ t ∧ t < testedStart d a turn t + (b - a) % d ↔
      Between a b (t % d) ∧ ((t - a) / d = turn ∨ (t - a) / d = turn - 1) := by
  have hd : 0 < d := by omega
  have hlen := Int.emod_lt_of_pos (b - a) hd
  have hmod := Int.emod_nonneg (t - a) hd.ne'
  rw [between_iff ha hb ⟨Int.emod_nonneg t hd.ne', Int.emod_lt_of_pos t hd⟩, Int.emod_sub_emod]
  constructor
  · rintro ⟨h, h'⟩
    have own := of_testedStart hd h (by omega)
    rw [testedStart_eq hd own] at h'
    exact ⟨by omega, own⟩
  · rintro ⟨h, own⟩
    rw [testedStart_eq hd own]
    omega

/-- The same test without the first instant of the copy. -/
theorem insideCopy_iff (turn t : ℤ) (ha : 0 ≤ a ∧ a < d) (hb : 0 ≤ b ∧ b < d) :
    testedStart d a turn t < t ∧ t < testedStart d a turn t + (b - a) % d ↔
      (Between a b (t % d) ∧ t % d ≠ a) ∧ ((t - a) / d = turn ∨ (t - a) / d = turn - 1) := by
  have hd : 0 < d := by omega
  have hmod := Int.emod_nonneg (t - a) hd.ne'
  have first : t % d = a ↔ (t - a) % d = 0 := by
    rw [← Int.emod_eq_emod_iff_emod_sub_eq_zero, Int.emod_eq_of_lt ha.1 ha.2]
  have test := inCopy_iff turn t ha hb
  constructor
  · rintro ⟨h, h'⟩
    obtain ⟨between, own⟩ := test.mp ⟨h.le, h'⟩
    rw [testedStart_eq hd own] at h
    exact ⟨⟨between, fun e => by have := first.mp e; omega⟩, own⟩
  · rintro ⟨⟨between, hne⟩, own⟩
    refine ⟨?_, (test.mpr ⟨between, own⟩).2⟩
    have : (t - a) % d ≠ 0 := fun e => hne (first.mpr e)
    rw [testedStart_eq hd own]
    omega

end Foundation
