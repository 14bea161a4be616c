import Mathlib.Data.Nat.Bitwise

/-!
# Foundation — exclusive or of many numbers

`exclusiveOr` combines the numbers of a list bit by bit, in whatever order they are met
(`foldl_xor`).  It changes with every number of the list (`exclusiveOr_set_eq_iff`), and the upper
bits of it come from the upper bits alone (`exclusiveOr_shiftRight`).
-/

namespace Foundation

def exclusiveOr (l : List ℕ) : ℕ := l.foldr (fun c acc => c ^^^ acc) 0

theorem exclusiveOr_cons (c : ℕ) (l : List ℕ) : exclusiveOr (c :: l) = c ^^^ exclusiveOr l := rfl

/-- The same from the left. -/
theorem foldl_xor (l : List ℕ) (a : ℕ) :
    l.foldl (fun acc c => c ^^^ acc) a = exclusiveOr l ^^^ a := by
  induction l generalizing a with
  | nil => exact (Nat.zero_xor a).symm
  | cons c l ih =>
      rw [List.foldl_cons, ih, exclusiveOr_cons, ← Nat.xor_assoc, Nat.xor_comm c]

theorem exclusiveOr_shiftRight (l : List ℕ) (k : ℕ) :
    exclusiveOr l >>> k = exclusiveOr (l.map fun c => c >>> k) := by
  induction l with
  | nil => exact Nat.zero_shiftRight k
  | cons c l ih =>
      rw [exclusiveOr_cons, Nat.shiftRight_xor_distrib, ih]
      rfl

theorem exclusiveOr_lt {l : List ℕ} {k : ℕ} (h : ∀ c ∈ l, c < 2 ^ k) : exclusiveOr l < 2 ^ k := by
  induction l with
  | nil => exact Nat.two_pow_pos k
  | cons c l ih =>
      obtain ⟨hc, hl⟩ := List.forall_mem_cons.mp h
      exact Nat.xor_lt_two_pow hc (ih hl)

/-- Another number at some place shows. -/
theorem exclusiveOr_set_eq_iff {l : List ℕ} {i : ℕ} (c : ℕ) (h : i < l.length) :
    exclusiveOr (l.set i c) = exclusiveOr l ↔ c = l[i] := by
  induction l generalizing i with
  | nil => exact absurd h (Nat.not_lt_zero i)
  | cons a l ih =>
      cases i with
      | zero => exact Nat.xor_left_inj
      | succ i => exact Nat.xor_right_inj.trans (ih (Nat.lt_of_succ_lt_succ h))

end Foundation
