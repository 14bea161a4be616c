import Mathlib.Data.Nat.Digits.Defs
import Mathlib.Data.List.TakeDrop

/-!
# Foundation — numerals

A numeral is the list of its digits, the first one first, as a text has them.  `readBase` reads it.
A number is read back from its digits (`readBase_digits`), whatever zeros are put in front of them
(`readBase_leftpad`).
-/

namespace Foundation

/-- The number that a numeral stands for. -/
def readBase (b : ℕ) (digits : List ℕ) : ℕ := digits.foldl (fun n d => n * b + d) 0

variable {b : ℕ}

theorem readBase_append_singleton (digits : List ℕ) (d : ℕ) :
    readBase b (digits ++ [d]) = readBase b digits * b + d := by
  rw [readBase, List.foldl_append]
  rfl

theorem readBase_reverse (digits : List ℕ) : readBase b digits.reverse = Nat.ofDigits b digits := by
  induction digits with
  | nil => rfl
  | cons d digits ih =>
      rw [List.reverse_cons, readBase_append_singleton, ih, Nat.ofDigits_cons, Nat.mul_comm,
        Nat.add_comm]

theorem readBase_digits (b n : ℕ) : readBase b (Nat.digits b n).reverse = n := by
  rw [readBase_reverse, Nat.ofDigits_digits]

theorem readBase_replicate_zero (k : ℕ) (digits : List ℕ) :
    readBase b (List.replicate k 0 ++ digits) = readBase b digits := by
  induction k with
  | zero => rfl
  | succ k ih =>
      rw [List.replicate_succ, List.cons_append, ← ih, readBase, List.foldl_cons, Nat.zero_mul]
      rfl

theorem readBase_leftpad (k : ℕ) (digits : List ℕ) :
    readBase b (digits.leftpad k 0) = readBase b digits :=
  readBase_replicate_zero (k - digits.length) digits

end Foundation
