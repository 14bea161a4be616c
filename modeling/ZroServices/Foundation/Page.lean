import Mathlib.Data.List.Basic
import Mathlib.Data.List.Count
import Mathlib.Data.List.Pairwise

/-!
# Foundation — the first page of a sorted list

What is on the first page of a list that is sorted by a reflexive relation: an element that enough
others come before is not (`notMem_take`), and one that few others come before is (`mem_take`).
-/

namespace Foundation

variable {α : Type*} {r : α → α → Prop} {l : List α} {x y : α} {n : ℕ}

/-- The page comes before what is not on it. -/
theorem rel_of_mem_take_drop (hl : l.Pairwise r) (hx : x ∈ l.take n) (hy : y ∈ l.drop n) : r x y := by
  have happ : (l.take n ++ l.drop n).Pairwise r := by rwa [List.take_append_drop]
  exact (List.pairwise_append.mp happ).2.2 x hx y hy

theorem mem_drop_of_notMem_take (hx : x ∈ l) (hnot : x ∉ l.take n) : x ∈ l.drop n := by
  have happ : x ∈ l.take n ++ l.drop n := by rwa [List.take_append_drop]
  exact (List.mem_append.mp happ).resolve_left hnot

/-- What does not come after an element of the page is on it, too. -/
theorem mem_take_of_not_rel (hl : l.Pairwise r) (hx : x ∈ l.take n) (hy : y ∈ l) (hxy : ¬ r x y) :
    y ∈ l.take n := by
  by_contra hnot
  exact hxy (rel_of_mem_take_drop hl hx (mem_drop_of_notMem_take hy hnot))

/-- A page that does not hold everything is full. -/
theorem length_take_of_mem_drop (hx : x ∈ l.drop n) : (l.take n).length = n := by
  refine List.length_take_of_le (Nat.le_of_lt ?_)
  by_contra hle
  rw [List.drop_eq_nil_of_le (Nat.not_lt.mp hle)] at hx
  cases hx

/-- What has one property has one of two others. -/
theorem countP_le_add {p q q' : α → Bool} (h : ∀ x ∈ l, p x → q x ∨ q' x) :
    l.countP p ≤ l.countP q + l.countP q' := by
  induction l with
  | nil => exact Nat.zero_le _
  | cons x l ih =>
      have hrest := ih fun y hy => h y (List.mem_cons_of_mem x hy)
      have hx := h x List.mem_cons_self
      rw [List.countP_cons, List.countP_cons, List.countP_cons]
      cases hp : p x with
      | false => simp only [Bool.false_eq_true, if_false]; omega
      | true =>
          rcases hx hp with hq | hq
          · rw [hq]; simp only [if_true]; omega
          · rw [hq]; simp only [if_true]; omega

variable [DecidableRel r]

/-- A page's worth of elements comes before `x`. -/
theorem notMem_take (hl : l.Pairwise r) (hrefl : r x x)
    (hn : n ≤ l.countP fun y => decide (¬ r x y)) : x ∉ l.take n := by
  intro hx
  have hdrop : (l.drop n).countP (fun y => decide (¬ r x y)) = 0 :=
    List.countP_eq_zero.mpr fun y hy => by simpa using rel_of_mem_take_drop hl hx hy
  have htake : (l.take n).countP (fun y => decide (¬ r x y)) < (l.take n).length :=
    List.countP_lt_length_iff.mpr ⟨x, hx, by simpa using hrefl⟩
  have hsplit : l.countP (fun y => decide (¬ r x y)) =
      (l.take n).countP (fun y => decide (¬ r x y)) +
        (l.drop n).countP fun y => decide (¬ r x y) := by
    rw [← List.countP_append, List.take_append_drop]
  have hlength := List.length_take_le n l
  omega

/-- No more than a page comes before `x`, with `x` itself. -/
theorem mem_take (hl : l.Pairwise r) (hrefl : r x x) (hx : x ∈ l)
    (hn : (l.countP fun y => decide (r y x)) ≤ n) : x ∈ l.take n := by
  by_contra hnot
  have hx' := mem_drop_of_notMem_take hx hnot
  have htake : (l.take n).countP (fun y => decide (r y x)) = (l.take n).length :=
    List.countP_eq_length.mpr fun y hy => by simpa using rel_of_mem_take_drop hl hy hx'
  have hdrop : 0 < (l.drop n).countP fun y => decide (r y x) :=
    List.countP_pos_iff.mpr ⟨x, hx', by simpa using hrefl⟩
  have hsplit : l.countP (fun y => decide (r y x)) =
      (l.take n).countP (fun y => decide (r y x)) + (l.drop n).countP fun y => decide (r y x) := by
    rw [← List.countP_append, List.take_append_drop]
  have hlength := length_take_of_mem_drop hx'
  omega

end Foundation
