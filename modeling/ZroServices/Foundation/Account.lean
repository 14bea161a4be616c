import Mathlib.Algebra.Order.Group.Defs
import Mathlib.Tactic.Abel

/-!
# Foundation — counters of what is held

An account has a limit, a counter of what is taken from it, and what is held against it: the sum
of the claims that stand, which is kept elsewhere.  The account is balanced when the counter is
what is held, and within the limit.

Code that writes the counter and the claims separately moves the two by `x` and by `y`.  A family
of balanced accounts stays balanced exactly when they move together (`Accounts.balanced_move`),
as long as the counter stays within the limit.
-/

namespace Foundation

structure Account (M : Type*) where
  limit : M
  taken : M
  held : M

/-- Accounts by their keys. -/
def Accounts (κ M : Type*) := κ → Option (Account M)

namespace Account

variable {M : Type*} [AddCommGroup M] {a : Account M} {x y x' y' : M}

/-- The counter moves by `x`, what is held by `y`. -/
def move (a : Account M) (x y : M) : Account M :=
  { a with taken := a.taken + x, held := a.held + y }

theorem move_zero : a.move 0 0 = a := by simp [move]

theorem move_move : (a.move x y).move x' y' = a.move (x + x') (y + y') := by
  simp [move, add_assoc]

variable [LinearOrder M]

/-- The counter is what is held, and within the limit. -/
structure Balanced (a : Account M) : Prop where
  eq : a.taken = a.held
  le : a.taken ≤ a.limit

theorem balanced_move (ha : a.Balanced) (hx : a.taken + x ≤ a.limit) :
    (a.move x y).Balanced ↔ x = y := by
  constructor
  · intro h
    have e : a.taken + x = a.held + y := h.eq
    rw [ha.eq] at e
    exact add_left_cancel e
  · rintro rfl
    refine ⟨?_, hx⟩
    change a.taken + x = a.held + x
    rw [ha.eq]

end Account

namespace Accounts

variable {κ M : Type*} [DecidableEq κ] [AddCommGroup M] {b b' : Accounts κ M} {k : κ}
  {a : Account M} {x y x' y' : M}

/-- A movement of one account. -/
def move (b : Accounts κ M) (k : κ) (x y : M) : Accounts κ M := fun j =>
  if j = k then (b j).map fun a => a.move x y else b j

/-- An account is opened, with nothing taken and nothing held. -/
def opened (b : Accounts κ M) (k : κ) (limit : M) : Accounts κ M := fun j =>
  if j = k then some ⟨limit, 0, 0⟩ else b j

theorem move_of_ne {j : κ} (h : j ≠ k) : b.move k x y j = b j := if_neg h

theorem move_self (h : b k = some a) : b.move k x y k = some (a.move x y) := by
  rw [move, if_pos rfl, h]
  rfl

theorem isSome_move {j : κ} : (b.move k x y j).isSome = (b j).isSome := by
  rw [move]
  split
  · exact Option.isSome_map
  · rfl

theorem isSome_opened {limit : M} {j : κ} (h : (b j).isSome) : (b.opened k limit j).isSome := by
  rw [opened]
  split
  · rfl
  · exact h

theorem move_zero : b.move k 0 0 = b := by
  funext j
  rw [move]
  split
  · cases b j with
    | none => rfl
    | some a => exact congrArg some Account.move_zero
  · rfl

theorem move_move : (b.move k x y).move k x' y' = b.move k (x + x') (y + y') := by
  funext j
  by_cases h : j = k
  · simp only [move, if_pos h]
    cases b j with
    | none => rfl
    | some a => exact congrArg some Account.move_move
  · simp only [move, if_neg h]

variable [LinearOrder M]

/-- Every account is balanced. -/
def Balanced (b : Accounts κ M) : Prop := ∀ k a, b k = some a → a.Balanced

theorem balanced_move (hb : b.Balanced) (h : b k = some a) (hx : a.taken + x ≤ a.limit) :
    (b.move k x y).Balanced ↔ x = y := by
  rw [← Account.balanced_move (hb k a h) hx]
  constructor
  · exact fun hm => hm k _ (move_self h)
  · intro ha j a' hj
    by_cases e : j = k
    · subst e
      rw [move_self h] at hj
      cases hj
      exact ha
    · rw [move_of_ne e] at hj
      exact hb j a' hj

theorem balanced_opened (hb : b.Balanced) {limit : M} (hl : 0 ≤ limit) :
    (b.opened k limit).Balanced := by
  intro j a hj
  rw [opened] at hj
  split at hj
  · cases hj
    exact ⟨rfl, hl⟩
  · exact hb j a hj

/-- What one step does to the accounts.  It leaves balanced accounts balanced if and only if `ok`
holds (`Changes.balanced_iff`). -/
inductive Changes (b b' : Accounts κ M) (ok : Prop) : Prop
  | same (h : b' = b) (hok : ok)
  | opened (k : κ) (limit : M) (hl : 0 ≤ limit) (h : b' = b.opened k limit) (hok : ok)
  | moved (k : κ) (a : Account M) (x y : M) (hk : b k = some a) (hx : a.taken + x ≤ a.limit)
      (h : b' = b.move k x y) (hok : x = y ↔ ok)

theorem Changes.balanced_iff {ok : Prop} (h : Changes b b' ok) (hb : b.Balanced) :
    b'.Balanced ↔ ok := by
  cases h with
  | same h hok => exact iff_of_true (h ▸ hb) hok
  | opened k limit hl h hok => exact iff_of_true (h ▸ balanced_opened hb hl) hok
  | moved k a x y hk hx h hok => rw [h, balanced_move hb hk hx, hok]

end Accounts

end Foundation
