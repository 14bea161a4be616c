import Mathlib.Algebra.Order.BigOperators.Group.List
import Mathlib.Tactic.Abel
import ZroServices.Foundation.Period

/-!
# Foundation — usage counters of the current period

A usage counter holds the amount charged in the current period of a `Period` and the instant of
its last write.  Nothing runs at the end of a period: the counter is brought up to date when it
is next read for a charge (`restart`), by comparing the period of its last write with the current
one, and a charge that is given back is subtracted only if it was made in the current period
(`release`), never below zero.

The counter is compared with the charges that stand (`Charge`, a list in the order they were
made).  `Covers`: it is at least the sum of the standing charges of the period of its last write;
every operation keeps that (`Covers.charge`, `Covers.release`).  `Within`: it is at most that sum;
a charge keeps it, and a release keeps it when the counter was written in the current period or
was zero (`Within.release`): a release in a later period moves the instant of the last write and
leaves the old amount standing as if it were of the new period.
-/

namespace Foundation

/-- An amount charged at an instant. -/
structure Charge (M : Type*) where
  time : ℤ
  amount : M
  deriving DecidableEq

/-- A usage counter: the amount used, and the instant of the last write. -/
structure Counter (M : Type*) where
  used : M
  time : ℤ

variable {M : Type*} [AddCommGroup M] [LinearOrder M]

/-- The sum of the charges made in the period of `t`. -/
def usage (P : Period) (H : List (Charge M)) (t : ℤ) : M :=
  (H.map fun x => if P.Same x.time t then x.amount else 0).sum

namespace Counter

variable (P : Period)

/-- The amount used in the period of `now`, as the counter knows it. -/
def restart (c : Counter M) (now : ℤ) : M :=
  if 0 < c.used ∧ ¬ P.Same now c.time then 0 else c.used

/-- Charge an amount. -/
def charge (c : Counter M) (now : ℤ) (v : M) : Counter M := ⟨c.restart P now + v, now⟩

/-- Give back a charge, if it was made in the period of `now`. -/
def release (c : Counter M) (now : ℤ) (x : Charge M) : Counter M :=
  ⟨if 0 < c.used ∧ P.startOf now ≤ x.time then max (c.used - x.amount) 0 else c.used, now⟩

end Counter

variable {P : Period} {H pre post : List (Charge M)} {c : Counter M} {x : Charge M} {t now : ℤ}

omit [LinearOrder M] in
theorem usage_append (H H' : List (Charge M)) :
    usage P (H ++ H') t = usage P H t + usage P H' t := by
  simp [usage]

omit [LinearOrder M] in
theorem usage_singleton : usage P [x] t = if P.Same x.time t then x.amount else 0 := by
  simp [usage]

omit [LinearOrder M] in
theorem usage_middle :
    usage P (pre ++ x :: post) t
      = usage P (pre ++ post) t + if P.Same x.time t then x.amount else 0 := by
  simp only [usage, List.map_append, List.map_cons, List.sum_append, List.sum_cons]
  abel

omit [LinearOrder M] in
theorem usage_congr {u : ℤ} (h : P.Same t u) : usage P H t = usage P H u := by
  refine congrArg List.sum (List.map_congr_left fun x _ => ?_)
  have : P.Same x.time t ↔ P.Same x.time u :=
    ⟨fun e => e.trans h, fun e => e.trans h.symm⟩
  simp only [this]

omit [LinearOrder M] in
/-- Charges made before a period add nothing to it. -/
theorem usage_eq_zero (hpast : ∀ x ∈ H, x.time ≤ t) (ht : t ≤ now) (h : ¬ P.Same now t) :
    usage P H now = 0 := by
  refine List.sum_eq_zero fun a ha => ?_
  obtain ⟨x, hx, rfl⟩ := List.mem_map.mp ha
  refine if_neg fun e => h ?_
  exact (e.between (hpast x hx) ht).symm

omit [AddCommGroup M] [LinearOrder M] in
theorem mem_middle {y : Charge M} (h : y ∈ pre ++ post) : y ∈ pre ++ x :: post := by
  rcases List.mem_append.mp h with h | h
  · exact List.mem_append_left _ h
  · exact List.mem_append_right _ (List.mem_cons_of_mem _ h)

/-- What stands, when a charge is made. -/
theorem mem_charge {clock : ℤ} {v : M} {y : Charge M} (hpast : ∀ x ∈ H, x.time ≤ clock)
    (hnow : clock ≤ now)
    (hamount : ∀ x ∈ H, 0 ≤ x.amount) (hv : 0 ≤ v) (hy : y ∈ H ++ [⟨now, v⟩]) :
    0 ≤ y.amount ∧ y.time ≤ now := by
  rcases List.mem_append.mp hy with hy | hy
  · exact ⟨hamount y hy, (hpast y hy).trans hnow⟩
  · rw [List.mem_singleton.mp hy]
    exact ⟨hv, le_refl _⟩

variable [IsOrderedAddMonoid M]

theorem sum_amount_nonneg {p : Charge M → Prop} [DecidablePred p] (h : ∀ x ∈ H, 0 ≤ x.amount) :
    0 ≤ (H.map fun x => if p x then x.amount else 0).sum := by
  refine List.sum_nonneg fun a ha => ?_
  obtain ⟨x, hx, rfl⟩ := List.mem_map.mp ha
  by_cases e : p x
  · rw [if_pos e]; exact h x hx
  · rw [if_neg e]

theorem usage_nonneg (h : ∀ x ∈ H, 0 ≤ x.amount) (t : ℤ) : 0 ≤ usage P H t :=
  sum_amount_nonneg h

/-- Charges of `l` that meet `q` use no less than those that meet `p`, when `p` implies `q` for the
charges of the period. -/
theorem usage_filter_le {α : Type*} {l : List α} {f : α → Charge M} {p q : α → Prop}
    [DecidablePred p] [DecidablePred q] (hnonneg : ∀ x ∈ l, 0 ≤ (f x).amount)
    (h : ∀ x ∈ l, P.Same (f x).time t → p x → q x) :
    usage P ((l.filter fun x => decide (p x)).map f) t
      ≤ usage P ((l.filter fun x => decide (q x)).map f) t := by
  induction l with
  | nil => exact le_refl _
  | cons x l ih =>
      have rest := ih (fun y hy => hnonneg y (List.mem_cons_of_mem _ hy))
        fun y hy => h y (List.mem_cons_of_mem _ hy)
      -- The charge itself, on either side.
      have first : usage P (([x].filter fun x => decide (p x)).map f) t
          ≤ usage P (([x].filter fun x => decide (q x)).map f) t := by
        have hx := hnonneg x List.mem_cons_self
        have hpq := h x List.mem_cons_self
        simp only [List.filter_singleton, usage]
        by_cases e : P.Same (f x).time t
        · by_cases hp : p x
          · simp [e, hp, hpq e hp]
          · by_cases hq : q x <;> simp [e, hp, hq, hx]
        · by_cases hp : p x <;> by_cases hq : q x <;> simp [e, hp, hq]
      rw [← List.singleton_append, List.filter_append, List.filter_append, List.map_append,
        List.map_append, usage_append, usage_append]
      exact add_le_add first rest

namespace Counter

/-- A relation of counters to the charges that stand on them: new counters are in it, and
charging keeps it. -/
structure Chargeable (K : Period → Counter M → List (Charge M) → Prop) : Prop where
  new : ∀ P now, K P ⟨0, now⟩ []
  charge : ∀ {P c H now v}, K P c H → c.time ≤ now → 0 ≤ v →
    K P (c.charge P now v) (H ++ [⟨now, v⟩])

/-- The counter has all the standing charges of the period of its last write. -/
structure Covers (P : Period) (c : Counter M) (H : List (Charge M)) : Prop where
  used_nonneg : 0 ≤ c.used
  amount_nonneg : ∀ x ∈ H, 0 ≤ x.amount
  past : ∀ x ∈ H, x.time ≤ c.time
  usage_le : usage P H c.time ≤ c.used

omit [IsOrderedAddMonoid M] in
theorem covers_new (now : ℤ) : Covers P (⟨0, now⟩ : Counter M) [] where
  used_nonneg := le_refl _
  amount_nonneg _ h := by cases h
  past _ h := by cases h
  usage_le := le_refl _

omit [IsOrderedAddMonoid M] in
theorem restart_nonneg (h : 0 ≤ c.used) (now : ℤ) : 0 ≤ c.restart P now := by
  rw [restart]
  split
  · exact le_refl _
  · exact h

omit [IsOrderedAddMonoid M] in
/-- A counter brought up to date has all the standing charges of the current period. -/
theorem Covers.restart (h : Covers P c H) (ht : c.time ≤ now) :
    usage P H now ≤ c.restart P now := by
  by_cases e : P.Same now c.time
  · rw [Counter.restart, if_neg (fun q => q.2 e), usage_congr e]
    exact h.usage_le
  · rw [usage_eq_zero h.past ht e]
    exact restart_nonneg h.used_nonneg now

theorem Covers.charge (h : Covers P c H) (ht : c.time ≤ now) {v : M} (hv : 0 ≤ v) :
    Covers P (c.charge P now v) (H ++ [⟨now, v⟩]) where
  used_nonneg := add_nonneg (restart_nonneg h.used_nonneg now) hv
  amount_nonneg _ hy := (mem_charge h.past ht h.amount_nonneg hv hy).1
  past _ hy := (mem_charge h.past ht h.amount_nonneg hv hy).2
  usage_le := by
    change usage P (H ++ [⟨now, v⟩]) now ≤ c.restart P now + v
    rw [usage_append, usage_singleton, if_pos (P.same_refl now)]
    exact add_le_add (h.restart ht) (le_refl v)

theorem covers_chargeable : Chargeable (Covers (M := M)) where
  new _ now := covers_new now
  charge h ht hv := h.charge ht hv

/-- A standing charge is given back; the counter still has the others. -/
theorem Covers.release (h : Covers P c (pre ++ x :: post)) (ht : c.time ≤ now) :
    Covers P (c.release P now x) (pre ++ post) where
  used_nonneg := by
    rw [Counter.release]
    dsimp only
    split
    · exact le_max_right _ _
    · exact h.used_nonneg
  amount_nonneg y hy := h.amount_nonneg y (mem_middle hy)
  past y hy := (h.past y (mem_middle hy)).trans ht
  usage_le := by
    have hx : x ∈ pre ++ x :: post := List.mem_append_right _ List.mem_cons_self
    have hxt : x.time ≤ now := (h.past x hx).trans ht
    -- What stands now, from what stood at the last write.
    have stood : usage P (pre ++ post) now + (if P.Same x.time now then x.amount else 0)
        ≤ c.used := by
      rw [← usage_middle]
      by_cases e : P.Same now c.time
      · rw [usage_congr e]; exact h.usage_le
      · rw [usage_eq_zero h.past ht e]; exact h.used_nonneg
    change usage P (pre ++ post) now ≤ _
    rw [Counter.release]
    by_cases e : P.startOf now ≤ x.time
    · rw [if_pos ((P.same_iff_le hxt).mpr e)] at stood
      by_cases hu : 0 < c.used
      · rw [if_pos ⟨hu, e⟩]
        exact le_max_of_le_left (le_sub_iff_add_le.mpr stood)
      · rw [if_neg (fun q => hu q.1)]
        exact (le_add_of_nonneg_right (h.amount_nonneg x hx)).trans stood
    · rw [if_neg (fun q => e ((P.same_iff_le hxt).mp q)), add_zero] at stood
      rw [if_neg (fun q => e q.2)]
      exact stood

/-- The counter has no more than the standing charges of the period of its last write. -/
structure Within (P : Period) (c : Counter M) (H : List (Charge M)) : Prop where
  amount_nonneg : ∀ x ∈ H, 0 ≤ x.amount
  past : ∀ x ∈ H, x.time ≤ c.time
  le_usage : c.used ≤ usage P H c.time

omit [IsOrderedAddMonoid M] in
theorem within_new (now : ℤ) : Within P (⟨0, now⟩ : Counter M) [] where
  amount_nonneg _ h := by cases h
  past _ h := by cases h
  le_usage := le_refl _

/-- A counter brought up to date has nothing but standing charges of the current period. -/
theorem Within.restart (h : Within P c H) (now : ℤ) : c.restart P now ≤ usage P H now := by
  by_cases e : P.Same now c.time
  · rw [Counter.restart, if_neg (fun q => q.2 e), usage_congr e]
    exact h.le_usage
  · rw [Counter.restart]
    by_cases hu : 0 < c.used
    · rw [if_pos ⟨hu, e⟩]
      exact usage_nonneg h.amount_nonneg now
    · rw [if_neg (fun q => hu q.1)]
      exact (not_lt.mp hu).trans (usage_nonneg h.amount_nonneg now)

theorem Within.charge (h : Within P c H) (ht : c.time ≤ now) {v : M} (hv : 0 ≤ v) :
    Within P (c.charge P now v) (H ++ [⟨now, v⟩]) where
  amount_nonneg _ hy := (mem_charge h.past ht h.amount_nonneg hv hy).1
  past _ hy := (mem_charge h.past ht h.amount_nonneg hv hy).2
  le_usage := by
    change c.restart P now + v ≤ usage P (H ++ [⟨now, v⟩]) now
    rw [usage_append, usage_singleton, if_pos (P.same_refl now)]
    exact add_le_add (h.restart now) (le_refl v)

theorem within_chargeable : Chargeable (Within (M := M)) where
  new _ now := within_new now
  charge h ht hv := h.charge ht hv

/-- A standing charge is given back to a counter of the current period, or to an empty one. -/
theorem Within.release (h : Within P c (pre ++ x :: post)) (ht : c.time ≤ now)
    (hok : c.used = 0 ∨ P.Same now c.time) :
    Within P (c.release P now x) (pre ++ post) where
  amount_nonneg y hy := h.amount_nonneg y (mem_middle hy)
  past y hy := (h.past y (mem_middle hy)).trans ht
  le_usage := by
    have hx : x ∈ pre ++ x :: post := List.mem_append_right _ List.mem_cons_self
    have hxt : x.time ≤ now := (h.past x hx).trans ht
    have hrest : ∀ y ∈ pre ++ post, 0 ≤ y.amount := fun y hy =>
      h.amount_nonneg y (mem_middle hy)
    have empty : c.used ≤ 0 →
        (if 0 < c.used ∧ P.startOf now ≤ x.time then max (c.used - x.amount) 0 else c.used)
          ≤ usage P (pre ++ post) now := fun hu => by
      rw [if_neg (fun q => absurd q.1 (not_lt.mpr hu))]
      exact hu.trans (usage_nonneg hrest now)
    change (if _ then _ else _) ≤ usage P (pre ++ post) now
    rcases hok with hu | e
    · exact empty hu.le
    · by_cases hu : 0 < c.used
      · have stands := h.le_usage
        rw [← usage_congr e, usage_middle] at stands
        by_cases e' : P.startOf now ≤ x.time
        · rw [if_pos ((P.same_iff_le hxt).mpr e')] at stands
          rw [if_pos ⟨hu, e'⟩]
          exact max_le (sub_le_iff_le_add.mpr stands) (usage_nonneg hrest now)
        · rw [if_neg (fun q => e' ((P.same_iff_le hxt).mp q)), add_zero] at stands
          rw [if_neg (fun q => e' q.2)]
          exact stands
      · exact empty (not_lt.mp hu)

end Counter

end Foundation
