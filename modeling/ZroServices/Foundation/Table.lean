import Mathlib.Algebra.BigOperators.Group.List.Basic
import Mathlib.Data.List.Nodup
import Mathlib.Tactic.Abel

/-!
# Foundation — keyed tables

A table is a list of rows, in insertion order, no two of which have the same key.  The row type
says what its key is (`Keyed`); uniqueness is a field of the table, so no table with two rows
of one key can be built.

* `get?` reads the row of a key, `insert?` appends a row unless its key is taken, and `set`
  replaces the row that has the new row's key, if there is one.
* `total f` adds up `f` over the rows.  `total_set` and `total_insert?` say how a write moves a
  total: this is what every accounting argument over a table needs.
* `set_split` writes a table and its update over one split of the row list, so that an argument
  about a list of entries of which one is replaced applies to a table.
-/

namespace Foundation

universe u v

/-- A number above every number of a list. -/
def fresh (l : List ℕ) : ℕ := l.foldr max 0 + 1

theorem lt_fresh {l : List ℕ} {k : ℕ} (h : k ∈ l) : k < fresh l := by
  refine Nat.lt_succ_of_le ?_
  induction l with
  | nil => cases h
  | cons a l ih =>
      rcases List.mem_cons.mp h with rfl | h
      · exact le_max_left _ _
      · exact (ih h).trans (le_max_right _ _)

/-- What is found is the only element that there is to find. -/
theorem find?_eq_some_of_forall {α : Type u} {p : α → Bool} {xs : List α} {x : α} (hx : x ∈ xs)
    (hp : p x = true) (h : ∀ y ∈ xs, p y = true → y = x) : xs.find? p = some x := by
  cases e : xs.find? p with
  | none => exact absurd hp (List.find?_eq_none.mp e x hx)
  | some y => rw [h y (List.mem_of_find?_eq_some e) (List.find?_some e)]

/-- A row type and the key its rows are found by. -/
class Keyed (α : Type u) (κ : outParam (Type v)) where
  key : α → κ

/-- Rows in insertion order, with pairwise different keys. -/
structure Table (α : Type u) {κ : Type v} [Keyed α κ] where
  rows : List α
  nodup : (rows.map Keyed.key).Nodup

namespace Table

variable {α : Type u} {κ : Type v} [Keyed α κ]

/-- The table without rows. -/
def empty : Table α := ⟨[], List.nodup_nil⟩

instance : Inhabited (Table α) := ⟨empty⟩

instance [DecidableEq α] : DecidableEq (Table α) := fun t u =>
  decidable_of_iff (t.rows = u.rows) ⟨fun h => by cases t; cases u; cases h; rfl, congrArg rows⟩

theorem ext_rows {t u : Table α} (h : t.rows = u.rows) : t = u := by
  cases t; cases u; cases h; rfl

/-- Two rows of one table with one key are one row. -/
theorem eq_of_key {t : Table α} {r s : α} (hr : r ∈ t.rows) (hs : s ∈ t.rows)
    (h : Keyed.key r = Keyed.key s) : r = s :=
  List.inj_on_of_nodup_map t.nodup hr hs h

variable [DecidableEq κ]

/-- The row of a key. -/
def get? (t : Table α) (k : κ) : Option α := t.rows.find? fun r => Keyed.key r = k

theorem mem_of_get? {t : Table α} {k : κ} {r : α} (h : t.get? k = some r) : r ∈ t.rows :=
  List.mem_of_find?_eq_some h

theorem key_of_get? {t : Table α} {k : κ} {r : α} (h : t.get? k = some r) : Keyed.key r = k := by
  simpa using List.find?_some h

theorem get?_of_mem {t : Table α} {r : α} (h : r ∈ t.rows) : t.get? (Keyed.key r) = some r := by
  cases e : t.get? (Keyed.key r) with
  | none =>
      have := List.find?_eq_none.mp e r h
      simp at this
  | some s => exact congrArg some (eq_of_key (mem_of_get? e) h (key_of_get? e))

theorem get?_eq_some {t : Table α} {k : κ} {r : α} :
    t.get? k = some r ↔ r ∈ t.rows ∧ Keyed.key r = k := by
  constructor
  · intro h
    exact ⟨mem_of_get? h, key_of_get? h⟩
  · rintro ⟨h, rfl⟩
    exact get?_of_mem h

theorem get?_eq_none {t : Table α} {k : κ} : t.get? k = none ↔ ∀ r ∈ t.rows, Keyed.key r ≠ k := by
  simp [get?, List.find?_eq_none]

/-! ### Replacing a row -/

theorem map_key_replace (l : List α) (r : α) :
    (l.map fun x => if Keyed.key x = Keyed.key r then r else x).map Keyed.key
      = l.map Keyed.key := by
  rw [List.map_map]
  refine List.map_congr_left fun x _ => ?_
  by_cases h : Keyed.key x = Keyed.key r <;> simp [h]

/-- Replace the row that has the key of `r` by `r`; without such a row nothing changes. -/
def set (t : Table α) (r : α) : Table α where
  rows := t.rows.map fun x => if Keyed.key x = Keyed.key r then r else x
  nodup := by rw [map_key_replace]; exact t.nodup

theorem rows_set (t : Table α) (r : α) :
    (t.set r).rows = t.rows.map fun x => if Keyed.key x = Keyed.key r then r else x := rfl

/-- Replacing a row changes no key. -/
theorem map_key_set (t : Table α) (r : α) : (t.set r).rows.map Keyed.key = t.rows.map Keyed.key :=
  map_key_replace t.rows r

theorem mem_set {t : Table α} {r x : α} :
    x ∈ (t.set r).rows ↔
      (x ∈ t.rows ∧ Keyed.key x ≠ Keyed.key r) ∨
        (x = r ∧ ∃ y ∈ t.rows, Keyed.key y = Keyed.key r) := by
  rw [rows_set, List.mem_map]
  constructor
  · rintro ⟨y, hy, rfl⟩
    by_cases h : Keyed.key y = Keyed.key r
    · right; rw [if_pos h]; exact ⟨rfl, y, hy, h⟩
    · left; rw [if_neg h]; exact ⟨hy, h⟩
  · rintro (⟨hx, h⟩ | ⟨rfl, y, hy, h⟩)
    · exact ⟨x, hx, if_neg h⟩
    · exact ⟨y, hy, if_pos h⟩

theorem get?_set_self {t : Table α} {r s : α} {k : κ} (h : t.get? k = some s)
    (hk : Keyed.key r = k) : (t.set r).get? k = some r := by
  subst hk
  exact get?_of_mem (mem_set.mpr (Or.inr ⟨rfl, s, mem_of_get? h, key_of_get? h⟩))

theorem get?_set_ne {t : Table α} {r : α} {k : κ} (h : Keyed.key r ≠ k) :
    (t.set r).get? k = t.get? k := by
  cases e : t.get? k with
  | none =>
      rw [get?_eq_none] at e ⊢
      intro x hx
      rcases mem_set.mp hx with ⟨hx', -⟩ | ⟨rfl, -⟩
      · exact e x hx'
      · exact h
  | some s =>
      have hs := key_of_get? e
      rw [get?_eq_some]
      exact ⟨mem_set.mpr (Or.inl ⟨mem_of_get? e, fun e' => h (e'.symm.trans hs)⟩), hs⟩

/-- What a key reads after a row was replaced. -/
theorem get?_set {t : Table α} {r : α} {k : κ} :
    (t.set r).get? k = if Keyed.key r = k then (t.get? k).map fun _ => r else t.get? k := by
  by_cases h : Keyed.key r = k
  · rw [if_pos h]
    cases e : t.get? k with
    | none =>
        rw [get?_eq_none] at e
        rw [Option.map_none, get?_eq_none]
        intro x hx
        rcases mem_set.mp hx with ⟨hx', -⟩ | ⟨-, y, hy, hy'⟩
        · exact e x hx'
        · exact absurd (hy'.trans h) (e y hy)
    | some s => exact get?_set_self e h
  · rw [if_neg h, get?_set_ne h]

theorem set_eq_self {t : Table α} {r : α} {k : κ} (h : t.get? k = some r) : t.set r = t := by
  refine ext_rows ?_
  rw [rows_set]
  refine (List.map_congr_left fun x hx => ?_).trans (List.map_id _)
  by_cases e : Keyed.key x = Keyed.key r
  · rw [if_pos e]; exact (eq_of_key hx (mem_of_get? h) e).symm
  · rw [if_neg e]; rfl

/-- Writing a row twice keeps the second. -/
theorem set_set {t : Table α} {r s : α} (h : Keyed.key r = Keyed.key s) :
    (t.set r).set s = t.set s := by
  refine ext_rows ?_
  simp only [rows_set, List.map_map]
  refine List.map_congr_left fun x _ => ?_
  by_cases e : Keyed.key x = Keyed.key r
  · simp [Function.comp, e, h]
  · have e' : ¬ Keyed.key x = Keyed.key s := fun e' => e (e'.trans h.symm)
    simp [Function.comp, e, e']

/-- A table and its update, over one split of the rows. -/
theorem set_split {t : Table α} {k : κ} {r : α} (h : t.get? k = some r) :
    ∃ pre post, t.rows = pre ++ r :: post ∧
      ∀ s, Keyed.key s = k → (t.set s).rows = pre ++ s :: post := by
  obtain ⟨pre, post, e⟩ := List.append_of_mem (mem_of_get? h)
  refine ⟨pre, post, e, fun s hs => ?_⟩
  have hk := key_of_get? h
  have nd := t.nodup
  rw [e, List.map_append, List.map_cons, List.nodup_middle, List.nodup_cons, List.mem_append] at nd
  obtain ⟨fresh, -⟩ := nd
  have keep : ∀ l : List α, Keyed.key r ∉ l.map Keyed.key →
      (l.map fun x => if Keyed.key x = Keyed.key s then s else x) = l := by
    intro l hl
    refine (List.map_congr_left fun x hx => ?_).trans (List.map_id _)
    rw [if_neg]
    · rfl
    · intro e'
      exact hl (List.mem_map.mpr ⟨x, hx, e'.trans (hs.trans hk.symm)⟩)
  rw [rows_set, e, List.map_append, List.map_cons, keep pre (fun m => fresh (Or.inl m)),
    keep post (fun m => fresh (Or.inr m)), if_pos (hk.trans hs.symm)]

/-- Replace rows, one after the other. -/
def setAll (t : Table α) (rs : List α) : Table α := rs.foldl set t

theorem map_key_setAll (t : Table α) (rs : List α) :
    (t.setAll rs).rows.map Keyed.key = t.rows.map Keyed.key := by
  induction rs generalizing t with
  | nil => rfl
  | cons r rs ih => exact (ih (t.set r)).trans (map_key_set t r)

theorem get?_setAll_of_ne {t : Table α} {rs : List α} {k : κ}
    (h : ∀ r ∈ rs, Keyed.key r ≠ k) : (t.setAll rs).get? k = t.get? k := by
  induction rs generalizing t with
  | nil => rfl
  | cons r rs ih =>
      have hrest : ∀ r ∈ rs, Keyed.key r ≠ k := fun r hr => h r (List.mem_cons_of_mem _ hr)
      exact (ih hrest).trans (get?_set_ne (h r List.mem_cons_self))

/-- What the key of a replaced row reads. -/
theorem get?_setAll_of_mem {t : Table α} {rs : List α} {r s : α} (nd : (rs.map Keyed.key).Nodup)
    (hr : r ∈ rs) (hs : t.get? (Keyed.key r) = some s) :
    (t.setAll rs).get? (Keyed.key r) = some r := by
  induction rs generalizing t s with
  | nil => cases hr
  | cons x rs ih =>
      rw [List.map_cons, List.nodup_cons] at nd
      rcases List.mem_cons.mp hr with rfl | hr
      · have hrest : ∀ y ∈ rs, Keyed.key y ≠ Keyed.key r := fun y hy e =>
          nd.1 (List.mem_map.mpr ⟨y, hy, e⟩)
        change ((t.set r).setAll rs).get? _ = _
        rw [get?_setAll_of_ne hrest, get?_set_self hs rfl]
      · have hne : Keyed.key x ≠ Keyed.key r := fun e => nd.1 (e ▸ List.mem_map_of_mem hr)
        exact ih nd.2 hr ((get?_set_ne hne).trans hs)

/-- A row after rows were replaced. -/
theorem mem_setAll {t : Table α} {rs : List α} {x : α} (h : x ∈ (t.setAll rs).rows) :
    (x ∈ t.rows ∧ ∀ r ∈ rs, Keyed.key x ≠ Keyed.key r) ∨ x ∈ rs := by
  induction rs generalizing t with
  | nil => exact .inl ⟨h, fun _ hr => absurd hr List.not_mem_nil⟩
  | cons r rs ih =>
      rcases ih (t := t.set r) h with ⟨hx, hne⟩ | hx
      · rcases mem_set.mp hx with ⟨hx, hkey⟩ | ⟨rfl, -⟩
        · exact .inl ⟨hx, List.forall_mem_cons.mpr ⟨hkey, hne⟩⟩
        · exact .inr List.mem_cons_self
      · exact .inr (List.mem_cons_of_mem r hx)

/-- A column that the writes leave as it was. -/
theorem map_setAll {β : Type*} {t : Table α} {rs : List α} {f : α → β}
    (h : ∀ r ∈ rs, ∀ s ∈ t.rows, Keyed.key s = Keyed.key r → f s = f r) :
    (t.setAll rs).rows.map f = t.rows.map f := by
  induction rs generalizing t with
  | nil => rfl
  | cons x rs ih =>
      have hx : (t.set x).rows.map f = t.rows.map f := by
        rw [rows_set, List.map_map]
        refine List.map_congr_left fun s hs => ?_
        rw [Function.comp_apply]
        split
        · exact (h x List.mem_cons_self s hs ‹_›).symm
        · rfl
      refine (ih (t := t.set x) fun r hr s hs hkey => ?_).trans hx
      have hr' : r ∈ x :: rs := List.mem_cons_of_mem x hr
      rcases mem_set.mp hs with ⟨hs, -⟩ | ⟨rfl, y, hy, hyx⟩
      · exact h r hr' s hs hkey
      · exact (h s List.mem_cons_self y hy hyx).symm.trans (h r hr' y hy (hyx.trans hkey))

/-! ### Adding a row -/

/-- Append a row, unless its key is taken. -/
def insert? (t : Table α) (r : α) : Option (Table α) :=
  if h : Keyed.key r ∈ t.rows.map Keyed.key then none
  else some
    { rows := t.rows ++ [r]
      nodup := by
        rw [List.map_append, List.map_singleton]
        exact List.Nodup.append t.nodup (List.nodup_singleton _)
          (List.disjoint_singleton.mpr h) }

theorem insert?_eq_some {t u : Table α} {r : α} (h : t.insert? r = some u) :
    t.get? (Keyed.key r) = none ∧ u.rows = t.rows ++ [r] := by
  rw [insert?] at h
  split at h
  · cases h
  · rename_i hk
    cases h
    refine ⟨get?_eq_none.mpr fun x hx e => hk ?_, rfl⟩
    exact List.mem_map.mpr ⟨x, hx, e⟩

theorem insert?_of_fresh {t : Table α} {r : α} (h : t.get? (Keyed.key r) = none) :
    ∃ u, t.insert? r = some u := by
  rw [insert?, dif_neg]
  · exact ⟨_, rfl⟩
  · rw [List.mem_map]
    rintro ⟨x, hx, e⟩
    exact get?_eq_none.mp h x hx e

theorem mem_insert? {t u : Table α} {r x : α} (h : t.insert? r = some u) :
    x ∈ u.rows ↔ x ∈ t.rows ∨ x = r := by
  rw [(insert?_eq_some h).2, List.mem_append, List.mem_singleton]

theorem get?_insert?_self {t u : Table α} {r : α} (h : t.insert? r = some u) :
    u.get? (Keyed.key r) = some r :=
  get?_of_mem ((mem_insert? h).mpr (Or.inr rfl))

theorem get?_insert?_ne {t u : Table α} {r : α} {k : κ} (h : t.insert? r = some u)
    (hk : Keyed.key r ≠ k) : u.get? k = t.get? k := by
  rw [get?, get?, (insert?_eq_some h).2, List.find?_append]
  simp [hk]

/-- A row found before a row was added is found after. -/
theorem get?_insert?_of_some {t u : Table α} {r s : α} {k : κ} (h : t.insert? r = some u)
    (hs : t.get? k = some s) : u.get? k = some s := by
  rw [get?_insert?_ne h, hs]
  rintro rfl
  rw [(insert?_eq_some h).1] at hs
  cases hs

/-- Insert the row, or replace the row that has its key. -/
def upsert (t : Table α) (r : α) : Table α :=
  match t.insert? r with
  | some u => u
  | none => t.set r

theorem upsert_of_get? {t : Table α} {r s : α} (h : t.get? (Keyed.key r) = some s) :
    t.upsert r = t.set r := by
  rw [upsert]
  split
  · rename_i u hu
    rw [(insert?_eq_some hu).1] at h
    cases h
  · rfl

theorem rows_upsert_of_fresh {t : Table α} {r : α} (h : t.get? (Keyed.key r) = none) :
    (t.upsert r).rows = t.rows ++ [r] := by
  obtain ⟨u, hu⟩ := insert?_of_fresh h
  rw [upsert, hu]
  exact (insert?_eq_some hu).2

theorem mem_upsert {t : Table α} {r x : α} :
    x ∈ (t.upsert r).rows ↔ (x ∈ t.rows ∧ Keyed.key x ≠ Keyed.key r) ∨ x = r := by
  cases e : t.get? (Keyed.key r) with
  | none =>
      obtain ⟨u, hu⟩ := insert?_of_fresh e
      rw [upsert, hu, mem_insert? hu]
      constructor
      · rintro (hx | rfl)
        · exact Or.inl ⟨hx, get?_eq_none.mp e x hx⟩
        · exact Or.inr rfl
      · rintro (⟨hx, -⟩ | rfl)
        · exact Or.inl hx
        · exact Or.inr rfl
  | some s =>
      rw [upsert_of_get? e, mem_set]
      constructor
      · rintro (h | ⟨rfl, -⟩)
        · exact Or.inl h
        · exact Or.inr rfl
      · rintro (h | rfl)
        · exact Or.inl h
        · exact Or.inr ⟨rfl, s, mem_of_get? e, key_of_get? e⟩

theorem get?_upsert_self {t : Table α} {r : α} : (t.upsert r).get? (Keyed.key r) = some r :=
  get?_of_mem (mem_upsert.mpr (Or.inr rfl))

theorem get?_upsert_ne {t : Table α} {r : α} {k : κ} (h : Keyed.key r ≠ k) :
    (t.upsert r).get? k = t.get? k := by
  rw [upsert]
  split
  · rename_i u hu
    exact get?_insert?_ne hu h
  · exact get?_set_ne h

/-- The rows that meet `p`. -/
def filter (t : Table α) (p : α → Prop) [DecidablePred p] : Table α where
  rows := t.rows.filter fun r => decide (p r)
  nodup := t.nodup.sublist (List.filter_sublist.map _)

omit [DecidableEq κ] in
theorem mem_filter {t : Table α} {p : α → Prop} [DecidablePred p] {r : α} :
    r ∈ (t.filter p).rows ↔ r ∈ t.rows ∧ p r := by
  rw [filter, List.mem_filter, decide_eq_true_eq]

/-- Replacing a row that is not selected by one that is not selected selects the same rows. -/
theorem filter_set {t : Table α} {r : α} {p : α → Bool} (hnew : p r = false)
    (hold : ∀ x ∈ t.rows, Keyed.key x = Keyed.key r → p x = false) :
    (t.set r).rows.filter p = t.rows.filter p := by
  rw [rows_set]
  generalize t.rows = rows at hold ⊢
  induction rows with
  | nil => rfl
  | cons x rows ih =>
      have rest := ih fun y hy => hold y (List.mem_cons_of_mem x hy)
      rw [List.map_cons]
      by_cases e : Keyed.key x = Keyed.key r
      · rw [if_pos e, List.filter_cons_of_neg (by simp [hnew]),
          List.filter_cons_of_neg (by simp [hold x List.mem_cons_self e]), rest]
      · rw [if_neg e]
        cases hx : p x with
        | true => rw [List.filter_cons_of_pos hx, List.filter_cons_of_pos hx, rest]
        | false =>
            rw [List.filter_cons_of_neg (by simp [hx]), List.filter_cons_of_neg (by simp [hx]), rest]

/-- A row is replaced by one that has its place in the order and is not selected. -/
theorem filter_mergeSort_set [DecidableEq α] {t : Table α} {r s : α} {le : α → α → Bool}
    {p : α → Bool} (hs : s ∈ t.rows) (hkey : Keyed.key r = Keyed.key s)
    (hle : ∀ x, le r x = le s x ∧ le x r = le x s) (hp : p r = false) :
    ((t.set r).rows.mergeSort le).filter p = ((t.rows.mergeSort le).filter p).erase s := by
  have hrow : ∀ x ∈ t.rows, Keyed.key x = Keyed.key r → x = s := fun x hx h =>
    eq_of_key hx hs (h.trans hkey)
  have hplace : ∀ x ∈ t.rows, ∀ y, le (if Keyed.key x = Keyed.key r then r else x) y = le x y ∧
      le y (if Keyed.key x = Keyed.key r then r else x) = le y x := by
    intro x hx y
    split
    · rw [hrow x hx ‹_›]
      exact hle y
    · exact ⟨rfl, rfl⟩
  have hsorted : (t.set r).rows.mergeSort le = (t.rows.mergeSort le).map fun x =>
      if Keyed.key x = Keyed.key r then r else x := by
    rw [rows_set]
    refine (List.map_mergeSort fun x hx y hy => ?_).symm
    rw [(hplace x hx _).1, (hplace y hy x).2]
  have hnodup : ((t.rows.mergeSort le).filter p).Nodup :=
    ((List.mergeSort_perm _ _).nodup_iff.mpr (List.Nodup.of_map _ t.nodup)).filter _
  have hmem : ∀ x ∈ t.rows.mergeSort le, x ∈ t.rows := fun x hx => List.mem_mergeSort.mp hx
  rw [hsorted, hnodup.erase_eq_filter, List.filter_filter]
  generalize t.rows.mergeSort le = rows at hmem
  induction rows with
  | nil => rfl
  | cons x rows ih =>
      have hrest := ih fun y hy => hmem y (List.mem_cons_of_mem x hy)
      rw [List.map_cons]
      by_cases hx : Keyed.key x = Keyed.key r
      · have heq := hrow x (hmem x List.mem_cons_self) hx
        rw [if_pos hx, List.filter_cons_of_neg (by simp [hp]), hrest,
          List.filter_cons_of_neg (by simp [heq])]
      · have hne : x ≠ s := fun heq => hx (heq ▸ hkey.symm)
        rw [if_neg hx]
        cases hpx : p x with
        | true =>
            rw [List.filter_cons_of_pos hpx, List.filter_cons_of_pos (by simp [hpx, hne]), hrest]
        | false =>
            rw [List.filter_cons_of_neg (by simp [hpx]), List.filter_cons_of_neg (by simp [hpx]),
              hrest]

/-- A write of a row that is not selected, and was not. -/
theorem find?_set_of_not {t : Table α} {r : α} {p : α → Bool} (hnew : p r = false)
    (hold : ∀ x ∈ t.rows, Keyed.key x = Keyed.key r → p x = false) :
    (t.set r).rows.find? p = t.rows.find? p := by
  rw [← List.head?_filter, filter_set hnew hold, List.head?_filter]

/-- A write of the first row that is selected. -/
theorem find?_set_self {t : Table α} {p : α → Bool} {r s : α} (h : t.rows.find? p = some s)
    (hk : Keyed.key r = Keyed.key s) (hp : p r) : (t.set r).rows.find? p = some r := by
  obtain ⟨hps, pre, post, hrows, hpre⟩ := List.find?_eq_some_iff_append.mp h
  have hs : s ∈ t.rows := List.mem_of_find?_eq_some h
  have hfar : ∀ x ∈ pre, Keyed.key x ≠ Keyed.key r := by
    intro x hx hkey
    have hmem : x ∈ t.rows := hrows ▸ List.mem_append_left _ hx
    obtain rfl := eq_of_key hmem hs (hkey.trans hk)
    have hnot := hpre x hx
    rw [hps] at hnot
    cases hnot
  rw [rows_set, hrows, List.map_append, List.map_cons, if_pos hk.symm,
    List.map_congr_left fun x hx => if_neg (hfar x hx), List.map_id']
  exact List.find?_eq_some_iff_append.mpr ⟨hp, pre, _, rfl, hpre⟩

/-- A column that a write leaves as it was. -/
theorem map_set {β : Type*} {t : Table α} {r : α} {f : α → β}
    (h : ∀ s ∈ t.rows, Keyed.key s = Keyed.key r → f s = f r) :
    (t.set r).rows.map f = t.rows.map f := by
  rw [rows_set, List.map_map]
  refine List.map_congr_left fun s hs => ?_
  rw [Function.comp_apply]
  split
  · exact (h s hs ‹_›).symm
  · rfl

/-- Replacing a row that is selected by one that is selected, among the selected rows. -/
theorem set_filter {t : Table α} {r : α} {p : α → Prop} [DecidablePred p]
    (h : ∀ x, Keyed.key x = Keyed.key r → p x) : (t.set r).filter p = (t.filter p).set r := by
  refine ext_rows ?_
  change (t.rows.map _).filter _ = (t.rows.filter _).map _
  rw [List.filter_map]
  refine congrArg _ (List.filter_congr fun x _ => ?_)
  by_cases e : Keyed.key x = Keyed.key r
  · simp [e, h x e, h r rfl]
  · simp [e]

/-! ### Totals -/

section Total

variable {M : Type*}

/-- The sum of `f` over the rows. -/
def total [AddMonoid M] (t : Table α) (f : α → M) : M := (t.rows.map f).sum

omit [DecidableEq κ] in
theorem total_congr [AddMonoid M] {t : Table α} {f g : α → M} (h : ∀ r ∈ t.rows, f r = g r) :
    t.total f = t.total g := by
  rw [total, total, List.map_congr_left h]

omit [DecidableEq κ] in
theorem total_sub [AddCommGroup M] {t : Table α} {f g : α → M} :
    (t.total fun r => f r - g r) = t.total f - t.total g := by
  rw [total, total, total]
  induction t.rows with
  | nil => simp
  | cons r rows ih =>
      simp only [List.map_cons, List.sum_cons, ih]
      abel

theorem total_insert? [AddMonoid M] {t u : Table α} {r : α} (h : t.insert? r = some u)
    (f : α → M) : u.total f = t.total f + f r := by
  rw [total, (insert?_eq_some h).2, List.map_append, List.sum_append, List.map_singleton,
    List.sum_singleton, total]

theorem total_set [AddCommGroup M] {t : Table α} {r s : α} {k : κ} (h : t.get? k = some s)
    (hk : Keyed.key r = k) (f : α → M) : (t.set r).total f = t.total f - f s + f r := by
  obtain ⟨pre, post, e, hset⟩ := set_split h
  simp only [total, hset r hk, e, List.map_append, List.sum_append, List.map_cons, List.sum_cons]
  abel

theorem total_upsert [AddCommGroup M] (t : Table α) (r : α) (f : α → M) :
    (t.upsert r).total f = t.total f - ((t.get? (Keyed.key r)).map f).getD 0 + f r := by
  cases e : t.get? (Keyed.key r) with
  | none =>
      obtain ⟨u, hu⟩ := insert?_of_fresh e
      rw [upsert, hu, total_insert? hu]
      simp
  | some s =>
      rw [upsert_of_get? e, total_set e rfl]
      rfl

/-- The total without the row of a key. -/
theorem total_filter_key_ne [AddCommGroup M] {t : Table α} {k : κ} {r : α}
    (h : t.get? k = some r) (f : α → M) :
    (t.filter fun s => Keyed.key s ≠ k).total f = t.total f - f r := by
  obtain ⟨pre, post, hrows⟩ := List.append_of_mem (mem_of_get? h)
  have hk := key_of_get? h
  have hnodup := t.nodup
  rw [hrows, List.map_append, List.map_cons, List.nodup_middle, List.nodup_cons,
    List.mem_append] at hnodup
  have hkeep (l : List α) (hl : Keyed.key r ∉ l.map Keyed.key) :
      l.filter (fun s => decide (Keyed.key s ≠ k)) = l := by
    refine List.filter_eq_self.mpr fun s hs => decide_eq_true_iff.mpr fun hks => hl ?_
    exact List.mem_map.mpr ⟨s, hs, hks.trans hk.symm⟩
  have hrest : (t.filter fun s => Keyed.key s ≠ k).rows = pre ++ post := by
    change t.rows.filter (fun s => decide (Keyed.key s ≠ k)) = pre ++ post
    rw [hrows, List.filter_append, hkeep pre fun hm => hnodup.1 (.inl hm),
      List.filter_cons_of_neg (by simp [hk]), hkeep post fun hm => hnodup.1 (.inr hm)]
  rw [total, total, hrest, hrows]
  simp only [List.map_append, List.map_cons, List.sum_append, List.sum_cons]
  abel

/-- The total of what only one row has. -/
theorem total_eq_single [AddCommGroup M] {t : Table α} {r : α} (hr : r ∈ t.rows) {f : α → M}
    (h : ∀ s ∈ t.rows, Keyed.key s ≠ Keyed.key r → f s = 0) : t.total f = f r := by
  have hothers : (t.filter fun s => Keyed.key s ≠ Keyed.key r).total f = 0 := by
    refine List.sum_eq_zero fun x hx => ?_
    obtain ⟨s, hs, rfl⟩ := List.mem_map.mp hx
    obtain ⟨hs, hne⟩ := mem_filter.mp hs
    exact h s hs hne
  rw [total_filter_key_ne (get?_of_mem hr)] at hothers
  exact sub_eq_zero.mp hothers

/-- The sum over rows that are picked by their keys. -/
theorem total_mem_keys [AddCommMonoid M] {t : Table α} {rs : List α} (hrs : ∀ r ∈ rs, r ∈ t.rows)
    (nd : (rs.map Keyed.key).Nodup) (f : α → M) :
    t.total (fun r => if Keyed.key r ∈ rs.map Keyed.key then f r else 0) = (rs.map f).sum := by
  have hperm : (t.rows.filter fun r => Keyed.key r ∈ rs.map Keyed.key).Perm rs := by
    refine (List.perm_ext_iff_of_nodup (t.nodup.of_map _ |>.filter _) (nd.of_map _)).mpr fun r => ?_
    rw [List.mem_filter, decide_eq_true_eq]
    constructor
    · rintro ⟨hr, hkey⟩
      obtain ⟨s, hs, hsr⟩ := List.mem_map.mp hkey
      rwa [← eq_of_key (hrs s hs) hr hsr]
    · exact fun hr => ⟨hrs r hr, List.mem_map_of_mem hr⟩
  rw [total, List.sum_map_ite, List.map_const', List.sum_replicate, nsmul_zero, add_zero]
  exact (hperm.map f).sum_eq

/-- The sum of `f` over the rows of the keys of a list. -/
def sumAt [AddMonoid M] (t : Table α) (f : α → M) (ks : List κ) : M :=
  (ks.map fun k => ((t.get? k).map f).getD 0).sum

@[simp] theorem sumAt_nil [AddMonoid M] {t : Table α} {f : α → M} : t.sumAt f [] = 0 := rfl

theorem sumAt_cons [AddMonoid M] {t : Table α} {f : α → M} {k : κ} {ks : List κ} {r : α}
    (h : t.get? k = some r) : t.sumAt f (k :: ks) = f r + t.sumAt f ks := by
  rw [sumAt, List.map_cons, List.sum_cons, h]
  rfl

theorem sumAt_append [AddMonoid M] {t : Table α} {f : α → M} {ks ks' : List κ} :
    t.sumAt f (ks ++ ks') = t.sumAt f ks + t.sumAt f ks' := by
  rw [sumAt, List.map_append, List.sum_append, sumAt, sumAt]

theorem sumAt_congr [AddMonoid M] {t u : Table α} {f g : α → M} {ks : List κ}
    (h : ∀ k ∈ ks, (t.get? k).map f = (u.get? k).map g) : t.sumAt f ks = u.sumAt g ks := by
  rw [sumAt, sumAt, List.map_congr_left fun k hk => by rw [h k hk]]

/-- How a total moves when rows of the table are rewritten. -/
theorem total_setAll_map [AddCommGroup M] {t : Table α} {rs : List α} {g : α → α} {f : α → M}
    (hg : ∀ r, Keyed.key (g r) = Keyed.key r) (nd : (rs.map Keyed.key).Nodup)
    (h : ∀ r ∈ rs, t.get? (Keyed.key r) = some r) :
    (t.setAll (rs.map g)).total f = t.total f + (rs.map fun r => f (g r) - f r).sum := by
  induction rs generalizing t with
  | nil => simp [setAll]
  | cons x rs ih =>
      rw [List.map_cons, List.nodup_cons] at nd
      have rest : ∀ r ∈ rs, (t.set (g x)).get? (Keyed.key r) = some r := by
        intro r hr
        rw [get?_set_ne]
        · exact h r (List.mem_cons_of_mem _ hr)
        · exact fun e => nd.1 ((hg x).symm.trans e ▸ List.mem_map_of_mem hr)
      refine (ih nd.2 rest).trans ?_
      rw [total_set (h x List.mem_cons_self) (hg x), List.map_cons, List.sum_cons]
      abel

/-- Rows replaced by rows of the same amount do not move a total. -/
theorem total_setAll [AddCommGroup M] {t : Table α} {rs : List α} {f : α → M}
    (nd : (rs.map Keyed.key).Nodup)
    (h : ∀ r ∈ rs, ∃ s, t.get? (Keyed.key r) = some s ∧ f s = f r) :
    (t.setAll rs).total f = t.total f := by
  induction rs generalizing t with
  | nil => rfl
  | cons x rs ih =>
      rw [List.map_cons, List.nodup_cons] at nd
      obtain ⟨s, hs, hf⟩ := h x List.mem_cons_self
      refine (ih nd.2 fun r hr => ?_).trans ?_
      · have hne : Keyed.key x ≠ Keyed.key r := fun e => nd.1 (e ▸ List.mem_map_of_mem hr)
        rw [get?_set_ne hne]
        exact h r (List.mem_cons_of_mem _ hr)
      · rw [total_set hs rfl, hf]
        abel

end Total

end Table

end Foundation
