import Mathlib.Data.List.Induction
import Mathlib.Data.List.Nodup

/-!
# Foundation — what is collected under each key

`collect` goes through a list and keeps one entry for each key: `new` begins it at the first element
of the key, and `add` takes in the others.  There is an entry for the key of every element
(`mem_keys_collect`), no key has two (`nodup_collect`), and what an entry says comes from the
elements of its key alone (`entry_collect`).

Where every key has an entry from the start, each takes in its own elements
(`foldl_insertEntry_of_keys`).

Keys are sometimes led back to what they were made of by a test that others pass, too: the first
that passes is the right one for all exactly when none passes for a later one
(`nodup_map_find?_iff`).
-/

namespace Foundation

universe u

variable {α κ γ : Type u} [DecidableEq κ] (key : α → κ) (new : α → γ) (add : γ → α → γ)

def insertEntry (entries : List (κ × γ)) (a : α) : List (κ × γ) :=
  match entries with
  | [] => [(key a, new a)]
  | entry :: rest =>
      if entry.1 = key a then (entry.1, add entry.2 a) :: rest
      else entry :: insertEntry rest a

def collect (l : List α) : List (κ × γ) := l.foldl (insertEntry key new add) []

variable {key new add} {entries : List (κ × γ)} {a : α} {l : List α} {k : κ} {g : γ}

theorem keys_insertEntry : (insertEntry key new add entries a).map Prod.fst =
    if key a ∈ entries.map Prod.fst then entries.map Prod.fst
    else entries.map Prod.fst ++ [key a] := by
  induction entries with
  | nil => rfl
  | cons entry rest ih =>
      rw [insertEntry]
      split
      case isTrue h => rw [if_pos (h ▸ List.mem_cons_self)]; rfl
      case isFalse h =>
        rw [List.map_cons, ih, List.map_cons]
        by_cases hin : key a ∈ rest.map Prod.fst
        · rw [if_pos hin, if_pos (List.mem_cons_of_mem _ hin)]
        · rw [if_neg hin, if_neg fun hmem => (List.mem_cons.mp hmem).elim (fun e => h e.symm) hin]
          rfl

/-- An entry afterwards: another one, one that took the element in, or a new one. -/
theorem mem_insertEntry (hnodup : (entries.map Prod.fst).Nodup)
    (h : (k, g) ∈ insertEntry key new add entries a) :
    (k ≠ key a ∧ (k, g) ∈ entries) ∨
      k = key a ∧ ((∃ g', (k, g') ∈ entries ∧ g = add g' a) ∨
        key a ∉ entries.map Prod.fst ∧ g = new a) := by
  induction entries with
  | nil =>
      obtain ⟨rfl, rfl⟩ := Prod.mk.inj (List.mem_singleton.mp h)
      exact .inr ⟨rfl, .inr ⟨List.not_mem_nil, rfl⟩⟩
  | cons entry rest ih =>
      obtain ⟨hfirst, hrest⟩ := List.nodup_cons.mp hnodup
      rw [insertEntry] at h
      split at h
      case isTrue heq =>
        rcases List.mem_cons.mp h with h | h
        · obtain ⟨rfl, rfl⟩ := Prod.mk.inj h
          exact .inr ⟨heq, .inl ⟨entry.2, List.mem_cons_self, rfl⟩⟩
        · have hne : k ≠ key a := fun e =>
            hfirst (heq ▸ e ▸ List.mem_map_of_mem (f := Prod.fst) h)
          exact .inl ⟨hne, List.mem_cons_of_mem _ h⟩
      case isFalse hne =>
        rcases List.mem_cons.mp h with h | h
        · exact .inl ⟨fun e => hne (h ▸ e), h ▸ List.mem_cons_self⟩
        · rcases ih hrest h with ⟨hk, hmem⟩ | ⟨hk, ⟨g', hmem, hg⟩ | ⟨hnot, hg⟩⟩
          · exact .inl ⟨hk, List.mem_cons_of_mem _ hmem⟩
          · exact .inr ⟨hk, .inl ⟨g', List.mem_cons_of_mem _ hmem, hg⟩⟩
          · refine .inr ⟨hk, .inr ⟨fun hmem => ?_, hg⟩⟩
            exact (List.mem_cons.mp hmem).elim (fun e => hne e.symm) hnot

theorem collect_append_singleton :
    collect key new add (l ++ [a]) = insertEntry key new add (collect key new add l) a := by
  rw [collect, List.foldl_append]
  rfl

theorem mem_keys_collect : k ∈ (collect key new add l).map Prod.fst ↔ k ∈ l.map key := by
  induction l using List.reverseRecOn with
  | nil => exact Iff.rfl
  | append_singleton l a ih =>
      rw [collect_append_singleton, keys_insertEntry, List.map_append, List.mem_append, ← ih]
      split
      case isTrue hin =>
        refine ⟨.inl, fun h => h.elim id fun hk => ?_⟩
        rwa [List.mem_singleton.mp hk]
      case isFalse => rw [List.mem_append]; rfl

theorem nodup_collect : ((collect key new add l).map Prod.fst).Nodup := by
  induction l using List.reverseRecOn with
  | nil => exact List.nodup_nil
  | append_singleton l a ih =>
      rw [collect_append_singleton, keys_insertEntry]
      split
      case isTrue => exact ih
      case isFalse hnot =>
        refine List.nodup_append.mpr ⟨ih, List.nodup_singleton _, ?_⟩
        intro x hx y hy hxy
        exact hnot (List.mem_singleton.mp hy ▸ hxy ▸ hx)

/-- The elements of the key, the first one apart. -/
theorem entry_collect (h : (k, g) ∈ collect key new add l) :
    ∃ first rest, l.filter (fun a => key a = k) = first :: rest ∧
      g = rest.foldl add (new first) := by
  induction l using List.reverseRecOn generalizing g with
  | nil => cases h
  | append_singleton l a ih =>
      rw [collect_append_singleton] at h
      rw [List.filter_append]
      rcases mem_insertEntry nodup_collect h with ⟨hk, hmem⟩ | ⟨hk, ⟨g', hmem, hg⟩ | ⟨hnot, hg⟩⟩
      · obtain ⟨first, rest, hfilter, hg⟩ := ih hmem
        refine ⟨first, rest, ?_, hg⟩
        rw [hfilter, List.filter_cons_of_neg (by simpa using hk.symm), List.filter_nil,
          List.append_nil]
      · obtain ⟨first, rest, hfilter, hg'⟩ := ih hmem
        refine ⟨first, rest ++ [a], ?_, ?_⟩
        · rw [hfilter, List.filter_cons_of_pos (by simpa using hk.symm)]
          rfl
        · rw [hg, hg', List.foldl_append]
          rfl
      · refine ⟨a, [], ?_, hg⟩
        have hnone : l.filter (fun a => key a = k) = [] := by
          refine List.filter_eq_nil_iff.mpr fun b hb hkey => hnot ?_
          rw [mem_keys_collect, ← hk, ← of_decide_eq_true hkey]
          exact List.mem_map_of_mem hb
        rw [hnone, List.filter_cons_of_pos (by simpa using hk.symm)]
        rfl

/-! ### Entries that are there from the start -/

theorem insertEntry_of_notMem (h : key a ∉ entries.map Prod.fst) :
    insertEntry key new add entries a = entries ++ [(key a, new a)] := by
  induction entries with
  | nil => rfl
  | cons entry rest ih =>
      rw [List.map_cons, List.mem_cons, not_or] at h
      rw [insertEntry, if_neg fun e => h.1 e.symm, ih h.2, List.cons_append]

/-- Elements whose keys differ have an entry each. -/
theorem collect_of_nodup (h : (l.map key).Nodup) :
    collect key new add l = l.map fun a => (key a, new a) := by
  induction l using List.reverseRecOn with
  | nil => rfl
  | append_singleton l a ih =>
      rw [List.map_append, List.nodup_append] at h
      have hnot : key a ∉ (collect key new add l).map Prod.fst := fun hmem =>
        h.2.2 _ (mem_keys_collect.mp hmem) _ (List.mem_singleton_self _) rfl
      rw [collect_append_singleton, insertEntry_of_notMem hnot, ih h.1, List.map_append,
        List.map_singleton]

theorem insertEntry_of_mem (hnodup : (entries.map Prod.fst).Nodup)
    (hmem : key a ∈ entries.map Prod.fst) :
    insertEntry key new add entries a
      = entries.map fun e => (e.1, if key a = e.1 then add e.2 a else e.2) := by
  induction entries with
  | nil => cases hmem
  | cons entry rest ih =>
      obtain ⟨hfirst, hrest⟩ := List.nodup_cons.mp hnodup
      rw [insertEntry, List.map_cons]
      by_cases h : entry.1 = key a
      · have hothers : rest.map (fun e => (e.1, if key a = e.1 then add e.2 a else e.2)) = rest := by
          refine (List.map_congr_left fun e he => ?_).trans (List.map_id _)
          have hne : key a ≠ e.1 := fun heq =>
            hfirst ((h.trans heq) ▸ List.mem_map_of_mem (f := Prod.fst) he)
          rw [if_neg hne]
          rfl
        rw [if_pos h, if_pos h.symm, hothers]
      · rw [if_neg h, if_neg fun e => h e.symm]
        refine congrArg _ (ih hrest ?_)
        exact (List.mem_cons.mp hmem).resolve_left fun e => h e.symm

/-- Each entry takes in the elements of its key. -/
theorem foldl_insertEntry_of_keys (hnodup : (entries.map Prod.fst).Nodup)
    (hmem : ∀ a ∈ l, key a ∈ entries.map Prod.fst) :
    l.foldl (insertEntry key new add) entries
      = entries.map fun e => (e.1, (l.filter fun a => key a = e.1).foldl add e.2) := by
  induction l generalizing entries with
  | nil => exact (List.map_id _).symm
  | cons a l ih =>
      have hkeys : (insertEntry key new add entries a).map Prod.fst = entries.map Prod.fst := by
        rw [keys_insertEntry, if_pos (hmem a List.mem_cons_self)]
      rw [List.foldl_cons, ih (hkeys ▸ hnodup) fun b hb =>
          hkeys ▸ hmem b (List.mem_cons_of_mem a hb),
        insertEntry_of_mem hnodup (hmem a List.mem_cons_self), List.map_map]
      refine List.map_congr_left fun e _ => ?_
      rw [Function.comp_apply, List.filter_cons]
      by_cases h : key a = e.1
      · simp [h]
      · simp [h]

/-! ### Keys that are led back by a test -/

variable {r : α → α → Bool}

/-- Without an earlier match each element is led back to itself. -/
theorem find?_eq_self (hrefl : ∀ x ∈ l, r x x = true)
    (h : l.Pairwise fun x y => r x y = false) {x : α} (hx : x ∈ l) :
    l.find? (r · x) = some x := by
  obtain ⟨pre, post, rfl⟩ := List.append_of_mem hx
  obtain ⟨-, -, hbefore⟩ := List.pairwise_append.mp h
  rw [List.find?_eq_some_iff_append]
  refine ⟨hrefl x hx, pre, post, rfl, fun y hy => ?_⟩
  rw [hbefore y hy x List.mem_cons_self]
  rfl

/-- No two elements are led back to one exactly when none passes for a later one. -/
theorem nodup_map_find?_iff (hnodup : l.Nodup) (hrefl : ∀ x ∈ l, r x x = true) :
    (l.map fun x => l.find? (r · x)).Nodup ↔ l.Pairwise fun x y => r x y = false := by
  constructor
  · intro h
    induction l using List.reverseRecOn with
    | nil => exact List.Pairwise.nil
    | append_singleton l a ih =>
        have hrefl' : ∀ x ∈ l, r x x = true := fun x hx => hrefl x (List.mem_append_left _ hx)
        -- What is led back within the first elements stays led back so.
        have hfind : ∀ x ∈ l, (l ++ [a]).find? (r · x) = l.find? (r · x) := by
          intro x hx
          rw [List.find?_append]
          refine Option.or_of_isSome ?_
          rw [List.find?_isSome]
          exact ⟨x, hx, hrefl' x hx⟩
        rw [List.map_append, List.map_congr_left hfind, List.map_singleton, List.nodup_append] at h
        have hbefore := ih (List.nodup_append.mp hnodup).1 hrefl' h.1
        refine List.pairwise_append.mpr ⟨hbefore, List.pairwise_singleton _ _, ?_⟩
        intro x hx y hy
        rw [List.mem_singleton.mp hy]
        by_contra hr
        have hsome : (l.find? (r · a)).isSome := by
          rw [List.find?_isSome]
          exact ⟨x, hx, by simpa using hr⟩
        obtain ⟨b, hb⟩ := Option.isSome_iff_exists.mp hsome
        have hbl := List.mem_of_find?_eq_some hb
        refine h.2.2 (some b) (List.mem_map.mpr ⟨b, hbl, find?_eq_self hrefl' hbefore hbl⟩)
          _ (List.mem_singleton_self _) ?_
        rw [List.find?_append, hb]
        rfl
  · intro h
    rw [List.map_congr_left fun x hx => find?_eq_self hrefl h hx]
    exact hnodup.map fun _ _ => Option.some.inj

end Foundation
