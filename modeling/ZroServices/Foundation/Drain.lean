import Mathlib.Data.List.Count
import Mathlib.Data.List.Nodup

/-!
# Foundation — draining by the first page

A loop handles the first `n` elements of what is pending and starts again while there were more.
What it handled is not pending any more, but what it skipped is.

Whatever the loop ends with, it has handled all that is not to be skipped, in order
(`eq_of_drain`).  It ends exactly when less than a page is to be skipped, or just a page and the
last element is one of them (`drain_isSome_iff`).

Lists that are handled one after the other, each without what is done already, are one list
(`inTurn`).
-/

namespace Foundation

universe u v

variable {σ : Type u} {α : Type v}

/-! ### Pages with elements that stay -/

section Pages

variable (skip : α → Bool) (n : ℕ)

/-- What stays when all but the skipped elements of the first page were handled. -/
def afterPage (l : List α) : List α := (l.take n).filter skip ++ l.drop n

/-- Less than a page is skipped, or just a page, with the last element. -/
def EndsWithin (l : List α) : Prop :=
  l.countP skip < n ∨ l.countP skip = n ∧ ∀ a ∈ l.getLast?, skip a = true

variable {skip n} {l : List α}

theorem countP_afterPage : (afterPage skip n l).countP skip = l.countP skip := by
  conv_rhs => rw [← List.take_append_drop n l]
  rw [afterPage, List.countP_append, List.countP_append, List.countP_filter]
  simp only [Bool.and_self]

theorem getLast?_afterPage (h : n < l.length) : (afterPage skip n l).getLast? = l.getLast? := by
  have hlast : (l.drop n).getLast? = l.getLast? := by
    rw [List.getLast?_drop, if_neg (by omega)]
  have hdrop : l.drop n ≠ [] := fun hnil => absurd (List.drop_eq_nil_iff.mp hnil) (by omega)
  rw [afterPage, List.getLast?_append_of_ne_nil _ hdrop, hlast]

/-- What is skipped and what comes last stay the same. -/
theorem endsWithin_afterPage (h : n < l.length) :
    EndsWithin skip n (afterPage skip n l) ↔ EndsWithin skip n l := by
  rw [EndsWithin, EndsWithin, countP_afterPage, getLast?_afterPage h]

/-- A single page is the last one. -/
theorem endsWithin_of_length_le (h : l.length ≤ n) : EndsWithin skip n l := by
  rcases Nat.lt_or_ge (l.countP skip) n with hlt | hge
  · exact .inl hlt
  · have hle : l.countP skip ≤ l.length := List.countP_le_length
    refine .inr ⟨by omega, fun a ha => ?_⟩
    exact List.countP_eq_length.mp (by omega) a (List.mem_of_getLast? ha)

/-- Something of the first page is handled. -/
theorem length_afterPage_lt (h : n < l.length) (hends : EndsWithin skip n l) :
    (afterPage skip n l).length < l.length := by
  have hlen : (l.take n).length = n := List.length_take_of_le (Nat.le_of_lt h)
  have hcount : l.countP skip = (l.take n).countP skip + (l.drop n).countP skip := by
    rw [← List.countP_append, List.take_append_drop]
  have hfilter : ((l.take n).filter skip).length < n := by
    rw [← List.countP_eq_length_filter]
    rcases hends with hlt | ⟨heq, hlast⟩
    · omega
    · -- The last element is skipped and not on the page.
      have hdrop : l.drop n ≠ [] := fun hnil => absurd (List.drop_eq_nil_iff.mp hnil) (by omega)
      obtain ⟨a, ha⟩ := Option.isSome_iff_exists.mp (List.getLast?_isSome.mpr hdrop)
      have hskip : skip a = true := by
        refine hlast a ?_
        rwa [List.getLast?_drop, if_neg (by omega)] at ha
      have hpos : 0 < (l.drop n).countP skip :=
        List.countP_pos_iff.mpr ⟨a, List.mem_of_getLast? ha, hskip⟩
      omega
  rw [afterPage, List.length_append, List.length_drop]
  omega

theorem filter_afterPage (l : List α) :
    (afterPage skip n l).filter (!skip ·) = (l.drop n).filter (!skip ·) := by
  rw [afterPage, List.filter_append, List.filter_filter]
  simp

/-- What stays of a list without repetitions. -/
theorem diff_filter_take [DecidableEq α] (h : l.Nodup) :
    l.diff ((l.take n).filter (!skip ·)) = afterPage skip n l := by
  have happ : (l.take n ++ l.drop n).Nodup := by rwa [List.take_append_drop]
  obtain ⟨-, -, hdisj⟩ := List.nodup_append.mp happ
  rw [h.sdiff_eq_filter]
  conv_lhs => rw [← List.take_append_drop n l]
  rw [List.filter_append, afterPage]
  congr 1
  · refine List.filter_congr fun a ha => ?_
    rw [List.take_append_drop]
    simp [ha]
  · refine List.filter_eq_self.mpr fun a ha => ?_
    rw [List.take_append_drop]
    have hnot : a ∉ l.take n := fun ha' => hdisj a ha' a ha rfl
    simp [hnot]

end Pages

/-! ### The loop -/

section Drain

variable (pending : σ → List α) (handle : σ → α → σ) (n : ℕ)

/-- Page after page; without enough rounds there is no result. -/
def drain : ℕ → σ → Option σ
  | 0, _ => none
  | rounds + 1, s =>
      let s' := ((pending s).take n).foldl handle s
      if n < (pending s).length then drain rounds s' else some s'

variable [DecidableEq α]

/-- Elements that are skipped change nothing, and the others are pending no more. -/
structure Drains (Inv : σ → Prop) (skip : α → Bool) : Prop where
  nodup : ∀ {s}, Inv s → (pending s).Nodup
  inv : ∀ {s a}, Inv s → a ∈ pending s → Inv (handle s a)
  skipped : ∀ {s a}, Inv s → a ∈ pending s → skip a = true → handle s a = s
  handled : ∀ {s a}, Inv s → a ∈ pending s → skip a = false →
    pending (handle s a) = (pending s).erase a

variable {pending handle n} {Inv : σ → Prop} {skip : α → Bool} {s : σ}

section

variable (h : Drains pending handle Inv skip)
include h

/-- Elements are handled, one after the other. -/
theorem Drains.foldl {page : List α} (hs : Inv s)
    (hnodup : page.Nodup) (hpage : ∀ a ∈ page, a ∈ pending s) :
    Inv (page.foldl handle s) ∧
      page.foldl handle s = (page.filter (!skip ·)).foldl handle s ∧
      pending (page.foldl handle s) = (pending s).diff (page.filter (!skip ·)) := by
  induction page generalizing s with
  | nil => exact ⟨hs, rfl, rfl⟩
  | cons a page ih =>
      obtain ⟨hfirst, hrest⟩ := List.nodup_cons.mp hnodup
      have ha := hpage a List.mem_cons_self
      rw [List.foldl_cons]
      cases hskip : skip a with
      | true =>
          rw [h.skipped hs ha hskip, List.filter_cons_of_neg (by simp [hskip])]
          exact ih hs hrest fun b hb => hpage b (List.mem_cons_of_mem _ hb)
      | false =>
          have hpending := h.handled hs ha hskip
          have hnext : ∀ b ∈ page, b ∈ pending (handle s a) := by
            intro b hb
            rw [hpending]
            refine (List.mem_erase_of_ne ?_).mpr (hpage b (List.mem_cons_of_mem _ hb))
            exact fun e => hfirst (e ▸ hb)
          obtain ⟨hinv, hfold, hdiff⟩ := ih (h.inv hs ha) hrest hnext
          rw [List.filter_cons_of_pos (by simp [hskip]), List.foldl_cons, List.diff_cons,
            ← hpending]
          exact ⟨hinv, hfold, hdiff⟩

/-- The first page is handled. -/
theorem Drains.page (hs : Inv s) :
    Inv (((pending s).take n).foldl handle s) ∧
      ((pending s).take n).foldl handle s
        = (((pending s).take n).filter (!skip ·)).foldl handle s ∧
      pending (((pending s).take n).foldl handle s) = afterPage skip n (pending s) := by
  have hnodup := h.nodup hs
  rw [← diff_filter_take hnodup]
  exact h.foldl hs (hnodup.sublist (List.take_sublist _ _)) fun a ha => List.mem_of_mem_take ha

/-- **The result.**  All that is not skipped was handled, in order. -/
theorem Drains.eq_of_drain {rounds : ℕ} {t : σ} (hs : Inv s)
    (hdrain : drain pending handle n rounds s = some t) :
    t = ((pending s).filter (!skip ·)).foldl handle s := by
  induction rounds generalizing s with
  | zero => cases hdrain
  | succ rounds ih =>
      obtain ⟨hinv, hfold, hpending⟩ := h.page (n := n) hs
      rw [drain] at hdrain
      conv_rhs => rw [← List.take_append_drop n (pending s)]
      rw [List.filter_append, List.foldl_append, ← hfold]
      by_cases hmore : n < (pending s).length
      · rw [if_pos hmore] at hdrain
        rw [ih hinv hdrain, hpending, filter_afterPage]
      · rw [if_neg hmore] at hdrain
        rw [List.drop_eq_nil_of_le (by omega)]
        exact (Option.some.inj hdrain).symm

/-- **The end.**  The loop ends when less than a page is skipped, or a page with the last
element. -/
theorem Drains.drain_isSome_iff (hs : Inv s) :
    (∃ rounds, (drain pending handle n rounds s).isSome) ↔ EndsWithin skip n (pending s) := by
  constructor
  · rintro ⟨rounds, hdrain⟩
    induction rounds generalizing s with
    | zero => cases hdrain
    | succ rounds ih =>
        obtain ⟨hinv, -, hpending⟩ := h.page (n := n) hs
        rw [drain] at hdrain
        by_cases hmore : n < (pending s).length
        · rw [if_pos hmore] at hdrain
          rw [← endsWithin_afterPage hmore, ← hpending]
          exact ih hinv hdrain
        · exact endsWithin_of_length_le (by omega)
  · intro hends
    induction hlen : (pending s).length using Nat.strongRecOn generalizing s with
    | _ k ih =>
        obtain ⟨hinv, -, hpending⟩ := h.page (n := n) hs
        by_cases hmore : n < (pending s).length
        · have hnext := ih _ (hlen ▸ length_afterPage_lt hmore hends) hinv
            (by rwa [hpending, endsWithin_afterPage hmore]) (congrArg List.length hpending)
          obtain ⟨rounds, hrounds⟩ := hnext
          refine ⟨rounds + 1, ?_⟩
          rw [drain, if_pos hmore]
          exact hrounds
        · refine ⟨1, ?_⟩
          rw [drain, if_neg hmore]
          rfl

end

end Drain

/-! ### One list after the other -/

section Turn

variable {κ : Type u} [DecidableEq κ]

/-- Lists, one after the other: of each what has no key of those before. -/
def inTurn (key : α → κ) : List (List α) → List α
  | [] => []
  | l :: ls => l ++ (inTurn key ls).filter (key · ∉ l.map key)

variable {key : α → κ} {ls : List (List α)} {l : List α} {a : α}

theorem exists_of_mem_inTurn (ha : a ∈ inTurn key ls) : ∃ l ∈ ls, a ∈ l := by
  induction ls with
  | nil => cases ha
  | cons l ls ih =>
      rcases List.mem_append.mp ha with ha | ha
      · exact ⟨l, List.mem_cons_self, ha⟩
      · obtain ⟨l', hl', ha⟩ := ih (List.mem_of_mem_filter ha)
        exact ⟨l', List.mem_cons_of_mem l hl', ha⟩

theorem mem_keys_inTurn {k : κ} : k ∈ (inTurn key ls).map key ↔ ∃ l ∈ ls, k ∈ l.map key := by
  induction ls with
  | nil => simp [inTurn]
  | cons l ls ih =>
      have hmap : ((inTurn key ls).filter (key · ∉ l.map key)).map key
          = ((inTurn key ls).map key).filter (· ∉ l.map key) := by
        rw [List.filter_map]
        rfl
      rw [inTurn, List.map_append, hmap, List.mem_append, List.mem_filter, ih, decide_eq_true_eq]
      simp only [List.mem_cons, exists_eq_or_imp]
      tauto

theorem nodup_inTurn (h : ∀ l ∈ ls, (l.map key).Nodup) : ((inTurn key ls).map key).Nodup := by
  induction ls with
  | nil => exact List.nodup_nil
  | cons l ls ih =>
      rw [inTurn, List.map_append]
      refine (h l List.mem_cons_self).append ?_ ?_
      · exact (ih fun l' hl' => h l' (List.mem_cons_of_mem l hl')).sublist (List.filter_sublist.map _)
      · intro k hk hk'
        obtain ⟨b, hb, rfl⟩ := List.mem_map.mp hk'
        exact of_decide_eq_true (List.mem_filter.mp hb).2 hk

/-- What was handled before is missing in the end. -/
theorem inTurn_filter (done : List κ) :
    inTurn key (ls.map (·.filter (key · ∉ done))) = (inTurn key ls).filter (key · ∉ done) := by
  induction ls with
  | nil => rfl
  | cons l ls ih =>
      rw [List.map_cons, inTurn, inTurn, ih, List.filter_append, List.filter_filter,
        List.filter_filter]
      refine congrArg _ (List.filter_congr fun a _ => ?_)
      have hmap : (l.filter (key · ∉ done)).map key = (l.map key).filter (· ∉ done) := by
        rw [List.filter_map]
        rfl
      rw [hmap, ← Bool.decide_and, ← Bool.decide_and, decide_eq_decide, List.mem_filter,
        decide_eq_true_eq]
      tauto

end Turn

end Foundation
