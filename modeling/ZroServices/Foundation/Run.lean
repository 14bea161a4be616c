import Mathlib.Algebra.GroupWithZero.Nat
import Mathlib.Tactic.Common

/-!
# Foundation — runs

A system is a total step function `step : σ → ℓ → σ` on states and labels; a step that is not
enabled, or that fails, leaves the state as it is.  `run step s ls` is the state after the
labels `ls`.  `Along step ok s ls` says that every step of that run is taken in a state that
meets `ok`: the environment's promise (times that do not go back), or the condition under which
a result about the run holds.

The one induction over runs is here: an invariant that every step meeting `ok` keeps, holds
after every run along `ok` (`Along.invariant`).  Where a step from the invariant ends well if and
only if it meets `ok`, the runs along `ok` are those in which every state is good (`along_iff`).
-/

-- With an instance of their own, the ids `1`, `2` and `3` are closed terms in every module.
instance neZero_one : NeZero 1 := ⟨Nat.one_ne_zero⟩
instance neZero_two : NeZero 2 := ⟨Nat.succ_ne_zero 1⟩
instance neZero_three : NeZero 3 := ⟨Nat.succ_ne_zero 2⟩

namespace Foundation

universe u v

variable {σ : Type u} {ℓ : Type v} (step : σ → ℓ → σ)

/-- The state after the labels of a list, from left to right. -/
def run (s : σ) (ls : List ℓ) : σ := ls.foldl step s

@[simp] theorem run_nil (s : σ) : run step s [] = s := rfl

@[simp] theorem run_cons (s : σ) (l : ℓ) (ls : List ℓ) :
    run step s (l :: ls) = run step (step s l) ls := rfl

theorem run_append (s : σ) (ls ms : List ℓ) : run step s (ls ++ ms) = run step (run step s ls) ms :=
  List.foldl_append

/-- Every step of the run from `s` is taken in a state that meets `ok`. -/
def Along (ok : σ → ℓ → Prop) : σ → List ℓ → Prop
  | _, [] => True
  | s, l :: ls => ok s l ∧ Along ok (step s l) ls

instance Along.decidable (ok : σ → ℓ → Prop) [∀ s l, Decidable (ok s l)] :
    ∀ (s : σ) (ls : List ℓ), Decidable (Along step ok s ls)
  | _, [] => .isTrue trivial
  | s, l :: ls =>
      have := Along.decidable ok (step s l) ls
      inferInstanceAs (Decidable (ok s l ∧ Along step ok (step s l) ls))

variable {step} {ok ok' : σ → ℓ → Prop}
variable {ls : List ℓ} {I : σ → Prop}
variable {s : σ}

theorem along_append {ms : List ℓ} :
    Along step ok s (ls ++ ms) ↔ Along step ok s ls ∧ Along step ok (run step s ls) ms := by
  induction ls generalizing s with
  | nil => simp [Along]
  | cons l ls ih => simp only [List.cons_append, Along, ih, run_cons, and_assoc]

/-- The prefixes of a list that is not empty. -/
theorem forall_prefix_cons {P : List ℓ → Prop} {l : ℓ} :
    (∀ ms, ms <+: l :: ls → P ms) ↔ P [] ∧ ∀ ms, ms <+: ls → P (l :: ms) := by
  constructor
  · exact fun h => ⟨h [] List.nil_prefix, fun ms hms => h _ ((List.prefix_cons_inj l).mpr hms)⟩
  · rintro ⟨hnil, hcons⟩ ms hms
    rcases List.prefix_cons_iff.mp hms with rfl | ⟨ms', rfl, hms'⟩
    · exact hnil
    · exact hcons ms' hms'

/-- An invariant that every step meeting `ok` keeps, holds after every run along `ok`. -/
theorem Along.invariant (hstep : ∀ s l, I s → ok s l → I (step s l))
    (h₀ : I s) (h : Along step ok s ls) : I (run step s ls) := by
  induction ls generalizing s with
  | nil => exact h₀
  | cons l ls ih => exact ih (hstep s l h₀ h.1) h.2

/-- An invariant that every step keeps, holds after every run. -/
theorem run_invariant (hstep : ∀ s l, I s → I (step s l))
    (h₀ : I s) (ls : List ℓ) : I (run step s ls) := by
  induction ls generalizing s with
  | nil => exact h₀
  | cons l ls ih => exact ih (hstep s l h₀)

/-- An invariant that every step keeps after which `P` holds, holds after every run that meets `P`
throughout. -/
theorem run_invariant_of_prefix {P : σ → Prop}
    (hstep : ∀ s l, I s → P (step s l) → I (step s l)) (h₀ : I s)
    (h : ∀ ms, ms <+: ls → P (run step s ms)) : I (run step s ls) := by
  induction ls generalizing s with
  | nil => exact h₀
  | cons l ls ih =>
      have hls := (forall_prefix_cons.mp h).2
      exact ih (hstep s l h₀ (hls [] List.nil_prefix)) hls

/-- A function of the state that every step from the invariant takes along another step, takes
every run along the run of that step. -/
theorem run_map {τ : Type*} {step' : τ → ℓ → τ} {f : σ → τ}
    (hstep : ∀ s l, I s → I (step s l)) (hf : ∀ s l, I s → f (step s l) = step' (f s) l)
    (h₀ : I s) (ls : List ℓ) : f (run step s ls) = run step' (f s) ls := by
  induction ls generalizing s with
  | nil => rfl
  | cons l ls ih => rw [run_cons, run_cons, ih (hstep s l h₀), hf s l h₀]

/-- Two conditions on the steps agree along a run when they agree from the invariant, for labels
that meet `Q`. -/
theorem along_congr {Q : ℓ → Prop} (hstep : ∀ s l, I s → Q l → I (step s l))
    (hiff : ∀ s l, I s → Q l → (ok s l ↔ ok' s l)) (h₀ : I s)
    (hls : ∀ l ∈ ls, Q l) : Along step ok s ls ↔ Along step ok' s ls := by
  induction ls generalizing s with
  | nil => exact Iff.rfl
  | cons l ls ih =>
      obtain ⟨hl, hls⟩ := List.forall_mem_cons.mp hls
      exact and_congr (hiff s l h₀ hl) (ih (hstep s l h₀ hl) hls)

/-- A step of the run from `s` is taken in a state that meets `ok`. -/
def Sometime (step : σ → ℓ → σ) (ok : σ → ℓ → Prop) : σ → List ℓ → Prop
  | _, [] => False
  | s, l :: ls => ok s l ∨ Sometime step ok (step s l) ls

theorem sometime_iff_not_along :
    Sometime step ok s ls ↔ ¬ Along step (fun s l => ¬ ok s l) s ls := by
  induction ls generalizing s with
  | nil => exact iff_of_false (fun h => h) fun h => h trivial
  | cons l ls ih =>
      rw [Sometime, Along, ih, not_and_or, not_not]

/-- What no step brings about, and only a step that does not meet `ok` ends, holds after a run if it
held before and every step meets `ok`. -/
theorem run_iff_along {P : σ → Prop} {Q : ℓ → Prop} (hstep : ∀ s l, I s → Q l → I (step s l))
    (hiff : ∀ s l, I s → Q l → (P (step s l) ↔ P s ∧ ok s l)) (h₀ : I s)
    (hls : ∀ l ∈ ls, Q l) : P (run step s ls) ↔ P s ∧ Along step ok s ls := by
  induction ls generalizing s with
  | nil => exact (and_iff_left trivial).symm
  | cons l ls ih =>
      obtain ⟨hl, hls⟩ := List.forall_mem_cons.mp hls
      rw [run_cons, ih (hstep s l h₀ hl) hls, hiff s l h₀ hl, and_assoc]
      rfl

/-- Every state of the run is good if and only if every step meets `ok`. -/
theorem along_iff {P : σ → Prop} (hgood : ∀ s, I s → P s)
    (hiff : ∀ s l, I s → (P (step s l) ↔ ok s l)) (hstep : ∀ s l, I s → ok s l → I (step s l))
    (h₀ : I s) (ls : List ℓ) :
    (∀ ms, ms <+: ls → P (run step s ms)) ↔ Along step ok s ls := by
  induction ls generalizing s with
  | nil =>
      refine iff_of_true (fun ms h => ?_) trivial
      rw [List.prefix_nil.mp h]
      exact hgood s h₀
  | cons l ls ih =>
      rw [forall_prefix_cons, Along, run_nil, and_iff_right (hgood s h₀)]
      constructor
      · intro h
        have hl : ok s l := (hiff s l h₀).mp (h [] List.nil_prefix)
        exact ⟨hl, (ih (hstep s l h₀ hl)).mp h⟩
      · rintro ⟨hl, hls⟩
        exact (ih (hstep s l h₀ hl)).mpr hls

end Foundation
