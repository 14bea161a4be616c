import ZroServices.Foundation.Run

/-!
# Foundation — attempts that store their mark last

Something is to be done once, and is asked for any number of times.  An attempt acts first and
stores a mark last; one that finds the mark does nothing.  An attempt that acts and then fails
leaves no mark, and the next one acts again.

* `made_le_one_iff`: it is done once at most if and only if the first attempt that acts stores the
  mark, or no other attempt acts.
* `counted_le_one_iff`: the same of a system whose steps are attempts.
-/

namespace Foundation

/-- How often it was done, and whether the mark is there. -/
structure Attempts where
  made : ℕ
  marked : Bool

variable {ℓ : Type*} (acts marks : ℓ → Bool)

def attempt (s : Attempts) (l : ℓ) : Attempts :=
  if s.marked then s else if acts l then ⟨s.made + 1, marks l⟩ else s

/-- The first attempt that acts stores the mark, or is the only one. -/
def MarksFirst (ls : List ℓ) : Prop :=
  ∀ l rest, ls.filter acts = l :: rest → marks l ∨ rest = []

section

variable {acts marks} {ls : List ℓ}

theorem run_attempt_marked (n : ℕ) : run (attempt acts marks) ⟨n, true⟩ ls = ⟨n, true⟩ := by
  induction ls with
  | nil => rfl
  | cons l ls ih => exact ih

theorem made_le_attempt (s : Attempts) (l : ℓ) : s.made ≤ (attempt acts marks s l).made := by
  rw [attempt]
  split
  · exact Nat.le_refl _
  · split
    · exact Nat.le_succ _
    · exact Nat.le_refl _

theorem made_le_run (s : Attempts) : s.made ≤ (run (attempt acts marks) s ls).made := by
  induction ls generalizing s with
  | nil => exact Nat.le_refl _
  | cons l ls ih => exact Nat.le_trans (made_le_attempt s l) (ih _)

/-- Without a mark, any attempt that acts is one too many. -/
theorem made_run_one_le_one_iff :
    (run (attempt acts marks) ⟨1, false⟩ ls).made ≤ 1 ↔ ls.filter acts = [] := by
  induction ls with
  | nil => simp
  | cons l ls ih =>
      cases hl : acts l with
      | false =>
          rw [List.filter_cons_of_neg (by simp [hl]), ← ih]
          simp [attempt, hl]
      | true =>
          rw [List.filter_cons_of_pos hl]
          have hmore : 2 ≤ (run (attempt acts marks) ⟨1, false⟩ (l :: ls)).made := by
            rw [run_cons]
            have hstep : attempt acts marks ⟨1, false⟩ l = ⟨2, marks l⟩ := by simp [attempt, hl]
            rw [hstep]
            exact made_le_run ⟨2, marks l⟩
          exact iff_of_false (by omega) (by rintro ⟨⟩)

theorem made_run_le_one_iff :
    (run (attempt acts marks) ⟨0, false⟩ ls).made ≤ 1 ↔ MarksFirst acts marks ls := by
  induction ls with
  | nil => simp [MarksFirst]
  | cons l ls ih =>
      cases hl : acts l with
      | false =>
          rw [MarksFirst, List.filter_cons_of_neg (by simp [hl]), ← MarksFirst, ← ih]
          simp [attempt, hl]
      | true =>
          have hstep : attempt acts marks ⟨0, false⟩ l = ⟨1, marks l⟩ := by simp [attempt, hl]
          have hfirst : MarksFirst acts marks (l :: ls) ↔ marks l ∨ ls.filter acts = [] := by
            simp [MarksFirst, List.filter_cons_of_pos hl]
          rw [run_cons, hstep, hfirst]
          cases hm : marks l with
          | true => simp [run_attempt_marked]
          | false => simpa using made_run_one_le_one_iff

/-- It is done once at most throughout a run if and only if the first attempt that acts stores the
mark, or is the only one. -/
theorem made_le_one_iff :
    (∀ ms, ms <+: ls → (run (attempt acts marks) ⟨0, false⟩ ms).made ≤ 1) ↔
      MarksFirst acts marks ls := by
  rw [← made_run_le_one_iff]
  constructor
  · exact fun h => h ls List.prefix_rfl
  · rintro h _ ⟨ns, rfl⟩
    rw [run_append] at h
    exact Nat.le_trans (made_le_run _) h

/-- Where no attempt stores a mark. -/
theorem marksFirst_false_iff :
    MarksFirst acts (fun _ => false) ls ↔ (ls.filter acts).length ≤ 1 := by
  rw [MarksFirst]
  cases ls.filter acts with
  | nil => simp
  | cons l rest => simp

/-- A system whose steps are attempts. -/
theorem counted_le_one_iff {σ : Type*} {step : σ → ℓ → σ} {I : σ → Prop} (made : σ → ℕ)
    (marked : σ → Bool) (hstep : ∀ s l, I s → I (step s l))
    (hattempt : ∀ s l, I s →
      (⟨made (step s l), marked (step s l)⟩ : Attempts) =
        attempt acts marks ⟨made s, marked s⟩ l)
    {s : σ} (h₀ : I s) (hmade : made s = 0) (hmarked : marked s = false) (ls : List ℓ) :
    (∀ ms, ms <+: ls → made (run step s ms) ≤ 1) ↔ MarksFirst acts marks ls := by
  have hview (ms : List ℓ) :
      made (run step s ms) = (run (attempt acts marks) ⟨0, false⟩ ms).made := by
    have h := run_map (f := fun s => (⟨made s, marked s⟩ : Attempts)) hstep hattempt h₀ ms
    rw [hmade, hmarked] at h
    exact congrArg Attempts.made h
  simp only [hview]
  exact made_le_one_iff

end

end Foundation
