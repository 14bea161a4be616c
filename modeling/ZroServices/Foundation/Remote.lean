import ZroServices.Foundation.Outcome

/-!
# Foundation — calls of another service

A call of another service is answered, or it throws: before it took effect, when it is refused, or
after, when the answer is lost (`Fate`).  The caller cannot tell the last two apart, and no rollback
of the caller undoes the effect.

The other service has its own reasons to refuse, which depend on its state: an effect is a function
of the state that may throw.
-/

namespace Foundation

variable {ε σ : Type}

/-- How a call ends that the other service could serve. -/
inductive Fate (ε : Type) where
  | answered
  | refused (e : ε)
  | lost (e : ε)

/-- The call reaches the other service. -/
def Fate.arrives : Fate ε → Bool
  | answered | lost _ => true
  | refused _ => false

/-- The answer comes back. -/
def Fate.isAnswered : Fate ε → Bool
  | answered => true
  | refused _ | lost _ => false

/-- A call with an effect. -/
def remote (fate : Fate ε) (effect : σ → Except ε σ) : EStateM ε σ Unit := fun s =>
  match fate with
  | .refused e => .error e s
  | .answered =>
      match effect s with
      | .ok s' => .ok () s'
      | .error e => .error e s
  | .lost e =>
      match effect s with
      | .ok s' => .error e s'
      | .error e => .error e s

/-- A call that is answered, one whose answer is lost, and one without an effect. -/
theorem outcome_remote {fate : Fate ε} {effect : σ → Except ε σ} {s : σ} {P : Unit → σ → Prop}
    {E : ε → σ → Prop} :
    Outcome (remote fate effect) s P E ↔
      (∀ s', effect s = .ok s' →
        (fate = .answered → P () s') ∧ ∀ e, fate = .lost e → E e s') ∧
        (∀ e, fate = .refused e → E e s) ∧
          (fate.arrives → ∀ e, effect s = .error e → E e s) := by
  cases fate with
  | answered => cases h : effect s <;> simp [Outcome, remote, h, Fate.arrives]
  | refused e => simp [Outcome, remote, Fate.arrives]
  | lost e => cases h : effect s <;> simp [Outcome, remote, h, Fate.arrives]

end Foundation
