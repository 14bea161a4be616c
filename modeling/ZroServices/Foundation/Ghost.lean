import ZroServices.Foundation.Outcome

/-!
# Foundation — code with a ghost state

A ghost state is written and never read: it says of an execution what its state does not keep.
`Erases x y` says that `x` is `y` with a ghost state: without it, the one does what the other does.
Code without a ghost state runs on the state (`onState`), and `note` writes the ghost state.
-/

namespace Foundation

universe u

variable {ε σ γ α β : Type}

structure Ghosted (σ γ : Type) where
  state : σ
  ghost : γ

/-- The code leaves the ghost state as it is. -/
def onState (x : EStateM ε σ α) : EStateM ε (Ghosted σ γ) α := fun s =>
  match x s.state with
  | .ok a state => .ok a { s with state }
  | .error e state => .error e { s with state }

def note (g : γ → γ) : EStateM ε (Ghosted σ γ) Unit :=
  modify fun s => { s with ghost := g s.ghost }

/-- A result without its ghost state. -/
def erase : EStateM.Result ε (Ghosted σ γ) α → EStateM.Result ε σ α
  | .ok a s => .ok a s.state
  | .error e s => .error e s.state

/-- Without its ghost state, `x` is `y`. -/
def Erases (x : EStateM ε (Ghosted σ γ) α) (y : EStateM ε σ α) : Prop :=
  ∀ s, y s.state = erase (x s)

section

variable {x : EStateM ε (Ghosted σ γ) α} {y : EStateM ε σ α} {k : α → EStateM ε (Ghosted σ γ) β}
  {l : α → EStateM ε σ β} {s : Ghosted σ γ} {a : α} {e : ε}

theorem erases_onState (y : EStateM ε σ α) : Erases (γ := γ) (onState y) y := by
  intro s
  rw [onState]
  cases y s.state <;> rfl

theorem erases_pure (a : α) : Erases (γ := γ) (pure a : EStateM ε (Ghosted σ γ) α) (pure a) :=
  fun _ => rfl

theorem erases_throw (e : ε) : Erases (γ := γ) (throw e : EStateM ε (Ghosted σ γ) α) (throw e) :=
  fun _ => rfl

theorem Erases.bind (hx : Erases x y) (hk : ∀ a, Erases (k a) (l a)) :
    Erases (x >>= k) (y >>= l) := by
  intro s
  have hy := hx s
  cases h : x s with
  | ok a s' =>
      rw [h] at hy
      rw [bind_of_ok h, bind_of_ok hy, hk a s']
  | error e s' =>
      rw [h] at hy
      rw [bind_of_error h, bind_of_error hy]
      rfl

/-- A note changes nothing of the state. -/
theorem Erases.note_bind {g : γ → γ} {k : Unit → EStateM ε (Ghosted σ γ) α}
    (hk : Erases (k ()) y) : Erases (note g >>= k) y := fun s =>
  hk { s with ghost := g s.ghost }

/-- A note of what was done. -/
theorem erases_then_note (y : EStateM ε σ Unit) (g : γ → γ) :
    Erases (onState y >>= fun _ => note g) y := by
  intro s
  cases h : y s.state with
  | ok a state =>
      have hrun : onState y s = .ok a { s with state } := by rw [onState, h]
      rw [bind_of_ok hrun]
      rfl
  | error e state =>
      have hrun : onState y s = .error e { s with state } := by rw [onState, h]
      rw [bind_of_error hrun]
      rfl

theorem outcome_onState {P : α → Ghosted σ γ → Prop} {E : ε → Ghosted σ γ → Prop} :
    Outcome (onState y) s P E ↔
      Outcome y s.state (fun a state => P a { s with state }) fun e state =>
        E e { s with state } := by
  rw [Outcome, Outcome, onState]
  cases y s.state <;> rfl

theorem outcome_note {g : γ → γ} {P : Unit → Ghosted σ γ → Prop} {E : ε → Ghosted σ γ → Prop} :
    Outcome (note g) s P E ↔ P () { s with ghost := g s.ghost } := Iff.rfl

end

end Foundation
