import ZroServices.Foundation.Effect

/-!
# Foundation — code on a part of the state

`Through f x` says that the code `x` does the same on `f s` as on `s`: it ends with the same
result, and leaves the image of the state that it would leave.  With `f` a restriction (the rows
of some keys, without the others) it says that the code does not look at what `f` takes away.  The
relation is kept by `>>=` and `transaction`, and a write goes through `f` when it commutes with it.
-/

namespace Foundation

variable {ε σ α β : Type}

/-- A result, with the state mapped. -/
def mapState (f : σ → σ) : EStateM.Result ε σ α → EStateM.Result ε σ α
  | .ok a s => .ok a (f s)
  | .error e s => .error e (f s)

@[simp] theorem mapState_ok {f : σ → σ} {a : α} {s : σ} :
    mapState f (.ok a s : EStateM.Result ε σ α) = .ok a (f s) := rfl

@[simp] theorem mapState_error {f : σ → σ} {e : ε} {s : σ} :
    mapState f (.error e s : EStateM.Result ε σ α) = .error e (f s) := rfl

/-- On `f s` the code does what it does on `s`. -/
def Through (f : σ → σ) (x : EStateM ε σ α) : Prop := ∀ s, x (f s) = mapState f (x s)

section
variable {f : σ → σ} {x : EStateM ε σ α} {k : α → EStateM ε σ β} {e : ε}

theorem Through.bind (hx : Through f x) (hk : ∀ a, Through f (k a)) : Through f (x >>= k) := by
  intro s
  cases h : x s with
  | ok a s₁ =>
      have hf : x (f s) = .ok a (f s₁) := by rw [hx s, h, mapState_ok]
      rw [bind_of_ok h, bind_of_ok hf, hk a s₁]
  | error e s₁ =>
      have hf : x (f s) = .error e (f s₁) := by rw [hx s, h, mapState_error]
      rw [bind_of_error h, bind_of_error hf, mapState_error]

theorem through_pure (a : α) : Through f (pure a : EStateM ε σ α) := fun _ => rfl

theorem through_throw (e : ε) : Through f (throw e : EStateM ε σ α) := fun _ => rfl

theorem through_modify {g : σ → σ} (h : ∀ s, g (f s) = f (g s)) :
    Through f (modify g : EStateM ε σ Unit) := by
  intro s
  change EStateM.Result.ok () (g (f s)) = EStateM.Result.ok () (f (g s))
  rw [h s]

theorem through_throwIf {p : Prop} [Decidable p] : Through f (throwIf p e : EStateM ε σ Unit) := by
  rw [throwIf]
  split
  · exact through_throw e
  · exact through_pure ()

theorem through_orThrow {o : Option α} : Through f (orThrow o e : EStateM ε σ α) := by
  cases o with
  | none => exact through_throw e
  | some a => exact through_pure a

theorem through_call {r : Except ε α} : Through f (call r : EStateM ε σ α) := by
  cases r with
  | ok a => exact through_pure a
  | error e => exact through_throw e

theorem Through.transaction (hx : Through f x) :
    Through f (transaction (fun before _ => before) x) := by
  intro s
  have hs := hx s
  rw [Foundation.transaction, Foundation.transaction, hs]
  cases x s with
  | ok a s₁ => rfl
  | error e s₁ => rfl

/-! ### What code keeps -/

variable {γ : Type*} {p : σ → γ}

theorem keeps_call {r : Except ε α} : Keeps p (call r : EStateM ε σ α) := by
  cases r with
  | ok a => exact keeps_pure a
  | error e => exact keeps_throw e

theorem Keeps.transaction (hx : Keeps p x) : Keeps p (transaction (fun before _ => before) x) := by
  intro s
  have hs := hx s
  rw [left] at hs ⊢
  rw [Foundation.transaction]
  cases h : x s with
  | ok a s₁ =>
      rw [h] at hs
      exact hs
  | error e s₁ => rfl

/-- What holds after a transaction that returned, and after one that was rolled back. -/
theorem transaction_induction {restore : σ → σ → σ} {P : σ → Prop} {s : σ}
    (hok : ∀ a s', x s = .ok a s' → P s')
    (herror : ∀ e s', x s = .error e s' → P (restore s s')) :
    P (left (Foundation.transaction restore x) s) := by
  rw [left, Foundation.transaction]
  cases h : x s with
  | ok a s' => exact hok a s' h
  | error e s' => exact herror e s' h

/-! ### What code keeps when it throws -/

/-- When the code throws, it leaves `p s` as it was. -/
def KeepsThrowing (p : σ → γ) (x : EStateM ε σ α) : Prop :=
  ∀ s e s', x s = .error e s' → p s' = p s

theorem Keeps.throwing (h : Keeps p x) : KeepsThrowing p x := by
  intro s e s' he
  rw [← left_error he]
  exact h s

theorem KeepsThrowing.bind (hx : Keeps p x) (hk : ∀ a, KeepsThrowing p (k a)) :
    KeepsThrowing p (x >>= k) := by
  intro s e s' h
  rcases bind_error.mp h with h | ⟨a, s₁, hok, h⟩
  · exact hx.throwing s e s' h
  · rw [hk a s₁ e s' h, ← left_ok hok]
    exact hx s

/-- Code that threw after a step that keeps `p s`. -/
theorem Keeps.bind_error (hx : Keeps p x) {s s' : σ} (h : (x >>= k) s = .error e s') :
    p s' = p s ∨ ∃ a s₁, x s = .ok a s₁ ∧ k a s₁ = .error e s' := by
  rcases Foundation.bind_error.mp h with h | h
  · exact .inl (hx.throwing s e s' h)
  · exact .inr h

/-- Code that throws before it writes. -/
theorem KeepsThrowing.returning (hx : KeepsThrowing p x)
    (hk : ∀ a, Throws (fun _ => False) (k a)) : KeepsThrowing p (x >>= k) := by
  intro s e s' h
  rcases bind_error.mp h with h | ⟨a, s₁, -, h⟩
  · exact hx s e s' h
  · exact (hk a s₁ e s' h).elim

theorem keepsThrowing_of_returns (hx : Throws (fun _ => False) x) : KeepsThrowing p x :=
  fun s e s' h => (hx s e s' h).elim

/-- What the code keeps when it throws, and when it returns. -/
theorem KeepsThrowing.keeps (hx : KeepsThrowing p x)
    (hok : ∀ s a s', x s = .ok a s' → p s' = p s) : Keeps p x := by
  intro s
  cases h : x s with
  | ok a s₁ =>
      rw [left_ok h]
      exact hok s a s₁ h
  | error e s₁ =>
      rw [left_error h]
      exact hx s e s₁ h

end

end Foundation
