import Mathlib.Tactic.Common

/-!
# Foundation — stateful code that may throw

Code that reads and writes a state and may throw is a term of `EStateM ε σ`: from a state it ends
with a result or with an exception, and in both cases with the state it leaves.  A throw does not
undo what was written; `transaction` undoes the part of the state that a database transaction
covers.

An execution is read backwards.  `bind_ok` and its companions turn "this code returned" into the
list of its intermediate results, with one fact for every check that was passed, and
`bind_error` turns "this code threw" into the place of the throw.
-/

namespace Foundation

variable {ε σ α β : Type}

/-- Throw when the condition holds. -/
def throwIf (p : Prop) [Decidable p] (e : ε) : EStateM ε σ Unit :=
  if p then throw e else pure ()

/-- The value, or an exception when there is none. -/
def orThrow (o : Option α) (e : ε) : EStateM ε σ α :=
  match o with
  | some a => pure a
  | none => throw e

/-- What a call of another service answers. -/
def call (x : Except ε α) : EStateM ε σ α :=
  match x with
  | .ok a => pure a
  | .error e => throw e

/-- Throw the exception of the first check that holds. -/
def throwFirst (checks : List (Bool × ε)) : EStateM ε σ Unit :=
  match checks.find? (·.1) with
  | some (_, e) => throw e
  | none => pure ()

/-- Run the code on the value, if there is one. -/
def forSome (o : Option α) (f : α → EStateM ε σ β) : EStateM ε σ (Option β) :=
  match o with
  | some a => do
      let b ← f a
      return some b
  | none => return none

/-- Run `cleanup` when `x` throws, and throw on. -/
def onThrow (x : EStateM ε σ α) (cleanup : EStateM ε σ Unit) : EStateM ε σ α :=
  tryCatch x fun e => do
    cleanup
    throw e

/-- Run `x`; when it throws, `restore before after` is the state that is left. -/
def transaction (restore : σ → σ → σ) (x : EStateM ε σ α) : EStateM ε σ α := fun s =>
  match x s with
  | .ok a s' => .ok a s'
  | .error e s' => .error e (restore s s')

section
variable {x : EStateM ε σ α} {f : α → EStateM ε σ β} {s s' : σ} {a : α} {b : β} {e e' : ε}
variable {t : Unit} {o : Option α}

/-! ### Code that returned -/

theorem bind_ok : (x >>= f) s = .ok b s' ↔ ∃ a s₁, x s = .ok a s₁ ∧ f a s₁ = .ok b s' := by
  change EStateM.bind x f s = _ ↔ _
  rw [EStateM.bind]
  cases x s with
  | ok a s₁ => simp
  | error e s₁ => simp

theorem pure_ok {a' : α} : (pure a : EStateM ε σ α) s = .ok a' s' ↔ a' = a ∧ s' = s := by
  change EStateM.Result.ok a s = _ ↔ _
  simp [eq_comm]

theorem throw_ok : ¬ (throw e : EStateM ε σ α) s = .ok a s' := by
  change ¬ EStateM.Result.error e s = _
  simp

theorem get_ok {t : σ} : (get : EStateM ε σ σ) s = .ok t s' ↔ t = s ∧ s' = s := by
  change EStateM.Result.ok s s = _ ↔ _
  simp [eq_comm]

theorem modify_ok {g : σ → σ} : (modify g : EStateM ε σ Unit) s = .ok t s' ↔ s' = g s := by
  change EStateM.Result.ok _ (g s) = _ ↔ _
  simp [eq_comm]

theorem throwIf_ok {p : Prop} [Decidable p] :
    (throwIf p e : EStateM ε σ Unit) s = .ok t s' ↔ ¬ p ∧ s' = s := by
  rw [throwIf]
  by_cases h : p
  · rw [if_pos h]; simp [throw_ok, h]
  · rw [if_neg h, pure_ok]; simp [h]

theorem orThrow_ok : (orThrow o e : EStateM ε σ α) s = .ok a s' ↔ o = some a ∧ s' = s := by
  cases o with
  | none => simp [orThrow, throw_ok]
  | some b => rw [orThrow, pure_ok, Option.some_inj, eq_comm]

theorem call_ok {x : Except ε α} : (call x : EStateM ε σ α) s = .ok a s' ↔ x = .ok a ∧ s' = s := by
  cases x with
  | error e => simp [call, throw_ok]
  | ok b => rw [call, pure_ok, Except.ok.injEq, eq_comm]

theorem throwFirst_ok {checks : List (Bool × ε)} :
    (throwFirst checks : EStateM ε σ Unit) s = .ok t s' ↔
      (∀ c ∈ checks, c.1 = false) ∧ s' = s := by
  rw [throwFirst]
  cases h : checks.find? (·.1) with
  | none =>
      rw [List.find?_eq_none] at h
      rw [pure_ok]
      simp only [true_and, iff_and_self]
      intro _ c hc
      exact Bool.eq_false_iff.mpr (h c hc)
  | some c =>
      have hc := List.find?_some h
      refine iff_of_false throw_ok fun q => ?_
      rw [q.1 c (List.mem_of_find?_eq_some h)] at hc
      cases hc

theorem forSome_ok {r : Option β} :
    forSome o f s = .ok r s' ↔
      (o = none ∧ r = none ∧ s' = s) ∨ ∃ a b, o = some a ∧ r = some b ∧ f a s = .ok b s' := by
  cases o with
  | none => rw [forSome, pure_ok]; simp
  | some a =>
      rw [forSome, bind_ok]
      simp only [pure_ok, reduceCtorEq, false_and, false_or, Option.some.injEq]
      constructor
      · rintro ⟨b, _, h, rfl, rfl⟩
        exact ⟨a, b, rfl, rfl, h⟩
      · rintro ⟨_, b, rfl, rfl, h⟩
        exact ⟨b, s', h, rfl, rfl⟩

theorem onThrow_ok {c : EStateM ε σ Unit} : onThrow x c s = .ok a s' ↔ x s = .ok a s' := by
  change EStateM.tryCatch x _ s = _ ↔ _
  rw [EStateM.tryCatch]
  cases h : x s with
  | ok a s₁ => simp
  | error e s₁ =>
      simp only [reduceCtorEq, iff_false]
      rw [bind_ok]
      rintro ⟨_, _, -, h⟩
      exact throw_ok h

theorem transaction_ok {restore : σ → σ → σ} :
    transaction restore x s = .ok a s' ↔ x s = .ok a s' := by
  rw [transaction]
  cases x s with
  | ok a s₁ => simp
  | error e s₁ => simp

/-! The same for a step and the code after it: no state stands between the two. -/

/-- A check that returns nothing and writes nothing. -/
theorem unit_bind_ok {x : EStateM ε σ Unit} {p : Prop} {f : Unit → EStateM ε σ β}
    (hx : ∀ u s', x s = .ok u s' ↔ p ∧ s' = s) :
    (x >>= f) s = .ok b s' ↔ p ∧ f () s = .ok b s' := by
  rw [bind_ok]
  simp only [hx]
  constructor
  · rintro ⟨_, _, ⟨hp, rfl⟩, h⟩
    exact ⟨hp, h⟩
  · rintro ⟨hp, h⟩
    exact ⟨(), s, ⟨hp, rfl⟩, h⟩

theorem get_bind_ok {f : σ → EStateM ε σ β} : (get >>= f) s = .ok b s' ↔ f s s = .ok b s' := by
  rw [bind_ok]
  simp only [get_ok]
  constructor
  · rintro ⟨_, _, ⟨rfl, rfl⟩, h⟩
    exact h
  · exact fun h => ⟨s, s, ⟨rfl, rfl⟩, h⟩

theorem modify_bind_ok {g : σ → σ} {f : Unit → EStateM ε σ β} :
    (modify g >>= f) s = .ok b s' ↔ f () (g s) = .ok b s' := by
  rw [bind_ok]
  simp only [modify_ok]
  constructor
  · rintro ⟨_, _, rfl, h⟩
    exact h
  · exact fun h => ⟨(), g s, rfl, h⟩

theorem throwIf_bind_ok {p : Prop} [Decidable p] {f : Unit → EStateM ε σ β} :
    (throwIf p e >>= f) s = .ok b s' ↔ ¬ p ∧ f () s = .ok b s' :=
  unit_bind_ok fun _ _ => throwIf_ok

theorem orThrow_bind_ok :
    (orThrow o e >>= f) s = .ok b s' ↔ ∃ a, o = some a ∧ f a s = .ok b s' := by
  rw [bind_ok]
  simp only [orThrow_ok]
  constructor
  · rintro ⟨a, _, ⟨ha, rfl⟩, h⟩
    exact ⟨a, ha, h⟩
  · rintro ⟨a, ha, h⟩
    exact ⟨a, s, ⟨ha, rfl⟩, h⟩

theorem call_bind_ok {x : Except ε α} :
    (call x >>= f) s = .ok b s' ↔ ∃ a, x = .ok a ∧ f a s = .ok b s' := by
  rw [bind_ok]
  simp only [call_ok]
  constructor
  · rintro ⟨a, _, ⟨ha, rfl⟩, h⟩
    exact ⟨a, ha, h⟩
  · rintro ⟨a, ha, h⟩
    exact ⟨a, s, ⟨ha, rfl⟩, h⟩

/-- What every round of a loop that returned keeps, the loop keeps. -/
theorem forM_ok {l : List α} {f : α → EStateM ε σ Unit} {R : σ → σ → Prop}
    (hrefl : ∀ s, R s s) (htrans : ∀ s s₁ s₂, R s s₁ → R s₁ s₂ → R s s₂)
    (hf : ∀ a s s' t, f a s = .ok t s' → R s s') (h : l.forM f s = .ok t s') :
    R s s' := by
  induction l generalizing s with
  | nil =>
      obtain ⟨-, rfl⟩ := pure_ok.mp h
      exact hrefl s'
  | cons a l ih =>
      obtain ⟨t₁, s₁, ha, hl⟩ := bind_ok.mp h
      exact htrans s s₁ s' (hf a s s₁ t₁ ha) (ih hl)

/-- A loop of writes makes the writes one after the other. -/
theorem forM_writes {l : List α} {f : α → EStateM ε σ Unit} {g : σ → α → σ}
    (hf : ∀ a s s' t, f a s = .ok t s' → s' = g s a) (h : l.forM f s = .ok t s') :
    s' = l.foldl g s := by
  induction l generalizing s with
  | nil => exact (pure_ok.mp h).2
  | cons a l ih =>
      obtain ⟨t₁, s₁, ha, hl⟩ := bind_ok.mp h
      obtain rfl := hf a s s₁ t₁ ha
      exact ih hl

/-- A loop that passes over some of its elements. -/
theorem forM_if {l : List α} {p : α → Prop} [DecidablePred p] {f : α → EStateM ε σ Unit} :
    (l.forM fun a => if p a then f a else pure ()) = (l.filter (p ·)).forM f := by
  induction l with
  | nil => rfl
  | cons a l ih =>
      rw [List.forM, ih]
      by_cases h : p a
      · rw [if_pos h, List.filter_cons_of_pos (by simpa using h)]
        rfl
      · rw [if_neg h, List.filter_cons_of_neg (by simpa using h), pure_bind]

/-- Code after a step that returned. -/
theorem bind_of_ok (h : x s = .ok a s') : (x >>= f) s = f a s' := by
  change EStateM.bind x f s = _
  rw [EStateM.bind, h]

/-! ### Code that threw -/

theorem bind_error :
    (x >>= f) s = .error e s' ↔
      x s = .error e s' ∨ ∃ a s₁, x s = .ok a s₁ ∧ f a s₁ = .error e s' := by
  change EStateM.bind x f s = _ ↔ _
  rw [EStateM.bind]
  cases x s with
  | ok a s₁ => simp
  | error e s₁ => simp

/-- Code after a step that threw. -/
theorem bind_of_error (h : x s = .error e s') : (x >>= f) s = .error e s' :=
  bind_error.mpr (Or.inl h)

theorem pure_error : ¬ (pure a : EStateM ε σ α) s = .error e s' := by
  change ¬ EStateM.Result.ok a s = _
  simp

theorem get_error : ¬ (get : EStateM ε σ σ) s = .error e s' := by
  change ¬ EStateM.Result.ok s s = _
  simp

theorem modify_error {g : σ → σ} : ¬ (modify g : EStateM ε σ Unit) s = .error e s' := by
  change ¬ EStateM.Result.ok _ (g s) = _
  simp

theorem throw_error : (throw e : EStateM ε σ α) s = .error e' s' ↔ e' = e ∧ s' = s := by
  change EStateM.Result.error e s = _ ↔ _
  simp [eq_comm]

theorem throwIf_error {p : Prop} [Decidable p] :
    (throwIf p e : EStateM ε σ Unit) s = .error e' s' ↔ p ∧ e' = e ∧ s' = s := by
  rw [throwIf]
  by_cases h : p
  · rw [if_pos h, throw_error]; simp [h]
  · rw [if_neg h]; simp [pure_error, h]

theorem orThrow_error :
    (orThrow o e : EStateM ε σ α) s = .error e' s' ↔ o = none ∧ e' = e ∧ s' = s := by
  cases o with
  | none => rw [orThrow, throw_error]; simp
  | some b => simp [orThrow, pure_error]

theorem throwFirst_error {checks : List (Bool × ε)}
    (h : (throwFirst checks : EStateM ε σ Unit) s = .error e s') :
    ∃ c ∈ checks, c.1 = true ∧ c.2 = e := by
  rw [throwFirst] at h
  cases hf : checks.find? (·.1) with
  | none =>
      rw [hf] at h
      exact absurd h pure_error
  | some c =>
      rw [hf] at h
      exact ⟨c, List.mem_of_find?_eq_some hf, List.find?_some hf, (throw_error.mp h).1.symm⟩

theorem forSome_error : forSome o f s = .error e s' ↔ ∃ a, o = some a ∧ f a s = .error e s' := by
  cases o with
  | none => rw [forSome]; simp [pure_error]
  | some a =>
      rw [forSome, bind_error]
      simp [pure_error]

theorem onThrow_error {c : EStateM ε σ Unit} (h : onThrow x c s = .error e s') :
    ∃ e₀ s₁, x s = .error e₀ s₁ ∧ (c s₁ = .error e s' ∨ e = e₀ ∧ ∃ t, c s₁ = .ok t s') := by
  change EStateM.tryCatch x _ s = _ at h
  rw [EStateM.tryCatch] at h
  cases hx : x s with
  | ok a s₁ => rw [hx] at h; cases h
  | error e₀ s₁ =>
      rw [hx] at h
      refine ⟨e₀, s₁, rfl, ?_⟩
      rcases bind_error.mp h with h | ⟨t, s₂, hc, h⟩
      · exact Or.inl h
      · obtain ⟨rfl, rfl⟩ := throw_error.mp h
        exact Or.inr ⟨rfl, t, hc⟩

theorem transaction_error {restore : σ → σ → σ} (h : transaction restore x s = .error e s') :
    ∃ s₁, x s = .error e s₁ ∧ s' = restore s s₁ := by
  rw [transaction] at h
  cases hx : x s with
  | ok a s₁ => rw [hx] at h; cases h
  | error e₀ s₁ =>
      rw [hx] at h
      cases h
      exact ⟨s₁, rfl, rfl⟩

end

/-! ### Which exceptions are thrown -/

/-- Every exception of the code meets `E`. -/
def Throws (E : ε → Prop) (x : EStateM ε σ α) : Prop := ∀ s e s', x s = .error e s' → E e

section
variable {E : ε → Prop} {x : EStateM ε σ α} {f : α → EStateM ε σ β} {e : ε}

theorem Throws.bind (hx : Throws E x) (hf : ∀ a, Throws E (f a)) : Throws E (x >>= f) := by
  intro s e s' h
  rcases bind_error.mp h with h | ⟨a, s₁, -, h⟩
  · exact hx s e s' h
  · exact hf a s₁ e s' h

theorem throws_pure (a : α) : Throws E (pure a : EStateM ε σ α) := fun _ _ _ h =>
  absurd h pure_error

theorem throws_throw (h : E e) : Throws E (throw e : EStateM ε σ α) := by
  intro s e' s' he
  rw [(throw_error.mp he).1]
  exact h

theorem throws_modify (g : σ → σ) : Throws E (modify g : EStateM ε σ Unit) := fun _ _ _ h =>
  absurd h modify_error

theorem throws_get : Throws E (get : EStateM ε σ σ) := fun _ _ _ h => absurd h get_error

theorem throws_throwIf {p : Prop} [Decidable p] (h : E e) :
    Throws E (throwIf p e : EStateM ε σ Unit) := by
  intro s e' s' he
  rw [(throwIf_error.mp he).2.1]
  exact h

theorem throws_orThrow {o : Option α} (h : E e) : Throws E (orThrow o e : EStateM ε σ α) := by
  intro s e' s' he
  rw [(orThrow_error.mp he).2.1]
  exact h

theorem Throws.forSome {o : Option α} (hf : ∀ a, Throws E (f a)) : Throws E (forSome o f) := by
  intro s e s' he
  obtain ⟨a, -, he⟩ := forSome_error.mp he
  exact hf a s e s' he

end

/-! ### What code leaves -/

/-- The state that the code leaves, whether it returns or throws. -/
def left (x : EStateM ε σ α) (s : σ) : σ :=
  match x s with
  | .ok _ s' => s'
  | .error _ s' => s'

/-- The code leaves `p s` as it is, whether it returns or throws. -/
def Keeps {γ : Type*} (p : σ → γ) (x : EStateM ε σ α) : Prop := ∀ s, p (left x s) = p s

section
variable {γ : Type*} {p : σ → γ} {x : EStateM ε σ α} {f : α → EStateM ε σ β} {s s' : σ} {a : α}
  {e : ε}

theorem left_ok (h : x s = .ok a s') : left x s = s' := by rw [left, h]

theorem left_error (h : x s = .error e s') : left x s = s' := by rw [left, h]

theorem left_bind_ok (h : x s = .ok a s') : left (x >>= f) s = left (f a) s' := by
  rw [left, bind_of_ok h, left]

theorem left_bind_error (h : x s = .error e s') : left (x >>= f) s = s' :=
  left_error (bind_of_error h)

theorem left_throwIf_bind {q : Prop} [Decidable q] {f : Unit → EStateM ε σ β} :
    left (throwIf q e >>= f) s = if q then s else left (f ()) s := by
  by_cases h : q
  · rw [throwIf, if_pos h, if_pos h]
    rfl
  · rw [throwIf, if_neg h, if_neg h]
    rfl

theorem Keeps.bind (hx : Keeps p x) (hf : ∀ a, Keeps p (f a)) : Keeps p (x >>= f) := by
  intro s
  cases h : x s with
  | ok a s₁ => rw [left_bind_ok h, hf a s₁, ← left_ok h, hx s]
  | error e s₁ => rw [left_bind_error h, ← left_error h, hx s]

theorem keeps_pure (a : α) : Keeps p (pure a : EStateM ε σ α) := fun _ => rfl

theorem keeps_throw (e : ε) : Keeps p (throw e : EStateM ε σ α) := fun _ => rfl

theorem keeps_get : Keeps p (get : EStateM ε σ σ) := fun _ => rfl

theorem keeps_modify {g : σ → σ} (h : ∀ s, p (g s) = p s) :
    Keeps p (modify g : EStateM ε σ Unit) := h

theorem keeps_throwIf {q : Prop} [Decidable q] : Keeps p (throwIf q e : EStateM ε σ Unit) := by
  rw [throwIf]
  split
  · exact keeps_throw e
  · exact keeps_pure ()

theorem keeps_orThrow {o : Option α} : Keeps p (orThrow o e : EStateM ε σ α) := by
  cases o with
  | none => exact keeps_throw e
  | some a => exact keeps_pure a

theorem Keeps.forM {l : List α} {f : α → EStateM ε σ Unit} (hf : ∀ a, Keeps p (f a)) :
    Keeps p (l.forM f) := by
  induction l with
  | nil => exact keeps_pure ()
  | cons a l ih => exact (hf a).bind fun _ => ih

theorem Keeps.tryCatch {handler : ε → EStateM ε σ α} (hx : Keeps p x)
    (hh : ∀ e, Keeps p (handler e)) : Keeps p (tryCatch x handler) := by
  intro s
  change p (left (EStateM.tryCatch x handler) s) = p s
  cases h : x s with
  | ok a s₁ =>
      have e : EStateM.tryCatch x handler s = .ok a s₁ := by rw [EStateM.tryCatch, h]
      rw [left_ok e, ← left_ok h, hx s]
  | error e s₁ =>
      have he : left (EStateM.tryCatch x handler) s = left (handler e) s₁ := by
        rw [left, left, EStateM.tryCatch, h]
        rfl
      rw [he, hh e s₁, ← left_error h, hx s]

end

/-! ### One step of an execution -/

section
variable {f : α → EStateM ε σ β} {g : σ → σ} {s : σ} {a : α} {e : ε}

theorem pure_bind_apply : ((pure a : EStateM ε σ α) >>= f) s = f a s := rfl

theorem get_bind_apply {f : σ → EStateM ε σ β} : (get >>= f) s = f s s := rfl

theorem modify_bind_apply {f : Unit → EStateM ε σ β} : (modify g >>= f) s = f () (g s) := rfl

theorem some_bind_apply : (orThrow (some a) e >>= f) s = f a s := rfl

theorem none_bind_apply : (orThrow none e >>= f) s = .error e s := rfl

theorem throwIf_bind_apply {p : Prop} [Decidable p] {f : Unit → EStateM ε σ β} :
    (throwIf p e >>= f) s = if p then .error e s else f () s := by
  by_cases h : p
  · rw [throwIf, if_pos h, if_pos h]
    rfl
  · rw [throwIf, if_neg h, if_neg h]
    rfl

theorem call_bind_apply {x : Except ε α} :
    (call x >>= f) s =
      match x with
      | .ok a => f a s
      | .error e => .error e s := by
  cases x <;> rfl

end

/-! ### Concrete executions -/

/-- What the code returns from `s`, if it returns. -/
def returned (x : EStateM ε σ α) (s : σ) : Option α :=
  match x s with
  | .ok a _ => some a
  | .error _ _ => none

theorem returned_eq_some {x : EStateM ε σ α} {s : σ} {a : α} :
    returned x s = some a ↔ ∃ s', x s = .ok a s' := by
  rw [returned]
  cases h : x s with
  | ok b s' => simp
  | error e s' => simp

/-- The code returns from `s`, and the state it leaves meets `p`. -/
def Returns (x : EStateM ε σ α) (s : σ) (p : σ → Prop) : Prop := ∃ a s', x s = .ok a s' ∧ p s'

instance Returns.decidable (x : EStateM ε σ α) (s : σ) (p : σ → Prop) [DecidablePred p] :
    Decidable (Returns x s p) :=
  match h : x s with
  | .ok a s' => decidable_of_iff (p s')
      ⟨fun hp => ⟨a, s', h, hp⟩, fun ⟨_, _, h', hp⟩ => by
        rw [h] at h'
        cases h'
        exact hp⟩
  | .error _ _ => .isFalse fun ⟨_, _, h', _⟩ => by
      rw [h] at h'
      cases h'

/-- The code throws `e` from `s`. -/
def Fails (x : EStateM ε σ α) (s : σ) (e : ε) : Prop := ∃ s', x s = .error e s'

instance Fails.decidable [DecidableEq ε] (x : EStateM ε σ α) (s : σ) (e : ε) :
    Decidable (Fails x s e) :=
  match h : x s with
  | .ok _ _ => .isFalse fun ⟨_, h'⟩ => by
      rw [h] at h'
      cases h'
  | .error e' s' => decidable_of_iff (e' = e)
      ⟨fun he => ⟨s', he ▸ h⟩, fun ⟨_, h'⟩ => by
        rw [h] at h'
        cases h'
        rfl⟩

/-! ### Code without a state -/

/-- Throw when the condition holds. -/
def check (p : Prop) [Decidable p] (e : ε) : Except ε Unit := if p then .error e else .ok ()

theorem check_eq_ok {p : Prop} [Decidable p] {e : ε} {u : Unit} : check p e = .ok u ↔ ¬ p := by
  rw [check]
  split
  · exact iff_of_false (by simp) (not_not_intro ‹p›)
  · exact iff_of_true rfl ‹¬ p›

theorem bind_eq_ok {x : Except ε α} {f : α → Except ε β} {b : β} :
    (x >>= f) = .ok b ↔ ∃ a, x = .ok a ∧ f a = .ok b := by
  cases x <;> simp [bind, Except.bind]

theorem bind_eq_error {x : Except ε α} {f : α → Except ε β} {e : ε} :
    (x >>= f) = .error e ↔ x = .error e ∨ ∃ a, x = .ok a ∧ f a = .error e := by
  cases x <;> simp [bind, Except.bind]

end Foundation
