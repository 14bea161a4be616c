import ZroServices.Foundation.View

/-!
# Foundation — the outcome of an execution

`Outcome x s P E` says that the code `x`, executed in the state `s`, returns with `P`, or throws with
`E`.  There is one equation for each construct, and the outcome of a compound program comes down to
those of its parts by rewriting.  What holds of the state that is left (`left_iff`), and after a
database transaction that is rolled back when the code throws (`left_transaction_iff`), is an
outcome.  `Leads R x` relates what is left to what was there, for a preorder `R`.
-/

namespace Foundation

variable {ε σ α β : Type}

/-- The code returns with `P`, or throws with `E`. -/
def Outcome (x : EStateM ε σ α) (s : σ) (P : α → σ → Prop) (E : ε → σ → Prop) : Prop :=
  match x s with
  | .ok a s' => P a s'
  | .error e s' => E e s'

section

variable {x : EStateM ε σ α} {k : α → EStateM ε σ β} {s s' : σ} {a : α} {e : ε}
  {P P' : α → σ → Prop} {Q : β → σ → Prop} {E E' : ε → σ → Prop}

theorem outcome_of_ok (h : x s = .ok a s') : Outcome x s P E ↔ P a s' := by
  rw [Outcome, h]

theorem outcome_of_error (h : x s = .error e s') : Outcome x s P E ↔ E e s' := by
  rw [Outcome, h]

theorem Outcome.mono (h : Outcome x s P E) (hP : ∀ a s', P a s' → P' a s')
    (hE : ∀ e s', E e s' → E' e s') : Outcome x s P' E' := by
  cases hx : x s with
  | ok a s' => exact (outcome_of_ok hx).mpr (hP a s' ((outcome_of_ok hx).mp h))
  | error e s' => exact (outcome_of_error hx).mpr (hE e s' ((outcome_of_error hx).mp h))

theorem outcome_bind :
    Outcome (x >>= k) s Q E ↔ Outcome x s (fun a s' => Outcome (k a) s' Q E) E := by
  cases hx : x s with
  | ok a s' => rw [outcome_of_ok hx, Outcome, bind_of_ok hx, Outcome]
  | error e s' => rw [outcome_of_error hx, outcome_of_error (bind_of_error hx)]

theorem outcome_pure : Outcome (pure a) s P E ↔ P a s := Iff.rfl

theorem outcome_throw : Outcome (throw e) s P E ↔ E e s := Iff.rfl

theorem outcome_get {P : σ → σ → Prop} : Outcome get s P E ↔ P s s := Iff.rfl

theorem outcome_modify {g : σ → σ} {P : Unit → σ → Prop} :
    Outcome (modify g) s P E ↔ P () (g s) := Iff.rfl

theorem outcome_throwIf {p : Prop} [Decidable p] {P : Unit → σ → Prop} :
    Outcome (throwIf p e) s P E ↔ (p → E e s) ∧ (¬ p → P () s) := by
  by_cases h : p
  · simp [throwIf, h, outcome_throw]
  · simp [throwIf, h, outcome_pure]

theorem outcome_orThrow {o : Option α} :
    Outcome (orThrow o e) s P E ↔ (o = none → E e s) ∧ ∀ a, o = some a → P a s := by
  cases o with
  | none => simp [orThrow, outcome_throw]
  | some a => simp [orThrow, outcome_pure]

theorem outcome_call {r : Except ε α} :
    Outcome (call r) s P E ↔ (∀ e, r = .error e → E e s) ∧ ∀ a, r = .ok a → P a s := by
  cases r with
  | error e => simp [call, outcome_throw]
  | ok a => simp [call, outcome_pure]

/-- The state that is left. -/
theorem left_iff {P : σ → Prop} : P (left x s) ↔ Outcome x s (fun _ => P) fun _ => P := by
  rw [left, Outcome]
  cases x s <;> rfl

/-- The state after a database transaction. -/
theorem left_transaction_iff {restore : σ → σ → σ} {P : σ → Prop} :
    P (left (transaction restore x) s) ↔
      Outcome x s (fun _ => P) fun _ s' => P (restore s s') := by
  rw [left, Outcome, transaction]
  cases x s <;> rfl

/-- A loop whose rounds return exactly where `A` holds.  Every round keeps `p`, and one that returns
does what `g` says. -/
theorem outcome_forM {γ : Type} {A : α → Prop} {p : σ → γ} {g : σ → α → σ}
    {f : α → EStateM ε σ Unit}
    (hf : ∀ a s, Outcome (f a) s (fun _ s' => A a ∧ s' = g s a) fun _ s' => ¬ A a ∧ p s' = p s)
    (hg : ∀ s a, p (g s a) = p s) (l : List α) (s : σ) :
    Outcome (l.forM f) s (fun _ s' => (∀ a ∈ l, A a) ∧ s' = l.foldl g s ∧ p s' = p s)
      fun _ s' => (¬ ∀ a ∈ l, A a) ∧ p s' = p s := by
  induction l generalizing s with
  | nil => exact ⟨fun _ h => absurd h List.not_mem_nil, rfl, rfl⟩
  | cons a l ih =>
      change Outcome (f a >>= fun _ => l.forM f) s _ _
      rw [outcome_bind]
      refine (hf a s).mono ?_ ?_
      · rintro _ s₁ ⟨ha, rfl⟩
        refine (ih (g s a)).mono ?_ ?_
        · rintro _ s' ⟨hl, hs', hp⟩
          exact ⟨List.forall_mem_cons.mpr ⟨ha, hl⟩, hs', hp.trans (hg s a)⟩
        · rintro _ s' ⟨hl, hp⟩
          exact ⟨fun h => hl (List.forall_mem_cons.mp h).2, hp.trans (hg s a)⟩
      · rintro _ s' ⟨ha, hp⟩
        exact ⟨fun h => ha (List.forall_mem_cons.mp h).1, hp⟩

/-! ### A loop that stops at the first throw -/

/-- A loop over a log: the elements up to the first that throws have written. -/
theorem left_forM_log {γ : Type} {throws : α → Bool} {written : α → List γ}
    {f : α → EStateM ε (List γ) Unit}
    (hok : ∀ a log, throws a = false → f a log = .ok () (log ++ written a))
    (herror : ∀ a log, throws a = true → ∃ e, f a log = .error e log)
    (l : List α) (log : List γ) :
    left (l.forM f) log = log ++ (l.takeWhile fun a => !throws a).flatMap written := by
  induction l generalizing log with
  | nil => exact (List.append_nil log).symm
  | cons a l ih =>
      change left (f a >>= fun _ => l.forM f) log = _
      cases h : throws a with
      | false =>
          rw [left_bind_ok (hok a log h), ih, List.takeWhile_cons_of_pos (by rw [h]; rfl),
            List.flatMap_cons, List.append_assoc]
      | true =>
          obtain ⟨e, he⟩ := herror a log h
          rw [left_bind_error he, List.takeWhile_cons_of_neg (by rw [h]; exact Bool.false_ne_true)]
          exact (List.append_nil log).symm

/-- The elements before the first without `p` write all that is to be written, if nothing is to be
written after one without `p`. -/
theorem flatMap_takeWhile_perm_iff {γ : Type} {p : α → Bool} {written : α → List γ}
    (hp : ∀ a, p a = false → written a = []) (l : List α) :
    ((l.takeWhile p).flatMap written).Perm (l.flatMap written) ↔
      l.Pairwise fun a b => p a = false → written b = [] := by
  induction l with
  | nil => exact iff_of_true (List.Perm.refl _) List.Pairwise.nil
  | cons a l ih =>
      rw [List.pairwise_cons, List.flatMap_cons]
      cases h : p a with
      | true =>
          rw [List.takeWhile_cons_of_pos h, List.flatMap_cons, List.perm_append_left_iff, ih]
          exact ⟨fun h' => ⟨fun _ _ e => Bool.noConfusion e, h'⟩, fun h' => h'.2⟩
      | false =>
          rw [List.takeWhile_cons_of_neg (by rw [h]; exact Bool.false_ne_true), List.flatMap_nil,
            hp a h, List.nil_append, List.nil_perm, List.flatMap_eq_nil_iff]
          refine ⟨fun hnone => ⟨fun b hb _ => hnone b hb, ?_⟩, fun h' b hb => h'.1 b hb rfl⟩
          exact List.Pairwise.imp_of_mem (fun _ hb _ _ => hnone _ hb)
            (List.pairwise_of_forall fun _ _ => trivial)

/-! ### From a state to what is left -/

/-- What the code leaves is related by `R` to what it found. -/
def Leads (R : σ → σ → Prop) (x : EStateM ε σ α) : Prop := ∀ s, R s (left x s)

variable {R : σ → σ → Prop}

theorem Leads.bind (htrans : ∀ a b c, R a b → R b c → R a c) (hx : Leads R x)
    (hk : ∀ a, Leads R (k a)) : Leads R (x >>= k) := by
  intro s
  have h := hx s
  cases hrun : x s with
  | ok a s₁ =>
      rw [left_ok hrun] at h
      rw [left_bind_ok hrun]
      exact htrans s s₁ _ h (hk a s₁)
  | error e s₁ =>
      rw [left_error hrun] at h
      rwa [left_bind_error hrun]

/-- Code that leaves the state as it is. -/
theorem leads_of_keeps (hrefl : ∀ a, R a a) (hx : Keeps (fun s => s) x) : Leads R x := by
  intro s
  rw [show left x s = s from hx s]
  exact hrefl s

theorem Leads.forM {l : List α} {f : α → EStateM ε σ Unit} (hrefl : ∀ a, R a a)
    (htrans : ∀ a b c, R a b → R b c → R a c) (hf : ∀ a ∈ l, Leads R (f a)) :
    Leads R (l.forM f) := by
  induction l with
  | nil => exact hrefl
  | cons a l ih =>
      exact (hf a List.mem_cons_self).bind htrans fun _ =>
        ih fun b hb => hf b (List.mem_cons_of_mem a hb)

end

end Foundation
