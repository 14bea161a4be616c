import ZroServices.Foundation.Ledger
import ZroServices.Operations.System

/-!
# Operations — conservation of money

The database as a ledger with holds: the balance of a wallet account is what is available on it,
its pending amount is what is held, and the operations are the entries, held while PENDING,
settled when ACCEPTED and cancelled otherwise.

Every change of the service is a move of that ledger, or does not touch it (`Change.ledger`), so
the ledger is balanced after every run.
-/

namespace ZroServices

open Foundation
open CreateOperationUseCase AcceptOperationUseCase RevertOperationUseCase
open HandleRevertedOperationEventUseCase

/-- The state of an operation as the status of an entry. -/
def OperationState.status : OperationState → Status
  | .PENDING => .held
  | .ACCEPTED => .settled
  | .DECLINED | .UNDONE | .REVERTED => .cancelled

/-- An operation as an entry. -/
def Operation.entry (o : Operation) : Entry WalletAccountId ℤ where
  debit := o.owner.map (·.walletAccount)
  credit := o.beneficiary.map (·.walletAccount)
  amount := o.value
  status := o.state.status

namespace Db

/-- An amount of a wallet account; `0` for an account that is not there. -/
def amountOf (f : WalletAccount → ℤ) (t : Table WalletAccount) (id : WalletAccountId) : ℤ :=
  ((t.get? id).map f).getD 0

/-- The database as a ledger. -/
def ledger (db : Db) : Ledger WalletAccountId ℤ where
  available := amountOf (·.balance) db.walletAccounts
  held := amountOf (·.pendingAmount) db.walletAccounts
  entries := db.operations.rows.map (·.entry)

/-- What the values of the operations that satisfy `p` add up to. -/
def valueOf (db : Db) (p : Operation → Prop) [DecidablePred p] : ℤ :=
  db.operations.total fun o => if p o then o.value else 0

end Db

section
variable {t : Table WalletAccount} {a : WalletAccount} {id : WalletAccountId}
  {f : WalletAccount → ℤ}

/-- Writing a wallet account adds the difference to its amount, and to no other. -/
theorem amountOf_set (a' : WalletAccount) (ha : t.get? id = some a) (hid : a'.id = id) :
    Db.amountOf f (t.set a') = credited (Db.amountOf f t) (some id) (f a' - f a) := by
  funext k
  rw [Db.amountOf, credited, Db.amountOf, Table.get?_set, WalletAccount.key_eq, hid]
  by_cases h : id = k
  · subst h
    simp [ha]
  · simp [h]

theorem amountOf_set_self (a' : WalletAccount) (ha : t.get? id = some a) (hid : a'.id = id)
    (hf : f a' = f a) :
    Db.amountOf f (t.set a') = Db.amountOf f t := by
  rw [amountOf_set a' ha hid, hf, sub_self]
  funext k
  simp [credited]

end

/-- Replacing an operation by one with the same entry does not change the entries. -/
theorem entries_set {t : Table Operation} {o : Operation} (o' : Operation)
    (ho : t.get? o.id = some o)
    (hid : o'.id = o.id) (he : o'.entry = o.entry) :
    (t.set o').rows.map (·.entry) = t.rows.map (·.entry) := by
  obtain ⟨pre, post, e, hset⟩ := Table.set_split ho
  rw [hset o' hid, e]
  simp [he]

theorem entries_withAnalysisTags (t : Table Operation) (id : Uuid)
    (tags : List OperationAnalysisTag) :
    (OperationRepository.withAnalysisTags t id tags).rows.map (·.entry)
      = t.rows.map (·.entry) := by
  rw [OperationRepository.withAnalysisTags]
  cases h : t.get? id with
  | none => rfl
  | some o =>
      obtain rfl : o.id = id := Table.key_of_get? h
      exact entries_set (o := o) { o with analysisTags := tags } h rfl rfl

/-! ### Moving the amounts of one side -/

section
variable {t t' : Table WalletAccount} {p : Option Party} {f : WalletAccount → WalletAccount}
  {g : WalletAccount → ℤ} {v : ℤ}

theorem Settle.Moved.amountOf (h : Settle.Moved t f p t') (hid : ∀ a, (f a).id = a.id)
    (hg : ∀ a, g (f a) - g a = v) :
    Db.amountOf g t' = credited (Db.amountOf g t) (p.map (·.walletAccount)) v := by
  cases h with
  | none => exact (credited_none _ _).symm
  | some p a ha _ =>
      rw [amountOf_set (f a) ha ((hid a).trans (Table.key_of_get? ha)), hg]
      rfl

theorem Settle.Moved.amountOf_same (h : Settle.Moved t f p t') (hid : ∀ a, (f a).id = a.id)
    (hg : ∀ a, g (f a) = g a) : Db.amountOf g t' = Db.amountOf g t := by
  cases h with
  | none => rfl
  | some p a ha _ =>
      exact amountOf_set_self (f a) ha ((hid a).trans (Table.key_of_get? ha)) (hg a)

end

/-! ### Every change is a move -/

section
variable {env : Env} {now : ℤ} {db db' : Db} {tt : TransactionType} {i : OperationInfo}

/-- Storing an operation opens an entry. -/
theorem Opening.ledger {t : Table Operation} (h : Opening env now tt db i)
    (hins : db.operations.insert? (i.operation env now tt) = some t) :
    Ledger.Step db.ledger (i.store env now t db).ledger := by
  have entries : t.rows.map (·.entry) = db.operations.rows.map (·.entry)
      ++ [(i.operation env now tt).entry] := by
    rw [(Table.insert?_eq_some hins).2, List.map_append, List.map_singleton]
  have held : (i.operation env now tt).entry.status = .held := by
    simp [Operation.entry, OperationState.status]
  have accounts : Db.amountOf (·.balance) (i.walletAccounts db.walletAccounts)
        = credited (Db.amountOf (·.balance) db.walletAccounts)
            (i.operation env now tt).entry.debit (-(i.operation env now tt).entry.amount) ∧
      Db.amountOf (·.pendingAmount) (i.walletAccounts db.walletAccounts)
        = credited (Db.amountOf (·.pendingAmount) db.walletAccounts)
            (i.operation env now tt).entry.debit (i.operation env now tt).entry.amount := by
    simp only [Operation.entry, OperationInfo.operation_owner, OperationInfo.operation_value,
      OperationInfo.walletAccounts]
    cases ho : i.ownerSide with
    | none => exact ⟨(credited_none _ _).symm, (credited_none _ _).symm⟩
    | some o =>
        obtain ⟨ha, -⟩ := h.owner o ho
        constructor
        · change Db.amountOf _ (db.walletAccounts.set (blocked i.value o.walletAccount)) = _
          rw [amountOf_set (blocked i.value o.walletAccount) ha rfl]
          exact congrArg _ (sub_sub_cancel_left o.walletAccount.balance i.value)
        · change Db.amountOf _ (db.walletAccounts.set (blocked i.value o.walletAccount)) = _
          rw [amountOf_set (blocked i.value o.walletAccount) ha rfl]
          exact congrArg _ (add_sub_cancel_left o.walletAccount.pendingAmount i.value)
  have := Ledger.Step.hold db.ledger (i.operation env now tt).entry held
  convert this using 1
  rw [Db.ledger, Ledger.mk.injEq]
  exact ⟨accounts.1, accounts.2, entries⟩

theorem Accepted.ledger {o : Operation} (h : Accepted db o db') :
    Ledger.Step db.ledger db'.ledger := by
  obtain ⟨t, t', ts, es, ht, ht', -, rfl⟩ := h.written
  obtain ⟨pre, post, e, hset⟩ := Table.set_split h.found
  have held : o.entry.status = .held := by
    simp [Operation.entry, h.pending, OperationState.status]
  have := Ledger.Step.settle db.ledger (pre.map (·.entry)) (post.map (·.entry)) o.entry
    (by simp [Db.ledger, e]) held
  convert this using 1
  rw [Db.ledger, Ledger.mk.injEq]
  refine ⟨?_, ?_, ?_⟩
  · refine (ht'.amountOf (fun _ => rfl) fun a => ?_).trans
      (congrArg (credited · _ _) (ht.amountOf_same (fun _ => rfl) fun _ => rfl))
    exact add_sub_cancel_left a.balance o.value
  · refine (ht'.amountOf_same (fun _ => rfl) fun _ => rfl).trans
      (ht.amountOf (fun _ => rfl) fun a => ?_)
    exact sub_sub_cancel_left a.pendingAmount o.value
  · change ((db.operations.set (accepted o)).rows.map _) = _
    rw [hset (accepted o) rfl]
    simp [Operation.entry, accepted, OperationState.status]

theorem Reverted.ledger {o : Operation} (h : Reverted now db o db') :
    Ledger.Step db.ledger db'.ledger := by
  obtain ⟨t, event, ht, -, rfl⟩ := h.written
  obtain ⟨pre, post, e, hset⟩ := Table.set_split h.found
  have held : o.entry.status = .held := by
    simp [Operation.entry, h.pending, OperationState.status]
  have := Ledger.Step.cancel db.ledger (pre.map (·.entry)) (post.map (·.entry)) o.entry
    (by simp [Db.ledger, e]) held
  convert this using 1
  rw [Db.ledger, Ledger.mk.injEq]
  refine ⟨ht.amountOf (fun _ => rfl) fun a => add_sub_cancel_left a.balance o.value,
    ht.amountOf (fun _ => rfl) fun a => sub_sub_cancel_left a.pendingAmount o.value, ?_⟩
  change ((db.operations.set (reverted now o)).rows.map _) = _
  rw [hset (reverted now o) rfl]
  simp [Operation.entry, reverted, OperationState.status]

/-- **The service refines the ledger**: every change is a move of it, or does not touch it. -/
theorem Change.ledger (h : Change env now db db') :
    db'.ledger = db.ledger ∨ Ledger.Step db.ledger db'.ledger := by
  cases h with
  | limitCreated h =>
      left
      rw [Db.ledger, h.walletAccounts, h.operations]
      rfl
  | opened tt i t h hins => exact Or.inr (h.ledger hins)
  | linked o other h =>
      left
      change Ledger.mk _ _ _ = Ledger.mk _ _ _
      exact congrArg _ (entries_set (CreateOperationUseCase.linked o other) h rfl rfl)
  | sent => exact Or.inl rfl
  | accepted o h => exact Or.inr (Accepted.ledger h)
  | reverted o h => exact Or.inr (Reverted.ledger h)
  | delivered n h =>
      left
      cases h with
      | dropped => rfl
      | given o b c he htags h =>
          rw [Db.ledger, Db.ledger]
          congr 1
          exact entries_withAnalysisTags db.operations o.item.id []

/-- No change opens or closes a wallet account. -/
theorem Change.walletAccountIds (h : Change env now db db') :
    db'.walletAccounts.rows.map (·.id) = db.walletAccounts.rows.map (·.id) := by
  have moved : ∀ {t t' : Table WalletAccount} {f : WalletAccount → WalletAccount}
      {p : Option Party}, Settle.Moved t f p t' →
      t'.rows.map (·.id) = t.rows.map (·.id) := by
    intro t t' f p hm
    cases hm with
    | none => rfl
    | some p a => exact Table.map_key_set t (f a)
  cases h with
  | limitCreated h => rw [h.walletAccounts]
  | opened tt i t h hins =>
      change (i.walletAccounts db.walletAccounts).rows.map _ = _
      rw [OperationInfo.walletAccounts]
      cases i.ownerSide with
      | none => rfl
      | some o => exact Table.map_key_set _ _
  | linked | sent => rfl
  | delivered n h => cases h <;> rfl
  | accepted o h =>
      obtain ⟨t, t', ts, es, ht, ht', -, rfl⟩ := h.written
      exact (moved ht').trans (moved ht)
  | reverted o h =>
      obtain ⟨t, event, ht, -, rfl⟩ := h.written
      exact moved ht

end

/-! ### Runs -/

/-- What `db` has on every wallet account is what `db₀` had and what the operations did. -/
structure Conserved (db₀ db : Db) : Prop where
  ids : db.walletAccounts.rows.map (·.id) = db₀.walletAccounts.rows.map (·.id)
  pending : ∀ a ∈ db.walletAccounts.rows, a.pendingAmount = db.valueOf fun o =>
    o.state = .PENDING ∧ o.owner.map (·.walletAccount) = some a.id
  owned : ∀ a₀ ∈ db₀.walletAccounts.rows, ∀ a ∈ db.walletAccounts.rows, a.id = a₀.id →
    a.balance + a.pendingAmount = a₀.balance
      + (db.valueOf fun o =>
          o.state = .ACCEPTED ∧ o.beneficiary.map (·.walletAccount) = some a.id)
      - db.valueOf fun o => o.state = .ACCEPTED ∧ o.owner.map (·.walletAccount) = some a.id

namespace Db

variable {db : Db} {id : WalletAccountId}

theorem amountOf_of_mem {f : WalletAccount → ℤ} {t : Table WalletAccount} {a : WalletAccount}
    (h : a ∈ t.rows) : amountOf f t a.id = f a := by
  have := Table.get?_of_mem h
  rw [WalletAccount.key_eq] at this
  rw [amountOf, this]
  rfl

/-- What the entries hold on an account is the value of its owner's pending operations. -/
theorem entries_holds : (db.ledger.entries.map (Entry.holds id)).sum = db.valueOf fun o =>
    o.state = .PENDING ∧ o.owner.map (·.walletAccount) = some id := by
  rw [ledger, List.map_map, valueOf, Table.total]
  refine congrArg List.sum (List.map_congr_left fun o _ => ?_)
  have status : o.state.status = .held ↔ o.state = .PENDING := by cases o.state <;> decide
  simp only [Function.comp, Entry.holds, Operation.entry, status]

/-- What the entries moved is the value of the accepted operations, in and out. -/
theorem entries_moved : (db.ledger.entries.map (Entry.moved id)).sum =
    (db.valueOf fun o =>
        o.state = .ACCEPTED ∧ o.beneficiary.map (·.walletAccount) = some id)
      - db.valueOf fun o => o.state = .ACCEPTED ∧ o.owner.map (·.walletAccount) = some id := by
  rw [ledger, List.map_map, valueOf, valueOf, ← Table.total_sub, Table.total]
  refine congrArg List.sum (List.map_congr_left fun o _ => ?_)
  have status : o.state.status = .settled ↔ o.state = .ACCEPTED := by cases o.state <;> decide
  simp only [Function.comp, Entry.moved, Operation.entry, status]
  by_cases h : o.state = .ACCEPTED
  · simp only [h, if_true, true_and]
    congr
  · simp only [h, if_false, false_and, sub_self]

end Db

/-- A database whose ledger is balanced conserves the money. -/
theorem conserved_of_balanced {db₀ db : Db}
    (hids : db.walletAccounts.rows.map (·.id) = db₀.walletAccounts.rows.map (·.id))
    (h : Ledger.Balanced (Db.amountOf (·.balance) db₀.walletAccounts) db.ledger) :
    Conserved db₀ db where
  ids := hids
  pending a ha := by
    have := h.held a.id
    rw [Db.entries_holds] at this
    rw [← this]
    exact (Db.amountOf_of_mem ha).symm
  owned a₀ ha₀ a ha hid := by
    have owned := h.owned a.id
    rw [Db.entries_moved, hid, Db.amountOf_of_mem ha₀, ← hid] at owned
    have balance : db.ledger.available a.id = a.balance := Db.amountOf_of_mem ha
    have pending : db.ledger.held a.id = a.pendingAmount := Db.amountOf_of_mem ha
    rw [balance, pending] at owned
    rw [owned]
    abel

/-- Without operations and pending amounts, the ledger is a new one. -/
theorem balanced_start {db : Db} (hops : db.operations.rows = [])
    (hpending : ∀ a ∈ db.walletAccounts.rows, a.pendingAmount = 0) :
    Ledger.Balanced (Db.amountOf (·.balance) db.walletAccounts) db.ledger := by
  have held : Db.amountOf (·.pendingAmount) db.walletAccounts = fun _ => 0 := by
    funext id
    rw [Db.amountOf]
    cases h : db.walletAccounts.get? id with
    | none => rfl
    | some a => exact hpending a (Table.mem_of_get? h)
  rw [Db.ledger, held, hops]
  exact Ledger.balanced_new _

/-- **Money is conserved over every run.** -/
theorem run_conserved (env : Env) (s : State) (ls : List (ℤ × Command))
    (hops : s.world.db.operations.rows = [])
    (hpending : ∀ a ∈ s.world.db.walletAccounts.rows, a.pendingAmount = 0) :
    Conserved s.world.db (run (step env) s ls).world.db := by
  let I : Db → Prop := fun db =>
    db.walletAccounts.rows.map (·.id) = s.world.db.walletAccounts.rows.map (·.id) ∧
      Ledger.Balanced (Db.amountOf (·.balance) s.world.db.walletAccounts) db.ledger
  have change : ∀ now db db', Change env now db db' → I db → I db' := by
    rintro now db db' h ⟨hids, hb⟩
    refine ⟨h.walletAccountIds.trans hids, ?_⟩
    rcases h.ledger with e | hstep
    · rw [e]; exact hb
    · exact hstep.balanced hb
  have start : I s.world.db := ⟨rfl, balanced_start hops hpending⟩
  obtain ⟨hids, hb⟩ := run_invariant (I := fun s => I s.world.db)
    (fun s l h => (step_changes s l).invariant (change l.1) h) start ls
  exact conserved_of_balanced hids hb

/-- A transfer that is accepted, and an operation that is reverted. -/
theorem run_conserved_sample :
    let s := run (step (Sample.env .DATE)) (Sample.start 1000 0)
      [(Sample.noon, Sample.transfer 1 300), (Sample.noon, .accept 1),
        (Sample.noon, Sample.send 2 200), (Sample.noon, .revert 2)]
    s.world.db.operations.rows.map (·.state) = [.ACCEPTED, .REVERTED] ∧
      Conserved (Sample.start 1000 0).world.db s.world.db :=
  ⟨by decide +kernel, run_conserved (Sample.env .DATE) (Sample.start 1000 0) _ rfl (by decide)⟩

end ZroServices
