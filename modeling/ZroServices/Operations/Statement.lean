import ZroServices.Operations.Conservation

/-!
# Operations — the statement of a wallet account

The wallet account transactions of an account, in the order they were written, chain: each starts
where the one before ended, and adds or subtracts its value (`Chains`).  They are only written when
an operation is accepted, from what the account has in all, its balance and its pending amount.
That sum is what the other commands leave as it is: blocking a value and giving it back move it
between the two.  So the last row ends at what the account has now (`statement_chains`).
-/

namespace ZroServices

open Foundation
open CreateOperationUseCase AcceptOperationUseCase RevertOperationUseCase

namespace WalletAccountTransaction

/-- The value, with the sign of the transaction type. -/
def signedValue (t : WalletAccountTransaction) : ℤ :=
  match t.transactionType with
  | .CREDIT => t.value
  | .DEBIT => -t.value

/-- The rows lead from one amount to another, each from where the one before ended. -/
def Chains : ℤ → List WalletAccountTransaction → ℤ → Prop
  | x, [], y => x = y
  | x, t :: ts, y =>
      t.previousBalance = x ∧ t.updatedBalance = x + t.signedValue ∧ Chains t.updatedBalance ts y

instance decidableChains : ∀ (x : ℤ) (ts : List WalletAccountTransaction) (y : ℤ),
    Decidable (Chains x ts y)
  | x, [], y => inferInstanceAs (Decidable (x = y))
  | _, t :: ts, y =>
      have := decidableChains t.updatedBalance ts y
      inferInstanceAs (Decidable (_ ∧ _ ∧ Chains t.updatedBalance ts y))

theorem Chains.append {x y z : ℤ} {ts ts' : List WalletAccountTransaction} (h : Chains x ts y)
    (h' : Chains y ts' z) : Chains x (ts ++ ts') z := by
  induction ts generalizing x with
  | nil =>
      obtain rfl : x = y := h
      exact h'
  | cons t ts ih =>
      obtain ⟨hprevious, hupdated, hrest⟩ := h
      exact ⟨hprevious, hupdated, ih hrest⟩

end WalletAccountTransaction

open WalletAccountTransaction (Chains)

/-- What a wallet account has, available and pending. -/
def WalletAccount.total (a : WalletAccount) : ℤ := a.balance + a.pendingAmount

/-- The statement of a wallet account. -/
def statementOf (id : WalletAccountId) (ts : List WalletAccountTransaction) :
    List WalletAccountTransaction := ts.filter fun t => decide (t.walletAccount = id)

section
variable {env : Env} {now : ℤ} {db db' : Db} {id : WalletAccountId} {t t' : Table WalletAccount}
  {o : Operation} {p : Option Party} {ts : List WalletAccountTransaction} {x₀ : ℤ}

theorem statementOf_append (ts ts' : List WalletAccountTransaction) :
    statementOf id (ts ++ ts') = statementOf id ts ++ statementOf id ts' :=
  List.filter_append ts ts'

theorem statementOf_eq_nil (h : ∀ r ∈ ts, r.walletAccount ≠ id) : statementOf id ts = [] := by
  rw [statementOf, List.filter_eq_nil_iff]
  intro r hr
  rw [decide_eq_true_eq]
  exact h r hr

/-- Blocking the value of a new operation leaves what the accounts have. -/
theorem total_opened {i : OperationInfo}
    (h : ∀ o, i.ownerSide = some o → t.get? o.walletAccount.id = some o.walletAccount) :
    Db.amountOf (·.total) (i.walletAccounts t) = Db.amountOf (·.total) t := by
  rw [OperationInfo.walletAccounts]
  cases ho : i.ownerSide with
  | none => rfl
  | some o =>
      refine amountOf_set_self (blocked i.value o.walletAccount) (h o ho) rfl ?_
      change o.walletAccount.balance - i.value + (o.walletAccount.pendingAmount + i.value)
        = o.walletAccount.balance + o.walletAccount.pendingAmount
      omega

/-- A recorded side adds a row that leads from the account's total to the new one. -/
theorem chains_recorded {f : WalletAccount → WalletAccount}
    {row : WalletAccount → WalletAccountTransaction} (h : Settle.Recorded t f row p t' ts)
    (hid : ∀ a, (f a).id = a.id) (hrow : ∀ a, (row a).walletAccount = a.id)
    (hprevious : ∀ a, (row a).previousBalance = a.total)
    (hupdated : ∀ a, (row a).updatedBalance = a.total + (row a).signedValue)
    (htotal : ∀ a, (f a).total = (row a).updatedBalance) (id : WalletAccountId) :
    Chains (Db.amountOf (·.total) t id) (statementOf id ts) (Db.amountOf (·.total) t' id) := by
  cases h with
  | none => exact rfl
  | some p a ha _ =>
      have haid : a.id = p.walletAccount := Table.key_of_get? ha
      by_cases e : p.walletAccount = id
      · subst e
        have hmine : statementOf p.walletAccount [row a] = [row a] := by
          rw [statementOf, List.filter_singleton, decide_eq_true ((hrow a).trans haid)]
          rfl
        have before : Db.amountOf (·.total) t p.walletAccount = a.total := by
          rw [Db.amountOf, ha]
          rfl
        have after : Db.amountOf (·.total) (t.set (f a)) p.walletAccount = (f a).total := by
          rw [Db.amountOf, Table.get?_set_self ha ((hid a).trans haid)]
          rfl
        rw [hmine, before, after]
        exact ⟨hprevious a, hupdated a, (htotal a).symm⟩
      · have hother : statementOf id [row a] = [] := by
          refine statementOf_eq_nil fun r hr => ?_
          rw [List.mem_singleton.mp hr, hrow, haid]
          exact e
        have same : Db.amountOf (·.total) (t.set (f a)) id = Db.amountOf (·.total) t id := by
          rw [Db.amountOf, Table.get?_set_ne, Db.amountOf]
          rw [WalletAccount.key_eq, hid, haid]
          exact e
        rw [hother, same]
        exact rfl

theorem chains_debit
    (h : Settle.Recorded t (debit o) (debitTransaction o) p t' ts) (id : WalletAccountId) :
    Chains (Db.amountOf (·.total) t id) (statementOf id ts) (Db.amountOf (·.total) t' id) := by
  refine chains_recorded h (fun _ => rfl) (fun _ => rfl) (fun _ => rfl) (fun a => ?_)
    (fun a => ?_) id
  · exact sub_eq_add_neg _ _
  · change a.balance + (a.pendingAmount - o.value) = a.balance + a.pendingAmount - o.value
    omega

theorem chains_credit
    (h : Settle.Recorded t (credit o) (creditTransaction o) p t' ts) (id : WalletAccountId) :
    Chains (Db.amountOf (·.total) t id) (statementOf id ts) (Db.amountOf (·.total) t' id) := by
  refine chains_recorded h (fun _ => rfl) (fun _ => rfl) (fun _ => rfl) (fun _ => rfl)
    (fun a => ?_) id
  change a.balance + o.value + a.pendingAmount = a.balance + a.pendingAmount + o.value
  omega

/-- The statement of an account leads from an amount to what the account has. -/
def Stated (x₀ : ℤ) (id : WalletAccountId) (db : Db) : Prop :=
  Chains x₀ (statementOf id db.walletAccountTransactions)
    (Db.amountOf (·.total) db.walletAccounts id)

/-- What leaves the rows and the totals, leaves the statement. -/
theorem Stated.of_eq (h : Stated x₀ id db)
    (hrows : db'.walletAccountTransactions = db.walletAccountTransactions)
    (htotal : Db.amountOf (·.total) db'.walletAccounts = Db.amountOf (·.total) db.walletAccounts) :
    Stated x₀ id db' := by
  rw [Stated, hrows, htotal]
  exact h

/-- **Every change keeps the statement.** -/
theorem Change.stated (hc : Change env now db db') (h : Stated x₀ id db) : Stated x₀ id db' := by
  cases hc with
  | limitCreated hl =>
      refine h.of_eq ?_ ?_
      · cases hl <;> rfl
      · rw [hl.walletAccounts]
  | opened tt i t hopening hins =>
      exact h.of_eq rfl (total_opened fun o ho => (hopening.owner o ho).1)
  | linked | sent => exact h.of_eq rfl rfl
  | accepted o ha =>
      obtain ⟨t, ts, ts', hdebit, hcredit, hrows⟩ := ha.recorded
      rw [Stated, hrows, statementOf_append, statementOf_append]
      exact Chains.append h ((chains_debit hdebit id).append (chains_credit hcredit id))
  | reverted o hr =>
      obtain ⟨t, event, ht, -, rfl⟩ := hr.written
      refine h.of_eq rfl (ht.amountOf_same (fun _ => rfl) fun a => ?_)
      change a.balance + o.value + (a.pendingAmount - o.value) = a.balance + a.pendingAmount
      omega
  | delivered n hd => cases hd <;> exact h.of_eq rfl rfl

end

/-- **The statement chains.**  Over every run, the rows of a wallet account that had none lead from
what the account had to what it has. -/
theorem statement_chains (env : Env) (s : State) (ls : List (ℤ × Command)) (a₀ a : WalletAccount)
    (ha₀ : s.world.db.walletAccounts.get? a.id = some a₀)
    (hrows : ∀ r ∈ s.world.db.walletAccountTransactions, r.walletAccount ≠ a.id)
    (ha : (run (step env) s ls).world.db.walletAccounts.get? a.id = some a) :
    Chains (a₀.balance + a₀.pendingAmount)
      (statementOf a.id (run (step env) s ls).world.db.walletAccountTransactions)
      (a.balance + a.pendingAmount) := by
  have start : Stated a₀.total a.id s.world.db := by
    rw [Stated, statementOf_eq_nil hrows, Db.amountOf, ha₀]
    exact rfl
  have stated : Stated a₀.total a.id (run (step env) s ls).world.db :=
    run_invariant (I := fun s => Stated a₀.total a.id s.world.db)
      (fun s l h => (step_changes s l).invariant (fun _ _ hc h => hc.stated h) h) start ls
  rw [Stated, Db.amountOf, ha] at stated
  exact stated

/-- A transfer that is accepted while another is pending, which is then reverted. -/
theorem statement_chains_sample :
    ∃ a, (run (step (Sample.env .DATE)) (Sample.start 1000 0)
      [(Sample.noon, Sample.transfer 1 300), (Sample.noon, Sample.send 2 200),
        (Sample.noon, .accept 1), (Sample.noon, .revert 2)]).world.db.walletAccounts.get? 1
          = some a ∧
      Chains 1000 (statementOf 1 (run (step (Sample.env .DATE)) (Sample.start 1000 0)
        [(Sample.noon, Sample.transfer 1 300), (Sample.noon, Sample.send 2 200),
          (Sample.noon, .accept 1), (Sample.noon, .revert 2)]).world.db.walletAccountTransactions)
        (a.balance + a.pendingAmount) :=
  ⟨Sample.account 1 1 700, by decide +kernel,
    statement_chains (Sample.env .DATE) (Sample.start 1000 0)
      [(Sample.noon, Sample.transfer 1 300), (Sample.noon, Sample.send 2 200),
        (Sample.noon, .accept 1), (Sample.noon, .revert 2)]
      (Sample.account 1 1 1000) (Sample.account 1 1 700) (by decide +kernel)
      (by decide +kernel) (by decide +kernel)⟩

end ZroServices
