import ZroServices.Operations.Booking
import ZroServices.Operations.History

/-!
# Operations — what is known of a stored operation

`Known`: the transaction type of an operation is one of the service, its sides are wallet accounts
of its currency with the users who own their wallets, and it is PENDING, ACCEPTED or REVERTED.

Wallets never change, and a wallet account only changes its amounts (`Change.sameAccounts`), so
what is known of an operation when it is stored stays known (`run_known`).
-/

namespace ZroServices

open Foundation
open CreateOperationUseCase AcceptOperationUseCase RevertOperationUseCase

/-! ### Wallet accounts -/

/-- Every wallet account is there, of the same wallet and in the same currency. -/
def SameAccounts (t t' : Table WalletAccount) : Prop :=
  ∀ id a, t.get? id = some a →
    ∃ a', t'.get? id = some a' ∧ a'.wallet = a.wallet ∧ a'.currency = a.currency

section
variable {env : Env} {now : ℤ} {db db' : Db} {t t' t'' : Table WalletAccount}

theorem SameAccounts.refl (t : Table WalletAccount) : SameAccounts t t :=
  fun _ a ha => ⟨a, ha, rfl, rfl⟩

theorem SameAccounts.trans (h : SameAccounts t t') (h' : SameAccounts t' t'') :
    SameAccounts t t'' := by
  intro id a ha
  obtain ⟨a', ha', hw, hc⟩ := h id a ha
  obtain ⟨a'', ha'', hw', hc'⟩ := h' id a' ha'
  exact ⟨a'', ha'', hw'.trans hw, hc'.trans hc⟩

theorem sameAccounts_set {a a' : WalletAccount} (ha : t.get? a.id = some a) (hid : a'.id = a.id)
    (hw : a'.wallet = a.wallet) (hc : a'.currency = a.currency) : SameAccounts t (t.set a') := by
  intro id b hb
  by_cases e : a.id = id
  · subst e
    rw [ha] at hb
    obtain rfl := Option.some.inj hb
    exact ⟨a', Table.get?_set_self ha hid, hw, hc⟩
  · refine ⟨b, ?_, rfl, rfl⟩
    rw [Table.get?_set_ne]
    · exact hb
    · rw [WalletAccount.key_eq, hid]
      exact e

theorem Settle.Moved.sameAccounts {f : WalletAccount → WalletAccount} {p : Option Party}
    (h : Settle.Moved t f p t') (hid : ∀ a, (f a).id = a.id) (hw : ∀ a, (f a).wallet = a.wallet)
    (hc : ∀ a, (f a).currency = a.currency) : SameAccounts t t' := by
  cases h with
  | none => exact .refl t
  | some p a ha _ =>
      have key : a.id = p.walletAccount := Table.key_of_get? ha
      rw [← key] at ha
      exact sameAccounts_set ha (hid a) (hw a) (hc a)

theorem Change.wallets (h : Change env now db db') : db'.wallets = db.wallets := by
  cases h with
  | limitCreated h => exact h.wallets
  | opened | linked | sent => rfl
  | accepted o h =>
      obtain ⟨t, t', ts, es, -, -, -, rfl⟩ := h.written
      rfl
  | reverted o h =>
      obtain ⟨t, event, -, -, rfl⟩ := h.written
      rfl
  | delivered n h => cases h <;> rfl

/-- A change moves amounts between wallet accounts, and nothing else of them. -/
theorem Change.sameAccounts (h : Change env now db db') :
    SameAccounts db.walletAccounts db'.walletAccounts := by
  cases h with
  | limitCreated h =>
      rw [h.walletAccounts]
      exact .refl _
  | opened tt i t h hins =>
      change SameAccounts _ (i.walletAccounts db.walletAccounts)
      rw [OperationInfo.walletAccounts]
      cases ho : i.ownerSide with
      | none => exact .refl _
      | some o => exact sameAccounts_set (h.owner o ho).1 rfl rfl rfl
  | linked | sent => exact .refl _
  | accepted o h =>
      obtain ⟨t, t', ts, es, ht, ht', -, rfl⟩ := h.written
      exact (ht.sameAccounts (fun _ => rfl) (fun _ => rfl) fun _ => rfl).trans
        (ht'.sameAccounts (fun _ => rfl) (fun _ => rfl) fun _ => rfl)
  | reverted o h =>
      obtain ⟨t, event, ht, -, rfl⟩ := h.written
      exact ht.sameAccounts (fun _ => rfl) (fun _ => rfl) fun _ => rfl
  | delivered n h => cases h <;> exact .refl _

end

/-! ### Operations -/

/-- A side of an operation: a wallet account in the operation's currency, and its user. -/
def Party.Known (db : Db) (currency : CurrencyId) (p : Party) : Prop :=
  ∃ a w, db.walletAccounts.get? p.walletAccount = some a ∧ a.currency.id = currency ∧
    db.wallets.get? a.wallet = some w ∧ w.user = p.user

/-- What is known of a stored operation. -/
structure Known (env : Env) (db : Db) (o : Operation) : Prop where
  ofType : o.transactionType ∈ env.transactionTypes
  state : o.Counts ∨ o.state = .REVERTED
  owner : ∀ p, o.owner = some p → p.Known db o.currency
  beneficiary : ∀ p, o.beneficiary = some p → p.Known db o.currency

section
variable {env : Env} {now : ℤ} {db db' : Db} {o o' : Operation} {tt : TransactionType}
  {i : OperationInfo}

theorem Party.Known.of_change {currency : CurrencyId} {p : Party} (h : p.Known db currency)
    (hc : Change env now db db') : p.Known db' currency := by
  obtain ⟨a, w, ha, hcurrency, hw, huser⟩ := h
  obtain ⟨a', ha', hwallet, hcurrency'⟩ := hc.sameAccounts _ a ha
  refine ⟨a', w, ha', ?_, ?_, huser⟩
  · rw [hcurrency']
    exact hcurrency
  · rw [hwallet, hc.wallets]
    exact hw

theorem Known.of_change (h : Known env db o) (hc : Change env now db db') : Known env db' o where
  ofType := h.ofType
  state := h.state
  owner p hp := (h.owner p hp).of_change hc
  beneficiary p hp := (h.beneficiary p hp).of_change hc

theorem Known.of_becomes (hb : o.Becomes o') (h : Known env db o) : Known env db o' := by
  rw [hb.same]
  refine ⟨h.ofType, ?_, h.owner, h.beneficiary⟩
  rcases hb.state with ⟨hstate, -⟩ | ⟨-, haccepted | hreverted⟩
  · rw [Operation.Counts, hstate]
    exact h.state
  · exact .inl (.inr haccepted)
  · exact .inr hreverted

/-- What is known of an operation when it is stored. -/
theorem Opening.known (h : Opening env now tt db i) : Known env db (i.operation env now tt) where
  ofType := by
    rw [OperationInfo.operation_transactionType]
    exact h.ofType
  state := Or.inl (Or.inl OperationInfo.operation_state)
  owner p hp := by
    rw [OperationInfo.operation_owner] at hp
    obtain ⟨o, ho, rfl⟩ := Option.map_eq_some_iff.mp hp
    obtain ⟨ha, hw⟩ := h.owner o ho
    refine ⟨o.walletAccount, o.wallet, ha, ?_, hw, rfl⟩
    rw [OperationInfo.operation_currency]
    cases i <;> cases ho <;> rfl
  beneficiary p hp := by
    rw [OperationInfo.operation_beneficiary] at hp
    obtain ⟨b, hb, rfl⟩ := Option.map_eq_some_iff.mp hp
    obtain ⟨a, ha, hc, hw⟩ := h.beneficiary b hb
    refine ⟨a, b.wallet, ha, ?_, hw, rfl⟩
    rw [OperationInfo.operation_currency, hc]
    cases i with
    | owner o => cases hb
    | beneficiary b => cases hb; rfl
    | shared o b => cases hb; exact (h.currency o _ rfl).symm

/-- An operation after a change was one before, or was just stored. -/
theorem Change.known (h : Change env now db db') (hI : ∀ o ∈ db.operations.rows, Known env db o) :
    ∀ o ∈ db'.operations.rows, Known env db' o := by
  obtain ⟨ts, -, hwrote⟩ := wrote_of_change h
  exact hwrote.all (fun o ho => (hI o ho).of_change h)
    (fun tt i hopen => hopen.known.of_change h) fun o o' hb hx => hx.of_becomes hb

/-- **What is known of the operations stays known, over every run.** -/
theorem run_known {s : State} (ls : List (ℤ × Command))
    (h : ∀ o ∈ s.world.db.operations.rows, Known env s.world.db o) :
    ∀ o ∈ (run (step env) s ls).world.db.operations.rows,
      Known env (run (step env) s ls).world.db o := by
  refine run_invariant (I := fun s : State =>
      ∀ o ∈ s.world.db.operations.rows, Known env s.world.db o)
    (fun s l hI => ?_) h ls
  exact (step_changes s l).invariant
    (I := fun db => ∀ o ∈ db.operations.rows, Known env db o) (fun _ _ hc => hc.known) hI

/-! ### What is later -/

/-- What the database may be later. -/
structure Db.Later (db db' : Db) : Prop where
  operations : ∀ id o, db.operations.get? id = some o →
    ∃ o', db'.operations.get? id = some o' ∧ o.Becomes o'
  walletAccountTransactions : db.walletAccountTransactions <+: db'.walletAccountTransactions
  walletAccounts : SameAccounts db.walletAccounts db'.walletAccounts
  wallets : db'.wallets = db.wallets

/-- **A run undoes nothing**: operations and wallet accounts stay, and statements only grow. -/
theorem run_later (env : Env) (s : State) (ls : List (ℤ × Command)) :
    s.world.db.Later (run (step env) s ls).world.db := by
  refine run_invariant (I := fun s' : State => s.world.db.Later s'.world.db) (fun s' l h => ?_)
    ⟨fun _ o ho => ⟨o, ho, .refl o⟩, List.prefix_rfl, .refl _, rfl⟩ ls
  refine (step_changes s' l).invariant (fun db db' hc h => ?_) h
  obtain ⟨ts, hrows, hwrote⟩ := wrote_of_change hc
  refine ⟨fun id o ho => ?_, h.walletAccountTransactions.trans (hrows ▸ List.prefix_append _ _),
    h.walletAccounts.trans hc.sameAccounts, hc.wallets.trans h.wallets⟩
  obtain ⟨o₁, ho₁, hbecomes₁⟩ := h.operations id o ho
  obtain ⟨o₂, ho₂, hbecomes₂⟩ := hwrote.becomes ho₁
  exact ⟨o₂, ho₂, hbecomes₁.trans hbecomes₂⟩

end

end ZroServices
