import ZroServices.Operations.Charges

/-!
# Operations — no overdraft without credit

What an owner without credit pays when an operation is created (`Paid`): a value between zero and
the balance of its wallet account, at most what was requested, made of a raw value and a fee that
are not negative, and blocked on the account.

Three guards meet here.  The value is reduced to the balance when the request allows it, the funds
are compared with the balance, and a balance below zero, for which the reduced value is negative,
is refused by the event that is sent before the commit.
-/

namespace ZroServices

open Foundation
open CreateOperationUseCase

/-- What the owner of a request paid, from a wallet account `a` to the operation `o`. -/
structure Paid (p : CreateOperationParticipant) (a : WalletAccount) (o : Operation) (db : Db) :
    Prop where
  account : o.owner.map (·.walletAccount) = some a.id
  stored : db.operations.get? o.id = some o
  value_nonneg : 0 ≤ o.value
  value_le_balance : o.value ≤ max 0 a.balance
  value_le_requested : ∃ rawValue fee, p.rawValue = some rawValue ∧ p.fee = some fee ∧
    o.value ≤ rawValue + fee
  value_eq : o.value = o.rawValue + o.fee
  rawValue_nonneg : 0 ≤ o.rawValue
  fee_nonneg : 0 ≤ o.fee
  blocked : (db.walletAccounts.get? a.id).map (·.balance) = some (a.balance - o.value)

namespace CreateOperationUseCase

section
variable {env : Env} {now : ℤ} {tag : String}
  {ownerInfo beneficiaryInfo : Option CreateOperationParticipant} {w w' : World}
  {r : CreatedOperation} {tt : TransactionType} {owner : Option OwnerSide}
  {beneficiary : Option BeneficiarySide} {db₁ db₂ db₃ : Db} {o : OwnerSide}

theorem availableAmount_le (p : Participant) (balance : ℤ) :
    (availableAmount p balance).value ≤ p.rawValue + p.fee := by
  rw [availableAmount]
  split
  · rename_i h
    split
    · change balance + 0 ≤ _
      omega
    · change p.fee + (balance - p.fee) ≤ _
      omega
  · change p.fee + p.rawValue ≤ _
    omega

/-- The operation stored for the owner, and what is blocked for it. -/
structure StoredForOwner (db db' : Db) (o : OwnerSide) (x : Operation) : Prop where
  owner : x.owner = some o.party
  rawValue : x.rawValue = o.amount.rawValue
  fee : x.fee = |o.amount.fee|
  value : x.value = o.amount.value
  walletAccounts : db'.walletAccounts = db.walletAccounts.set (blocked o.amount.value o.walletAccount)

theorem Stored.forOwner {db db' : Db} (h : Stored env now tt (some o) beneficiary db db' r) :
    ∃ x, r.ownerOperation = some x ∧ StoredForOwner db db' o x := by
  generalize ho : some o = side at h
  cases h with
  | single i _ t _ hins =>
      refine ⟨_, by rw [← ho]; rfl, ?_⟩
      cases i with
      | beneficiary b => cases ho
      | owner o' | shared o' b =>
          cases ho
          refine ⟨?_, ?_, ?_, ?_, rfl⟩
          · rw [OperationInfo.operation_owner]
            rfl
          · exact OperationInfo.operation_rawValue
          · exact OperationInfo.operation_fee
          · exact OperationInfo.operation_value
  | independent o' b _ db₁ db₂ t₁ t₂ o₁ o₂ hne ho₁ ho₂ hins₁ hdb₁ hins₂ hdb₂ =>
      cases ho
      subst ho₁ ho₂ hdb₁ hdb₂
      refine ⟨_, rfl, ?_, ?_, ?_, ?_, rfl⟩
      · exact OperationInfo.operation_owner
      · exact OperationInfo.operation_rawValue
      · exact OperationInfo.operation_fee
      · exact OperationInfo.operation_value

/-- Without a limit that grants credit, there is no credit. -/
theorem not_credit {wallet : Wallet}
    (h : ∀ l ∈ w.db.userLimits.rows, l.user = wallet.user → l.creditBalance = 0) :
    ¬ Credit env now tt w wallet := by
  rintro ⟨hpos, -⟩
  rw [getUserCreditBalance] at hpos
  split at hpos
  · rename_i limitType _
    cases hl : w.db.userLimitByUserAndLimitType wallet.user limitType.id with
    | none =>
        rw [hl] at hpos
        exact absurd hpos (lt_irrefl 0)
    | some l =>
        obtain ⟨hmem, huser, -⟩ := Db.userLimit_of_find hl
        rw [hl, Option.map_some, Option.getD_some, h l hmem huser] at hpos
        exact absurd hpos (lt_irrefl 0)
  · exact absurd hpos (lt_irrefl 0)

end

/-- **No overdraft without credit.**  When a create with an owner returns, and no limit of the
owner's user grants credit, the owner paid no more than its balance and what was requested. -/
theorem no_overdraft (env : Env) (now : ℤ) (tag : String) (p : CreateOperationParticipant)
    (beneficiaryInfo : Option CreateOperationParticipant) {w w' : World} {r : CreatedOperation}
    (h : execute env now tag (some p) beneficiaryInfo w = .ok r w')
    (hcredit : ∀ id ∈ p.wallet, ∀ wallet ∈ w.db.wallets.get? id,
      ∀ l ∈ w.db.userLimits.rows, l.user = wallet.user → l.creditBalance = 0) :
    ∃ a o, w.db.walletAccounts.get? a.id = some a ∧ r.ownerOperation = some o ∧
      Paid p a o w'.db := by
  obtain ⟨tt, owner, beneficiary, db₁, db₂, db₃, hx⟩ := execute_ok h
  have requested := hx.ownerRequested
  cases owner with
  | none => cases requested
  | some o =>
      obtain ⟨hr⟩ := requested
      have loaded := hx.ownerLoaded o rfl
      have checked := hx.ownerChecked o rfl
      obtain ⟨x, hox, stored⟩ := hx.stored.forOwner
      obtain ⟨e, about, hdb⟩ := hx.event
      obtain ⟨hv, hraw, hfee⟩ := about.nonneg (Or.inl hox)
      have funds : o.amount.value ≤ o.walletAccount.balance := by
        refine checked.funds.resolve_right (not_credit ?_)
        exact hcredit o.info.wallet hr.wallet o.wallet loaded.wallet
      -- The fee is not negative, or else the value, which is the whole balance, would be.
      have hfee' : 0 ≤ o.amount.fee := by
        rw [stored.value, OwnerAmount.value] at hv
        rw [stored.rawValue] at hraw
        have amount := checked.amount
        rw [availableAmount] at amount
        split at amount
        · split at amount
          · rw [amount] at hv ⊢
            change 0 ≤ o.walletAccount.balance + 0 at hv
            rwa [add_zero] at hv
          · rw [amount]
            exact o.info.fee_nonneg
        · rw [amount]
          exact o.info.fee_nonneg
      refine ⟨o.walletAccount, x, loaded.walletAccount, hox, ?_, (hx.returned (Or.inl hox)).1, hv,
        ?_, ⟨o.info.rawValue, o.info.fee, hr.rawValue, hr.fee, ?_⟩, ?_, hraw, hfee, ?_⟩
      · rw [stored.owner]
        rfl
      · rw [stored.value]
        exact funds.trans (le_max_right _ _)
      · rw [stored.value, checked.amount]
        exact availableAmount_le _ _
      · rw [stored.value, stored.rawValue, stored.fee, abs_of_nonneg hfee', OwnerAmount.value,
          add_comm]
      · have get : db₂.walletAccounts.get? o.walletAccount.id = some o.walletAccount := by
          rw [hx.beneficiaryLimit.walletAccounts, hx.ownerLimit.walletAccounts]
          exact loaded.walletAccount
        have blocked : (db₂.walletAccounts.set
            (blocked o.amount.value o.walletAccount)).get? o.walletAccount.id
              = some (blocked o.amount.value o.walletAccount) := Table.get?_set_self get rfl
        rw [hdb, stored.value]
        change (db₃.walletAccounts.get? _).map _ = _
        rw [stored.walletAccounts, blocked]
        rfl

/-- 900 are requested of a balance of 500, and 500 are paid. -/
theorem no_overdraft_sample :
    ∃ r w' a o, execute (Sample.env .DATE) Sample.noon "PIXSEND"
        (some { Sample.request 10 1 900 with ownerAllowAvailableRawValue := true }) none
        (Sample.start 500 0).world = .ok r w' ∧
      (Sample.start 500 0).world.db.walletAccounts.get? a.id = some a ∧
      r.ownerOperation = some o ∧
      Paid { Sample.request 10 1 900 with ownerAllowAvailableRawValue := true } a o w'.db := by
  have returns : (returned (execute (Sample.env .DATE) Sample.noon "PIXSEND"
      (some { Sample.request 10 1 900 with ownerAllowAvailableRawValue := true }) none)
      (Sample.start 500 0).world).isSome := by decide +kernel
  obtain ⟨r, hr⟩ := Option.isSome_iff_exists.mp returns
  obtain ⟨w', h⟩ := returned_eq_some.mp hr
  obtain ⟨a, o, ha, ho, paid⟩ := no_overdraft (Sample.env .DATE) Sample.noon "PIXSEND"
    { Sample.request 10 1 900 with ownerAllowAvailableRawValue := true } none h (by decide +kernel)
  exact ⟨r, w', a, o, h, ha, ho, paid⟩

end CreateOperationUseCase

end ZroServices
