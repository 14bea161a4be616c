import ZroServices.Operations.TransferOnce

/-!
# Operations — the fee of a transfer

A transfer between two users declares its fee on the beneficiary's side and none on the owner's.
Its two wallet accounts have one currency, so the operation is shared, and a shared operation has
the fee of its owner: no one pays the fee.  A transfer from the ZRO wallet or to it has one side,
which pays.

* `moved_of_accept`: what accepting an operation moves.
* `charged_iff`: a new transfer charges its fee exactly when it has none or when one of its wallets
  is the ZRO wallet.
-/

namespace ZroServices

open Foundation

namespace CreateP2PTransferUseCase

open CreateOperationUseCase (Execution Requested)

variable {env : Env} {now : ℤ} {q : Request} {c : Checked} {operation : Uuid} {currency : Currency}
  {r : P2PTransfer} {db db' : Db} {w w' : World} {o : Operation} {senderFee : ℤ}
variable {i : OperationInfo} {tt : TransactionType}

/-! ### What a transfer stands for -/

/-- What a side of an operation moves on a wallet account. -/
def share (p : Option Party) (value : ℤ) (id : WalletAccountId) : ℤ :=
  if p.map (·.walletAccount) = some id then value else 0

/-- The sender's account has less by the amount and the sender's fee, the beneficiary's account has
more by the amount without the fee of the transfer, and no other account has more or less. -/
def FeeCharged (senderFee : ℤ) (db db' : Db) (r : P2PTransfer) (o : Operation) : Prop :=
  ∀ id, Db.amountOf (·.total) db'.walletAccounts id = Db.amountOf (·.total) db.walletAccounts id
    - share o.owner (r.amount + senderFee) id + share o.beneficiary (r.amount - r.fee) id

/-- The fee that the sender's side of a transfer declares: the side of a transfer to the ZRO wallet
declares the fee, the side of a transfer between users none. -/
def declaredFee (env : Env) (r : P2PTransfer) : ℤ :=
  if r.beneficiaryWallet = env.ZROWalletId then r.fee else 0

/-- A transfer without a fee, or one that has the ZRO wallet on a side. -/
def FreeOrOneSided (env : Env) (r : P2PTransfer) : Prop :=
  r.fee = 0 ∨ r.wallet = env.ZROWalletId ∨ r.beneficiaryWallet = env.ZROWalletId

/-- The sides of the operation of a transfer: the accounts of its wallets, without the ZRO
wallet. -/
structure Sides (env : Env) (db : Db) (r : P2PTransfer) (o : Operation) : Prop where
  owner : o.owner.isSome ↔ r.wallet ≠ env.ZROWalletId
  beneficiary : o.beneficiary.isSome ↔
    (r.wallet = env.ZROWalletId ∨ r.beneficiaryWallet ≠ env.ZROWalletId)
  ownerWallet : ∀ p, o.owner = some p → walletOf db p.walletAccount = some r.wallet
  beneficiaryWallet : ∀ p, o.beneficiary = some p →
    walletOf db p.walletAccount = some r.beneficiaryWallet

/-- The value of the operation of a transfer. -/
structure Valued (env : Env) (r : P2PTransfer) (o : Operation) : Prop where
  amount_pos : 0 < r.amount
  fee_nonneg : 0 ≤ r.fee
  value : o.value = if r.wallet = env.ZROWalletId then r.amount - r.fee
    else if r.beneficiaryWallet = env.ZROWalletId then r.amount + r.fee else r.amount

@[simp] theorem share_none (value : ℤ) (id : WalletAccountId) : share none value id = 0 := rfl

theorem share_self (p : Party) (value : ℤ) : share (some p) value p.walletAccount = value :=
  if_pos rfl

/-! ### What accepting moves -/

/-- The rows of one side of an accepted operation have the value that the side moves. -/
theorem recorded_share {f : WalletAccount → WalletAccount}
    {row : WalletAccount → WalletAccountTransaction} {p : Option Party} {t t' : Table WalletAccount}
    {ts : List WalletAccountTransaction} {v : ℤ} (h : Settle.Recorded t f row p t' ts)
    (haccount : ∀ a, (row a).walletAccount = a.id) (hvalue : ∀ a, (row a).signedValue = v)
    (id : WalletAccountId) : ((statementOf id ts).map (·.signedValue)).sum = share p v id := by
  cases h with
  | none => rfl
  | some p a ha _ =>
      have hid : a.id = p.walletAccount := Table.key_of_get? ha
      by_cases e : p.walletAccount = id
      · have hmine : statementOf id [row a] = [row a] := by
          rw [statementOf, List.filter_singleton, haccount, hid, e, decide_eq_true rfl]
          rfl
        rw [hmine, List.map_singleton, List.sum_singleton, hvalue]
        exact (if_pos (congrArg some e)).symm
      · have hother : statementOf id [row a] = [] := by
          refine statementOf_eq_nil fun r hr => ?_
          rw [List.mem_singleton.mp hr, haccount, hid]
          exact e
        rw [hother]
        exact (if_neg fun h => e (Option.some.inj h)).symm

/-- **What accepting an operation moves**: its value, from the owner's account to the
beneficiary's. -/
theorem moved_of_accept (h : AcceptOperationUseCase.Accepted db o db') (id : WalletAccountId) :
    Db.amountOf (·.total) db'.walletAccounts id = Db.amountOf (·.total) db.walletAccounts id
      - share o.owner o.value id + share o.beneficiary o.value id := by
  obtain ⟨t, debits, credits, hdebit, hcredit, -⟩ := h.recorded
  have hsum := chains_sum ((chains_debit hdebit id).append (chains_credit hcredit id))
  rw [List.map_append, List.sum_append,
    recorded_share (v := -o.value) hdebit (fun _ => rfl) (fun _ => rfl),
    recorded_share (v := o.value) hcredit (fun _ => rfl) (fun _ => rfl)] at hsum
  have hneg : share o.owner (-o.value) id = -share o.owner o.value id := by
    unfold share
    split
    · rfl
    · exact neg_zero.symm
  rw [hsum, hneg]
  omega

/-- **When the fee is charged**, for a sender's fee that is none where the transfer has none, and is
the fee where the transfer has an owner's side alone. -/
theorem charged_iff_of_moved (hsides : Sides env db r o) (hvalued : Valued env r o)
    (hmoved : ∀ id, Db.amountOf (·.total) db'.walletAccounts id =
      Db.amountOf (·.total) db.walletAccounts id - share o.owner o.value id
        + share o.beneficiary o.value id)
    (hnonneg : 0 ≤ senderFee) (hfree : r.fee = 0 → senderFee = 0)
    (hdebit : r.beneficiaryWallet = env.ZROWalletId → senderFee = r.fee) :
    FeeCharged senderFee db db' r o ↔ FreeOrOneSided env r := by
  have hvalue := hvalued.value
  by_cases hwallet : r.wallet = env.ZROWalletId
  · -- The ZRO wallet sends: the operation has a beneficiary only.
    refine iff_of_true (fun id => ?_) (Or.inr (Or.inl hwallet))
    have howner : o.owner = none :=
      Option.not_isSome_iff_eq_none.mp fun h => hsides.owner.mp h hwallet
    rw [if_pos hwallet] at hvalue
    rw [hmoved, howner, hvalue, share_none, share_none]
  · by_cases hbeneficiary : r.beneficiaryWallet = env.ZROWalletId
    · -- The ZRO wallet receives: the operation has an owner only.
      refine iff_of_true (fun id => ?_) (Or.inr (Or.inr hbeneficiary))
      have hnone : o.beneficiary = none :=
        Option.not_isSome_iff_eq_none.mp fun h =>
          (hsides.beneficiary.mp h).elim hwallet fun hne => hne hbeneficiary
      rw [if_neg hwallet, if_pos hbeneficiary] at hvalue
      rw [hmoved, hnone, hvalue, hdebit hbeneficiary, share_none, share_none]
    · -- Both sides are there, and the operation has the amount for its value.
      rw [if_neg hwallet, if_neg hbeneficiary] at hvalue
      constructor
      · intro hcharged
        obtain ⟨b, hb⟩ := Option.isSome_iff_exists.mp (hsides.beneficiary.mpr (Or.inr hbeneficiary))
        have hat := (hmoved b.walletAccount).symm.trans (hcharged b.walletAccount)
        rw [hb, share_self, share_self, hvalue] at hat
        have hle : share o.owner r.amount b.walletAccount
            ≤ share o.owner (r.amount + senderFee) b.walletAccount := by
          unfold share
          split
          · omega
          · exact le_refl _
        have hfee := hvalued.fee_nonneg
        exact Or.inl (by omega)
      · rintro (hfee | h | h)
        · intro id
          rw [hmoved, hvalue, hfree hfee, hfee, add_zero, sub_zero]
        · exact absurd h hwallet
        · exact absurd h hbeneficiary

/-! ### The operation of a new transfer -/

theorem requested_some {p : CreateOperationParticipant} {i : Option Participant}
    (h : Option.Rel Requested (some p) i) : ∃ x, i = some x ∧ Requested p x := by
  cases h with
  | some h => exact ⟨_, rfl, h⟩

theorem requested_none {i : Option Participant} (h : Option.Rel Requested none i) : i = none := by
  cases h
  rfl

/-- The amount and the fee that a side of a transfer was checked with. -/
structure Declares (amount fee : ℤ) (i : Participant) : Prop where
  rawValue : i.rawValue = amount
  fee : i.fee = fee
  allow : i.ownerAllowAvailableRawValue = false

theorem declares_of_requested {wallet : Uuid} {amount fee : ℤ} {description : String}
    {i : Participant}
    (h : Requested (participant operation wallet currency amount fee description) i) :
    Declares amount fee i :=
  ⟨(Option.some.inj h.rawValue).symm, (Option.some.inj h.fee).symm, h.allow.symm⟩

/-- An owner that may not pay what is available pays what was requested. -/
theorem owner_value {amount fee : ℤ} {s : OwnerSide}
    (h : CreateOperationUseCase.OwnerChecked env now tt w db s) (hd : Declares amount fee s.info) :
    s.amount.fee = fee ∧ s.amount.rawValue = amount := by
  have hamount : s.amount = ⟨s.info.rawValue, s.info.fee, s.info.ownerRequestedRawValue,
      s.info.ownerRequestedFee⟩ := by
    rw [h.amount, CreateOperationUseCase.availableAmount]
    refine if_neg fun hallow => ?_
    rw [hd.allow] at hallow
    exact Bool.false_ne_true hallow.1
  rw [hamount]
  exact ⟨hd.fee, hd.rawValue⟩

/-- The operation of a new transfer, in each of its shapes. -/
inductive Shape (env : Env) (c : Checked) : OperationInfo → Prop
  | credit {b : BeneficiarySide} (wallet : c.wallet = env.ZROWalletId)
      (declares : Declares c.amount c.fee b.info) : Shape env c (.beneficiary b)
  | debit {s : OwnerSide} (wallet : c.wallet ≠ env.ZROWalletId)
      (beneficiaryWallet : c.beneficiaryWallet = env.ZROWalletId)
      (declares : Declares c.amount c.fee s.info) (fee : s.amount.fee = c.fee)
      (rawValue : s.amount.rawValue = c.amount) : Shape env c (.owner s)
  | p2p {s : OwnerSide} {b : BeneficiarySide} (wallet : c.wallet ≠ env.ZROWalletId)
      (beneficiaryWallet : c.beneficiaryWallet ≠ env.ZROWalletId)
      (declares : Declares c.amount c.fee b.info) (fee : s.amount.fee = 0)
      (rawValue : s.amount.rawValue = c.amount) : Shape env c (.shared s b)

/-- The shape follows from what the use case asks for. -/
theorem shape_of_execution {tag : String}
    {ownerInfo beneficiaryInfo : Option CreateOperationParticipant} {created : CreatedOperation}
    {db₁ db₂ db₃ : Db}
    (hrequest : operationRequest env operation c.wallet c.beneficiaryWallet currency c.amount c.fee
      c.description = (tag, ownerInfo, beneficiaryInfo))
    (h : Execution env now tag ownerInfo beneficiaryInfo w w' created tt i.ownerSide
      i.beneficiarySide db₁ db₂ db₃) : Shape env c i := by
  have howner := h.ownerRequested
  have hbeneficiary := h.beneficiaryRequested
  rw [operationRequest] at hrequest
  split_ifs at hrequest with hwallet hbeneficiaryWallet
  · cases hrequest
    cases i with
    | beneficiary b =>
        obtain ⟨_, e, hr⟩ := requested_some hbeneficiary
        obtain rfl := Option.some.inj e
        exact .credit hwallet (declares_of_requested hr)
    | owner s => cases requested_none howner
    | shared s b => cases requested_none howner
  · cases hrequest
    cases i with
    | beneficiary b => cases requested_none hbeneficiary
    | owner s =>
        obtain ⟨_, e, hr⟩ := requested_some howner
        obtain rfl := Option.some.inj e
        have hdeclares := declares_of_requested hr
        obtain ⟨hfee, hraw⟩ := owner_value (h.ownerChecked s rfl) hdeclares
        exact .debit hwallet hbeneficiaryWallet hdeclares hfee hraw
    | shared s b => cases requested_none hbeneficiary
  · cases hrequest
    cases i with
    | beneficiary b =>
        obtain ⟨_, e, -⟩ := requested_some howner
        cases e
    | owner s =>
        obtain ⟨_, e, -⟩ := requested_some hbeneficiary
        cases e
    | shared s b =>
        obtain ⟨_, e, hr⟩ := requested_some howner
        obtain rfl := Option.some.inj e
        obtain ⟨_, e, hr'⟩ := requested_some hbeneficiary
        obtain rfl := Option.some.inj e
        obtain ⟨hfee, hraw⟩ := owner_value (h.ownerChecked s rfl) (declares_of_requested hr)
        exact .p2p hwallet hbeneficiaryWallet (declares_of_requested hr') hfee hraw

theorem Declares.bounds {amount fee : ℤ} {i : Participant} (h : Declares amount fee i) :
    0 < amount ∧ 0 ≤ fee := by
  rw [← h.rawValue, ← h.fee]
  exact ⟨i.rawValue_pos, i.fee_nonneg⟩

/-- The value of each shape. -/
theorem Shape.valued (h : Shape env c i) :
    Valued env (c.transfer currency operation) (i.operation env now tt) := by
  cases h with
  | credit wallet declares =>
      refine ⟨declares.bounds.1, declares.bounds.2, ?_⟩
      rw [OperationInfo.operation_value, OperationInfo.value, OperationInfo.fee,
        OperationInfo.rawValue, declares.fee, declares.rawValue, Checked.transfer, if_pos wallet]
      exact neg_add_eq_sub _ _
  | debit wallet beneficiaryWallet declares fee rawValue =>
      refine ⟨declares.bounds.1, declares.bounds.2, ?_⟩
      rw [OperationInfo.operation_value, OperationInfo.value, OperationInfo.fee,
        OperationInfo.rawValue, fee, rawValue, Checked.transfer, if_neg wallet,
        if_pos beneficiaryWallet]
      exact add_comm _ _
  | p2p wallet beneficiaryWallet declares fee rawValue =>
      refine ⟨declares.bounds.1, declares.bounds.2, ?_⟩
      rw [OperationInfo.operation_value, OperationInfo.value, OperationInfo.fee,
        OperationInfo.rawValue, fee, rawValue, Checked.transfer, if_neg wallet,
        if_neg beneficiaryWallet]
      exact zero_add _

/-- A new transfer has the sides that its operation was asked for. -/
theorem Shape.sides (h : Shape env c i)
    (howner : ∀ s, i.ownerSide = some s →
      walletOf db s.walletAccount.id = some c.wallet)
    (hbeneficiary : ∀ b, i.beneficiarySide = some b →
      walletOf db b.walletAccount.id = some c.beneficiaryWallet) :
    Sides env db (c.transfer currency operation) (i.operation env now tt) := by
  have ownerWallet : ∀ p, (i.operation env now tt).owner = some p →
      walletOf db p.walletAccount = some c.wallet := by
    intro p hp
    rw [OperationInfo.operation_owner] at hp
    obtain ⟨s, hs, rfl⟩ := Option.map_eq_some_iff.mp hp
    exact howner s hs
  have beneficiaryWallet : ∀ p, (i.operation env now tt).beneficiary = some p →
      walletOf db p.walletAccount = some c.beneficiaryWallet := by
    intro p hp
    rw [OperationInfo.operation_beneficiary] at hp
    obtain ⟨b, hb, rfl⟩ := Option.map_eq_some_iff.mp hp
    exact hbeneficiary b hb
  cases h with
  | credit wallet =>
      refine ⟨?_, ?_, ownerWallet, beneficiaryWallet⟩
      · rw [OperationInfo.operation_owner]
        exact iff_of_false Bool.false_ne_true fun hne => hne wallet
      · rw [OperationInfo.operation_beneficiary]
        exact iff_of_true rfl (Or.inl wallet)
  | debit wallet hbeneficiaryWallet =>
      refine ⟨?_, ?_, ownerWallet, beneficiaryWallet⟩
      · rw [OperationInfo.operation_owner]
        exact iff_of_true rfl wallet
      · rw [OperationInfo.operation_beneficiary]
        exact iff_of_false Bool.false_ne_true fun h =>
          h.elim wallet fun hne => hne hbeneficiaryWallet
  | p2p wallet hbeneficiaryWallet =>
      refine ⟨?_, ?_, ownerWallet, beneficiaryWallet⟩
      · rw [OperationInfo.operation_owner]
        exact iff_of_true rfl wallet
      · rw [OperationInfo.operation_beneficiary]
        exact iff_of_true rfl (Or.inr hbeneficiaryWallet)

/-- What creating the operation of a transfer stores: one operation, of one of the shapes. -/
theorem execution_shape {tag : String}
    {ownerInfo beneficiaryInfo : Option CreateOperationParticipant} {created : CreatedOperation}
    (hrequest : operationRequest env operation c.wallet c.beneficiaryWallet currency c.amount c.fee
      c.description = (tag, ownerInfo, beneficiaryInfo))
    (h : CreateOperationUseCase.execute env now tag ownerInfo beneficiaryInfo w = .ok created w') :
    ∃ i tt, w'.db.operations.get? operation = some (OperationInfo.operation env now tt i) ∧
      Shape env c i ∧ ∀ (currency : Currency) (operation : Uuid),
        Sides env w.db (c.transfer currency operation) (OperationInfo.operation env now tt i) := by
  obtain ⟨hownerInfo, hbeneficiaryInfo⟩ := operationRequest_sides env hrequest
  obtain ⟨tt, owner, beneficiary, db₁, db₂, db₃, hx⟩ := CreateOperationUseCase.execute_ok h
  have hownerSide := requested_side hx.ownerRequested hownerInfo
  have hbeneficiarySide := requested_side hx.beneficiaryRequested hbeneficiaryInfo
  obtain ⟨e, -, hw'⟩ := hx.event
  obtain ⟨i, t, rfl, rfl, hid, hins, rfl⟩ := execution_single hx
    (fun s hs => (hownerSide s.info (congrArg (Option.map _) hs)).1)
    fun b hb => (hbeneficiarySide b.info (congrArg (Option.map _) hb)).1
  have hshape := shape_of_execution hrequest hx
  refine ⟨i, tt, ?_, hshape, fun currency operation => hshape.sides (fun s hs => ?_) fun b hb => ?_⟩
  · have hget := Table.get?_insert?_self hins
    rw [Operation.key_eq, hid] at hget
    rw [hw']
    exact hget
  · exact walletOf_loaded (hx.ownerLoaded s hs) (hownerSide s.info (congrArg (Option.map _) hs)).2
  · exact walletOf_loaded (hx.beneficiaryLoaded b hb)
      (hbeneficiarySide b.info (congrArg (Option.map _) hb)).2

/-- A request that stored a new transfer, taken apart. -/
theorem execute_new (h : q.execute env now w = .ok r w')
    (hnew : w.db.p2pTransfers.get? r.id = none) :
    ∃ (c : Checked) (currency : Currency) (operation : Uuid) (tag : String)
      (ownerInfo beneficiaryInfo : Option CreateOperationParticipant) (created : CreatedOperation)
      (accepted : AcceptedOperation) (w₁ : World) (db₂ : Db) (t : Table P2PTransfer),
      r = c.transfer currency operation ∧
      operationRequest env operation c.wallet c.beneficiaryWallet currency c.amount c.fee
        c.description = (tag, ownerInfo, beneficiaryInfo) ∧
      CreateOperationUseCase.execute env now tag ownerInfo beneficiaryInfo w = .ok created w₁ ∧
      (AcceptOperationUseCase.execute operation).run w₁.db = (.ok accepted, db₂) ∧
      w'.db = { db₂ with p2pTransfers := t } := by
  simp only [Request.execute, execute, bind_ok, orThrow_ok, readDb_ok] at h
  obtain ⟨id, _, ⟨-, rfl⟩, user, _, ⟨-, rfl⟩, wallet, _, ⟨-, rfl⟩, beneficiaryWallet, _, ⟨-, rfl⟩,
    amountCurrency, _, ⟨-, rfl⟩, amount, _, ⟨-, rfl⟩, found, _, ⟨hfound, rfl⟩, h⟩ := h
  cases found with
  | some p2pTransfer =>
      simp only [existingTransfer] at h
      split at h
      · obtain ⟨rfl, rfl⟩ := pure_ok.mp h
        have hkey : r.id = id := Table.key_of_get? hfound.symm
        rw [hkey, ← hfound] at hnew
        cases hnew
      · exact absurd h throw_ok
  | none =>
      simp only [createTransfer, storeTransfer, bind_ok, orThrow_ok, throwIf_ok, readDb_ok,
        writeDb_ok, pure_ok] at h
      obtain ⟨currency, _, ⟨-, rfl⟩, _, _, ⟨-, rfl⟩, operation, _, ⟨-, rfl⟩, created, w₁, hcreate,
        accepted, w₂, haccept, _, _, ⟨rfl, rfl⟩, t, _, ⟨-, rfl⟩, _, _, rfl, rfl, rfl⟩ := h
      obtain ⟨db₂, hrun, rfl⟩ := ofProg_ok.mp haccept
      exact ⟨⟨id, user, wallet, beneficiaryWallet, amountCurrency, amount, q.fee, q.description⟩,
        currency, operation, _, _, _, created, accepted, w₁, db₂, t, rfl, rfl, hcreate, hrun, rfl⟩

end CreateP2PTransferUseCase

open CreateP2PTransferUseCase

/-- **A new transfer charges its fee exactly when it has none or has the ZRO wallet on a side**,
whether the sender's fee is the one of the request or the one that the sender's side declares. -/
theorem charged_iff {env : Env} {now : ℤ} {q : Request} {r : P2PTransfer} {w w' : World}
    (h : q.execute env now w = .ok r w') (hnew : w.db.p2pTransfers.get? r.id = none) :
    ∃ o, w'.db.operations.get? r.operation = some o ∧ o.state = .ACCEPTED ∧ Sides env w.db r o ∧
      (FeeCharged r.fee w.db w'.db r o ↔ FreeOrOneSided env r) ∧
      (FeeCharged (declaredFee env r) w.db w'.db r o ↔ FreeOrOneSided env r) := by
  obtain ⟨c, currency, operation, tag, ownerInfo, beneficiaryInfo, created, accepted, w₁, db₂, t,
    rfl, hrequest, hcreate, haccept, hw'⟩ := execute_new h hnew
  obtain ⟨i, tt, hstored, hshape, hsides⟩ := execution_shape hrequest hcreate
  obtain ⟨o, hid, ha⟩ := AcceptOperationUseCase.accept_ok haccept
  obtain rfl : o = i.operation env now tt := Option.some.inj ((hid ▸ ha.found).symm.trans hstored)
  have htotal : Db.amountOf (·.total) w₁.db.walletAccounts
      = Db.amountOf (·.total) w.db.walletAccounts := by
    obtain ⟨howner, hbeneficiary⟩ := operationRequest_sides env hrequest
    obtain ⟨_, _, _, _, _, _, hx⟩ := CreateOperationUseCase.execute_ok hcreate
    exact (opens_execution hx howner hbeneficiary).total
  have hsides := hsides currency operation
  have hvalued : Valued env (c.transfer currency operation) (i.operation env now tt) :=
    hshape.valued
  -- The operation that is accepted differs from the one that was stored in its state only.
  refine ⟨AcceptOperationUseCase.accepted (i.operation env now tt), ?_⟩
  generalize ho : AcceptOperationUseCase.accepted (i.operation env now tt) = o
  have hside : Sides env w.db (c.transfer currency operation) o := by
    subst ho
    exact ⟨hsides.owner, hsides.beneficiary, hsides.ownerWallet, hsides.beneficiaryWallet⟩
  have hvalue : Valued env (c.transfer currency operation) o := by
    subst ho
    exact ⟨hvalued.amount_pos, hvalued.fee_nonneg, hvalued.value⟩
  have hmoved : ∀ id, Db.amountOf (·.total) w'.db.walletAccounts id =
      Db.amountOf (·.total) w.db.walletAccounts id - share o.owner o.value id
        + share o.beneficiary o.value id := by
    intro id
    subst ho
    rw [hw', ← htotal]
    exact moved_of_accept ha id
  refine ⟨?_, by rw [← ho]; rfl, hside, ?_, ?_⟩
  · obtain ⟨_, _, _, _, -, -, -, rfl⟩ := ha.written
    rw [hw', ← ho]
    exact Table.get?_set_self (hid ▸ ha.found) hid
  · exact charged_iff_of_moved hside hvalue hmoved hvalue.fee_nonneg id fun _ => rfl
  · have hdeclared : declaredFee env (c.transfer currency operation) = c.fee ∨
        declaredFee env (c.transfer currency operation) = 0 := ite_eq_or_eq _ _ _
    refine charged_iff_of_moved hside hvalue hmoved ?_ (fun hfee => ?_) fun h => if_pos h
    · rcases hdeclared with e | e
      · exact e ▸ hvalue.fee_nonneg
      · exact e.ge
    · exact hdeclared.elim (fun e => e.trans hfee) fun e => e

namespace Sample

/-- The first user transfers 300 to the second for a fee of 5. -/
def feeRequest : Request := ⟨some 7, some 1, some 1, some 2, some "R$", some 300, 5, none⟩

def feeTransfer : P2PTransfer := ⟨7, 1, 1, 2, 1, 4, 300, 5, none⟩

def feeWorld : World := (feeRequest.execute (env .DATE) noon).exec (start 1000 0).world

theorem feeRequest_run :
    feeRequest.execute (env .DATE) noon (start 1000 0).world = .ok feeTransfer feeWorld :=
  ok_exec (by decide +kernel)

end Sample

open Sample in
theorem charged_iff_sample :
    ∃ o, feeWorld.db.operations.get? 4 = some o ∧ o.state = .ACCEPTED ∧
      Sides (env .DATE) (start 1000 0).world.db feeTransfer o ∧
      (FeeCharged 5 (start 1000 0).world.db feeWorld.db feeTransfer o ↔
        FreeOrOneSided (env .DATE) feeTransfer) ∧
      (FeeCharged (declaredFee (env .DATE) feeTransfer) (start 1000 0).world.db feeWorld.db
          feeTransfer o ↔ FreeOrOneSided (env .DATE) feeTransfer) :=
  charged_iff feeRequest_run (by decide +kernel)

open Sample in
/-- A transfer of 300 for a fee of 5 takes 300 from the sender and gives 300 to the beneficiary. -/
theorem not_charged :
    feeRequest.execute (env .DATE) noon (start 1000 0).world = .ok feeTransfer feeWorld ∧
    Db.amountOf (·.total) (start 1000 0).world.db.walletAccounts 1 = 1000 ∧
    Db.amountOf (·.total) feeWorld.db.walletAccounts 1 = 700 ∧
    Db.amountOf (·.total) (start 1000 0).world.db.walletAccounts 2 = 0 ∧
    Db.amountOf (·.total) feeWorld.db.walletAccounts 2 = 300 ∧
    ∃ o, feeWorld.db.operations.get? 4 = some o ∧
      o.owner.map (·.walletAccount) = some 1 ∧ o.beneficiary.map (·.walletAccount) = some 2 ∧
      ¬FeeCharged 5 (start 1000 0).world.db feeWorld.db feeTransfer o ∧
      ¬FeeCharged (declaredFee (env .DATE) feeTransfer) (start 1000 0).world.db feeWorld.db
        feeTransfer o := by
  have hbefore : Db.amountOf (·.total) (start 1000 0).world.db.walletAccounts 2 = 0 := by
    decide +kernel
  have hafter : Db.amountOf (·.total) feeWorld.db.walletAccounts 2 = 300 := by decide +kernel
  have hsides : (feeWorld.db.operations.get? 4).map (fun o =>
      (o.owner.map (·.walletAccount), o.beneficiary.map (·.walletAccount)))
        = some (some 1, some 2) := by
    decide +kernel
  obtain ⟨o, ho, e⟩ := Option.map_eq_some_iff.mp hsides
  obtain ⟨howner, hbeneficiary⟩ := Prod.mk.inj e
  -- The beneficiary should have 295 more, whatever the sender pays.
  have hnot : ∀ f, ¬FeeCharged f (start 1000 0).world.db feeWorld.db feeTransfer o := by
    intro f hcharged
    have hat := hcharged 2
    have hnone : share o.owner (feeTransfer.amount + f) 2 = 0 :=
      if_neg fun h => absurd (howner.symm.trans h) (by decide)
    have hsome : share o.beneficiary (feeTransfer.amount - feeTransfer.fee) 2 = 295 :=
      if_pos hbeneficiary
    rw [hbefore, hafter, hnone, hsome] at hat
    exact absurd hat (by decide)
  exact ⟨feeRequest_run, by decide +kernel, by decide +kernel, hbefore, hafter, o, ho, howner,
    hbeneficiary, hnot _, hnot _⟩

end ZroServices
