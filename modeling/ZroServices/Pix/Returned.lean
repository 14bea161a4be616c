import ZroServices.Foundation.Run
import ZroServices.Pix.Accounts
import ZroServices.Pix.Devolutions

/-!
# PIX — what is returned of a transaction

Every execution of a handler is committed or rolled back as a whole.  Each moves the account of
one transaction at most, and the lemma about a handler says by how much it moves the counter and
what is held.  Four handlers move the two apart:

* the return after a failed deposit and the warning devolution write the whole amount over the
  counter, which forgets the returns that stand;
* a warning devolution that failed and is sent again is held again, and not counted;
* a refund devolution of a received devolution that is reverted is not held any longer, and still
  counted.

`covered_iff`: the accounts are balanced along a run if and only if none of this happens in it.
-/

namespace ZroServices.Pix

open Foundation

namespace Database

variable {db : Database}

/-! ### The handlers -/

/-- An execution keeps the rows linked, and leaves balanced accounts balanced if and only if `ok`
holds. -/
structure Leads (db db' : Database) (ok : Prop) : Prop where
  linked : db'.Linked
  changes : Accounts.Changes db.accounts db'.accounts ok

theorem leads_self (hl : db.Linked) : db.Leads db True := ⟨hl, .same rfl trivial⟩

theorem Leads.congr {db' : Database} {ok ok' : Prop} (h : db.Leads db' ok) (e : ok ↔ ok') :
    db.Leads db' ok' := propext e ▸ h

/-- A counter that moved within the limit. -/
theorem Moves.leads {db' : Database} {k : Transaction} {x y : ℤ} {ok : Prop}
    (h : db.Moves db' k x y) {a : Account ℤ} (hk : db.accounts k = some a)
    (hx : a.taken + x ≤ a.limit) (hok : x = y ↔ ok) : db.Leads db' ok :=
  ⟨h.linked, .moved k a x y hk hx h.accounts hok⟩

end Database

open Database

variable {config : Config} {services : Services} {now : ℤ} {db db' : Database}
variable {r : PixDevolution} {d : PixDeposit} {id : Uuid} {w : WarningPixDevolution} {u : Unit}
  {settle : Uuid → Except Exception Unit} {chargebackReason : Option String}
  {failed : Option Failed}
variable {deposit : PixDeposit} {db₁ : Database} {found : Option Operation}
  {endToEndId : Option String}

/-! #### Creation -/

/-- A row of a new id is inserted. -/
theorem insert?_of_new {α : Type} [Keyed α Uuid] {t : Table α} {r : α}
    (h : t.get? (Keyed.key r) = none) :
    t.insert? r =
      some ((t.insert? r).get (Option.isSome_iff_exists.mpr (Table.insert?_of_fresh h))) :=
  (Option.some_get _).symm

theorem createRefundDevolution_ok {r d : PixRefundDevolution} :
    createRefundDevolution d db = .ok r db' ↔
      r = d ∧ ∃ t, db.refundDevolutions.insert? d = some t ∧
        db' = { db with refundDevolutions := t } := by
  simp only [createRefundDevolution, get_bind_ok, orThrow_bind_ok, modify_bind_ok, pure_ok]
  constructor
  · rintro ⟨t, ht, rfl, rfl⟩
    exact ⟨rfl, t, ht, rfl⟩
  · rintro ⟨rfl, t, ht, rfl⟩
    exact ⟨t, ht, rfl, rfl⟩

/-- The counter of a deposit is written, and a devolution of the deposit created. -/
theorem leads_devolution (hl : db.Linked) (hd : db.deposits.get? d.id = some d)
    (x : ℤ) (hle : x ≤ d.amount) {t : Table PixDevolution}
    (ht : db.devolutions.insert? r = some t) (hdep : r.deposit = d.id) (hlive : r.state.live) :
    db.Leads
      { db with deposits := db.deposits.set { d with returnedAmount := x }, devolutions := t }
      (x = d.returnedAmount + r.amount) := by
  have counted := moves_setReturned hl hd x
  have hs := counted.stored hd
  have held := hdep ▸ moves_insertDevolution counted.linked ht (hdep ▸ hs)
  refine (counted.trans held).leads (accounts_deposit hd) ?_ ?_
  · change d.returnedAmount + (x - d.returnedAmount + 0) ≤ (d.amount : ℤ)
    omega
  · rw [DevolutionState.held_of_live hlive]
    omega

/-- A devolution takes what is left of the deposit. -/
theorem createPixDevolution_leads (hl : db.Linked) {uuid user wallet operation : Uuid} {amount : ℕ}
    {description : Option String}
    (h : createPixDevolution config now uuid id user wallet operation amount description db
      = .ok r db') : db.Leads db' True := by
  rw [createPixDevolution, throwIf_bind_ok, get_bind_ok] at h
  obtain ⟨-, h⟩ := h
  cases hfound : db.devolutions.get? id with
  | some devolution =>
      simp only [hfound, throwIf_bind_ok, pure_ok] at h
      obtain ⟨-, -, rfl⟩ := h
      exact leads_self hl
  | none =>
      simp only [hfound, throwIf_bind_ok, orThrow_bind_ok, updateDeposit, modify_bind_ok,
        createDevolution, get_bind_ok, pure_ok] at h
      obtain ⟨deposit, hdeposit, -, -, -, hleft, t, ht, rfl, rfl⟩ := h
      have hd := mem_of_getDepositByOperationAndWallet hdeposit
      refine (leads_devolution hl hd (deposit.returnedAmount + amount) ?_ ht rfl rfl).congr
        (iff_true_intro rfl)
      omega

/-- The return after a failed deposit writes over a counter of zero. -/
def FailedSound (db : Database) (id pixDepositId : Uuid) : Prop :=
  ∀ d, db.devolutions.get? id = none → db.deposits.get? pixDepositId = some d →
    d.state = .ERROR → d.returnedAmount = 0

/-- The whole deposit is returned after it failed. -/
theorem handleCreateFailedPixDevolution_leads (hl : db.Linked) {uuid pixDepositId : Uuid}
    (h : handleCreateFailedPixDevolution uuid id pixDepositId db = .ok r db') :
    db.Leads db' (FailedSound db id pixDepositId) := by
  rw [handleCreateFailedPixDevolution, get_bind_ok] at h
  cases hfound : db.devolutions.get? id with
  | some devolution =>
      simp only [hfound, pure_ok] at h
      obtain ⟨-, rfl⟩ := h
      exact (leads_self hl).congr (by simp [FailedSound, hfound])
  | none =>
      simp only [hfound, throwIf_bind_ok, orThrow_bind_ok, updateDeposit, modify_bind_ok,
        createDevolution, get_bind_ok, pure_ok] at h
      obtain ⟨deposit, hdeposit, hstate, t, ht, rfl, rfl⟩ := h
      obtain rfl : deposit.id = pixDepositId := Table.key_of_get? hdeposit
      refine (leads_devolution hl hdeposit deposit.amount le_rfl ht rfl rfl).congr ?_
      simp [FailedSound, hfound, hdeposit, not_not.mp hstate]

theorem handleCreateFailedPixDevolution_returns {uuid pixDepositId : Uuid}
    (hid : db.devolutions.get? id = none) (hd : db.deposits.get? pixDepositId = some d)
    (hstate : d.state = .ERROR) :
    ∃ r db', handleCreateFailedPixDevolution uuid id pixDepositId db = .ok r db' := by
  simp only [handleCreateFailedPixDevolution, get_bind_ok, hid, throwIf_bind_ok, orThrow_bind_ok,
    updateDeposit, modify_bind_ok, createDevolution, pure_ok]
  exact ⟨_, _, d, hd, not_not.mpr hstate, _, insert?_of_new hid, rfl, rfl⟩

/-- The counter of a deposit is written, and a warning devolution of the deposit created. -/
theorem leads_warning (hl : db.Linked) (hd : db.deposits.get? d.id = some d)
    (x : ℤ) (hle : x ≤ d.amount) {r : WarningPixDevolution} {t : Table WarningPixDevolution}
    (ht : db.warningDevolutions.insert? r = some t) (hop : r.operation = d.operation)
    (hlive : r.state.live) :
    db.Leads
      { db with deposits := db.deposits.set { d with returnedAmount := x }
                warningDevolutions := t }
      (x = d.returnedAmount + r.amount) := by
  have counted := moves_setReturned hl hd x
  have hmem := Table.mem_of_get?
    (Table.get?_set_self (r := { d with returnedAmount := x }) hd rfl)
  have held := moves_insertWarning counted.linked ht hmem hop
  refine (counted.trans held).leads (accounts_deposit hd) ?_ ?_
  · change d.returnedAmount + (x - d.returnedAmount + 0) ≤ (d.amount : ℤ)
    omega
  · rw [DevolutionState.held_of_live hlive]
    omega

/-- The warning devolution writes over a counter of zero. -/
def WarningSound (db : Database) (id warningPixDepositId : Uuid) : Prop :=
  ∀ w d, db.warningDevolutions.get? id = none →
    db.warningDeposits.get? warningPixDepositId = some w →
    db.getDepositByOperation w.operation = some d → d.returnedAmount = 0

/-- The whole deposit is returned for a warning. -/
theorem handleCreateWarningPixDevolution_leads (hl : db.Linked) {warningPixDepositId : Uuid}
    {r : WarningPixDevolution}
    (h : handleCreateWarningPixDevolution id warningPixDepositId db = .ok r db') :
    db.Leads db' (WarningSound db id warningPixDepositId) := by
  rw [handleCreateWarningPixDevolution, get_bind_ok] at h
  cases hfound : db.warningDevolutions.get? id with
  | some devolution =>
      simp only [hfound, pure_ok] at h
      obtain ⟨-, rfl⟩ := h
      exact (leads_self hl).congr (by simp [WarningSound, hfound])
  | none =>
      simp only [hfound, orThrow_bind_ok, updateDeposit, modify_bind_ok,
        createWarningDevolution, get_bind_ok, pure_ok] at h
      obtain ⟨w, hw, d, hd, t, ht, rfl, rfl⟩ := h
      have hget := (mem_of_getDepositByOperation hd).1
      refine (leads_warning hl hget d.amount le_rfl ht rfl rfl).congr ?_
      constructor
      · intro h w' d' _ hw' hd'
        cases hw.symm.trans hw'
        cases hd.symm.trans hd'
        change (d.amount : ℤ) = d.returnedAmount + d.amount at h
        omega
      · intro h
        rw [h w d hfound hw hd]
        exact (zero_add _).symm

theorem handleCreateWarningPixDevolution_returns {warningPixDepositId : Uuid}
    {w : WarningPixDeposit} (hid : db.warningDevolutions.get? id = none)
    (hw : db.warningDeposits.get? warningPixDepositId = some w)
    (hd : db.getDepositByOperation w.operation = some d) :
    ∃ r db', handleCreateWarningPixDevolution id warningPixDepositId db = .ok r db' := by
  simp only [handleCreateWarningPixDevolution, get_bind_ok, hid, orThrow_bind_ok, updateDeposit,
    modify_bind_ok, createWarningDevolution, pure_ok]
  exact ⟨_, _, w, hw, d, hd, _, insert?_of_new hid, rfl, rfl⟩

theorem addReturnedAmount_ok {type : PixRefundTransactionType} {deposit : Option PixDeposit}
    {received : Option PixDevolutionReceived} {refundAmount : Option ℕ} {n : ℕ}
    (h : addReturnedAmount type deposit received refundAmount db = .ok n db') :
    refundAmount = some n ∧
      ((∃ d, deposit = some d ∧ db' = { db with
          deposits := db.deposits.set { d with returnedAmount := d.returnedAmount + n } }) ∨
        ∃ r, received = some r ∧ db' = { db with
          devolutionsReceived :=
            db.devolutionsReceived.set { r with returnedAmount := r.returnedAmount + n } }) := by
  have other (h : (do
      let devolutionReceived ← orThrow received .typeError
      let amount ← orThrow refundAmount .invalidSyntaxForBigint
      updateDevolutionReceived
        { devolutionReceived with
          returnedAmount := devolutionReceived.returnedAmount + (amount : ℤ) }
      return amount : App ℕ) db = .ok n db') :
      refundAmount = some n ∧ ∃ r, received = some r ∧ db' = { db with
        devolutionsReceived :=
          db.devolutionsReceived.set { r with returnedAmount := r.returnedAmount + n } } := by
    simp only [orThrow_bind_ok, updateDevolutionReceived, modify_bind_ok, pure_ok] at h
    obtain ⟨r, hr, _, ha, rfl, rfl⟩ := h
    exact ⟨ha, r, hr, rfl⟩
  cases type with
  | DEPOSIT =>
      simp only [addReturnedAmount, orThrow_bind_ok, updateDeposit, modify_bind_ok, pure_ok] at h
      obtain ⟨d, hd, _, ha, rfl, rfl⟩ := h
      exact ⟨ha, .inl ⟨d, hd, rfl⟩⟩
  | PAYMENT => exact ⟨(other h).1, .inr (other h).2⟩
  | DEVOLUTION => exact ⟨(other h).1, .inr (other h).2⟩
  | DEVOLUTION_RECEIVED => exact ⟨(other h).1, .inr (other h).2⟩

/-- The counter of a transaction moves, and a refund devolution of as much is created. -/
theorem leads_refund {k : Transaction} {x : ℤ} (counted : db.Moves db₁ k x 0)
    {a : Account ℤ} (hk : db.accounts k = some a) (hle : a.taken + x ≤ a.limit)
    {r : PixRefundDevolution} {t : Table PixRefundDevolution}
    (ht : db₁.refundDevolutions.insert? r = some t) (hkey : r.key = k) (hlive : r.state.live)
    (hx : x = r.amount) : db.Leads { db₁ with refundDevolutions := t } True := by
  have hs : db₁.stored r.key := by
    rw [hkey, stored_of_accounts counted.accounts, ← isSome_accounts, hk]
    rfl
  have held := hkey ▸ moves_insertRefund counted.linked ht hs
  refine (counted.trans held).leads hk ?_ (iff_true_intro ?_)
  · rw [add_zero]
    exact hle
  · rw [DevolutionState.held_of_live hlive, hx]
    exact add_comm _ _

theorem transactionFound_deposit {received : Option PixDevolutionReceived} :
    transactionFound (some d) received = some d.toRefundTransaction := rfl

theorem transactionFound_received {r : PixDevolutionReceived} :
    transactionFound none (some r) = some r.toRefundTransaction := rfl

/-- A refund devolution takes what is left of its transaction. -/
theorem handleCreatePixRefundDevolution_leads (hl : db.Linked) {refundId : Uuid}
    {r : PixRefundDevolution}
    (h : handleCreatePixRefundDevolution config now id refundId db = .ok r db') :
    db.Leads db' True := by
  rw [handleCreatePixRefundDevolution, get_bind_ok] at h
  cases hfound : db.refundDevolutions.get? id with
  | some devolution =>
      simp only [hfound, pure_ok] at h
      obtain ⟨-, rfl⟩ := h
      exact leads_self hl
  | none =>
      simp only [hfound, orThrow_bind_ok, throwIf_bind_ok] at h
      obtain ⟨refund, -, found, ht, -, -, -, hleft, h⟩ := h
      obtain ⟨n, db₁, hadd, h⟩ := bind_ok.mp h
      obtain ⟨operation, -, h⟩ := orThrow_bind_ok.mp h
      obtain ⟨rfl, t, hins, rfl⟩ := createRefundDevolution_ok.mp h
      obtain ⟨hn, ⟨d, hd, rfl⟩ | ⟨x, hx, rfl⟩⟩ := addReturnedAmount_ok hadd
      · have hid : d.id = refund.transaction := Table.key_of_get? hd
        have hget : db.deposits.get? d.id = some d := hid ▸ hd
        rw [hd, transactionFound_deposit, Option.some_inj] at ht
        subst ht
        have hle : ¬ (d.amount : ℤ) - d.returnedAmount < n := fun hlt => hleft ⟨n, hn, hlt⟩
        refine leads_refund (moves_setReturned hl hget (d.returnedAmount + n))
          (accounts_deposit hget) ?_ hins ?_ rfl ?_
        · change d.returnedAmount + (d.returnedAmount + n - d.returnedAmount) ≤ (d.amount : ℤ)
          omega
        · simp [PixRefundDevolution.key, hd, PixDeposit.toRefundTransaction]
        · change d.returnedAmount + n - d.returnedAmount = (n : ℤ)
          omega
      · have hid : x.id = refund.transaction := Table.key_of_get? hx
        have hget : db.devolutionsReceived.get? x.id = some x := hid ▸ hx
        have hd : db.deposits.get? refund.transaction = none := by
          rw [Table.get?_eq_none]
          intro d hd e
          exact hl.disjoint d hd x (Table.mem_of_get? hx) (Eq.trans e hid.symm)
        rw [hd, hx, transactionFound_received, Option.some_inj] at ht
        subst ht
        have hle : ¬ (x.amount : ℤ) - x.returnedAmount < n := fun hlt => hleft ⟨n, hn, hlt⟩
        have counted := moves_setReceived (e := { x with returnedAmount := x.returnedAmount + n })
          hl hget rfl rfl
        refine leads_refund counted (accounts_received hget) ?_ hins ?_ rfl ?_
        · change x.returnedAmount + (x.returnedAmount + n - x.returnedAmount) ≤ (x.amount : ℤ)
          omega
        · simp [PixRefundDevolution.key, hd, PixDevolutionReceived.toRefundTransaction]
        · change x.returnedAmount + n - x.returnedAmount = (n : ℤ)
          omega

/-! #### Sending and completion -/

/-- A write that moves no account. -/
theorem Database.Leads.same {db₂ : Database} {ok : Prop} {k : Transaction}
    (h : db.Leads db₁ ok) (h' : db₁.Moves db₂ k 0 0) : db.Leads db₂ ok :=
  ⟨h'.linked, by rw [h'.accounts, Accounts.move_zero]; exact h.changes⟩

/-- A live devolution stays one. -/
theorem moves_devolution_state (hl : db.Linked) {e : PixDevolution}
    (hr : db.devolutions.get? r.id = some r) (hid : e.id = r.id) (hdep : e.deposit = r.deposit)
    (hamount : e.amount = r.amount) (hlive : r.state.live) (hlive' : e.state.live) :
    db.Moves { db with devolutions := db.devolutions.set e } (.deposit r.deposit) 0 0 := by
  have h := moves_setDevolution hl hr hid hdep
  rwa [DevolutionState.held_of_live hlive, DevolutionState.held_of_live hlive', hamount,
    sub_self] at h

theorem moves_refund_state (hl : db.Linked) {r e : PixRefundDevolution}
    (hr : db.refundDevolutions.get? r.id = some r) (hid : e.id = r.id) (hk : e.key = r.key)
    (hamount : e.amount = r.amount) (hlive : r.state.live) (hlive' : e.state.live) :
    db.Moves { db with refundDevolutions := db.refundDevolutions.set e } r.key 0 0 := by
  have h := moves_setRefund hl hr hid hk
  rwa [DevolutionState.held_of_live hlive, DevolutionState.held_of_live hlive', hamount,
    sub_self] at h

theorem sendDevolutionPSP_leads (hl : db.Linked) {d : PixDevolution}
    (hd : db.devolutions.get? d.id = some d) (hlive : d.state.live)
    (h : sendDevolutionPSP services d deposit db = .ok r db') : db.Leads db' True := by
  simp only [sendDevolutionPSP, call_bind_ok, updateDevolution, modify_bind_ok, pure_ok] at h
  obtain ⟨-, -, response, -, rfl, rfl⟩ := h
  exact (leads_self hl).same (moves_devolution_state hl hd rfl rfl rfl hlive rfl)

theorem createDevolutionReceived_ok {r : PixDevolutionReceived}
    (h : createDevolutionReceived r db = .ok u db') :
    ∃ t, db.devolutionsReceived.insert? r = some t ∧
      db' = { db with devolutionsReceived := t } := by
  simpa only [createDevolutionReceived, get_bind_ok, orThrow_bind_ok, modify_ok] using h

theorem lt_uuidV4 (hd : d ∈ db.deposits.rows) : d.id < db.uuidV4 :=
  lt_fresh (List.mem_append_left _ (List.mem_append_left _ (List.mem_map_of_mem hd)))

section

variable (hl : db.Linked)
include hl

theorem sendDevolutionP2P_leads {d : PixDevolution}
    {beneficiary : WalletAccount} (hd : db.devolutions.get? d.id = some d)
    (hlive : d.state.live)
    (h : sendDevolutionP2P services d deposit beneficiary db = .ok r db') :
    db.Leads db' True := by
  simp only [sendDevolutionP2P, get_bind_ok, throwIf_bind_ok, call_bind_ok] at h
  obtain ⟨-, -, -, h⟩ := h
  obtain ⟨_, db₁, hcreate, h⟩ := bind_ok.mp h
  obtain ⟨t, ht, rfl⟩ := createDevolutionReceived_ok hcreate
  simp only [updateDevolution, modify_bind_ok, pure_ok] at h
  obtain ⟨rfl, rfl⟩ := h
  obtain ⟨linked, opened⟩ :=
    opened_insertReceived hl ht rfl fun e he => Nat.ne_of_lt (lt_uuidV4 he)
  have first : db.Leads { db with devolutionsReceived := t } True :=
    ⟨linked, .opened _ _ (Int.natCast_nonneg d.amount) opened trivial⟩
  exact first.same (moves_devolution_state linked hd rfl rfl rfl hlive rfl)

theorem handlePendingPixDevolution_leads
    (h : handlePendingPixDevolution config services id db = .ok r db') : db.Leads db' True := by
  simp only [handlePendingPixDevolution, get_bind_ok, orThrow_bind_ok] at h
  obtain ⟨d, hd, h⟩ := h
  obtain rfl : d.id = id := Table.key_of_get? hd
  cases hstate : d.state with
  | WAITING | CONFIRMED =>
      simp only [hstate, pure_ok] at h
      obtain ⟨-, rfl⟩ := h
      exact leads_self hl
  | PENDING =>
      have hlive : d.state.live = true := by rw [hstate]; rfl
      simp only [hstate, orThrow_bind_ok] at h
      obtain ⟨deposit, -, h⟩ := h
      cases hbank : decide (deposit.thirdPartBank = config.pixDevolutionZroBankIspb) with
      | false =>
          rw [hbank] at h
          exact sendDevolutionPSP_leads hl hd hlive h
      | true =>
          simp only [hbank, call_bind_ok, orThrow_bind_ok, throwIf_bind_ok] at h
          obtain ⟨_, -, beneficiary, -, -, h⟩ := h
          exact sendDevolutionP2P_leads hl hd hlive h
  | ERROR | FAILED | CANCELED =>
      rw [hstate] at h
      exact absurd h throw_ok

theorem handlePendingFailedPixDevolution_leads
    (h : handlePendingFailedPixDevolution services id db = .ok r db') : db.Leads db' True := by
  simp only [handlePendingFailedPixDevolution, get_bind_ok, orThrow_bind_ok] at h
  obtain ⟨d, hd, h⟩ := h
  obtain rfl : d.id = id := Table.key_of_get? hd
  cases hstate : d.state with
  | WAITING | CONFIRMED =>
      simp only [hstate, pure_ok] at h
      obtain ⟨-, rfl⟩ := h
      exact leads_self hl
  | PENDING =>
      have hlive : d.state.live = true := by rw [hstate]; rfl
      simp only [hstate, orThrow_bind_ok, call_bind_ok, updateDevolution, modify_bind_ok,
        pure_ok] at h
      obtain ⟨deposit, -, response, -, rfl, rfl⟩ := h
      exact (leads_self hl).same (moves_devolution_state hl hd rfl rfl rfl hlive rfl)
  | ERROR | FAILED | CANCELED =>
      rw [hstate] at h
      exact absurd h throw_ok

theorem handlePendingPixRefundDevolution_leads {r : PixRefundDevolution}
    (h : handlePendingPixRefundDevolution config services id db = .ok r db') :
    db.Leads db' True := by
  simp only [handlePendingPixRefundDevolution, get_bind_ok, orThrow_bind_ok] at h
  obtain ⟨d, hd, h⟩ := h
  obtain rfl : d.id = id := Table.key_of_get? hd
  cases hstate : d.state with
  | WAITING | CONFIRMED =>
      simp only [hstate, pure_ok] at h
      obtain ⟨-, rfl⟩ := h
      exact leads_self hl
  | PENDING =>
      have hlive : d.state.live = true := by rw [hstate]; rfl
      simp only [hstate, orThrow_bind_ok] at h
      obtain ⟨transaction, -, h⟩ := h
      cases hbank : decide (transaction.thirdPartBank = config.pixDevolutionZroBankIspb) with
      | false =>
          simp only [hbank, sendRefundDevolutionPSP, call_bind_ok, updateRefundDevolution,
            modify_bind_ok, pure_ok] at h
          obtain ⟨response, -, rfl, rfl⟩ := h
          exact (leads_self hl).same (moves_refund_state hl hd rfl rfl rfl hlive rfl)
      | true =>
          simp only [hbank, call_bind_ok, orThrow_bind_ok, throwIf_bind_ok,
            sendRefundDevolutionP2P, updateRefundDevolution, modify_bind_ok, pure_ok] at h
          obtain ⟨_, -, account, -, -, -, -, rfl, rfl⟩ := h
          exact (leads_self hl).same (moves_refund_state hl hd rfl rfl rfl hlive rfl)
  | ERROR | FAILED | CANCELED =>
      rw [hstate] at h
      exact absurd h throw_ok

end

theorem settleFound_ok {operation : Uuid} (h : settleFound settle found operation db = .ok u db') :
    db = db' := by
  cases found with
  | some _ => exact (call_ok.mp h).2.symm
  | none => exact (pure_ok.mp h).2.symm

theorem handleCompletePixDevolution_leads (hl : db.Linked)
    (h : handleCompletePixDevolution services id endToEndId db = .ok r db') :
    db.Leads db' True := by
  simp only [handleCompletePixDevolution, get_bind_ok, orThrow_bind_ok] at h
  obtain ⟨d, hd, h⟩ := h
  obtain rfl : d.id = id := Table.key_of_get? hd
  cases hstate : d.state with
  | CONFIRMED =>
      simp only [hstate, pure_ok] at h
      obtain ⟨-, rfl⟩ := h
      exact leads_self hl
  | WAITING =>
      have hlive : d.state.live = true := by rw [hstate]; rfl
      simp only [hstate, call_bind_ok] at h
      obtain ⟨found, -, h⟩ := h
      obtain ⟨_, db₁, hsettled, h⟩ := bind_ok.mp h
      obtain rfl := settleFound_ok hsettled
      simp only [orThrow_bind_ok, updateDevolution, modify_bind_ok, pure_ok] at h
      obtain ⟨-, -, rfl, rfl⟩ := h
      exact (leads_self hl).same (moves_devolution_state hl hd rfl rfl rfl hlive rfl)
  | PENDING | ERROR | FAILED | CANCELED =>
      rw [hstate] at h
      exact absurd h throw_ok

/-- A warning devolution is written: what is held against its deposit changes. -/
theorem leads_setWarning (hl : db.Linked) (hb : db.accounts.Balanced) {r e : WarningPixDevolution}
    (hr : db.warningDevolutions.get? r.id = some r) (hid : e.id = r.id)
    (hop : e.operation = r.operation) :
    db.Leads { db with warningDevolutions := db.warningDevolutions.set e }
      (r.state.held r.amount = e.state.held e.amount) := by
  obtain ⟨d, hd, hd'⟩ := hl.warning r (Table.mem_of_get? hr)
  have hk := accounts_deposit (Table.get?_of_mem hd)
  refine (moves_setWarning hl hr hid hop hd hd').leads hk ?_ ?_
  · rw [add_zero]
    exact (hb _ _ hk).le
  · rw [eq_comm, sub_eq_zero, eq_comm]

theorem handleCompleteWarningPixDevolution_leads (hl : db.Linked) (hb : db.accounts.Balanced)
    {r : WarningPixDevolution}
    (h : handleCompleteWarningPixDevolution id endToEndId db = .ok r db') :
    db.Leads db' True := by
  simp only [handleCompleteWarningPixDevolution, get_bind_ok, orThrow_bind_ok] at h
  obtain ⟨d, hd, h⟩ := h
  obtain rfl : d.id = id := Table.key_of_get? hd
  cases hstate : d.state with
  | CONFIRMED =>
      simp only [hstate, pure_ok] at h
      obtain ⟨-, rfl⟩ := h
      exact leads_self hl
  | WAITING =>
      simp only [hstate, updateWarningDevolution, modify_bind_ok, pure_ok] at h
      obtain ⟨rfl, rfl⟩ := h
      exact (leads_setWarning (e := { d with state := .CONFIRMED, endToEndId }) hl hb hd rfl
        rfl).congr (iff_true_intro (by rw [hstate]; rfl))
  | PENDING | ERROR | FAILED | CANCELED =>
      rw [hstate] at h
      exact absurd h throw_ok

/-- The services answer a warning devolution so that it is sent. -/
def Services.Sends (services : Services) (config : Config) (db : Database)
    (w : WarningPixDevolution) : Prop :=
  ∃ operation deposit response,
    services.getOperationById w.operation = .ok (some operation) ∧
    db.getDepositByOperation w.operation = some deposit ∧
    services.createWarningPixDevolution (w.pspRequest deposit) = .ok response ∧
    (operation.isReverted = false → services.revertOperation operation.id = .ok ()) ∧
    (w.devolutionCode = .ORIGINAL → ∃ issueId,
      services.getWarningTransactionByOperation w.operation = .ok (some issueId) ∧
      services.addWarningTransactionComment issueId config.messageUserRequestWarningPixDevolution
        = .ok ())

/-- No warning devolution that failed is sent again, unless it is of nothing. -/
def RetrySound (config : Config) (services : Services) (db : Database) (id : Uuid) : Prop :=
  ∀ w, db.warningDevolutions.get? id = some w → w.state = .FAILED →
    services.Sends config db w → w.amount = 0

/-- The compliance service is told of a warning devolution that the user asked for. -/
def Services.Notifies (services : Services) (config : Config) (w : WarningPixDevolution) : Prop :=
  w.devolutionCode = .ORIGINAL → ∃ issueId,
    services.getWarningTransactionByOperation w.operation = .ok (some issueId) ∧
    services.addWarningTransactionComment issueId config.messageUserRequestWarningPixDevolution
      = .ok ()

theorem notifyCompliance_ok {db db' : Database} :
    notifyCompliance config services w db = .ok u db' ↔
      services.Notifies config w ∧ db' = db := by
  rw [Services.Notifies]
  cases hcode : w.devolutionCode with
  | ORIGINAL =>
      simp only [notifyCompliance, hcode, call_bind_ok, orThrow_bind_ok, call_ok, forall_const]
      constructor
      · rintro ⟨_, h, issueId, rfl, h', rfl⟩
        exact ⟨⟨issueId, h, h'⟩, rfl⟩
      · rintro ⟨⟨issueId, h, h'⟩, rfl⟩
        exact ⟨_, h, issueId, rfl, h', rfl⟩
  | FRAUD | PSP_ERROR | WITHDRAWAL_CHANGE => simp [notifyCompliance, hcode, pure_ok]

theorem revertUnlessReverted_ok {db db' : Database} {operation : Operation} :
    revertUnlessReverted services operation db = .ok u db' ↔
      (operation.isReverted = false → services.revertOperation operation.id = .ok ()) ∧
        db' = db := by
  cases hr : operation.isReverted with
  | true => simp [revertUnlessReverted, hr, pure_ok]
  | false => simp [revertUnlessReverted, hr, call_ok]

theorem sendWarningDevolution_ok {r : WarningPixDevolution} :
    sendWarningDevolution config services w db = .ok r db' ↔
      ∃ operation deposit response,
        (services.getOperationById w.operation = .ok (some operation) ∧
          db.getDepositByOperation w.operation = some deposit ∧
          services.createWarningPixDevolution (w.pspRequest deposit) = .ok response ∧
          (operation.isReverted = false → services.revertOperation operation.id = .ok ()) ∧
          services.Notifies config w) ∧
        r = w.sentAs response ∧
        db' = { db with warningDevolutions := db.warningDevolutions.set r } := by
  simp only [sendWarningDevolution, get_bind_ok, call_bind_ok, orThrow_bind_ok,
    updateWarningDevolution, modify_bind_ok, unit_bind_ok fun _ _ => revertUnlessReverted_ok,
    unit_bind_ok fun _ _ => notifyCompliance_ok, pure_ok]
  constructor
  · rintro ⟨_, hfound, operation, rfl, deposit, hdeposit, response, hresponse, hrevert, hnotify,
      rfl, rfl⟩
    exact ⟨operation, deposit, response, ⟨hfound, hdeposit, hresponse, hrevert, hnotify⟩, rfl, rfl⟩
  · rintro ⟨operation, deposit, response, ⟨hfound, hdeposit, hresponse, hrevert, hnotify⟩, rfl, rfl⟩
    exact ⟨_, hfound, operation, rfl, deposit, hdeposit, response, hresponse, hrevert, hnotify,
      rfl, rfl⟩

theorem sendWarningDevolution_returns (h : services.Sends config db w) :
    ∃ r db', sendWarningDevolution config services w db = .ok r db' := by
  obtain ⟨operation, deposit, response, hsends⟩ := h
  exact ⟨_, _, sendWarningDevolution_ok.mpr ⟨operation, deposit, response, hsends, rfl, rfl⟩⟩

theorem handlePendingWarningPixDevolution_leads (hl : db.Linked) (hb : db.accounts.Balanced)
    {r : WarningPixDevolution}
    (h : handlePendingWarningPixDevolution config services id db = .ok r db') :
    db.Leads db' (RetrySound config services db id) := by
  simp only [handlePendingWarningPixDevolution, get_bind_ok, orThrow_bind_ok] at h
  obtain ⟨w, hw, h⟩ := h
  obtain rfl : w.id = id := Table.key_of_get? hw
  cases hstate : w.state with
  | WAITING | CONFIRMED =>
      simp only [hstate, pure_ok] at h
      obtain ⟨-, rfl⟩ := h
      exact (leads_self hl).congr (by simp [RetrySound, hw, hstate])
  | PENDING | FAILED =>
      simp only [hstate] at h
      obtain ⟨operation, deposit, response, hsends, rfl, rfl⟩ := sendWarningDevolution_ok.mp h
      have sends : services.Sends config db w := ⟨operation, deposit, response, hsends⟩
      refine (leads_setWarning (e := w.sentAs response) hl hb hw rfl rfl).congr ?_
      simp [RetrySound, hw, hstate, sends, WarningPixDevolution.sentAs, DevolutionState.held,
        DevolutionState.live, eq_comm]
  | ERROR | CANCELED =>
      rw [hstate] at h
      exact absurd h throw_ok

theorem handlePendingWarningPixDevolution_returns
    (hw : db.warningDevolutions.get? id = some w) (hstate : w.state = .FAILED)
    (h : services.Sends config db w) :
    ∃ r db', handlePendingWarningPixDevolution config services id db = .ok r db' := by
  obtain ⟨r, db', hr⟩ := sendWarningDevolution_returns h
  refine ⟨r, db', ?_⟩
  simp only [handlePendingWarningPixDevolution, get_bind_ok, orThrow_bind_ok]
  refine ⟨w, hw, ?_⟩
  rw [hstate]
  exact hr

/-! #### Refunds that are closed -/

/-- The operations of a list are settled one after the other. -/
theorem closeAll_ok (db : Database) {l : List PixInfractionRefundOperation} :
    (∃ u, l.forM (closePixInfractionRefundOperation settle) db = .ok u db') ↔
      (∀ o ∈ l, settle o.refundOperation = .ok ()) ∧ db' = { db with
        infractionRefundOperations := db.infractionRefundOperations.setAll
          (l.map fun o => { o with state := .CLOSED }) } := by
  induction l generalizing db with
  | nil =>
      change (∃ u, (pure () : App Unit) db = .ok u db') ↔ _
      simp [pure_ok, Table.setAll]
  | cons o l ih =>
      change (∃ u, (closePixInfractionRefundOperation settle o >>= fun _ =>
        l.forM (closePixInfractionRefundOperation settle)) db = .ok u db') ↔ _
      simp only [closePixInfractionRefundOperation, bind_assoc, call_bind_ok,
        updateInfractionRefundOperation, modify_bind_ok, List.mem_cons, forall_eq_or_imp]
      constructor
      · rintro ⟨u, _, ho, h⟩
        obtain ⟨hl, rfl⟩ := (ih _).mp ⟨u, h⟩
        exact ⟨⟨ho, hl⟩, rfl⟩
      · rintro ⟨⟨ho, hl⟩, rfl⟩
        obtain ⟨u, h⟩ := (ih { db with
          infractionRefundOperations :=
            db.infractionRefundOperations.set { o with state := .CLOSED } }).mpr ⟨hl, rfl⟩
        exact ⟨u, (), ho, h⟩

theorem closePixInfractionRefundOperations_ok {pixRefund : PixRefund} :
    (∃ u, closePixInfractionRefundOperations settle pixRefund db = .ok u db') ↔
      (∀ o ∈ db.getOpenInfractionRefundOperations pixRefund.id,
        settle o.refundOperation = .ok ()) ∧ db' = { db with
        infractionRefundOperations := db.infractionRefundOperations.setAll
          ((db.getOpenInfractionRefundOperations pixRefund.id).map
            fun o => { o with state := .CLOSED }) } := by
  simp only [closePixInfractionRefundOperations, get_bind_ok]
  exact closeAll_ok db

/-- The refunds and their operations are beside the accounts. -/
theorem Database.Leads.beside {ok : Prop} (h : db.Leads db' ok)
    (t : Table PixInfractionRefundOperation) (u : Table PixRefund) :
    db.Leads { db' with infractionRefundOperations := t, refunds := u } ok :=
  ⟨⟨h.linked.operations, h.linked.disjoint, h.linked.devolution, h.linked.warning,
    h.linked.refund⟩, h.changes⟩

theorem handleCompletePixRefundDevolution_leads (hl : db.Linked) {r : PixRefundDevolution}
    (h : handleCompletePixRefundDevolution services id endToEndId db = .ok r db') :
    db.Leads db' True := by
  simp only [handleCompletePixRefundDevolution, get_bind_ok, orThrow_bind_ok] at h
  obtain ⟨d, hd, h⟩ := h
  obtain rfl : d.id = id := Table.key_of_get? hd
  cases hstate : d.state with
  | CONFIRMED =>
      simp only [hstate, pure_ok] at h
      obtain ⟨-, rfl⟩ := h
      exact leads_self hl
  | WAITING =>
      have hlive : d.state.live = true := by rw [hstate]; rfl
      simp only [hstate, orThrow_bind_ok] at h
      obtain ⟨refund, -, h⟩ := h
      obtain ⟨_, db₁, hclose, h⟩ := bind_ok.mp h
      obtain ⟨-, rfl⟩ := closePixInfractionRefundOperations_ok.mp ⟨_, hclose⟩
      simp only [updateRefundDevolution, modify_bind_ok, call_bind_ok, updateRefund, pure_ok] at h
      obtain ⟨-, -, rfl, rfl⟩ := h
      have moved := moves_refund_state (e := { d with state := .CONFIRMED, endToEndId }) hl hd
        rfl rfl rfl hlive rfl
      exact ((leads_self hl).same moved).beside _ _
  | PENDING | ERROR | FAILED | CANCELED =>
      rw [hstate] at h
      exact absurd h throw_ok

/-! #### Reverts -/

/-- A counter goes back by what is held no longer. -/
theorem leads_release {db₂ : Database} (hb : db.accounts.Balanced)
    (hd : db.deposits.get? d.id = some d) {n : ℕ}
    (counted : db.Moves db₁ (.deposit d.id) (d.returnedAmount - n - d.returnedAmount) 0)
    {x y : ℤ} (hx : x = n) (hy : y = 0) (held : db₁.Moves db₂ (.deposit d.id) 0 (y - x)) :
    db.Leads db₂ True := by
  have hk := accounts_deposit hd
  refine (counted.trans held).leads hk ?_ (iff_true_intro (by omega))
  have hle : d.returnedAmount ≤ (d.amount : ℤ) := (hb _ _ hk).le
  change d.returnedAmount + (d.returnedAmount - n - d.returnedAmount + 0) ≤ (d.amount : ℤ)
  omega

section

variable (hl : db.Linked)
include hl

theorem leads_revert_devolution (hb : db.accounts.Balanced)
    {e : PixDevolution} (hr : db.devolutions.get? r.id = some r) (hlive : r.state.live)
    (hd : db.deposits.get? r.deposit = some d) (hid : e.id = r.id)
    (hdep : e.deposit = r.deposit) (hfailed : e.state = .FAILED) :
    db.Leads
      { db with deposits := db.deposits.set { d with returnedAmount := d.returnedAmount - r.amount }
                devolutions := db.devolutions.set e } True := by
  have hkey : d.id = r.deposit := Table.key_of_get? hd
  have hget : db.deposits.get? d.id = some d := hkey ▸ hd
  have counted := moves_setReturned hl hget (d.returnedAmount - r.amount)
  have held := moves_setDevolution counted.linked hr hid hdep
  rw [← hkey] at held
  refine leads_release hb hget counted (DevolutionState.held_of_live hlive) ?_ held
  rw [hfailed]
  rfl

theorem handleRevertPixDevolution_leads (hb : db.accounts.Balanced)
    (h : handleRevertPixDevolution services chargebackReason failed id db = .ok r db') :
    db.Leads db' True := by
  simp only [handleRevertPixDevolution, get_bind_ok, orThrow_bind_ok] at h
  obtain ⟨d, hd, h⟩ := h
  obtain rfl : d.id = id := Table.key_of_get? hd
  cases hstate : d.state with
  | FAILED =>
      simp only [hstate, pure_ok] at h
      obtain ⟨-, rfl⟩ := h
      exact leads_self hl
  | PENDING | WAITING | CONFIRMED =>
      have hlive : d.state.live = true := by rw [hstate]; rfl
      simp only [hstate, orThrow_bind_ok, updateDeposit, updateDevolution, modify_bind_ok,
        call_bind_ok] at h
      obtain ⟨deposit, hdeposit, found, -, h⟩ := h
      obtain ⟨_, db₁, hsettled, h⟩ := bind_ok.mp h
      obtain rfl := settleFound_ok hsettled
      obtain ⟨-, rfl⟩ := pure_ok.mp h
      exact leads_revert_devolution (e := { d with state := .FAILED, chargebackReason, failed })
        hl hb hd hlive hdeposit rfl rfl rfl
  | ERROR | CANCELED =>
      rw [hstate] at h
      exact absurd h throw_ok

theorem receivePixDevolutionChargeback_leads (hb : db.accounts.Balanced)
    (h : receivePixDevolutionChargeback services chargebackReason failed id db = .ok r db') :
    db.Leads db' True := by
  simp only [receivePixDevolutionChargeback, get_bind_ok, orThrow_bind_ok] at h
  obtain ⟨d, hd, h⟩ := h
  obtain rfl : d.id = id := Table.key_of_get? hd
  cases hstate : d.state with
  | FAILED =>
      simp only [hstate, pure_ok] at h
      obtain ⟨-, rfl⟩ := h
      exact leads_self hl
  | WAITING =>
      have hlive : d.state.live = true := by rw [hstate]; rfl
      simp only [hstate, orThrow_bind_ok, updateDeposit, updateDevolution, modify_bind_ok,
        call_bind_ok, pure_ok] at h
      obtain ⟨deposit, hdeposit, found, -, -, -, -, -, rfl, rfl⟩ := h
      exact leads_revert_devolution (e := { d with state := .FAILED, chargebackReason, failed })
        hl hb hd hlive hdeposit rfl rfl rfl
  | PENDING | CONFIRMED | ERROR | CANCELED =>
      rw [hstate] at h
      exact absurd h throw_ok

theorem handleRevertWarningPixDevolution_leads (hb : db.accounts.Balanced)
    {r : WarningPixDevolution}
    (h : handleRevertWarningPixDevolution chargebackReason failed id db = .ok r db') :
    db.Leads db' True := by
  simp only [handleRevertWarningPixDevolution, get_bind_ok, orThrow_bind_ok] at h
  obtain ⟨w, hw, h⟩ := h
  obtain rfl : w.id = id := Table.key_of_get? hw
  cases hstate : w.state with
  | FAILED =>
      simp only [hstate, pure_ok] at h
      obtain ⟨-, rfl⟩ := h
      exact leads_self hl
  | PENDING | WAITING | CONFIRMED =>
      have hlive : w.state.live = true := by rw [hstate]; rfl
      simp only [hstate, orThrow_bind_ok, updateDeposit, updateWarningDevolution, modify_bind_ok,
        pure_ok] at h
      obtain ⟨deposit, hdeposit, rfl, rfl⟩ := h
      obtain ⟨hget, hop⟩ := mem_of_getDepositByOperation hdeposit
      have counted := moves_setReturned hl hget (deposit.returnedAmount - w.amount)
      have hmem := Table.mem_of_get? (Table.get?_set_self
        (r := { deposit with returnedAmount := deposit.returnedAmount - w.amount }) hget rfl)
      have held := moves_setWarning (e := { w with state := .FAILED, chargebackReason, failed })
        counted.linked hw rfl rfl hmem hop
      exact leads_release hb hget counted (DevolutionState.held_of_live hlive) rfl held
  | ERROR | CANCELED =>
      rw [hstate] at h
      exact absurd h throw_ok

end

/-- The services answer so that a refund devolution is reverted. -/
def Services.Reverts (services : Services) (db : Database) (r : PixRefundDevolution) : Prop :=
  ∃ found, services.getOperationById r.operation = .ok found ∧
    (found.isSome → ∃ refund, db.getRefundByRefundDevolution r.id = some refund ∧
      ∀ o ∈ db.getOpenInfractionRefundOperations refund.id,
        services.revertOperation o.refundOperation = .ok ())

/-- No refund devolution of a received devolution is reverted, unless it is of nothing. -/
def RevertSound (services : Services) (db : Database) (id : Uuid) : Prop :=
  ∀ r, db.refundDevolutions.get? id = some r → r.state.live →
    r.transactionType = .DEVOLUTION_RECEIVED → services.Reverts db r → r.amount = 0

theorem revertRefundOperations_ok (h : revertRefundOperations services found id db = .ok u db') :
    (found.isSome → ∃ refund, db.getRefundByRefundDevolution id = some refund ∧
      ∀ o ∈ db.getOpenInfractionRefundOperations refund.id,
        services.revertOperation o.refundOperation = .ok ()) ∧
      ∃ t, db' = { db with infractionRefundOperations := t } := by
  cases found with
  | none =>
      obtain ⟨-, rfl⟩ := pure_ok.mp h
      exact ⟨by simp, db'.infractionRefundOperations, rfl⟩
  | some operation =>
      simp only [revertRefundOperations, get_bind_ok, orThrow_bind_ok] at h
      obtain ⟨refund, hrefund, h⟩ := h
      obtain ⟨hall, rfl⟩ := closePixInfractionRefundOperations_ok.mp ⟨_, h⟩
      exact ⟨fun _ => ⟨refund, hrefund, hall⟩, _, rfl⟩

theorem revertRefundOperations_returns (services : Services) (db : Database)
    (h : found.isSome → ∃ refund, db.getRefundByRefundDevolution id = some refund ∧
      ∀ o ∈ db.getOpenInfractionRefundOperations refund.id,
        services.revertOperation o.refundOperation = .ok ()) :
    ∃ u db', revertRefundOperations services found id db = .ok u db' := by
  cases found with
  | none => exact ⟨(), db, rfl⟩
  | some operation =>
      obtain ⟨refund, hrefund, hall⟩ := h rfl
      obtain ⟨u, hu⟩ := closePixInfractionRefundOperations_ok.mpr ⟨hall, rfl⟩
      exact ⟨u, _, get_bind_ok.mpr (orThrow_bind_ok.mpr ⟨refund, hrefund, hu⟩)⟩

theorem subtractReturnedAmount_deposit {d : PixRefundDevolution} {db₀ : Database}
    (htype : d.transactionType = .DEPOSIT)
    (h : subtractReturnedAmount db₀ d db = .ok u db') :
    ∃ deposit, db₀.deposits.get? d.transaction = some deposit ∧ db' = { db with
      deposits := db.deposits.set
        { deposit with returnedAmount := deposit.returnedAmount - d.amount } } := by
  simpa only [subtractReturnedAmount, htype, orThrow_bind_ok, updateDeposit, modify_ok] using h

theorem subtractReturnedAmount_received {d : PixRefundDevolution} {db₀ : Database}
    (htype : d.transactionType = .DEVOLUTION_RECEIVED) :
    subtractReturnedAmount db₀ d = pure () := by
  simp only [subtractReturnedAmount, htype]

theorem handleRevertPixRefundDevolution_leads (hl : db.Linked) (hb : db.accounts.Balanced)
    {r : PixRefundDevolution}
    (h : handleRevertPixRefundDevolution services chargebackReason failed id db = .ok r db') :
    db.Leads db' (RevertSound services db id) := by
  simp only [handleRevertPixRefundDevolution, get_bind_ok, orThrow_bind_ok] at h
  obtain ⟨d, hd, h⟩ := h
  obtain rfl : d.id = id := Table.key_of_get? hd
  cases hstate : d.state with
  | FAILED =>
      simp only [hstate, pure_ok] at h
      obtain ⟨-, rfl⟩ := h
      exact (leads_self hl).congr (by simp [RevertSound, hd, hstate, DevolutionState.live])
  | PENDING | WAITING | CONFIRMED =>
      have hlive : d.state.live = true := by rw [hstate]; rfl
      simp only [hstate] at h
      cases htype : d.transactionType with
      | DEPOSIT =>
          obtain ⟨_, db₁, hsub, h⟩ := bind_ok.mp h
          obtain ⟨deposit, hdeposit, rfl⟩ := subtractReturnedAmount_deposit htype hsub
          simp only [updateRefundDevolution, modify_bind_ok, call_bind_ok] at h
          obtain ⟨found, -, h⟩ := h
          obtain ⟨_, db₁, hsettled, h⟩ := bind_ok.mp h
          obtain ⟨-, t, rfl⟩ := revertRefundOperations_ok hsettled
          obtain ⟨-, rfl⟩ := pure_ok.mp h
          have hkey : deposit.id = d.transaction := Table.key_of_get? hdeposit
          have hget : db.deposits.get? deposit.id = some deposit := hkey ▸ hdeposit
          have counted := moves_setReturned hl hget (deposit.returnedAmount - d.amount)
          have held := moves_setRefund (e := { d with state := .FAILED, chargebackReason, failed })
            counted.linked hd rfl rfl
          have hk : d.key = .deposit deposit.id := by rw [PixRefundDevolution.key, htype, hkey]
          rw [hk] at held
          have leads := leads_release hb hget counted (DevolutionState.held_of_live hlive) rfl held
          refine (leads.beside t db.refunds).congr (iff_of_true trivial fun r hr _ htype' => ?_)
          cases hd.symm.trans hr
          rw [htype] at htype'
          cases htype'
      | DEVOLUTION_RECEIVED =>
          simp only [subtractReturnedAmount_received htype, pure_bind, updateRefundDevolution,
            modify_bind_ok, call_bind_ok] at h
          obtain ⟨found, hfound, h⟩ := h
          obtain ⟨_, db₁, hsettled, h⟩ := bind_ok.mp h
          obtain ⟨hreverts, t, rfl⟩ := revertRefundOperations_ok hsettled
          obtain ⟨-, rfl⟩ := pure_ok.mp h
          have reverts : services.Reverts db d := ⟨found, hfound, hreverts⟩
          have held := moves_setRefund (e := { d with state := .FAILED, chargebackReason, failed })
            hl hd rfl rfl
          obtain ⟨a, ha⟩ := Option.isSome_iff_exists.mp
            (isSome_accounts.trans (hl.refund d (Table.mem_of_get? hd)))
          refine ((held.leads ha ?_ Iff.rfl).beside t db.refunds).congr ?_
          · rw [add_zero]
            exact (hb _ _ ha).le
          · simp [RevertSound, hd, htype, reverts, DevolutionState.held,
              DevolutionState.live, hstate]
  | ERROR | CANCELED =>
      rw [hstate] at h
      exact absurd h throw_ok

theorem handleRevertPixRefundDevolution_returns {d : PixRefundDevolution}
    (hd : db.refundDevolutions.get? id = some d) (hlive : d.state.live)
    (htype : d.transactionType = .DEVOLUTION_RECEIVED) (h : services.Reverts db d) :
    ∃ r db', handleRevertPixRefundDevolution services chargebackReason failed id db
      = .ok r db' := by
  obtain rfl : d.id = id := Table.key_of_get? hd
  obtain ⟨found, hfound, hreverts⟩ := h
  obtain ⟨u, db', hu⟩ := revertRefundOperations_returns services { db with
    refundDevolutions :=
      db.refundDevolutions.set { d with state := .FAILED, chargebackReason, failed } } hreverts
  refine ⟨{ d with state := .FAILED, chargebackReason, failed }, db', ?_⟩
  simp only [handleRevertPixRefundDevolution, get_bind_ok, orThrow_bind_ok]
  refine ⟨d, hd, ?_⟩
  cases hstate : d.state with
  | PENDING | WAITING | CONFIRMED =>
      simp only [subtractReturnedAmount_received htype, pure_bind, updateRefundDevolution,
        modify_bind_ok, call_bind_ok]
      exact ⟨found, hfound, bind_ok.mpr ⟨u, db', hu, rfl⟩⟩
  | ERROR | FAILED | CANCELED => simp [hstate, DevolutionState.live] at hlive

/-! ### Runs -/

/-- An execution of a handler, or the arrival of a row that the handlers read.  The services
answer every execution anew. -/
inductive Command where
  | receiveDeposit (deposit : PixDeposit)
  | updateDepositState (id : Uuid) (state : PixDepositState)
  | receiveDevolution (received : PixDevolutionReceived)
  | storeWarningDeposit (warning : WarningPixDeposit)
  | storeRefund (refund : PixRefund)
  | storeInfractionRefundOperation (operation : PixInfractionRefundOperation)
  | storePayment (operation : Uuid)
  | createPixDevolution (now : ℤ) (uuid id user wallet operation : Uuid) (amount : ℕ)
      (description : Option String)
  | handleCreateFailedPixDevolution (uuid id pixDepositId : Uuid)
  | handleCreateWarningPixDevolution (id warningPixDepositId : Uuid)
  | handleCreatePixRefundDevolution (now : ℤ) (id refundId : Uuid)
  | handlePendingPixDevolution (services : Services) (id : Uuid)
  | handlePendingFailedPixDevolution (services : Services) (id : Uuid)
  | handlePendingWarningPixDevolution (services : Services) (id : Uuid)
  | handlePendingPixRefundDevolution (services : Services) (id : Uuid)
  | handleCompletePixDevolution (services : Services) (id : Uuid) (endToEndId : Option String)
  | handleCompleteWarningPixDevolution (id : Uuid) (endToEndId : Option String)
  | handleCompletePixRefundDevolution (services : Services) (id : Uuid)
      (endToEndId : Option String)
  | handleRevertPixDevolution (services : Services) (chargebackReason : Option String)
      (failed : Option Failed) (id : Uuid)
  | receivePixDevolutionChargeback (services : Services) (chargebackReason : Option String)
      (failed : Option Failed) (id : Uuid)
  | handleRevertWarningPixDevolution (chargebackReason : Option String) (failed : Option Failed)
      (id : Uuid)
  | handleRevertPixRefundDevolution (services : Services) (chargebackReason : Option String)
      (failed : Option Failed) (id : Uuid)

/-- A new deposit has an id that no received transaction has, an operation of its own, and
nothing returned. -/
def receiveDeposit (deposit : PixDeposit) : App Unit := do
  let db ← get
  throwIf (deposit.operation ∈ db.deposits.rows.map PixDeposit.operation ∨
      deposit.id ∈ db.devolutionsReceived.rows.map PixDevolutionReceived.id)
    (.uniqueConstraint deposit.id)
  let deposits ← orThrow (db.deposits.insert? { deposit with returnedAmount := 0 })
    (.uniqueConstraint deposit.id)
  modify fun db => { db with deposits }

def updateDepositState (id : Uuid) (state : PixDepositState) : App Unit := do
  let db ← get
  let deposit ← orThrow (db.deposits.get? id) (.pixDepositNotFound id)
  updateDeposit { deposit with state }

def receiveDevolution (received : PixDevolutionReceived) : App Unit := do
  let db ← get
  throwIf (received.id ∈ db.deposits.rows.map PixDeposit.id) (.uniqueConstraint received.id)
  createDevolutionReceived { received with returnedAmount := 0 }

/-- The database after an execution: what it wrote, if it returned. -/
def commit {α : Type} (x : App α) (db : Database) : Database :=
  match x db with
  | .ok _ db' => db'
  | .error _ _ => db

def execute (config : Config) (db : Database) : Command → Database
  | .receiveDeposit deposit => commit (receiveDeposit deposit) db
  | .updateDepositState id state => commit (updateDepositState id state) db
  | .receiveDevolution received => commit (receiveDevolution received) db
  | .storeWarningDeposit warning =>
      { db with warningDeposits := db.warningDeposits.upsert warning }
  | .storeRefund refund => { db with refunds := db.refunds.upsert refund }
  | .storeInfractionRefundOperation operation =>
      { db with infractionRefundOperations := db.infractionRefundOperations.upsert operation }
  | .storePayment operation => { db with payments := operation :: db.payments }
  | .createPixDevolution now uuid id user wallet operation amount description =>
      commit (createPixDevolution config now uuid id user wallet operation amount description) db
  | .handleCreateFailedPixDevolution uuid id pixDepositId =>
      commit (handleCreateFailedPixDevolution uuid id pixDepositId) db
  | .handleCreateWarningPixDevolution id warningPixDepositId =>
      commit (handleCreateWarningPixDevolution id warningPixDepositId) db
  | .handleCreatePixRefundDevolution now id refundId =>
      commit (handleCreatePixRefundDevolution config now id refundId) db
  | .handlePendingPixDevolution services id =>
      commit (handlePendingPixDevolution config services id) db
  | .handlePendingFailedPixDevolution services id =>
      commit (handlePendingFailedPixDevolution services id) db
  | .handlePendingWarningPixDevolution services id =>
      commit (handlePendingWarningPixDevolution config services id) db
  | .handlePendingPixRefundDevolution services id =>
      commit (handlePendingPixRefundDevolution config services id) db
  | .handleCompletePixDevolution services id endToEndId =>
      commit (handleCompletePixDevolution services id endToEndId) db
  | .handleCompleteWarningPixDevolution id endToEndId =>
      commit (handleCompleteWarningPixDevolution id endToEndId) db
  | .handleCompletePixRefundDevolution services id endToEndId =>
      commit (handleCompletePixRefundDevolution services id endToEndId) db
  | .handleRevertPixDevolution services chargebackReason failed id =>
      commit (handleRevertPixDevolution services chargebackReason failed id) db
  | .receivePixDevolutionChargeback services chargebackReason failed id =>
      commit (receivePixDevolutionChargeback services chargebackReason failed id) db
  | .handleRevertWarningPixDevolution chargebackReason failed id =>
      commit (handleRevertWarningPixDevolution chargebackReason failed id) db
  | .handleRevertPixRefundDevolution services chargebackReason failed id =>
      commit (handleRevertPixRefundDevolution services chargebackReason failed id) db

/-- When an execution moves a counter and what is held together. -/
def Command.Sound (config : Config) (db : Database) : Command → Prop
  | .handleCreateFailedPixDevolution _ id pixDepositId => FailedSound db id pixDepositId
  | .handleCreateWarningPixDevolution id warningPixDepositId =>
      WarningSound db id warningPixDepositId
  | .handlePendingWarningPixDevolution services id => RetrySound config services db id
  | .handleRevertPixRefundDevolution services _ _ id => RevertSound services db id
  | _ => True

section

variable (hl : db.Linked)
include hl

/-- An execution that throws leaves the database. -/
theorem commit_leads {α : Type} {x : App α} {ok : Prop}
    (hok : ∀ a db', x db = .ok a db' → db.Leads db' ok)
    (hthrown : (∀ a db', x db ≠ .ok a db') → ok) : db.Leads (commit x db) ok := by
  rw [commit]
  cases h : x db with
  | ok a db' => exact hok a db' h
  | error e s =>
      refine (leads_self hl).congr (iff_of_true trivial (hthrown fun a db' h' => ?_))
      rw [h] at h'
      cases h'

theorem commit_leads_true {α : Type} {x : App α}
    (hok : ∀ a db', x db = .ok a db' → db.Leads db' True) : db.Leads (commit x db) True :=
  commit_leads hl hok fun _ => trivial

theorem receiveDeposit_leads (h : receiveDeposit deposit db = .ok u db') : db.Leads db' True := by
  simp only [receiveDeposit, get_bind_ok, throwIf_bind_ok, orThrow_bind_ok, modify_ok, not_or] at h
  obtain ⟨⟨hop, hrec⟩, t, ht, rfl⟩ := h
  obtain ⟨linked, opened⟩ := opened_insertDeposit hl ht rfl
    (fun e he heq => hop (List.mem_map.mpr ⟨e, he, heq⟩))
    (fun r hr heq => hrec (List.mem_map.mpr ⟨r, hr, heq.symm⟩))
  exact ⟨linked, .opened _ _ (Int.natCast_nonneg _) opened trivial⟩

theorem updateDepositState_leads {state : PixDepositState}
    (h : updateDepositState id state db = .ok u db') : db.Leads db' True := by
  simp only [updateDepositState, get_bind_ok, orThrow_bind_ok, updateDeposit, modify_ok] at h
  obtain ⟨d, hd, rfl⟩ := h
  obtain rfl : d.id = id := Table.key_of_get? hd
  have moved := moves_setDeposit (e := { d with state }) hl hd ⟨rfl, rfl, rfl⟩
  rw [sub_self] at moved
  exact (leads_self hl).same moved

theorem receiveDevolution_leads {received : PixDevolutionReceived}
    (h : receiveDevolution received db = .ok u db') : db.Leads db' True := by
  simp only [receiveDevolution, get_bind_ok, throwIf_bind_ok] at h
  obtain ⟨hid, h⟩ := h
  obtain ⟨t, ht, rfl⟩ := createDevolutionReceived_ok h
  obtain ⟨linked, opened⟩ := opened_insertReceived hl ht rfl
    fun e he heq => hid (List.mem_map.mpr ⟨e, he, heq⟩)
  exact ⟨linked, .opened _ _ (Int.natCast_nonneg _) opened trivial⟩

/-- Every step leaves balanced accounts balanced if and only if it is sound. -/
theorem execute_leads (hb : db.accounts.Balanced) (c : Command) :
    db.Leads (execute config db c) (c.Sound config db) := by
  cases c with
  | receiveDeposit => exact commit_leads_true hl fun _ _ => receiveDeposit_leads hl
  | updateDepositState => exact commit_leads_true hl fun _ _ => updateDepositState_leads hl
  | receiveDevolution => exact commit_leads_true hl fun _ _ => receiveDevolution_leads hl
  | storeWarningDeposit | storePayment =>
      exact ⟨⟨hl.operations, hl.disjoint, hl.devolution, hl.warning, hl.refund⟩, .same rfl trivial⟩
  | storeRefund refund => exact (leads_self hl).beside _ (db.refunds.upsert refund)
  | storeInfractionRefundOperation operation =>
      exact (leads_self hl).beside (db.infractionRefundOperations.upsert operation) _
  | createPixDevolution => exact commit_leads_true hl fun _ _ => createPixDevolution_leads hl
  | handleCreateFailedPixDevolution uuid id pixDepositId =>
      refine commit_leads hl (fun _ _ => handleCreateFailedPixDevolution_leads hl) ?_
      intro hthrown d hid hd hstate
      obtain ⟨r, db', h⟩ := handleCreateFailedPixDevolution_returns hid hd hstate
      exact absurd h (hthrown r db')
  | handleCreateWarningPixDevolution id warningPixDepositId =>
      refine commit_leads hl (fun _ _ => handleCreateWarningPixDevolution_leads hl) ?_
      intro hthrown w d hid hw hd
      obtain ⟨r, db', h⟩ := handleCreateWarningPixDevolution_returns hid hw hd
      exact absurd h (hthrown r db')
  | handleCreatePixRefundDevolution =>
      exact commit_leads_true hl fun _ _ => handleCreatePixRefundDevolution_leads hl
  | handlePendingPixDevolution =>
      exact commit_leads_true hl fun _ _ => handlePendingPixDevolution_leads hl
  | handlePendingFailedPixDevolution =>
      exact commit_leads_true hl fun _ _ => handlePendingFailedPixDevolution_leads hl
  | handlePendingWarningPixDevolution services id =>
      refine commit_leads hl (fun _ _ => handlePendingWarningPixDevolution_leads hl hb) ?_
      intro hthrown w hw hstate hsends
      obtain ⟨r, db', h⟩ := handlePendingWarningPixDevolution_returns hw hstate hsends
      exact absurd h (hthrown r db')
  | handlePendingPixRefundDevolution =>
      exact commit_leads_true hl fun _ _ => handlePendingPixRefundDevolution_leads hl
  | handleCompletePixDevolution =>
      exact commit_leads_true hl fun _ _ => handleCompletePixDevolution_leads hl
  | handleCompleteWarningPixDevolution =>
      exact commit_leads_true hl fun _ _ => handleCompleteWarningPixDevolution_leads hl hb
  | handleCompletePixRefundDevolution =>
      exact commit_leads_true hl fun _ _ => handleCompletePixRefundDevolution_leads hl
  | handleRevertPixDevolution =>
      exact commit_leads_true hl fun _ _ => handleRevertPixDevolution_leads hl hb
  | receivePixDevolutionChargeback =>
      exact commit_leads_true hl fun _ _ => receivePixDevolutionChargeback_leads hl hb
  | handleRevertWarningPixDevolution =>
      exact commit_leads_true hl fun _ _ => handleRevertWarningPixDevolution_leads hl hb
  | handleRevertPixRefundDevolution services chargebackReason failed id =>
      refine commit_leads hl (fun _ _ => handleRevertPixRefundDevolution_leads hl hb) ?_
      intro hthrown d hd hlive htype hreverts
      obtain ⟨r, db', h⟩ := handleRevertPixRefundDevolution_returns hd hlive htype hreverts
      exact absurd h (hthrown r db')

end

theorem covered_empty : Database.empty.Covered := by
  constructor <;> simp [Database.empty, Table.empty]

/-- In every state of a run the counters are what is returned of the transactions, if and only if
every step of the run is sound. -/
theorem returned_covered_iff (config : Config) (cs : List Command) :
    (∀ ds, ds <+: cs → (run (execute config) Database.empty ds).Covered) ↔
      Along (execute config) (fun db c => c.Sound config db) Database.empty cs := by
  refine along_iff (I := fun db : Database => db.Linked ∧ db.Covered) (fun _ h => h.2) ?_ ?_
    ⟨linked_empty, covered_empty⟩ cs
  · rintro db c ⟨hl, hc⟩
    have hb := covered_iff_balanced.mp hc
    rw [covered_iff_balanced]
    exact (execute_leads hl hb c).changes.balanced_iff hb
  · rintro db c ⟨hl, hc⟩ hsound
    have hb := covered_iff_balanced.mp hc
    have h : db.Leads (execute config db c) _ := execute_leads hl hb c
    exact ⟨h.linked, covered_iff_balanced.mpr ((h.changes.balanced_iff hb).mpr hsound)⟩

/-! A deposit of 100 of which its owner asked 60 back, when a warning returns it. -/

def sampleConfig : Config where
  devolutionMaxNumber := 0
  depositDevolutionIntervalDays := 90
  staticWithdrawalTransactionTag := "PIXSTATICWITHDRAWAL"
  dinamicWithdrawalTransactionTag := "PIXDYNAMICWITHDRAWAL"
  dinamicChangeTransactionTag := "PIXDYNAMICCHANGE"
  refundDevolutionMaxNumber := 0
  transactionRefundDevolutionIntervalDays := 90
  pixDevolutionZroBankIspb := "26264220"
  messageUserRequestWarningPixDevolution := ""

def sampleDeposit : PixDeposit where
  id := 1
  user := 2
  wallet := 3
  operation := 4
  state := .RECEIVED
  endToEndId := "E1"
  amount := 100
  returnedAmount := 0
  thirdPartBank := "00000000"
  thirdPartAccountNumber := "1"
  description := none
  transactionTag := "PIXREC"
  createdAt := 0

def partReturned : List Command :=
  [.receiveDeposit sampleDeposit, .createPixDevolution 0 8 5 2 3 4 60 none,
    .storeWarningDeposit { id := 6, operation := 4, state := .CREATED },
    .handleCreateWarningPixDevolution 7 6]

/-- The deposit of 100 is returned by a devolution of 60 and a warning devolution of 100. -/
theorem part_returned_and_whole :
    ¬ ∀ config cs, (run (execute config) Database.empty cs).Covered := by
  intro h
  have hd : { sampleDeposit with returnedAmount := 100 } ∈
      (run (execute sampleConfig) Database.empty partReturned).deposits.rows := by decide
  have held : (run (execute sampleConfig) Database.empty partReturned).depositHeld
      { sampleDeposit with returnedAmount := 100 } = 160 := by decide
  have heq := ((h sampleConfig partReturned).deposit _ hd).1
  rw [held] at heq
  cases heq

end ZroServices.Pix
