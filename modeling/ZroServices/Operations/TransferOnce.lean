import ZroServices.Foundation.Idempotence
import ZroServices.Operations.P2PTransfer
import ZroServices.Operations.Statement

/-!
# Operations — one transfer for an id

Any number of executions of `CreateP2PTransferUseCase` with one id, side by side: each looks the
transfer up without a lock, and one that finds none creates an operation, accepts it and inserts
the transfer (`program`).  Between its steps the others take theirs.  The cache of pending wallet
account transactions is shared with everything that writes it, so the code may find any cache.

Alone, a program is the use case (`program_execute`).  Side by side at most one commits writes
(`Foundation.Idempotence`), and what that one makes of the database debits the owner once and
credits the beneficiary once (`Transferred`).
-/

namespace ZroServices

open Foundation

namespace CreateP2PTransferUseCase

/-- What the use case is called with. -/
structure Request where
  id : Option Uuid
  user : Option UserId
  wallet : Option Uuid
  beneficiaryWallet : Option Uuid
  amountCurrency : Option String
  amount : Option ℤ
  fee : ℤ
  description : Option String

/-- A request whose mandatory fields are there. -/
structure Checked where
  id : Uuid
  user : UserId
  wallet : Uuid
  beneficiaryWallet : Uuid
  amountCurrency : String
  amount : ℤ
  fee : ℤ
  description : Option String
  deriving DecidableEq

/-- The fields of the request, unless one is missing. -/
def Request.checked? (q : Request) : Option Checked := do
  let id ← q.id
  let user ← q.user
  let wallet ← q.wallet
  let beneficiaryWallet ← q.beneficiaryWallet
  let amountCurrency ← q.amountCurrency.filter (· ≠ "")
  let amount ← q.amount
  return ⟨id, user, wallet, beneficiaryWallet, amountCurrency, amount, q.fee, q.description⟩

/-- The transfer that is stored. -/
def Checked.transfer (c : Checked) (currency : Currency) (operation : Uuid) : P2PTransfer where
  id := c.id
  user := c.user
  wallet := c.wallet
  beneficiaryWallet := c.beneficiaryWallet
  currency := currency.id
  operation := operation
  amount := c.amount
  fee := c.fee
  description := c.description

variable (env : Env) (now : ℤ)

/-- The use case, called with the request. -/
def Request.execute (q : Request) : App P2PTransfer :=
  CreateP2PTransferUseCase.execute env now q.id q.user q.wallet q.beneficiaryWallet
    q.amountCurrency q.amount q.fee q.description

/-- Create the operation of a new transfer. -/
def openOperation (c : Checked) : App (Currency × Uuid) := do
  let currency ← orThrow (env.currencyBySymbol c.amountCurrency)
    (.currencyNotFound c.amountCurrency)
  throwIf (¬ currency.isActive) (.currencyNotActive c.amountCurrency)
  let operation ← readDb (·.uuidV4 2)
  let (transactionTypeTag, ownerInfo, beneficiaryInfo) :=
    operationRequest env operation c.wallet c.beneficiaryWallet currency c.amount c.fee
      c.description
  let _ ← CreateOperationUseCase.execute env now transactionTypeTag ownerInfo beneficiaryInfo
  return (currency, operation)

/-- What the code does to the database when it returns, with some cache. -/
def Does {α : Type} (x : App α) (db : Db) (a : α) (db' : Db) : Prop :=
  ∃ cache cache', x ⟨db, cache⟩ = .ok a ⟨db', cache'⟩

/-- A transfer that exists already, step by step. -/
def answer (c : Checked) (p2pTransfer : P2PTransfer) : Idempotence.Prog Db P2PTransfer Exception :=
  if c.wallet = env.ZROWalletId ∨ p2pTransfer.wallet = c.wallet then .done p2pTransfer
  else .throw .forbidden

/-- A new transfer, step by step. -/
def make (c : Checked) : Idempotence.Prog Db P2PTransfer Exception :=
  .code (Does (openOperation env now c)) fun (currency, operation) =>
  .code (Does (App.ofProg (AcceptOperationUseCase.execute operation))) fun _ =>
  .insert (c.transfer currency operation) (.done (c.transfer currency operation))

/-- What follows the lookup, step by step. -/
def proceed (c : Checked) : Option P2PTransfer → Idempotence.Prog Db P2PTransfer Exception
  | some p2pTransfer => answer env c p2pTransfer
  | none => make env now c

/-- The use case, step by step. -/
def program (q : Request) : Idempotence.Prog Db P2PTransfer Exception :=
  match q.checked? with
  | none => .throw (.missingData (missingFields q.id q.user q.wallet q.beneficiaryWallet
      q.amountCurrency q.amount))
  | some c => .lookup (proceed env now c)

/-- The row of `p2p_transfers` under an id. -/
def slot (id : Uuid) : Idempotence.Slot Db P2PTransfer where
  row db := db.p2pTransfers.get? id
  insert? db r := (db.p2pTransfers.insert? r).map fun p2pTransfers => { db with p2pTransfers }

variable {env now} {q : Request} {c : Checked} {id operation : Uuid} {currency : Currency}
  {r : P2PTransfer} {db db' : Db}
variable {ownerInfo beneficiaryInfo : Option CreateOperationParticipant}
variable {wallet : Uuid} {tt : TransactionType} {db₁ db₂ : Db} {a : AcceptedOperation}

/-! ### The program and the use case -/

/-- Accepting does not look at the cache. -/
theorem does_ofProg {ρ : Type} {p : Program ρ} {x : ρ} :
    Does (App.ofProg p) db x db' ↔ p.run db = (.ok x, db') := by
  constructor
  · rintro ⟨cache, cache', h⟩
    obtain ⟨db₁, hrun, hw⟩ := ofProg_ok.mp h
    rw [hrun, (World.mk.inj hw).1]
  · intro h
    exact ⟨[], [], ofProg_ok.mpr ⟨db', h, rfl⟩⟩

/-! ### The operation of a new transfer -/

/-- The sides of the operation are the wallets of the transfer. -/
theorem operationRequest_sides (env : Env) {beneficiaryWallet : Uuid} {amount fee : ℤ}
    {description : Option String} {tag : String}
    (h : operationRequest env operation wallet beneficiaryWallet currency amount fee description
      = (tag, ownerInfo, beneficiaryInfo)) :
    (∀ p, ownerInfo = some p → p.operation = some operation ∧ p.wallet = some wallet) ∧
      ∀ p, beneficiaryInfo = some p →
        p.operation = some operation ∧ p.wallet = some beneficiaryWallet := by
  rw [operationRequest] at h
  split_ifs at h <;> cases h <;> simp [participant]

/-- The wallet of a wallet account. -/
def walletOf (db : Db) (id : WalletAccountId) : Option Uuid :=
  (db.walletAccounts.get? id).map (·.wallet)

theorem walletOf_loaded {p : LoadedParticipant}
    (h : CreateOperationUseCase.Loaded env db p) (hw : p.info.wallet = wallet) :
    walletOf db p.walletAccount.id = some wallet := by
  have : p.wallet.uuid = p.info.wallet := Table.key_of_get? h.wallet
  rw [walletOf, h.walletAccount, Option.map_some, h.ofWallet, this, hw]

/-- The operation of a new transfer is stored, for the wallets of the transfer; nothing was
recorded, and no wallet account has more or less. -/
structure Opens (c : Checked) (operation : Uuid) (db db' : Db) : Prop where
  p2pTransfers : db'.p2pTransfers = db.p2pTransfers
  rows : db'.walletAccountTransactions = db.walletAccountTransactions
  total : Db.amountOf (·.total) db'.walletAccounts = Db.amountOf (·.total) db.walletAccounts
  stored : ∃ o, db'.operations.get? operation = some o ∧
    (∀ p, o.owner = some p → walletOf db p.walletAccount = some c.wallet) ∧
    ∀ p, o.beneficiary = some p → walletOf db p.walletAccount = some c.beneficiaryWallet


/-- A checked side is for the operation and the wallet that were requested. -/
theorem requested_side {p : Option CreateOperationParticipant} {i : Option Participant}
    (h : Option.Rel CreateOperationUseCase.Requested p i)
    (hp : ∀ x, p = some x → x.operation = some operation ∧ x.wallet = some wallet) :
    ∀ y, i = some y → y.operation = operation ∧ y.wallet = wallet := by
  rintro y rfl
  cases h with
  | some hr =>
      obtain ⟨ho, hw⟩ := hp _ rfl
      exact ⟨Option.some.inj (hr.operation.symm.trans ho),
        Option.some.inj (hr.wallet.symm.trans hw)⟩

/-- A created operation whose two sides have one id is stored as one operation. -/
theorem execution_single {tag : String} {w w' : World}
    {created : CreatedOperation} {owner : Option OwnerSide}
    {beneficiary : Option BeneficiarySide} {db₃ : Db}
    (h : CreateOperationUseCase.Execution env now tag ownerInfo beneficiaryInfo w w' created tt
      owner beneficiary db₁ db₂ db₃)
    (howner : ∀ s, owner = some s → s.info.operation = operation)
    (hbeneficiary : ∀ b, beneficiary = some b → b.info.operation = operation) :
    ∃ (i : OperationInfo) (t : Table Operation), owner = i.ownerSide ∧
      beneficiary = i.beneficiarySide ∧ (i.operation env now tt).id = operation ∧
      db₂.operations.insert? (i.operation env now tt) = some t ∧ db₃ = i.store env now t db₂ := by
  cases h.stored with
  | single i _ t _ hins =>
      refine ⟨i, t, rfl, rfl, ?_, hins, rfl⟩
      rw [OperationInfo.operation_id]
      cases i with
      | owner s => exact howner s rfl
      | beneficiary b => exact hbeneficiary b rfl
      | shared s b => exact howner s rfl
  | independent s b _ db₁' db₂' t₁ t₂ o₁ o₂ hne ho₁ ho₂ hins₁ hdb₁ hins₂ hdb₂ =>
      -- The two sides have one id, so the second operation cannot be inserted.
      subst ho₁ ho₂ hdb₁ hdb₂
      refine absurd ?_ (CreateOperationUseCase.ids_independent hins₁ hins₂)
      rw [OperationInfo.operation_id, OperationInfo.operation_id]
      exact (howner s rfl).trans (hbeneficiary b rfl).symm

/-- An operation that is stored once, for both sides. -/
theorem opens_single {i : OperationInfo} {t : Table Operation} {events : List Event}
    (hp2p : db₂.p2pTransfers = db.p2pTransfers)
    (hrows : db₂.walletAccountTransactions = db.walletAccountTransactions)
    (haccounts : db₂.walletAccounts = db.walletAccounts)
    (howner : ∀ o, i.ownerSide = some o → CreateOperationUseCase.Loaded env db o.toLoadedParticipant
      ∧ o.info.wallet = c.wallet)
    (hbeneficiary : ∀ b, i.beneficiarySide = some b →
      CreateOperationUseCase.Loaded env db b.toLoadedParticipant ∧
        b.info.wallet = c.beneficiaryWallet)
    (hid : (i.operation env now tt).id = operation)
    (hins : db₂.operations.insert? (i.operation env now tt) = some t) :
    Opens c operation db { i.store env now t db₂ with events } where
  p2pTransfers := hp2p
  rows := hrows
  total := by
    change Db.amountOf _ (i.walletAccounts db₂.walletAccounts) = _
    rw [haccounts]
    exact total_opened fun o ho => (howner o ho).1.walletAccount
  stored := by
    have hget := Table.get?_insert?_self hins
    rw [Operation.key_eq, hid] at hget
    refine ⟨_, hget, fun p hp => ?_, fun p hp => ?_⟩
    · rw [OperationInfo.operation_owner] at hp
      obtain ⟨o, ho, rfl⟩ := Option.map_eq_some_iff.mp hp
      exact walletOf_loaded (howner o ho).1 (howner o ho).2
    · rw [OperationInfo.operation_beneficiary] at hp
      obtain ⟨b, hb, rfl⟩ := Option.map_eq_some_iff.mp hp
      exact walletOf_loaded (hbeneficiary b hb).1 (hbeneficiary b hb).2

theorem limitCreated_frame (h : db.LimitCreated env db') :
    db'.p2pTransfers = db.p2pTransfers ∧
      db'.walletAccountTransactions = db.walletAccountTransactions := by
  cases h <;> exact ⟨rfl, rfl⟩

/-- What creating the operation of a transfer does. -/
theorem opens_execution {tag : String} {w w' : World}
    {created : CreatedOperation} {owner : Option OwnerSide}
    {beneficiary : Option BeneficiarySide} {db₃ : Db}
    (h : CreateOperationUseCase.Execution env now tag ownerInfo beneficiaryInfo w w' created tt
      owner beneficiary db₁ db₂ db₃)
    (howner : ∀ p, ownerInfo = some p → p.operation = some operation ∧ p.wallet = some c.wallet)
    (hbeneficiary : ∀ p, beneficiaryInfo = some p →
      p.operation = some operation ∧ p.wallet = some c.beneficiaryWallet) :
    Opens c operation w.db w'.db := by
  have ownerSide := requested_side h.ownerRequested howner
  have beneficiarySide := requested_side h.beneficiaryRequested hbeneficiary
  obtain ⟨hp2p₁, hrows₁⟩ := limitCreated_frame h.ownerLimit
  obtain ⟨hp2p₂, hrows₂⟩ := limitCreated_frame h.beneficiaryLimit
  have haccounts := h.beneficiaryLimit.walletAccounts.trans h.ownerLimit.walletAccounts
  obtain ⟨e, -, hw'⟩ := h.event
  obtain ⟨i, t, rfl, rfl, hid, hins, rfl⟩ := execution_single h
    (fun s hs => (ownerSide s.info (congrArg (Option.map _) hs)).1)
    fun b hb => (beneficiarySide b.info (congrArg (Option.map _) hb)).1
  rw [hw']
  refine opens_single (hp2p₂.trans hp2p₁) (hrows₂.trans hrows₁) haccounts (fun o ho => ?_)
    (fun b hb => ?_) hid hins
  · exact ⟨h.ownerLoaded o ho, (ownerSide o.info (congrArg (Option.map _) ho)).2⟩
  · exact ⟨h.beneficiaryLoaded b hb, (beneficiarySide b.info (congrArg (Option.map _) hb)).2⟩

theorem openOperation_opens (h : Does (openOperation env now c) db (currency, operation) db') :
    Opens c operation db db' := by
  obtain ⟨cache, cache', h⟩ := h
  simp only [openOperation, bind_ok, orThrow_ok, throwIf_ok, readDb_ok, pure_ok] at h
  obtain ⟨found, _, ⟨-, rfl⟩, _, _, ⟨-, rfl⟩, id, _, ⟨-, rfl⟩, created, w, hcreate, hr, rfl⟩ := h
  cases hr
  obtain ⟨howner, hbeneficiary⟩ := operationRequest_sides env rfl
  obtain ⟨tt, owner, beneficiary, db₁, db₂, db₃, hx⟩ := CreateOperationUseCase.execute_ok hcreate
  exact opens_execution hx howner hbeneficiary

/-! ### The money of a transfer -/

/-- The rows of one side of a transfer: one at most, for the operation of the transfer, on a
wallet account of the wallet. -/
structure Records (db : Db) (r : P2PTransfer) (type : WalletAccountTransactionType)
    (wallet : Uuid) (ts : List WalletAccountTransaction) : Prop where
  once : ts.length ≤ 1
  rows : ∀ t ∈ ts, t.transactionType = type ∧ t.operation = r.operation ∧
    walletOf db t.walletAccount = some wallet

/-- A transfer was made: the owner is debited once at most and the beneficiary credited once at
most, and no wallet account has more or less than these rows say. -/
structure Transferred (db db' : Db) (r : P2PTransfer) : Prop where
  stored : db'.p2pTransfers.get? r.id = some r
  moved : ∃ debits credits, Records db r .DEBIT r.wallet debits ∧
    Records db r .CREDIT r.beneficiaryWallet credits ∧
    db'.walletAccountTransactions = db.walletAccountTransactions ++ (debits ++ credits) ∧
    ∀ a, Db.amountOf (·.total) db'.walletAccounts a = Db.amountOf (·.total) db.walletAccounts a +
      ((statementOf a (debits ++ credits)).map (·.signedValue)).sum

theorem records_of_recorded {f : WalletAccount → WalletAccount}
    {row : WalletAccount → WalletAccountTransaction} {p : Option Party} {t t' : Table WalletAccount}
    {ts : List WalletAccountTransaction} {type : WalletAccountTransactionType}
    (h : Settle.Recorded t f row p t' ts)
    (hrow : ∀ a, (row a).transactionType = type ∧ (row a).operation = r.operation ∧
      (row a).walletAccount = a.id)
    (hwallet : ∀ x, p = some x → walletOf db x.walletAccount = some wallet) :
    Records db r type wallet ts := by
  cases h with
  | none => exact ⟨by simp, by simp⟩
  | some x a ha _ =>
      refine ⟨le_refl _, fun t ht => ?_⟩
      rw [List.mem_singleton.mp ht]
      obtain ⟨htype, hoperation, haccount⟩ := hrow a
      have hid : a.id = x.walletAccount := Table.key_of_get? ha
      rw [haccount, hid]
      exact ⟨htype, hoperation, hwallet x rfl⟩

/-- Where a statement leads is the sum of its rows. -/
theorem chains_sum {x y : ℤ} {ts : List WalletAccountTransaction}
    (h : WalletAccountTransaction.Chains x ts y) : y = x + (ts.map (·.signedValue)).sum := by
  induction ts generalizing x with
  | nil =>
      obtain rfl : x = y := h
      simp
  | cons t ts ih =>
      obtain ⟨-, hupdated, hrest⟩ := h
      rw [ih hrest, hupdated, List.map_cons, List.sum_cons, add_assoc]

/-- Opening the operation, accepting it and storing the transfer make the transfer. -/
theorem transferred {t : Table P2PTransfer} (hopen : Opens c operation db db₁)
    (haccept : (AcceptOperationUseCase.execute operation).run db₁ = (.ok a, db₂))
    (hins : db₂.p2pTransfers.insert? (c.transfer currency operation) = some t) :
    Transferred db { db₂ with p2pTransfers := t } (c.transfer currency operation) := by
  obtain ⟨o, hid, ha⟩ := AcceptOperationUseCase.accept_ok haccept
  obtain ⟨o', ho', howner, hbeneficiary⟩ := hopen.stored
  obtain rfl : o = o' := Option.some.inj ((hid ▸ ha.found).symm.trans ho')
  obtain ⟨t', debits, credits, hdebit, hcredit, hrows⟩ := ha.recorded
  refine ⟨Table.get?_insert?_self hins, debits, credits, ?_, ?_, ?_, fun k => ?_⟩
  · exact records_of_recorded hdebit (fun _ => ⟨rfl, hid, rfl⟩) howner
  · exact records_of_recorded hcredit (fun _ => ⟨rfl, hid, rfl⟩) hbeneficiary
  · rw [← hopen.rows]
    exact hrows
  · rw [← hopen.total, statementOf_append]
    exact chains_sum ((chains_debit hdebit k).append (chains_credit hcredit k))

/-- The transfers are written by nothing but the insert. -/
theorem accept_p2pTransfers (h : (AcceptOperationUseCase.execute operation).run db = (.ok a, db')) :
    db'.p2pTransfers = db.p2pTransfers := by
  obtain ⟨o, -, ha⟩ := AcceptOperationUseCase.accept_ok h
  obtain ⟨t, t', ts, es, -, -, -, rfl⟩ := ha.written
  rfl

/-! ### The program and the use case -/

theorem slot_insert {s s' : Db} (hr : r.id = id) (h : (slot id).insert? s r = some s') :
    (slot id).row s = none ∧ (slot id).row s' = some r := by
  obtain ⟨t, ht, rfl⟩ := Option.map_eq_some_iff.mp h
  refine ⟨hr ▸ (Table.insert?_eq_some ht).1, ?_⟩
  have := Table.get?_insert?_self ht
  rw [← hr]
  exact this

/-- The program looks the transfer up before anything else, and stores what it returns. -/
theorem program_guarded (hid : ∀ c, q.checked? = some c → c.id = id) :
    (program env now q).Guarded (slot id) := by
  rw [program]
  cases hc : q.checked? with
  | none => trivial
  | some c =>
      refine ⟨⟨fun s x s' h => ?_, fun x => ⟨fun s a s' h => ?_, fun _ => ⟨fun s s' h => ?_, rfl⟩⟩⟩,
        fun r => ?_⟩
      · exact congrArg (·.get? id) (openOperation_opens h).p2pTransfers
      · exact congrArg (·.get? id) (accept_p2pTransfers (does_ofProg.mp h))
      · exact slot_insert (hid c hc) h
      · change (answer env c r).Answers r
        rw [answer]
        split
        · exact Or.inl rfl
        · exact Or.inr ⟨_, rfl⟩

theorem checked_eq_some (h : q.checked? = some c) :
    q.id = some c.id ∧ q.user = some c.user ∧ q.wallet = some c.wallet ∧
      q.beneficiaryWallet = some c.beneficiaryWallet ∧
      q.amountCurrency.filter (· ≠ "") = some c.amountCurrency ∧ q.amount = some c.amount ∧
      q.fee = c.fee ∧ q.description = c.description := by
  simp only [Request.checked?, Option.bind_eq_bind, Option.bind_eq_some_iff, Option.pure_def,
    Option.some.injEq] at h
  obtain ⟨id, hid, user, huser, wallet, hwallet, beneficiaryWallet, hbeneficiary, amountCurrency,
    hcurrency, amount, hamount, rfl⟩ := h
  exact ⟨hid, huser, hwallet, hbeneficiary, hcurrency, hamount, rfl, rfl⟩

/-- The use case, once the fields are there. -/
theorem execute_checked (h : q.checked? = some c) (w : World) :
    q.execute env now w =
      match w.db.p2pTransfers.get? c.id with
      | some p2pTransfer => existingTransfer env c.wallet p2pTransfer w
      | none => createTransfer env now c.id c.user c.wallet c.beneficiaryWallet c.amountCurrency
          c.amount c.fee c.description w := by
  obtain ⟨hid, huser, hwallet, hbeneficiary, hcurrency, hamount, hfee, hdescription⟩ :=
    checked_eq_some h
  rw [Request.execute, execute, hid, huser, hwallet, hbeneficiary, hcurrency, hamount, hfee,
    hdescription]
  have pass : ∀ {α β : Type} (x : α) (e : Exception) (f : α → App β),
      (orThrow (some x) e >>= f) w = f x w := fun x e f => rfl
  simp only [pass]
  have read : ∀ {β : Type} (f : Option P2PTransfer → App β),
      (readDb (fun db => db.p2pTransfers.get? c.id) >>= f) w = f (w.db.p2pTransfers.get? c.id) w :=
    fun f => rfl
  rw [read]
  cases w.db.p2pTransfers.get? c.id <;> rfl

/-- A new transfer, alone: its operation is created and accepted, and it is stored. -/
theorem make_ends (h : (make env now c).Ends (slot id) db r db') :
    ∃ currency operation db₁ a db₂ t, Does (openOperation env now c) db (currency, operation) db₁ ∧
      (AcceptOperationUseCase.execute operation).run db₁ = (.ok a, db₂) ∧
      db₂.p2pTransfers.insert? (c.transfer currency operation) = some t ∧
      r = c.transfer currency operation ∧ db' = { db₂ with p2pTransfers := t } := by
  cases h with
  | code b hopen h =>
      obtain ⟨currency, operation⟩ := b
      cases h with
      | code a haccept h =>
          cases h with
          | insert hins h =>
              obtain ⟨t, ht, rfl⟩ := Option.map_eq_some_iff.mp hins
              cases h
              exact ⟨currency, operation, _, a, _, t, hopen, does_ofProg.mp haccept, ht, rfl, rfl⟩

/-- A new transfer of the use case, from its pieces. -/
theorem createTransfer_ok {cache cache' : List PendingWalletAccountTransaction}
    {t : Table P2PTransfer}
    (hopen : openOperation env now c ⟨db, cache⟩ = .ok (currency, operation) ⟨db₁, cache'⟩)
    (haccept : (AcceptOperationUseCase.execute operation).run db₁ = (.ok a, db₂))
    (hins : db₂.p2pTransfers.insert? (c.transfer currency operation) = some t) :
    createTransfer env now c.id c.user c.wallet c.beneficiaryWallet c.amountCurrency c.amount c.fee
        c.description ⟨db, cache⟩
      = .ok (c.transfer currency operation) ⟨{ db₂ with p2pTransfers := t }, cache'⟩ := by
  simp only [openOperation, bind_ok, orThrow_ok, throwIf_ok, readDb_ok, pure_ok] at hopen
  obtain ⟨found, _, ⟨hfound, rfl⟩, _, _, ⟨hactive, rfl⟩, id, _, ⟨rfl, rfl⟩, created, w, hcreate, hr,
    rfl⟩ := hopen
  cases hr
  have stored : storeTransfer (c.transfer currency (db.uuidV4 2)) ⟨db₂, cache'⟩
      = .ok (c.transfer currency (db.uuidV4 2)) ⟨{ db₂ with p2pTransfers := t }, cache'⟩ :=
    bind_ok.mpr ⟨_, _, readDb_ok.mpr ⟨rfl, rfl⟩,
      bind_ok.mpr ⟨t, _, orThrow_ok.mpr ⟨hins, rfl⟩, rfl⟩⟩
  exact bind_ok.mpr ⟨currency, _, orThrow_ok.mpr ⟨hfound, rfl⟩,
    bind_ok.mpr ⟨(), _, throwIf_ok.mpr ⟨hactive, rfl⟩,
    bind_ok.mpr ⟨_, _, readDb_ok.mpr ⟨rfl, rfl⟩,
    bind_ok.mpr ⟨created, _, hcreate,
    bind_ok.mpr ⟨a, _, ofProg_ok.mpr ⟨db₂, haccept, rfl⟩, stored⟩⟩⟩⟩⟩

/-- **The program, alone, is the use case.** -/
theorem program_execute (hid : ∀ c, q.checked? = some c → c.id = id)
    (h : (program env now q).Ends (slot id) db r db') : Does (q.execute env now) db r db' := by
  rw [program] at h
  cases hc : q.checked? with
  | none =>
      rw [hc] at h
      cases h
  | some c =>
      rw [hc] at h
      obtain rfl := hid c hc
      cases h with
      | lookup h =>
          cases hrow : (slot c.id).row db with
          | some p2pTransfer =>
              rw [hrow, proceed] at h
              refine ⟨[], [], ?_⟩
              rw [execute_checked hc, show db.p2pTransfers.get? c.id = _ from hrow]
              rw [answer] at h
              dsimp only [existingTransfer]
              split at h
              · rename_i hw
                cases h
                rw [if_pos hw]
                rfl
              · cases h
          | none =>
              rw [hrow, proceed] at h
              obtain ⟨currency, operation, db₁, a, db₂, t, ⟨cache, cache', hopen⟩, haccept, ht, rfl,
                rfl⟩ := make_ends h
              refine ⟨cache, cache', ?_⟩
              rw [execute_checked hc, show db.p2pTransfers.get? c.id = _ from hrow]
              exact createTransfer_ok hopen haccept ht

/-- A program that ends without the transfer having existed makes it. -/
theorem program_transferred (hid : ∀ c, q.checked? = some c → c.id = id)
    (hnew : db.p2pTransfers.get? id = none)
    (h : (program env now q).Ends (slot id) db r db') : Transferred db db' r := by
  rw [program] at h
  cases hc : q.checked? with
  | none =>
      rw [hc] at h
      cases h
  | some c =>
      rw [hc] at h
      obtain rfl := hid c hc
      cases h with
      | lookup h =>
          rw [show (slot c.id).row db = none from hnew, proceed] at h
          obtain ⟨currency, operation, db₁, a, db₂, t, hopen, haccept, ht, rfl, rfl⟩ := make_ends h
          exact transferred (openOperation_opens hopen) haccept ht

end CreateP2PTransferUseCase

open CreateP2PTransferUseCase

/-- **One transfer for an id.**  In every schedule of executions with one id, at most one commits
writes; the database is what that execution makes of it alone, which moves the money of the
transfer once; and every execution that returned, returned the transfer that is stored. -/
theorem transfer_once (env : Env) {ι : Type} [DecidableEq ι] (now : ι → ℤ) (requests : ι → Request)
    (id : Uuid) (hid : ∀ i, (requests i).id = some id) (db₀ : Db)
    (s : Idempotence.Sys Db P2PTransfer Exception ι)
    (h : Idempotence.Sys.Steps (slot id)
      (.init db₀ fun i => program env (now i) (requests i)) s) :
    (∀ i j, s.Applied i → s.Applied j → i = j) ∧
      (s.db = db₀ ∨ ∃ i r, s.Applied i ∧ (s.tx i).phase = .committed r ∧
        Does ((requests i).execute env (now i)) db₀ r s.db ∧ Transferred db₀ s.db r) ∧
      ∀ i r, (s.tx i).phase = .committed r → s.db.p2pTransfers.get? id = some r := by
  have checked : ∀ i c, (requests i).checked? = some c → c.id = id := fun i c hc =>
    Option.some.inj ((checked_eq_some hc).1.symm.trans (hid i))
  have once := Idempotence.Sys.once (fun i => program_guarded (checked i)) h
  refine ⟨fun i j hi hj => ?_, ?_, once.returned⟩
  · cases once.outcome with
    | none _ _ hnone => exact absurd hi (hnone i)
    | one k _ _ hk => exact ((hk i).mp hi).trans ((hk j).mp hj).symm
  · cases once.outcome with
    | none _ hdb _ => exact Or.inl hdb
    | one k r _ hk hr hnew _ hends =>
        exact Or.inr ⟨k, r, (hk k).mpr rfl, hr, program_execute (checked k) hends,
          program_transferred (checked k) hnew hends⟩

/-- Code that returned ends in the world it leaves. -/
theorem ok_exec {α : Type} {x : App α} {w : World} {a : α} (h : returned x w = some a) :
    x w = .ok a (x.exec w) := by
  obtain ⟨w', hx⟩ := returned_eq_some.mp h
  rw [App.exec, hx]

namespace Sample

/-- The first user transfers to the second, under the id `7`. -/
def p2pRequest : Request := ⟨some 7, some 1, some 1, some 2, some "R$", some 300, 0, none⟩

def p2pChecked : Checked := ⟨7, 1, 1, 2, "R$", 300, 0, none⟩

theorem p2pRequest_checked : p2pRequest.checked? = some p2pChecked := by decide +kernel

def p2pOpened : Db :=
  ((openOperation (env .DATE) noon p2pChecked).exec (start 1000 0).world).db

theorem p2p_opened : Does (openOperation (env .DATE) noon p2pChecked) (start 1000 0).world.db
    (brl, 4) p2pOpened :=
  ⟨[], _, ok_exec (by decide +kernel)⟩

def p2pAccepted : Db := ((AcceptOperationUseCase.execute 4).run p2pOpened).2

theorem p2p_accepted :
    ∃ a, (AcceptOperationUseCase.execute 4).run p2pOpened = (.ok a, p2pAccepted) := by
  have hok : ((AcceptOperationUseCase.execute 4).run p2pOpened).1.isOk = true := by
    decide +kernel
  cases h : (AcceptOperationUseCase.execute 4).run p2pOpened with
  | mk r db =>
      rw [h] at hok
      cases r with
      | error => cases hok
      | ok a => exact ⟨a, by rw [p2pAccepted, h]⟩

theorem program_p2p : program (env .DATE) noon p2pRequest
    = .lookup (proceed (env .DATE) noon p2pChecked) := by
  rw [program, p2pRequest_checked]

/-- Three executions: two side by side, and one that is repeated later. -/
theorem p2p_run : ∃ s : Idempotence.Sys Db P2PTransfer Exception (Fin 3),
    Idempotence.Sys.Steps (slot 7)
        (.init (start 1000 0).world.db fun _ => program (env .DATE) noon p2pRequest) s ∧
      s.Applied 0 ∧ (s.tx 1).phase = .rolledBack ∧
      (s.tx 2).phase = .committed (p2pChecked.transfer brl 4) := by
  obtain ⟨a, ha⟩ := p2p_accepted
  obtain ⟨db, hdb⟩ : ∃ db, (slot 7).insert? p2pAccepted (p2pChecked.transfer brl 4) = some db := by
    rw [← Option.isSome_iff_exists]
    decide +kernel
  have hrow := slot_insert (r := p2pChecked.transfer brl 4) rfl hdb
  have run₀ : Idempotence.Sys.Steps (slot 7)
      (.init (start 1000 0).world.db fun _ : Fin 3 => program (env .DATE) noon p2pRequest)
      (.init (start 1000 0).world.db fun _ => program (env .DATE) noon p2pRequest) := .refl
  -- The first two look up before either of them inserts.
  have run₁ := run₀.tail (.begin 0 rfl)
  have run₂ := run₁.tail (.begin 1 rfl)
  have run₃ := run₂.tail (.lookup 0 _ rfl program_p2p)
  have run₄ := run₃.tail (.lookup 1 _ rfl program_p2p)
  have run₅ := run₄.tail (.code 0 _ _ (brl, 4) p2pOpened rfl rfl fun _ => p2p_opened)
  have run₆ := run₅.tail (.code 0 _ _ a p2pAccepted rfl rfl fun _ => does_ofProg.mpr ha)
  have run₇ := run₆.tail (.insert 0 _ _ db rfl rfl rfl
    (fun j _ => match j with
      | 0 => rfl
      | 1 => rfl
      | 2 => rfl) fun _ => hdb)
  have run₈ := run₇.tail (.commit 0 _ db rfl rfl (fun e => by cases e) hrow.2 fun _ _ => rfl)
  have run₉ := run₈.tail (.rollback 1 rfl)
  -- The third comes later, and finds the transfer.
  have run₁₀ := run₉.tail (.begin 2 rfl)
  have run₁₁ := run₁₀.tail (.lookup 2 _ rfl program_p2p)
  have found : proceed (env .DATE) noon p2pChecked ((slot 7).row db)
      = .done (p2pChecked.transfer brl 4) := by
    rw [show (slot 7).row db = _ from hrow.2, proceed, answer]
    exact if_pos (Or.inr rfl)
  have run₁₂ := run₁₁.tail (.commit 2 (p2pChecked.transfer brl 4) db rfl found (fun _ => rfl) rfl
    fun e => by cases e)
  exact ⟨_, run₁₂, ⟨⟨_, rfl⟩, rfl⟩, rfl, rfl⟩

end Sample

open Sample in
/-- One of the three moved the money, and the repeated one returned its transfer. -/
theorem transfer_once_sample :
    ∃ s : Idempotence.Sys Db P2PTransfer Exception (Fin 3),
      s.Applied 0 ∧ (s.tx 2).phase = .committed (p2pChecked.transfer brl 4) ∧
      (∀ i j, s.Applied i → s.Applied j → i = j) ∧
      s.db.p2pTransfers.get? 7 = some (p2pChecked.transfer brl 4) := by
  obtain ⟨s, hrun, happlied, -, hreturned⟩ := p2p_run
  obtain ⟨hone, -, hstored⟩ := transfer_once (env .DATE) (fun _ : Fin 3 => noon)
    (fun _ => p2pRequest) 7 (fun _ => rfl) (start 1000 0).world.db s hrun
  exact ⟨s, happlied, hreturned, hone, hstored 2 _ hreturned⟩

end ZroServices
