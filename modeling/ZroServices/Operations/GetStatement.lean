import ZroServices.Operations.History
import ZroServices.Operations.TransferOnce

/-!
# Operations — the statement of a wallet

`GetStatementUseCase` lists the operations of the wallet accounts of a wallet, page by page, with a
wallet account transaction for each that is accepted.  It looks the transaction up by the operation
alone.  An operation that two wallets share has two, and the database may give the one or the other
(`FindOne`).

* `SidesRecorded`: every accepted operation has a transaction on each of its sides, and there are no
  others.  Every command keeps it (`Change.booked`).
* `shown_iff`: the statement shows only what belongs to the wallet, whatever the database gives,
  exactly when no accepted operation on the page has a side in another wallet.
-/

namespace ZroServices

open Foundation
open CreateOperationUseCase AcceptOperationUseCase RevertOperationUseCase

/-! ### The rows of accepted operations -/

/-- A side of an operation is on a wallet account. -/
def Operation.HasSide (o : Operation) (id : WalletAccountId) : Prop :=
  ∃ p, (o.owner = some p ∨ o.beneficiary = some p) ∧ p.walletAccount = id

/-- The wallet account transactions are those of the sides of the accepted operations. -/
structure SidesRecorded (db : Db) : Prop where
  known : ∀ t ∈ db.walletAccountTransactions, ∃ o, db.operations.get? t.operation = some o ∧
    o.state = .ACCEPTED ∧ o.HasSide t.walletAccount
  complete : ∀ o, db.operations.get? o.id = some o → o.state = .ACCEPTED → ∀ id, o.HasSide id →
    ∃ t ∈ db.walletAccountTransactions, t.operation = o.id ∧ t.walletAccount = id

section

variable {env : Env} {now : ℤ} {db db' : Db} {o : Operation}

theorem mem_lines {id : WalletAccountId} :
    id ∈ o.lines.map (·.1) ↔ o.state = .ACCEPTED ∧ o.HasSide id := by
  rw [Operation.lines, Operation.HasSide]
  split
  · simp [*, or_and_right, exists_or]
  · simp [*]

/-- The rows and the stored operations move the same accounts. -/
theorem sidesRecorded_iff : SidesRecorded db ↔ ∀ (id : Uuid) (a : WalletAccountId),
    a ∈ (linesOf db.walletAccountTransactions id).map (·.1) ↔
      a ∈ (entered db.operations id).map (·.1) := by
  have hrow : ∀ id a, a ∈ (linesOf db.walletAccountTransactions id).map (·.1) ↔
      ∃ t ∈ db.walletAccountTransactions, t.operation = id ∧ t.walletAccount = a := by
    simp [linesOf, and_assoc]
  have hentered : ∀ id a, a ∈ (entered db.operations id).map (·.1) ↔
      ∃ o, db.operations.get? id = some o ∧ o.state = .ACCEPTED ∧ o.HasSide a := by
    intro id a
    rw [entered]
    cases db.operations.get? id with
    | none => simp
    | some o => simpa using mem_lines
  simp only [hrow, hentered]
  refine ⟨fun h id a => ⟨?_, ?_⟩, fun h => ⟨fun t ht => ?_, fun o ho haccepted a hside => ?_⟩⟩
  · rintro ⟨t, ht, rfl, rfl⟩
    exact h.known t ht
  · rintro ⟨o, ho, haccepted, hside⟩
    obtain rfl : o.id = id := Table.key_of_get? ho
    exact h.complete o ho haccepted a hside
  · exact (h _ _).mp ⟨t, ht, rfl, rfl⟩
  · exact (h _ _).mpr ⟨o, ho, haccepted, hside⟩

/-- **Every change keeps the rows of the accepted operations.** -/
theorem Change.booked (hc : Change env now db db') (h : SidesRecorded db) : SidesRecorded db' := by
  rw [sidesRecorded_iff] at h ⊢
  obtain ⟨ts, hrows, hwrote⟩ := wrote_of_change hc
  intro id a
  rw [hrows, linesOf_append, hwrote.entered, List.map_append, List.map_append, List.mem_append,
    List.mem_append, h]

end

/-- Every run keeps the rows of the accepted operations. -/
theorem run_booked (env : Env) {s : State} (h : SidesRecorded s.world.db)
    (ls : List (ℤ × Command)) :
    SidesRecorded (run (step env) s ls).world.db :=
  run_invariant (I := fun s => SidesRecorded s.world.db)
    (fun s l h => (step_changes s l).invariant (fun _ _ hc h => hc.booked h) h) h ls

/-! ### The statement -/

/-- `walletAccountCacheRepository.getAllByWallet`. -/
def Db.getAllByWallet (db : Db) (wallet : Uuid) : List WalletAccount :=
  db.walletAccounts.rows.filter (·.wallet = wallet)

inductive PaginationOrder where
  | ASC
  | DESC
  deriving DecidableEq, Repr

inductive OperationRequestSort where
  | CREATED_AT
  deriving DecidableEq, Repr

/-- A page request, as the request class lets it pass. -/
structure Pagination where
  page : ℕ
  pageSize : ℕ
  sort : Option OperationRequestSort
  order : PaginationOrder
  page_pos : 0 < page
  pageSize_pos : 0 < pageSize

structure TGetOperationsFilter where
  currencySymbol : Option String
  transactionTag : Option String
  createdAtStart : Option ℤ
  createdAtEnd : Option ℤ
  value : Option ℤ
  states : Option (List OperationState)

/-- `TPaginationResponse`. -/
structure PaginationResponse (α : Type) where
  data : List α
  page : ℕ
  pageSize : ℕ
  pageTotal : ℕ
  total : ℕ

/-- `findOne` without an order: one of the rows that there are, if there are any. -/
structure FindOne (α : Type) where
  findOne : List α → Option α
  mem : ∀ {rows x}, findOne rows = some x → x ∈ rows
  isSome : ∀ {rows}, rows ≠ [] → (findOne rows).isSome

/-- `paginationToDomain`. -/
def paginationToDomain {α : Type} (pagination : Pagination) (total : ℕ) (data : List α) :
    PaginationResponse α where
  data := data
  page := pagination.page
  pageSize := pagination.pageSize
  pageTotal := (total + pagination.pageSize - 1) / pagination.pageSize
  total := total

/-- The rows of a page: sorted when the request says so, and in the order of the table else. -/
def Pagination.rows (pagination : Pagination) (os : List Operation) : List Operation :=
  let sorted := match pagination.sort, pagination.order with
    | none, _ => os
    | some .CREATED_AT, .ASC => os.insertionSort fun o o' => o.createdAt ≤ o'.createdAt
    | some .CREATED_AT, .DESC => os.insertionSort fun o o' => o'.createdAt ≤ o.createdAt
  (sorted.drop ((pagination.page - 1) * pagination.pageSize)).take pagination.pageSize

namespace GetStatementUseCase

/-- `TStatementInfo`: an operation, with the wallet accounts of the wallet only. -/
structure StatementInfo where
  operation : Operation
  ownerWalletAccount : Option WalletAccountId
  beneficiaryWalletAccount : Option WalletAccountId
  walletAccountTransaction : Option WalletAccountTransaction

variable (env : Env) (now : ℤ)

/-- The `where` and the `include` of `getAllByWalletAccountsAndFilter`.  Both dates of the filter
are there. -/
def Matches (walletAccounts : List WalletAccount) (createdAtStart createdAtEnd : ℤ)
    (filter : TGetOperationsFilter) (o : Operation) : Prop :=
  (o.owner.any (fun p => p.walletAccount ∈ walletAccounts.map (·.id)) ∨
      o.beneficiary.any fun p => p.walletAccount ∈ walletAccounts.map (·.id)) ∧
    startOf .day createdAtStart ≤ o.createdAt ∧
    o.createdAt ≤ startOf .day createdAtEnd + msPerDay - 1 ∧
    (∀ value ∈ filter.value.filter (· ≠ 0), o.value = value) ∧
    (∀ states ∈ filter.states, o.state ∈ states) ∧
    (∃ currency ∈ env.currencies, currency.id = o.currency ∧
      ∀ symbol ∈ filter.currencySymbol.filter (· ≠ ""), currency.symbol = symbol) ∧
    ∀ tag ∈ filter.transactionTag.filter (· ≠ ""), o.transactionType.tag = tag

instance (walletAccounts : List WalletAccount) (createdAtStart createdAtEnd : ℤ)
    (filter : TGetOperationsFilter) (o : Operation) :
    Decidable (Matches env walletAccounts createdAtStart createdAtEnd filter o) :=
  inferInstanceAs (Decidable (_ ∧ _ ∧ _ ∧ _ ∧ _ ∧ _ ∧ _))

/-- `operationRepository.getAllByWalletAccountsAndFilter`, with the dates that the filter has or is
given: 90 days until now. -/
def getAllByWalletAccountsAndFilter (walletAccounts : List WalletAccount)
    (filter : TGetOperationsFilter) (db : Db) : List Operation :=
  db.operations.rows.filter fun o => decide
    (Matches env walletAccounts (filter.createdAtStart.getD (now - 90 * msPerDay))
      (filter.createdAtEnd.getD now) filter o)

/-- The wallet account of a side, when it is one of the wallet. -/
def accountOf (walletAccounts : List WalletAccount) (p : Option Party) : Option WalletAccountId :=
  (p.map (·.walletAccount)).filter fun id => id ∈ walletAccounts.map (·.id)

/-- `walletAccountTransactionRepository.getByOperation`. -/
def getByOperation (transactions : FindOne WalletAccountTransaction) (o : Operation) (db : Db) :
    Option WalletAccountTransaction :=
  transactions.findOne (db.walletAccountTransactions.filter (·.operation = o.id))

def statementInfo (transactions : FindOne WalletAccountTransaction)
    (walletAccounts : List WalletAccount) (db : Db) (o : Operation) : StatementInfo where
  operation := o
  ownerWalletAccount := accountOf walletAccounts o.owner
  beneficiaryWalletAccount := accountOf walletAccounts o.beneficiary
  walletAccountTransaction :=
    if o.state = .ACCEPTED then getByOperation transactions o db else none

/-- The fields that are missing in a request. -/
def missingFields (user : Option UserId) (wallet : Option Uuid) (pagination : Option Pagination)
    (filter : Option TGetOperationsFilter) : List String :=
  (if user.isNone then ["User"] else []) ++ (if wallet.isNone then ["Wallet"] else [])
    ++ (if pagination.isNone then ["Pagination"] else [])
    ++ (if filter.isNone then ["Filter"] else [])

/-- `GetStatementUseCase.execute`. -/
def execute (transactions : FindOne WalletAccountTransaction) (user : Option UserId)
    (wallet : Option Uuid) (pagination : Option Pagination)
    (filter : Option TGetOperationsFilter) : App (PaginationResponse StatementInfo) := do
  let missing := Exception.missingData (missingFields user wallet pagination filter)
  let user ← orThrow user missing
  let wallet ← orThrow wallet missing
  let pagination ← orThrow pagination missing
  let filter ← orThrow filter missing
  let userWallets ← readDb (·.userWallets)
  throwIf ((wallet, user) ∉ userWallets) .forbidden
  let walletAccounts ← readDb (·.getAllByWallet wallet)
  if walletAccounts = [] then return paginationToDomain pagination 0 []
  else do
    let operations ← readDb (getAllByWalletAccountsAndFilter env now walletAccounts filter)
    let result := paginationToDomain pagination operations.length (pagination.rows operations)
    let data ← readDb fun db => result.data.map (statementInfo transactions walletAccounts db)
    return { result with data }

/-- The operations that a statement lists. -/
def listed (user : UserId) (wallet : Uuid) (pagination : Pagination)
    (filter : TGetOperationsFilter) (db : Db) : List Operation :=
  if (wallet, user) ∈ db.userWallets then
    pagination.rows (getAllByWalletAccountsAndFilter env now
      (db.getAllByWallet wallet) filter db)
  else []

/-- A statement shows only transactions of the wallet. -/
def Shown (wallet : Uuid) (db : Db) (r : PaginationResponse StatementInfo) : Prop :=
  ∀ info ∈ r.data, ∀ t, info.walletAccountTransaction = some t →
    CreateP2PTransferUseCase.walletOf db t.walletAccount = some wallet

/-- Every side of the operation is in the wallet. -/
def OwnSides (wallet : Uuid) (db : Db) (o : Operation) : Prop :=
  ∀ id, o.HasSide id → CreateP2PTransferUseCase.walletOf db id = some wallet

variable {env now} {user : UserId} {wallet : Uuid} {pagination : Pagination}
  {filter : TGetOperationsFilter} {transactions : FindOne WalletAccountTransaction}
  {r : PaginationResponse StatementInfo} {w w' : World} {db : Db} {o : Operation}

theorem mem_rows {os : List Operation} (h : o ∈ pagination.rows os) : o ∈ os := by
  have hsorted := List.mem_of_mem_drop (List.mem_of_mem_take h)
  revert hsorted
  split
  · exact id
  · exact (List.mem_insertionSort _).mp
  · exact (List.mem_insertionSort _).mp

theorem rows_nil : pagination.rows [] = [] := by
  rw [Pagination.rows]
  cases pagination.sort with
  | none => simp
  | some sort =>
      cases sort
      cases pagination.order <;> simp

/-- A listed operation is one of the table. -/
theorem get?_of_listed (h : o ∈ listed env now user wallet pagination filter db) :
    db.operations.get? o.id = some o := by
  rw [listed] at h
  split at h
  · exact Table.get?_of_mem (List.mem_filter.mp (mem_rows h)).1
  · exact absurd h List.not_mem_nil

/-- Without a wallet account there is no operation. -/
theorem getAllByWalletAccountsAndFilter_nil :
    getAllByWalletAccountsAndFilter env now [] filter db = [] := by
  refine List.filter_eq_nil_iff.mpr fun o _ h => ?_
  obtain ⟨h, -⟩ := of_decide_eq_true h
  rcases h with h | h
  · obtain ⟨p, -, hp⟩ := Option.any_eq_true _ _ |>.mp h
    simp at hp
  · obtain ⟨p, -, hp⟩ := Option.any_eq_true _ _ |>.mp h
    simp at hp

/-- **What a statement is made of**: the listed operations, each with what the database gives for
it. -/
theorem execute_ok (h : execute env now transactions (some user) (some wallet) (some pagination)
      (some filter) w = .ok r w') : w' = w ∧ r.data =
        (listed env now user wallet pagination filter w.db).map
          (statementInfo transactions (w.db.getAllByWallet wallet) w.db) := by
  simp only [execute, bind_ok, orThrow_ok, throwIf_ok, readDb_ok] at h
  obtain ⟨_, _, ⟨hu, rfl⟩, _, _, ⟨hw, rfl⟩, _, _, ⟨hp, rfl⟩, _, _, ⟨hf, rfl⟩, _, _, ⟨rfl, rfl⟩,
    _, _, ⟨hmem, rfl⟩, _, _, ⟨rfl, rfl⟩, h⟩ := h
  obtain rfl := Option.some.inj hu
  obtain rfl := Option.some.inj hw
  obtain rfl := Option.some.inj hp
  obtain rfl := Option.some.inj hf
  rw [listed, if_pos (not_not.mp hmem)]
  split at h
  · rename_i hnil
    obtain ⟨rfl, rfl⟩ := pure_ok.mp h
    refine ⟨rfl, ?_⟩
    rw [hnil, getAllByWalletAccountsAndFilter_nil, rows_nil]
    rfl
  · simp only [bind_ok, readDb_ok, pure_ok] at h
    obtain ⟨_, _, ⟨rfl, rfl⟩, _, _, ⟨rfl, rfl⟩, rfl, rfl⟩ := h
    exact ⟨rfl, rfl⟩

/-- A user of the wallet gets a statement. -/
theorem execute_returns (hmem : (wallet, user) ∈ w.db.userWallets) :
    ∃ r, execute env now transactions (some user) (some wallet) (some pagination) (some filter) w
      = .ok r w := by
  simp only [execute, orThrow_bind_ok, throwIf_bind_ok, readDb_bind_ok, Option.some.injEq,
    exists_eq_left']
  by_cases hnil : w.db.getAllByWallet wallet = []
  · simp only [if_pos hnil]
    exact ⟨_, not_not.mpr hmem, rfl⟩
  · simp only [if_neg hnil]
    exact ⟨_, not_not.mpr hmem, rfl⟩

/-- The row of one account, if there is one, and the first row else. -/
def FindOne.ofAccount (id : WalletAccountId) : FindOne WalletAccountTransaction where
  findOne rows := (rows.find? (·.walletAccount = id)).or rows.head?
  mem := by
    intro rows x h
    rcases Option.or_eq_some_iff.mp h with h | ⟨-, h⟩
    · exact List.mem_of_find?_eq_some h
    · exact List.mem_of_head? h
  isSome := by
    intro rows h
    rw [Option.isSome_or]
    cases rows with
    | nil => exact absurd rfl h
    | cons x rows => exact Bool.or_true _

theorem findOne_ofAccount {id : WalletAccountId} {rows : List WalletAccountTransaction}
    {t : WalletAccountTransaction} (ht : t ∈ rows) (hid : t.walletAccount = id) :
    ∃ x, (FindOne.ofAccount id).findOne rows = some x ∧ x.walletAccount = id := by
  obtain ⟨x, hx⟩ := Option.isSome_iff_exists.mp
    (List.find?_isSome.mpr ⟨t, ht, decide_eq_true hid⟩ :
      (rows.find? (·.walletAccount = id)).isSome)
  exact ⟨x, Option.or_eq_some_iff.mpr (Or.inl hx), by simpa using List.find?_some hx⟩

/-- **When a statement shows only the wallet's side**, whatever row the database gives. -/
theorem shown_iff_of_booked (h : SidesRecorded w.db) :
    (∀ transactions r w', execute env now transactions (some user) (some wallet) (some pagination)
      (some filter) w = .ok r w' → Shown wallet w.db r) ↔
    ∀ o ∈ listed env now user wallet pagination filter w.db, o.state = .ACCEPTED →
      OwnSides wallet w.db o := by
  constructor
  · intro hshown o ho haccepted id hside
    have hmem : (wallet, user) ∈ w.db.userWallets := by
      by_contra hnot
      rw [listed, if_neg hnot] at ho
      exact List.not_mem_nil ho
    obtain ⟨r, hr⟩ : ∃ r, execute env now (FindOne.ofAccount id) (some user) (some wallet)
        (some pagination) (some filter) w = .ok r w := execute_returns hmem
    obtain ⟨t, ht, hoperation, haccount⟩ := h.complete o (get?_of_listed ho) haccepted id hside
    have hrow : t ∈ w.db.walletAccountTransactions.filter (·.operation = o.id) :=
      List.mem_filter.mpr ⟨ht, decide_eq_true hoperation⟩
    obtain ⟨x, hx, rfl⟩ := findOne_ofAccount hrow haccount
    have hinfo := List.mem_map_of_mem (f := statementInfo (FindOne.ofAccount x.walletAccount)
      (w.db.getAllByWallet wallet) w.db) ho
    rw [← (execute_ok hr).2] at hinfo
    exact hshown _ r w hr _ hinfo x ((if_pos haccepted).trans hx)
  · intro hown transactions r w' hr info hinfo t ht
    obtain ⟨-, hdata⟩ := execute_ok hr
    rw [hdata] at hinfo
    obtain ⟨o, ho, rfl⟩ := List.mem_map.mp hinfo
    by_cases haccepted : o.state = .ACCEPTED
    · have hrow := transactions.mem ((if_pos haccepted).symm.trans ht)
      obtain ⟨hrow, hoperation⟩ := List.mem_filter.mp hrow
      obtain ⟨x, hx, -, hside⟩ := h.known t hrow
      rw [of_decide_eq_true hoperation, get?_of_listed ho] at hx
      obtain rfl := Option.some.inj hx
      exact hown o ho haccepted _ hside
    · have hnone : none = some t := (if_neg haccepted).symm.trans ht
      cases hnone

end GetStatementUseCase

open GetStatementUseCase

/-- **A statement shows only the wallet's side exactly when no accepted operation on the page has a
side in another wallet.**  In every state that a run reaches, and whatever row the database gives
where there are two. -/
theorem shown_iff (env : Env) (s : State) (h : SidesRecorded s.world.db) (ls : List (ℤ × Command))
    (now : ℤ) (user : UserId) (wallet : Uuid) (pagination : Pagination)
    (filter : TGetOperationsFilter) :
    (∀ transactions r w', GetStatementUseCase.execute env now transactions (some user) (some wallet)
      (some pagination) (some filter) (run (step env) s ls).world = .ok r w' →
        Shown wallet (run (step env) s ls).world.db r) ↔
    ∀ o ∈ listed env now user wallet pagination filter (run (step env) s ls).world.db,
      o.state = .ACCEPTED → OwnSides wallet (run (step env) s ls).world.db o :=
  shown_iff_of_booked (run_booked env h ls)

namespace Sample

theorem start_booked (balance : ℤ) (creditBalance : ℕ) :
    SidesRecorded (start balance creditBalance).world.db :=
  ⟨fun _ ht => absurd ht List.not_mem_nil, fun _ ho => by cases ho⟩

/-- The first row of the table. -/
def firstRow : FindOne WalletAccountTransaction where
  findOne := List.head?
  mem := List.mem_of_head?
  isSome := by
    intro rows h
    cases rows with
    | nil => exact absurd rfl h
    | cons x rows => rfl

def firstPage : Pagination := ⟨1, 20, none, .ASC, by decide, by decide⟩

def noFilter : TGetOperationsFilter := ⟨none, none, none, none, none, none⟩

/-- The first user transferred 300 to the second. -/
def shared : State :=
  run (step (env .DATE)) (start 1000 0) [(noon, transfer 1 300), (noon, .accept 1)]

/-- The statement of the second user. -/
def received : Option (PaginationResponse StatementInfo) :=
  returned (GetStatementUseCase.execute (env .DATE) noon firstRow (some 2) (some 2) (some firstPage)
    (some noFilter)) shared.world

/-- The row of the sender. -/
def senderRow : WalletAccountTransaction := ⟨1, 1, .DEBIT, 300, 1000, 700⟩

end Sample

open Sample in
theorem shown_iff_sample :
    (∀ transactions r w', GetStatementUseCase.execute (env .DATE) noon transactions (some 2)
      (some 2) (some firstPage) (some noFilter) shared.world = .ok r w' →
        Shown 2 shared.world.db r) ↔
    ∀ o ∈ listed (env .DATE) noon 2 2 firstPage noFilter shared.world.db,
      o.state = .ACCEPTED → OwnSides 2 shared.world.db o :=
  shown_iff (env .DATE) (start 1000 0) (start_booked 1000 0)
    [(noon, transfer 1 300), (noon, .accept 1)] noon 2 2 firstPage noFilter

open Sample in
/-- The second user's statement shows what the first user has. -/
theorem not_shown : ∃ r w', GetStatementUseCase.execute (env .DATE) noon firstRow (some 2) (some 2)
      (some firstPage) (some noFilter) shared.world = .ok r w' ∧
    (r.data.map fun info => (info.operation.id, info.walletAccountTransaction))
      = [(1, some senderRow)] ∧
    CreateP2PTransferUseCase.walletOf shared.world.db senderRow.walletAccount = some 1 ∧
    ¬Shown 2 shared.world.db r := by
  have hdata : received.map (fun r =>
      r.data.map fun info => (info.operation.id, info.walletAccountTransaction))
        = some [(1, some senderRow)] := by
    decide +kernel
  have hwallet : CreateP2PTransferUseCase.walletOf shared.world.db senderRow.walletAccount
      = some 1 := by
    decide +kernel
  obtain ⟨r, hr, hdata⟩ := Option.map_eq_some_iff.mp hdata
  obtain ⟨w', hrun⟩ := returned_eq_some.mp hr
  refine ⟨r, w', hrun, hdata, hwallet, fun hshown => ?_⟩
  have hmem : ((1 : Uuid), some senderRow)
      ∈ r.data.map fun info => (info.operation.id, info.walletAccountTransaction) := by
    rw [hdata]
    exact List.mem_singleton_self _
  obtain ⟨info, hinfo, e⟩ := List.mem_map.mp hmem
  have hmine := hshown info hinfo senderRow (Prod.mk.inj e).2
  rw [hwallet] at hmine
  exact absurd hmine (by decide)

end ZroServices
