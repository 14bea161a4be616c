import Mathlib.Algebra.Order.BigOperators.Group.List
import Mathlib.Tactic.Ring
import ZroServices.Foundation.Account
import ZroServices.Pix.Domain

/-!
# PIX — received transactions as accounts

A received transaction is an account (`Foundation.Account`): its limit is the amount that it
brought, its counter is `returnedAmount`, and what is held against it are the amounts of its
returns that are pending, waiting or confirmed.  `Database.Covered` says that every account is
balanced.

Rows refer to each other by their ids, and warning devolutions to deposits by their operations;
`Database.Linked` says that what they refer to is stored.  Under it, every write of a row moves
the account of one transaction (`Database.Moves`): a write of the transaction moves its counter,
a write of a return moves what is held.
-/

namespace ZroServices.Pix

open Foundation

/-! ### The accounts -/

/-- A received transaction. -/
inductive Transaction where
  | deposit (id : Uuid)
  | devolutionReceived (id : Uuid)
  deriving DecidableEq, Repr

/-- What a return of an amount holds. -/
def DevolutionState.held (state : DevolutionState) (amount : ℕ) : ℤ :=
  if state.live then amount else 0

theorem DevolutionState.held_of_live {state : DevolutionState} {amount : ℕ}
    (h : state.live = true) : state.held amount = amount := if_pos h

theorem DevolutionState.held_nonneg {state : DevolutionState} {amount : ℕ} :
    0 ≤ state.held amount := by
  rw [held]
  split
  · exact Int.natCast_nonneg amount
  · exact le_rfl

/-- The transaction that a refund devolution returns. -/
def PixRefundDevolution.key (r : PixRefundDevolution) : Transaction :=
  match r.transactionType with
  | .DEPOSIT => .deposit r.transaction
  | .DEVOLUTION_RECEIVED => .devolutionReceived r.transaction

namespace Database

/-- What the refund devolutions of a transaction hold. -/
def refundsHeld (db : Database) (t : Transaction) : ℤ :=
  db.refundDevolutions.total fun r => if r.key = t then r.state.held r.amount else 0

/-- What the returns of a deposit hold: devolutions name it by its id, warning devolutions by its
operation. -/
def depositHeld (db : Database) (d : PixDeposit) : ℤ :=
  (db.devolutions.total fun r => if r.deposit = d.id then r.state.held r.amount else 0) +
    (db.warningDevolutions.total fun r =>
      if r.operation = d.operation then r.state.held r.amount else 0) +
    db.refundsHeld (.deposit d.id)

/-- The stored counter of every transaction is the sum of its returns that are pending, waiting or
confirmed, and lies between zero and the amount of the transaction. -/
structure Covered (db : Database) : Prop where
  deposit : ∀ d ∈ db.deposits.rows, d.returnedAmount = db.depositHeld d ∧
    0 ≤ d.returnedAmount ∧ d.returnedAmount ≤ d.amount
  devolutionReceived : ∀ r ∈ db.devolutionsReceived.rows,
    r.returnedAmount = db.refundsHeld (.devolutionReceived r.id) ∧
      0 ≤ r.returnedAmount ∧ r.returnedAmount ≤ r.amount

/-- The account of every transaction. -/
def accounts (db : Database) : Accounts Transaction ℤ
  | .deposit id => (db.deposits.get? id).map fun d =>
      { limit := d.amount, taken := d.returnedAmount, held := db.depositHeld d }
  | .devolutionReceived id => (db.devolutionsReceived.get? id).map fun r =>
      { limit := r.amount
        taken := r.returnedAmount
        held := db.refundsHeld (.devolutionReceived r.id) }

end Database

theorem total_held_nonneg {α : Type} [Keyed α Uuid] {t : Table α} {p : α → Prop} [DecidablePred p]
    {state : α → DevolutionState} {amount : α → ℕ} :
    0 ≤ t.total fun r => if p r then (state r).held (amount r) else 0 := by
  rw [Table.total]
  refine List.sum_nonneg fun x hx => ?_
  obtain ⟨r, -, rfl⟩ := List.mem_map.mp hx
  split
  · exact DevolutionState.held_nonneg
  · exact le_rfl

namespace Database

variable {db : Database}
variable {d : PixDeposit}
variable {t k : Transaction} {r : PixDevolutionReceived} {db' : Database}

theorem refundsHeld_nonneg : 0 ≤ db.refundsHeld t := total_held_nonneg

theorem depositHeld_nonneg : 0 ≤ db.depositHeld d :=
  add_nonneg (add_nonneg total_held_nonneg total_held_nonneg) refundsHeld_nonneg

theorem accounts_deposit (h : db.deposits.get? d.id = some d) :
    db.accounts (.deposit d.id) =
      some { limit := d.amount, taken := d.returnedAmount, held := db.depositHeld d } := by
  rw [accounts, h]
  rfl

theorem accounts_received (h : db.devolutionsReceived.get? r.id = some r) :
    db.accounts (.devolutionReceived r.id) =
      some { limit := r.amount
             taken := r.returnedAmount
             held := db.refundsHeld (.devolutionReceived r.id) } := by
  rw [accounts, h]
  rfl

/-- The counters are those of balanced accounts. -/
theorem covered_iff_balanced : db.Covered ↔ db.accounts.Balanced := by
  constructor
  · intro h k a hk
    cases k with
    | deposit id =>
        obtain ⟨d, hd, rfl⟩ := Option.map_eq_some_iff.mp hk
        obtain ⟨heq, -, hle⟩ := h.deposit d (Table.mem_of_get? hd)
        exact ⟨heq, hle⟩
    | devolutionReceived id =>
        obtain ⟨r, hr, rfl⟩ := Option.map_eq_some_iff.mp hk
        obtain ⟨heq, -, hle⟩ := h.devolutionReceived r (Table.mem_of_get? hr)
        exact ⟨heq, hle⟩
  · intro h
    constructor
    · intro d hd
      have hb := h _ _ (accounts_deposit (Table.get?_of_mem hd))
      refine ⟨hb.eq, ?_, hb.le⟩
      rw [show d.returnedAmount = db.depositHeld d from hb.eq]
      exact depositHeld_nonneg
    · intro r hr
      have hb := h _ _ (accounts_received (Table.get?_of_mem hr))
      refine ⟨hb.eq, ?_, hb.le⟩
      rw [show r.returnedAmount = db.refundsHeld (.devolutionReceived r.id) from hb.eq]
      exact refundsHeld_nonneg

/-! ### What stored rows refer to -/

/-- The transaction is stored. -/
def stored (db : Database) : Transaction → Bool
  | .deposit id => (db.deposits.get? id).isSome
  | .devolutionReceived id => (db.devolutionsReceived.get? id).isSome

theorem isSome_accounts : (db.accounts t).isSome = db.stored t := by
  cases t <;> exact Option.isSome_map

/-- Rows refer to stored rows, no two deposits have one operation, and no received devolution has
the id of a deposit. -/
structure Linked (db : Database) : Prop where
  operations : (db.deposits.rows.map PixDeposit.operation).Nodup
  disjoint : ∀ d ∈ db.deposits.rows, ∀ r ∈ db.devolutionsReceived.rows, d.id ≠ r.id
  devolution : ∀ r ∈ db.devolutions.rows, db.stored (.deposit r.deposit)
  warning : ∀ r ∈ db.warningDevolutions.rows, ∃ d ∈ db.deposits.rows, d.operation = r.operation
  refund : ∀ r ∈ db.refundDevolutions.rows, db.stored r.key

theorem linked_empty : Database.empty.Linked where
  operations := List.nodup_nil
  disjoint := by simp [Database.empty, Table.empty]
  devolution := by simp [Database.empty, Table.empty]
  warning := by simp [Database.empty, Table.empty]
  refund := by simp [Database.empty, Table.empty]

/-! ### Writes -/

/-- A write that keeps the rows linked and moves one account. -/
structure Moves (db db' : Database) (k : Transaction) (x y : ℤ) : Prop where
  linked : db'.Linked
  accounts : db'.accounts = db.accounts.move k x y

theorem Moves.trans {db₁ db₂ : Database} {x y x' y' : ℤ}
    (h : db.Moves db₁ k x y) (h' : db₁.Moves db₂ k x' y') :
    db.Moves db₂ k (x + x') (y + y') where
  linked := h'.linked
  accounts := by rw [h'.accounts, h.accounts, Accounts.move_move]

/-- A movement of an account stores no transaction and removes none. -/
theorem stored_of_accounts {x y : ℤ}
    (h : db'.accounts = db.accounts.move k x y) (t : Transaction) : db'.stored t = db.stored t := by
  rw [← isSome_accounts, h, Accounts.isSome_move, isSome_accounts]

theorem Linked.eq_of_operation (h : db.Linked) {d' : PixDeposit} (hd : d ∈ db.deposits.rows)
    (hd' : d' ∈ db.deposits.rows) (e : d.operation = d'.operation) : d = d' :=
  List.inj_on_of_nodup_map h.operations hd hd' e

theorem mem_of_getDepositByOperation {operation : Uuid}
    (h : db.getDepositByOperation operation = some d) :
    db.deposits.get? d.id = some d ∧ d.operation = operation := by
  refine ⟨Table.get?_of_mem (List.mem_of_find?_eq_some h), ?_⟩
  simpa using List.find?_some h

theorem mem_of_getDepositByOperationAndWallet {operation wallet : Uuid}
    (h : db.getDepositByOperationAndWallet operation wallet = some d) :
    db.deposits.get? d.id = some d :=
  Table.get?_of_mem (List.mem_of_find?_eq_some h)

/-- Accounts whose holds moved are the accounts moved. -/
theorem accounts_eq_move (k : Transaction) (y : ℤ) (hdeposits : db'.deposits = db.deposits)
    (hreceived : db'.devolutionsReceived = db.devolutionsReceived)
    (hd : ∀ d ∈ db.deposits.rows,
      db'.depositHeld d = db.depositHeld d + if Transaction.deposit d.id = k then y else 0)
    (hr : ∀ r ∈ db.devolutionsReceived.rows,
      db'.refundsHeld (.devolutionReceived r.id) = db.refundsHeld (.devolutionReceived r.id) +
        if Transaction.devolutionReceived r.id = k then y else 0) :
    db'.accounts = db.accounts.move k 0 y := by
  funext j
  cases j with
  | deposit id =>
      rw [Accounts.move, accounts, accounts, hdeposits]
      cases h : db.deposits.get? id with
      | none => simp
      | some d =>
          obtain rfl : d.id = id := Table.key_of_get? h
          simp only [Option.map_some, hd d (Table.mem_of_get? h)]
          split <;> simp [Account.move]
  | devolutionReceived id =>
      rw [Accounts.move, accounts, accounts, hreceived]
      cases h : db.devolutionsReceived.get? id with
      | none => simp
      | some r =>
          obtain rfl : r.id = id := Table.key_of_get? h
          simp only [Option.map_some, hr r (Table.mem_of_get? h)]
          split <;> simp [Account.move]

/-- The columns of a deposit that the returns name it by, and its amount, are never written. -/
structure SameDeposit (d e : PixDeposit) : Prop where
  id : e.id = d.id
  operation : e.operation = d.operation
  amount : e.amount = d.amount

theorem accounts_setDeposit {e : PixDeposit} (hd : db.deposits.get? d.id = some d)
    (he : SameDeposit d e) :
    Database.accounts { db with deposits := db.deposits.set e } =
      db.accounts.move (.deposit d.id) (e.returnedAmount - d.returnedAmount) 0 := by
  funext j
  cases j with
  | devolutionReceived id => rw [Accounts.move_of_ne (by simp)]; rfl
  | deposit id =>
      rw [accounts]
      by_cases h : d.id = id
      · subst h
        rw [Accounts.move_self (accounts_deposit hd), Table.get?_set_self hd he.id]
        simp only [Option.map_some, Account.move, add_sub_cancel, add_zero, he.amount]
        simp only [depositHeld, refundsHeld, he.id, he.operation]
      · rw [Accounts.move_of_ne (by simpa [eq_comm] using h),
          Table.get?_set_ne (show e.id ≠ id from he.id.symm ▸ h)]
        rfl

/-- A deposit is written. -/
theorem moves_setDeposit (hl : db.Linked) {e : PixDeposit}
    (hd : db.deposits.get? d.id = some d) (he : SameDeposit d e) :
    db.Moves { db with deposits := db.deposits.set e } (.deposit d.id)
      (e.returnedAmount - d.returnedAmount) 0 := by
  have hmem : d ∈ db.deposits.rows := Table.mem_of_get? hd
  have old : ∀ f ∈ (db.deposits.set e).rows,
      ∃ f' ∈ db.deposits.rows, f'.id = f.id ∧ f'.operation = f.operation := by
    intro f hf
    rcases Table.mem_set.mp hf with ⟨hf, -⟩ | ⟨rfl, -⟩
    · exact ⟨f, hf, rfl, rfl⟩
    · exact ⟨d, hmem, he.id.symm, he.operation.symm⟩
  have new : ∀ f ∈ db.deposits.rows,
      ∃ f' ∈ (db.deposits.set e).rows, f'.id = f.id ∧ f'.operation = f.operation := by
    intro f hf
    by_cases hk : f.id = e.id
    · obtain rfl := Table.eq_of_key hf hmem (hk.trans he.id)
      exact ⟨e, Table.mem_set.mpr (.inr ⟨rfl, f, hf, hk⟩), he.id, he.operation⟩
    · exact ⟨f, Table.mem_set.mpr (.inl ⟨hf, hk⟩), rfl, rfl⟩
  have moved := accounts_setDeposit hd he
  refine ⟨⟨?_, ?_, ?_, ?_, ?_⟩, moved⟩
  · rw [Table.rows_set, List.map_map]
    refine (List.map_congr_left fun f hf => ?_) ▸ hl.operations
    change f.operation = PixDeposit.operation (if f.id = e.id then e else f)
    split
    · rw [Table.eq_of_key hf hmem (‹f.id = e.id›.trans he.id), he.operation]
    · rfl
  · intro f hf r hr
    obtain ⟨f', hf', hid, -⟩ := old f hf
    exact hid ▸ hl.disjoint f' hf' r hr
  · intro r hr
    rw [stored_of_accounts moved]
    exact hl.devolution r hr
  · intro r hr
    obtain ⟨f, hf, hop⟩ := hl.warning r hr
    obtain ⟨f', hf', -, hop'⟩ := new f hf
    exact ⟨f', hf', hop'.trans hop⟩
  · intro r hr
    rw [stored_of_accounts moved]
    exact hl.refund r hr

/-- The counter of a deposit is written. -/
theorem moves_setReturned (hl : db.Linked) (hd : db.deposits.get? d.id = some d) (x : ℤ) :
    db.Moves { db with deposits := db.deposits.set { d with returnedAmount := x } }
      (.deposit d.id) (x - d.returnedAmount) 0 :=
  moves_setDeposit hl hd ⟨rfl, rfl, rfl⟩

/-- The deposit is still stored after its account moved. -/
theorem Moves.stored {x y : ℤ} (h : db.Moves db' k x y)
    (hd : db.deposits.get? d.id = some d) : db'.stored (.deposit d.id) := by
  rw [stored_of_accounts h.accounts, Database.stored, hd]
  rfl

section

variable (hl : db.Linked)
include hl

/-- A received devolution is written. -/
theorem moves_setReceived {e : PixDevolutionReceived}
    (hr : db.devolutionsReceived.get? r.id = some r) (hid : e.id = r.id)
    (hamount : e.amount = r.amount) :
    db.Moves { db with devolutionsReceived := db.devolutionsReceived.set e }
      (.devolutionReceived r.id) (e.returnedAmount - r.returnedAmount) 0 := by
  have moved : Database.accounts
      { db with devolutionsReceived := db.devolutionsReceived.set e } =
        db.accounts.move (.devolutionReceived r.id) (e.returnedAmount - r.returnedAmount) 0 := by
    funext j
    cases j with
    | deposit id => rw [Accounts.move_of_ne (by simp)]; rfl
    | devolutionReceived id =>
        rw [accounts]
        by_cases h : r.id = id
        · subst h
          rw [Accounts.move_self (accounts_received hr), Table.get?_set_self hr hid]
          simp only [Option.map_some, Account.move, add_sub_cancel, add_zero, hamount]
          simp only [refundsHeld, hid]
        · rw [Accounts.move_of_ne (by simpa [eq_comm] using h),
            Table.get?_set_ne (show e.id ≠ id from hid.symm ▸ h)]
          rfl
  refine ⟨⟨hl.operations, ?_, hl.devolution, hl.warning, ?_⟩, moved⟩
  · intro d hd x hx
    rcases Table.mem_set.mp hx with ⟨hx, -⟩ | ⟨rfl, -⟩
    · exact hl.disjoint d hd x hx
    · exact hid ▸ hl.disjoint d hd r (Table.mem_of_get? hr)
  · intro x hx
    rw [stored_of_accounts moved]
    exact hl.refund x hx

theorem moves_insertDevolution {r : PixDevolution} {t : Table PixDevolution}
    (h : db.devolutions.insert? r = some t) (hd : db.stored (.deposit r.deposit)) :
    db.Moves { db with devolutions := t } (.deposit r.deposit) 0 (r.state.held r.amount) := by
  refine ⟨⟨hl.operations, hl.disjoint, ?_, hl.warning, hl.refund⟩, ?_⟩
  · intro x hx
    rcases (Table.mem_insert? h).mp hx with hx | rfl
    · exact hl.devolution x hx
    · exact hd
  · refine accounts_eq_move _ _ rfl rfl (fun d _ => ?_) (fun _ _ => by simp [refundsHeld])
    simp only [depositHeld, refundsHeld, Table.total_insert? h, Transaction.deposit.injEq,
      eq_comm (a := d.id)]
    ring

theorem moves_setDevolution {r e : PixDevolution}
    (hr : db.devolutions.get? r.id = some r) (hid : e.id = r.id) (hdep : e.deposit = r.deposit) :
    db.Moves { db with devolutions := db.devolutions.set e } (.deposit r.deposit) 0
      (e.state.held e.amount - r.state.held r.amount) := by
  refine ⟨⟨hl.operations, hl.disjoint, ?_, hl.warning, hl.refund⟩, ?_⟩
  · intro x hx
    rcases Table.mem_set.mp hx with ⟨hx, -⟩ | ⟨rfl, -⟩
    · exact hl.devolution x hx
    · exact hdep ▸ hl.devolution r (Table.mem_of_get? hr)
  · refine accounts_eq_move _ _ rfl rfl (fun d _ => ?_) (fun _ _ => by simp [refundsHeld])
    simp only [depositHeld, refundsHeld, Table.total_set hr hid, hdep, Transaction.deposit.injEq,
      eq_comm (a := d.id)]
    split <;> ring

/-- The account of a warning devolution is that of the deposit of its operation. -/
theorem Linked.operation_eq_iff {e : PixDeposit} (hd : d ∈ db.deposits.rows)
    (he : e ∈ db.deposits.rows) : d.operation = e.operation ↔ d.id = e.id :=
  ⟨fun h => congrArg PixDeposit.id (hl.eq_of_operation hd he h),
    fun h => congrArg PixDeposit.operation (Table.eq_of_key hd he h)⟩

theorem moves_insertWarning {r : WarningPixDevolution}
    {t : Table WarningPixDevolution} (h : db.warningDevolutions.insert? r = some t)
    (hd : d ∈ db.deposits.rows) (hop : r.operation = d.operation) :
    db.Moves { db with warningDevolutions := t } (.deposit d.id) 0 (r.state.held r.amount) := by
  refine ⟨⟨hl.operations, hl.disjoint, hl.devolution, ?_, hl.refund⟩, ?_⟩
  · intro x hx
    rcases (Table.mem_insert? h).mp hx with hx | rfl
    · exact hl.warning x hx
    · exact ⟨d, hd, hop.symm⟩
  · refine accounts_eq_move _ _ rfl rfl (fun e he => ?_) (fun _ _ => by simp [refundsHeld])
    simp only [depositHeld, refundsHeld, Table.total_insert? h, Transaction.deposit.injEq, hop,
      hl.operation_eq_iff hd he, eq_comm (a := e.id)]
    ring

theorem moves_setWarning {r e : WarningPixDevolution}
    (hr : db.warningDevolutions.get? r.id = some r) (hid : e.id = r.id)
    (hop : e.operation = r.operation) (hd : d ∈ db.deposits.rows)
    (hd' : d.operation = r.operation) :
    db.Moves { db with warningDevolutions := db.warningDevolutions.set e } (.deposit d.id) 0
      (e.state.held e.amount - r.state.held r.amount) := by
  refine ⟨⟨hl.operations, hl.disjoint, hl.devolution, ?_, hl.refund⟩, ?_⟩
  · intro x hx
    rcases Table.mem_set.mp hx with ⟨hx, -⟩ | ⟨rfl, -⟩
    · exact hl.warning x hx
    · exact ⟨d, hd, hd'.trans hop.symm⟩
  · refine accounts_eq_move _ _ rfl rfl (fun f hf => ?_) (fun _ _ => by simp [refundsHeld])
    simp only [depositHeld, refundsHeld, Table.total_set hr hid, Transaction.deposit.injEq, hop,
      ← hd', hl.operation_eq_iff hd hf, eq_comm (a := f.id)]
    split <;> ring

theorem moves_insertRefund {r : PixRefundDevolution}
    {t : Table PixRefundDevolution} (h : db.refundDevolutions.insert? r = some t)
    (hk : db.stored r.key) :
    db.Moves { db with refundDevolutions := t } r.key 0 (r.state.held r.amount) := by
  have moved : Database.accounts { db with refundDevolutions := t } =
      db.accounts.move r.key 0 (r.state.held r.amount) := by
    refine accounts_eq_move _ _ rfl rfl (fun d _ => ?_) (fun x _ => ?_)
    · simp only [depositHeld, refundsHeld, Table.total_insert? h, eq_comm (a := r.key)]
      ring
    · simp only [refundsHeld, Table.total_insert? h, eq_comm (a := r.key)]
  refine ⟨⟨hl.operations, hl.disjoint, hl.devolution, hl.warning, ?_⟩, moved⟩
  intro x hx
  rw [stored_of_accounts moved]
  rcases (Table.mem_insert? h).mp hx with hx | rfl
  · exact hl.refund x hx
  · exact hk

theorem moves_setRefund {r e : PixRefundDevolution}
    (hr : db.refundDevolutions.get? r.id = some r) (hid : e.id = r.id) (hk : e.key = r.key) :
    db.Moves { db with refundDevolutions := db.refundDevolutions.set e } r.key 0
      (e.state.held e.amount - r.state.held r.amount) := by
  have moved : Database.accounts { db with refundDevolutions := db.refundDevolutions.set e } =
      db.accounts.move r.key 0 (e.state.held e.amount - r.state.held r.amount) := by
    refine accounts_eq_move _ _ rfl rfl (fun d _ => ?_) (fun x _ => ?_)
    · simp only [depositHeld, refundsHeld, Table.total_set hr hid, hk, eq_comm (a := r.key)]
      split <;> ring
    · simp only [refundsHeld, Table.total_set hr hid, hk, eq_comm (a := r.key)]
      split <;> ring
  refine ⟨⟨hl.operations, hl.disjoint, hl.devolution, hl.warning, ?_⟩, moved⟩
  intro x hx
  rw [stored_of_accounts moved]
  rcases Table.mem_set.mp hx with ⟨hx, -⟩ | ⟨rfl, -⟩
  · exact hl.refund x hx
  · exact hk ▸ hl.refund r (Table.mem_of_get? hr)

/-! ### New transactions -/

theorem refundsHeld_of_not_stored (h : db.stored t = false) : db.refundsHeld t = 0 := by
  refine List.sum_eq_zero fun x hx => ?_
  obtain ⟨r, hr, rfl⟩ := List.mem_map.mp hx
  rw [if_neg]
  rintro rfl
  rw [hl.refund r hr] at h
  cases h

theorem depositHeld_of_new (hid : db.deposits.get? d.id = none)
    (hop : ∀ e ∈ db.deposits.rows, e.operation ≠ d.operation) : db.depositHeld d = 0 := by
  have devolutions :
      (db.devolutions.total fun r => if r.deposit = d.id then r.state.held r.amount else 0) = 0 := by
    refine List.sum_eq_zero fun x hx => ?_
    obtain ⟨r, hr, rfl⟩ := List.mem_map.mp hx
    refine if_neg fun h => ?_
    have hs := hl.devolution r hr
    rw [h, stored, hid] at hs
    cases hs
  have warnings : (db.warningDevolutions.total fun r =>
      if r.operation = d.operation then r.state.held r.amount else 0) = 0 := by
    refine List.sum_eq_zero fun x hx => ?_
    obtain ⟨r, hr, rfl⟩ := List.mem_map.mp hx
    obtain ⟨e, he, hop'⟩ := hl.warning r hr
    exact if_neg fun h => hop e he (hop'.trans h)
  have refunds : db.refundsHeld (.deposit d.id) = 0 :=
    refundsHeld_of_not_stored hl (by rw [stored, hid]; rfl)
  rw [depositHeld, devolutions, warnings, refunds]
  rfl

end

/-- Opening an account removes no transaction. -/
theorem stored_of_opened {limit : ℤ}
    (h : db'.accounts = db.accounts.opened k limit) (ht : db.stored t) :
    db'.stored t := by
  rw [← isSome_accounts] at ht ⊢
  rw [h]
  exact Accounts.isSome_opened ht

theorem opened_insertDeposit (hl : db.Linked) {t : Table PixDeposit}
    (h : db.deposits.insert? d = some t) (hzero : d.returnedAmount = 0)
    (hop : ∀ e ∈ db.deposits.rows, e.operation ≠ d.operation)
    (hrec : ∀ r ∈ db.devolutionsReceived.rows, d.id ≠ r.id) :
    Linked { db with deposits := t } ∧
      accounts { db with deposits := t } = db.accounts.opened (.deposit d.id) d.amount := by
  have hnew : db.deposits.get? d.id = none := (Table.insert?_eq_some h).1
  have opened : accounts { db with deposits := t } =
      db.accounts.opened (.deposit d.id) d.amount := by
    funext j
    rw [Accounts.opened]
    cases j with
    | devolutionReceived id => rw [if_neg (by simp)]; rfl
    | deposit id =>
        by_cases e : d.id = id
        · subst e
          have found : t.get? d.id = some d := Table.get?_insert?_self h
          rw [if_pos rfl, accounts, found, Option.map_some, hzero]
          exact congrArg some (by rw [← depositHeld_of_new hl hnew hop]; rfl)
        · rw [if_neg (by simpa [eq_comm] using e), accounts, accounts, Table.get?_insert?_ne h e]
          rfl
  refine ⟨⟨?_, ?_, ?_, ?_, ?_⟩, opened⟩
  · rw [(Table.insert?_eq_some h).2, List.map_append, List.map_singleton]
    refine List.Nodup.append hl.operations (List.nodup_singleton _)
      (List.disjoint_singleton.mpr fun hm => ?_)
    obtain ⟨e, he, e'⟩ := List.mem_map.mp hm
    exact hop e he e'
  · intro e he r hr
    rcases (Table.mem_insert? h).mp he with he | rfl
    · exact hl.disjoint e he r hr
    · exact hrec r hr
  · exact fun r hr => stored_of_opened opened (hl.devolution r hr)
  · intro r hr
    obtain ⟨e, he, hid⟩ := hl.warning r hr
    exact ⟨e, (Table.mem_insert? h).mpr (.inl he), hid⟩
  · exact fun r hr => stored_of_opened opened (hl.refund r hr)

theorem opened_insertReceived (hl : db.Linked)
    {t : Table PixDevolutionReceived} (h : db.devolutionsReceived.insert? r = some t)
    (hzero : r.returnedAmount = 0) (hdep : ∀ d ∈ db.deposits.rows, d.id ≠ r.id) :
    Linked { db with devolutionsReceived := t } ∧
      accounts { db with devolutionsReceived := t } =
        db.accounts.opened (.devolutionReceived r.id) r.amount := by
  have hnew : db.devolutionsReceived.get? r.id = none := (Table.insert?_eq_some h).1
  have opened : accounts { db with devolutionsReceived := t } =
      db.accounts.opened (.devolutionReceived r.id) r.amount := by
    funext j
    rw [Accounts.opened]
    cases j with
    | deposit id => rw [if_neg (by simp)]; rfl
    | devolutionReceived id =>
        by_cases e : r.id = id
        · subst e
          have found : t.get? r.id = some r := Table.get?_insert?_self h
          have held : db.refundsHeld (.devolutionReceived r.id) = 0 :=
            refundsHeld_of_not_stored hl (by rw [stored, hnew]; rfl)
          rw [if_pos rfl, accounts, found, Option.map_some, hzero]
          exact congrArg some (by rw [← held]; rfl)
        · rw [if_neg (by simpa [eq_comm] using e), accounts, accounts, Table.get?_insert?_ne h e]
          rfl
  refine ⟨⟨hl.operations, ?_, fun x hx => stored_of_opened opened (hl.devolution x hx),
    hl.warning, fun x hx => stored_of_opened opened (hl.refund x hx)⟩, opened⟩
  intro d hd x hx
  rcases (Table.mem_insert? h).mp hx with hx | rfl
  · exact hl.disjoint d hd x hx
  · exact hdep d hd

end Database

end ZroServices.Pix
