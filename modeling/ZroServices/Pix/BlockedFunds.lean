import Mathlib.Algebra.Order.BigOperators.Group.Finset
import ZroServices.Foundation.Dictionary
import ZroServices.Foundation.Outcome
import ZroServices.Operations.CreateOperation
import ZroServices.Pix.Domain

/-!
# PIX — new money that is blocked

A user may owe money to open infractions: for each original operation its value, less what is
blocked for it.  When the user receives an amount, as much of it as is missing is to be blocked
(`HandleCreatePixInfractionRefundOperationUseCase`).

Every block is created under the id that came with the event, and is allowed the whole amount.  So
the second block of an event is refused by the operations service, and the first one is taken back.
The code blocks what is missing exactly when one original operation at most is short
(`blocksAsNeeded_iff`).
-/

namespace ZroServices.Pix.BlockedFunds

open Foundation

/-- An operation of the operations service. -/
structure OwnerOperation where
  id : Uuid
  ownerWallet : Option Uuid
  value : ℕ
  state : OperationState
  deriving DecidableEq, Repr

instance : Keyed OwnerOperation Uuid := ⟨OwnerOperation.id⟩

inductive Exception where
  | missingData (fields : List String)
  | operationNotFound (id : Uuid)
  | operationInvalidState (state : OperationState)
  | uniqueConstraint (id : Uuid)
  deriving DecidableEq, Repr

/-- The table of the service, the operations, and the balance of each wallet, where it is not
negative. -/
structure World where
  infractionRefundOperations : Table PixInfractionRefundOperation
  operations : Table OwnerOperation
  balance : Uuid → ℕ

/-- An execution keeps the operations that it created. -/
structure Execution where
  world : World
  createdRefundOperations : List Uuid

abbrev App := EStateM Exception Execution

/-- The event of a deposit or of a devolution that was received. -/
structure Received where
  refundOperationId : Uuid
  id : Uuid
  state : Option (PixDepositState ⊕ PixDevolutionReceivedState)
  user : Uuid
  wallet : Uuid
  amount : ℕ
  amount_pos : 0 < amount

/-! ### The operations service -/

def getOperationById (id : Uuid) : App (Option OwnerOperation) := do
  let x ← get
  return x.world.operations.get? id

/-- `CreateOperationUseCase` for an owner alone: an operation of as much as is available
(`ownerAllowAvailableRawValue`).  An id is taken once. -/
def createOperation (id wallet : Uuid) (rawValue : ℕ) : App ℕ := do
  let x ← get
  let value := min rawValue (x.world.balance wallet)
  let operations ← orThrow (x.world.operations.insert? ⟨id, some wallet, value, .PENDING⟩)
    (.uniqueConstraint id)
  let balance := Function.update x.world.balance wallet (x.world.balance wallet - value)
  modify fun x => { x with world := { x.world with operations, balance } }
  return value

/-- `RevertOperationUseCase`. -/
def revertOperation (id : Uuid) : App Unit := do
  let x ← get
  let operation ← orThrow (x.world.operations.get? id) (.operationNotFound id)
  match operation.state with
  | .REVERTED => pure ()
  | .PENDING => do
      let operations := x.world.operations.set { operation with state := .REVERTED }
      let balance := match operation.ownerWallet with
        | some wallet =>
            Function.update x.world.balance wallet (x.world.balance wallet + operation.value)
        | none => x.world.balance
      modify fun x => { x with world := { x.world with operations, balance } }
  | _ => throw (.operationInvalidState operation.state)

/-! ### The handler -/

/-- An entry of `sumByOriginalOperationId`. -/
structure Sum where
  originalOperationValue : ℕ
  sumRefundOperationValues : ℕ
  pixInfractionRefundOperation : PixInfractionRefundOperation

def newSum (o : PixInfractionRefundOperation) : Sum :=
  ⟨o.originalOperationValue, o.refundOperationValue, o⟩

def addRefundOperationValue (s : Sum) (o : PixInfractionRefundOperation) : Sum :=
  { s with sumRefundOperationValues := s.sumRefundOperationValues + o.refundOperationValue }

def sumByOriginalOperationId (rows : List PixInfractionRefundOperation) : List (Uuid × Sum) :=
  collect PixInfractionRefundOperation.originalOperation newSum addRefundOperationValue rows

namespace World

variable (w : World) (user : Uuid)

def uuidV4 : Uuid := fresh (w.infractionRefundOperations.rows.map PixInfractionRefundOperation.id)

/-- The rows that `getAllByFilter` finds, in an order of the database. -/
def openOf : List PixInfractionRefundOperation :=
  w.infractionRefundOperations.rows.filter fun o => o.user = user ∧ o.state = .OPEN

end World

variable (e : Received)

def createInfractionRefundOperation (o : PixInfractionRefundOperation) : App Unit := do
  let x ← get
  let infractionRefundOperations ← orThrow (x.world.infractionRefundOperations.insert? o)
    (.uniqueConstraint o.id)
  modify fun x => { x with world := { x.world with infractionRefundOperations } }

def blockWalletAccountBalance (blockValue : ℕ) (o : PixInfractionRefundOperation) : App Unit := do
  let originalOperation ← getOperationById o.originalOperation
  let originalOperation ← orThrow originalOperation (.operationNotFound o.originalOperation)
  let value ← createOperation e.refundOperationId e.wallet blockValue
  modify fun x =>
    { x with createdRefundOperations := x.createdRefundOperations ++ [e.refundOperationId] }
  let x ← get
  createInfractionRefundOperation
    { id := x.world.uuidV4
      user := o.user
      pixInfraction := o.pixInfraction
      pixRefund := o.pixRefund
      originalOperation := originalOperation.id
      originalOperationValue := originalOperation.value
      refundOperation := e.refundOperationId
      refundOperationValue := value
      state := .OPEN }

def revertCreatedRefundOperations : App Unit := do
  let x ← get
  x.createdRefundOperations.forM revertOperation

/-- A block of what an original operation is short of. -/
def blockShort (s : Sum) : App Unit :=
  onThrow (blockWalletAccountBalance e
    (min (s.originalOperationValue - s.sumRefundOperationValues) e.amount)
    s.pixInfractionRefundOperation) revertCreatedRefundOperations

/-- One round of the loop over `sumByOriginalOperationId`. -/
def blockSum (s : Sum) : App Unit :=
  if s.sumRefundOperationValues < s.originalOperationValue then blockShort e s else pure ()

/-- `HandleCreatePixInfractionRefundOperationUseCase`, where the database finds `rows`. -/
def execute (rows : List PixInfractionRefundOperation) : App Unit := do
  throwIf (e.state = none) (.missingData ["Pix transaction State"])
  if rows = [] then return () else do
    let refundOperationFound ← getOperationById e.refundOperationId
    match refundOperationFound with
    | some _ => return ()
    | none => ((sumByOriginalOperationId rows).map Prod.snd).forM (blockSum e)

/-- What a delivery of the event leaves.  The observer lets no exception through. -/
def delivered (rows : List PixInfractionRefundOperation) (w : World) : World :=
  (left (execute e rows) ⟨w, []⟩).world

/-! ### What is missing -/

namespace World

variable (w : World) (user original : Uuid)

def valueOf : ℕ := ((w.operations.get? original).map OwnerOperation.value).getD 0

/-- What is blocked for an original operation. -/
def blockedFor : ℕ :=
  (((w.openOf user).filter fun o => o.originalOperation = original).map
    PixInfractionRefundOperation.refundOperationValue).sum

def missing : ℕ := w.valueOf original - w.blockedFor user original

def originals : Finset Uuid :=
  ((w.openOf user).map PixInfractionRefundOperation.originalOperation).toFinset

/-- The original operations that are short. -/
def short : Finset Uuid := (w.originals user).filter fun original => 0 < w.missing user original

/-- The rows are of operations, with the values that the rows say. -/
def Recorded : Prop := ∀ o ∈ w.openOf user, ∃ operation,
  w.operations.get? o.originalOperation = some operation ∧
    operation.value = o.originalOperationValue

end World

/-- As much is blocked as is missing, and no more. -/
structure BlocksAsNeeded (rows : List PixInfractionRefundOperation) (w : World) : Prop where
  total : w.balance e.wallet = (delivered e rows w).balance e.wallet +
    min e.amount (∑ original ∈ w.originals e.user, w.missing e.user original)
  within : ∀ original, (delivered e rows w).blockedFor e.user original ≤
    max (w.blockedFor e.user original) (w.valueOf original)
  /-- One open row for each block. -/
  recorded : ∃ new : List PixInfractionRefundOperation,
    (delivered e rows w).infractionRefundOperations.rows =
      w.infractionRefundOperations.rows ++ new ∧
    (delivered e rows w).operations.rows = w.operations.rows ++ new.map (fun o =>
      ⟨o.refundOperation, some e.wallet, o.refundOperationValue, .PENDING⟩) ∧
    ∀ o ∈ new, o.user = e.user ∧ o.state = .OPEN
  /-- A second delivery blocks nothing. -/
  again : ∀ rows', rows'.Perm ((delivered e rows w).openOf e.user) →
    delivered e rows' (delivered e rows w) = delivered e rows w

/-! ### One block -/

section

variable {e} {w w' : World} {v : ℕ} {o : PixInfractionRefundOperation} {operation : OwnerOperation}
  {x : Execution}

/-- The row of a block. -/
def World.newRow (w : World) (e : Received) (v : ℕ) (o : PixInfractionRefundOperation) :
    PixInfractionRefundOperation where
  id := w.uuidV4
  user := o.user
  pixInfraction := o.pixInfraction
  pixRefund := o.pixRefund
  originalOperation := o.originalOperation
  originalOperationValue := w.valueOf o.originalOperation
  refundOperation := e.refundOperationId
  refundOperationValue := v
  state := .OPEN

/-- A world after a block. -/
structure Blocked (e : Received) (v : ℕ) (o : PixInfractionRefundOperation) (w w' : World) :
    Prop where
  rows : w'.infractionRefundOperations.rows =
    w.infractionRefundOperations.rows ++ [w.newRow e v o]
  operations : w.operations.insert? ⟨e.refundOperationId, some e.wallet, v, .PENDING⟩ =
    some w'.operations
  balance : w'.balance = Function.update w.balance e.wallet (w.balance e.wallet - v)

theorem uuidV4_fresh : w.infractionRefundOperations.get? w.uuidV4 = none := by
  refine Table.get?_eq_none.mpr fun o ho hid => ?_
  have hlt : o.id < w.uuidV4 := lt_fresh (List.mem_map_of_mem ho)
  exact absurd hid hlt.ne

theorem blockWalletAccountBalance_eq (created : List Uuid)
    (hnew : w.operations.get? e.refundOperationId = none)
    (horiginal : w.operations.get? o.originalOperation = some operation)
    (hfunds : v ≤ w.balance e.wallet) :
    ∃ w', Blocked e v o w w' ∧ blockWalletAccountBalance e v o ⟨w, created⟩ =
      .ok () ⟨w', created ++ [e.refundOperationId]⟩ := by
  obtain ⟨operations, hoperations⟩ :=
    Table.insert?_of_fresh
      (r := (⟨e.refundOperationId, some e.wallet, v, .PENDING⟩ : OwnerOperation)) hnew
  obtain ⟨rows, hrows⟩ := Table.insert?_of_fresh (r := w.newRow e v o) uuidV4_fresh
  refine ⟨⟨rows, operations, Function.update w.balance e.wallet (w.balance e.wallet - v)⟩,
    ⟨(Table.insert?_eq_some hrows).2, hoperations, rfl⟩, ?_⟩
  have hmin : min v (w.balance e.wallet) = v := min_eq_left hfunds
  have hid : operation.id = o.originalOperation := Table.key_of_get? horiginal
  have hvalue : w.valueOf o.originalOperation = operation.value := by
    rw [World.valueOf, horiginal]
    rfl
  rw [World.newRow, hvalue, ← hid] at hrows
  simp only [blockWalletAccountBalance, getOperationById, createOperation,
    createInfractionRefundOperation, bind_assoc, pure_bind, get_bind_ok, orThrow_bind_ok,
    modify_bind_ok, modify_ok]
  rw [hmin]
  exact ⟨operation, horiginal, operations, hoperations, rows, hrows, rfl⟩

/-- A block under an id that is taken is refused. -/
theorem blockWalletAccountBalance_taken
    (htaken : x.world.operations.get? e.refundOperationId = some operation) :
    ∃ error, blockWalletAccountBalance e v o x = .error error x := by
  have hinsert : ∀ value, x.world.operations.insert?
      ⟨e.refundOperationId, some e.wallet, value, .PENDING⟩ = none := by
    intro value
    refine Option.eq_none_iff_forall_ne_some.mpr fun operations hoperations => ?_
    have hnone := (Table.insert?_eq_some hoperations).1
    rw [show Keyed.key (⟨e.refundOperationId, some e.wallet, value, .PENDING⟩ : OwnerOperation) =
      e.refundOperationId from rfl, htaken] at hnone
    cases hnone
  cases horiginal : x.world.operations.get? o.originalOperation with
  | none =>
      refine ⟨.operationNotFound o.originalOperation, bind_error.mpr (.inr ⟨none, x, ?_, rfl⟩)⟩
      exact congrArg (EStateM.Result.ok · x) horiginal
  | some original =>
      refine ⟨.uniqueConstraint e.refundOperationId,
        bind_error.mpr (.inr ⟨some original, x, congrArg (EStateM.Result.ok · x) horiginal, ?_⟩)⟩
      refine bind_error.mpr (.inr ⟨original, x, rfl, bind_of_error ?_⟩)
      refine bind_error.mpr (.inr ⟨x, x, rfl, bind_of_error ?_⟩)
      rw [hinsert]
      rfl

/-- The block of an execution is taken back. -/
theorem revertCreatedRefundOperations_eq (hblocked : Blocked e v o w w')
    (hfunds : v ≤ w.balance e.wallet) :
    ∃ x, revertCreatedRefundOperations ⟨w', [e.refundOperationId]⟩ = .ok () x ∧
      x.world.balance = w.balance := by
  have hget : w'.operations.get? e.refundOperationId =
      some ⟨e.refundOperationId, some e.wallet, v, .PENDING⟩ :=
    Table.get?_insert?_self hblocked.operations
  have hrevert : ∃ x, revertOperation e.refundOperationId ⟨w', [e.refundOperationId]⟩ = .ok () x ∧
      x.world.balance = w.balance := by
    refine ⟨_, bind_ok.mpr ⟨_, _, rfl, bind_ok.mpr ⟨_, _, orThrow_ok.mpr ⟨hget, rfl⟩, rfl⟩⟩, ?_⟩
    dsimp only
    rw [hblocked.balance, Function.update_self, Function.update_idem, Nat.sub_add_cancel hfunds,
      Function.update_eq_self]
  obtain ⟨x, hx, hbalance⟩ := hrevert
  exact ⟨x, bind_ok.mpr ⟨_, _, rfl, bind_ok.mpr ⟨_, _, hx, rfl⟩⟩, hbalance⟩

end

/-! ### The loop -/

section

variable {e} {w w' : World} {user original : Uuid} {s : Sum} {v : ℕ}
  {rows : List PixInfractionRefundOperation} {o : PixInfractionRefundOperation}

/-- The entries of the originals that are short. -/
def shortSums (rows : List PixInfractionRefundOperation) : List (Uuid × Sum) :=
  (sumByOriginalOperationId rows).filter fun entry =>
    entry.2.sumRefundOperationValues < entry.2.originalOperationValue

/-- What an entry says of its original operation. -/
structure SumOf (w : World) (user original : Uuid) (s : Sum) : Prop where
  value : s.originalOperationValue = w.valueOf original
  sum : s.sumRefundOperationValues = w.blockedFor user original
  original_eq : s.pixInfractionRefundOperation.originalOperation = original
  mem : s.pixInfractionRefundOperation ∈ w.openOf user

theorem foldl_addRefundOperationValue (s : Sum) (rest : List PixInfractionRefundOperation) :
    rest.foldl addRefundOperationValue s =
      { s with sumRefundOperationValues := s.sumRefundOperationValues +
        (rest.map PixInfractionRefundOperation.refundOperationValue).sum } := by
  induction rest generalizing s with
  | nil => rfl
  | cons o rest ih =>
      rw [List.foldl_cons, ih, addRefundOperationValue, List.map_cons, List.sum_cons, Nat.add_assoc]

theorem sumOf (hrecorded : w.Recorded user) (hrows : rows.Perm (w.openOf user))
    (h : (original, s) ∈ sumByOriginalOperationId rows) : SumOf w user original s := by
  obtain ⟨first, rest, hfilter, rfl⟩ := entry_collect h
  have hfirst : first ∈ rows.filter fun o => o.originalOperation = original := by
    rw [hfilter]
    exact List.mem_cons_self
  obtain ⟨hmem, horiginal⟩ := List.mem_filter.mp hfirst
  have hopen : first ∈ w.openOf user := hrows.mem_iff.mp hmem
  obtain ⟨operation, hget, hvalue⟩ := hrecorded first hopen
  rw [of_decide_eq_true horiginal] at hget
  rw [foldl_addRefundOperationValue]
  refine ⟨?_, ?_, of_decide_eq_true horiginal, hopen⟩
  · change first.originalOperationValue = w.valueOf original
    rw [World.valueOf, hget, ← hvalue]
    rfl
  · have hperm := (hrows.filter fun o => o.originalOperation = original).map
      PixInfractionRefundOperation.refundOperationValue
    rw [hfilter, List.map_cons] at hperm
    rw [World.blockedFor, ← hperm.sum_eq, List.sum_cons]
    rfl

theorem mem_shortSums : (original, s) ∈ shortSums rows ↔
    (original, s) ∈ sumByOriginalOperationId rows ∧
      s.sumRefundOperationValues < s.originalOperationValue := by
  rw [shortSums, List.mem_filter, decide_eq_true_eq]

/-- The short originals are those of the short entries. -/
theorem short_eq (hrecorded : w.Recorded user) (hrows : rows.Perm (w.openOf user)) :
    w.short user = ((shortSums rows).map Prod.fst).toFinset := by
  ext original
  rw [World.short, Finset.mem_filter, World.originals, List.mem_toFinset, List.mem_toFinset,
    ← (hrows.map PixInfractionRefundOperation.originalOperation).mem_iff]
  constructor
  · rintro ⟨horiginal, hmissing⟩
    have hkey : original ∈ (sumByOriginalOperationId rows).map Prod.fst :=
      mem_keys_collect.mpr horiginal
    obtain ⟨⟨_, s⟩, hentry, rfl⟩ := List.mem_map.mp hkey
    have hsum := sumOf hrecorded hrows hentry
    refine List.mem_map.mpr ⟨_, mem_shortSums.mpr ⟨hentry, ?_⟩, rfl⟩
    rw [hsum.value, hsum.sum]
    exact Nat.lt_of_sub_pos hmissing
  · intro horiginal
    obtain ⟨⟨_, s⟩, hentry, rfl⟩ := List.mem_map.mp horiginal
    obtain ⟨hentry, hlt⟩ := mem_shortSums.mp hentry
    have hsum := sumOf hrecorded hrows hentry
    rw [hsum.value, hsum.sum] at hlt
    exact ⟨mem_keys_collect.mp (List.mem_map_of_mem (f := Prod.fst) hentry), Nat.sub_pos_of_lt hlt⟩

theorem card_short (hrecorded : w.Recorded user) (hrows : rows.Perm (w.openOf user)) :
    (w.short user).card = (shortSums rows).length := by
  rw [short_eq hrecorded hrows, List.toFinset_card_of_nodup, List.length_map]
  exact nodup_collect.sublist (List.filter_sublist.map Prod.fst)

/-- What is missing is missing of the short originals. -/
theorem sum_missing : ∑ original ∈ w.originals user, w.missing user original =
    ∑ original ∈ w.short user, w.missing user original :=
  (Finset.sum_filter_of_ne fun _ _ h => Nat.pos_of_ne_zero h).symm

/-- The loop blocks what the short entries are short of. -/
theorem delivered_eq (hstate : e.state.isSome)
    (hnew : w.operations.get? e.refundOperationId = none) :
    delivered e rows w =
      (left (((shortSums rows).map Prod.snd).forM (blockShort e)) ⟨w, []⟩).world := by
  have hthrow : ¬e.state = none := by
    rintro h
    rw [h] at hstate
    cases hstate
  have hloop : ((sumByOriginalOperationId rows).map Prod.snd).forM (blockSum e) =
      ((shortSums rows).map Prod.snd).forM (blockShort e) := by
    refine forM_if.trans ?_
    rw [List.filter_map]
    rfl
  rw [delivered, execute, left_throwIf_bind, if_neg hthrow, ← hloop]
  split
  case isTrue hrows => rw [hrows]; rfl
  case isFalse =>
    have hfound : getOperationById e.refundOperationId ⟨w, []⟩ = .ok none ⟨w, []⟩ :=
      congrArg (EStateM.Result.ok · (⟨w, []⟩ : Execution)) hnew
    rw [left_bind_ok hfound]

/-- A short entry is blocked for, up to the amount. -/
theorem blockShort_eq (created : List Uuid) (hrecorded : w.Recorded user)
    (hrows : rows.Perm (w.openOf user)) (hentry : (original, s) ∈ shortSums rows)
    (hnew : w.operations.get? e.refundOperationId = none) (hfunds : e.amount ≤ w.balance e.wallet) :
    ∃ w', Blocked e (min (w.missing user original) e.amount) s.pixInfractionRefundOperation w w' ∧
      blockShort e s ⟨w, created⟩ = .ok () ⟨w', created ++ [e.refundOperationId]⟩ := by
  have hsum := sumOf hrecorded hrows (mem_shortSums.mp hentry).1
  obtain ⟨operation, hget, -⟩ := hrecorded _ hsum.mem
  obtain ⟨w', hblocked, hrun⟩ := blockWalletAccountBalance_eq created hnew hget
    ((min_le_right (w.missing user original) _).trans hfunds)
  refine ⟨w', hblocked, onThrow_ok.mpr ?_⟩
  rw [hsum.value, hsum.sum]
  exact hrun

/-- Two short originals: nothing stays blocked. -/
theorem delivered_two {entry entry' : Uuid × Sum} {rest : List (Uuid × Sum)}
    (hstate : e.state.isSome) (hnew : w.operations.get? e.refundOperationId = none)
    (hrecorded : w.Recorded user) (hfunds : e.amount ≤ w.balance e.wallet)
    (hrows : rows.Perm (w.openOf user)) (hshort : shortSums rows = entry :: entry' :: rest) :
    (delivered e rows w).balance = w.balance := by
  have hentry : (entry.1, entry.2) ∈ shortSums rows := hshort ▸ List.mem_cons_self
  obtain ⟨w', hblocked, hrun⟩ := blockShort_eq [] hrecorded hrows hentry hnew hfunds
  obtain ⟨error, herror⟩ := blockWalletAccountBalance_taken (e := e)
    (x := ⟨w', [e.refundOperationId]⟩)
    (v := min (entry'.2.originalOperationValue - entry'.2.sumRefundOperationValues) e.amount)
    (o := entry'.2.pixInfractionRefundOperation) (Table.get?_insert?_self hblocked.operations)
  obtain ⟨x, hrevert, hbalance⟩ := revertCreatedRefundOperations_eq hblocked
    ((min_le_right (w.missing user entry.1) _).trans hfunds)
  have hsecond : blockShort e entry'.2 ⟨w', [e.refundOperationId]⟩ = .error error x := by
    change EStateM.tryCatch _ _ _ = _
    rw [EStateM.tryCatch, herror]
    exact (bind_of_ok hrevert).trans rfl
  rw [delivered_eq hstate hnew, hshort, List.map_cons, List.map_cons, List.forM, left_bind_ok hrun,
    List.forM, List.nil_append, left_bind_error hsecond, hbalance]

end

/-! ### What is blocked -/

section

variable {e} {w w' : World} {user original : Uuid} {v : ℕ}
  {rows : List PixInfractionRefundOperation} {o : PixInfractionRefundOperation}

theorem Blocked.openOf (h : Blocked e v o w w') (hmem : o ∈ w.openOf user) :
    w'.openOf user = w.openOf user ++ [w.newRow e v o] := by
  have hfound : (w.newRow e v o).user = user ∧ (w.newRow e v o).state = .OPEN :=
    ⟨(of_decide_eq_true (List.mem_filter.mp hmem).2).1, rfl⟩
  rw [World.openOf, h.rows, List.filter_append, List.filter_cons_of_pos (by simpa using hfound)]
  rfl

theorem Blocked.blockedFor (h : Blocked e v o w w') (hmem : o ∈ w.openOf user) :
    w'.blockedFor user original =
      w.blockedFor user original + if o.originalOperation = original then v else 0 := by
  rw [World.blockedFor, h.openOf hmem, List.filter_append, List.map_append, List.sum_append]
  congr 1
  change _ = if (w.newRow e v o).originalOperation = original then v else 0
  by_cases horiginal : (w.newRow e v o).originalOperation = original
  · rw [if_pos horiginal, List.filter_cons_of_pos (by simpa using horiginal)]
    exact Nat.add_zero v
  · rw [if_neg horiginal, List.filter_cons_of_neg (by simpa using horiginal)]
    rfl

section

variable (hstate : e.state.isSome)
include hstate

/-- An event whose operation is there does nothing. -/
theorem delivered_again {operation : OwnerOperation}
    (htaken : w.operations.get? e.refundOperationId = some operation) :
    delivered e rows w = w := by
  have hthrow : ¬e.state = none := by
    rintro h
    rw [h] at hstate
    cases hstate
  rw [delivered, execute, left_throwIf_bind, if_neg hthrow]
  split
  case isTrue => rfl
  case isFalse =>
    have hfound : getOperationById e.refundOperationId ⟨w, []⟩ = .ok (some operation) ⟨w, []⟩ :=
      congrArg (EStateM.Result.ok · (⟨w, []⟩ : Execution)) htaken
    rw [left_bind_ok hfound]
    rfl

section

variable (hnew : w.operations.get? e.refundOperationId = none)
include hnew

/-- No original is short: nothing is blocked. -/
theorem delivered_none (hshort : shortSums rows = []) : delivered e rows w = w := by
  rw [delivered_eq hstate hnew, hshort]
  rfl

/-- One original is short. -/
theorem delivered_one {entry : Uuid × Sum} (hrecorded : w.Recorded user)
    (hfunds : e.amount ≤ w.balance e.wallet) (hrows : rows.Perm (w.openOf user))
    (hshort : shortSums rows = [entry]) :
    Blocked e (min (w.missing user entry.1) e.amount) entry.2.pixInfractionRefundOperation w
      (delivered e rows w) := by
  have hentry : (entry.1, entry.2) ∈ shortSums rows := hshort ▸ List.mem_cons_self
  obtain ⟨w', hblocked, hrun⟩ := blockShort_eq [] hrecorded hrows hentry hnew hfunds
  rw [delivered_eq hstate hnew, hshort, List.map_cons, List.forM, left_bind_ok hrun]
  exact hblocked

/-- Where no original is short, nothing is to be blocked. -/
theorem blocksAsNeeded_none (hrecorded : w.Recorded e.user)
    (hrows : rows.Perm (w.openOf e.user)) (hshort : shortSums rows = []) :
    BlocksAsNeeded e rows w := by
  have hsum : ∑ original ∈ w.originals e.user, w.missing e.user original = 0 := by
    rw [sum_missing, short_eq hrecorded hrows, hshort]
    rfl
  have hnone := delivered_none hstate hnew hshort
  refine ⟨?_, fun original => ?_, ⟨[], ?_, ?_, ?_⟩, fun rows' hrows' => ?_⟩
  · rw [hnone, hsum, Nat.min_zero, Nat.add_zero]
  · rw [hnone]
    exact le_max_left _ _
  · rw [hnone, List.append_nil]
  · rw [hnone, List.map_nil, List.append_nil]
  · exact fun o ho => absurd ho List.not_mem_nil
  · rw [hnone] at hrows' ⊢
    refine delivered_none hstate hnew (List.length_eq_zero_iff.mp ?_)
    rw [← card_short hrecorded hrows', card_short hrecorded hrows, hshort]
    rfl

/-- Where one original is short, what it is short of is blocked. -/
theorem blocksAsNeeded_one {entry : Uuid × Sum} (hrecorded : w.Recorded e.user)
    (hfunds : e.amount ≤ w.balance e.wallet) (hrows : rows.Perm (w.openOf e.user))
    (hshort : shortSums rows = [entry]) : BlocksAsNeeded e rows w := by
  have hblocked := delivered_one hstate hnew hrecorded hfunds hrows hshort
  have hentry : (entry.1, entry.2) ∈ shortSums rows := hshort ▸ List.mem_cons_self
  have hsumOf := sumOf hrecorded hrows (mem_shortSums.mp hentry).1
  have hsum : ∑ original ∈ w.originals e.user, w.missing e.user original =
      w.missing e.user entry.1 := by
    rw [sum_missing, short_eq hrecorded hrows, hshort]
    exact Finset.sum_singleton _ _
  refine ⟨?_, fun original => ?_, ⟨[w.newRow e _ _], hblocked.rows, ?_, ?_⟩, fun rows' _ => ?_⟩
  · rw [hblocked.balance, Function.update_self, hsum, Nat.min_comm e.amount]
    have hle := (min_le_right (w.missing e.user entry.1) e.amount).trans hfunds
    omega
  · rw [hblocked.blockedFor hsumOf.mem, hsumOf.original_eq]
    split
    case isTrue heq =>
      subst heq
      rw [World.missing]
      omega
    case isFalse => exact le_max_left _ _
  · exact (Table.insert?_eq_some hblocked.operations).2
  · intro o ho
    rw [List.mem_singleton.mp ho]
    exact ⟨(of_decide_eq_true (List.mem_filter.mp hsumOf.mem).2).1, rfl⟩
  · exact delivered_again hstate (Table.get?_insert?_self hblocked.operations)

/-- Where two originals are short, money is missing and none is blocked. -/
theorem not_blocksAsNeeded {entry entry' : Uuid × Sum} {rest : List (Uuid × Sum)}
    (hrecorded : w.Recorded e.user) (hfunds : e.amount ≤ w.balance e.wallet)
    (hrows : rows.Perm (w.openOf e.user)) (hshort : shortSums rows = entry :: entry' :: rest) :
    ¬BlocksAsNeeded e rows w := by
  intro h
  have htotal := h.total
  rw [delivered_two hstate hnew hrecorded hfunds hrows hshort] at htotal
  have hmem : entry.1 ∈ w.short e.user := by
    rw [short_eq hrecorded hrows, hshort, List.mem_toFinset]
    exact List.mem_cons_self
  obtain ⟨horiginal, hmissing⟩ := Finset.mem_filter.mp hmem
  have hle := Finset.single_le_sum (f := w.missing e.user) (fun _ _ => Nat.zero_le _) horiginal
  have hamount := e.amount_pos
  omega

end

end

/-- As much as is missing is blocked exactly when one original operation at most is short. -/
theorem blocksAsNeeded_iff (hstate : e.state.isSome)
    (hnew : w.operations.get? e.refundOperationId = none) (hrecorded : w.Recorded e.user)
    (hfunds : e.amount ≤ w.balance e.wallet) (hrows : rows.Perm (w.openOf e.user)) :
    BlocksAsNeeded e rows w ↔ (w.short e.user).card ≤ 1 := by
  rw [card_short hrecorded hrows]
  cases hshort : shortSums rows with
  | nil =>
      exact iff_of_true (blocksAsNeeded_none hstate hnew hrecorded hrows hshort) (Nat.zero_le 1)
  | cons entry rest =>
      cases rest with
      | nil =>
          exact iff_of_true (blocksAsNeeded_one hstate hnew hrecorded hfunds hrows hshort) le_rfl
      | cons entry' rest =>
          refine iff_of_false (not_blocksAsNeeded hstate hnew hrecorded hfunds hrows hshort) ?_
          rw [List.length_cons, List.length_cons]
          omega

/-! ### Two infractions of one user -/

/-- Two operations of 100, and 40 blocked for each. -/
def twoShort : World where
  infractionRefundOperations :=
    ⟨[⟨1, 7, some 1, none, 11, 100, 21, 40, .OPEN⟩, ⟨2, 7, some 2, none, 12, 100, 22, 40, .OPEN⟩],
      by decide⟩
  operations :=
    ⟨[⟨11, none, 100, .ACCEPTED⟩, ⟨12, none, 100, .ACCEPTED⟩, ⟨21, some 5, 40, .PENDING⟩,
      ⟨22, some 5, 40, .PENDING⟩], by decide⟩
  balance := fun _ => 80

/-- 80 are received. -/
def eightyReceived : Received := ⟨30, 31, some (.inl .RECEIVED), 7, 5, 80, Nat.succ_pos 79⟩

/-- 120 are missing and 80 were received, and nothing is blocked.  The first block is reverted, and
its row stays open. -/
theorem twoShort_unblocked :
    (twoShort.missing 7 11 = 60 ∧ twoShort.missing 7 12 = 60 ∧ twoShort.balance 5 = 80 ∧
      (delivered eightyReceived (twoShort.openOf 7) twoShort).balance 5 = 80 ∧
      ((delivered eightyReceived (twoShort.openOf 7) twoShort).operations.get? 30).map
        OwnerOperation.state = some .REVERTED ∧
      (delivered eightyReceived (twoShort.openOf 7) twoShort).blockedFor 7 11 = 100) ∧
    ¬BlocksAsNeeded eightyReceived (twoShort.openOf 7) twoShort := by
  refine ⟨by decide +kernel, fun h => ?_⟩
  have hblocked : twoShort.balance 5 =
      (delivered eightyReceived (twoShort.openOf 7) twoShort).balance 5 +
        min 80 (∑ original ∈ twoShort.originals 7, twoShort.missing 7 original) := h.total
  revert hblocked
  decide +kernel

theorem recorded_twoShort : twoShort.Recorded 7 := by
  intro o ho
  have hrows : o = ⟨1, 7, some 1, none, 11, 100, 21, 40, .OPEN⟩ ∨
      o = ⟨2, 7, some 2, none, 12, 100, 22, 40, .OPEN⟩ := by
    simpa [twoShort] using (List.mem_filter.mp ho).1
  rcases hrows with rfl | rfl
  · exact ⟨⟨11, none, 100, .ACCEPTED⟩, rfl, rfl⟩
  · exact ⟨⟨12, none, 100, .ACCEPTED⟩, rfl, rfl⟩

theorem blocksAsNeeded_iff_twoShort :
    BlocksAsNeeded eightyReceived (twoShort.openOf 7) twoShort ↔ (twoShort.short 7).card ≤ 1 :=
  blocksAsNeeded_iff rfl rfl recorded_twoShort (Nat.le_refl 80) (List.Perm.refl _)

end

end ZroServices.Pix.BlockedFunds
