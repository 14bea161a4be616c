import ZroServices.Foundation.Outcome
import ZroServices.Foundation.Run
import ZroServices.Operations.Domain
import ZroServices.Pix.Domain

/-!
# PIX — a waiting deposit is delivered again

A deposit waits in redis until its checks are made.  `handleWaiting` then stores it, and either
credits the user or, when a check was not passed, holds the money and warns compliance.  It calls
redis, the database and two services one after the other, and each call may raise, with or without
an effect.

The observer logs the exception and returns.  So the database transaction is committed, and nothing
that was written is undone.  The next execution for the deposit does nothing once the deposit is
`RECEIVED` in redis or is in the database (`Shut`), and the first write of each of the two branches
is what shuts it: the deposit is settled exactly when the first execution that writes makes all its
writes (`retried_iff`).

The id of an event is there: its request checks it.  When rows and events were created is left out.
-/

namespace ZroServices.Pix.DepositRetry

open Foundation

/-- The deposit in redis, without the columns that nothing here reads. -/
structure Deposit where
  id : Uuid
  user : Uuid
  wallet : Uuid
  operation : Uuid
  state : PixDepositState
  amount : ℕ
  endToEndId : String
  transactionTag : String
  /-- What each check said, by its name.  A deposit that was not checked has none. -/
  check : List (String × Bool)
  deriving DecidableEq, Repr

instance : Keyed Deposit Uuid := ⟨Deposit.id⟩

/-- An operation of the operations service, which credits the beneficiary when it is accepted. -/
structure Operation where
  id : Uuid
  transactionTag : String
  rawValue : ℕ
  currencyTag : String
  description : String
  beneficiaryWallet : Uuid
  state : OperationState
  deriving DecidableEq, Repr

instance : Keyed Operation Uuid := ⟨Operation.id⟩

structure WarningPixDeposit where
  operation : Uuid
  user : Uuid
  transactionTag : String
  state : WarningPixDepositState
  deriving DecidableEq, Repr

structure WarningTransaction where
  operation : Uuid
  transactionTag : String
  endToEndId : Option String
  reason : Option String
  deriving DecidableEq, Repr

inductive Event where
  | createdWarningPixDeposit (warningPixDeposit : WarningPixDeposit) (deposit : Deposit)
  | receivedDeposit (deposit : Deposit)
  deriving DecidableEq, Repr

structure World where
  cache : Table Deposit
  deposits : Table Deposit
  operations : Table Operation
  warningPixDeposits : List WarningPixDeposit
  warningTransactions : List WarningTransaction
  events : List Event

inductive Exception where
  | pixDepositNotFound (id : Uuid)
  | uniqueConstraint (id : Uuid)
  | warningTransactionAlreadyExists (operation : Uuid)
  | service (message : String)
  deriving DecidableEq, Repr

structure Config where
  operationCurrencyTag : String
  operationReceivedPixDepositTransactionTag : String

abbrev App := EStateM Exception World

/-! ### The calls -/

/-- What becomes of a call that writes. -/
inductive Answer where
  | done
  /-- It was written, but the call raised. -/
  | lost (e : Exception)
  | failed (e : Exception)
  deriving DecidableEq, Repr

def Answer.writes : Answer → Bool
  | .done | .lost _ => true
  | .failed _ => false

/-- What the calls of one execution answer.  The calls that read have an exception, or none. -/
structure Services where
  getCachedById : Option Exception
  getById : Option Exception
  updateCached : Answer
  create : Answer
  createOperation : Answer
  createAndAcceptOperation : Answer
  createWarningPixDeposit : Answer
  createWarningTransaction : Answer

/-- All calls succeed. -/
def Services.succeeding : Services := ⟨none, none, .done, .done, .done, .done, .done, .done⟩

def read (raised : Option Exception) : App World :=
  match raised with
  | some e => throw e
  | none => get

def write (answer : Answer) (x : App Unit) : App Unit :=
  match answer with
  | .done => x
  | .lost e => do
      x
      throw e
  | .failed e => throw e

/-! ### The handler -/

/-- `WARNING_TRANSACTION_REASON`. -/
def warningTransactionReason : List (String × String) :=
  [("HandleWarningPixDepositIsCefEventUseCase", "Caixa Economica Federal"),
    ("HandleWarningPixDepositIsSantanderCnpjEventUseCase", "CNPJ do Santander"),
    ("HandleWarningPixDepositIsOverWarningIncomeEventUseCase", "Acima da renda declarada"),
    ("HandleWarningPixDepositIsReceitaFederalEventUseCase", "Credito Receita Federal"),
    ("HandleWarningPixDepositIsSuspectCpfEventUseCase", "CPF na Blocklist"),
    ("HandleWarningPixDepositIsDuplicatedEventUseCase", "Duplicado em 24h"),
    ("HandleWarningPixDepositIsSuspectBankEventUseCase", "Corretora/Banco na Blocklist")]

def warningTransactionReasonBuilder (check : String) : String :=
  (warningTransactionReason.lookup check).getD check

/-- JavaScript's `text && { text }`. -/
def given (text : String) : Option String := if text = "" then none else some text

section

variable (config : Config) (deposit : Deposit)

namespace Deposit

/-- The reasons of the checks that were not passed. -/
def falseChecks : List String :=
  (deposit.check.filter fun c => !c.2).map fun c => warningTransactionReasonBuilder c.1

/-- Every check was passed. -/
def accepted : Bool := deposit.falseChecks.isEmpty

def newOperation (state : OperationState) : Operation where
  id := deposit.operation
  transactionTag := deposit.transactionTag
  rawValue := deposit.amount
  currencyTag := config.operationCurrencyTag
  description := config.operationReceivedPixDepositTransactionTag
  beneficiaryWallet := deposit.wallet
  state := state

def warningPixDeposit : WarningPixDeposit where
  operation := deposit.operation
  user := deposit.user
  transactionTag := deposit.transactionTag
  state := .CREATED

def warningTransaction : WarningTransaction where
  operation := deposit.operation
  transactionTag := deposit.transactionTag
  endToEndId := given deposit.endToEndId
  reason := given ("; ".intercalate deposit.falseChecks)

end Deposit

/-- `pixDepositRepository.create`. -/
def create : App Unit := do
  let w ← get
  let deposits ← orThrow (w.deposits.insert? deposit) (.uniqueConstraint deposit.id)
  modify fun w => { w with deposits }

/-- `pixDepositCacheRepository.update`. -/
def updateCached : App Unit :=
  modify fun w => { w with cache := w.cache.upsert deposit }

/-- `createOperation` and `createAndAcceptOperation`, of the operations service. -/
def insertOperation (operation : Operation) : App Unit := do
  let w ← get
  let operations ← orThrow (w.operations.insert? operation) (.uniqueConstraint operation.id)
  modify fun w => { w with operations }

def createWarningPixDeposit (warningPixDeposit : WarningPixDeposit) : App Unit :=
  modify fun w => { w with warningPixDeposits := w.warningPixDeposits ++ [warningPixDeposit] }

/-- `CreateWarningTransactionUseCase`, of the compliance service. -/
def createWarningTransaction (warningTransaction : WarningTransaction) : App Unit := do
  let w ← get
  throwIf (∃ found ∈ w.warningTransactions, found.operation = warningTransaction.operation)
    (.warningTransactionAlreadyExists warningTransaction.operation)
  modify fun w => { w with warningTransactions := w.warningTransactions ++ [warningTransaction] }

def emit (event : Event) : App Unit := modify fun w => { w with events := w.events ++ [event] }

variable (services : Services)

/-- The deposit is a warning deposit. -/
def hold : App Deposit := do
  write services.create (create deposit)
  write services.createOperation (insertOperation (deposit.newOperation config .PENDING))
  write services.createWarningPixDeposit (createWarningPixDeposit deposit.warningPixDeposit)
  emit (.createdWarningPixDeposit deposit.warningPixDeposit deposit)
  write services.createWarningTransaction (createWarningTransaction deposit.warningTransaction)
  return deposit

def receive : App Deposit := do
  let received : Deposit := { deposit with state := .RECEIVED }
  write services.updateCached (updateCached received)
  write services.create (create received)
  write services.createAndAcceptOperation
    (insertOperation (received.newOperation config .ACCEPTED))
  emit (.receivedDeposit received)
  return received

/-- `HandleWaitingPixDepositEventUseCase`. -/
def handleWaiting (id : Uuid) : App Deposit := do
  let w ← read services.getCachedById
  let deposit ← orThrow (w.cache.get? id) (.pixDepositNotFound id)
  match deposit.state with
  | .RECEIVED => return deposit
  | _ => do
      let w ← read services.getById
      match w.deposits.get? id with
      | some depositFound => return depositFound
      | none =>
          match deposit.accepted with
          | true => receive config deposit services
          | false => hold config deposit services

/-- `WaitingPixDepositNestObserver`: an exception is logged, and what was written is committed. -/
def observe (id : Uuid) (w : World) (services : Services) : World :=
  left (handleWaiting config services id) w

end

/-! ### What becomes of a deposit -/

section

variable (config : Config) (d : Deposit) (w : World)

/-- The deposit waits, and nothing was done for it. -/
structure Waiting : Prop where
  cached : w.cache.get? d.id = some d
  waits : d.state ≠ .RECEIVED
  deposit : w.deposits.get? d.id = none
  operation : w.operations.get? d.operation = none
  warningPixDeposit : ∀ x ∈ w.warningPixDeposits, x.operation ≠ d.operation
  warningTransaction : ∀ x ∈ w.warningTransactions, x.operation ≠ d.operation

def Credited : Prop := w.operations.get? d.operation = some (d.newOperation config .ACCEPTED)

def warningPixDepositsOf : List WarningPixDeposit :=
  w.warningPixDeposits.filter fun x => x.operation = d.operation

def warningTransactionsOf : List WarningTransaction :=
  w.warningTransactions.filter fun x => x.operation = d.operation

/-- The deposit is stored, and the user is credited and not warned about. -/
structure Received : Prop where
  created : w.deposits.get? d.id = some { d with state := .RECEIVED }
  credited : Credited config d w
  warningPixDeposit : warningPixDepositsOf d w = []
  warningTransaction : warningTransactionsOf d w = []

/-- The deposit is stored, its operation is not accepted, and compliance was told once. -/
structure Held : Prop where
  created : w.deposits.get? d.id = some d
  operation : w.operations.get? d.operation = some (d.newOperation config .PENDING)
  warningPixDeposit : warningPixDepositsOf d w = [d.warningPixDeposit]
  warningTransaction : warningTransactionsOf d w = [d.warningTransaction]

/-- The user is credited, or the deposit is held, each once and as the checks say. -/
def Settled : Prop :=
  match d.accepted with
  | true => Received config d w
  | false => Held config d w

/-- What is `RECEIVED` in redis is credited. -/
def CachedCredited : Prop :=
  ∀ c, w.cache.get? d.id = some c → c.state = .RECEIVED → Credited config d w

/-- An execution for the deposit does nothing. -/
def Shut : Prop :=
  ∃ c, w.cache.get? d.id = some c ∧ (c.state = .RECEIVED ∨ (w.deposits.get? d.id).isSome)

end

/-- An execution for a waiting deposit writes nothing. -/
def Services.silent (services : Services) (d : Deposit) : Bool :=
  services.getCachedById.isSome || services.getById.isSome ||
    !(if d.accepted then services.updateCached else services.create).writes

/-- An execution for a waiting deposit makes all its writes. -/
def Services.whole (services : Services) (d : Deposit) : Bool :=
  match d.accepted with
  | true => services.updateCached = .done ∧ services.create = .done ∧
      services.createAndAcceptOperation.writes
  | false => services.create = .done ∧ services.createOperation = .done ∧
      services.createWarningPixDeposit = .done ∧ services.createWarningTransaction.writes

section

variable {config : Config} {services : Services} {d : Deposit} {w w₁ : World}

theorem read_none : read none w = .ok w w := rfl

theorem Answer.ne_done {answer : Answer} (h : answer.writes = false) : answer ≠ .done := by
  rintro rfl
  cases h

/-- A write that would succeed. -/
theorem outcome_write {answer : Answer} {x : App Unit} {P : Unit → World → Prop}
    {E : Exception → World → Prop} (hx : x w = .ok () w₁) (hdone : answer = .done → P () w₁)
    (hlost : answer.writes → answer ≠ .done → ∀ e, E e w₁)
    (hfailed : answer.writes = false → ∀ e, E e w) : Outcome (write answer x) w P E := by
  cases answer with
  | done =>
      rw [write, outcome_of_ok hx]
      exact hdone rfl
  | lost e =>
      rw [write, outcome_bind, outcome_of_ok hx]
      exact hlost rfl Answer.noConfusion e
  | failed e => exact hfailed rfl e

theorem create_ok (h : w.deposits.get? d.id = none) :
    ∃ t, t.get? d.id = some d ∧ create d w = .ok () { w with deposits := t } := by
  obtain ⟨t, ht⟩ := Table.insert?_of_fresh (r := d) h
  refine ⟨t, Table.get?_insert?_self ht, ?_⟩
  rw [create]
  exact get_bind_ok.mpr (orThrow_bind_ok.mpr ⟨t, ht, modify_ok.mpr rfl⟩)

theorem insertOperation_ok (operation : Operation) (h : w.operations.get? operation.id = none) :
    ∃ t, t.get? operation.id = some operation ∧
      insertOperation operation w = .ok () { w with operations := t } := by
  obtain ⟨t, ht⟩ := Table.insert?_of_fresh (r := operation) h
  refine ⟨t, Table.get?_insert?_self ht, ?_⟩
  rw [insertOperation]
  exact get_bind_ok.mpr (orThrow_bind_ok.mpr ⟨t, ht, modify_ok.mpr rfl⟩)

theorem createWarningTransaction_ok {x : WarningTransaction}
    (h : ∀ y ∈ w.warningTransactions, y.operation ≠ x.operation) :
    createWarningTransaction x w =
      .ok () { w with warningTransactions := w.warningTransactions ++ [x] } := by
  rw [createWarningTransaction]
  refine get_bind_ok.mpr (throwIf_bind_ok.mpr ⟨?_, modify_ok.mpr rfl⟩)
  rintro ⟨y, hy, heq⟩
  exact h y hy heq

/-- The filter of a list that has no such element, with one more. -/
theorem filter_append_self {α : Type} {p : α → Bool} {l : List α} {a : α}
    (hl : ∀ x ∈ l, p x = false) (ha : p a = true) : (l ++ [a]).filter p = [a] := by
  have hnil : l.filter p = [] := List.filter_eq_nil_iff.mpr fun x hx => by rw [hl x hx]; decide
  rw [List.filter_append, hnil, List.nil_append]
  exact List.filter_cons_of_pos ha

/-! ### One execution -/

/-- After an execution that has written: no other one does anything, and the deposit is settled if
and only if all writes were made. -/
structure After (config : Config) (services : Services) (d : Deposit) (w : World) : Prop where
  shut : Shut d w
  settled : services.whole d → Settled config d w ∧ CachedCredited config d w
  unsettled : services.whole d = false → ¬ Settled config d w

/-- A write was not made, and the last of them was not either. -/
theorem after_of_part (hshut : Shut d w) (hpart : services.whole d = false)
    (h : ¬ Settled config d w) : After config services d w where
  shut := hshut
  settled hwhole := by rw [hpart] at hwhole; cases hwhole
  unsettled _ := h

theorem after_of_whole (hshut : Shut d w) (hwhole : services.whole d) (h : Settled config d w)
    (hcached : CachedCredited config d w) : After config services d w where
  shut := hshut
  settled _ := ⟨h, hcached⟩
  unsettled hpart := by rw [hwhole] at hpart; cases hpart

theorem not_settled_of_operation (hacc : d.accepted = true)
    (h : w.operations.get? d.operation = none) : ¬ Settled config d w := by
  rw [Settled, hacc]
  intro hreceived
  have hcredited := hreceived.credited
  rw [Credited, h] at hcredited
  cases hcredited

theorem not_settled_of_warning (hacc : d.accepted = false)
    (h : ∀ x ∈ w.warningTransactions, x.operation ≠ d.operation) : ¬ Settled config d w := by
  rw [Settled, hacc]
  intro hheld
  have hmem : d.warningTransaction ∈ warningTransactionsOf d w := by
    rw [hheld.warningTransaction]
    exact List.mem_singleton_self _
  exact h _ (List.mem_filter.mp hmem).1 rfl

theorem filter_eq_nil {α : Type} {q : α → Prop} [DecidablePred q] {l : List α}
    (h : ∀ x ∈ l, ¬ q x) : l.filter (fun x => q x) = [] :=
  List.filter_eq_nil_iff.mpr fun x hx => by rw [decide_eq_true_eq]; exact h x hx

/-- The credit of a deposit whose checks were passed. -/
theorem receive_after (h : Waiting d w) (hacc : d.accepted = true)
    (hwrites : services.updateCached.writes) :
    Outcome (receive config d services) w (fun _ => After config services d)
      fun _ => After config services d := by
  have hwhole : services.whole d = decide (services.updateCached = .done ∧
      services.create = .done ∧ services.createAndAcceptOperation.writes) := by
    rw [Services.whole, hacc]
  have hcached : (w.cache.upsert { d with state := .RECEIVED }).get? d.id =
      some { d with state := .RECEIVED } := Table.get?_upsert_self
  -- once redis says `RECEIVED`, and as long as there is no operation
  have hpart : ∀ deposits, services.whole d = false → After config services d
      { w with cache := w.cache.upsert { d with state := .RECEIVED }, deposits } := by
    intro deposits hpart
    exact after_of_part ⟨_, hcached, .inl rfl⟩ hpart (not_settled_of_operation hacc h.operation)
  rw [receive]
  refine outcome_bind.mpr (outcome_write rfl (fun hupdate => ?_) ?_ ?_)
  · obtain ⟨deposits, hdeposit, hcreate⟩ := create_ok (d := { d with state := .RECEIVED })
      (w := { w with cache := w.cache.upsert { d with state := .RECEIVED } }) h.deposit
    refine outcome_bind.mpr (outcome_write hcreate (fun hcreated => ?_) ?_ ?_)
    · obtain ⟨operations, hoperation, hinsert⟩ := insertOperation_ok
        (Deposit.newOperation config { d with state := .RECEIVED } .ACCEPTED)
        (w := { w with cache := w.cache.upsert { d with state := .RECEIVED }, deposits })
        h.operation
      have hafter : services.createAndAcceptOperation.writes → ∀ events,
          After config services d
            { w with
              cache := w.cache.upsert { d with state := .RECEIVED }
              deposits, operations, events } := by
        intro hwritten events
        refine after_of_whole ⟨_, hcached, .inl rfl⟩ ?_ ?_ fun _ _ _ => hoperation
        · rw [hwhole]
          exact decide_eq_true ⟨hupdate, hcreated, hwritten⟩
        · rw [Settled, hacc]
          exact ⟨hdeposit, hoperation, filter_eq_nil h.warningPixDeposit,
            filter_eq_nil h.warningTransaction⟩
      refine outcome_bind.mpr (outcome_write hinsert (fun hdone => ?_) ?_ ?_)
      · exact hafter (by rw [hdone]; rfl) _
      · exact fun hwritten _ _ => hafter hwritten _
      · intro hfailed _
        refine hpart deposits ?_
        rw [hwhole, hfailed]
        exact decide_eq_false fun hall => Bool.false_ne_true hall.2.2
    · intro _ hne _
      exact hpart deposits (by rw [hwhole]; exact decide_eq_false fun hall => hne hall.2.1)
    · intro hfailed _
      refine hpart w.deposits ?_
      rw [hwhole]
      exact decide_eq_false fun hall => Answer.ne_done hfailed hall.2.1
  · intro _ hne _
    exact hpart w.deposits (by rw [hwhole]; exact decide_eq_false fun hall => hne hall.1)
  · intro hfailed _
    rw [hwrites] at hfailed
    cases hfailed

/-- The deposit is held, when a check was not passed. -/
theorem hold_after (h : Waiting d w) (hacc : d.accepted = false)
    (hwrites : services.create.writes) :
    Outcome (hold config d services) w (fun _ => After config services d)
      fun _ => After config services d := by
  have hwhole : services.whole d = decide (services.create = .done ∧
      services.createOperation = .done ∧ services.createWarningPixDeposit = .done ∧
        services.createWarningTransaction.writes) := by
    rw [Services.whole, hacc]
  obtain ⟨deposits, hdeposit, hcreate⟩ := create_ok h.deposit
  have hshut : ∀ operations warningPixDeposits warningTransactions events, Shut d
      { w with deposits, operations, warningPixDeposits, warningTransactions, events } := by
    intro _ _ _ _
    exact ⟨d, h.cached, .inr (by rw [hdeposit]; rfl)⟩
  -- once the deposit is stored, and as long as compliance was not told
  have hpart : ∀ operations warningPixDeposits events, services.whole d = false →
      After config services d { w with deposits, operations, warningPixDeposits, events } := by
    intro _ _ _ hpart
    exact after_of_part (hshut _ _ _ _) hpart (not_settled_of_warning hacc h.warningTransaction)
  rw [hold]
  refine outcome_bind.mpr (outcome_write hcreate (fun hcreated => ?_) ?_ ?_)
  · obtain ⟨operations, hoperation, hinsert⟩ :=
      insertOperation_ok (d.newOperation config .PENDING) (w := { w with deposits }) h.operation
    refine outcome_bind.mpr (outcome_write hinsert (fun hinserted => ?_) ?_ ?_)
    · refine outcome_bind.mpr (outcome_write rfl (fun hwarned => ?_) ?_ ?_)
      · have htell := createWarningTransaction_ok (x := d.warningTransaction)
          (w := { w with
            deposits, operations
            warningPixDeposits := w.warningPixDeposits ++ [d.warningPixDeposit]
            events := w.events ++ [.createdWarningPixDeposit d.warningPixDeposit d] })
          h.warningTransaction
        have hafter : services.createWarningTransaction.writes → After config services d
            { w with
              deposits, operations
              warningPixDeposits := w.warningPixDeposits ++ [d.warningPixDeposit]
              warningTransactions := w.warningTransactions ++ [d.warningTransaction]
              events := w.events ++ [.createdWarningPixDeposit d.warningPixDeposit d] } := by
          intro hwritten
          refine after_of_whole (hshut _ _ _ _) ?_ ?_ fun c hc hreceived => ?_
          · rw [hwhole]
            exact decide_eq_true ⟨hcreated, hinserted, hwarned, hwritten⟩
          · rw [Settled, hacc]
            exact ⟨hdeposit, hoperation, filter_append_self
              (fun x hx => decide_eq_false (h.warningPixDeposit x hx)) (decide_eq_true rfl),
              filter_append_self (fun x hx => decide_eq_false (h.warningTransaction x hx))
                (decide_eq_true rfl)⟩
          · rw [Option.some_inj.mp (h.cached.symm.trans hc)] at h
            exact absurd hreceived h.waits
        change Outcome (write services.createWarningTransaction
          (createWarningTransaction d.warningTransaction) >>= fun _ => pure d) _ _ _
        refine outcome_bind.mpr (outcome_write htell (fun hdone => ?_) ?_ ?_)
        · exact hafter (by rw [hdone]; rfl)
        · exact fun hwritten _ _ => hafter hwritten
        · intro hfailed _
          refine hpart _ _ _ ?_
          rw [hwhole, hfailed]
          exact decide_eq_false fun hall => Bool.false_ne_true hall.2.2.2
      · intro _ hne _
        exact hpart _ _ _ (by rw [hwhole]; exact decide_eq_false fun hall => hne hall.2.2.1)
      · intro hfailed _
        refine hpart operations _ _ ?_
        rw [hwhole]
        exact decide_eq_false fun hall => Answer.ne_done hfailed hall.2.2.1
    · intro _ hne _
      exact hpart _ _ _ (by rw [hwhole]; exact decide_eq_false fun hall => hne hall.2.1)
    · intro hfailed _
      refine hpart _ _ _ ?_
      rw [hwhole]
      exact decide_eq_false fun hall => Answer.ne_done hfailed hall.2.1
  · intro _ hne _
    exact hpart _ _ _ (by rw [hwhole]; exact decide_eq_false fun hall => hne hall.1)
  · intro hfailed _
    rw [hwrites] at hfailed
    cases hfailed

theorem observe_of_shut (h : Shut d w) (services : Services) :
    observe config d.id w services = w := by
  obtain ⟨c, hc, hshut⟩ := h
  rw [observe, handleWaiting]
  cases hget : services.getCachedById with
  | some e => rfl
  | none =>
      rw [left_bind_ok read_none, left_bind_ok (orThrow_ok.mpr ⟨hc, rfl⟩)]
      split
      · rfl
      · rename_i hwaits
        obtain ⟨r, hr⟩ := Option.isSome_iff_exists.mp (hshut.resolve_left hwaits)
        cases hread : services.getById with
        | some e => rfl
        | none =>
            rw [left_bind_ok read_none, hr]
            rfl

/-- An execution for a waiting deposit, when both reads succeed. -/
theorem observe_waiting (h : Waiting d w) (hget : services.getCachedById = none)
    (hread : services.getById = none) : observe config d.id w services =
      left (match d.accepted with
        | true => receive config d services
        | false => hold config d services) w := by
  rw [observe, handleWaiting, hget, left_bind_ok read_none,
    left_bind_ok (orThrow_ok.mpr ⟨h.cached, rfl⟩)]
  split
  · exact absurd ‹_› h.waits
  · rw [hread, left_bind_ok read_none, h.deposit]

theorem silent_eq_false : services.silent d = false ↔ services.getCachedById = none ∧
    services.getById = none ∧
      (if d.accepted then services.updateCached else services.create).writes := by
  rw [Services.silent, Bool.or_eq_false_iff, Bool.or_eq_false_iff, Option.isSome_eq_false_iff,
    Option.isSome_eq_false_iff, Option.isNone_iff_eq_none, Option.isNone_iff_eq_none,
    Bool.not_eq_false', and_assoc]

/-- A first write that fails. -/
theorem left_write_failed {answer : Answer} {x : App Unit} {α : Type} {k : Unit → App α}
    (h : answer.writes = false) : left (write answer x >>= k) w = w := by
  cases answer with
  | done => cases h
  | lost e => cases h
  | failed e => rfl

theorem observe_silent (h : Waiting d w) (hsilent : services.silent d) :
    observe config d.id w services = w := by
  cases hget : services.getCachedById with
  | some e =>
      rw [observe, handleWaiting, hget]
      rfl
  | none =>
      cases hread : services.getById with
      | some e =>
          rw [observe, handleWaiting, hget, left_bind_ok read_none,
            left_bind_ok (orThrow_ok.mpr ⟨h.cached, rfl⟩), hread]
          split <;> rfl
      | none =>
          have hfailed :
              ¬ (if d.accepted then services.updateCached else services.create).writes := by
            intro hwrites
            rw [silent_eq_false.mpr ⟨hget, hread, hwrites⟩] at hsilent
            cases hsilent
          rw [Bool.not_eq_true] at hfailed
          rw [observe_waiting h hget hread]
          cases hacc : d.accepted with
          | true =>
              rw [hacc, if_pos rfl] at hfailed
              exact left_write_failed hfailed
          | false =>
              rw [hacc, if_neg Bool.false_ne_true] at hfailed
              exact left_write_failed hfailed

theorem observe_after (h : Waiting d w) (hwrites : services.silent d = false) :
    After config services d (observe config d.id w services) := by
  obtain ⟨hget, hread, hwrites⟩ := silent_eq_false.mp hwrites
  rw [observe_waiting h hget hread]
  cases hacc : d.accepted with
  | true =>
      rw [hacc, if_pos rfl] at hwrites
      exact left_iff.mpr (receive_after h hacc hwrites)
  | false =>
      rw [hacc, if_neg Bool.false_ne_true] at hwrites
      exact left_iff.mpr (hold_after h hacc hwrites)

theorem silent_succeeding : Services.succeeding.silent d = false :=
  silent_eq_false.mpr ⟨rfl, rfl, by split <;> rfl⟩

theorem whole_succeeding : Services.succeeding.whole d = true := by
  rw [Services.whole]
  split <;> rfl

/-! ### The executions for a deposit -/

/-- After every execution that is made for the deposit, what is `RECEIVED` in redis is credited, and
the deposit is settled when at last one is made in which all calls succeed. -/
def Retried (config : Config) (d : Deposit) (w : World) (calls : List Services) : Prop :=
  (∀ made, made <+: calls → CachedCredited config d (run (observe config d.id) w made)) ∧
    Settled config d (run (observe config d.id) w (calls ++ [.succeeding]))

theorem run_of_shut (h : Shut d w) (calls : List Services) :
    run (observe config d.id) w calls = w := by
  induction calls with
  | nil => rfl
  | cons services calls ih => rw [run_cons, observe_of_shut h, ih]

theorem Waiting.cachedCredited (h : Waiting d w) : CachedCredited config d w := by
  intro c hc hreceived
  rw [Option.some_inj.mp (h.cached.symm.trans hc)] at h
  exact absurd hreceived h.waits

/-- A deposit can be retried if and only if the first execution that writes makes all its
writes. -/
theorem retried_iff (config : Config) (d : Deposit) (w : World) (calls : List Services)
    (h : Waiting d w) : Retried config d w calls ↔
      ∀ services ∈ calls.find? fun services => !services.silent d, services.whole d := by
  induction calls with
  | nil =>
      refine iff_of_true ⟨fun made hmade => ?_, ?_⟩ fun _ hnone => by cases hnone
      · rw [List.prefix_nil.mp hmade]
        exact h.cachedCredited
      · exact ((observe_after h silent_succeeding).settled whole_succeeding).1
  | cons services calls ih =>
      rw [Retried, forall_prefix_cons, List.cons_append, run_cons]
      cases hsilent : services.silent d with
      | true =>
          rw [List.find?_cons_of_neg (by rw [hsilent]; decide), ← ih, Retried]
          simp only [run_cons, run_nil, observe_silent h hsilent]
          exact and_congr_left' (and_iff_right h.cachedCredited)
      | false =>
          have hafter : After config services d (observe config d.id w services) :=
            observe_after h hsilent
          rw [List.find?_cons_of_pos (by rw [hsilent]; rfl)]
          simp only [run_cons, run_nil, run_of_shut hafter.shut, Option.mem_some_iff,
            forall_eq']
          constructor
          · rintro ⟨-, hsettled⟩
            by_contra hpart
            exact hafter.unsettled (Bool.not_eq_true _ ▸ hpart) hsettled
          · intro hwhole
            obtain ⟨hsettled, hcached⟩ := hafter.settled hwhole
            exact ⟨⟨h.cachedCredited, fun _ _ => hcached⟩, hsettled⟩

end

/-! ### A call that fails -/

namespace Sample

def config : Config := ⟨"BRL", "NEWPIXREC"⟩

/-- A deposit that passed its check. -/
def deposit : Deposit where
  id := 1
  user := 2
  wallet := 3
  operation := 4
  state := .WAITING
  amount := 100
  endToEndId := "E"
  transactionTag := "PIXREC"
  check := [("HandleWarningPixDepositIsCefEventUseCase", true)]

def world : World where
  cache := Table.empty.upsert deposit
  deposits := .empty
  operations := .empty
  warningPixDeposits := []
  warningTransactions := []
  events := []

theorem waiting : Waiting deposit world where
  cached := by decide
  waits := by decide
  deposit := rfl
  operation := rfl
  warningPixDeposit _ h := absurd h List.not_mem_nil
  warningTransaction _ h := absurd h List.not_mem_nil

/-- The operations service is not reached. -/
def notAccepted : Services :=
  { Services.succeeding with createAndAcceptOperation := .failed (.service "timeout") }

/-- Redis is not reached when the deposit is to be updated. -/
def notUpdated : Services :=
  { Services.succeeding with updateCached := .failed (.service "timeout") }

end Sample

open Sample in
/-- Redis fails in the first execution, and then the deposit is received. -/
theorem retried_notUpdated : Retried config deposit world [notUpdated] := by
  refine (retried_iff config deposit world [notUpdated] waiting).mpr ?_
  rintro services hnone
  cases hnone

open Sample in
/-- The deposit is `RECEIVED` in redis and in the database, there is no operation, and no execution
makes one. -/
theorem received_and_not_credited :
    ¬ ∀ config d w calls, Waiting d w → Retried config d w calls := by
  intro h
  have hsettled := (h config deposit world [notAccepted] waiting).2
  have hoperation : (run (observe config deposit.id) world
      ([notAccepted] ++ [.succeeding])).operations.get? deposit.operation = none := by decide
  exact not_settled_of_operation (by decide) hoperation hsettled

end ZroServices.Pix.DepositRetry
