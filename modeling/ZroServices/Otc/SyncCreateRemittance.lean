import ZroServices.Otc.SyncOpenRemittance

/-!
# OTC — open remittance orders to remittances

`SyncCreateRemittanceUseCase` collects open remittance orders into groups, one for each currency,
system, provider and pair of settlement codes, kept in a cache between its runs.  A group that is
old or large enough, by the exposure rule of its currency, becomes one remittance of its net
amount; its orders are closed and linked to it.

A run is a sequence of steps (`Command`), as one of `SyncOpenRemittanceUseCase`.  A row that is
withdrawn by hand is no longer found, and its id is not used again.
-/

namespace ZroServices

open Foundation

namespace Otc.Exposure

/-! ### Rows -/

inductive RemittanceOrderStatus where
  | OPEN
  | CLOSED
  deriving DecidableEq, Repr

inductive RemittanceOrderSide where
  | BUY
  | SELL
  deriving DecidableEq, Repr

structure RemittanceOrder where
  id : Uuid
  side : RemittanceOrderSide
  currency : CurrencyId
  amount : ℤ
  status : RemittanceOrderStatus
  system : Uuid
  provider : Uuid
  sendDateCode : Option SettlementDateCode
  receiveDateCode : Option SettlementDateCode
  createdAt : ℤ
  deriving DecidableEq, Repr

instance : Keyed RemittanceOrder Uuid := ⟨RemittanceOrder.id⟩

/-- The amount that an order adds to a group. -/
def RemittanceOrder.signed (o : RemittanceOrder) : ℤ :=
  match o.side with
  | .BUY => o.amount
  | .SELL => -o.amount

/-- `RemittanceOrderCurrentGroup`. -/
structure RemittanceOrderCurrentGroup where
  key : GroupKey
  groupAmount : ℤ
  groupAmountDate : Option ℤ
  dailyAmount : ℤ
  dailyAmountDate : ℤ
  remittanceOrderGroup : List Uuid
  deriving DecidableEq, Repr

instance : Keyed RemittanceOrderCurrentGroup GroupKey := ⟨RemittanceOrderCurrentGroup.key⟩

structure SettlementDateRule where
  amount : ℤ
  sendDate : SettlementDateCode
  receiveDate : SettlementDateCode
  deriving DecidableEq, Repr

structure RemittanceExposureRule where
  id : Uuid
  currency : CurrencyId
  amount : ℤ
  seconds : ℤ
  settlementDateRules : List SettlementDateRule
  deriving DecidableEq, Repr

instance : Keyed RemittanceExposureRule Uuid := ⟨RemittanceExposureRule.id⟩

inductive Event where
  | createdRemittance (r : Remittance)
  | closedRemittanceOrder (o : RemittanceOrder)
  deriving DecidableEq, Repr

/-- The stores, the ids whose rows were withdrawn, the events, and the orders that this run has
closed. -/
structure Stores where
  remittanceOrders : Table RemittanceOrder
  withdrawn : List Uuid
  remittances : Table Remittance
  remittanceOrderRemittances : List RemittanceOrderRemittance
  remittanceExposureRules : Table RemittanceExposureRule
  currentGroups : Table RemittanceOrderCurrentGroup
  events : List Event
  updatedOrdersIds : List Uuid
  deriving DecidableEq

structure Config where
  defaultSendDateCode : SettlementDateCode
  defaultReceiveDateCode : SettlementDateCode

inductive Exception where
  | remittanceExposureRuleNotFound (currency : CurrencyId)
  | uniqueConstraint (table : String)
  deriving DecidableEq, Repr

abbrev App := EStateM Exception Stores

/-- The group that an order is collected into, as the use case has it in its fields. -/
structure Current where
  currentGroupIds : List Uuid
  groupAmount : ℤ
  groupAmountDate : Option ℤ
  dailyAmount : ℤ
  dailyAmountDate : ℤ
  deriving DecidableEq, Repr

/-! ### Repositories -/

namespace RemittanceOrderRepository

def getById (id : Uuid) : App (Option RemittanceOrder) := do
  let s ← get
  return if id ∈ s.withdrawn then none else s.remittanceOrders.get? id

def update (o : RemittanceOrder) : App Unit :=
  modify fun s => { s with remittanceOrders := s.remittanceOrders.set o }

/-- The orders of a status, the oldest first. -/
def allByStatus (status : RemittanceOrderStatus) (s : Stores) : List RemittanceOrder :=
  (s.remittanceOrders.rows.filter fun o => o.status = status ∧ o.id ∉ s.withdrawn).insertionSort
    (·.createdAt ≤ ·.createdAt)

/-- A page of the orders of a status. -/
def getAllByStatus (page pageSize : ℕ) (status : RemittanceOrderStatus) (s : Stores) :
    List RemittanceOrder :=
  ((allByStatus status s).drop ((page - 1) * pageSize)).take pageSize

/-- The number of pages. -/
def pageTotal (pageSize : ℕ) (status : RemittanceOrderStatus) (s : Stores) : ℕ :=
  ((allByStatus status s).length + pageSize - 1) / pageSize

end RemittanceOrderRepository

def RemittanceRepository.create (r : Remittance) : App Unit := do
  let s ← get
  let remittances ← orThrow (s.remittances.insert? r) (.uniqueConstraint "remittances")
  modify fun s => { s with remittances }

/-- An order and a remittance are linked once. -/
def RemittanceOrderRemittanceRepository.create (link : RemittanceOrderRemittance) : App Unit := do
  let s ← get
  throwIf (link ∈ s.remittanceOrderRemittances) (.uniqueConstraint "remittance_orders_remittances")
  modify fun s => { s with
    remittanceOrderRemittances := s.remittanceOrderRemittances ++ [link] }

def RemittanceExposureRuleRepository.getByCurrency (currency : CurrencyId) :
    App (Option RemittanceExposureRule) := do
  let s ← get
  return s.remittanceExposureRules.rows.find? (·.currency = currency)

def emit (e : Event) : App Unit := modify fun s => { s with events := s.events ++ [e] }

/-- `this.updatedOrdersIds.push(id)`. -/
def pushUpdated (id : Uuid) : App Unit :=
  modify fun s => { s with updatedOrdersIds := s.updatedOrdersIds ++ [id] }

/-! ### The use case -/

namespace SyncCreateRemittanceUseCase

variable (cfg : Config) (now : ℤ)

/-- The key of the group of an order. -/
def groupKey (o : RemittanceOrder) : GroupKey where
  currency := o.currency
  system := o.system
  provider := o.provider
  sendDateCode := o.sendDateCode.getD cfg.defaultSendDateCode
  receiveDateCode := o.receiveDateCode.getD cfg.defaultReceiveDateCode

/-- The codes of the order, or those of the largest rule that the amount of the day reaches, and
their dates. -/
def defineSettlementDate (exposureRule : RemittanceExposureRule) (o : RemittanceOrder)
    (dailyAmount : ℤ) : SettlementDateCode × SettlementDateCode × ℤ × ℤ :=
  let first := ((0 : ℤ), (groupKey cfg o).sendDateCode, (groupKey cfg o).receiveDateCode)
  let (_, sendDateCode, receiveDateCode) :=
    exposureRule.settlementDateRules.foldl (fun v rule =>
      if rule.amount ≠ 0 ∧ rule.amount ≤ dailyAmount ∧ v.1 < rule.amount then
        (rule.amount, rule.sendDate, rule.receiveDate)
      else v) first
  let (sendDate, receiveDate) := settlementDateFromCodeToDate now sendDateCode receiveDateCode
  (sendDateCode, receiveDateCode, sendDate, receiveDate)

/-- The amount of the day with the group, and its date. -/
def daily (c : Current) : Current :=
  if startOf .day now = startOf .day c.dailyAmountDate then
    { c with dailyAmount := c.dailyAmount + c.groupAmount }
  else { c with dailyAmountDate := now, dailyAmount := c.groupAmount }

/-- The remittance of a group. -/
def remittanceOf (id : Uuid) (exposureRule : RemittanceExposureRule) (o : RemittanceOrder)
    (c : Current) : Remittance :=
  let dates := defineSettlementDate cfg now exposureRule o c.dailyAmount
  { id
    side := if 0 ≤ c.groupAmount then .BUY else .SELL
    currency := o.currency
    amount := |c.groupAmount|
    status := .OPEN
    system := o.system
    provider := some o.provider
    sendDate := dates.2.2.1
    receiveDate := dates.2.2.2
    sendDateCode := some dates.1
    receiveDateCode := some dates.2.1
    isConcomitant := none
    createdAt := now }

def closed (o : RemittanceOrder) : RemittanceOrder := { o with status := .CLOSED }

/-- Close the orders of the group and link them to the remittance; `false` when one is not found,
which ends the loop. -/
def closeOrders (remittance : Remittance) : List Uuid → App Bool
  | [] => return true
  | remittanceOrderId :: ids => do
      match ← RemittanceOrderRepository.getById remittanceOrderId with
      | none => return false
      | some order =>
          RemittanceOrderRepository.update (closed order)
          emit (.closedRemittanceOrder (closed order))
          RemittanceOrderRemittanceRepository.create ⟨order.id, remittance.id⟩
          pushUpdated order.id
          closeOrders remittance ids

/-- `createNewRemittance`. -/
def createNewRemittance (o : RemittanceOrder) (exposureRule : RemittanceExposureRule)
    (c : Current) : App Current := do
  let c := daily now c
  let s ← get
  let remittance := remittanceOf cfg now (fresh (s.remittances.rows.map (·.id))) exposureRule o c
  RemittanceRepository.create remittance
  emit (.createdRemittance remittance)
  -- `if (!order) return` also leaves the group as it is.
  if ← closeOrders remittance c.currentGroupIds then
    return { c with groupAmount := 0, groupAmountDate := none, currentGroupIds := [] }
  return c

/-- The fields of the use case, of the cached group or of none. -/
def currentOf (createdAt : ℤ) (currentGroup : Option RemittanceOrderCurrentGroup) : Current where
  currentGroupIds := (currentGroup.map (·.remittanceOrderGroup)).getD []
  groupAmount := (currentGroup.map (·.groupAmount)).getD 0
  groupAmountDate := some ((currentGroup.bind (·.groupAmountDate)).getD createdAt)
  dailyAmount := (currentGroup.map (·.dailyAmount)).getD 0
  dailyAmountDate := (currentGroup.map (·.dailyAmountDate)).getD now

/-- The cached group of the fields. -/
def groupOf (key : GroupKey) (c : Current) : RemittanceOrderCurrentGroup where
  key
  groupAmount := c.groupAmount
  groupAmountDate := c.groupAmountDate
  dailyAmount := c.dailyAmount
  dailyAmountDate := c.dailyAmountDate
  remittanceOrderGroup := c.currentGroupIds

/-- The fields with the order, which is added once. -/
def added (o : RemittanceOrder) (c : Current) : Current :=
  if o.id ∈ c.currentGroupIds then c
  else { c with
    groupAmount :=
      if o.side = .BUY then c.groupAmount + o.amount else c.groupAmount - o.amount
    currentGroupIds := c.currentGroupIds ++ [o.id] }

/-- `moment.unix()`. -/
def unix (t : ℤ) : ℤ := t / 1000

/-- The group is old enough or large enough. -/
def reached (exposureRule : RemittanceExposureRule) (c : Current) : Bool :=
  exposureRule.seconds ≤ unix now - unix (c.groupAmountDate.getD now) ||
    exposureRule.amount ≤ |c.groupAmount|

/-- The body of the loop over a page. -/
def createRemittance (o : RemittanceOrder) : App Unit := do
  let s ← get
  if o.id ∈ s.updatedOrdersIds then return ()
  let key := groupKey cfg o
  let c := added o (currentOf now o.createdAt (s.currentGroups.get? key))
  let exposureRule ← RemittanceExposureRuleRepository.getByCurrency o.currency
  let exposureRule ← orThrow exposureRule (.remittanceExposureRuleNotFound o.currency)
  let c ← if reached now exposureRule c then createNewRemittance cfg now o exposureRule c
    else pure c
  modify fun s => { s with currentGroups := s.currentGroups.upsert (groupOf key c) }

end SyncCreateRemittanceUseCase

/-! ### Runs -/

/-- The stores, and the orders of the page that are still to be taken. -/
structure State where
  stores : Stores
  running : Bool
  page : List RemittanceOrder
  deriving DecidableEq

inductive Command where
  /-- Another use case stores an order, which is open. -/
  | create (o : RemittanceOrder)
  /-- The row of an order is withdrawn by hand. -/
  | withdraw (id : Uuid)
  /-- An exposure rule is stored, or replaced. -/
  | saveExposureRule (rule : RemittanceExposureRule)
  /-- A run begins. -/
  | begin
  /-- The run reads a page of open orders. -/
  | getAllByStatus (page : ℕ)
  /-- The run takes the next order of its page. -/
  | next
  deriving DecidableEq

def pageSize : ℕ := 100

/-- Take the next order of the page; an exception ends the run. -/
def takeNext (cfg : Config) (now : ℤ) (s : State) : State :=
  match s.page with
  | [] => s
  | o :: page =>
      match SyncCreateRemittanceUseCase.createRemittance cfg now o s.stores with
      | .ok _ stores => { s with stores, page }
      | .error _ stores => { stores, running := false, page := [] }

/-- A command, at an instant. -/
def step (cfg : Config) (s : State) (l : ℤ × Command) : State :=
  match l.2 with
  | .create o =>
      { s with stores := { s.stores with
        remittanceOrders := (s.stores.remittanceOrders.insert? { o with status := .OPEN }).getD
          s.stores.remittanceOrders } }
  | .withdraw id =>
      { s with stores := { s.stores with withdrawn := s.stores.withdrawn ++ [id] } }
  | .saveExposureRule rule =>
      { s with stores := { s.stores with
        remittanceExposureRules := s.stores.remittanceExposureRules.upsert rule } }
  | .begin =>
      { stores := { s.stores with updatedOrdersIds := [] }, running := true, page := [] }
  | .getAllByStatus page =>
      if s.running then
        { s with
          page := RemittanceOrderRepository.getAllByStatus page pageSize .OPEN s.stores }
      else s
  | .next => if s.running then takeNext cfg l.1 s else s

/-- The pages from `page` on, each taken to its end, at most `fuel` of them. -/
def createPages (cfg : Config) (now : ℤ) : ℕ → ℕ → State → State
  | 0, _, s => s
  | fuel + 1, page, s =>
      let s' := step cfg s (now, .getAllByStatus page)
      if s'.page = [] then s'
      else
        let s'' := run (step cfg) s' (List.replicate s'.page.length (now, .next))
        if RemittanceOrderRepository.pageTotal pageSize .OPEN s.stores ≤ page then s''
        else createPages cfg now fuel (page + 1) s''

/-- `SyncCreateRemittanceUseCase.execute`. -/
def SyncCreateRemittanceUseCase.execute (cfg : Config) (now : ℤ) (fuel : ℕ) (s : State) : State :=
  createPages cfg now fuel 1 (step cfg s (now, .begin))

theorem createPages_run (cfg : Config) (now : ℤ) (fuel page : ℕ) (s : State) :
    ∃ ls, createPages cfg now fuel page s = run (step cfg) s ls := by
  induction fuel generalizing page s with
  | zero => exact ⟨[], rfl⟩
  | succ fuel ih =>
      rw [createPages]
      split
      · exact ⟨[(now, .getAllByStatus page)], rfl⟩
      · dsimp only
        generalize (step cfg s (now, .getAllByStatus page)).page.length = n
        split
        · exact ⟨(now, .getAllByStatus page) :: List.replicate n (now, .next), rfl⟩
        · obtain ⟨ls, e⟩ := ih (page + 1) (run (step cfg) s
            ((now, .getAllByStatus page) :: List.replicate n (now, .next)))
          exact ⟨(now, .getAllByStatus page) :: List.replicate n (now, .next) ++ ls,
            e.trans (run_append _ _ _ _).symm⟩

/-- An execution is a run. -/
theorem execute_run (cfg : Config) (now : ℤ) (fuel : ℕ) (s : State) :
    ∃ ls, SyncCreateRemittanceUseCase.execute cfg now fuel s = run (step cfg) s ls := by
  obtain ⟨ls, e⟩ := createPages_run cfg now fuel 1 (step cfg s (now, .begin))
  exact ⟨(now, .begin) :: ls, e⟩

end Otc.Exposure

end ZroServices
