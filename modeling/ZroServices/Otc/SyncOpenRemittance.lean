import Mathlib.Data.List.Sort
import ZroServices.Common.Moment
import ZroServices.Foundation.Effect
import ZroServices.Foundation.Run
import ZroServices.Foundation.Table

/-!
# OTC — open remittances to the PSP

`SyncOpenRemittanceUseCase` collects open remittances into groups, one for each currency, system,
provider and pair of settlement codes, kept in a cache between its runs.  A group whose buys and
sells cancel is closed; a group that is worth a trade is sent to the PSP as a batch, its last
remittance split when the group is worth too much.  What the PSP takes in a day is limited.

A run is a sequence of steps (`Command`): it begins, reads pages of open remittances, and takes
the remittances of a page one by one (`openRemittance`, the body of the loop).  Amounts are
integers, dates are instants; events are those that the run has emitted, which leave the service
when it ends.
-/

namespace ZroServices

open Foundation

namespace Otc

abbrev Uuid := ℕ
abbrev CurrencyId := ℕ
abbrev CurrencyTag := String

/-! ### Settlement dates -/

inductive SettlementDateCode where
  | D0
  | D1
  | D2
  | D3
  | D4
  deriving DecidableEq, Repr

/-- `SETTLEMENT_DATE_MAP`. -/
def SettlementDateCode.days : SettlementDateCode → ℤ
  | D0 => 0
  | D1 => 1
  | D2 => 2
  | D3 => 3
  | D4 => 4

/-- `moment.day()`: `0` is Sunday.  1 January 1970 was a Thursday. -/
def weekDay (t : ℤ) : ℤ := (localDay t + 4) % 7

/-- A settlement date is no Sunday and no Saturday. -/
def nextUtilDay (t : ℤ) : ℤ :=
  if weekDay t = 0 then t + msPerDay
  else if weekDay t = 6 then t + 2 * msPerDay
  else t

/-- `settlementDateFromCodeToDate`. -/
def settlementDateFromCodeToDate (date : ℤ) (sendDateCode receiveDateCode : SettlementDateCode) :
    ℤ × ℤ :=
  (nextUtilDay (date + sendDateCode.days * msPerDay),
    nextUtilDay (date + receiveDateCode.days * msPerDay))

/-! ### Rows -/

inductive RemittanceStatus where
  | OPEN
  | WAITING
  | CLOSED
  | CLOSED_MANUALLY
  deriving DecidableEq, Repr

inductive RemittanceSide where
  | BUY
  | SELL
  deriving DecidableEq, Repr

structure Remittance where
  id : Uuid
  side : RemittanceSide
  currency : CurrencyId
  amount : ℤ
  status : RemittanceStatus
  system : Uuid
  provider : Option Uuid
  sendDate : ℤ
  receiveDate : ℤ
  sendDateCode : Option SettlementDateCode
  receiveDateCode : Option SettlementDateCode
  isConcomitant : Option Bool
  createdAt : ℤ
  deriving DecidableEq, Repr

instance : Keyed Remittance Uuid := ⟨Remittance.id⟩

/-- The amount that a remittance adds to a group. -/
def Remittance.signed (r : Remittance) : ℤ :=
  match r.side with
  | .BUY => r.amount
  | .SELL => -r.amount

/-- What the key of a cached group is made of. -/
structure GroupKey where
  currency : CurrencyId
  system : Uuid
  provider : Uuid
  sendDateCode : SettlementDateCode
  receiveDateCode : SettlementDateCode
  deriving DecidableEq, Repr

/-- `RemittanceCurrentGroup`. -/
structure RemittanceCurrentGroup where
  key : GroupKey
  groupAmount : ℤ
  groupAmountDate : Option ℤ
  dailyAmount : ℤ
  dailyAmountDate : ℤ
  remittanceGroup : List Uuid
  dailyRemittanceGroup : List Uuid
  deriving DecidableEq, Repr

instance : Keyed RemittanceCurrentGroup GroupKey := ⟨RemittanceCurrentGroup.key⟩

structure RemittanceOrderRemittance where
  remittanceOrder : Uuid
  remittance : Uuid
  deriving DecidableEq, Repr

/-- A batch of remittances that is ready, when it was emitted, and the group it was. -/
structure ReadyExchangeQuotation where
  sendDate : ℤ
  receiveDate : ℤ
  remittanceIds : List Uuid
  currencyTag : CurrencyTag
  providerId : Option Uuid
  systemId : Uuid
  group : GroupKey
  emittedAt : ℤ
  deriving DecidableEq, Repr

inductive Event where
  | createdRemittance (r : Remittance)
  | waitingRemittance (r : Remittance)
  | closedRemittance (r : Remittance)
  | readyExchangeQuotation (q : ReadyExchangeQuotation)
  deriving DecidableEq, Repr

/-- The stores, the events, and the remittances that this run has updated. -/
structure Stores where
  remittances : Table Remittance
  remittanceOrderRemittances : List RemittanceOrderRemittance
  currentGroups : Table RemittanceCurrentGroup
  events : List Event
  updatedRemittancesIds : List Uuid
  deriving DecidableEq

/-- The configuration, and what other services answer.  The rules of
`pspSettlementDateByStartingTime` are given as they are parsed: a minute of the day and the two
codes from then on. -/
structure Config where
  defaultSendDateCode : SettlementDateCode
  defaultReceiveDateCode : SettlementDateCode
  pspSettlementDateByStartingTime : List (ℕ × SettlementDateCode × SettlementDateCode)
  pspMarketOpenTime : ℕ
  pspMarketCloseTime : ℕ
  pspTradeMinAmount : ℤ
  pspTradeMaxAmount : ℤ
  pspDailyMaxAmount : ℤ
  /-- Milliseconds by which the server's clock is ahead of UTC. -/
  serverOffset : ℤ
  currencyTag : CurrencyId → Option CurrencyTag
  createExchangeQuotationDeactive : ℤ → Bool
  isHoliday : ℤ → Bool

inductive Exception where
  | currencyNotFound (id : CurrencyId)
  | remittanceNotFound (id : Uuid)
  | typeError (message : String)
  | uniqueConstraint (table : String)
  deriving DecidableEq, Repr

abbrev App := EStateM Exception Stores

/-- The group that a remittance is collected into, as the use case has it in its fields. -/
structure Current where
  currentGroupIds : List Uuid
  groupAmount : ℤ
  groupAmountDate : Option ℤ
  dailyAmount : ℤ
  dailyAmountDate : ℤ
  dailyRemittanceGroupIds : List Uuid
  deriving DecidableEq, Repr

/-! ### Repositories -/

namespace RemittanceRepository

def getById (id : Uuid) : App Remittance := do
  let s ← get
  orThrow (s.remittances.get? id) (.remittanceNotFound id)

def update (r : Remittance) : App Unit :=
  modify fun s => { s with remittances := s.remittances.set r }

def create (r : Remittance) : App Unit := do
  let s ← get
  let remittances ← orThrow (s.remittances.insert? r) (.uniqueConstraint "Remittances")
  modify fun s => { s with remittances }

/-- A page of the remittances of a status, the oldest first. -/
def getAllByStatus (page pageSize : ℕ) (status : RemittanceStatus) (s : Stores) :
    List Remittance :=
  (((s.remittances.rows.filter (·.status = status)).insertionSort
    (·.createdAt ≤ ·.createdAt)).drop ((page - 1) * pageSize)).take pageSize

/-- The number of pages. -/
def pageTotal (pageSize : ℕ) (status : RemittanceStatus) (s : Stores) : ℕ :=
  ((s.remittances.rows.filter (·.status = status)).length + pageSize - 1) / pageSize

end RemittanceRepository

def emit (e : Event) : App Unit := modify fun s => { s with events := s.events ++ [e] }

/-- `this.updatedRemittancesIds.push(id)`. -/
def pushUpdated (id : Uuid) : App Unit :=
  modify fun s => { s with updatedRemittancesIds := s.updatedRemittancesIds ++ [id] }

/-! ### The use case -/

namespace SyncOpenRemittanceUseCase

variable (cfg : Config) (now : ℤ)

/-- The codes of a remittance, or those of the last rule that has started, and their dates. -/
def defineSettlementDate (r : Remittance) : SettlementDateCode × SettlementDateCode × ℤ × ℤ :=
  let first := (momentOfDay cfg.serverOffset now cfg.pspMarketOpenTime,
    r.sendDateCode.getD cfg.defaultSendDateCode,
    r.receiveDateCode.getD cfg.defaultReceiveDateCode)
  let (_, sendDateCode, receiveDateCode) :=
    cfg.pspSettlementDateByStartingTime.foldl (fun v rule =>
      let pspRuleHour := momentOfDay cfg.serverOffset now rule.1
      if pspRuleHour ≤ now ∧ v.1 < pspRuleHour then (pspRuleHour, rule.2.1, rule.2.2) else v) first
  let (sendDate, receiveDate) := settlementDateFromCodeToDate now sendDateCode receiveDateCode
  (sendDateCode, receiveDateCode, sendDate, receiveDate)

/-- The remittance with a status and settlement dates. -/
def settled (status : RemittanceStatus) (isConcomitant : Bool)
    (dates : SettlementDateCode × SettlementDateCode × ℤ × ℤ) (r : Remittance) : Remittance :=
  { r with
    status
    isConcomitant := some isConcomitant
    sendDateCode := some dates.1
    receiveDateCode := some dates.2.1
    sendDate := dates.2.2.1
    receiveDate := dates.2.2.2 }

/-- Update a remittance of the group, emit its event, and keep its id. -/
def updateRemittance (f : Remittance → Remittance) (event : Remittance → Event) (id : Uuid) :
    App Unit := do
  let remittance ← RemittanceRepository.getById id
  RemittanceRepository.update (f remittance)
  emit (event (f remittance))
  pushUpdated remittance.id

/-- `calculateNewDailyConstants`: the amount of the day with the group, its date, and the
remittances that it counts; none when it is over the maximum. -/
def calculateNewDailyConstants (c : Current) : App (Option (ℤ × ℤ × List Uuid)) := do
  let (dailyAmount, dailyAmountDate, dailyRemittanceGroupIds) ←
    if startOf .day now = startOf .day c.dailyAmountDate then do
      -- Reopened remittances, which are counted already, are left out.
      let ids := c.currentGroupIds.filter (· ∉ c.dailyRemittanceGroupIds)
      let remittances ← ids.mapM RemittanceRepository.getById
      pure (c.dailyAmount + (remittances.map (·.signed)).sum, c.dailyAmountDate,
        c.dailyRemittanceGroupIds ++ ids)
    else pure (|c.groupAmount|, now, c.currentGroupIds)
  if cfg.pspDailyMaxAmount < dailyAmount then return none
  return some (dailyAmount, dailyAmountDate, dailyRemittanceGroupIds)

/-- `closeConcomitantRemittances`. -/
def closeConcomitantRemittances (c : Current) : App Current := do
  let c := if startOf .day now = startOf .day c.dailyAmountDate then c
    else { c with dailyAmountDate := now, dailyAmount := c.groupAmount }
  c.currentGroupIds.forM (updateRemittance
    (fun r => settled .CLOSED true (defineSettlementDate cfg now r) r) .closedRemittance)
  return { c with groupAmount := 0, groupAmountDate := none, currentGroupIds := [] }

/-- `sendRemittancesToPsp`. -/
def sendRemittancesToPsp (group : GroupKey) (currencyTag : CurrencyTag)
    (lastRemittance : Remittance) (c : Current) : App Current := do
  match ← calculateNewDailyConstants cfg now c with
  | none => return c
  | some (dailyAmount, dailyAmountDate, dailyRemittanceGroupIds) =>
      let dates := defineSettlementDate cfg now lastRemittance
      c.currentGroupIds.forM (updateRemittance (settled .WAITING false dates) .waitingRemittance)
      emit (.readyExchangeQuotation {
        sendDate := dates.2.2.1
        receiveDate := dates.2.2.2
        remittanceIds := c.currentGroupIds
        currencyTag
        providerId := lastRemittance.provider
        systemId := lastRemittance.system
        group
        emittedAt := now })
      return {
        currentGroupIds := []
        groupAmount := 0
        groupAmountDate := none
        dailyAmount
        dailyAmountDate
        dailyRemittanceGroupIds }

/-- The new remittance that takes the overflow of the last one. -/
def overflowRemittance (id : Uuid) (overflowAmount : ℤ) (lastRemittance : Remittance) :
    Remittance :=
  { lastRemittance with id, amount := |overflowAmount|, isConcomitant := none, createdAt := now }

/-- `splitAndSendRemittancesToPsp`, for the remittance at index `i` of its page. -/
def splitAndSendRemittancesToPsp (group : GroupKey) (currencyTag : CurrencyTag)
    (lastRemittance : Remittance) (i : ℕ) (c : Current) : App Current := do
  let overflowAmount := |c.groupAmount| - cfg.pspTradeMaxAmount
  if lastRemittance.amount - overflowAmount ≤ 0 then
    -- `splice(i, 1)` is called with the index of the page.
    return { c with
      groupAmount := c.groupAmount - lastRemittance.signed
      currentGroupIds := c.currentGroupIds.eraseIdx i }
  let lastRemittance := { lastRemittance with amount := lastRemittance.amount - overflowAmount }
  RemittanceRepository.update lastRemittance
  let c := { c with
    groupAmount :=
      if 0 < c.groupAmount then c.groupAmount - overflowAmount
      else c.groupAmount + overflowAmount }
  let s ← get
  let newRemittance :=
    overflowRemittance now (fresh (s.remittances.rows.map (·.id))) overflowAmount lastRemittance
  RemittanceRepository.create newRemittance
  emit (.createdRemittance newRemittance)
  modify fun s => { s with
    remittanceOrderRemittances := s.remittanceOrderRemittances ++
      (s.remittanceOrderRemittances.filter (·.remittance = lastRemittance.id)).map
        fun assoc => ⟨assoc.remittanceOrder, newRemittance.id⟩ }
  sendRemittancesToPsp cfg now group currencyTag lastRemittance c

/-- The key of the group of a remittance. -/
def groupKey (r : Remittance) (provider : Uuid) : GroupKey where
  currency := r.currency
  system := r.system
  provider
  sendDateCode := r.sendDateCode.getD cfg.defaultSendDateCode
  receiveDateCode := r.receiveDateCode.getD cfg.defaultReceiveDateCode

/-- The fields of the use case, of the cached group or of none. -/
def currentOf (createdAt : ℤ) (currentGroup : Option RemittanceCurrentGroup) : Current where
  currentGroupIds := (currentGroup.map (·.remittanceGroup)).getD []
  groupAmount := (currentGroup.map (·.groupAmount)).getD 0
  groupAmountDate := some ((currentGroup.bind (·.groupAmountDate)).getD createdAt)
  dailyAmount := (currentGroup.map (·.dailyAmount)).getD 0
  dailyAmountDate := (currentGroup.map (·.dailyAmountDate)).getD now
  dailyRemittanceGroupIds := (currentGroup.map (·.dailyRemittanceGroup)).getD []

/-- The cached group of the fields. -/
def groupOf (key : GroupKey) (c : Current) : RemittanceCurrentGroup where
  key
  groupAmount := c.groupAmount
  groupAmountDate := c.groupAmountDate
  dailyAmount := c.dailyAmount
  dailyAmountDate := c.dailyAmountDate
  remittanceGroup := c.currentGroupIds
  dailyRemittanceGroup := c.dailyRemittanceGroupIds

/-- The fields with one more remittance. -/
def added (r : Remittance) (c : Current) : Current :=
  { c with
    groupAmount := c.groupAmount + r.signed
    currentGroupIds := c.currentGroupIds ++ [r.id] }

/-- What is done with a group that has one more remittance. -/
def handleGroup (key : GroupKey) (currencyTag : CurrencyTag) (remittance : Remittance) (i : ℕ)
    (c : Current) : App Current :=
  if |c.groupAmount| = 0 then closeConcomitantRemittances cfg now c
  else if 0 < c.groupAmount then
    if cfg.pspTradeMaxAmount < |c.groupAmount| then
      splitAndSendRemittancesToPsp cfg now key currencyTag remittance i c
    else if cfg.pspTradeMinAmount ≤ |c.groupAmount| ∧ |c.groupAmount| ≤ cfg.pspTradeMaxAmount then
      sendRemittancesToPsp cfg now key currencyTag remittance c
    else pure c
  else pure c

/-- The body of the loop over a page, for the remittance at index `i`. -/
def openRemittance (i : ℕ) (remittance : Remittance) : App Unit := do
  let s ← get
  if remittance.id ∈ s.updatedRemittancesIds then return ()
  let currencyTag ← orThrow (cfg.currencyTag remittance.currency)
    (.currencyNotFound remittance.currency)
  let provider ← orThrow remittance.provider (.typeError "provider")
  let key := groupKey cfg remittance provider
  let c := currentOf now remittance.createdAt (s.currentGroups.get? key)
  if (← calculateNewDailyConstants cfg now c).isNone then return ()
  if remittance.id ∈ c.currentGroupIds then return ()
  let c ← handleGroup cfg now key currencyTag remittance i (added remittance c)
  modify fun s => { s with currentGroups := s.currentGroups.upsert (groupOf key c) }

end SyncOpenRemittanceUseCase

/-! ### Runs -/

/-- The stores, the remittances of the page that are still to be taken, and the index of the
first of them. -/
structure State where
  stores : Stores
  running : Bool
  page : List Remittance
  index : ℕ
  clock : ℤ
  deriving DecidableEq

inductive Command where
  /-- Another use case stores a remittance that is open. -/
  | create (r : Remittance)
  /-- A run begins. -/
  | begin
  /-- The run reads a page of open remittances. -/
  | getAllByStatus (page : ℕ)
  /-- The run takes the next remittance of its page. -/
  | next
  deriving DecidableEq

def pageSize : ℕ := 100

/-- The market is open, the feature is not switched off, and it is no holiday. -/
def operates (cfg : Config) (now : ℤ) : Bool :=
  momentOfDay cfg.serverOffset now cfg.pspMarketOpenTime < now &&
    now < momentOfDay cfg.serverOffset now cfg.pspMarketCloseTime &&
    ! cfg.createExchangeQuotationDeactive now && ! cfg.isHoliday now

/-- Take the next remittance of the page; an exception ends the run. -/
def takeNext (cfg : Config) (now : ℤ) (s : State) : State :=
  match s.page with
  | [] => s
  | r :: page =>
      match SyncOpenRemittanceUseCase.openRemittance cfg now s.index r s.stores with
      | .ok _ stores => { s with stores, page, index := s.index + 1 }
      | .error _ stores => { s with stores, running := false, page := [] }

def execCommand (cfg : Config) (now : ℤ) (s : State) : Command → State
  | .create r =>
      { s with stores := { s.stores with
        remittances := (s.stores.remittances.insert? { r with status := .OPEN }).getD
          s.stores.remittances } }
  | .begin =>
      { s with
        stores := { s.stores with updatedRemittancesIds := [] }
        running := operates cfg now
        page := [] }
  | .getAllByStatus page =>
      if s.running then
        { s with
          page := RemittanceRepository.getAllByStatus page pageSize .OPEN s.stores
          index := 0 }
      else s
  | .next => if s.running then takeNext cfg now s else s

/-- A command, at an instant. -/
def step (cfg : Config) (s : State) (l : ℤ × Command) : State :=
  { execCommand cfg l.1 s l.2 with clock := l.1 }

/-- The pages from `page` on, each taken to its end, at most `fuel` of them. -/
def openPages (cfg : Config) (now : ℤ) : ℕ → ℕ → State → State
  | 0, _, s => s
  | fuel + 1, page, s =>
      let s' := step cfg s (now, .getAllByStatus page)
      if s'.page = [] then s'
      else
        let s'' := run (step cfg) s' (List.replicate s'.page.length (now, .next))
        if RemittanceRepository.pageTotal pageSize .OPEN s.stores ≤ page then s''
        else openPages cfg now fuel (page + 1) s''

/-- `SyncOpenRemittanceUseCase.execute`. -/
def SyncOpenRemittanceUseCase.execute (cfg : Config) (now : ℤ) (fuel : ℕ) (s : State) : State :=
  openPages cfg now fuel 1 (step cfg s (now, .begin))

end Otc

end ZroServices
