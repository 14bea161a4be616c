import ZroServices.Otc.SyncOpenRemittance

/-!
# OTC — pending market orders to the exchange

`SyncMarketPendingCryptoOrdersUseCase` takes the pending market orders of a base currency, nets
them for each system, and places what is left as one order at the exchange of the best quotation,
within the market's sizes.  What the exchange did not execute becomes a new pending order, and so
does the next leg of a quotation that is composed of several pairs.

A run for a currency is a sweep: it reads the orders once (`begin`) and takes the systems one by
one (`next`).  At most one sweep is open for a currency; sweeps of different currencies, the
creation of orders and the exchange itself run in between.  Amounts are integers.  An exchange
that answers with a status that is not final, or without a quantity, may go on executing the order
it holds (`execute`).  A currency's symbol stands for its id.
-/

namespace ZroServices.Otc.CryptoOrders

open Foundation

/-! ### Entities -/

inductive CurrencyType where
  | FIAT
  | CRYPTO
  deriving DecidableEq, Repr

structure Currency where
  symbol : CurrencyTag
  type : CurrencyType
  deriving DecidableEq, Repr

inductive OrderSide where
  | BUY
  | SELL
  deriving DecidableEq, Repr

inductive OrderType where
  | LIMIT
  | MARKET
  deriving DecidableEq, Repr

inductive CryptoOrderState where
  | PENDING
  | CONFIRMED
  | FAILED
  | ERROR
  | RECONCILIED
  deriving DecidableEq, Repr

inductive CryptoRemittanceStatus where
  | PENDING
  | WAITING
  | CANCELED
  | ERROR
  | FILLED
  deriving DecidableEq, Repr

abbrev SystemId := ℕ
abbrev ProviderName := String

structure CryptoOrder where
  id : Uuid
  baseCurrency : CurrencyTag
  amount : ℕ
  type : OrderType
  side : OrderSide
  state : CryptoOrderState
  system : SystemId
  conversion : Option Uuid
  provider : Option ProviderName
  cryptoRemittance : Option Uuid
  remainingCryptoRemittance : Option Uuid
  previousCryptoRemittance : Option Uuid
  reconciledId : Option Uuid
  deriving DecidableEq, Repr

instance : Keyed CryptoOrder Uuid := ⟨CryptoOrder.id⟩

structure CryptoMarket where
  name : String
  minSize : Option ℕ
  maxSize : Option ℕ
  sizeIncrement : Option ℕ
  deriving DecidableEq, Repr

structure CryptoRemittance where
  id : Uuid
  baseCurrency : Currency
  quoteCurrency : Currency
  market : CryptoMarket
  amount : ℕ
  type : OrderType
  side : OrderSide
  provider : ProviderName
  providerOrderId : String
  status : CryptoRemittanceStatus
  executedPrice : Option ℕ
  executedAmount : ℕ
  fee : ℕ
  deriving DecidableEq, Repr

instance : Keyed CryptoRemittance Uuid := ⟨CryptoRemittance.id⟩

/-- A pair of currencies that a gateway quotes. -/
structure StreamPair where
  baseCurrency : Currency
  quoteCurrency : Currency
  gatewayName : ProviderName
  deriving DecidableEq, Repr

/-- A quotation: of one pair, or composed of several. -/
structure StreamQuotation extends StreamPair where
  composedBy : Option (List StreamPair)

/-- A buy of an amount counts as it is, a sale against it. -/
def OrderSide.signed (side : OrderSide) (amount : ℕ) : ℤ :=
  match side with
  | .BUY => amount
  | .SELL => -amount

def CryptoOrder.signed (o : CryptoOrder) : ℤ := o.side.signed o.amount

/-- A size that is missing or zero is no limit. -/
def truthy (size : Option ℕ) : Option ℕ := size.filter (· ≠ 0)

/-! ### The exchange -/

/-- `CreateCryptoRemittanceRequest` of a market order. -/
structure CreateCryptoRemittanceRequest where
  id : Uuid
  baseCurrency : Currency
  quoteCurrency : Currency
  type : OrderType
  side : OrderSide
  amount : ℕ
  market : CryptoMarket
  deriving DecidableEq, Repr

/-- The answer to a request of an amount: no more than that was executed. -/
structure CreateCryptoRemittanceResponse (amount : ℕ) where
  providerOrderId : String
  status : CryptoRemittanceStatus
  executedPrice : Option ℕ
  executedQuantity : Option ℕ
  fee : Option ℕ
  le : executedQuantity.getD 0 ≤ amount

/-- The order is closed at the exchange, and the answer says how much of it was executed. -/
def CreateCryptoRemittanceResponse.final {amount : ℕ}
    (r : CreateCryptoRemittanceResponse amount) : Bool :=
  (r.status = .FILLED ∨ r.status = .CANCELED) ∧ r.executedQuantity.isSome

/-- An order that the exchange holds. -/
structure Placement where
  remittance : Uuid
  baseCurrency : CurrencyTag
  system : SystemId
  side : OrderSide
  market : CryptoMarket
  amount : ℕ
  executed : ℕ
  /-- More of it may be executed. -/
  isOpen : Bool
  le : executed ≤ amount
  deriving DecidableEq

def Placement.signed (p : Placement) : ℤ := p.side.signed p.executed

/-- What may still be executed. -/
def Placement.rest (p : Placement) : ℕ := if p.isOpen then p.amount - p.executed else 0

inductive Exception where
  | cryptoRemittanceGatewayNotFound (gatewayName : ProviderName)
  | providerNotFound (name : ProviderName)
  | cryptoMarketNotFound (baseCurrency quoteCurrency : Currency)
  | cryptoRemittanceNotPlaced (id : Uuid)
  | missingData (fields : List String)
  | orderAmountUnderflow (request : CreateCryptoRemittanceRequest)
  | orderAmountOverflow (request : CreateCryptoRemittanceRequest)
  | orderAmountNotSupported (request : CreateCryptoRemittanceRequest)
  | orderTypeNotSupported (type : OrderType)
  | orderSideNotSupported (side : OrderSide)
  | pairNotSupported (market : CryptoMarket)
  | gateway (message : String)
  deriving DecidableEq, Repr

/-- `CryptoRemittanceGateway`: what its subclass adds to `CreateCryptoRemittanceVerify`.  A call
that throws has placed nothing. -/
structure Gateway where
  providerName : ProviderName
  getCryptoMarketByBaseAndQuote : Currency → Currency → Option CryptoMarket
  isTypeSupported : OrderType → Bool
  isSideSupported : OrderSide → Bool
  isMarketEnabled : CryptoMarket → Bool
  place : (request : CreateCryptoRemittanceRequest) →
    Except Exception (CreateCryptoRemittanceResponse request.amount)

/-- `CreateCryptoRemittanceVerify.verify` of a market order, which has no price. -/
def Gateway.verify (g : Gateway) (request : CreateCryptoRemittanceRequest) :
    Except Exception Unit := do
  let ⟨_, baseCurrency, quoteCurrency, type, side, amount, market⟩ := request
  check (baseCurrency.symbol = "") (.missingData ["Base Currency"])
  check (quoteCurrency.symbol = "") (.missingData ["Quote Currency"])
  check (amount = 0) (.missingData ["Amount"])
  check (amount ≤ 0 ∨ ∃ m ∈ truthy market.minSize, amount < m) (.orderAmountUnderflow request)
  check (∃ m ∈ truthy market.maxSize, m < amount) (.orderAmountOverflow request)
  check (∃ i ∈ truthy market.sizeIncrement, amount % i ≠ 0) (.orderAmountNotSupported request)
  check (!g.isTypeSupported type) (.orderTypeNotSupported type)
  check (!g.isSideSupported side) (.orderSideNotSupported side)
  check (!g.isMarketEnabled market) (.pairNotSupported market)

def Gateway.createCryptoRemittance (g : Gateway) (request : CreateCryptoRemittanceRequest) :
    Except Exception (CreateCryptoRemittanceResponse request.amount) := do
  g.verify request
  g.place request

/-! ### The stores -/

inductive Event where
  | pendingCryptoOrder (id : Uuid)
  | confirmedCryptoOrder (id : Uuid)
  | cryptoRemittance (id : Uuid) (status : CryptoRemittanceStatus)
  deriving DecidableEq, Repr

structure World where
  cryptoOrders : Table CryptoOrder
  cryptoRemittances : Table CryptoRemittance
  /-- The providers that were written to conversions. -/
  conversions : List (Uuid × Option ProviderName)
  events : List Event
  exchange : List Placement

/-- What a sweep is answered while it takes one system. -/
structure Env where
  streamQuotation : Option StreamQuotation
  cryptoRemittanceGateways : List Gateway
  providers : List ProviderName

/-- The event is emitted after the row is created. -/
def World.create (order : Uuid → CryptoOrder) (w : World) : World :=
  let o := order (fresh (w.cryptoOrders.rows.map (·.id)))
  { w with
    cryptoOrders := (w.cryptoOrders.insert? o).getD w.cryptoOrders
    events := w.events ++ [.pendingCryptoOrder o.id] }

/-! ### `executeBySystem` -/

/-- The quotations that lead from the base currency on, in their order. -/
def orderQuotations (streamQuotations : List StreamPair) : ℕ → CurrencyTag → List StreamPair
  | 0, _ => []
  | n + 1, nextBaseCurrency =>
      match streamQuotations.find? (·.baseCurrency.symbol = nextBaseCurrency) with
      | none => []
      | some stream => stream :: orderQuotations streamQuotations n stream.quoteCurrency.symbol

/-- The quotation whose gateway takes the orders of a base currency. -/
def bestQuotation (found : StreamQuotation) (baseCurrency : CurrencyTag) : Option StreamPair :=
  let streamQuotations := found.composedBy.getD [found.toStreamPair]
  (orderQuotations streamQuotations streamQuotations.length baseCurrency).head?

def reconciled (reconciledId : Uuid) (o : CryptoOrder) : CryptoOrder :=
  { o with state := .RECONCILIED, reconciledId := some reconciledId }

/-- Orders that cancel are not sent. -/
def reconcile (orders : List CryptoOrder) (w : World) : World :=
  let reconciledId := fresh (w.cryptoOrders.rows.filterMap (·.reconciledId))
  { w with cryptoOrders := w.cryptoOrders.setAll (orders.map (reconciled reconciledId)) }

/-- The amount within the market's largest size, rounded down to its increment. -/
def sized (market : CryptoMarket) (amount : ℕ) : ℕ :=
  let amount := match truthy market.maxSize with
    | some maxSize => min maxSize amount
    | none => amount
  match truthy market.sizeIncrement with
  | some sizeIncrement => amount - amount % sizeIncrement
  | none => amount

/-- The request for an amount, its gateway and its provider; `none` when the amount is too small.
The check lets a zero pass where the market has no smallest size. -/
def request (env : Env) (amount : ℕ) (side : OrderSide) (streamQuotation : StreamPair)
    (id : Uuid) : Except Exception (Option (Gateway × CreateCryptoRemittanceRequest)) :=
  match env.cryptoRemittanceGateways.find? (·.providerName = streamQuotation.gatewayName) with
  | none => throw (.cryptoRemittanceGatewayNotFound streamQuotation.gatewayName)
  | some gateway =>
      if gateway.providerName ∉ env.providers then throw (.providerNotFound gateway.providerName)
      else
        match gateway.getCryptoMarketByBaseAndQuote streamQuotation.baseCurrency
          streamQuotation.quoteCurrency with
        | none =>
            throw (.cryptoMarketNotFound streamQuotation.baseCurrency streamQuotation.quoteCurrency)
        | some market =>
            let amount := sized market amount
            if amount < 0 ∨ ∃ m ∈ truthy market.minSize, m > amount then pure none
            else pure (some (gateway,
              ⟨id, streamQuotation.baseCurrency, streamQuotation.quoteCurrency, .MARKET, side,
                amount, market⟩))

/-- The remittance that is stored for an answer. -/
def remittanceOf (gateway : Gateway) (r : CreateCryptoRemittanceRequest)
    (created : CreateCryptoRemittanceResponse r.amount) : CryptoRemittance where
  id := r.id
  baseCurrency := r.baseCurrency
  quoteCurrency := r.quoteCurrency
  market := r.market
  amount := r.amount
  type := r.type
  side := r.side
  provider := gateway.providerName
  providerOrderId := created.providerOrderId
  status := created.status
  executedPrice := created.executedPrice
  executedAmount := created.executedQuantity.getD 0
  fee := created.fee.getD 0

/-- What the exchange holds after an answer. -/
def placementOf (system : SystemId) (r : CreateCryptoRemittanceRequest)
    (created : CreateCryptoRemittanceResponse r.amount) : Placement where
  remittance := r.id
  baseCurrency := r.baseCurrency.symbol
  system := system
  side := r.side
  market := r.market
  amount := r.amount
  executed := created.executedQuantity.getD 0
  isOpen := !created.final
  le := created.le

def placed (gateway : Gateway) (system : SystemId) (r : CreateCryptoRemittanceRequest)
    (created : CreateCryptoRemittanceResponse r.amount) (w : World) : World :=
  { w with
    cryptoRemittances :=
      (w.cryptoRemittances.insert? (remittanceOf gateway r created)).getD w.cryptoRemittances
    events := w.events ++ [.cryptoRemittance r.id created.status]
    exchange := w.exchange ++ [placementOf system r created] }

def processNaturalCryptoRemittance (env : Env) (amount : ℕ) (side : OrderSide)
    (streamQuotation : StreamPair) (system : SystemId) (w : World) :
    Except Exception (Option CryptoRemittance × World) := do
  match ← request env amount side streamQuotation
      (fresh (w.cryptoRemittances.rows.map (·.id))) with
  | none => return (none, w)
  | some (gateway, r) =>
      let created ← gateway.createCryptoRemittance r
      if created.status = .ERROR then throw (.cryptoRemittanceNotPlaced r.id)
      return (some (remittanceOf gateway r created), placed gateway system r created w)

def confirmed (cryptoRemittance : CryptoRemittance) (o : CryptoOrder) : CryptoOrder :=
  { o with
    state := .CONFIRMED
    cryptoRemittance := some cryptoRemittance.id
    provider := some cryptoRemittance.provider }

/-- What is left of the amount, to be executed later. -/
def remainingOrder (cryptoRemittance : CryptoRemittance) (streamQuotation : StreamPair)
    (side : OrderSide) (system : SystemId) (remaining : ℤ) (id : Uuid) : CryptoOrder :=
  ⟨id, streamQuotation.baseCurrency.symbol, remaining.natAbs, .MARKET, side, .PENDING, system,
    none, none, none, some cryptoRemittance.id, none, none⟩

/-- The next leg of a composed quotation. -/
def nextOrder (cryptoRemittance : CryptoRemittance) (streamQuotation : StreamPair)
    (side : OrderSide) (system : SystemId) (id : Uuid) : CryptoOrder :=
  ⟨id, streamQuotation.quoteCurrency.symbol, cryptoRemittance.executedAmount, .MARKET, side,
    .PENDING, system, none, none, none, none, some cryptoRemittance.id, none⟩

/-- The orders are confirmed with the remittance, and their conversions get its provider. -/
def confirmAll (orders : List CryptoOrder) (cryptoRemittance : CryptoRemittance) (w : World) :
    World :=
  let orders := orders.map (confirmed cryptoRemittance)
  { w with
    cryptoOrders := w.cryptoOrders.setAll orders
    conversions :=
      w.conversions ++ orders.filterMap fun o => o.conversion.map fun c => (c, o.provider)
    events := w.events ++ orders.map fun o => .confirmedCryptoOrder o.id }

/-- What follows an execution: the remaining order, the confirmed orders, the next order. -/
def settle (orders : List CryptoOrder) (cryptoRemittance : CryptoRemittance)
    (streamQuotation : StreamPair) (side : OrderSide) (system : SystemId) (amount : ℕ) (w : World) :
    World :=
  let remaining : ℤ := amount - cryptoRemittance.executedAmount
  let w := if remaining = 0 then w
    else w.create (remainingOrder cryptoRemittance streamQuotation side system remaining)
  let w := confirmAll orders cryptoRemittance w
  if streamQuotation.quoteCurrency.type = .CRYPTO then
    w.create (nextOrder cryptoRemittance streamQuotation side system)
  else w

def netAmount (orders : List CryptoOrder) : ℤ := orders.foldl (fun acc cur => acc + cur.signed) 0

def netSide (orders : List CryptoOrder) : OrderSide := if netAmount orders < 0 then .SELL else .BUY

/-- The quotation for the orders of a base currency, when there is one of a crypto currency. -/
def quotationFor (env : Env) (baseCurrency : CurrencyTag) : Option StreamPair := do
  let found ← env.streamQuotation
  let streamQuotation ← bestQuotation found baseCurrency
  if streamQuotation.baseCurrency.type = .FIAT then none else some streamQuotation

def executeBySystem (env : Env) (orders : List CryptoOrder) (baseCurrency : CurrencyTag)
    (system : SystemId) (w : World) : Except Exception World :=
  let side := netSide orders
  let amount := (netAmount orders).natAbs
  if netAmount orders = 0 then pure (reconcile orders w)
  else
    match quotationFor env baseCurrency with
    | none => pure w
    | some streamQuotation => do
        let (cryptoRemittance, w) ←
          processNaturalCryptoRemittance env amount side streamQuotation system w
        match cryptoRemittance with
        | none => return w
        | some r =>
            if r.executedAmount = 0 then return w
            return settle orders r streamQuotation side system amount w

/-! ### Sweeps -/

/-- The systems that orders are taken for: rows of a table. -/
structure Systems where
  ids : List SystemId
  nodup : ids.Nodup

/-- A run that has read its orders and has these systems left. -/
structure Sweep where
  orders : List CryptoOrder
  systems : List SystemId

structure State where
  world : World
  sweeps : CurrencyTag → Option Sweep

inductive Command where
  /-- Another use case creates an order. -/
  | create (o : CryptoOrder)
  | begin (baseCurrency : CurrencyTag)
  /-- The sweep of the currency takes its next system. -/
  | next (baseCurrency : CurrencyTag) (env : Env)
  /-- The exchange executes more of an order it holds. -/
  | execute (i : ℕ) (quantity : ℕ)

/-- `getAllWithConversionByBaseCurrencyAndStateAndType`, of pending market orders. -/
def pendingOrders (baseCurrency : CurrencyTag) (w : World) : List CryptoOrder :=
  w.cryptoOrders.rows.filter fun o =>
    o.baseCurrency = baseCurrency ∧ o.state = .PENDING ∧ o.type = .MARKET

/-- Other use cases create pending orders, with no links. -/
def created (o : CryptoOrder) : CryptoOrder :=
  { o with
    state := .PENDING
    cryptoRemittance := none
    remainingCryptoRemittance := none
    previousCryptoRemittance := none
    reconciledId := none }

/-- A part of what is left is executed. -/
def Placement.execute (quantity : ℕ) (p : Placement) : Placement :=
  { p with
    executed := p.executed + min quantity p.rest
    le := by
      have h := p.le
      rw [Placement.rest]
      split <;> omega }

def ordersBySystem (orders : List CryptoOrder) (system : SystemId) : List CryptoOrder :=
  orders.filter (·.system = system)

def step (systems : Systems) (s : State) : Command → State
  | .create o =>
      { s with
        world.cryptoOrders :=
          (s.world.cryptoOrders.insert? (created o)).getD s.world.cryptoOrders }
  | .begin baseCurrency =>
      match s.sweeps baseCurrency, pendingOrders baseCurrency s.world with
      | none, o :: os =>
          { s with sweeps := Function.update s.sweeps baseCurrency (some ⟨o :: os, systems.ids⟩) }
      | _, _ => s
  | .next baseCurrency env =>
      match s.sweeps baseCurrency with
      | none => s
      | some ⟨_, []⟩ => { s with sweeps := Function.update s.sweeps baseCurrency none }
      | some ⟨orders, system :: rest⟩ =>
          if (ordersBySystem orders system).isEmpty then
            { s with sweeps := Function.update s.sweeps baseCurrency (some ⟨orders, rest⟩) }
          else
            match executeBySystem env (ordersBySystem orders system) baseCurrency system s.world with
            | .ok w => ⟨w, Function.update s.sweeps baseCurrency (some ⟨orders, rest⟩)⟩
            | .error _ => { s with sweeps := Function.update s.sweeps baseCurrency none }
  | .execute i quantity =>
      { s with world.exchange := s.world.exchange.modify i (Placement.execute quantity) }

end ZroServices.Otc.CryptoOrders
