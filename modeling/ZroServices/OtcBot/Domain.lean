import Mathlib.Data.Rat.Defs
import ZroServices.Foundation.Remote
import ZroServices.Otc.SyncMarketPending

/-!
# OTC bot — bots and their orders

A bot sells a currency at an exchange by limit orders and buys it back in the OTC service.  Its
order is PENDING while the exchange holds it, SOLD once the exchange filled it, and FILLED once the
sale is booked in the OTC service and the buy order is there.

`World` holds the rows of the bot service, those that the OTC service created for the bots, and what
the exchange holds.  The OTC service does not know the bot order of its rows; the tag is known here
only.
-/

namespace ZroServices.OtcBot

open Foundation
export Otc (Uuid)
export Otc.CryptoOrders (Currency OrderSide OrderType CryptoOrderState CryptoRemittanceStatus
  SystemId ProviderName truthy)

inductive BotOtcControl where
  | STAND_BY
  | START
  | STOP
  deriving DecidableEq, Repr

inductive BotOtcStatus where
  | STOPPING
  | STOPPED
  | RUNNING
  | ERROR
  deriving DecidableEq, Repr

structure BotOtc where
  id : Uuid
  name : String
  fromPair : Uuid
  fromProvider : Uuid
  toPair : Uuid
  toProvider : Uuid
  /-- In basis points. -/
  spread : ℕ
  balance : ℤ
  step : ℕ
  control : BotOtcControl
  status : BotOtcStatus
  failedCode : Option String
  failedMessage : Option String
  deriving DecidableEq, Repr

instance : Keyed BotOtc Uuid := ⟨BotOtc.id⟩

def BotOtc.spreadFloat (bot : BotOtc) : ℚ := bot.spread / 10 ^ 4

def BotOtc.isRunning (bot : BotOtc) : Prop := bot.status = .RUNNING

def BotOtc.isStoping (bot : BotOtc) : Prop := bot.status = .STOPPING

def BotOtc.shouldStart (bot : BotOtc) : Prop :=
  bot.control = .START ∧ (bot.status = .STOPPED ∨ bot.status = .ERROR)

def BotOtc.shouldStop (bot : BotOtc) : Prop :=
  bot.control = .STOP ∧ (bot.status = .RUNNING ∨ bot.status = .ERROR)

instance (bot : BotOtc) : Decidable bot.isRunning := inferInstanceAs (Decidable (_ = _))

instance (bot : BotOtc) : Decidable bot.isStoping := inferInstanceAs (Decidable (_ = _))

instance (bot : BotOtc) : Decidable bot.shouldStart := inferInstanceAs (Decidable (_ ∧ _))

instance (bot : BotOtc) : Decidable bot.shouldStop := inferInstanceAs (Decidable (_ ∧ _))

inductive BotOtcOrderState where
  | PENDING
  | SOLD
  | COMPLETED
  | ERROR
  | FILLED
  deriving DecidableEq, Repr

structure CryptoMarket where
  name : String
  /-- Of the base currency. -/
  baseDecimal : ℕ
  requireValidUntil : Bool
  minSize : Option ℕ
  maxSize : Option ℕ
  sizeIncrement : Option ℕ
  priceIncrement : Option ℕ
  priceSignificantDigits : Option ℕ
  minNotional : Option ℚ
  maxNotional : Option ℚ
  deriving DecidableEq, Repr

abbrev ProviderOrderId := ℕ

structure BotOtcOrder where
  id : Uuid
  botOtc : Uuid
  state : BotOtcOrderState
  baseCurrency : Currency
  quoteCurrency : Currency
  market : CryptoMarket
  amount : ℕ
  type : OrderType
  sellStatus : CryptoRemittanceStatus
  sellPrice : ℤ
  sellStopPrice : Option ℕ
  sellValidUntil : Option ℤ
  sellProvider : Uuid
  sellProviderOrderId : ProviderOrderId
  sellProviderName : ProviderName
  sellExecutedPrice : Option ℕ
  sellExecutedAmount : Option ℕ
  sellOrder : Option Uuid
  buyOrder : Option Uuid
  deriving DecidableEq, Repr

instance : Keyed BotOtcOrder Uuid := ⟨BotOtcOrder.id⟩

/-! ### The OTC service -/

/-- A missing amount is refused as 0 is. -/
structure CreateCryptoRemittanceServiceRequest where
  id : Uuid
  baseCurrency : Currency
  quoteCurrency : Currency
  market : CryptoMarket
  amount : ℕ
  type : OrderType
  side : OrderSide
  price : ℤ
  stopPrice : Option ℕ
  validUntil : Option ℤ
  provider : Uuid
  providerOrderId : ProviderOrderId
  providerName : ProviderName
  status : CryptoRemittanceStatus
  executedPrice : Option ℕ
  executedAmount : ℕ
  deriving DecidableEq, Repr

structure CreateCryptoOrderServiceRequest where
  id : Uuid
  baseCurrency : Currency
  amount : ℕ
  type : OrderType
  side : OrderSide
  state : CryptoOrderState
  system : SystemId
  provider : Option Uuid
  cryptoRemittance : Option Uuid
  deriving DecidableEq, Repr

/-- A row that the OTC service created for an order of a bot. -/
structure Created (ρ : Type) where
  botOtc : Uuid
  botOtcOrder : Uuid
  row : ρ
  deriving DecidableEq, Repr

/-! ### The exchange -/

/-- A sell order of a bot at the exchange. -/
structure Placement where
  providerOrderId : ProviderOrderId
  botOtc : Uuid
  amount : ℕ
  executed : ℕ
  /-- More of it may be executed. -/
  isOpen : Bool
  deriving DecidableEq, Repr

instance : Keyed Placement ProviderOrderId := ⟨Placement.providerOrderId⟩

/-! ### The stores -/

structure World where
  botOtcs : Table BotOtc
  botOtcOrders : Table BotOtcOrder
  cryptoRemittances : List (Created CreateCryptoRemittanceServiceRequest)
  cryptoOrders : List (Created CreateCryptoOrderServiceRequest)
  exchange : Table Placement

inductive Exception where
  | missingData (fields : List String)
  | botOtcNotFound (id : Uuid)
  | botOtcConfigurationFailed (reasons : List String)
  | botOtcOrderNotFound (id : Uuid)
  | botOtcOrderInvalidState (id : Uuid)
  | botOtcOrderConfigurationFailed (reasons : List String)
  | botOtcOrderSellOrderNotFound (id : Uuid)
  | botOtcOrderSellOrderNotDeleted (id : Uuid)
  | streamPairNotFound (id : Uuid)
  | providerNotFound (id : Uuid)
  | currencyNotFound (symbol : String)
  | cryptoMarketNotFound (baseCurrency quoteCurrency : Currency)
  | cryptoRemittanceAmountUnderflow (amount : ℤ)
  | cryptoRemittanceInvalidNotional (notional : ℚ)
  | service (message : String)
  deriving DecidableEq, Repr

abbrev App := EStateM Exception World

/-- The rows of before; what the other services did stays. -/
def World.rollback (before after : World) : World :=
  { after with botOtcs := before.botOtcs, botOtcOrders := before.botOtcOrders }

/-- A new identifier. -/
def World.uuidV4 (w : World) : Uuid :=
  fresh (((w.botOtcOrders.rows.map BotOtcOrder.id ++ w.cryptoOrders.map (·.botOtcOrder)) ++
    w.cryptoRemittances.map (·.row.id)) ++ w.cryptoOrders.map (·.row.id))

/-- `BotOtcRepository.update`. -/
def updateBotOtc (bot : BotOtc) : App Unit :=
  modify fun w => { w with botOtcs := w.botOtcs.set bot }

/-- `BotOtcOrderRepository.update`. -/
def updateBotOtcOrder (order : BotOtcOrder) : App Unit :=
  modify fun w => { w with botOtcOrders := w.botOtcOrders.set order }

/-- `CreateCryptoRemittanceUseCase` of the OTC service: a remittance that is there is returned. -/
def createCryptoRemittance (fate : Fate Exception)
    (request : Created CreateCryptoRemittanceServiceRequest) : App Unit :=
  remote fate fun w => do
    check (request.row.amount = 0) (.missingData ["Amount"])
    match w.cryptoRemittances.find? fun x => x.row.id = request.row.id with
    | some _ => return w
    | none => return { w with cryptoRemittances := w.cryptoRemittances ++ [request] }

/-- `CreateCryptoOrderUseCase` of the OTC service: an order that is there is returned. -/
def createCryptoOrder (fate : Fate Exception)
    (request : Created CreateCryptoOrderServiceRequest) : App Unit :=
  remote fate fun w => do
    check (request.row.amount = 0) (.missingData ["Amount"])
    match w.cryptoOrders.find? fun x => x.row.id = request.row.id with
    | some _ => return w
    | none => return { w with cryptoOrders := w.cryptoOrders ++ [request] }

/-! ### The sold event -/

/-- How the calls of the OTC service end. -/
structure SoldServices where
  createCryptoRemittance : Fate Exception
  createSellCryptoOrder : Fate Exception
  createBuyCryptoOrder : Fate Exception

namespace BotOtcOrder

variable (order : BotOtcOrder)

/-- The sale, as the exchange executed it. -/
def sellCryptoRemittance (id : Uuid) : CreateCryptoRemittanceServiceRequest where
  id := id
  baseCurrency := order.baseCurrency
  quoteCurrency := order.quoteCurrency
  market := order.market
  amount := order.sellExecutedAmount.getD 0
  type := .LIMIT
  side := .SELL
  price := order.sellPrice
  stopPrice := order.sellStopPrice
  validUntil := order.sellValidUntil
  provider := order.sellProvider
  providerOrderId := order.sellProviderOrderId
  providerName := order.sellProviderName
  status := .FILLED
  executedPrice := order.sellExecutedPrice
  executedAmount := order.sellExecutedAmount.getD 0

def sellCryptoOrder (system : SystemId) (id cryptoRemittance : Uuid) :
    CreateCryptoOrderServiceRequest where
  id := id
  baseCurrency := order.baseCurrency
  amount := order.sellExecutedAmount.getD 0
  type := .LIMIT
  side := .SELL
  state := .CONFIRMED
  system := system
  provider := some order.sellProvider
  cryptoRemittance := some cryptoRemittance

/-- What was sold is to be bought back. -/
def buyCryptoOrder (system : SystemId) (id : Uuid) : CreateCryptoOrderServiceRequest where
  id := id
  baseCurrency := order.baseCurrency
  amount := order.sellExecutedAmount.getD 0
  type := .MARKET
  side := .BUY
  state := .PENDING
  system := system
  provider := none
  cryptoRemittance := none

end BotOtcOrder

/-- `HandleSoldBotOtcOrderUseCase`. -/
def handleSoldBotOtcOrder (services : SoldServices) (system : SystemId) (id : Uuid) : App Unit := do
  let w ← get
  let order ← orThrow (w.botOtcOrders.get? id) (.botOtcOrderNotFound id)
  match order.state with
  | .FILLED => return
  | .SOLD => do
      let remittance := order.sellCryptoRemittance w.uuidV4
      createCryptoRemittance services.createCryptoRemittance ⟨order.botOtc, id, remittance⟩
      let w ← get
      let sellOrder := order.sellCryptoOrder system w.uuidV4 remittance.id
      createCryptoOrder services.createSellCryptoOrder ⟨order.botOtc, id, sellOrder⟩
      let w ← get
      let buyOrder := order.buyCryptoOrder system w.uuidV4
      createCryptoOrder services.createBuyCryptoOrder ⟨order.botOtc, id, buyOrder⟩
      updateBotOtcOrder
        { order with sellOrder := some sellOrder.id, buyOrder := some buyOrder.id, state := .FILLED }
  | _ => throw (.botOtcOrderInvalidState id)

end ZroServices.OtcBot
