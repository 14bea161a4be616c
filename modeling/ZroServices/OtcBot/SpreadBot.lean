import Mathlib.Data.List.Infix
import Mathlib.Data.Rat.Floor
import ZroServices.OtcBot.Domain

/-!
# OTC bot — the spread bot

`runSpreadBot` places a sell order of the bot at the exchange, takes its amount from the bot's
balance and stores it PENDING.  `handlePendingBotOtcOrder` reads what the exchange executed, deletes
what is left there, and either stores the order SOLD or throws it away and gives its amount back.

The exchange executes any part of an order until it is closed: filled, canceled or deleted.
-/

namespace ZroServices.OtcBot

open Foundation

/-! ### The exchange -/

namespace Placement

variable (p : Placement)

/-- What may still be executed. -/
def rest : ℕ := if p.isOpen then p.amount - p.executed else 0

/-- The exchange executes a quantity, or what there is left of it. -/
def execute (quantity : ℕ) : Placement := { p with executed := p.executed + min quantity p.rest }

def close : Placement := { p with isOpen := false }

/-- What the exchange reports; `waiting` is its choice for an order that is not closed. -/
def status (waiting : Bool) : CryptoRemittanceStatus :=
  if p.executed = p.amount then .FILLED
  else if p.isOpen then if waiting then .WAITING else .PENDING
  else .CANCELED

end Placement

/-- `ProviderOrderId` of the exchange's next order. -/
def World.nextProviderOrderId (w : World) : ProviderOrderId :=
  fresh (w.exchange.rows.map Placement.providerOrderId)

/-- The exchange executes a quantity of an order. -/
def World.execute (w : World) (id : ProviderOrderId) (quantity : ℕ) : World :=
  match w.exchange.get? id with
  | none => w
  | some p => { w with exchange := w.exchange.set (p.execute quantity) }

/-- The exchange closes an order. -/
def World.cancel (w : World) (id : ProviderOrderId) : World :=
  match w.exchange.get? id with
  | none => w
  | some p => { w with exchange := w.exchange.set p.close }

/-! ### A pending order -/

/-- What the exchange does and answers while a pending order is handled. -/
structure PendingServices where
  cryptoRemittanceGateways : List ProviderName
  /-- The status of an open order, and the price; or it throws. -/
  getCryptoRemittanceById : Except Exception (Bool × Option ℕ)
  /-- Executed after that is read. -/
  meanwhile : ℕ
  deleteCryptoRemittanceById : Fate Exception
  /-- The answer to the deletion of an order of which nothing is left has an id, too. -/
  deletesClosed : Bool

/-- The exchange deletes an order. -/
def deleteCryptoRemittanceById (services : PendingServices) (order : BotOtcOrder) : App Unit :=
  remote services.deleteCryptoRemittanceById fun w =>
    match w.exchange.get? order.sellProviderOrderId with
    | none => .error (.botOtcOrderSellOrderNotDeleted order.id)
    | some p =>
        match decide (0 < p.rest) || services.deletesClosed with
        | true => .ok (w.cancel order.sellProviderOrderId)
        | false => .error (.botOtcOrderSellOrderNotDeleted order.id)

/-- An order that was not filled is deleted at the exchange. -/
def deleteRest (services : PendingServices) (order : BotOtcOrder)
    (status : CryptoRemittanceStatus) (executed : ℕ) : App Unit :=
  if status = .PENDING ∨ status = .WAITING ∨ executed < order.amount then
    deleteCryptoRemittanceById services order
  else pure ()

/-- `HandlePendingBotOtcOrderUseCase`. -/
def handlePendingBotOtcOrder (services : PendingServices) (id : Uuid) : App Unit := do
  let w ← get
  let order ← orThrow (w.botOtcOrders.get? id) (.botOtcOrderNotFound id)
  throwIf (order.state ≠ .PENDING) (.botOtcOrderInvalidState id)
  throwIf (order.sellProviderName ∉ services.cryptoRemittanceGateways)
    (.botOtcOrderConfigurationFailed ["To gateway not available"])
  let (waiting, executedPrice) ← call services.getCryptoRemittanceById
  let placement ← orThrow (w.exchange.get? order.sellProviderOrderId)
    (.botOtcOrderSellOrderNotFound id)
  modify fun w => w.execute order.sellProviderOrderId services.meanwhile
  let status := placement.status waiting
  let order : BotOtcOrder :=
    { order with
      sellExecutedPrice := executedPrice
      sellExecutedAmount := some placement.executed
      sellStatus := status }
  deleteRest services order status placement.executed
  let bot ← orThrow (w.botOtcs.get? order.botOtc) (.botOtcNotFound order.botOtc)
  if status ≠ .FILLED then do
    modify fun w => { w with botOtcOrders := w.botOtcOrders.filter fun o => o.id ≠ order.id }
    updateBotOtc { bot with balance := bot.balance + order.amount }
  else
    updateBotOtcOrder { order with state := .SOLD }

/-! ### The bot -/

structure StreamPair where
  baseCurrency : String
  quoteCurrency : String
  gatewayName : String
  active : Bool

/-- How the exchange ends the call that places an order. -/
inductive Placing where
  /-- The order is placed, a part of it executed at once, and the rest open or not. -/
  | placed (executed : ℕ) (isOpen waiting : Bool)
  /-- The answer is empty, or its status is ERROR. -/
  | rejected
  | refused (e : Exception)
  /-- As placed, but the answer does not come back. -/
  | lost (e : Exception) (executed : ℕ) (isOpen : Bool)

/-- What the other services and the exchange answer to the bot. -/
structure RunServices where
  getStreamPairById : Uuid → Except Exception (Option StreamPair)
  getProviderById : Uuid → Except Exception (Option ProviderName)
  cryptoRemittanceGateways : List ProviderName
  getCurrencyBySymbol : String → Except Exception (Option Currency)
  /-- The buy price. -/
  getStreamQuotation : Except Exception (Option ℚ)
  getCryptoMarketByBaseAndQuote : Except Exception (Option CryptoMarket)
  now : ℤ
  createCryptoRemittance : Placing

/-- `formatValueFromFloatToInt`. -/
def formatValueFromFloatToInt (value : ℚ) (decimals : ℕ) : ℤ := ⌊1 / 2 + value * 10 ^ decimals⌋

/-- The bot's sell order, before it is placed. -/
structure SellOrder where
  baseCurrency : Currency
  quoteCurrency : Currency
  market : CryptoMarket
  amount : ℕ
  price : ℤ
  validUntil : Option ℤ
  provider : Uuid
  providerName : ProviderName

/-- The row of a sell order that the exchange took. -/
def SellOrder.botOtcOrder (sellOrder : SellOrder) (id botOtc : Uuid)
    (providerOrderId : ProviderOrderId) (status : CryptoRemittanceStatus) : BotOtcOrder where
  id := id
  botOtc := botOtc
  state := .PENDING
  baseCurrency := sellOrder.baseCurrency
  quoteCurrency := sellOrder.quoteCurrency
  market := sellOrder.market
  amount := sellOrder.amount
  type := .LIMIT
  sellStatus := status
  sellPrice := sellOrder.price
  sellStopPrice := none
  sellValidUntil := sellOrder.validUntil
  sellProvider := sellOrder.provider
  sellProviderOrderId := providerOrderId
  sellProviderName := sellOrder.providerName
  sellExecutedPrice := none
  sellExecutedAmount := none
  sellOrder := none
  buyOrder := none

/-- The amount of a sell order: the bot's step, within the market's sizes. -/
def CryptoMarket.amount (market : CryptoMarket) (step : ℕ) : ℕ :=
  let amount := match truthy market.maxSize with
    | some maxSize => min maxSize step
    | none => step
  match truthy market.sizeIncrement with
  | some sizeIncrement => amount - amount % sizeIncrement
  | none => amount

/-- The price of a sell order, within the market's increments. -/
def CryptoMarket.price (market : CryptoMarket) (price : ℚ) : ℤ :=
  let toPrice := formatValueFromFloatToInt price (market.priceSignificantDigits.getD 0)
  match truthy market.priceIncrement with
  | some priceIncrement => toPrice - toPrice.tmod priceIncrement
  | none => toPrice

/-- A notional that is missing or zero is no limit. -/
def truthyNotional (notional : Option ℚ) : Option ℚ := notional.filter (· ≠ 0)

def CryptoMarket.checkNotional (market : CryptoMarket) (price : ℤ) (amount : ℕ) :
    Except Exception Unit :=
  let notional : ℚ := price * (amount / 10 ^ market.baseDecimal)
  check ((∃ m ∈ truthyNotional market.minNotional, notional < m) ∨
      ∃ m ∈ truthyNotional market.maxNotional, m < notional)
    (.cryptoRemittanceInvalidNotional notional)

section

variable (services : RunServices)

/-- The pair and the gateway of one side of the bot. -/
def findPair (pair : Uuid) : Except Exception StreamPair := do
  match ← services.getStreamPairById pair with
  | none => .error (.streamPairNotFound pair)
  | some found => return found

/-- The provider of one side of the bot, which has a gateway. -/
def findProvider (provider : Uuid) (reason : String) : Except Exception ProviderName := do
  match ← services.getProviderById provider with
  | none => .error (.providerNotFound provider)
  | some name => do
      check (name ∉ services.cryptoRemittanceGateways) (.botOtcConfigurationFailed [reason])
      return name

def findCurrency (symbol : String) : Except Exception Currency := do
  match ← services.getCurrencyBySymbol symbol with
  | none => .error (.currencyNotFound symbol)
  | some currency => return currency

/-- The order that a bot places; none when there is no quotation. -/
def prepareSellOrder (bot : BotOtc) : Except Exception (Option SellOrder) := do
  let fromPair ← findPair services bot.fromPair
  let toPair ← findPair services bot.toPair
  let fromProvider ← findProvider services bot.fromProvider "From Gateway Not Found"
  let toProvider ← findProvider services bot.toProvider "To Gateway Not Found"
  check (¬ fromProvider.toList <:+: fromPair.gatewayName.toList)
    (.botOtcConfigurationFailed ["From Stream Pair gateway name diverges From Provider name"])
  check (¬ toProvider.toList <:+: toPair.gatewayName.toList)
    (.botOtcConfigurationFailed ["To Stream Pair gateway name diverges To Provider name"])
  check (¬ fromPair.active) (.botOtcConfigurationFailed ["From Stream Pair Is Not Active"])
  check (¬ toPair.active) (.botOtcConfigurationFailed ["To Stream Pair Is Not Active"])
  let _ ← findCurrency services fromPair.baseCurrency
  let _ ← findCurrency services fromPair.quoteCurrency
  let toBaseCurrency ← findCurrency services toPair.baseCurrency
  let toQuoteCurrency ← findCurrency services toPair.quoteCurrency
  match (← services.getStreamQuotation).filter (· ≠ 0) with
  | none => return none
  | some buy => do
      match ← services.getCryptoMarketByBaseAndQuote with
      | none => .error (.cryptoMarketNotFound toBaseCurrency toQuoteCurrency)
      | some market => do
          let price := market.price (buy * (1 + bot.spreadFloat))
          let amount := market.amount bot.step
          check (amount = 0 ∨ ∃ m ∈ truthy market.minSize, amount < m)
            (.cryptoRemittanceAmountUnderflow amount)
          market.checkNotional price amount
          return some
            { baseCurrency := toBaseCurrency
              quoteCurrency := toQuoteCurrency
              market
              amount
              price
              validUntil := if market.requireValidUntil then some (services.now + 300000) else none
              provider := bot.toProvider
              providerName := toProvider }

end

/-- `createCryptoRemittance` of the gateway: the answer, when there is one, is the order and its
status. -/
def placeSellOrder (placing : Placing) (bot : Uuid) (amount : ℕ) :
    App (Option (ProviderOrderId × CryptoRemittanceStatus)) := do
  let w ← get
  let place (executed : ℕ) (isOpen : Bool) : Placement :=
    ⟨w.nextProviderOrderId, bot, amount, min executed amount, isOpen⟩
  match placing with
  | .placed executed isOpen waiting => do
      modify fun w => { w with exchange := w.exchange.upsert (place executed isOpen) }
      return some (w.nextProviderOrderId, (place executed isOpen).status waiting)
  | .rejected => return none
  | .refused e => throw e
  | .lost e executed isOpen => do
      modify fun w => { w with exchange := w.exchange.upsert (place executed isOpen) }
      throw e

/-- `RunSpreadBotUseCase`. -/
def runSpreadBot (services : RunServices) (id : Uuid) : App Unit := do
  let w ← get
  let bot ← orThrow (w.botOtcs.get? id) (.botOtcNotFound id)
  if bot.balance ≤ 0 ∨ bot.balance < bot.step then return
  if bot.shouldStop then return
  if ∃ o ∈ w.botOtcOrders.rows, o.botOtc = id ∧ (o.state = .PENDING ∨ o.state = .SOLD) then return
  match ← call (prepareSellOrder services bot) with
  | none => return
  | some sellOrder => do
      match ← placeSellOrder services.createCryptoRemittance id sellOrder.amount with
      | none => return
      | some (providerOrderId, status) =>
          if status = .CANCELED then return
          updateBotOtc { bot with balance := bot.balance - sellOrder.amount }
          modify fun w => { w with
            botOtcOrders := w.botOtcOrders.upsert
              (sellOrder.botOtcOrder w.uuidV4 id providerOrderId status) }

end ZroServices.OtcBot
