import Mathlib.Data.Rat.Floor
import ZroServices.Otc.SyncMarketPending
import ZroServices.Quotations.StreamQuotation

/-!
# Quotations — a quotation for a user

A user asks what an amount costs: in the currency of the quotation, or in the one that is bought or
sold.  `GetQuotationUseCase` takes the middle price of the stream quotation, the spreads of the user
and the tax, computes what each side is charged, and rounds every number of the result on its own.
-/

namespace ZroServices.Quotations

open Foundation
open Otc.CryptoOrders (OrderSide)

abbrev Uuid := ℕ

/-! ### Numbers -/

/-- `formatValueFromFloatToInt`; a quotient by zero gives 0. -/
def formatValueFromFloatToInt (value : ℚ) (decimals : ℕ) : ℤ := ⌊1 / 2 + value * 10 ^ decimals⌋

theorem format_eq (x : ℚ) (d : ℕ) : formatValueFromFloatToInt x d = round (x * 10 ^ d) := by
  rw [formatValueFromFloatToInt, round_eq, add_comm]

/-- `formatValueFromIntToFloat`. -/
def formatValueFromIntToFloat (value : ℤ) (decimals : ℕ) : ℚ := value / 10 ^ decimals

/-- `BPS_DECIMAL`: 1% is 100 bps. -/
def bpsDecimal : ℕ := 4

/-! ### Entities -/

structure Spread where
  id : Uuid
  currency : Currency
  buy : ℤ
  sell : ℤ
  offMarketBuy : Option ℤ
  offMarketSell : Option ℤ
  offMarketTimeStart : Option String
  offMarketTimeEnd : Option String
  deriving DecidableEq

/-- The times of an interval, when both are there and valid. -/
def Spread.hasOffMarketInterval (spread : Spread) : Option (ℕ × ℕ) := do
  let start ← spread.offMarketTimeStart.bind hourTime
  let stop ← spread.offMarketTimeEnd.bind hourTime
  return (start, stop)

/-- Whether a moment is on a weekend or in the interval; `now` is the clock. -/
def Spread.isInOffMarketInterval (serverOffset now base : ℤ) (spread : Spread) : Bool :=
  -- 1 January 1970 was a Thursday.
  if (localDay base + 4) % 7 ∈ ([0, 6] : List ℤ) then true
  else
    match spread.hasOffMarketInterval with
    | none => false
    | some (startMinute, endMinute) =>
        let start := momentOfDay serverOffset now startMinute
        let stop := momentOfDay serverOffset now endMinute
        let stop := if stop < start then stop + msPerDay else stop
        let back := if base < start then msPerDay else 0
        decide (start - back < base ∧ base < stop - back)

/-- A value that is null counts as 0. -/
structure Tax where
  name : String
  value : Option ℤ
  deriving DecidableEq, Repr

def Tax.valueFloat (tax : Tax) : ℚ := formatValueFromIntToFloat (tax.value.getD 0) bpsDecimal

/-- The numbers of a quotation. -/
structure Amounts (α : Type) where
  iofAmount : α
  spreadAmountBuy : α
  spreadAmountSell : α
  partialBuy : α
  partialSell : α
  price : α
  priceBuy : α
  priceSell : α
  baseAmountBuy : α
  baseAmountSell : α
  quoteAmountBuy : α
  quoteAmountSell : α
  deriving DecidableEq, Repr

structure Quotation extends Amounts ℤ where
  id : Uuid
  streamQuotation : StreamQuotation
  provider : String
  side : OrderSide
  iof : Tax
  spreads : List Spread
  spreadBuy : ℤ
  spreadSell : ℤ
  quoteCurrency : Currency
  baseCurrency : Currency

inductive Exception where
  | missingData (fields : List String)
  | streamQuotationNotFound (baseCurrency quoteCurrency : String)
  | spreadNotFound (user : Uuid) (currency : Currency)
  | taxNotFound (name : String)
  | quotationAmountUnderMinAmount (quotation : Quotation)
  | forbidden
  | quotationNotFound (id : Uuid)
  | userNotFound (id : Uuid)
  | onboardingNotFound (user : Uuid)
  | currencyNotFound (symbol : String)
  | walletAccountNotFound (currency : Currency) (wallet : Uuid)
  | walletAccountNotActive (currency : Currency) (wallet : Uuid)
  | notIterable
  | service (message : String)

/-! ### What is asked, and what is looked up -/

structure GetQuotationRequest where
  user : Option Uuid
  amount : ℤ
  /-- Symbols. -/
  amountCurrency : Option String
  baseCurrency : Option String
  side : Option OrderSide

def GetQuotationRequest.missing (request : GetQuotationRequest) : List String :=
  (if request.user = none then ["User"] else []) ++
    (if request.amount = 0 then ["Amount"] else []) ++
    (if request.amountCurrency = none then ["Amount currency"] else []) ++
    (if request.baseCurrency = none then ["Base currency"] else []) ++
    if request.side = none then ["Side"] else []

structure QuotationSources where
  operationCurrencySymbol : String
  otcTaxIofName : String
  serverOffset : ℤ
  now : ℤ
  streamPairs : List StreamPair
  streamQuotations : Cache
  getSpreadsByUserAndCurrencies : Uuid → List Currency → List Spread
  getTaxByName : String → Option Tax
  getHolidayByDate : ℤ → Bool

/-- What a quotation is computed from. -/
structure Found where
  streamQuotation : StreamQuotation
  spreads : List Spread
  spreadBuy : ℤ
  spreadSell : ℤ
  iof : Tax

/-- The average price between buy and sell. -/
def Found.price (found : Found) : ℚ :=
  (found.streamQuotation.buy + found.streamQuotation.sell) / 2

def Found.buyFloat (found : Found) : ℚ := formatValueFromIntToFloat found.spreadBuy bpsDecimal

def Found.sellFloat (found : Found) : ℚ := formatValueFromIntToFloat found.spreadSell bpsDecimal

/-- Whether the amount is one of the currency of the quotation; any other currency is taken for the
one that is bought or sold. -/
def Found.inQuote (found : Found) (amountCurrency : String) : Bool :=
  amountCurrency = found.streamQuotation.quoteCurrency.symbol

namespace GetQuotationUseCase

variable (src : QuotationSources)

/-- The quotation of the gateway with the first priority. -/
def streamQuotationFound (baseCurrency : String) : Option StreamQuotation :=
  let streamQuotationsFound := src.streamPairs.filterMap fun activeStreamPair =>
    src.streamQuotations.quotations
      (cacheKey baseCurrency src.operationCurrencySymbol activeStreamPair.gatewayName)
  (streamQuotationsFound.insertionSort fun a b =>
    a.streamPair.priority ≤ b.streamPair.priority).head?

/-- `getComposedSpread`: the spreads compounded, with the values for off market where the market is
closed. -/
def getComposedSpread (spreads : List Spread) : ℤ × ℤ :=
  let now := src.now - src.now % 60000
  let isHoliday := src.getHolidayByDate (startOf .day now)
  let rate (value : ℤ) := 1 + formatValueFromIntToFloat value bpsDecimal
  let isOffMarket (spread : Spread) :=
    isHoliday || spread.isInOffMarketInterval src.serverOffset src.now now
  let buyFloat := (spreads.map fun spread =>
    rate (if isOffMarket spread then spread.offMarketBuy.getD spread.buy else spread.buy)).prod
  let sellFloat := (spreads.map fun spread =>
    rate (if isOffMarket spread then spread.offMarketSell.getD spread.sell else spread.sell)).prod
  (formatValueFromFloatToInt (buyFloat - 1) bpsDecimal,
    formatValueFromFloatToInt (sellFloat - 1) bpsDecimal)

/-- The first half of `execute`. -/
def lookUp (user : Uuid) (baseCurrency : String) : Except Exception Found :=
  match streamQuotationFound src baseCurrency with
  | none => .error (.streamQuotationNotFound baseCurrency src.operationCurrencySymbol)
  | some streamQuotation =>
      let composedBy := streamQuotation.composedBy.getD [streamQuotation.toQuoted]
      let spreads := src.getSpreadsByUserAndCurrencies user (composedBy.map (·.baseCurrency))
      if spreads = [] then .error (.spreadNotFound user streamQuotation.baseCurrency)
      else
        match src.getTaxByName src.otcTaxIofName with
        | none => .error (.taxNotFound src.otcTaxIofName)
        | some iof =>
            let totalSpread := getComposedSpread src spreads
            -- A spread without values for off market is given the others.
            let spreads := spreads.map fun spread =>
              { spread with
                offMarketBuy := some (spread.offMarketBuy.getD spread.buy)
                offMarketSell := some (spread.offMarketSell.getD spread.sell) }
            .ok ⟨streamQuotation, spreads, totalSpread.1, totalSpread.2, iof⟩

/-! ### The amounts -/

/-- The amounts before they are formatted, of an amount in the currency of the quotation. -/
def amountsInQuote (found : Found) (amount : ℚ) : Amounts ℚ :=
  let iofAmount := found.iof.valueFloat * amount
  let spreadAmountBuy := found.buyFloat * amount
  let spreadAmountSell := found.sellFloat * amount
  let partialBuy := amount - spreadAmountBuy - iofAmount
  let partialSell := amount + spreadAmountSell + iofAmount
  let baseAmountBuy := partialBuy / found.price
  let baseAmountSell := partialSell / found.price
  { iofAmount, spreadAmountBuy, spreadAmountSell, partialBuy, partialSell
    price := found.price
    priceBuy := amount / baseAmountBuy
    priceSell := amount / baseAmountSell
    baseAmountBuy, baseAmountSell
    quoteAmountBuy := amount
    quoteAmountSell := amount }

/-- The amounts before they are formatted, of an amount in the base currency. -/
def amountsInBase (found : Found) (amount : ℚ) : Amounts ℚ :=
  let charged := found.price * amount
  let iofAmount := found.iof.valueFloat * charged
  let spreadAmountBuy := found.buyFloat * charged
  let spreadAmountSell := found.sellFloat * charged
  let quoteAmountBuy := charged + spreadAmountBuy + iofAmount
  let quoteAmountSell := charged - spreadAmountSell - iofAmount
  { iofAmount, spreadAmountBuy, spreadAmountSell
    partialBuy := charged
    partialSell := charged
    price := found.price
    priceBuy := quoteAmountBuy / amount
    priceSell := quoteAmountSell / amount
    baseAmountBuy := amount
    baseAmountSell := amount
    quoteAmountBuy, quoteAmountSell }

/-- The amounts of a request. -/
def amountsOf (found : Found) (amountCurrency : String) (amount : ℤ) : Amounts ℚ :=
  if found.inQuote amountCurrency then
    amountsInQuote found
      (formatValueFromIntToFloat amount found.streamQuotation.quoteCurrency.decimal)
  else
    amountsInBase found
      (formatValueFromIntToFloat amount found.streamQuotation.baseCurrency.decimal)

def formatValues (data : Amounts ℚ) (quoteDecimal baseDecimal : ℕ) : Amounts ℤ where
  iofAmount := formatValueFromFloatToInt data.iofAmount quoteDecimal
  spreadAmountBuy := formatValueFromFloatToInt data.spreadAmountBuy quoteDecimal
  spreadAmountSell := formatValueFromFloatToInt data.spreadAmountSell quoteDecimal
  partialBuy := formatValueFromFloatToInt data.partialBuy quoteDecimal
  partialSell := formatValueFromFloatToInt data.partialSell quoteDecimal
  price := formatValueFromFloatToInt data.price quoteDecimal
  priceBuy := formatValueFromFloatToInt data.priceBuy quoteDecimal
  priceSell := formatValueFromFloatToInt data.priceSell quoteDecimal
  baseAmountBuy := formatValueFromFloatToInt data.baseAmountBuy baseDecimal
  baseAmountSell := formatValueFromFloatToInt data.baseAmountSell baseDecimal
  quoteAmountBuy := formatValueFromFloatToInt data.quoteAmountBuy quoteDecimal
  quoteAmountSell := formatValueFromFloatToInt data.quoteAmountSell quoteDecimal

/-- The tax is nothing, or a spread below the tax is. -/
def UnderMinAmount (found : Found) (amounts : Amounts ℤ) : Prop :=
  amounts.iofAmount ≤ 0 ∨
    (0 < found.buyFloat ∧ found.buyFloat < found.iof.valueFloat ∧ amounts.spreadAmountBuy ≤ 0) ∨
    (0 < found.sellFloat ∧ found.sellFloat < found.iof.valueFloat ∧ amounts.spreadAmountSell ≤ 0)

instance (found : Found) (amounts : Amounts ℤ) : Decidable (UnderMinAmount found amounts) :=
  inferInstanceAs (Decidable (_ ∨ _ ∨ _))

/-- The second half of `execute`. -/
def buildQuotation (id : Uuid) (found : Found) (amountCurrency : String) (amount : ℤ)
    (side : OrderSide) : Except Exception Quotation :=
  let quoteCurrency := found.streamQuotation.quoteCurrency
  let baseCurrency := found.streamQuotation.baseCurrency
  let quotation : Quotation :=
    { formatValues (amountsOf found amountCurrency amount) quoteCurrency.decimal
        baseCurrency.decimal with
      id
      streamQuotation := found.streamQuotation
      provider := found.streamQuotation.gatewayName
      side
      iof := found.iof
      spreads := found.spreads
      spreadBuy := found.spreadBuy
      spreadSell := found.spreadSell
      quoteCurrency
      baseCurrency }
  if UnderMinAmount found quotation.toAmounts then
    .error (.quotationAmountUnderMinAmount quotation)
  else .ok quotation

/-- `execute`, up to the quotation that is stored. -/
def quotationOf (id : Uuid) (request : GetQuotationRequest) : Except Exception Quotation :=
  match request.missing, request.user, request.amountCurrency, request.baseCurrency,
    request.side with
  | [], some user, some amountCurrency, some baseCurrency, some side => do
      let found ← lookUp src user baseCurrency
      buildQuotation id found amountCurrency request.amount side
  | missing, _, _, _, _ => .error (.missingData missing)

end GetQuotationUseCase

end ZroServices.Quotations
