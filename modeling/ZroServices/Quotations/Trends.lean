import ZroServices.Foundation.Dictionary
import ZroServices.Quotations.GetQuotation

/-!
# Quotations — price trends

`GetTrendsByWindowAndResolutionAndBaseAndQuoteCurrenciesUseCase` answers the prices of a window of
time, one series for each base currency.  The points come from Prometheus, for every gateway, and
only those of the gateway of the currency's first pair count.

The prices are collected in an object whose keys are texts such as `USD/BRL`, and each key is led
back to its currency by the symbol that it starts with.
-/

namespace ZroServices.Quotations

open Foundation
open Otc.CryptoOrders (OrderSide)

/-! ### Entities -/

inductive QuotationTrendResolution where
  | QTR_1m | QTR_5m | QTR_10m | QTR_20m | QTR_30m | QTR_1h | QTR_2h | QTR_6h | QTR_12h | QTR_1d
  | QTR_3d | QTR_1w
  deriving DecidableEq, Repr

inductive QuotationTrendWindow where
  | QTW_6h | QTW_12h | QTW_1d | QTW_3d | QTW_1w | QTW_2w | QTW_4w | QTW_12w | QTW_24w | QTW_1y
  deriving DecidableEq, Repr

/-- The place of a resolution among the values of the enumeration. -/
def QuotationTrendResolution.index : QuotationTrendResolution → ℕ
  | QTR_1m => 0 | QTR_5m => 1 | QTR_10m => 2 | QTR_20m => 3 | QTR_30m => 4 | QTR_1h => 5
  | QTR_2h => 6 | QTR_6h => 7 | QTR_12h => 8 | QTR_1d => 9 | QTR_3d => 10 | QTR_1w => 11

/-- The place of a window among the keys of `quotationTrendWindowMinResolution`. -/
def QuotationTrendWindow.index : QuotationTrendWindow → ℕ
  | QTW_6h => 0 | QTW_12h => 1 | QTW_1d => 2 | QTW_3d => 3 | QTW_1w => 4 | QTW_2w => 5
  | QTW_4w => 6 | QTW_12w => 7 | QTW_24w => 8 | QTW_1y => 9

/-- A point of a series of Prometheus; a value that is no number is null. -/
structure QuotationTrend where
  baseCurrency : String
  quoteCurrency : String
  gatewayName : String
  amount : ℕ
  side : OrderSide
  price : Option ℚ
  timestamp : ℤ
  deriving DecidableEq

/-- The prices of one timestamp. -/
structure GetTrendPricesItem where
  price : Option ℚ
  buy : Option ℚ
  sell : Option ℚ
  deriving DecidableEq

/-- A point of the answer. -/
structure TrendPoint where
  timestamp : ℤ
  price : Option ℤ
  buy : Option ℤ
  sell : Option ℤ
  deriving DecidableEq

/-- A series of the answer. -/
structure TrendSeries where
  baseCurrency : Option Currency
  quoteCurrency : Currency
  points : List TrendPoint
  deriving DecidableEq

inductive TrendException where
  | missingData (fields : List String)
  | resolutionUnderMinResolution (resolution : QuotationTrendResolution)
  | currencyNotFound (currency : Option Currency)
  | typeError (message : String)
  deriving DecidableEq

structure TrendRequest where
  window : Option QuotationTrendWindow
  resolution : Option QuotationTrendResolution
  baseCurrencies : List String
  quoteCurrency : Option String
  deriving DecidableEq

/-- What the use case reads. -/
structure TrendSources where
  getCurrencyBySymbol : String → Option Currency
  /-- The pairs that are active. -/
  streamPairs : List StreamPair
  /-- The points that Prometheus has of a window, with a resolution. -/
  points : QuotationTrendWindow → QuotationTrendResolution → List QuotationTrend

namespace TrendSources

variable (src : TrendSources)

/-- `streamPairRepository.getAllByBaseAndQuoteCurrencyAndActiveIsTrue`. -/
def getAllByBaseAndQuoteCurrency (base quote : Currency) : List StreamPair :=
  src.streamPairs.filter fun p => p.baseCurrency = base.id ∧ p.quoteCurrency = quote.id

/-- `quotationTrendRepository.getAvgByWindowAndResolutionAndAmountAndBaseAndQuoteCurrency`. -/
def getAvg (window : QuotationTrendWindow) (resolution : QuotationTrendResolution) (amount : ℕ)
    (baseCurrencies : List Currency) (quote : Currency) : List QuotationTrend :=
  (src.points window resolution).filter fun t =>
    t.amount = amount ∧ t.baseCurrency ∈ baseCurrencies.map (·.symbol) ∧
      t.quoteCurrency = quote.symbol

/-- The first of the pairs of a currency by priority. -/
def pairOf (quote base : Currency) : Option StreamPair :=
  ((src.getAllByBaseAndQuoteCurrency base quote).mergeSort
    fun a b => decide (a.priority ≤ b.priority)).head?

end TrendSources

/-! ### The prices -/

/-- `${base}/${quote}`. -/
def pairKey (base quote : String) : String := base ++ "/" ++ quote

/-- The price of a side is written, and the mean when there are both. -/
def GetTrendPricesItem.write (item : GetTrendPricesItem) (trend : QuotationTrend) :
    GetTrendPricesItem :=
  let item :=
    match trend.side with
    | .BUY => { item with buy := trend.price }
    | .SELL => { item with sell := trend.price }
  match item.buy, item.sell with
  | some buy, some sell => { item with price := some ((buy + sell) / 2) }
  | _, _ => item

/-- The prices of a pair by their timestamps. -/
abbrev PairPrices := List (ℤ × GetTrendPricesItem)

def writePrice (prices : PairPrices) (trend : QuotationTrend) : PairPrices :=
  insertEntry (·.timestamp) (fun trend => GetTrendPricesItem.write ⟨none, none, none⟩ trend)
    GetTrendPricesItem.write prices trend

/-- The object of the prices; a pair that nothing was written to is null. -/
def collectPrices (quote : Currency) (pairs : List String) (trends : List QuotationTrend) :
    List (String × Option PairPrices) :=
  trends.foldl
    (insertEntry (fun trend => pairKey trend.baseCurrency quote.symbol)
      (fun trend => some (writePrice [] trend))
      fun prices trend => some (writePrice (prices.getD []) trend))
    (collect id (fun _ => none) (fun _ _ => none) pairs)

/-! ### The use case -/

namespace GetTrendsByWindowAndResolutionAndBaseAndQuoteCurrenciesUseCase

variable (src : TrendSources)

/-- A base currency with its pair. -/
structure Paired where
  baseCurrency : Currency
  streamPair : StreamPair
  deriving DecidableEq

def streamPairsFound (baseCurrencies : List Currency) (quote : Currency) : List Paired :=
  baseCurrencies.filterMap fun base => (src.pairOf quote base).map (⟨base, ·⟩)

/-- The name of the gateway of each pair. -/
def streamPairGateways (quote : Currency) (pairs : List Paired) : List (String × String) :=
  collect (fun p : Paired => pairKey p.baseCurrency.symbol quote.symbol)
    (fun p => p.streamPair.gatewayName) (fun _ p => p.streamPair.gatewayName) pairs

/-- The point is of the gateway of its pair. -/
def isActiveTrend (gateways : List (String × String)) (trend : QuotationTrend) : Bool :=
  (gateways.find? fun e => e.1 = pairKey trend.baseCurrency trend.quoteCurrency).map (·.2)
    = some trend.gatewayName

def formatPoint (quote : Currency) (entry : ℤ × GetTrendPricesItem) : TrendPoint where
  timestamp := entry.1
  price := entry.2.price.map (formatValueFromFloatToInt · quote.decimal)
  buy := entry.2.buy.map (formatValueFromFloatToInt · quote.decimal)
  sell := entry.2.sell.map (formatValueFromFloatToInt · quote.decimal)

/-- The currency that a key is led back to. -/
def currencyOf (baseCurrencies : List Currency) (pair : String) : Option Currency :=
  baseCurrencies.find? fun i => i.symbol.toList.isPrefixOf pair.toList

/-- The series of a pair; `Object.entries` throws on null. -/
def formatSeries (baseCurrencies : List Currency) (quote : Currency)
    (entry : String × Option PairPrices) : Except TrendException TrendSeries :=
  match entry.2 with
  | none => .error (.typeError "Cannot convert undefined or null to object")
  | some prices =>
      .ok ⟨currencyOf baseCurrencies entry.1, quote, prices.map (formatPoint quote)⟩

/-- `execute`, after the currencies were looked up. -/
def trendsOfCurrencies (window : QuotationTrendWindow) (resolution : QuotationTrendResolution)
    (baseCurrencies : List Currency) (quote : Currency) :
    Except TrendException (List TrendSeries) :=
  let pairs := streamPairsFound src baseCurrencies quote
  if pairs = [] then .ok []
  else
    let baseCurrencies := pairs.map (·.baseCurrency)
    let trendsFound := src.getAvg window resolution 1 baseCurrencies quote
    if trendsFound = [] then .ok []
    else
      let activeTrends := trendsFound.filter (isActiveTrend (streamPairGateways quote pairs))
      if activeTrends = [] then .ok []
      else
        let resultPrice := collectPrices quote
          (pairs.map fun p => pairKey p.baseCurrency.symbol quote.symbol) activeTrends
        resultPrice.mapM (formatSeries baseCurrencies quote)

/-- `execute`. -/
def execute (request : TrendRequest) : Except TrendException (List TrendSeries) :=
  match request.window, request.resolution, request.quoteCurrency.filter (· ≠ "") with
  | some window, some resolution, some quoteCurrency =>
      if request.baseCurrencies = [] then .error (.missingData ["Base Currency"])
      else if resolution.index < window.index then
        .error (.resolutionUnderMinResolution resolution)
      else
        match request.baseCurrencies.mapM src.getCurrencyBySymbol with
        | none => .error (.typeError "isActive")
        | some baseCurrencies =>
            let baseCurrencies := baseCurrencies.filter (·.isActive)
            if baseCurrencies = [] then .ok []
            else
              match src.getCurrencyBySymbol quoteCurrency with
              | none => .error (.currencyNotFound none)
              | some quote =>
                  if quote.isActive then
                    trendsOfCurrencies src window resolution baseCurrencies quote
                  else .error (.currencyNotFound (some quote))
  | window, resolution, quoteCurrency =>
      .error (.missingData ((if window = none then ["Window"] else [])
        ++ (if resolution = none then ["Resolution"] else [])
        ++ (if request.baseCurrencies = [] then ["Base Currency"] else [])
        ++ if quoteCurrency = none then ["Quote Currency"] else []))

end GetTrendsByWindowAndResolutionAndBaseAndQuoteCurrenciesUseCase

end ZroServices.Quotations
