import ZroServices.Quotations.Trends

/-!
# Quotations — whose trend a series is

The answer should have one series for a currency that has points, with the points of the gateway of
its first pair.  It has, unless some pairs have points and others have none, when nothing is
answered at all, or the key of a pair starts with the symbol of an earlier currency, which then is
given both series (`own_label_iff`).
-/

namespace ZroServices.Quotations

open Foundation
open Otc.CryptoOrders (OrderSide)
open GetTrendsByWindowAndResolutionAndBaseAndQuoteCurrenciesUseCase

/-! ### What should be answered -/

/-- The price of a side at a timestamp. -/
def priceAt (trends : List QuotationTrend) (side : OrderSide) (timestamp : ℤ) : Option ℚ :=
  (trends.find? fun t => t.timestamp = timestamp ∧ t.side = side).bind (·.price)

/-- The prices at a timestamp, and their mean. -/
def itemAt (trends : List QuotationTrend) (timestamp : ℤ) : GetTrendPricesItem where
  buy := priceAt trends .BUY timestamp
  sell := priceAt trends .SELL timestamp
  price := do
    let buy ← priceAt trends .BUY timestamp
    let sell ← priceAt trends .SELL timestamp
    return (buy + sell) / 2

/-- The points are those of the trends, one for each timestamp. -/
structure ArePoints (quote : Currency) (trends : List QuotationTrend) (points : List TrendPoint) :
    Prop where
  nodup : (points.map (·.timestamp)).Nodup
  mem_iff : ∀ p, p ∈ points ↔
    ∃ t ∈ trends, p = formatPoint quote (t.timestamp, itemAt trends t.timestamp)

/-- The question: a window, with the currencies that were found for it. -/
structure Question where
  window : QuotationTrendWindow
  resolution : QuotationTrendResolution
  baseCurrencies : List Currency
  quote : Currency

namespace Question

variable (src : TrendSources) (q : Question)

/-- The points of the gateway of the first pair of a currency. -/
def trendsOf (base : Currency) : List QuotationTrend :=
  match src.pairOf q.quote base with
  | none => []
  | some pair =>
      (src.points q.window q.resolution).filter fun t =>
        t.amount = 1 ∧ t.baseCurrency = base.symbol ∧ t.quoteCurrency = q.quote.symbol ∧
          t.gatewayName = pair.gatewayName

/-- One series for a currency, with its points, and one for every currency that has some. -/
structure Labelled (series : List TrendSeries) : Prop where
  once : (series.map (·.baseCurrency)).Nodup
  right : ∀ s ∈ series, ∃ base ∈ q.baseCurrencies, s.baseCurrency = some base ∧
    s.quoteCurrency = q.quote ∧ ArePoints q.quote (q.trendsOf src base) s.points
  all : ∀ base ∈ q.baseCurrencies, q.trendsOf src base ≠ [] →
    ∃ s ∈ series, s.baseCurrency = some base

/-- The currencies that have a pair. -/
def paired : List Currency := q.baseCurrencies.filter fun base => (src.pairOf q.quote base).isSome

/-- The key of a currency starts with the symbol of another. -/
def startsWith (earlier later : Currency) : Bool :=
  earlier.symbol.toList.isPrefixOf (pairKey later.symbol q.quote.symbol).toList

/-- The currencies are told apart by their symbols, and Prometheus has one value of a series at a
time. -/
structure WellFormed : Prop where
  symbols : (q.baseCurrencies.map (·.symbol)).Nodup
  points : ((src.points q.window q.resolution).map fun t =>
    (t.baseCurrency, t.quoteCurrency, t.gatewayName, t.amount, t.side, t.timestamp)).Nodup

end Question

/-! ### The points of a pair -/

/-- Two prices and their mean. -/
def GetTrendPricesItem.ofSides (buy sell : Option ℚ) : GetTrendPricesItem where
  buy
  sell
  price := do
    let buy ← buy
    let sell ← sell
    return (buy + sell) / 2

theorem write_buy (sell : Option ℚ) {t : QuotationTrend} (h : t.side = .BUY) :
    (GetTrendPricesItem.ofSides none sell).write t = .ofSides t.price sell := by
  rw [GetTrendPricesItem.write, h]
  cases t.price <;> cases sell <;> rfl

theorem write_sell (buy : Option ℚ) {t : QuotationTrend} (h : t.side = .SELL) :
    (GetTrendPricesItem.ofSides buy none).write t = .ofSides buy t.price := by
  rw [GetTrendPricesItem.write, h]
  cases t.price <;> cases buy <;> rfl

/-- The price of a side among trends of one timestamp. -/
def sidePrice (trends : List QuotationTrend) (side : OrderSide) : Option ℚ :=
  (trends.find? fun t => t.side = side).bind (·.price)

theorem sidePrice_cons_self {t : QuotationTrend} {trends : List QuotationTrend} {side : OrderSide}
    (h : t.side = side) : sidePrice (t :: trends) side = t.price := by
  rw [sidePrice, List.find?_cons_of_pos (by simpa using h)]
  rfl

theorem sidePrice_cons_ne {t : QuotationTrend} {trends : List QuotationTrend} {side : OrderSide}
    (h : t.side ≠ side) : sidePrice (t :: trends) side = sidePrice trends side := by
  rw [sidePrice, List.find?_cons_of_neg (by simpa using h)]
  rfl

theorem sidePrice_of_notMem {trends : List QuotationTrend} {side : OrderSide}
    (h : side ∉ trends.map (·.side)) : sidePrice trends side = none := by
  have hnone : trends.find? (fun t => t.side = side) = none :=
    List.find?_eq_none.mpr fun t ht hside =>
      h (List.mem_map.mpr ⟨t, ht, of_decide_eq_true hside⟩)
  rw [sidePrice, hnone]
  rfl

/-- The trends of one timestamp, one for a side at most, are written to one item. -/
theorem foldl_write_sides (buy sell : Option ℚ) {trends : List QuotationTrend}
    (hnodup : (trends.map (·.side)).Nodup) (hbuy : buy ≠ none → .BUY ∉ trends.map (·.side))
    (hsell : sell ≠ none → .SELL ∉ trends.map (·.side)) :
    trends.foldl GetTrendPricesItem.write (.ofSides buy sell)
      = .ofSides (buy.or (sidePrice trends .BUY)) (sell.or (sidePrice trends .SELL)) := by
  induction trends generalizing buy sell with
  | nil => cases buy <;> cases sell <;> rfl
  | cons t trends ih =>
      rw [List.map_cons, List.nodup_cons] at hnodup
      obtain ⟨hfirst, hrest⟩ := hnodup
      have tail : ∀ {side price}, (price ≠ (none : Option ℚ) → side ∉ (t :: trends).map (·.side)) →
          price ≠ none → side ∉ trends.map (·.side) :=
        fun h hne hmem => h hne (List.mem_cons_of_mem _ hmem)
      rw [List.foldl_cons]
      cases hside : t.side with
      | BUY =>
          rw [hside] at hfirst
          obtain rfl : buy = none := by
            by_contra hne
            exact hbuy hne (by rw [List.map_cons, hside]; exact List.mem_cons_self)
          rw [write_buy sell hside, ih _ _ hrest (fun _ => hfirst) (tail hsell),
            sidePrice_of_notMem hfirst, Option.or_none, sidePrice_cons_self hside, Option.none_or,
            sidePrice_cons_ne (by rw [hside]; decide)]
      | SELL =>
          rw [hside] at hfirst
          obtain rfl : sell = none := by
            by_contra hne
            exact hsell hne (by rw [List.map_cons, hside]; exact List.mem_cons_self)
          rw [write_sell buy hside, ih _ _ hrest (tail hbuy) (fun _ => hfirst),
            sidePrice_of_notMem hfirst, Option.or_none, sidePrice_cons_self hside, Option.none_or,
            sidePrice_cons_ne (by rw [hside]; decide)]

theorem foldl_write {trends : List QuotationTrend} (h : (trends.map (·.side)).Nodup) :
    trends.foldl GetTrendPricesItem.write ⟨none, none, none⟩
      = .ofSides (sidePrice trends .BUY) (sidePrice trends .SELL) :=
  foldl_write_sides none none h (fun h => absurd rfl h) fun h => absurd rfl h

/-- The price of a side at a timestamp is among the trends of that timestamp. -/
theorem priceAt_eq (trends : List QuotationTrend) (side : OrderSide) (timestamp : ℤ) :
    priceAt trends side timestamp
      = sidePrice (trends.filter fun t => t.timestamp = timestamp) side := by
  rw [priceAt, sidePrice, List.find?_filter]
  simp only [Bool.decide_and, Bool.decide_eq_true]

/-- The prices of a pair: its trends, in the order of their timestamps. -/
def pricesOf (trends : List QuotationTrend) : PairPrices := trends.foldl writePrice []

/-- Trends of one pair and one gateway. -/
def OfOneSeries (trends : List QuotationTrend) : Prop :=
  (trends.map fun t => (t.side, t.timestamp)).Nodup

/-- **The points of a pair** are those of its trends. -/
theorem arePoints_pricesOf (quote : Currency) {trends : List QuotationTrend}
    (h : OfOneSeries trends) :
    ArePoints quote trends ((pricesOf trends).map (formatPoint quote)) := by
  have hcollect : pricesOf trends = collect (·.timestamp)
      (fun trend => GetTrendPricesItem.write ⟨none, none, none⟩ trend) GetTrendPricesItem.write
        trends := rfl
  have hitem : ∀ e ∈ pricesOf trends, e.2 = itemAt trends e.1 := by
    intro e he
    rw [hcollect] at he
    obtain ⟨first, rest, hfilter, hg⟩ := entry_collect he
    have hsides : ((trends.filter fun t => t.timestamp = e.1).map (·.side)).Nodup := by
      refine List.Nodup.of_map (·, e.1) ?_
      rw [List.map_map]
      refine (List.map_congr_left fun t ht => ?_) ▸ (h.sublist (List.filter_sublist.map _))
      rw [Function.comp_apply, ← of_decide_eq_true (List.mem_filter.mp ht).2]
    rw [hfilter] at hsides
    have hwrite := foldl_write hsides
    rw [List.foldl_cons] at hwrite
    rw [hg, hwrite, ← hfilter, ← priceAt_eq, ← priceAt_eq]
    rfl
  constructor
  · rw [List.map_map, hcollect]
    exact nodup_collect
  · intro p
    rw [List.mem_map]
    constructor
    · rintro ⟨e, he, rfl⟩
      have hkey : e.1 ∈ trends.map (·.timestamp) := by
        rw [← mem_keys_collect, ← hcollect]
        exact List.mem_map_of_mem he
      obtain ⟨t, ht, hts⟩ := List.mem_map.mp hkey
      refine ⟨t, ht, ?_⟩
      rw [hts, ← hitem e he]
    · rintro ⟨t, ht, rfl⟩
      have hkey : t.timestamp ∈ (pricesOf trends).map Prod.fst := by
        rw [hcollect, mem_keys_collect]
        exact List.mem_map_of_mem ht
      obtain ⟨e, he, hts⟩ := List.mem_map.mp hkey
      refine ⟨e, he, ?_⟩
      rw [← hts, ← hitem e he]

/-! ### The points of the pairs -/

section
variable {src : TrendSources} {q : Question}

theorem pairKey_injective {a b quote : String} (h : pairKey a quote = pairKey b quote) : a = b := by
  rw [pairKey, pairKey, String.append_assoc, String.append_assoc] at h
  exact (String.append_left_inj _).mp h

theorem mem_streamPairsFound {p : Paired} :
    p ∈ streamPairsFound src q.baseCurrencies q.quote ↔
      p.baseCurrency ∈ q.baseCurrencies ∧
        src.pairOf q.quote p.baseCurrency = some p.streamPair := by
  simp only [streamPairsFound, List.mem_filterMap, Option.map_eq_some_iff]
  constructor
  · rintro ⟨base, hbase, pair, hpair, rfl⟩
    exact ⟨hbase, hpair⟩
  · rintro ⟨hbase, hpair⟩
    exact ⟨p.baseCurrency, hbase, p.streamPair, hpair, rfl⟩

theorem map_baseCurrency :
    (streamPairsFound src q.baseCurrencies q.quote).map (·.baseCurrency) = q.paired src := by
  rw [streamPairsFound, Question.paired]
  induction q.baseCurrencies with
  | nil => rfl
  | cons base bases ih =>
      cases h : src.pairOf q.quote base with
      | none => simp [h, ih]
      | some pair => simp [h, ih]

/-- The keys of the pairs. -/
def Question.keys (src : TrendSources) (q : Question) : List String :=
  (streamPairsFound src q.baseCurrencies q.quote).map fun p =>
    pairKey p.baseCurrency.symbol q.quote.symbol

theorem keys_eq :
    q.keys src = (q.paired src).map fun base => pairKey base.symbol q.quote.symbol := by
  rw [← map_baseCurrency, List.map_map]
  rfl

theorem keys_nodup (h : q.WellFormed src) : (q.keys src).Nodup := by
  have hsymbols : ((q.paired src).map (·.symbol)).Nodup :=
    h.symbols.sublist (List.filter_sublist.map _)
  rw [keys_eq]
  have hkeys := hsymbols.map (f := (pairKey · q.quote.symbol)) fun _ _ => pairKey_injective
  rwa [List.map_map] at hkeys

/-- The points that count, of all pairs. -/
def Question.activeTrends (src : TrendSources) (q : Question) : List QuotationTrend :=
  let pairs := streamPairsFound src q.baseCurrencies q.quote
  (src.getAvg q.window q.resolution 1 (pairs.map (·.baseCurrency)) q.quote).filter
    (isActiveTrend (streamPairGateways q.quote pairs))

/-- The gateway that is found for a key is that of its pair. -/
theorem gateway_iff (h : q.WellFormed src) {k : String} {gateway : String} :
    ((streamPairGateways q.quote (streamPairsFound src q.baseCurrencies q.quote)).find?
        fun e => e.1 = k).map (·.2) = some gateway ↔
      ∃ p ∈ streamPairsFound src q.baseCurrencies q.quote,
        pairKey p.baseCurrency.symbol q.quote.symbol = k ∧ p.streamPair.gatewayName = gateway := by
  rw [streamPairGateways, collect_of_nodup (keys_nodup h), List.find?_map, Option.map_map,
    Option.map_eq_some_iff]
  constructor
  · rintro ⟨p, hp, hgateway⟩
    exact ⟨p, List.mem_of_find?_eq_some hp, by simpa using List.find?_some hp, hgateway⟩
  · rintro ⟨p, hp, hkey, hgateway⟩
    refine ⟨p, ?_, hgateway⟩
    refine find?_eq_some_of_forall hp (by simpa using hkey) fun p' hp' hkey' => ?_
    refine List.inj_on_of_nodup_map (keys_nodup h) hp' hp ?_
    exact (of_decide_eq_true hkey').trans hkey.symm

/-- A point in the currency of the answer is of the gateway of its pair. -/
theorem isActiveTrend_iff (h : q.WellFormed src) {t : QuotationTrend}
    (hquote : t.quoteCurrency = q.quote.symbol) :
    isActiveTrend (streamPairGateways q.quote (streamPairsFound src q.baseCurrencies q.quote)) t
        = true ↔
      ∃ p ∈ streamPairsFound src q.baseCurrencies q.quote,
        p.baseCurrency.symbol = t.baseCurrency ∧ p.streamPair.gatewayName = t.gatewayName := by
  rw [isActiveTrend, decide_eq_true_eq, hquote, gateway_iff h]
  constructor
  · rintro ⟨p, hp, hkey, hgateway⟩
    exact ⟨p, hp, pairKey_injective hkey, hgateway⟩
  · rintro ⟨p, hp, hsymbol, hgateway⟩
    exact ⟨p, hp, by rw [hsymbol], hgateway⟩

/-- Currencies that have a pair are told apart by their symbols. -/
theorem pair_eq (h : q.WellFormed src) {p p' : Paired}
    (hp : p ∈ streamPairsFound src q.baseCurrencies q.quote)
    (hp' : p' ∈ streamPairsFound src q.baseCurrencies q.quote)
    (hsymbol : p.baseCurrency.symbol = p'.baseCurrency.symbol) : p = p' :=
  List.inj_on_of_nodup_map (keys_nodup h) hp hp' (by rw [hsymbol])

theorem trendsOf_pair {p : Paired} (hp : p ∈ streamPairsFound src q.baseCurrencies q.quote) :
    q.trendsOf src p.baseCurrency
      = (src.points q.window q.resolution).filter fun t =>
        t.amount = 1 ∧ t.baseCurrency = p.baseCurrency.symbol ∧
          t.quoteCurrency = q.quote.symbol ∧ t.gatewayName = p.streamPair.gatewayName := by
  rw [Question.trendsOf, (mem_streamPairsFound.mp hp).2]

/-- The points that count under the key of a pair are those of its currency. -/
theorem filter_activeTrends (h : q.WellFormed src) {p : Paired}
    (hp : p ∈ streamPairsFound src q.baseCurrencies q.quote) :
    (q.activeTrends src).filter (fun t => pairKey t.baseCurrency q.quote.symbol
        = pairKey p.baseCurrency.symbol q.quote.symbol)
      = q.trendsOf src p.baseCurrency := by
  rw [trendsOf_pair hp, Question.activeTrends, TrendSources.getAvg, List.filter_filter,
    List.filter_filter]
  refine List.filter_congr fun t _ => ?_
  rw [Bool.eq_iff_iff]
  simp only [Bool.and_eq_true, decide_eq_true_eq, List.map_map]
  constructor
  · rintro ⟨⟨hkey, hactive⟩, hamount, -, hquote⟩
    obtain ⟨p', hp', hsymbol, hgateway⟩ := (isActiveTrend_iff h hquote).mp hactive
    have hbase := pairKey_injective hkey
    obtain rfl := pair_eq h hp' hp (hsymbol.trans hbase)
    exact ⟨hamount, hbase, hquote, hgateway.symm⟩
  · rintro ⟨hamount, hbase, hquote, hgateway⟩
    refine ⟨⟨by rw [hbase], ?_⟩, hamount, ?_, hquote⟩
    · exact (isActiveTrend_iff h hquote).mpr ⟨p, hp, hbase.symm, hgateway.symm⟩
    · exact List.mem_map.mpr ⟨p, hp, hbase.symm⟩

/-- Every point that counts has the key of a pair. -/
theorem key_of_activeTrends (h : q.WellFormed src) {t : QuotationTrend}
    (ht : t ∈ q.activeTrends src) : ∃ p ∈ streamPairsFound src q.baseCurrencies q.quote,
      pairKey t.baseCurrency q.quote.symbol = pairKey p.baseCurrency.symbol q.quote.symbol := by
  obtain ⟨hfound, hactive⟩ := List.mem_filter.mp ht
  obtain ⟨-, hwhere⟩ := List.mem_filter.mp hfound
  have hquote := (of_decide_eq_true hwhere).2.2
  obtain ⟨p, hp, hsymbol, -⟩ := (isActiveTrend_iff h hquote).mp hactive
  exact ⟨p, hp, by rw [hsymbol]⟩

/-- No point counts when no currency has one. -/
theorem activeTrends_eq_nil_iff (h : q.WellFormed src) :
    q.activeTrends src = [] ↔ ∀ base ∈ q.baseCurrencies, q.trendsOf src base = [] := by
  constructor
  · intro hnone base hbase
    cases hpair : src.pairOf q.quote base with
    | none => rw [Question.trendsOf, hpair]
    | some pair =>
        have hp : ⟨base, pair⟩ ∈ streamPairsFound src q.baseCurrencies q.quote :=
          mem_streamPairsFound.mpr ⟨hbase, hpair⟩
        rw [← filter_activeTrends h hp, hnone, List.filter_nil]
  · intro hnone
    refine List.eq_nil_iff_forall_not_mem.mpr fun t ht => ?_
    obtain ⟨p, hp, hkey⟩ := key_of_activeTrends h ht
    have hmem : t ∈ q.trendsOf src p.baseCurrency := by
      rw [← filter_activeTrends h hp]
      exact List.mem_filter.mpr ⟨ht, decide_eq_true hkey⟩
    rw [hnone p.baseCurrency (mem_streamPairsFound.mp hp).1] at hmem
    cases hmem

/-! ### The object of the prices -/

/-- The points of a currency, or null when it has none. -/
def pricesOrNull (trends : List QuotationTrend) : Option PairPrices :=
  if trends = [] then none else some (pricesOf trends)

theorem foldl_pricesOrNull (trends : List QuotationTrend) :
    trends.foldl (fun prices trend => some (writePrice (prices.getD []) trend)) none
      = pricesOrNull trends := by
  have writes : ∀ (trends : List QuotationTrend) (prices : PairPrices),
      trends.foldl (fun prices trend => some (writePrice (prices.getD []) trend)) (some prices)
        = some (trends.foldl writePrice prices) := by
    intro trends
    induction trends with
    | nil => exact fun _ => rfl
    | cons t trends ih => exact fun prices => ih (writePrice prices t)
  cases trends with
  | nil => rfl
  | cons t trends => exact writes trends (writePrice [] t)

/-- The object has the prices of every pair, or null. -/
theorem collectPrices_eq (h : q.WellFormed src) :
    collectPrices q.quote (q.keys src) (q.activeTrends src)
      = (q.paired src).map fun base =>
        (pairKey base.symbol q.quote.symbol, pricesOrNull (q.trendsOf src base)) := by
  have hkeys : ((q.keys src).map id).Nodup := by
    rw [List.map_id]
    exact keys_nodup h
  have hstart : collect id (fun _ => (none : Option PairPrices)) (fun _ _ => none) (q.keys src)
      = (q.keys src).map fun k => (k, none) := collect_of_nodup hkeys
  have hentries : ((q.keys src).map fun k => (k, (none : Option PairPrices))).map Prod.fst
      = q.keys src := by
    rw [List.map_map]
    exact List.map_id _
  rw [collectPrices, hstart, foldl_insertEntry_of_keys (by rw [hentries]; exact keys_nodup h),
    ← map_baseCurrency, Question.keys, List.map_map, List.map_map, List.map_map]
  · refine List.map_congr_left fun p hp => ?_
    simp only [Function.comp_apply]
    rw [filter_activeTrends h hp, foldl_pricesOrNull]
  · intro t ht
    obtain ⟨p, hp, hkey⟩ := key_of_activeTrends h ht
    rw [hentries, hkey]
    exact List.mem_map.mpr ⟨p, hp, rfl⟩

/-! ### The series -/

/-- The series of a currency that has points. -/
def Question.seriesOf (src : TrendSources) (q : Question) (base : Currency) : TrendSeries where
  baseCurrency := currencyOf (q.paired src) (pairKey base.symbol q.quote.symbol)
  quoteCurrency := q.quote
  points := (pricesOf (q.trendsOf src base)).map (formatPoint q.quote)

/-- The series of currencies: one without points fails, and then all do. -/
theorem mapM_formatSeries (bases : List Currency) :
    (bases.map fun base => (pairKey base.symbol q.quote.symbol,
        pricesOrNull (q.trendsOf src base))).mapM (formatSeries (q.paired src) q.quote)
      = if ∃ base ∈ bases, q.trendsOf src base = [] then
          .error (.typeError "Cannot convert undefined or null to object")
        else .ok (bases.map (q.seriesOf src)) := by
  induction bases with
  | nil => rfl
  | cons base bases ih =>
      rw [List.map_cons, List.mapM_cons, ih]
      by_cases hnone : q.trendsOf src base = []
      · have hfails : ∃ b ∈ base :: bases, q.trendsOf src b = [] :=
          ⟨base, List.mem_cons_self, hnone⟩
        rw [if_pos hfails]
        simp only [formatSeries, pricesOrNull, if_pos hnone]
        rfl
      · have hiff : (∃ b ∈ base :: bases, q.trendsOf src b = []) ↔
            ∃ b ∈ bases, q.trendsOf src b = [] := by
          simp only [List.mem_cons, exists_eq_or_imp, hnone, false_or]
        simp only [formatSeries, pricesOrNull, if_neg hnone, hiff]
        split <;> rfl

/-- What is answered: nothing without points, else a series for each pair, if all have points. -/
theorem trendsOfCurrencies_eq (h : q.WellFormed src) :
    trendsOfCurrencies src q.window q.resolution q.baseCurrencies q.quote =
      if ∀ base ∈ q.baseCurrencies, q.trendsOf src base = [] then .ok []
      else if ∃ base ∈ q.paired src, q.trendsOf src base = [] then
        .error (.typeError "Cannot convert undefined or null to object")
      else .ok ((q.paired src).map (q.seriesOf src)) := by
  have hactive : (src.getAvg q.window q.resolution 1 ((streamPairsFound src q.baseCurrencies
      q.quote).map (·.baseCurrency)) q.quote).filter (isActiveTrend (streamPairGateways q.quote
        (streamPairsFound src q.baseCurrencies q.quote))) = q.activeTrends src := rfl
  by_cases hnone : ∀ base ∈ q.baseCurrencies, q.trendsOf src base = []
  · rw [if_pos hnone]
    simp only [trendsOfCurrencies, hactive, (activeTrends_eq_nil_iff h).mpr hnone, if_true,
      ite_self]
  · have hsome : q.activeTrends src ≠ [] := fun hnil =>
      hnone ((activeTrends_eq_nil_iff h).mp hnil)
    obtain ⟨t, ht⟩ := List.exists_mem_of_ne_nil _ hsome
    obtain ⟨p, hp, -⟩ := key_of_activeTrends h ht
    have hfound := (List.mem_filter.mp ht).1
    rw [if_neg hnone, ← mapM_formatSeries, ← collectPrices_eq h, ← map_baseCurrency]
    simp only [trendsOfCurrencies, hactive]
    rw [if_neg (List.ne_nil_of_mem hp), if_neg (List.ne_nil_of_mem hfound), if_neg hsome]
    rfl

/-- The points of a currency are those of one series for each side. -/
theorem ofOneSeries_trendsOf (h : q.WellFormed src) {base : Currency} :
    OfOneSeries (q.trendsOf src base) := by
  rw [Question.trendsOf]
  cases hpair : src.pairOf q.quote base with
  | none => exact List.nodup_nil
  | some pair =>
      refine List.Nodup.of_map (fun k : OrderSide × ℤ =>
        (base.symbol, q.quote.symbol, pair.gatewayName, 1, k.1, k.2)) ?_
      rw [List.map_map]
      refine (List.map_congr_left fun t ht => ?_) ▸ h.points.sublist (List.filter_sublist.map _)
      obtain ⟨hamount, hbase, hquote, hgateway⟩ := of_decide_eq_true (List.mem_filter.mp ht).2
      rw [Function.comp_apply, hamount, hbase, hquote, hgateway]

theorem paired_nodup (h : q.WellFormed src) : (q.paired src).Nodup :=
  (List.Nodup.of_map _ h.symbols).filter _

theorem startsWith_self (base : Currency) : q.startsWith base base = true := by
  rw [Question.startsWith, pairKey, String.append_assoc, String.toList_append]
  exact List.isPrefixOf_iff_prefix.mpr (List.prefix_append _ _)

/-- A currency with points has a pair. -/
theorem mem_paired {base : Currency} (hbase : base ∈ q.baseCurrencies)
    (hsome : q.trendsOf src base ≠ []) : base ∈ q.paired src := by
  refine List.mem_filter.mpr ⟨hbase, ?_⟩
  cases hpair : src.pairOf q.quote base with
  | none => exact absurd (by rw [Question.trendsOf, hpair]) hsome
  | some pair => rfl

/-- The series of all pairs are labelled exactly when no key starts with an earlier symbol. -/
theorem labelled_iff (h : q.WellFormed src) :
    q.Labelled src ((q.paired src).map (q.seriesOf src)) ↔
      (q.paired src).Pairwise fun b c => q.startsWith b c = false := by
  have hself : ∀ base ∈ q.paired src, q.startsWith base base = true :=
    fun base _ => startsWith_self base
  constructor
  · intro hlabelled
    rw [← nodup_map_find?_iff (paired_nodup h) hself]
    have honce := hlabelled.once
    rwa [List.map_map] at honce
  · intro hapart
    have hlabel : ∀ base ∈ q.paired src, (q.seriesOf src base).baseCurrency = some base :=
      fun base hbase => find?_eq_self hself hapart hbase
    constructor
    · have hlabels : (q.paired src).map ((·.baseCurrency) ∘ q.seriesOf src)
          = (q.paired src).map some := List.map_congr_left hlabel
      rw [List.map_map, hlabels]
      exact (paired_nodup h).map fun _ _ => Option.some.inj
    · intro s hs
      obtain ⟨base, hbase, rfl⟩ := List.mem_map.mp hs
      exact ⟨base, (List.mem_filter.mp hbase).1, hlabel base hbase, rfl,
        arePoints_pricesOf q.quote (ofOneSeries_trendsOf h)⟩
    · intro base hbase hsome
      have hpaired := mem_paired hbase hsome
      exact ⟨q.seriesOf src base, List.mem_map_of_mem hpaired, hlabel base hpaired⟩

/-! ### What is answered -/

/-- The request asks the question: its symbols are those of the currencies, and inactive ones are
left out. -/
structure Question.Asked (src : TrendSources) (q : Question) (request : TrendRequest) : Prop where
  window : request.window = some q.window
  resolution : request.resolution = some q.resolution
  fine : q.window.index ≤ q.resolution.index
  baseCurrencies : ∃ found, request.baseCurrencies.mapM src.getCurrencyBySymbol = some found ∧
    q.baseCurrencies = found.filter (·.isActive)
  nonempty : q.baseCurrencies ≠ []
  quoteCurrency : ∃ symbol ≠ "", request.quoteCurrency = some symbol ∧
    src.getCurrencyBySymbol symbol = some q.quote
  quoteActive : q.quote.isActive = true

theorem execute_eq {request : TrendRequest} (hasked : q.Asked src request) :
    execute src request
      = trendsOfCurrencies src q.window q.resolution q.baseCurrencies q.quote := by
  obtain ⟨found, hfound, hactive⟩ := hasked.baseCurrencies
  obtain ⟨symbol, hne, hsymbol, hquote⟩ := hasked.quoteCurrency
  have hrequested : request.baseCurrencies ≠ [] := by
    intro hnil
    rw [hnil] at hfound
    cases hfound
    exact hasked.nonempty hactive
  have hfilter : request.quoteCurrency.filter (· ≠ "") = some symbol := by
    rw [hsymbol, Option.filter_some, if_pos (by simpa using hne)]
  rw [execute, hasked.window, hasked.resolution, hfilter]
  simp only [hrequested, if_false, Nat.not_lt.mpr hasked.fine, hfound, ← hactive,
    hasked.nonempty, hquote, hasked.quoteActive, if_true]

/-- **A trend has the label of its own currency** exactly when no currency has points, or every one
with a pair has some and no key starts with the symbol of an earlier currency. -/
theorem own_label_iff {request : TrendRequest} (hasked : q.Asked src request)
    (h : q.WellFormed src) :
    (∃ series, execute src request = .ok series ∧ q.Labelled src series) ↔
      (∀ base ∈ q.baseCurrencies, q.trendsOf src base = []) ∨
        (∀ base ∈ q.paired src, q.trendsOf src base ≠ []) ∧
          (q.paired src).Pairwise fun b c => q.startsWith b c = false := by
  rw [execute_eq hasked, trendsOfCurrencies_eq h, ← labelled_iff h]
  by_cases hnone : ∀ base ∈ q.baseCurrencies, q.trendsOf src base = []
  · rw [if_pos hnone]
    refine iff_of_true ⟨[], rfl, ?_⟩ (.inl hnone)
    exact ⟨List.nodup_nil, by simp, fun base hbase hsome => absurd (hnone base hbase) hsome⟩
  · rw [if_neg hnone]
    by_cases hempty : ∃ base ∈ q.paired src, q.trendsOf src base = []
    · rw [if_pos hempty]
      refine iff_of_false (fun ⟨_, hresult, _⟩ => nomatch hresult) ?_
      rintro (hnone' | ⟨hsome, -⟩)
      · exact hnone hnone'
      · obtain ⟨base, hbase, hnil⟩ := hempty
        exact hsome base hbase hnil
    · rw [if_neg hempty]
      have hsome : ∀ base ∈ q.paired src, q.trendsOf src base ≠ [] :=
        fun base hbase hnil => hempty ⟨base, hbase, hnil⟩
      constructor
      · rintro ⟨_, hresult, hlabelled⟩
        cases hresult
        exact .inr ⟨hsome, hlabelled⟩
      · rintro (hnone' | ⟨-, hlabelled⟩)
        · exact absurd hnone' hnone
        · exact ⟨_, rfl, hlabelled⟩

end

namespace Sample

def brl : Currency := ⟨1, "BRL", 2, true⟩
def usd : Currency := ⟨2, "USD", 2, true⟩
def usdt : Currency := ⟨3, "USDT", 6, true⟩

def pairs : List StreamPair := [⟨10, 2, 1, 1, "B2C2", []⟩, ⟨11, 3, 1, 1, "BINANCE", []⟩]

def trends : List QuotationTrend :=
  [⟨"USD", "BRL", "B2C2", 1, .BUY, some 5, 600⟩, ⟨"USD", "BRL", "BINANCE", 1, .BUY, some 9, 600⟩,
    ⟨"USDT", "BRL", "BINANCE", 1, .SELL, some 6, 600⟩,
    ⟨"USDT", "BRL", "BINANCE", 1, .BUY, some 4, 600⟩]

/-- The dollar and the coin that is pegged to it. -/
def sources : TrendSources where
  getCurrencyBySymbol symbol := [brl, usd, usdt].find? (·.symbol = symbol)
  streamPairs := pairs
  points _ _ := trends

def request (baseCurrencies : List String) : TrendRequest :=
  ⟨some .QTW_6h, some .QTR_1m, baseCurrencies, some "BRL"⟩

theorem pairOf_usd : sources.pairOf brl usd = some ⟨10, 2, 1, 1, "B2C2", []⟩ := by
  simp [TrendSources.pairOf, TrendSources.getAllByBaseAndQuoteCurrency, sources, pairs, usd, brl]

theorem pairOf_usdt : sources.pairOf brl usdt = some ⟨11, 3, 1, 1, "BINANCE", []⟩ := by
  simp [TrendSources.pairOf, TrendSources.getAllByBaseAndQuoteCurrency, sources, pairs, usdt, brl]

def question (baseCurrencies : List Currency) : Question := ⟨.QTW_6h, .QTR_1m, baseCurrencies, brl⟩

theorem asked (symbols : List String) {bases : List Currency}
    (h : symbols.mapM sources.getCurrencyBySymbol = some bases)
    (hactive : bases = bases.filter (·.isActive)) (hne : bases ≠ []) :
    (question bases).Asked sources (request symbols) :=
  ⟨rfl, rfl, Nat.le_refl 0, ⟨bases, h, hactive⟩, hne, ⟨"BRL", by decide, rfl, rfl⟩, rfl⟩

theorem trendsOf_usd (bases : List Currency) :
    (question bases).trendsOf sources usd
      = [⟨"USD", "BRL", "B2C2", 1, .BUY, some 5, 600⟩] := by
  rw [Question.trendsOf, question, pairOf_usd]
  rfl

theorem trendsOf_usdt (bases : List Currency) :
    (question bases).trendsOf sources usdt
      = [⟨"USDT", "BRL", "BINANCE", 1, .SELL, some 6, 600⟩,
        ⟨"USDT", "BRL", "BINANCE", 1, .BUY, some 4, 600⟩] := by
  rw [Question.trendsOf, question, pairOf_usdt]
  rfl

end Sample

/-- The longer symbol comes first. -/
theorem answered_longer_first : ∃ series,
    execute Sample.sources (Sample.request ["USDT", "USD"]) = .ok series ∧
      (Sample.question [Sample.usdt, Sample.usd]).Labelled Sample.sources series := by
  have hasked := Sample.asked ["USDT", "USD"] rfl rfl (by decide)
  refine (own_label_iff hasked ⟨by decide, by decide⟩).mpr (.inr ⟨?_, ?_⟩)
  · intro base hbase
    have hmem : base ∈ [Sample.usdt, Sample.usd] := (List.mem_filter.mp hbase).1
    simp only [List.mem_cons, List.not_mem_nil, or_false] at hmem
    obtain rfl | rfl := hmem
    · rw [Sample.trendsOf_usdt]
      decide
    · rw [Sample.trendsOf_usd]
      decide
  · have hapart : [Sample.usdt, Sample.usd].Pairwise fun b c =>
        (Sample.question [Sample.usdt, Sample.usd]).startsWith b c = false := by decide
    exact hapart.sublist List.filter_sublist

/-- The points of the coin are given as those of the dollar when the dollar comes first. -/
theorem coin_given_as_dollar : ¬ ∃ series,
    execute Sample.sources (Sample.request ["USD", "USDT"]) = .ok series ∧
      (Sample.question [Sample.usd, Sample.usdt]).Labelled Sample.sources series := by
  have hresult : execute Sample.sources (Sample.request ["USD", "USDT"])
      = .ok [⟨some Sample.usd, Sample.brl, [⟨600, none, some 500, none⟩]⟩,
        ⟨some Sample.usd, Sample.brl, [⟨600, some 500, some 400, some 600⟩]⟩] := by
    have hasked := Sample.asked ["USD", "USDT"] rfl rfl (by decide)
    rw [execute_eq hasked]
    decide +kernel
  rintro ⟨series, hseries, hlabelled⟩
  rw [hresult] at hseries
  cases hseries
  exact absurd hlabelled.once (by decide)

end ZroServices.Quotations
