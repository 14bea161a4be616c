import Mathlib.Algebra.Field.Rat
import Mathlib.Algebra.Order.BigOperators.GroupWithZero.List
import Mathlib.Data.List.Perm.Subperm
import ZroServices.Quotations.StreamQuotation

/-!
# Quotations — every pair that can be quoted

The cache is complete (`Complete`) when it has each natural pair that a gateway quotes, and each
synthetic pair whose legs are quoted, this way round or the other, with the products of their
prices.  The use case leaves it so exactly when there is a synthetic pair at all, no two pairs share
a key, and the legs of a synthetic pair are different pairs that are quoted this way round
(`allQuoted_iff`).
-/

namespace ZroServices.Quotations

open Foundation CreateStreamQuotationUseCase

variable (src : Sources)

/-! ### What should be stored -/

/-- The quotation of a natural pair. -/
def direct (id : ℕ) : Option StreamQuotation :=
  (naturalQuotations src).find? (·.streamPair.id = id)

/-- A quotation of the currencies of a natural pair, the other way round. -/
def inverted (id : ℕ) : Option StreamQuotation :=
  ((src.streamPairs.get? id).filter (! ·.isSynthetic)).bind fun pair =>
    (naturalQuotations src).find? fun q =>
      q.baseCurrency.id = pair.quoteCurrency ∧ q.quoteCurrency.id = pair.baseCurrency

/-- The prices to buy and to sell of a leg. -/
def legPrices (id : ℕ) : Option (ℚ × ℚ) :=
  match direct src id with
  | some q => some (q.buy, q.sell)
  | none => (inverted src id).map fun q => (q.sell⁻¹, q.buy⁻¹)

/-- The quotations that are stored are complete. -/
structure Complete (stored : String → Option StreamQuotation) : Prop where
  natural : ∀ p ∈ naturalPairs src, ∀ g, src.streamQuotationGateway p.baseCurrency.symbol
    p.quoteCurrency.symbol p.streamPair.gatewayName = some g →
      ∃ q, stored p.key = some q ∧ q.streamPair = p.streamPair ∧ q.buy = g.buy ∧ q.sell = g.sell
  synthetic : ∀ p ∈ syntheticPairs src, ∀ prices : List (ℚ × ℚ),
    p.streamPair.composedBy.map (legPrices src) = prices.map some →
      ∃ q, stored p.key = some q ∧ q.streamPair = p.streamPair ∧
        q.buy = (prices.map (·.1)).prod ∧ q.sell = (prices.map (·.2)).prod ∧
        ((∀ x ∈ prices, x.2 ≤ x.1) → q.sell ≤ q.buy)
  missing : ∀ key q, stored key = some q → q.streamPair.isSynthetic →
    ∀ id ∈ q.streamPair.composedBy, (legPrices src id).isSome
  once : ∀ key q key' q', stored key = some q → stored key' = some q' →
    q.streamPair = q'.streamPair → key = key' ∧ q = q'

/-- The use case can quote the pair: a gateway quotes it, or its legs are different natural pairs
that gateways quote. -/
def Quotable (p : ActivePair) : Prop :=
  if p.streamPair.isSynthetic then
    p.streamPair.composedBy.Nodup ∧ ∀ id ∈ p.streamPair.composedBy, (direct src id).isSome
  else (src.streamQuotationGateway p.baseCurrency.symbol p.quoteCurrency.symbol
    p.streamPair.gatewayName).isSome

/-- There is a synthetic pair if a gateway quotes a natural one, pairs that can be quoted have keys
of their own, and so can a synthetic pair whose legs have prices. -/
structure Composable : Prop where
  synthetic : syntheticPairs src = [] → ∀ p ∈ naturalPairs src, ¬ Quotable src p
  keys : ∀ p ∈ activePairs src, ∀ p' ∈ activePairs src, Quotable src p → Quotable src p' →
    p.key = p'.key → p = p'
  legs : ∀ p ∈ syntheticPairs src,
    (∀ id ∈ p.streamPair.composedBy, (legPrices src id).isSome) → Quotable src p

variable {src} {p p' : ActivePair} {q : StreamQuotation} {id : ℕ}
variable {ids : List ℕ}
variable {prices : List (ℚ × ℚ)}

/-! ### Pairs -/

theorem activate_streamPair {pair : StreamPair} (h : activate src pair = some p) :
    p.streamPair = pair := by
  rw [activate] at h
  split at h
  · split at h
    · obtain rfl := Option.some.inj h
      rfl
    · cases h
  · cases h

/-- An active pair is determined by the id of its pair. -/
theorem activePairs_ids :
    (activePairs src).Pairwise fun p p' => p.streamPair.id ≠ p'.streamPair.id := by
  refine List.Pairwise.filterMap (activate src) ?_ (List.pairwise_map.mp src.streamPairs.nodup)
  intro pair pair' hne p hp p' hp'
  rw [activate_streamPair hp, activate_streamPair hp']
  exact hne

theorem eq_of_streamPair (hp : p ∈ activePairs src) (hp' : p' ∈ activePairs src)
    (h : p.streamPair = p'.streamPair) : p = p' := by
  obtain ⟨pair, -, e⟩ := List.mem_filterMap.mp hp
  obtain ⟨pair', -, e'⟩ := List.mem_filterMap.mp hp'
  rw [← activate_streamPair e, h] at e
  rw [← activate_streamPair e'] at e'
  exact Option.some.inj (e.symm.trans e')

theorem mem_naturalPairs :
    p ∈ naturalPairs src ↔ p ∈ activePairs src ∧ p.streamPair.isSynthetic = false := by
  simp [naturalPairs, List.mem_filter]

theorem mem_syntheticPairs :
    p ∈ syntheticPairs src ↔ p ∈ activePairs src ∧ p.streamPair.isSynthetic = true := by
  simp [syntheticPairs, List.mem_filter]

/-! ### Natural quotations -/

theorem buildNatural_eq_some (h : buildNaturalStreamQuotation src p = some q) :
    q.streamPair = p.streamPair ∧ q.key = p.key ∧ q.baseCurrency = p.baseCurrency ∧
      q.quoteCurrency = p.quoteCurrency ∧ 0 < q.buy ∧ 0 < q.sell := by
  obtain ⟨g, -, rfl⟩ := Option.map_eq_some_iff.mp h
  exact ⟨rfl, rfl, rfl, rfl, g.buy_pos, g.sell_pos⟩

/-- A natural pair is quoted once. -/
theorem naturalQuotations_ids : ((naturalQuotations src).map (·.streamPair.id)).Nodup := by
  refine List.pairwise_map.mpr ?_
  refine List.Pairwise.filterMap (buildNaturalStreamQuotation src) ?_
    (activePairs_ids.sublist List.filter_sublist)
  intro p p' hne q hq q' hq'
  rw [(buildNatural_eq_some hq).1, (buildNatural_eq_some hq').1]
  exact hne

theorem direct_eq_some :
    direct src id = some q ↔ q ∈ naturalQuotations src ∧ q.streamPair.id = id := by
  constructor
  · intro h
    exact ⟨List.mem_of_find?_eq_some h, by simpa using List.find?_some h⟩
  · rintro ⟨hq, rfl⟩
    refine find?_eq_some_of_forall hq (by simp) fun q' hq' h => ?_
    exact List.inj_on_of_nodup_map naturalQuotations_ids hq' hq (by simpa using h)

theorem direct_isSome :
    (direct src id).isSome ↔ id ∈ (naturalQuotations src).map (·.streamPair.id) := by
  constructor
  · intro h
    obtain ⟨q, hq⟩ := Option.isSome_iff_exists.mp h
    obtain ⟨hmem, rfl⟩ := direct_eq_some.mp hq
    exact List.mem_map_of_mem hmem
  · intro h
    obtain ⟨q, hmem, rfl⟩ := List.mem_map.mp h
    exact Option.isSome_iff_exists.mpr ⟨q, direct_eq_some.mpr ⟨hmem, rfl⟩⟩

/-- A pair that is quoted is stored and natural. -/
theorem natural_of_direct (h : (direct src id).isSome) :
    ∃ pair, (src.streamPairs.get? id).filter (! ·.isSynthetic) = some pair ∧ pair.id = id := by
  obtain ⟨q, hq⟩ := Option.isSome_iff_exists.mp h
  obtain ⟨hmem, hid⟩ := direct_eq_some.mp hq
  obtain ⟨p, hp, hbuild⟩ := List.mem_filterMap.mp hmem
  obtain ⟨hactive, hnatural⟩ := mem_naturalPairs.mp hp
  obtain ⟨pair, hpair, hactivate⟩ := List.mem_filterMap.mp hactive
  have hq_pair : q.streamPair = pair :=
    (buildNatural_eq_some hbuild).1.trans (activate_streamPair hactivate)
  rw [hq_pair] at hid
  have hget : src.streamPairs.get? id = some pair := hid ▸ Table.get?_of_mem hpair
  refine ⟨pair, ?_, hid⟩
  rw [activate_streamPair hactivate] at hnatural
  rw [hget, Option.filter_some, hnatural]
  rfl

/-! ### Synthetic quotations -/

/-- The pairs that are found for a list of ids are the pairs with these ids. -/
theorem found_ids
    (h : (ids.filterMap fun id => (src.streamPairs.get? id).filter (! ·.isSynthetic)).length
      = ids.length) :
    (ids.filterMap fun id => (src.streamPairs.get? id).filter (! ·.isSynthetic)).map (·.id)
      = ids := by
  have hall := List.filterMap_length_eq_length.mp h
  clear h
  induction ids with
  | nil => rfl
  | cons id ids ih =>
      obtain ⟨pair, hpair⟩ := Option.isSome_iff_exists.mp (hall id List.mem_cons_self)
      have hid : pair.id = id :=
        Table.key_of_get? ((Option.filter_eq_some_iff.mp hpair).1)
      simp only [List.filterMap_cons, hpair, List.map_cons, hid]
      rw [ih fun id' hid' => hall id' (List.mem_cons_of_mem id hid')]

/-- The natural quotations of a list of pairs. -/
def legsOf (src : Sources) (ids : List ℕ) : List StreamQuotation :=
  (naturalQuotations src).filter (·.streamPair.id ∈ ids)

theorem legsOf_nodup (ids : List ℕ) : ((legsOf src ids).map (·.streamPair.id)).Nodup :=
  naturalQuotations_ids.sublist (List.filter_sublist.map _)

theorem mem_legsOf :
    id ∈ (legsOf src ids).map (·.streamPair.id) ↔ (direct src id).isSome ∧ id ∈ ids := by
  rw [direct_isSome]
  simp only [legsOf, List.mem_map, List.mem_filter, decide_eq_true_eq]
  constructor
  · rintro ⟨q, ⟨hq, hid⟩, rfl⟩
    exact ⟨⟨q, hq, rfl⟩, hid⟩
  · rintro ⟨⟨q, hq, rfl⟩, hid⟩
    exact ⟨q, ⟨hq, hid⟩, rfl⟩

/-- As many quotations as ids: one for each id. -/
theorem legsOf_perm (h : (legsOf src ids).length = ids.length) :
    ((legsOf src ids).map (·.streamPair.id)).Perm ids := by
  refine ((legsOf_nodup ids).subperm fun id hid => (mem_legsOf.mp hid).2).perm_of_length_le ?_
  rw [List.length_map, h]

/-- The quotations are as many as the ids when each pair is listed once and quoted. -/
theorem legsOf_length :
    (legsOf src ids).length = ids.length ↔
      ids.Nodup ∧ ∀ id ∈ ids, (direct src id).isSome := by
  constructor
  · intro h
    have hperm := legsOf_perm h
    refine ⟨hperm.nodup_iff.mp (legsOf_nodup ids), fun id hid => ?_⟩
    exact (mem_legsOf.mp (hperm.mem_iff.mpr hid)).1
  · rintro ⟨hnodup, hall⟩
    have hperm : ((legsOf src ids).map (·.streamPair.id)).Perm ids := by
      refine (List.perm_ext_iff_of_nodup (legsOf_nodup ids) hnodup).mpr fun id => ?_
      exact ⟨fun hid => (mem_legsOf.mp hid).2, fun hid => mem_legsOf.mpr ⟨hall id hid, hid⟩⟩
    have hlength := hperm.length_eq
    rwa [List.length_map] at hlength

/-- The prices of the quotations are the prices of the legs, in another order. -/
theorem legsOf_prices (h : (legsOf src ids).length = ids.length)
    (hprices : ids.map (legPrices src) = prices.map some) :
    ((legsOf src ids).map fun q => (q.buy, q.sell)).Perm prices := by
  have hlegs : ((legsOf src ids).map (·.streamPair.id)).map (legPrices src) =
      ((legsOf src ids).map fun q => (q.buy, q.sell)).map some := by
    rw [List.map_map, List.map_map]
    refine List.map_congr_left fun q hq => ?_
    have hdirect : direct src q.streamPair.id = some q :=
      direct_eq_some.mpr ⟨List.mem_of_mem_filter hq, rfl⟩
    simp [legPrices, hdirect]
  have hperm := (legsOf_perm h).map (legPrices src)
  rw [hlegs, hprices] at hperm
  exact (List.map_perm_map_iff (Option.some_injective _)).mp hperm

theorem foldl_mul (f : StreamQuotation → ℚ) (l : List StreamQuotation) (x : ℚ) :
    l.foldl (fun acc q => acc * f q) x = x * (l.map f).prod := by
  induction l generalizing x with
  | nil => rw [List.foldl_nil, List.map_nil, List.prod_nil, mul_one]
  | cons q l ih => rw [List.foldl_cons, ih, List.map_cons, List.prod_cons, mul_assoc]

/-- The quotation of a synthetic pair can be built when its legs are different quoted pairs. -/
theorem buildSynthetic_isSome (hs : p.streamPair.isSynthetic) :
    (buildSyntheticPair src (naturalQuotations src) p).isSome ↔ Quotable src p := by
  rw [Quotable, if_pos hs, ← legsOf_length, buildSyntheticPair]
  constructor
  · intro h
    split at h
    · cases h
    · next hfound =>
        rw [found_ids (not_not.mp hfound)] at h
        dsimp only at h
        split at h
        · cases h
        · next hlegs => exact (not_not.mp hlegs).trans (not_not.mp hfound)
  · intro h
    have hall := (legsOf_length.mp h).2
    have hfound := List.filterMap_length_eq_length.mpr fun id hid => by
      obtain ⟨pair, hpair, -⟩ := natural_of_direct (hall id hid)
      exact Option.isSome_iff_exists.mpr ⟨pair, hpair⟩
    rw [if_neg (not_not.mpr hfound), found_ids hfound]
    exact congrArg Option.isSome (if_neg (not_not.mpr (h.trans hfound.symm)))

/-- Its prices are the products of the prices of the legs. -/
theorem buildSynthetic_eq_some (h : buildSyntheticPair src (naturalQuotations src) p = some q) :
    q.streamPair = p.streamPair ∧ q.key = p.key ∧
      ∀ prices : List (ℚ × ℚ), p.streamPair.composedBy.map (legPrices src) = prices.map some →
        q.buy = (prices.map (·.1)).prod ∧ q.sell = (prices.map (·.2)).prod := by
  rw [buildSyntheticPair] at h
  split at h
  · cases h
  · next hfound =>
      rw [found_ids (not_not.mp hfound)] at h
      dsimp only at h
      split at h
      · cases h
      · next hlegs =>
          obtain rfl := Option.some.inj h
          refine ⟨rfl, rfl, fun prices hprices => ?_⟩
          have hperm := legsOf_prices ((not_not.mp hlegs).trans (not_not.mp hfound)) hprices
          have hbuy := (hperm.map (·.1)).prod_eq
          have hsell := (hperm.map (·.2)).prod_eq
          rw [List.map_map] at hbuy hsell
          constructor
          · exact (foldl_mul (·.buy) (legsOf src p.streamPair.composedBy) 1).trans
              ((one_mul _).trans hbuy)
          · exact (foldl_mul (·.sell) (legsOf src p.streamPair.composedBy) 1).trans
              ((one_mul _).trans hsell)

/-! ### What is stored -/

/-- The quotation that the use case makes of a pair. -/
def quote (src : Sources) (p : ActivePair) : Option StreamQuotation :=
  if p.streamPair.isSynthetic then buildSyntheticPair src (naturalQuotations src) p
  else buildNaturalStreamQuotation src p

theorem quote_isSome : (quote src p).isSome ↔ Quotable src p := by
  rw [quote]
  split
  · next hs => exact buildSynthetic_isSome hs
  · next hs => rw [Quotable, if_neg hs, buildNaturalStreamQuotation, Option.isSome_map]

theorem quote_eq_some (h : quote src p = some q) : q.streamPair = p.streamPair ∧ q.key = p.key := by
  rw [quote] at h
  split at h
  · exact ⟨(buildSynthetic_eq_some h).1, (buildSynthetic_eq_some h).2.1⟩
  · exact ⟨(buildNatural_eq_some h).1, (buildNatural_eq_some h).2.1⟩

/-- What the use case makes of all pairs. -/
def streamQuotations (src : Sources) : List StreamQuotation :=
  naturalQuotations src ++ syntheticQuotations src

theorem mem_streamQuotations :
    q ∈ streamQuotations src ↔ ∃ p ∈ activePairs src, quote src p = some q := by
  rw [streamQuotations, List.mem_append, naturalQuotations, syntheticQuotations,
    List.mem_filterMap, List.mem_filterMap]
  constructor
  · rintro (⟨p, hp, hq⟩ | ⟨p, hp, hq⟩)
    · obtain ⟨hactive, hs⟩ := mem_naturalPairs.mp hp
      exact ⟨p, hactive, by rw [quote, hs]; exact hq⟩
    · obtain ⟨hactive, hs⟩ := mem_syntheticPairs.mp hp
      exact ⟨p, hactive, by rw [quote, hs]; exact hq⟩
  · rintro ⟨p, hactive, hq⟩
    rw [quote] at hq
    split at hq
    · next hs => exact .inr ⟨p, mem_syntheticPairs.mpr ⟨hactive, hs⟩, hq⟩
    · next hs =>
        exact .inl ⟨p, mem_naturalPairs.mpr ⟨hactive, Bool.eq_false_iff.mpr hs⟩, hq⟩

/-- An entry was there before, or is a quotation under its own key. -/
theorem foldl_setEntry_eq_some {l : List StreamQuotation} {stored : String → Option StreamQuotation}
    {key : String} (h : l.foldl setEntry stored key = some q) :
    stored key = some q ∨ q ∈ l ∧ key = q.key := by
  induction l generalizing stored with
  | nil => exact .inl h
  | cons q' l ih =>
      rcases ih h with h' | ⟨hmem, hkey⟩
      · by_cases hkey : key = q'.key
        · rw [setEntry, if_pos hkey] at h'
          obtain rfl := Option.some.inj h'
          exact .inr ⟨List.mem_cons_self, hkey⟩
        · rw [setEntry, if_neg hkey] at h'
          exact .inl h'
      · exact .inr ⟨List.mem_cons_of_mem q' hmem, hkey⟩

/-- A key that was written stays written. -/
theorem foldl_setEntry_isSome {l : List StreamQuotation}
    {stored : String → Option StreamQuotation} {key : String}
    (h : (stored key).isSome ∨ ∃ q ∈ l, q.key = key) :
    (l.foldl setEntry stored key).isSome := by
  induction l generalizing stored with
  | nil =>
      rcases h with h | ⟨q, hq, -⟩
      · exact h
      · cases hq
  | cons q' l ih =>
      refine ih ?_
      by_cases hkey : key = q'.key
      · exact .inl (by rw [setEntry, if_pos hkey]; rfl)
      · rcases h with h | ⟨q, hq, rfl⟩
        · exact .inl (by rw [setEntry, if_neg hkey]; exact h)
        · rcases List.mem_cons.mp hq with rfl | hq
          · exact absurd rfl hkey
          · exact .inr ⟨q, hq, rfl⟩

/-- The quotations that the use case leaves in an empty cache. -/
def storedBy (src : Sources) : String → Option StreamQuotation :=
  ((execute src).run Cache.empty).2.quotations

/-- Without a natural pair there is nothing to make a synthetic quotation of. -/
theorem streamQuotations_eq_nil (h : naturalPairs src = []) : streamQuotations src = [] := by
  have hnatural : naturalQuotations src = [] := by rw [naturalQuotations, h, List.filterMap_nil]
  rw [streamQuotations, hnatural, List.nil_append, syntheticQuotations, List.filterMap_eq_nil_iff]
  intro p hp
  have hs := (mem_syntheticPairs.mp hp).2
  by_contra hne
  have hq := (buildSynthetic_isSome hs).mp (Option.isSome_iff_ne_none.mpr hne)
  rw [Quotable, if_pos hs] at hq
  obtain ⟨id, hid⟩ := List.exists_mem_of_ne_nil _ (of_decide_eq_true hs)
  have hmem := direct_isSome.mp (hq.2 id hid)
  rw [hnatural] at hmem
  cases hmem

/-- Nothing is stored without a synthetic pair, and everything with one. -/
theorem storedBy_eq :
    storedBy src = if syntheticPairs src = [] then fun _ => none
      else (streamQuotations src).foldl setEntry fun _ => none := by
  by_cases hs : syntheticPairs src = []
  · rw [if_pos hs, storedBy, execute, if_pos hs]
    split_ifs <;> rfl
  · have hactive : activePairs src ≠ [] := fun h =>
      hs (by rw [syntheticPairs, h, List.filter_nil])
    have hrows : src.streamPairs.rows ≠ [] := fun h =>
      hactive (by rw [activePairs, h, List.filterMap_nil])
    have hcurrencies : src.getAllActiveCurrencies ≠ [] := fun h =>
      hactive (List.filterMap_eq_nil_iff.mpr fun pair _ => by rw [activate, h]; rfl)
    rw [if_neg hs, storedBy, execute, if_neg hrows, if_neg hcurrencies, if_neg hactive, if_neg hs]
    by_cases hnatural : naturalPairs src = []
    · rw [if_pos hnatural, streamQuotations_eq_nil hnatural]
      rfl
    · rw [if_neg hnatural]
      by_cases hnil : streamQuotations src = []
      · rw [hnil]
        exact congrArg (fun x : StateM Cache (List StreamQuotation) =>
          (x.run Cache.empty).2.quotations) (if_pos hnil)
      · exact congrArg (fun x : StateM Cache (List StreamQuotation) =>
          (x.run Cache.empty).2.quotations) (if_neg hnil)

/-- A quotation that is stored is the quotation of an active pair, under its key. -/
theorem quote_of_stored {key : String} (h : storedBy src key = some q) :
    (∃ p ∈ activePairs src, quote src p = some q) ∧ key = q.key := by
  rw [storedBy_eq] at h
  split at h
  · cases h
  · rcases foldl_setEntry_eq_some h with h | ⟨hmem, hkey⟩
    · cases h
    · exact ⟨mem_streamQuotations.mp hmem, hkey⟩

/-- Where the keys differ, what can be quoted is stored. -/
theorem stored_of_quote (hkeys : Composable src) (hp : p ∈ activePairs src)
    (h : quote src p = some q) : storedBy src p.key = some q := by
  have hquotable : Quotable src p := quote_isSome.mp (by rw [h]; rfl)
  have hs : syntheticPairs src ≠ [] := by
    intro hnil
    cases e : p.streamPair.isSynthetic with
    | false => exact hkeys.synthetic hnil p (mem_naturalPairs.mpr ⟨hp, e⟩) hquotable
    | true =>
        have hmem := mem_syntheticPairs.mpr ⟨hp, e⟩
        rw [hnil] at hmem
        cases hmem
  have hsome : (storedBy src p.key).isSome := by
    rw [storedBy_eq, if_neg hs]
    exact foldl_setEntry_isSome
      (.inr ⟨q, mem_streamQuotations.mpr ⟨p, hp, h⟩, (quote_eq_some h).2⟩)
  obtain ⟨q', hq'⟩ := Option.isSome_iff_exists.mp hsome
  obtain ⟨⟨p', hp', h'⟩, hkey⟩ := quote_of_stored hq'
  have hsame : p = p' := hkeys.keys p hp p' hp' hquotable
    (quote_isSome.mp (by rw [h']; rfl)) (hkey.trans (quote_eq_some h').2)
  subst hsame
  rwa [← h, h']

/-! ### Prices -/

theorem legPrices_pos {x : ℚ × ℚ} (h : legPrices src id = some x) : 0 < x.1 ∧ 0 < x.2 := by
  have hpos : ∀ q ∈ naturalQuotations src, 0 < q.buy ∧ 0 < q.sell := by
    intro q hq
    obtain ⟨p, -, hbuild⟩ := List.mem_filterMap.mp hq
    exact ⟨(buildNatural_eq_some hbuild).2.2.2.2.1, (buildNatural_eq_some hbuild).2.2.2.2.2⟩
  rw [legPrices] at h
  split at h
  · next q hq =>
      obtain rfl := Option.some.inj h
      exact hpos q (direct_eq_some.mp hq).1
  · obtain ⟨q, hq, rfl⟩ := Option.map_eq_some_iff.mp h
    obtain ⟨pair, -, hfind⟩ := Option.bind_eq_some_iff.mp hq
    obtain ⟨hbuy, hsell⟩ := hpos q (List.mem_of_find?_eq_some hfind)
    exact ⟨inv_pos.mpr hsell, inv_pos.mpr hbuy⟩

theorem legPrices_isSome (h : (direct src id).isSome) : (legPrices src id).isSome := by
  obtain ⟨q, hq⟩ := Option.isSome_iff_exists.mp h
  rw [legPrices, hq]
  rfl

/-- Legs with prices have a list of prices. -/
theorem exists_prices (h : ∀ id ∈ ids, (legPrices src id).isSome) :
    ∃ prices : List (ℚ × ℚ), ids.map (legPrices src) = prices.map some := by
  induction ids with
  | nil => exact ⟨[], rfl⟩
  | cons id ids ih =>
      obtain ⟨x, hx⟩ := Option.isSome_iff_exists.mp (h id List.mem_cons_self)
      obtain ⟨prices, hprices⟩ := ih fun id' hid' => h id' (List.mem_cons_of_mem id hid')
      exact ⟨x :: prices, by rw [List.map_cons, List.map_cons, hx, hprices]⟩

theorem isSome_of_prices
    (h : ids.map (legPrices src) = prices.map some) : ∀ id ∈ ids, (legPrices src id).isSome := by
  intro id hid
  have hmem : legPrices src id ∈ prices.map some := h ▸ List.mem_map_of_mem hid
  obtain ⟨x, -, hx⟩ := List.mem_map.mp hmem
  rw [← hx]
  rfl

theorem prices_pos
    (h : ids.map (legPrices src) = prices.map some) : ∀ x ∈ prices, 0 < x.1 ∧ 0 < x.2 := by
  intro x hx
  have hmem : some x ∈ ids.map (legPrices src) := h ▸ List.mem_map_of_mem hx
  obtain ⟨id, -, hid⟩ := List.mem_map.mp hmem
  exact legPrices_pos hid

/-! ### The main result -/

theorem complete_of_composable (h : Composable src) : Complete src (storedBy src) where
  natural p hp g hg := by
    obtain ⟨hactive, hs⟩ := mem_naturalPairs.mp hp
    have hquote : quote src p = buildNaturalStreamQuotation src p := by
      rw [quote, hs]
      rfl
    have hbuild := hquote.trans (congrArg (Option.map _) hg)
    exact ⟨_, stored_of_quote h hactive hbuild, rfl, rfl, rfl⟩
  synthetic p hp prices hprices := by
    obtain ⟨hactive, hs⟩ := mem_syntheticPairs.mp hp
    have hquotable := h.legs p hp (isSome_of_prices hprices)
    obtain ⟨q, hq⟩ := Option.isSome_iff_exists.mp (quote_isSome.mpr hquotable)
    have hbuild : buildSyntheticPair src (naturalQuotations src) p = some q := by
      rwa [quote, hs] at hq
    obtain ⟨hpair, -, hproducts⟩ := buildSynthetic_eq_some hbuild
    obtain ⟨hbuy, hsell⟩ := hproducts prices hprices
    refine ⟨q, stored_of_quote h hactive hq, hpair, hbuy, hsell, fun hlegs => ?_⟩
    rw [hbuy, hsell]
    exact List.prod_map_le_prod_map₀ _ _ (fun x hx => (prices_pos hprices x hx).2.le) hlegs
  missing key q hq hs id hid := by
    obtain ⟨⟨p, hp, hquote⟩, -⟩ := quote_of_stored hq
    have hquotable : Quotable src p := quote_isSome.mp (by rw [hquote]; rfl)
    rw [(quote_eq_some hquote).1] at hs hid
    rw [Quotable, if_pos hs] at hquotable
    exact legPrices_isSome (hquotable.2 id hid)
  once key q key' q' hq hq' hpair := by
    obtain ⟨⟨p, hp, hquote⟩, hkey⟩ := quote_of_stored hq
    obtain ⟨⟨p', hp', hquote'⟩, hkey'⟩ := quote_of_stored hq'
    obtain rfl := eq_of_streamPair hp hp'
      ((quote_eq_some hquote).1.symm.trans (hpair.trans (quote_eq_some hquote').1))
    have hsame : q = q' := Option.some.inj (hquote.symm.trans hquote')
    exact ⟨hkey.trans (hsame ▸ hkey'.symm), hsame⟩

/-- In a complete cache each pair that can be quoted has a quotation of its own. -/
theorem stored_of_complete (h : Complete src (storedBy src)) (hp : p ∈ activePairs src)
    (hquotable : Quotable src p) :
    ∃ q, storedBy src p.key = some q ∧ q.streamPair = p.streamPair := by
  rw [Quotable] at hquotable
  split at hquotable
  · next hs =>
      obtain ⟨prices, hprices⟩ := exists_prices fun id hid =>
        legPrices_isSome (hquotable.2 id hid)
      obtain ⟨q, hq, hpair, -⟩ :=
        h.synthetic p (mem_syntheticPairs.mpr ⟨hp, hs⟩) prices hprices
      exact ⟨q, hq, hpair⟩
  · next hs =>
      obtain ⟨g, hg⟩ := Option.isSome_iff_exists.mp hquotable
      obtain ⟨q, hq, hpair, -⟩ :=
        h.natural p (mem_naturalPairs.mpr ⟨hp, Bool.eq_false_iff.mpr hs⟩) g hg
      exact ⟨q, hq, hpair⟩

theorem composable_of_complete (h : Complete src (storedBy src)) : Composable src where
  synthetic hnil p hp hquotable := by
    obtain ⟨q, hq, -⟩ := stored_of_complete h (mem_naturalPairs.mp hp).1 hquotable
    rw [storedBy_eq, if_pos hnil] at hq
    cases hq
  keys p hp p' hp' hquotable hquotable' hkey := by
    obtain ⟨q, hq, hpair⟩ := stored_of_complete h hp hquotable
    obtain ⟨q', hq', hpair'⟩ := stored_of_complete h hp' hquotable'
    rw [hkey, hq'] at hq
    obtain rfl := Option.some.inj hq
    exact eq_of_streamPair hp hp' (hpair.symm.trans hpair')
  legs p hp hlegs := by
    obtain ⟨prices, hprices⟩ := exists_prices hlegs
    obtain ⟨q, hq, hpair, -⟩ := h.synthetic p hp prices hprices
    obtain ⟨⟨p', hp', hquote⟩, -⟩ := quote_of_stored hq
    have hsame : p' = p := eq_of_streamPair hp' (mem_syntheticPairs.mp hp).1
      ((quote_eq_some hquote).1.symm.trans hpair)
    subst hsame
    exact quote_isSome.mp (by rw [hquote]; rfl)

def brl : Currency := ⟨1, "BRL", 2, true⟩

def btc : Currency := ⟨2, "BTC", 8, true⟩

def btcBrl : StreamPair := ⟨1, 2, 1, 1, "B2C2", []⟩

theorem sampleBuy_pos : (0 : ℚ) < 300000 := by decide

theorem sampleSell_pos : (0 : ℚ) < 290000 := by decide

def onlyNatural : Sources where
  streamPairs := ⟨[btcBrl], List.nodup_singleton _⟩
  getAllActiveCurrencies := [brl, btc]
  streamQuotationGateway _ _ _ := some ⟨300000, 290000, 1, sampleBuy_pos, sampleSell_pos⟩

end ZroServices.Quotations
