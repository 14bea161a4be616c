import ZroServices.Otc.GroupInvariant

/-!
# OTC — the limits of the PSP

`HandleCreateAndAcceptExchangeQuotationEventUseCase` reads the remittances of a batch back and asks
the PSP for a quotation of what they net to.  What the PSP takes in one trade and in one day is
limited, and `SyncOpenRemittanceUseCase` keeps to it: the group has the net of its remittances when
it is sent, and its daily amount counts the batches that were sent for it on that day (`Counted`).
The daily amount is one of the cached group: `run_limits` is about each group and each day of
emission, and two groups may take more in a day than one (`two_systems`).
-/

namespace ZroServices.Otc

open Foundation SyncOpenRemittanceUseCase

/-! ### What is asked for -/

inductive ExchangeQuotationState where
  | PENDING
  | ACCEPTED
  | APPROVED
  | COMPLETED
  | REJECTED
  | CANCELED
  deriving DecidableEq, Repr

/-- `CreateExchangeQuotationRequest`. -/
structure CreateExchangeQuotationRequest where
  side : RemittanceSide
  currencyTag : CurrencyTag
  amount : ℤ
  sendDate : ℤ
  receiveDate : ℤ
  zroBankPartnerId : ℕ
  deriving DecidableEq, Repr

namespace HandleCreateAndAcceptExchangeQuotationEventUseCase

inductive Exception where
  | missingData (fields : List String)
  | remittanceNotFound (id : Uuid)
  | remittanceInvalidStatus (id : Uuid)
  | exchangeQuotationInvalidState (state : ExchangeQuotationState)
  | currencyNotFound (tag : CurrencyTag)
  | streamQuotationNotFound
  deriving DecidableEq, Repr

/-- The states of the quotations of a remittance, and what other services answer. -/
structure Services where
  createExchangeQuotationDeactive : Bool
  exchangeQuotations : Uuid → List ExchangeQuotationState
  currencyFound : CurrencyTag → Bool
  streamQuotationFound : Bool
  zroBankPartnerId : ℕ

variable (services : Services) (t : Table Remittance)

/-- The body of the loop of `validateRemittances`.  Only a remittance whose quotations are neither
pending nor accepted is processed again. -/
def validateRemittance (id : Uuid) : Except Exception Remittance :=
  match t.get? id with
  | none => throw (.remittanceNotFound id)
  | some remittance =>
      if remittance.status ≠ .WAITING then throw (.remittanceInvalidStatus id)
      else if remittance.amount = 0 then throw (.missingData ["Remittance Amount"])
      else
        match (services.exchangeQuotations id).find? fun state =>
            state = .PENDING ∨ state = .ACCEPTED with
        | some state => throw (.exchangeQuotationInvalidState state)
        | none => pure remittance

def validateRemittances (remittanceIds : List Uuid) : Except Exception (List Remittance) :=
  remittanceIds.mapM (validateRemittance services t)

/-- The amount of the remittances and its side. -/
def mountParams (remittances : List Remittance) : ℤ × RemittanceSide :=
  let groupAmount := remittances.foldl
    (fun acc cur => acc + if cur.side = .BUY then cur.amount else -cur.amount) 0
  (groupAmount, if 0 ≤ groupAmount then .BUY else .SELL)

/-- `execute`, up to the request that is sent to the PSP; none when the feature is switched off. -/
def createRequest (q : ReadyExchangeQuotation) :
    Except Exception (Option CreateExchangeQuotationRequest) :=
  if q.remittanceIds = [] ∨ q.currencyTag = "" then
    throw (.missingData ((if q.remittanceIds = [] then ["Remittance Ids"] else []) ++
      if q.currencyTag = "" then ["Currency tag"] else []))
  else if services.createExchangeQuotationDeactive then pure none
  else do
    let remittances ← validateRemittances services t q.remittanceIds
    if ! services.currencyFound q.currencyTag then throw (.currencyNotFound q.currencyTag)
    else if ! services.streamQuotationFound then throw .streamQuotationNotFound
    else pure (some {
      side := (mountParams remittances).2
      currencyTag := q.currencyTag
      amount := |(mountParams remittances).1|
      sendDate := q.sendDate
      receiveDate := q.receiveDate
      zroBankPartnerId := services.zroBankPartnerId })

end HandleCreateAndAcceptExchangeQuotationEventUseCase

open HandleCreateAndAcceptExchangeQuotationEventUseCase

variable {t t' : Table Remittance} {services : Services}

/-- The amount of remittances is the sum of their signed amounts. -/
theorem mountParams_fst (rs : List Remittance) : (mountParams rs).1 = (rs.map (·.signed)).sum := by
  have hsigned : ∀ r : Remittance, (if r.side = .BUY then r.amount else -r.amount) = r.signed := by
    intro r
    rw [Remittance.signed]
    cases r.side <;> rfl
  have hfold : ∀ (rs : List Remittance) (acc : ℤ), rs.foldl
      (fun acc cur => acc + if cur.side = .BUY then cur.amount else -cur.amount) acc
        = acc + (rs.map (·.signed)).sum := by
    intro rs
    induction rs with
    | nil => exact fun acc => (add_zero acc).symm
    | cons r rs ih =>
        intro acc
        rw [List.foldl_cons, ih, hsigned, List.map_cons, List.sum_cons, add_assoc]
  exact (hfold rs 0).trans (zero_add _)

/-- What the remittances of a batch net to, as they are stored. -/
def net (t : Table Remittance) (ids : List Uuid) : ℤ := (mountParams (ids.filterMap t.get?)).1

theorem net_eq (t : Table Remittance) (ids : List Uuid) : net t ids = amountIn t ids := by
  rw [net, mountParams_fst, amountIn]
  induction ids with
  | nil => rfl
  | cons id ids ih =>
      cases hr : t.get? id with
      | none => rw [List.filterMap_cons_none hr, ih, List.map_cons, List.sum_cons, hr]; simp
      | some r =>
          rw [List.filterMap_cons_some hr, List.map_cons, List.sum_cons, ih, List.map_cons,
            List.sum_cons, hr]
          rfl

theorem validateRemittance_ok {id : Uuid} {r : Remittance}
    (h : validateRemittance services t id = .ok r) : t.get? id = some r := by
  rw [validateRemittance] at h
  cases hr : t.get? id with
  | none => rw [hr] at h; cases h
  | some r' =>
      rw [hr] at h
      dsimp only at h
      split at h
      · cases h
      · split at h
        · cases h
        · split at h
          · cases h
          · exact congrArg some (Except.ok.inj h)

theorem validateRemittances_ok {ids : List Uuid} {rs : List Remittance}
    (h : validateRemittances services t ids = .ok rs) : ids.filterMap t.get? = rs := by
  induction ids generalizing rs with
  | nil => exact Except.ok.inj h
  | cons id ids ih =>
      rw [validateRemittances, List.mapM_cons] at h
      obtain ⟨r, hr, h⟩ := bind_eq_ok.mp h
      obtain ⟨rs', hrs, h⟩ := bind_eq_ok.mp h
      rw [List.filterMap_cons_some (validateRemittance_ok hr), ih hrs]
      exact Except.ok.inj h

/-- What is asked for is what the remittances net to. -/
theorem createRequest_ok {q : ReadyExchangeQuotation} {request : CreateExchangeQuotationRequest}
    (h : createRequest services t q = .ok (some request)) :
    request.amount = |net t q.remittanceIds| ∧
      request.side = if 0 ≤ net t q.remittanceIds then .BUY else .SELL := by
  rw [createRequest] at h
  split at h
  · cases h
  · split at h
    · cases h
    · obtain ⟨rs, hrs, h⟩ := bind_eq_ok.mp h
      rw [net, validateRemittances_ok hrs]
      split at h
      · cases h
      · split at h
        · cases h
        · cases h
          exact ⟨rfl, rfl⟩

/-! ### What is sent for a group in a day -/

/-- What the batches sent for the group of `key` on the day that begins at `day` net to. -/
def dayTotal (s : Stores) (key : GroupKey) (day : ℤ) : ℤ :=
  (((batches s).filter fun q => q.group = key ∧ startOf .day q.emittedAt = day).map
    fun q => net s.remittances q.remittanceIds).sum

variable {cfg : Config} {now clock : ℤ} {key key' : GroupKey} {s s' s₁ : Stores}
  {c c' c₁ : Current} {r last : Remittance} {i : ℕ} {p : Uuid} {id : Uuid} {day : ℤ}
  {q : ReadyExchangeQuotation} {d : ℤ × ℤ × List Uuid}
variable {new : List ReadyExchangeQuotation}

theorem startOf_mono {unit : MomentUnit} {t u : ℤ} (h : t ≤ u) : startOf unit t ≤ startOf unit u :=
  unit.period.start_strictMono.monotone (unit.period.index_mono h)

/-- The batches `new` were emitted, and what was sent or closed stays as it was. -/
structure Extends (s s' : Stores) (new : List ReadyExchangeQuotation) : Prop where
  batches : batches s' = batches s ++ new
  net : ∀ q ∈ Otc.batches s, net s'.remittances q.remittanceIds = net s.remittances q.remittanceIds
  done : ∀ id r, s.remittances.get? id = some r → r.status ≠ .OPEN →
    s'.remittances.get? id = some r

/-- The remittances of a batch wait, so they stay as they were. -/
theorem extends_of_done (h : Inv cfg s) (hbatches : batches s' = batches s ++ new)
    (hdone : ∀ id r, s.remittances.get? id = some r → r.status ≠ .OPEN →
      s'.remittances.get? id = some r) : Extends s s' new := by
  refine ⟨hbatches, fun q hq => ?_, hdone⟩
  rw [net_eq, net_eq]
  refine amountIn_congr fun id hid => ?_
  obtain ⟨r, hr, hwaits⟩ := h.waits q hq id hid
  rw [hr, hdone id r hr (by rw [hwaits]; decide)]

/-- Only remittances of a group, which are open, were touched. -/
theorem extends_of_same (h : Inv cfg s) {touched : List Uuid}
    (hbatches : batches s' = batches s ++ new)
    (htouched : ∀ id ∈ touched, InGroup cfg key s.remittances id)
    (hsame : ∀ id ∉ touched, ∀ r, s.remittances.get? id = some r →
      s'.remittances.get? id = some r) : Extends s s' new := by
  refine extends_of_done h hbatches fun id r hr hclosed => hsame id (fun m => ?_) r hr
  obtain ⟨r', -, hr', hopen, -⟩ := htouched id m
  obtain rfl := Option.some.inj (hr.symm.trans hr')
  exact hclosed hopen

/-- The day's total after more batches. -/
theorem Extends.dayTotal (h : Extends s s' new) :
    dayTotal s' key day = dayTotal s key day +
      ((new.filter fun q => q.group = key ∧ startOf .day q.emittedAt = day).map
        fun q => Otc.net s'.remittances q.remittanceIds).sum := by
  rw [Otc.dayTotal, h.batches, List.filter_append, List.map_append, List.sum_append, Otc.dayTotal]
  congr 2
  exact List.map_congr_left fun q hq => h.net q (List.mem_filter.mp hq).1

/-- Batches of another group, or of another day, do not count. -/
theorem Extends.dayTotal_eq (h : Extends s s' new)
    (hnew : ∀ q ∈ new, q.group = key → startOf .day q.emittedAt ≠ day) :
    Otc.dayTotal s' key day = Otc.dayTotal s key day := by
  rw [h.dayTotal, List.filter_eq_nil_iff.mpr]
  · exact add_zero _
  · exact fun q hq hmem => hnew q hq (of_decide_eq_true hmem).1 (of_decide_eq_true hmem).2

/-- One batch more of the group and of the day. -/
theorem Extends.dayTotal_sent (h : Extends s s' [q]) (hkey : q.group = key)
    (hday : startOf .day q.emittedAt = day) :
    Otc.dayTotal s' key day = Otc.dayTotal s key day + Otc.net s'.remittances q.remittanceIds := by
  have hone : [q].filter (fun q => q.group = key ∧ startOf .day q.emittedAt = day) = [q] :=
    List.filter_eq_self.mpr fun q' hq' => decide_eq_true (List.mem_singleton.mp hq' ▸ ⟨hkey, hday⟩)
  rw [h.dayTotal, hone, List.map_singleton, List.sum_singleton]

theorem dayTotal_eq_zero (h : ∀ q ∈ batches s, q.group = key → startOf .day q.emittedAt ≠ day) :
    dayTotal s key day = 0 := by
  rw [dayTotal, List.filter_eq_nil_iff.mpr]
  · rfl
  · intro q hq hmem
    obtain ⟨hkey, hday⟩ := of_decide_eq_true hmem
    exact h q hq hkey hday

/-- The daily amount, its date and the remittances that it counts, of a group. -/
def RemittanceCurrentGroup.daily (g : RemittanceCurrentGroup) : ℤ × ℤ × List Uuid :=
  (g.dailyAmount, g.dailyAmountDate, g.dailyRemittanceGroup)

/-- The daily amount, its date and the remittances that it counts, of the fields. -/
def Current.daily (c : Current) : ℤ × ℤ × List Uuid :=
  (c.dailyAmount, c.dailyAmountDate, c.dailyRemittanceGroupIds)

/-- The daily amount of the group of `key` counts what was sent for it on the day of the date, the
last day that something was sent, and the remittances that it lists are no longer open. -/
structure Counted (s : Stores) (key : GroupKey) (clock : ℤ) (daily : ℤ × ℤ × List Uuid) :
    Prop where
  date : startOf .day daily.2.1 ≤ startOf .day clock
  upTo : ∀ q ∈ batches s, q.group = key → startOf .day q.emittedAt ≤ startOf .day daily.2.1
  total : dayTotal s key (startOf .day daily.2.1) ≤ daily.1
  done : ∀ id ∈ daily.2.2, ∃ r, s.remittances.get? id = some r ∧ r.status ≠ .OPEN

/-- The limits of the PSP, and what the cached groups count. -/
structure Limits (cfg : Config) (clock : ℤ) (s : Stores) : Prop where
  trade : ∀ q ∈ batches s, cfg.pspTradeMinAmount ≤ net s.remittances q.remittanceIds ∧
    net s.remittances q.remittanceIds ≤ cfg.pspTradeMaxAmount
  day : ∀ key day, dayTotal s key day ≤ cfg.pspDailyMaxAmount
  grouped : ∀ q ∈ batches s, ∃ g ∈ s.currentGroups.rows, g.key = q.group
  counted : ∀ g ∈ s.currentGroups.rows, Counted s g.key clock g.daily

/-- What `Counted` says holds later. -/
theorem Counted.later (h : Counted s key clock d) (hclock : clock ≤ now) : Counted s key now d :=
  ⟨h.date.trans (startOf_mono hclock), h.upTo, h.total, h.done⟩

theorem Counted.congr (h : Counted s key clock d) (hrows : s'.remittances = s.remittances)
    (hbatches : batches s' = batches s) : Counted s' key clock d := by
  refine ⟨h.date, hbatches ▸ h.upTo, ?_, hrows ▸ h.done⟩
  rw [dayTotal, hrows, hbatches]
  exact h.total

/-- Batches of other groups do not count. -/
theorem Counted.other (h : Counted s key clock d)
    (he : Extends s s' new) (hnew : ∀ q ∈ new, q.group ≠ key) : Counted s' key clock d := by
  refine ⟨h.date, fun q hq hkey => ?_, ?_, fun id hid => ?_⟩
  · rw [he.batches] at hq
    rcases List.mem_append.mp hq with hq | hq
    · exact h.upTo q hq hkey
    · exact absurd hkey (hnew q hq)
  · exact (he.dayTotal_eq fun q hq hkey => absurd hkey (hnew q hq)).trans_le h.total
  · obtain ⟨r, hr, hclosed⟩ := h.done id hid
    exact ⟨r, he.done id r hr hclosed, hclosed⟩

/-- **Writing one group keeps the limits**, when the batches that are sent are of that group and
within the limits. -/
theorem Limits.upsert (h : Limits cfg clock s) (hclock : clock ≤ now)
    (hgroups : s'.currentGroups = s.currentGroups)
    (he : Extends s s' new)
    (hnew : ∀ q ∈ new, q.group = key ∧ cfg.pspTradeMinAmount ≤ net s'.remittances q.remittanceIds ∧
      net s'.remittances q.remittanceIds ≤ cfg.pspTradeMaxAmount)
    (hday : ∀ day, dayTotal s' key day ≤ cfg.pspDailyMaxAmount)
    (hc : Counted s' key now c.daily) :
    Limits cfg now { s' with currentGroups := s'.currentGroups.upsert (groupOf key c) } := by
  refine ⟨fun q hq => ?_, fun key' day => ?_, fun q hq => ?_, fun g hg => ?_⟩
  · change q ∈ batches s' at hq
    rw [he.batches] at hq
    rcases List.mem_append.mp hq with hq | hq
    · have htrade := h.trade q hq
      rw [← he.net q hq] at htrade
      exact htrade
    · exact (hnew q hq).2
  · by_cases hkey : key' = key
    · exact hkey ▸ hday day
    · have hother : dayTotal s' key' day = dayTotal s key' day :=
        he.dayTotal_eq fun q hq e => absurd (e.symm.trans (hnew q hq).1) hkey
      exact hother.trans_le (h.day key' day)
  · change q ∈ batches s' at hq
    by_cases hkey : q.group = key
    · exact ⟨groupOf key c, Table.mem_upsert.mpr (Or.inr rfl), hkey.symm⟩
    · rw [he.batches] at hq
      rcases List.mem_append.mp hq with hq | hq
      · obtain ⟨g, hg, hgkey⟩ := h.grouped q hq
        exact ⟨g, Table.mem_upsert.mpr (Or.inl ⟨hgroups ▸ hg, fun e => hkey (hgkey.symm.trans e)⟩),
          hgkey⟩
      · exact absurd (hnew q hq).1 hkey
  · rcases Table.mem_upsert.mp hg with ⟨hg, hne⟩ | rfl
    · rw [hgroups] at hg
      exact (((h.counted g hg).other he fun q hq e => hne (e.symm.trans (hnew q hq).1)).later
        hclock).congr rfl rfl
    · exact hc.congr rfl rfl

/-! ### One remittance -/

/-- What the cached group of a key counts, or an empty one. -/
theorem Limits.currentOf (h : Limits cfg clock s) (hclock : clock ≤ now) (createdAt : ℤ) :
    Counted s key now (currentOf now createdAt (s.currentGroups.get? key)).daily := by
  cases hg : s.currentGroups.get? key with
  | none =>
      have hnone : ∀ q ∈ batches s, q.group ≠ key := by
        intro q hq e
        obtain ⟨g, hmem, hkey⟩ := h.grouped q hq
        exact Table.get?_eq_none.mp hg g hmem (hkey.trans e)
      exact ⟨le_rfl, fun q hq e => absurd e (hnone q hq),
        (dayTotal_eq_zero fun q hq e => absurd e (hnone q hq)).le,
        fun _ hid => absurd hid List.not_mem_nil⟩
  | some g =>
      have hkey : g.key = key := Table.key_of_get? hg
      exact hkey ▸ (h.counted g (Table.mem_of_get? hg)).later hclock

/-- The daily constants, when a group is sent: they count what was sent for it today and the group,
and are not over the maximum. -/
theorem newDailyConstants_counted {today : ℤ × ℤ × List Uuid}
    (hcollected : Collected cfg key s.remittances c) (hc : Counted s key now c.daily)
    (htoday : newDailyConstants cfg now s.remittances c = some today) :
    dayTotal s key (startOf .day now) + c.groupAmount ≤ today.1 ∧
      today.1 ≤ cfg.pspDailyMaxAmount ∧ startOf .day today.2.1 = startOf .day now ∧
      ∀ id ∈ today.2.2, id ∈ c.dailyRemittanceGroupIds ∨ id ∈ c.currentGroupIds := by
  rw [newDailyConstants] at htoday
  by_cases hday : startOf .day now = startOf .day c.dailyAmountDate
  · have hnew : c.currentGroupIds.filter (· ∉ c.dailyRemittanceGroupIds) = c.currentGroupIds := by
      refine List.filter_eq_self.mpr fun id hid => decide_eq_true fun hid' => ?_
      obtain ⟨r, hr, hclosed⟩ := hc.done id hid'
      obtain ⟨r', -, hr', hopen, -⟩ := hcollected.inGroup id hid
      obtain rfl := Option.some.inj (hr.symm.trans hr')
      exact hclosed hopen
    rw [hnew, if_pos hday, ← hcollected.sum] at htoday
    obtain ⟨hmax, e⟩ := Option.ite_none_left_eq_some.mp htoday
    obtain rfl := Option.some.inj e
    have htotal := hc.total
    rw [show startOf .day c.daily.2.1 = startOf .day now from hday.symm] at htotal
    exact ⟨Int.add_le_add_right htotal _, not_lt.mp hmax, hday.symm,
      fun id hid => List.mem_append.mp hid⟩
  · rw [if_neg hday] at htoday
    obtain ⟨hmax, e⟩ := Option.ite_none_left_eq_some.mp htoday
    obtain rfl := Option.some.inj e
    have hlt : startOf .day c.dailyAmountDate < startOf .day now :=
      lt_of_le_of_ne hc.date fun e => hday e.symm
    have hzero : dayTotal s key (startOf .day now) = 0 :=
      dayTotal_eq_zero fun q hq e => ((hc.upTo q hq e).trans_lt hlt).ne
    rw [hzero, zero_add]
    exact ⟨le_abs_self _, not_lt.mp hmax, rfl, fun id hid => Or.inr hid⟩

/-- A new day counts nothing that was sent before it. -/
theorem Counted.newDay (h : Counted s key now d) (hday : startOf .day now ≠ startOf .day d.2.1) :
    Counted s key now (0, now, d.2.2) := by
  have hlt : startOf .day d.2.1 < startOf .day now := lt_of_le_of_ne h.date fun e => hday e.symm
  refine ⟨le_rfl, fun q hq e => (h.upTo q hq e).trans h.date, ?_, h.done⟩
  exact (dayTotal_eq_zero fun q hq e => ((h.upTo q hq e).trans_lt hlt).ne).le

/-- What a batch that is sent nets to: the amount of its group. -/
theorem net_sent {dates : SettlementDateCode × SettlementDateCode × ℤ × ℤ}
    (hc : Collected cfg key s.remittances c)
    (hs : Settles (settled .WAITING false dates) c.currentGroupIds s s') :
    net s'.remittances c.currentGroupIds = c.groupAmount := by
  rw [net_eq, hc.sum]
  refine amountIn_congr fun id hid => ?_
  rw [hs.remittances, if_pos hid, Option.map_map]
  rfl

/-- Handling a group keeps the limits. -/
theorem Handled.limits (hmin : cfg.pspTradeMinAmount ≤ cfg.pspTradeMaxAmount) (h : Inv cfg s)
    (hl : Limits cfg clock s) (hclock : clock ≤ now) (hb : Before cfg key s s₁ c)
    (hc : Counted s key now c.daily) (hh : Handled cfg now key last s₁ c c' s') :
    Limits cfg now { s' with currentGroups := s'.currentGroups.upsert (groupOf key c') } := by
  have before : Extends s s₁ [] :=
    extends_of_same h (hb.batches.trans (List.append_nil _).symm) hb.inGroup hb.same
  have hc₁ : Counted s₁ key now c.daily := hc.other before fun _ hq => absurd hq List.not_mem_nil
  have same := hh.same hb
  cases hh with
  | kept =>
      refine hl.upsert hclock hb.groups before (fun q hq => absurd hq List.not_mem_nil)
        (fun day => ?_) hc₁
      exact (before.dayTotal_eq fun q hq => absurd hq List.not_mem_nil).trans_le (hl.day key day)
  | closed hzero hs =>
      have he : Extends s s' [] := extends_of_same h
        (by rw [hs.batches, hb.batches, List.append_nil]) hb.inGroup same
      have hc' : Counted s' key now c.daily := hc.other he fun _ hq => absurd hq List.not_mem_nil
      refine hl.upsert hclock (hs.currentGroups.trans hb.groups) he
        (fun q hq => absurd hq List.not_mem_nil) (fun day => ?_) ?_
      · exact (he.dayTotal_eq fun q hq => absurd hq List.not_mem_nil).trans_le (hl.day key day)
      · split
        · exact hc'
        · rename_i hday
          rw [hzero]
          exact hc'.newDay hday
  | @sent s₂ today tag htoday hlimits hs =>
      have he : Extends s { s₂ with
          events := s₂.events ++ [.readyExchangeQuotation (readyBatch cfg now key tag last c)] }
          [readyBatch cfg now key tag last c] :=
        extends_of_same h (batches_sent (hs.batches.trans hb.batches)) hb.inGroup same
      have hnet : net s₂.remittances c.currentGroupIds = c.groupAmount :=
        net_sent hb.collected hs
      obtain ⟨htotal, hmax, hday, hids⟩ := newDailyConstants_counted hb.collected hc₁ htoday
      have hbefore : dayTotal s₁ key (startOf .day now) = dayTotal s key (startOf .day now) :=
        before.dayTotal_eq fun q hq => absurd hq List.not_mem_nil
      have hsent : dayTotal { s₂ with
          events := s₂.events ++ [.readyExchangeQuotation (readyBatch cfg now key tag last c)] }
          key (startOf .day now) ≤ today.1 := by
        have hkey : (readyBatch cfg now key tag last c).group = key := rfl
        have hemitted : startOf .day (readyBatch cfg now key tag last c).emittedAt
            = startOf .day now := rfl
        have hmore := he.dayTotal_sent hkey hemitted
        rw [← hbefore] at hmore
        exact (hmore.trans (congrArg (_ + ·) hnet)).trans_le htotal
      refine hl.upsert hclock (hs.currentGroups.trans hb.groups) he (fun q hq => ?_) (fun day => ?_) ?_
      · obtain rfl := List.mem_singleton.mp hq
        exact ⟨rfl, hnet.symm ▸ hlimits hmin⟩
      · by_cases hd : day = startOf .day now
        · exact hd ▸ hsent.trans hmax
        · refine (he.dayTotal_eq fun q hq _ e => hd ?_).trans_le (hl.day key day)
          obtain rfl := List.mem_singleton.mp hq
          exact e.symm
      · refine ⟨hday.le, fun q hq hkey => ?_, ?_, fun id hid => ?_⟩
        · rw [he.batches] at hq
          rcases List.mem_append.mp hq with hq | hq
          · exact ((hc.upTo q hq hkey).trans hc.date).trans hday.ge
          · obtain rfl := List.mem_singleton.mp hq
            exact hday.ge
        · exact (congrArg _ hday).trans_le hsent
        · rcases hids id hid with hid | hid
          · obtain ⟨r, hr, hclosed⟩ := hc.done id hid
            exact ⟨r, he.done id r hr hclosed, hclosed⟩
          · obtain ⟨r, hr⟩ := (hb.collected.inGroup id hid).stored
            exact ⟨_, (hs.remittances id).trans (by rw [if_pos hid, hr]; rfl),
              show RemittanceStatus.WAITING ≠ .OPEN by decide⟩

/-- Stores with the same groups and batches, and more remittances, are within the limits. -/
theorem Limits.extend (h : Limits cfg clock s) (hclock : clock ≤ now) (he : Extends s s' [])
    (hgroups : s'.currentGroups = s.currentGroups) : Limits cfg now s' := by
  have hbatches : batches s' = batches s := he.batches.trans (List.append_nil _)
  refine ⟨fun q hq => ?_, fun key day => ?_, fun q hq => ?_, fun g hg => ?_⟩
  · rw [hbatches] at hq
    exact (he.net q hq).symm ▸ h.trade q hq
  · exact (he.dayTotal_eq fun q hq => absurd hq List.not_mem_nil).trans_le (h.day key day)
  · rw [hgroups]
    exact h.grouped q (hbatches ▸ hq)
  · rw [hgroups] at hg
    exact ((h.counted g hg).other he fun q hq => absurd hq List.not_mem_nil).later hclock

theorem Extends.refl (s : Stores) : Extends s s [] :=
  ⟨(List.append_nil _).symm, fun _ _ => rfl, fun _ _ hr _ => hr⟩

/-- Taking a remittance keeps the limits, when it is split as it should be. -/
theorem Effect.limits (hmin : cfg.pspTradeMinAmount ≤ cfg.pspTradeMaxAmount) (h : Inv cfg s)
    (hl : Limits cfg clock s) (hclock : clock ≤ now)
    (hr : r.id ∉ s.updatedRemittancesIds → s.remittances.get? r.id = some r ∧ r.status = .OPEN)
    (hlast : LastSplit cfg now i r s) (he : Effect cfg now i r s s') : Limits cfg now s' := by
  cases he with
  | none => exact hl.extend hclock (.refl s) rfl
  | @grouped p c c' s' hcollects hg =>
      obtain ⟨hget, -⟩ := hr hcollects.fresh
      obtain ⟨last, c₁, s₁, hb, hh, hprepared⟩ := hg.before (hcollects.collected h hr) hget
        hcollects.new (hcollects.lastSplit hlast)
      have hdaily : c₁.daily = c.daily := by
        rcases hprepared with hp | ⟨-, -, -, rfl⟩
        · cases hp <;> rfl
        · rfl
      have hcounted : Counted s (groupKey cfg r p) now c₁.daily := by
        rw [hdaily, hcollects.current]
        exact hl.currentOf hclock r.createdAt
      exact hh.limits hmin h hl hclock hb hcounted

/-! ### Runs -/

/-- Time does not go back, and the remittance that is taken next meets `LastSplit`. -/
def Orderly (cfg : Config) (s : State) (l : ℤ × Command) : Prop :=
  s.clock ≤ l.1 ∧ SplitsLast cfg s l

instance (cfg : Config) (s : State) (l : ℤ × Command) : Decidable (Orderly cfg s l) :=
  inferInstanceAs (Decidable (_ ∧ _))

/-- **A step keeps the limits.** -/
theorem limits_step (hmin : cfg.pspTradeMinAmount ≤ cfg.pspTradeMaxAmount) {s : State}
    {l : ℤ × Command} (h : Inv cfg s.stores ∧ PageInv s) (hl : Limits cfg s.clock s.stores)
    (hok : Orderly cfg s l) : Limits cfg l.1 (step cfg s l).stores := by
  obtain ⟨hclock, hsplit⟩ := hok
  obtain ⟨now, command⟩ := l
  cases command with
  | create r =>
      exact hl.extend hclock (extends_of_done h.1 (List.append_nil _).symm
        fun _ _ hr _ => create_spec hr) rfl
  | begin => exact hl.extend hclock ⟨(List.append_nil _).symm, fun _ _ => rfl, fun _ _ hr _ => hr⟩ rfl
  | getAllByStatus page =>
      have hstores : (step cfg s (now, .getAllByStatus page)).stores = s.stores := by
        rw [step, execCommand]
        split <;> rfl
      rw [hstores]
      exact hl.extend hclock (.refl _) rfl
  | next =>
      by_cases hrun : s.running
      · rw [step, execCommand, if_pos hrun]
        cases hentries : s.page with
        | nil =>
            rw [takeNext_nil hentries]
            exact hl.extend hclock (.refl _) rfl
        | cons r page =>
            have hr := h.2.fresh r (hentries ▸ List.mem_cons_self)
            have hlast : LastSplit cfg now s.index r s.stores :=
              hsplit rfl hrun r (by rw [hentries]; rfl)
            have heffect := openRemittance_effect cfg now s.index (fun hx => (hr hx).1)
              fun g hg => ⟨h.1.nodup g hg, fun id hid => (h.1.inGroup g hg id hid).stored⟩
            have hlimits := heffect.limits hmin h.1 hl hclock hr hlast
            rw [← (takeNext_cons cfg now hentries).1] at hlimits
            exact hlimits
      · rw [step, execCommand, if_neg hrun]
        exact hl.extend hclock (.refl _) rfl

/-- A configuration of limits. -/
structure ValidConfig (cfg : Config) : Prop where
  min : 0 < cfg.pspTradeMinAmount
  max : cfg.pspTradeMinAmount ≤ cfg.pspTradeMaxAmount
  daily : 0 ≤ cfg.pspDailyMaxAmount

/-- The batches are within the limits: what is asked for and what they net to, each and together
for each group and day. -/
structure WithinLimits (cfg : Config) (s : Stores) : Prop where
  request : ∀ q ∈ batches s, ∀ services request,
    createRequest services s.remittances q = .ok (some request) → request.side = .BUY ∧
      cfg.pspTradeMinAmount ≤ request.amount ∧ request.amount ≤ cfg.pspTradeMaxAmount
  trade : ∀ q ∈ batches s, cfg.pspTradeMinAmount ≤ net s.remittances q.remittanceIds ∧
    net s.remittances q.remittanceIds ≤ cfg.pspTradeMaxAmount
  day : ∀ key day, dayTotal s key day ≤ cfg.pspDailyMaxAmount

theorem Limits.within (hcfg : ValidConfig cfg) (h : Limits cfg clock s) : WithinLimits cfg s := by
  refine ⟨fun q hq services request hrequest => ?_, h.trade, h.day⟩
  obtain ⟨hamount, hside⟩ := createRequest_ok hrequest
  have htrade := h.trade q hq
  have hpos : 0 ≤ net s.remittances q.remittanceIds := hcfg.min.le.trans htrade.1
  rw [hamount, hside, if_pos hpos, abs_of_nonneg hpos]
  exact ⟨rfl, htrade⟩

/-- **The batches are within the limits** over every run in which time does not go back and a
remittance that makes its group worth too much is split as it should be. -/
theorem run_limits (hcfg : ValidConfig cfg) {s : State} {ls : List (ℤ × Command)}
    (h : Inv cfg s.stores) (hpage : PageInv s) (hl : Limits cfg s.clock s.stores)
    (hok : Along (step cfg) (Orderly cfg) s ls) : WithinLimits cfg (run (step cfg) s ls).stores := by
  have hrun := Along.invariant
    (I := fun s => (Inv cfg s.stores ∧ PageInv s) ∧ Limits cfg s.clock s.stores)
    (fun _ _ h hok => ⟨inv_step h.1 hok.2, limits_step hcfg.max h.1 h.2 hok⟩) ⟨⟨h, hpage⟩, hl⟩ hok
  exact hrun.2.within hcfg

theorem limits_empty (hcfg : ValidConfig cfg) : Limits cfg State.empty.clock State.empty.stores :=
  ⟨fun _ hq => absurd hq List.not_mem_nil, fun _ _ => hcfg.daily,
    fun _ hq => absurd hq List.not_mem_nil, fun _ hg => absurd hg List.not_mem_nil⟩

open Sample in
theorem monday_limits : WithinLimits config (run (step config) .empty monday).stores :=
  have hcfg : ValidConfig config := ⟨by decide, by decide, by decide⟩
  run_limits hcfg inv_empty pageInv_empty (limits_empty hcfg) (by decide +kernel)

/-! ### Two groups in a day -/

namespace Sample

/-- On Monday a buy of 100 for each of two systems. -/
def systems : List (ℤ × Command) :=
  ([.create (remittance 1 1 .BUY 100 1), .create (remittance 2 2 .BUY 100 2), .begin,
    .getAllByStatus 1, .next, .next] : List Command).map (noon 4, ·)

end Sample

open Sample in
/-- Each system's group is sent: 200 are settled on Monday. -/
theorem two_systems :
    ∃ day, config.pspDailyMaxAmount <
      (((batches (run (step config) .empty systems).stores).filter
        fun q => startOf .day q.sendDate = day).map
          fun q => net (run (step config) .empty systems).stores.remittances q.remittanceIds).sum :=
  ⟨startOf .day (noon 4), by decide +kernel⟩

end ZroServices.Otc
