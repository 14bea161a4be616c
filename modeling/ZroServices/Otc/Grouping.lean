import ZroServices.Otc.SyncOpenRemittance

/-!
# OTC — what a step does to the groups

`openRemittance_effect` says what taking a remittance does, when the remittances of the cached
groups are stored: nothing, or one group gets the remittance and is then kept, closed or sent
(`Handled`), whole or with its last remittance split (`Prepared`).  Everything about the groups
and the batches is read off it.
-/

namespace ZroServices.Otc

open Foundation SyncOpenRemittanceUseCase

/-! ### Amounts and batches -/

/-- The sum of the signed amounts of the remittances. -/
def amountIn (t : Table Remittance) (ids : List Uuid) : ℤ :=
  (ids.map fun id => ((t.get? id).map (·.signed)).getD 0).sum

theorem amountIn_append (t : Table Remittance) (ids ids' : List Uuid) :
    amountIn t (ids ++ ids') = amountIn t ids + amountIn t ids' := by
  rw [amountIn, List.map_append, List.sum_append, amountIn, amountIn]

theorem amountIn_singleton {t : Table Remittance} {id : Uuid} {r : Remittance}
    (h : t.get? id = some r) : amountIn t [id] = r.signed := by
  simp [amountIn, h]

theorem amountIn_congr {t t' : Table Remittance} {ids : List Uuid}
    (h : ∀ id ∈ ids, (t.get? id).map (·.signed) = (t'.get? id).map (·.signed)) :
    amountIn t ids = amountIn t' ids := by
  rw [amountIn, amountIn, List.map_congr_left fun id hid => by rw [h id hid]]

/-- The batch of an event, if it is of one. -/
def Event.batch? : Event → Option ReadyExchangeQuotation
  | .readyExchangeQuotation q => some q
  | _ => none

/-- The batches that were emitted. -/
def batches (s : Stores) : List ReadyExchangeQuotation := s.events.filterMap (·.batch?)

/-! ### Updating the remittances of a group -/

/-- The remittances of `ids` are updated by `f`, and events other than batches are emitted. -/
structure Settles (f : Remittance → Remittance) (ids : List Uuid) (s s' : Stores) : Prop where
  remittances : ∀ id, s'.remittances.get? id =
    if id ∈ ids then (s.remittances.get? id).map f else s.remittances.get? id
  currentGroups : s'.currentGroups = s.currentGroups
  batches : batches s' = batches s
  updated : s'.updatedRemittancesIds = s.updatedRemittancesIds ++ ids

variable {cfg : Config} {now : ℤ} {s s' : Stores} {f : Remittance → Remittance}
  {event : Remittance → Event} {ids : List Uuid} {c c' : Current}

theorem getById_eq {id : Uuid} {r : Remittance} (h : s.remittances.get? id = some r) :
    RemittanceRepository.getById id s = .ok r s :=
  bind_ok.mpr ⟨s, s, get_ok.mpr ⟨rfl, rfl⟩, orThrow_ok.mpr ⟨h, rfl⟩⟩

theorem updateRemittance_eq {id : Uuid} {r : Remittance} (h : s.remittances.get? id = some r)
    (hf : ∀ r, (f r).id = r.id) (hevent : ∀ r, (event r).batch? = none) :
    ∃ s', updateRemittance f event id s = .ok () s' ∧ Settles f [id] s s' := by
  let s' : Stores := { s with
    remittances := s.remittances.set (f r)
    events := s.events ++ [event (f r)]
    updatedRemittancesIds := s.updatedRemittancesIds ++ [r.id] }
  have hrun : updateRemittance f event id s = .ok () s' :=
    bind_ok.mpr ⟨r, s, getById_eq h, rfl⟩
  refine ⟨s', hrun, ⟨fun x => ?_, rfl, ?_, ?_⟩⟩
  · have hid : r.id = id := Table.key_of_get? h
    change (s.remittances.set (f r)).get? x = _
    by_cases hx : x = id
    · subst hx
      rw [if_pos (List.mem_singleton_self x), h,
        Table.get?_set_self h (show Keyed.key (f r) = x from (hf r).trans hid)]
      rfl
    · rw [if_neg (fun m => hx (List.mem_singleton.mp m)), Table.get?_set_ne]
      exact fun e => hx (e.symm.trans ((hf r).trans hid))
  · change ((s.events ++ [event (f r)]).filterMap _) = _
    rw [List.filterMap_append, List.filterMap_cons_none (hevent _), List.filterMap_nil,
      List.append_nil]
    rfl
  · change s.updatedRemittancesIds ++ [r.id] = _
    rw [show r.id = id from Table.key_of_get? h]

theorem Settles.trans {id : Uuid} {s₁ : Stores} (h : Settles f [id] s s₁)
    (h' : Settles f ids s₁ s') (hid : id ∉ ids) : Settles f (id :: ids) s s' := by
  refine ⟨fun x => ?_, h'.currentGroups.trans h.currentGroups, h'.batches.trans h.batches, ?_⟩
  · rw [h'.remittances, h.remittances]
    by_cases hx : x = id
    · subst hx
      rw [if_neg hid, if_pos (List.mem_singleton_self x), if_pos List.mem_cons_self]
    · have hne : x ∉ [id] := fun m => hx (List.mem_singleton.mp m)
      rw [if_neg hne]
      by_cases hin : x ∈ ids
      · rw [if_pos hin, if_pos (List.mem_cons_of_mem id hin)]
      · rw [if_neg hin, if_neg fun m => (List.mem_cons.mp m).elim hx hin]
  · rw [h'.updated, h.updated, List.append_assoc, List.singleton_append]

/-- The loop over the remittances of a group. -/
theorem forM_updateRemittance (hids : ∀ id ∈ ids, ∃ r, s.remittances.get? id = some r)
    (hnodup : ids.Nodup) (hf : ∀ r, (f r).id = r.id) (hevent : ∀ r, (event r).batch? = none) :
    ∃ s', ids.forM (updateRemittance f event) s = .ok () s' ∧ Settles f ids s s' := by
  induction ids generalizing s with
  | nil => exact ⟨s, rfl, fun _ => by simp, rfl, rfl, (List.append_nil _).symm⟩
  | cons id ids ih =>
      rw [List.nodup_cons] at hnodup
      obtain ⟨r, hr⟩ := hids id List.mem_cons_self
      obtain ⟨s₁, h₁, hs₁⟩ := updateRemittance_eq hr hf hevent
      have hrest : ∀ x ∈ ids, ∃ r, s₁.remittances.get? x = some r := by
        intro x hx
        obtain ⟨r', hr'⟩ := hids x (List.mem_cons_of_mem id hx)
        have hne : x ∉ [id] := fun m => hnodup.1 (List.mem_singleton.mp m ▸ hx)
        exact ⟨r', by rw [hs₁.remittances, if_neg hne, hr']⟩
      obtain ⟨s', h', hs'⟩ := ih hrest hnodup.2
      exact ⟨s', (bind_of_ok h₁).trans h', hs₁.trans hs' hnodup.1⟩

/-! ### The daily constants -/

/-- The daily constants, from the stored remittances. -/
def newDailyConstants (cfg : Config) (now : ℤ) (t : Table Remittance) (c : Current) :
    Option (ℤ × ℤ × List Uuid) :=
  let ids := c.currentGroupIds.filter (· ∉ c.dailyRemittanceGroupIds)
  let daily : ℤ × ℤ × List Uuid :=
    if startOf .day now = startOf .day c.dailyAmountDate then
      (c.dailyAmount + amountIn t ids, c.dailyAmountDate, c.dailyRemittanceGroupIds ++ ids)
    else (|c.groupAmount|, now, c.currentGroupIds)
  if cfg.pspDailyMaxAmount < daily.1 then none else some daily

theorem mapM_getById (hids : ∀ id ∈ ids, ∃ r, s.remittances.get? id = some r) :
    ∃ rs, ids.mapM RemittanceRepository.getById s = .ok rs s ∧
      (rs.map (·.signed)).sum = amountIn s.remittances ids := by
  induction ids with
  | nil => exact ⟨[], rfl, rfl⟩
  | cons id ids ih =>
      obtain ⟨r, hr⟩ := hids id List.mem_cons_self
      obtain ⟨rs, hrs, hsum⟩ := ih fun x hx => hids x (List.mem_cons_of_mem id hx)
      refine ⟨r :: rs, ?_, ?_⟩
      · rw [List.mapM_cons, bind_of_ok (getById_eq hr), bind_of_ok hrs]
        rfl
      · rw [List.map_cons, List.sum_cons, hsum, ← amountIn_singleton hr, ← amountIn_append,
          List.singleton_append]

theorem calculateNewDailyConstants_eq
    (hids : ∀ id ∈ c.currentGroupIds, ∃ r, s.remittances.get? id = some r) :
    calculateNewDailyConstants cfg now c s = .ok (newDailyConstants cfg now s.remittances c) s := by
  have hnew : ∀ id ∈ c.currentGroupIds.filter (· ∉ c.dailyRemittanceGroupIds),
      ∃ r, s.remittances.get? id = some r := fun id hid => hids id (List.mem_filter.mp hid).1
  obtain ⟨rs, hrs, hsum⟩ := mapM_getById hnew
  rw [calculateNewDailyConstants, newDailyConstants]
  by_cases hday : startOf .day now = startOf .day c.dailyAmountDate
  · simp only [if_pos hday]
    rw [bind_of_ok hrs, bind_of_ok (pure_ok.mpr ⟨rfl, rfl⟩), hsum]
    dsimp only
    split <;> rfl
  · simp only [if_neg hday]
    rw [bind_of_ok (pure_ok.mpr ⟨rfl, rfl⟩)]
    dsimp only
    split <;> rfl

/-! ### What is done with a group -/

/-- The fields of an empty group. -/
def emptied (c : Current) : Current :=
  { c with groupAmount := 0, groupAmountDate := none, currentGroupIds := [] }

/-- The batch of the group of `key`, with `last` as its last remittance. -/
def readyBatch (cfg : Config) (now : ℤ) (key : GroupKey) (tag : CurrencyTag) (last : Remittance)
    (c : Current) : ReadyExchangeQuotation where
  sendDate := (defineSettlementDate cfg now last).2.2.1
  receiveDate := (defineSettlementDate cfg now last).2.2.2
  remittanceIds := c.currentGroupIds
  currencyTag := tag
  providerId := last.provider
  systemId := last.system
  group := key
  emittedAt := now

/-- What was done with the group of `key`, which has the remittance `last` as its last. -/
inductive Handled (cfg : Config) (now : ℤ) (key : GroupKey) (last : Remittance) (s : Stores)
    (c : Current) : Current → Stores → Prop
  | kept : Handled cfg now key last s c c s
  | closed {s' : Stores} (hzero : c.groupAmount = 0)
      (h : Settles (fun r => settled .CLOSED true (defineSettlementDate cfg now r) r)
        c.currentGroupIds s s') :
      Handled cfg now key last s c
        (emptied (if startOf .day now = startOf .day c.dailyAmountDate then c
          else { c with dailyAmountDate := now, dailyAmount := c.groupAmount })) s'
  | sent {s₁ : Stores} (daily : ℤ × ℤ × List Uuid) (tag : CurrencyTag)
      (hdaily : newDailyConstants cfg now s.remittances c = some daily)
      (hlimits : cfg.pspTradeMinAmount ≤ cfg.pspTradeMaxAmount →
        cfg.pspTradeMinAmount ≤ c.groupAmount ∧ c.groupAmount ≤ cfg.pspTradeMaxAmount)
      (h : Settles (settled .WAITING false (defineSettlementDate cfg now last))
        c.currentGroupIds s s₁) :
      Handled cfg now key last s c
        ⟨[], 0, none, daily.1, daily.2.1, daily.2.2⟩
        { s₁ with
          events := s₁.events ++ [.readyExchangeQuotation (readyBatch cfg now key tag last c)] }

variable {key : GroupKey} {tag : CurrencyTag} {last : Remittance} {i : ℕ}

theorem closeConcomitantRemittances_handled (hzero : c.groupAmount = 0)
    (hids : ∀ id ∈ c.currentGroupIds, ∃ r, s.remittances.get? id = some r)
    (hnodup : c.currentGroupIds.Nodup) :
    ∃ c' s', closeConcomitantRemittances cfg now c s = .ok c' s' ∧
      Handled cfg now key last s c c' s' := by
  obtain ⟨s', hrun, hs'⟩ := forM_updateRemittance
    (f := fun r => settled .CLOSED true (defineSettlementDate cfg now r) r) hids hnodup
    (fun _ => rfl) (fun r => show (Event.closedRemittance r).batch? = none from rfl)
  refine ⟨_, s', ?_, .closed hzero hs'⟩
  rw [closeConcomitantRemittances]
  split
  · exact bind_ok.mpr ⟨(), s', hrun, rfl⟩
  · exact bind_ok.mpr ⟨(), s', hrun, rfl⟩

theorem sendRemittancesToPsp_handled (cfg : Config) (now : ℤ) (key : GroupKey) (tag : CurrencyTag)
    (last : Remittance) {s : Stores} {c : Current}
    (hlimits : cfg.pspTradeMinAmount ≤ cfg.pspTradeMaxAmount →
      cfg.pspTradeMinAmount ≤ c.groupAmount ∧ c.groupAmount ≤ cfg.pspTradeMaxAmount)
    (hids : ∀ id ∈ c.currentGroupIds, ∃ r, s.remittances.get? id = some r)
    (hnodup : c.currentGroupIds.Nodup) :
    ∃ c' s', sendRemittancesToPsp cfg now key tag last c s = .ok c' s' ∧
      Handled cfg now key last s c c' s' := by
  have hconst : calculateNewDailyConstants cfg now c s
      = .ok (newDailyConstants cfg now s.remittances c) s := calculateNewDailyConstants_eq hids
  rw [sendRemittancesToPsp]
  cases hdaily : newDailyConstants cfg now s.remittances c with
  | none =>
      rw [hdaily] at hconst
      exact ⟨c, s, bind_ok.mpr ⟨none, s, hconst, rfl⟩, .kept⟩
  | some daily =>
      rw [hdaily] at hconst
      obtain ⟨s₁, hrun, hs₁⟩ := forM_updateRemittance
        (f := settled .WAITING false (defineSettlementDate cfg now last)) hids hnodup
        (fun _ => rfl) (fun r => show (Event.waitingRemittance r).batch? = none from rfl)
      exact ⟨_, _, bind_ok.mpr ⟨some daily, s, hconst, bind_ok.mpr ⟨(), s₁, hrun, rfl⟩⟩,
        .sent daily tag hdaily hlimits hs₁⟩

/-- What the last remittance keeps when it is split. -/
def remaining (cfg : Config) (c : Current) (r : Remittance) : Remittance :=
  { r with amount := r.amount - (c.groupAmount - cfg.pspTradeMaxAmount) }

/-- The remittance `r`, the group and the stores before the group is handled: as they were, or
with `r` split. -/
inductive Prepared (cfg : Config) (now : ℤ) (r : Remittance) (s : Stores) (c : Current) :
    Remittance → Current → Stores → Prop
  | whole : Prepared cfg now r s c r c s
  | split (id : Uuid) (t : Table Remittance) (orders : List RemittanceOrderRemittance)
      (hover : cfg.pspTradeMaxAmount < c.groupAmount) (hrest : 0 < (remaining cfg c r).amount)
      (hins : (s.remittances.set (remaining cfg c r)).insert?
        (overflowRemittance now id (c.groupAmount - cfg.pspTradeMaxAmount) (remaining cfg c r))
          = some t) :
      Prepared cfg now r s c (remaining cfg c r) { c with groupAmount := cfg.pspTradeMaxAmount }
        { s with
          remittances := t
          remittanceOrderRemittances := orders
          events := s.events ++ [.createdRemittance
            (overflowRemittance now id (c.groupAmount - cfg.pspTradeMaxAmount)
              (remaining cfg c r))] }

/-- What happened to the group `c` with its new remittance `r`, at index `i` of its page. -/
inductive GroupEffect (cfg : Config) (now : ℤ) (key : GroupKey) (r : Remittance) (i : ℕ)
    (s : Stores) (c : Current) : Current → Stores → Prop
  | handled {last : Remittance} {c₁ c' : Current} {s₁ s' : Stores}
      (hp : Prepared cfg now r s c last c₁ s₁) (h : Handled cfg now key last s₁ c₁ c' s') :
      GroupEffect cfg now key r i s c c' s'
  | spliced (hover : cfg.pspTradeMaxAmount < c.groupAmount) (hrest : (remaining cfg c r).amount ≤ 0) :
      GroupEffect cfg now key r i s c
        { c with
          groupAmount := c.groupAmount - r.signed
          currentGroupIds := c.currentGroupIds.eraseIdx i } s

/-- Rows that were stored are stored after a split. -/
theorem stored_split {r' new : Remittance} {t : Table Remittance}
    (hins : (s.remittances.set r').insert? new = some t) {x : Uuid}
    (h : ∃ r, s.remittances.get? x = some r) : ∃ r, t.get? x = some r := by
  obtain ⟨r, hr⟩ := h
  have hset : ∃ r, (s.remittances.set r').get? x = some r := by
    rw [Table.get?_set, hr]
    split
    · exact ⟨r', rfl⟩
    · exact ⟨r, rfl⟩
  obtain ⟨r₁, hr₁⟩ := hset
  exact ⟨r₁, Table.get?_insert?_of_some hins hr₁⟩

theorem splitAndSendRemittancesToPsp_effect {r : Remittance} (hpos : 0 < c.groupAmount)
    (hover : cfg.pspTradeMaxAmount < c.groupAmount)
    (hids : ∀ id ∈ c.currentGroupIds, ∃ r, s.remittances.get? id = some r)
    (hnodup : c.currentGroupIds.Nodup) :
    ∃ c' s', splitAndSendRemittancesToPsp cfg now key tag r i c s = .ok c' s' ∧
      GroupEffect cfg now key r i s c c' s' := by
  have habs : |c.groupAmount| = c.groupAmount := abs_of_pos hpos
  rw [splitAndSendRemittancesToPsp]
  by_cases hrest : (remaining cfg c r).amount ≤ 0
  · refine ⟨_, s, ?_, .spliced hover hrest⟩
    rw [if_pos (by rw [habs]; exact hrest)]
    rfl
  · rw [if_neg (by rw [habs]; exact hrest)]
    simp only [habs, if_pos hpos, sub_sub_cancel]
    obtain ⟨t, ht⟩ := Table.insert?_of_fresh (t := s.remittances.set (remaining cfg c r))
      (r := overflowRemittance now
        (fresh ((s.remittances.set (remaining cfg c r)).rows.map (·.id)))
        (c.groupAmount - cfg.pspTradeMaxAmount) (remaining cfg c r))
      (Table.get?_eq_none.mpr fun x hx e =>
        (lt_fresh (List.mem_map_of_mem (f := (·.id)) hx)).ne e)
    have hids' : ∀ id ∈ c.currentGroupIds, ∃ r, t.get? id = some r := fun id hid =>
      stored_split ht (hids id hid)
    let orders := s.remittanceOrderRemittances ++
      (s.remittanceOrderRemittances.filter (·.remittance = r.id)).map fun assoc =>
        (⟨assoc.remittanceOrder, fresh ((s.remittances.set (remaining cfg c r)).rows.map (·.id))⟩ :
          RemittanceOrderRemittance)
    have hlimits : cfg.pspTradeMinAmount ≤ cfg.pspTradeMaxAmount →
        cfg.pspTradeMinAmount ≤ cfg.pspTradeMaxAmount ∧
          cfg.pspTradeMaxAmount ≤ cfg.pspTradeMaxAmount := fun h => ⟨h, le_rfl⟩
    obtain ⟨c', s', hrun, hhandled⟩ := sendRemittancesToPsp_handled cfg now key tag
      (remaining cfg c r) (c := { c with groupAmount := cfg.pspTradeMaxAmount })
      (s := { s with
        remittances := t
        remittanceOrderRemittances := orders
        events := s.events ++ [.createdRemittance
          (overflowRemittance now (fresh ((s.remittances.set (remaining cfg c r)).rows.map (·.id)))
            (c.groupAmount - cfg.pspTradeMaxAmount) (remaining cfg c r))] }) hlimits hids' hnodup
    refine ⟨c', s', ?_, .handled (.split _ t orders hover (not_le.mp hrest) ht) hhandled⟩
    refine bind_ok.mpr ⟨(), { s with remittances := s.remittances.set (remaining cfg c r) }, rfl, ?_⟩
    refine bind_ok.mpr ⟨_, _, get_ok.mpr ⟨rfl, rfl⟩, ?_⟩
    refine bind_ok.mpr ⟨(), { s with remittances := t }, ?_, ?_⟩
    · exact bind_ok.mpr ⟨_, _, get_ok.mpr ⟨rfl, rfl⟩, bind_ok.mpr
        ⟨t, _, orThrow_ok.mpr ⟨ht, rfl⟩, rfl⟩⟩
    · exact bind_ok.mpr ⟨(), _, rfl, bind_ok.mpr ⟨(), _, rfl, hrun⟩⟩

theorem handleGroup_effect (cfg : Config) (now : ℤ) (key : GroupKey) (tag : CurrencyTag)
    (r : Remittance) (i : ℕ) {s : Stores} {c : Current}
    (hids : ∀ id ∈ c.currentGroupIds, ∃ r, s.remittances.get? id = some r)
    (hnodup : c.currentGroupIds.Nodup) :
    ∃ c' s', handleGroup cfg now key tag r i c s = .ok c' s' ∧ GroupEffect cfg now key r i s c c' s' := by
  rw [handleGroup]
  by_cases hzero : |c.groupAmount| = 0
  · rw [if_pos hzero]
    obtain ⟨c', s', hrun, h⟩ := closeConcomitantRemittances_handled (abs_eq_zero.mp hzero) hids hnodup
    exact ⟨c', s', hrun, .handled .whole h⟩
  · rw [if_neg hzero]
    by_cases hpos : 0 < c.groupAmount
    · rw [if_pos hpos, abs_of_pos hpos]
      by_cases hover : cfg.pspTradeMaxAmount < c.groupAmount
      · rw [if_pos hover]
        exact splitAndSendRemittancesToPsp_effect hpos hover hids hnodup
      · rw [if_neg hover]
        by_cases hin : cfg.pspTradeMinAmount ≤ c.groupAmount ∧ c.groupAmount ≤ cfg.pspTradeMaxAmount
        · rw [if_pos hin]
          obtain ⟨c', s', hrun, h⟩ := sendRemittancesToPsp_handled cfg now key tag r (fun _ => hin)
            hids hnodup
          exact ⟨c', s', hrun, .handled .whole h⟩
        · rw [if_neg hin]
          exact ⟨c, s, rfl, .handled .whole .kept⟩
    · rw [if_neg hpos]
      exact ⟨c, s, rfl, .handled .whole .kept⟩

/-! ### What taking a remittance does -/

/-- The stores after code that may throw. -/
def after {α : Type} (x : App α) (s : Stores) : Stores :=
  match x s with
  | .ok _ s' => s'
  | .error _ s' => s'

/-- The remittance is collected: it was not updated, its group is not over the daily maximum and
does not have it. -/
structure Collects (cfg : Config) (now : ℤ) (r : Remittance) (s : Stores) (p : Uuid)
    (c : Current) : Prop where
  fresh : r.id ∉ s.updatedRemittancesIds
  provider : r.provider = some p
  current : c = currentOf now r.createdAt (s.currentGroups.get? (groupKey cfg r p))
  daily : (newDailyConstants cfg now s.remittances c).isSome
  new : r.id ∉ c.currentGroupIds

/-- What taking the remittance `r` at index `i` of its page does to the stores. -/
inductive Effect (cfg : Config) (now : ℤ) (i : ℕ) (r : Remittance) (s : Stores) : Stores → Prop
  | none : Effect cfg now i r s s
  | grouped (p : Uuid) {c c' : Current} {s' : Stores} (hcollects : Collects cfg now r s p c)
      (h : GroupEffect cfg now (groupKey cfg r p) r i s (added r c) c' s') :
      Effect cfg now i r s { s' with
        currentGroups := s'.currentGroups.upsert (groupOf (groupKey cfg r p) c') }

/-- **What taking a remittance does**, when it is stored and so are the remittances of the cached
groups, each once. -/
theorem openRemittance_effect (cfg : Config) (now : ℤ) (i : ℕ) {r : Remittance}
    (hr : r.id ∉ s.updatedRemittancesIds → s.remittances.get? r.id = some r)
    (hgroups : ∀ g ∈ s.currentGroups.rows, g.remittanceGroup.Nodup ∧
      ∀ id ∈ g.remittanceGroup, ∃ r, s.remittances.get? id = some r) :
    Effect cfg now i r s (after (openRemittance cfg now i r) s) := by
  rw [after, openRemittance, bind_of_ok (get_ok.mpr ⟨rfl, rfl⟩)]
  by_cases hupdated : r.id ∈ s.updatedRemittancesIds
  · rw [if_pos hupdated]
    exact .none
  · rw [if_neg hupdated]
    cases htag : cfg.currencyTag r.currency with
    | none => exact .none
    | some tag =>
        rw [bind_of_ok (orThrow_ok.mpr ⟨rfl, rfl⟩)]
        cases hp : r.provider with
        | none => exact .none
        | some p =>
            rw [bind_of_ok (orThrow_ok.mpr ⟨rfl, rfl⟩)]
            generalize hc : currentOf now r.createdAt (s.currentGroups.get? (groupKey cfg r p)) = c
            have hstored : c.currentGroupIds.Nodup ∧
                ∀ id ∈ c.currentGroupIds, ∃ r, s.remittances.get? id = some r := by
              rw [← hc]
              cases hg : s.currentGroups.get? (groupKey cfg r p) with
              | none => exact ⟨List.nodup_nil, fun _ h => absurd h List.not_mem_nil⟩
              | some g => exact hgroups g (Table.mem_of_get? hg)
            rw [bind_of_ok (calculateNewDailyConstants_eq hstored.2)]
            by_cases hdaily : (newDailyConstants cfg now s.remittances c).isNone
            · rw [if_pos hdaily]
              exact .none
            · rw [if_neg hdaily]
              by_cases hin : r.id ∈ c.currentGroupIds
              · rw [if_pos hin]
                exact .none
              · rw [if_neg hin]
                have hids : ∀ id ∈ (added r c).currentGroupIds,
                    ∃ r, s.remittances.get? id = some r := by
                  intro id hid
                  rcases List.mem_append.mp hid with hid | hid
                  · exact hstored.2 id hid
                  · exact ⟨r, List.mem_singleton.mp hid ▸ hr hupdated⟩
                obtain ⟨c', s', hrun, h⟩ := handleGroup_effect cfg now (groupKey cfg r p) tag r i hids
                  (hstored.1.append (List.nodup_singleton r.id)
                    (List.disjoint_singleton.mpr hin))
                rw [bind_of_ok hrun]
                exact .grouped p
                  ⟨hupdated, hp, hc.symm, by simpa [Option.isSome_iff_ne_none] using hdaily, hin⟩ h

end ZroServices.Otc
