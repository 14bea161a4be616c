import ZroServices.Foundation.Outcome
import ZroServices.Otc.GroupInvariant

/-!
# OTC — splitting a remittance

A remittance that makes its group worth too much is split: it keeps what fits into the trade, and a
new remittance takes the overflow.  `split_conserves` says what both are, when the batch is about to
be sent and after it.  Until then they are the remittance in two parts (`Conserves`); sending gives
every remittance of the batch the batch's settlement codes, the part that is sent among them.

A closed remittance is passed on to the bot orders behind its remittance orders
(`HandleClosedRemittanceEventUseCase`), which are those that the remittance had before the split.
-/

namespace ZroServices.Otc

open Foundation SyncOpenRemittanceUseCase

/-- The remittance orders of a remittance. -/
def ordersOf (s : Stores) (id : Uuid) : List Uuid :=
  (s.remittanceOrderRemittances.filter (·.remittance = id)).map (·.remittanceOrder)

/-! ### A closed remittance -/

namespace HandleClosedRemittanceEventUseCase

inductive ClosedException where
  | missingData (fields : List String)
  | remittanceNotFound (id : Uuid)
  | remittanceInvalidStatus (id : Uuid)
  | cryptoRemittanceNotFound (id : Uuid)
  | typeError (message : String)
  | otcBot (message : String)
  deriving DecidableEq, Repr

/-- The orders, and the bot service. -/
structure Services where
  /-- The crypto remittance of a remittance order, if it has one. -/
  remittanceOrder : Uuid → Option (Option Uuid)
  cryptoRemittance : Uuid → Bool
  getAllByCryptoRemittance : Uuid → List Uuid
  updateBotOtcOrderByRemittance : Uuid → Remittance → Except ClosedException Unit

/-- The crypto orders that were passed on, with the remittance. -/
abbrev Handler := EStateM ClosedException (List (Uuid × Remittance))

variable (services : Services)

/-- Pass a crypto order on to the bot service. -/
def updateBotOtcOrder (remittance : Remittance) (cryptoOrder : Uuid) : Handler Unit := do
  call (services.updateBotOtcOrderByRemittance cryptoOrder remittance)
  modify (· ++ [(cryptoOrder, remittance)])

/-- The loop over the remittance orders, which ends at one that is not stored. -/
def updateOrders (remittance : Remittance) : List Uuid → Handler Unit
  | [] => pure ()
  | id :: ids =>
      match services.remittanceOrder id with
      | none => pure ()
      | some cryptoRemittance => do
          let cryptoRemittance ← orThrow cryptoRemittance (.typeError "cryptoRemittance")
          throwIf (¬ services.cryptoRemittance cryptoRemittance)
            (.cryptoRemittanceNotFound cryptoRemittance)
          (services.getAllByCryptoRemittance cryptoRemittance).forM
            (updateBotOtcOrder services remittance)
          updateOrders remittance ids

/-- `execute`, for a remittance of `systemId`; the ids are what the event has. -/
def execute (s : Stores) (id systemId botOtcSystem : Option Uuid) : Handler Unit := do
  let (some id, some systemId, some botOtcSystem) := (id, systemId, botOtcSystem)
    | throw (.missingData ((if id.isNone then ["Remittance ID"] else []) ++
        (if systemId.isNone then ["Remittance system ID"] else []) ++
        (if botOtcSystem.isNone then ["Bot OTC system"] else [])))
  if botOtcSystem ≠ systemId then return ()
  let remittance ← orThrow (s.remittances.get? id) (.remittanceNotFound id)
  throwIf (remittance.status ≠ .CLOSED ∧ remittance.status ≠ .CLOSED_MANUALLY)
    (.remittanceInvalidStatus id)
  updateOrders services remittance (ordersOf s id)

/-- A closed remittance of the bot system goes through its remittance orders. -/
theorem execute_of_closed {s : Stores} {id system : Uuid} {r : Remittance}
    (hr : s.remittances.get? id = some r)
    (hclosed : r.status = .CLOSED ∨ r.status = .CLOSED_MANUALLY) :
    execute services s (some id) (some system) (some system)
      = updateOrders services r (ordersOf s id) := by
  have hopen : ¬ (r.status ≠ .CLOSED ∧ r.status ≠ .CLOSED_MANUALLY) := by tauto
  rw [execute]
  simp only [ne_eq, not_true_eq_false, if_false, hr, orThrow, throwIf, if_neg hopen, pure_bind]

end HandleClosedRemittanceEventUseCase

/-! ### The two parts -/

/-- The settlement codes of `r` are those of `r'`. -/
def SameCodes (r r' : Remittance) : Prop :=
  r.sendDateCode = r'.sendDateCode ∧ r.receiveDateCode = r'.receiveDateCode

/-- `last` and `new` are the remittance `r` in two parts, their settlement codes aside. -/
structure InTwo (r last new : Remittance) : Prop where
  amount : last.amount + new.amount = r.amount
  last_pos : 0 < last.amount
  new_pos : 0 < new.amount
  side : last.side = r.side ∧ new.side = r.side
  currency : last.currency = r.currency ∧ new.currency = r.currency
  system : last.system = r.system ∧ new.system = r.system
  provider : last.provider = r.provider ∧ new.provider = r.provider

/-- In the stores `s'` the remittance `r` of the stores `s` is replaced by `last` and `new`, its
settlement codes aside. -/
structure Replaced (s s' : Stores) (r last new : Remittance) : Prop where
  last_id : last.id = r.id
  last_row : s'.remittances.get? r.id = some last
  new_fresh : s.remittances.get? new.id = none
  new_row : s'.remittances.get? new.id = some new
  /-- No other remittance is stored. -/
  rows : ∀ row ∈ s'.remittances.rows,
    row.id = new.id ∨ ∃ row', s.remittances.get? row.id = some row'
  parts : InTwo r last new
  last_orders : ordersOf s' last.id = ordersOf s last.id
  new_orders : ordersOf s' new.id = ordersOf s new.id ++ ordersOf s r.id

/-- Splitting `r` conserved it: its amount, its side, currency, system and settlement codes, and its
orders. -/
def Conserves (s s' : Stores) (r : Remittance) : Prop :=
  ∃ last new, Replaced s s' r last new ∧ SameCodes last r ∧ SameCodes new r

/-- The group is worth more than a trade, and the remittance has more than what is too much. -/
structure SplitPoint (cfg : Config) (c : Current) (r : Remittance) : Prop where
  exceeds : cfg.pspTradeMaxAmount < |c.groupAmount|
  rest : 0 < r.amount - (|c.groupAmount| - cfg.pspTradeMaxAmount)

variable {cfg : Config} {now : ℤ} {key : GroupKey} {tag : CurrencyTag} {i : ℕ}
  {r last new : Remittance} {c : Current} {s s' s₁ : Stores} {ids : List Uuid}

/-- A remittance is in two parts when the second takes the overflow. -/
theorem inTwo_overflow (h : SplitPoint cfg c r) (now : ℤ) (id : Uuid) :
    InTwo r { r with amount := r.amount - (|c.groupAmount| - cfg.pspTradeMaxAmount) }
      (overflowRemittance now id (|c.groupAmount| - cfg.pspTradeMaxAmount)
        { r with amount := r.amount - (|c.groupAmount| - cfg.pspTradeMaxAmount) }) := by
  have hover : 0 < |c.groupAmount| - cfg.pspTradeMaxAmount := sub_pos.mpr h.exceeds
  refine ⟨?_, h.rest, abs_pos_of_pos hover, ⟨rfl, rfl⟩, ⟨rfl, rfl⟩, ⟨rfl, rfl⟩, ⟨rfl, rfl⟩⟩
  change r.amount - _ + |_| = r.amount
  rw [abs_of_pos hover, sub_add_cancel]

/-- The links of a remittance and of its new part, after a link of the part was added for each of
the remittance. -/
theorem ordersOf_copied (s : Stores) (links : List RemittanceOrderRemittance) {id new : Uuid}
    (hne : new ≠ id) :
    let copied := links ++ (links.filter (·.remittance = id)).map fun assoc =>
      (⟨assoc.remittanceOrder, new⟩ : RemittanceOrderRemittance)
    ordersOf { s with remittanceOrderRemittances := copied } id
        = ordersOf { s with remittanceOrderRemittances := links } id ∧
      ordersOf { s with remittanceOrderRemittances := copied } new
        = ordersOf { s with remittanceOrderRemittances := links } new
          ++ ordersOf { s with remittanceOrderRemittances := links } id := by
  constructor
  · simp [ordersOf, List.filter_append, List.filter_map, Function.comp_def, hne]
  · simp [ordersOf, List.filter_append, List.filter_map, Function.comp_def]

/-- **The split conserves the remittance**, and what follows it is that the batch is sent. -/
theorem conserves_split (cfg : Config) (now : ℤ) (key : GroupKey) (tag : CurrencyTag) (i : ℕ)
    (hr : s.remittances.get? r.id = some r) (h : SplitPoint cfg c r) :
    ∃ last new c₁ s₁, splitAndSendRemittancesToPsp cfg now key tag r i c s
        = sendRemittancesToPsp cfg now key tag last c₁ s₁ ∧
      Replaced s s₁ r last new ∧ SameCodes last r ∧ SameCodes new r ∧
      c₁.currentGroupIds = c.currentGroupIds := by
  generalize hover : |c.groupAmount| - cfg.pspTradeMaxAmount = overflow at *
  let last := { r with amount := r.amount - overflow }
  let id := fresh ((s.remittances.set last).rows.map (·.id))
  let new := overflowRemittance now id overflow last
  have hnone : (s.remittances.set last).get? id = none := Table.get?_eq_none.mpr fun x hx e =>
    (lt_fresh (List.mem_map_of_mem (f := (·.id)) hx)).ne e
  obtain ⟨t, ht⟩ := Table.insert?_of_fresh (r := new) hnone
  have hself : (s.remittances.set last).get? r.id = some last := Table.get?_set_self hr rfl
  have hne : id ≠ r.id := by
    intro e
    rw [e, hself] at hnone
    cases hnone
  have hfresh : s.remittances.get? id = none := by
    rwa [Table.get?_set_ne (fun e => hne e.symm)] at hnone
  let copied := s.remittanceOrderRemittances ++
    (s.remittanceOrderRemittances.filter (·.remittance = r.id)).map fun assoc =>
      (⟨assoc.remittanceOrder, id⟩ : RemittanceOrderRemittance)
  let s₁ : Stores := { s with
    remittances := t
    remittanceOrderRemittances := copied
    events := s.events ++ [.createdRemittance new] }
  have horders := ordersOf_copied s₁ s.remittanceOrderRemittances hne
  refine ⟨last, new, { c with groupAmount :=
    if 0 < c.groupAmount then c.groupAmount - overflow else c.groupAmount + overflow }, s₁, ?_,
    ⟨rfl, Table.get?_insert?_of_some ht hself, hfresh, Table.get?_insert?_self ht, ?_, ?_,
      horders.1, horders.2⟩, ⟨rfl, rfl⟩, ⟨rfl, rfl⟩, rfl⟩
  · have hrest : ¬ r.amount - overflow ≤ 0 := not_le.mpr (hover ▸ h.rest)
    have hupdate : RemittanceRepository.update last s
        = .ok () { s with remittances := s.remittances.set last } := rfl
    have hcreate : RemittanceRepository.create new { s with remittances := s.remittances.set last }
        = .ok () { s with remittances := t } :=
      bind_ok.mpr ⟨_, _, get_ok.mpr ⟨rfl, rfl⟩, bind_ok.mpr ⟨t, _, orThrow_ok.mpr ⟨ht, rfl⟩, rfl⟩⟩
    rw [splitAndSendRemittancesToPsp]
    simp only [hover]
    rw [if_neg hrest]
    refine (bind_of_ok hupdate).trans ?_
    refine (bind_of_ok (get_ok.mpr ⟨rfl, rfl⟩)).trans ?_
    exact (bind_of_ok hcreate).trans rfl
  · intro row hrow
    rcases (Table.mem_insert? ht).mp hrow with hrow | rfl
    · rcases Table.mem_set.mp hrow with ⟨hrow, -⟩ | ⟨rfl, -⟩
      · exact Or.inr ⟨row, Table.get?_of_mem hrow⟩
      · exact Or.inr ⟨r, hr⟩
    · exact Or.inl rfl
  · have hparts := inTwo_overflow h now id
    rwa [hover] at hparts

/-! ### Sending the batch -/

/-- The settlement codes and dates of a batch. -/
abbrev Dates := SettlementDateCode × SettlementDateCode × ℤ × ℤ

/-- Stored remittances are as they were or, those of `ids`, wait with the dates of a batch; no other
remittance is stored, and orders are linked as they were. -/
structure Dated (dates : Dates) (ids : List Uuid) (s s' : Stores) : Prop where
  rows : ∀ id row, s.remittances.get? id = some row →
    s'.remittances.get? id = some row ∨
      id ∈ ids ∧ s'.remittances.get? id = some (settled .WAITING false dates row)
  ids : s'.remittances.rows.map (·.id) = s.remittances.rows.map (·.id)
  links : s'.remittanceOrderRemittances = s.remittanceOrderRemittances

variable {dates : Dates}

theorem Dated.refl (dates : Dates) (ids : List Uuid) (s : Stores) : Dated dates ids s s :=
  ⟨fun _ _ h => Or.inl h, rfl, rfl⟩

theorem Dated.trans (dates : Dates) (ids : List Uuid) (s s₁ s' : Stores)
    (h : Dated dates ids s s₁) (h' : Dated dates ids s₁ s') : Dated dates ids s s' := by
  refine ⟨fun id row hrow => ?_, h'.ids.trans h.ids, h'.links.trans h.links⟩
  rcases h.rows id row hrow with hrow | ⟨hid, hrow⟩
  · exact h'.rows id row hrow
  · -- dates that are given twice are given
    exact Or.inr ⟨hid, (h'.rows id _ hrow).elim (fun e => e) fun e => e.2⟩

/-- A remittance of the batch is updated. -/
theorem dated_updateRemittance (dates : Dates) (event : Remittance → Event) {id : Uuid}
    (hid : id ∈ ids) :
    Leads (Dated dates ids) (updateRemittance (settled .WAITING false dates) event id) := by
  intro s
  cases hrow : s.remittances.get? id with
  | none =>
      have hrun : updateRemittance (settled .WAITING false dates) event id s
          = .error (.remittanceNotFound id) s := by
        rw [updateRemittance, RemittanceRepository.getById]
        simp only [bind_assoc, get_bind_apply, hrow, none_bind_apply]
      rw [left_error hrun]
      exact .refl dates ids s
  | some row =>
      let s' : Stores := { s with
        remittances := s.remittances.set (settled .WAITING false dates row)
        events := s.events ++ [event (settled .WAITING false dates row)]
        updatedRemittancesIds := s.updatedRemittancesIds ++ [row.id] }
      have hrun : updateRemittance (settled .WAITING false dates) event id s = .ok () s' :=
        bind_ok.mpr ⟨row, s, getById_eq hrow, rfl⟩
      rw [left_ok hrun]
      refine ⟨fun x row' hrow' => ?_, Table.map_key_set _ _, rfl⟩
      have hget : s'.remittances.get? x = _ := Table.get?_set
      rw [hget, hrow']
      by_cases hkey : Keyed.key (settled .WAITING false dates row) = x
      · have hkey_id : row.id = id := Table.key_of_get? hrow
        have hx : x = id := hkey.symm.trans hkey_id
        obtain rfl : row = row' := Option.some.inj (hrow.symm.trans (hx ▸ hrow'))
        exact Or.inr ⟨hx ▸ hid, if_pos hkey⟩
      · exact Or.inl (if_neg hkey)

/-- Reading leaves the stores as they are. -/
theorem keeps_getById (id : Uuid) : Keeps (fun s => s) (RemittanceRepository.getById id) :=
  keeps_get.bind fun _ => keeps_orThrow

theorem keeps_calculateNewDailyConstants (cfg : Config) (now : ℤ) (c : Current) :
    Keeps (fun s => s) (calculateNewDailyConstants cfg now c) := by
  have hread : ∀ ids : List Uuid, Keeps (fun s => s) (ids.mapM RemittanceRepository.getById) := by
    intro ids
    induction ids with
    | nil => exact keeps_pure []
    | cons id ids ih =>
        rw [List.mapM_cons]
        exact (keeps_getById id).bind fun _ => ih.bind fun _ => keeps_pure _
  have hdaily : ∀ d : ℤ × ℤ × List Uuid, Keeps (fun s => s)
      (if cfg.pspDailyMaxAmount < d.1 then pure none else pure (some d) : App _) := by
    intro d
    split
    · exact keeps_pure none
    · exact keeps_pure (some d)
  rw [calculateNewDailyConstants]
  split
  · exact (hread _).bind fun _ => (keeps_pure _).bind hdaily
  · exact (keeps_pure _).bind hdaily

/-- Sending a batch gives its remittances its dates. -/
theorem leads_sendRemittancesToPsp (cfg : Config) (now : ℤ) (key : GroupKey) (tag : CurrencyTag)
    (last : Remittance) (c : Current) :
    Leads (Dated (defineSettlementDate cfg now last) c.currentGroupIds)
      (sendRemittancesToPsp cfg now key tag last c) := by
  have hrefl := Dated.refl (defineSettlementDate cfg now last) c.currentGroupIds
  have htrans := Dated.trans (defineSettlementDate cfg now last) c.currentGroupIds
  rw [sendRemittancesToPsp]
  refine Leads.bind htrans (leads_of_keeps hrefl (keeps_calculateNewDailyConstants cfg now c)) ?_
  intro daily
  cases daily with
  | none => exact hrefl
  | some daily =>
      refine Leads.bind htrans (Leads.forM hrefl htrans fun _ hid =>
        dated_updateRemittance _ _ hid) fun _ => ?_
      exact fun s => ⟨fun _ _ h => Or.inl h, rfl, rfl⟩

/-- The dates of a batch are those of the settlement codes of its last remittance. -/
theorem defineSettlementDate_congr (h : SameCodes last r) :
    defineSettlementDate cfg now last = defineSettlementDate cfg now r := by
  rw [defineSettlementDate, defineSettlementDate, h.1, h.2]

/-- The two parts are still the remittance when the batch is sent. -/
theorem Replaced.dated (h : Replaced s s₁ r last new) (hd : Dated dates ids s₁ s')
    (hnew : new.id ∉ ids) :
    ∃ last', Replaced s s' r last' new ∧
      (last' = last ∨ last' = settled .WAITING false dates last) := by
  have hnew_row : s'.remittances.get? new.id = some new :=
    (hd.rows new.id new h.new_row).resolve_right fun e => hnew e.1
  have hrows : ∀ row ∈ s'.remittances.rows,
      row.id = new.id ∨ ∃ row', s.remittances.get? row.id = some row' := by
    intro row hrow
    have hid : row.id ∈ s₁.remittances.rows.map (·.id) := hd.ids ▸ List.mem_map_of_mem hrow
    obtain ⟨row₁, hrow₁, e⟩ := List.mem_map.mp hid
    exact e ▸ h.rows row₁ hrow₁
  have horders : ∀ id, ordersOf s' id = ordersOf s₁ id := by
    intro id
    rw [ordersOf, hd.links, ordersOf]
  have hnew_orders := (horders new.id).trans h.new_orders
  have hlast_orders := (horders last.id).trans h.last_orders
  rcases hd.rows r.id last h.last_row with hrow | ⟨-, hrow⟩
  · exact ⟨last, ⟨h.last_id, hrow, h.new_fresh, hnew_row, hrows, h.parts, hlast_orders,
      hnew_orders⟩, Or.inl rfl⟩
  · let parts : InTwo r (settled .WAITING false dates last) new :=
      ⟨h.parts.amount, h.parts.last_pos, h.parts.new_pos, h.parts.side, h.parts.currency,
        h.parts.system, h.parts.provider⟩
    exact ⟨settled .WAITING false dates last, ⟨h.last_id, hrow, h.new_fresh, hnew_row, hrows, parts,
      hlast_orders, hnew_orders⟩, Or.inr rfl⟩

/-- **Splitting a remittance conserves it.**  When the batch is about to be sent, the remittance is
in two parts, with its settlement codes; the new part keeps them, and the other does until the batch
gives it its own.  A part that is closed goes through the orders of the remittance. -/
theorem split_conserves (cfg : Config) (now : ℤ) (key : GroupKey) (tag : CurrencyTag) (i : ℕ)
    {s : Stores} {r : Remittance} {c : Current} (hr : s.remittances.get? r.id = some r)
    (hgroup : ∀ id ∈ c.currentGroupIds, ∃ row, s.remittances.get? id = some row)
    (h : SplitPoint cfg c r) :
    let dates := defineSettlementDate cfg now r
    let s' := left (splitAndSendRemittancesToPsp cfg now key tag r i c) s
    (∃ last c₁ s₁, splitAndSendRemittancesToPsp cfg now key tag r i c s
        = sendRemittancesToPsp cfg now key tag last c₁ s₁ ∧ Conserves s s₁ r) ∧
      (∃ last new, Replaced s s' r last new ∧ SameCodes new r ∧
        (SameCodes last r ∨ last.status = .WAITING ∧ last.sendDateCode = some dates.1 ∧
          last.receiveDateCode = some dates.2.1)) ∧
      ∀ services u row system, u.remittanceOrderRemittances = s'.remittanceOrderRemittances →
        u.remittances.get? r.id = some row → row.status = .CLOSED ∨ row.status = .CLOSED_MANUALLY →
        HandleClosedRemittanceEventUseCase.execute services u (some r.id) (some system)
            (some system)
          = HandleClosedRemittanceEventUseCase.updateOrders services row (ordersOf s r.id) := by
  dsimp only
  obtain ⟨last, new, c₁, s₁, hrun, hreplaced, hlast, hnew, hids⟩ :=
    conserves_split cfg now key tag i hr h
  have hleft : left (splitAndSendRemittancesToPsp cfg now key tag r i c) s
      = left (sendRemittancesToPsp cfg now key tag last c₁) s₁ := by rw [left, hrun, left]
  have hd := leads_sendRemittancesToPsp cfg now key tag last c₁ s₁
  rw [defineSettlementDate_congr hlast, ← hleft, hids] at hd
  have hfresh : new.id ∉ c.currentGroupIds := by
    intro hid
    obtain ⟨row, hrow⟩ := hgroup new.id hid
    rw [hreplaced.new_fresh] at hrow
    cases hrow
  obtain ⟨last', hreplaced', hlast'⟩ := hreplaced.dated hd hfresh
  refine ⟨⟨last, c₁, s₁, hrun, last, new, hreplaced, hlast, hnew⟩,
    ⟨last', new, hreplaced', hnew, ?_⟩, ?_⟩
  · rcases hlast' with rfl | rfl
    · exact Or.inl hlast
    · exact Or.inr ⟨rfl, rfl, rfl⟩
  · intro services u row system hlinks hrow hclosed
    rw [HandleClosedRemittanceEventUseCase.execute_of_closed services hrow hclosed]
    have horders : ordersOf u r.id = ordersOf s r.id := by
      rw [ordersOf, hlinks, ← ordersOf, ← hreplaced'.last_id, hreplaced'.last_orders]
    rw [horders]

namespace Sample

/-- At ten the settlement becomes that of the day. -/
def atTen : Config := { config with pspSettlementDateByStartingTime := [(600, .D0, .D0)] }

/-- A buy of 150 that is settled on the next day, of two orders. -/
def buy : Remittance := { remittance 1 1 .BUY 150 1 with
  sendDateCode := some .D1, receiveDateCode := some .D1 }

def stores : Stores where
  remittances := (Table.empty.insert? buy).getD .empty
  remittanceOrderRemittances := [⟨7, 1⟩, ⟨8, 1⟩]
  currentGroups := .empty
  events := []
  updatedRemittancesIds := []

/-- The group that has the buy alone. -/
def alone : Current := added buy (currentOf (noon 4) 1 none)

theorem alone_stored :
    ∀ id ∈ alone.currentGroupIds, ∃ row, stores.remittances.get? id = some row := by
  intro id hid
  obtain rfl : id = 1 := List.mem_singleton.mp hid
  exact ⟨buy, by decide +kernel⟩

end Sample

open Sample in
theorem split_sample :
    ∃ last new, Replaced stores
        (left (splitAndSendRemittancesToPsp atTen (noon 4) group "USD" buy 0 alone) stores)
        buy last new := by
  obtain ⟨-, ⟨last, new, h, -⟩, -⟩ := split_conserves atTen (noon 4) group "USD" 0
    (s := stores) (r := buy) (c := alone) (by decide +kernel) alone_stored
    ⟨by decide +kernel, by decide +kernel⟩
  exact ⟨last, new, h⟩

open Sample in
/-- The buy of 150 is split at noon: its first part is sent with the settlement codes of the day. -/
theorem not_conserves :
    ¬ ∀ (cfg : Config) (now : ℤ) (key : GroupKey) (tag : CurrencyTag) (i : ℕ) (s : Stores)
      (r : Remittance) (c : Current), s.remittances.get? r.id = some r →
      (∀ id ∈ c.currentGroupIds, ∃ row, s.remittances.get? id = some row) → SplitPoint cfg c r →
        Conserves s (left (splitAndSendRemittancesToPsp cfg now key tag r i c) s) r := by
  intro h
  obtain ⟨last, new, hreplaced, hcodes, -⟩ := h atTen (noon 4) group "USD" 0 stores buy alone
    (by decide +kernel) alone_stored ⟨by decide +kernel, by decide +kernel⟩
  have hrow := hreplaced.last_row
  have hdated : ((left (splitAndSendRemittancesToPsp atTen (noon 4) group "USD" buy 0 alone)
      stores).remittances.get? buy.id).map (·.sendDateCode) = some (some .D0) := by
    decide +kernel
  rw [hrow, Option.map_some, hcodes.1] at hdated
  cases hdated

end ZroServices.Otc
