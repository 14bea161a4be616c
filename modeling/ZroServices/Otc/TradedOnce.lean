import ZroServices.Otc.ExchangeQuotation

/-!
# OTC — a remittance is traded once

A delivery trades the remittances of its event when none of them has a quotation that is pending
or accepted.  A quotation that sync has stored rejected or canceled is one that the PSP does not
find or has canceled (`Inv.gone`); a remittance has one other quotation at most (`Inv.once`), but
when an event is delivered after the quotation of one of its remittances is approved, while the
remittance still waits.

* `run_traded_once`: the result over runs in which no such event is delivered;
* `redelivered_traded`: a delivery after the approval.
-/

namespace ZroServices.Otc.Trade

open Foundation HandleCreateAndAccept

/-- The statuses of a quotation that the PSP trades. -/
def IsTraded (status : ExchangeQuotationState) : Prop :=
  status = .ACCEPTED ∨ status = .APPROVED ∨ status = .COMPLETED

instance : DecidablePred IsTraded := fun _ => inferInstanceAs (Decidable (_ ∨ _ ∨ _))

/-- The quotation is accepted, approved or completed at the PSP. -/
def Traded (w : World) (id : Uuid) : Prop :=
  ∃ q, w.stores.exchangeQuotations.get? id = some q ∧
    ∃ status, (w.psp.get? q.solicitationPspId).bind (·.status) = some status ∧ IsTraded status

/-- No remittance is linked to two quotations that the PSP trades. -/
def TradedOnce (w : World) : Prop :=
  ∀ l ∈ w.stores.remittanceExchangeQuotations.rows,
    ∀ l' ∈ w.stores.remittanceExchangeQuotations.rows, l.remittance = l'.remittance →
      Traded w l.exchangeQuotation → Traded w l'.exchangeQuotation → l = l'

variable {answers : Answers} {e : ReadyExchangeQuotation} {w w' : World} {s : State}

/-! ### What a delivery does -/

/-- The quotations of the PSP are there as they were. -/
def PspGrown (psp psp' : Table PspQuotation) : Prop :=
  ∀ id p, psp.get? id = some p → psp'.get? id = some p

/-- A delivery leaves the stores as they were, or it stores a new quotation, which is accepted, and
links the remittances to it. -/
inductive Delivered (answers : Answers) (e : ReadyExchangeQuotation) (w : World) : World → Prop
  | undone {psp : Table PspQuotation} (hpsp : PspGrown w.psp psp) :
      Delivered answers e w { w with psp }
  | traded {psp : Table PspQuotation} {q : ExchangeQuotation} {t : Table ExchangeQuotation}
      {links : Table RemittanceExchangeQuotation} {rs : List Remittance}
      (hvalid : HandleCreateAndAcceptExchangeQuotationEventUseCase.validateRemittances
        (services answers w.stores) w.stores.remittances e.remittanceIds = .ok rs)
      (hpsp : PspGrown w.psp psp) (hnew : w.psp.get? q.solicitationPspId = none)
      (hcreated : ∃ p, psp.get? q.solicitationPspId = some p) (hstate : q.state = .ACCEPTED)
      (hins : w.stores.exchangeQuotations.insert? q = some t)
      (hlinks : links.rows =
        w.stores.remittanceExchangeQuotations.rows ++ e.remittanceIds.map (⟨·, q.id⟩)) :
      Delivered answers e w { w with
        psp
        stores := { w.stores with
          exchangeQuotations := t
          remittanceExchangeQuotations := links } }

theorem createRequest_validated
    {services : HandleCreateAndAcceptExchangeQuotationEventUseCase.Services}
    {t : Table Remittance} {request : CreateExchangeQuotationRequest}
    (h : HandleCreateAndAcceptExchangeQuotationEventUseCase.createRequest services t e =
      .ok (some request)) :
    ∃ rs, HandleCreateAndAcceptExchangeQuotationEventUseCase.validateRemittances services t
      e.remittanceIds = .ok rs := by
  rw [HandleCreateAndAcceptExchangeQuotationEventUseCase.createRequest] at h
  split at h
  · cases h
  · split at h
    · cases h
    · obtain ⟨rs, hrs, -⟩ := bind_eq_ok.mp h
      exact ⟨rs, hrs⟩

/-- The quotations of a remittance that is processed again are neither pending nor accepted. -/
theorem validateRemittance_states
    {services : HandleCreateAndAcceptExchangeQuotationEventUseCase.Services}
    {t : Table Remittance} {id : Uuid} {r : Remittance}
    (h : HandleCreateAndAcceptExchangeQuotationEventUseCase.validateRemittance services t id =
      .ok r) : ∀ state ∈ services.exchangeQuotations id, state ≠ .PENDING ∧ state ≠ .ACCEPTED := by
  rw [HandleCreateAndAcceptExchangeQuotationEventUseCase.validateRemittance] at h
  split at h
  · cases h
  · split at h
    · cases h
    · split at h
      · cases h
      · split at h
        · cases h
        · rename_i hfind
          intro state hstate
          simpa using List.find?_eq_none.mp hfind state hstate

theorem validateRemittances_states
    {services : HandleCreateAndAcceptExchangeQuotationEventUseCase.Services}
    {t : Table Remittance} {ids : List Uuid} {rs : List Remittance}
    (h : HandleCreateAndAcceptExchangeQuotationEventUseCase.validateRemittances services t ids =
      .ok rs) :
    ∀ id ∈ ids, ∀ state ∈ services.exchangeQuotations id, state ≠ .PENDING ∧ state ≠ .ACCEPTED := by
  induction ids generalizing rs with
  | nil => exact fun _ hid => absurd hid List.not_mem_nil
  | cons id ids ih =>
      rw [HandleCreateAndAcceptExchangeQuotationEventUseCase.validateRemittances,
        List.mapM_cons] at h
      obtain ⟨r, hr, h⟩ := bind_eq_ok.mp h
      obtain ⟨rs', hrs, -⟩ := bind_eq_ok.mp h
      intro x hx
      rcases List.mem_cons.mp hx with rfl | hx
      · exact validateRemittance_states hr
      · exact ih hrs x hx

theorem request_keeps : left (request answers e) w = w := by
  rw [request, left_bind_ok (get_ok.mpr ⟨rfl, rfl⟩)]
  split <;> rfl

theorem request_ok {r : CreateExchangeQuotationRequest}
    (h : request answers e w = .ok (some r) w') :
    ∃ rs, HandleCreateAndAcceptExchangeQuotationEventUseCase.validateRemittances
      (services answers w.stores) w.stores.remittances e.remittanceIds = .ok rs := by
  rw [request, bind_of_ok (get_ok.mpr ⟨rfl, rfl⟩)] at h
  cases hrequest : HandleCreateAndAcceptExchangeQuotationEventUseCase.createRequest
      (services answers w.stores) w.stores.remittances e with
  | ok request =>
      rw [hrequest] at h
      obtain ⟨rfl, -⟩ := pure_ok.mp h
      exact createRequest_validated hrequest
  | error e =>
      rw [hrequest] at h
      exact absurd h throw_ok

theorem PspGrown.refl (psp : Table PspQuotation) : PspGrown psp psp := fun _ _ h => h

/-- The id of a quotation that the PSP creates. -/
theorem get?_fresh (psp : Table PspQuotation) : psp.get? (fresh (psp.rows.map (·.id))) = none :=
  Table.get?_eq_none.mpr fun _ hp e => (lt_fresh (List.mem_map_of_mem hp)).ne e

theorem createExchangeQuotation_eq (answers : Answers) (w : World) :
    createExchangeQuotation answers w =
    if answers.create.performed then
      let id := fresh (w.psp.rows.map (·.id))
      let w' := { w with psp := w.psp.upsert ⟨id, some .PENDING⟩ }
      if answers.create.answered then .ok id w' else .error .exchangeQuotationPsp w'
    else .error .exchangeQuotationPsp w := by
  rw [createExchangeQuotation, bind_of_ok (get_ok.mpr ⟨rfl, rfl⟩)]
  cases hperformed : answers.create.performed with
  | false => rfl
  | true =>
      cases hanswered : answers.create.answered with
      | false => rfl
      | true => rfl

theorem acceptExchangeQuotation_eq (answers : Answers) (id : Uuid) (w : World) :
    acceptExchangeQuotation answers id w =
    let w' := if answers.accept.performed then
      { w with psp := w.psp.set ⟨id, some .ACCEPTED⟩ } else w
    if answers.accept.answered then .ok () w' else .error .exchangeQuotationPsp w' := by
  rw [acceptExchangeQuotation]
  cases hperformed : answers.accept.performed with
  | false => cases answers.accept.answered <;> rfl
  | true => cases answers.accept.answered <;> rfl

theorem pspGrown_create (w : World) : PspGrown w.psp
    (w.psp.upsert ⟨fresh (w.psp.rows.map (·.id)), some .PENDING⟩) := by
  intro id p hp
  rw [Table.get?_upsert_ne, hp]
  rintro rfl
  exact absurd (hp.symm.trans (get?_fresh w.psp)) (Option.some_ne_none p)

theorem PspGrown.accept {psp psp₁ : Table PspQuotation} {id : Uuid} (h : PspGrown psp psp₁)
    (hnew : psp.get? id = none) : PspGrown psp (psp₁.set ⟨id, some .ACCEPTED⟩) := by
  intro x p hp
  rw [Table.get?_set_ne, h x p hp]
  rintro rfl
  exact absurd (hp.symm.trans hnew) (Option.some_ne_none p)

theorem keeps_link (q remittance : Uuid) :
    Keeps (fun w : World => (w.psp, w.events)) (link answers q remittance) :=
  keeps_throwIf.bind fun _ => keeps_get.bind fun _ => keeps_orThrow.bind fun _ =>
    keeps_modify fun _ => rfl

theorem keeps_create (q : ExchangeQuotation) :
    Keeps (fun w : World => (w.psp, w.events)) (create answers q) :=
  keeps_throwIf.bind fun _ => keeps_get.bind fun _ => keeps_orThrow.bind fun _ =>
    keeps_modify fun _ => rfl

/-- What is left of the execution after the PSP was called. -/
def store (answers : Answers) (e : ReadyExchangeQuotation) (solicitationPspId : Uuid) :
    HandleCreateAndAccept.App Unit := do
  let w ← get
  let q := newExchangeQuotation answers (fresh (w.stores.exchangeQuotations.rows.map (·.id)))
    solicitationPspId e
  create answers q
  called answers .createOrUpdateServer
  e.remittanceIds.forM (link answers q.id)

theorem keeps_store (answers : Answers) (e : ReadyExchangeQuotation) (id : Uuid) :
    Keeps (fun w : World => (w.psp, w.events)) (store answers e id) :=
  keeps_get.bind fun _ => (keeps_create _).bind fun _ => keeps_throwIf.bind fun _ =>
    Keeps.forM fun r => keeps_link _ r

theorem link_ok {q remittance : Uuid} {t : Unit} (h : link answers q remittance w = .ok t w') :
    ∃ links, w.stores.remittanceExchangeQuotations.insert? ⟨remittance, q⟩ = some links ∧
      w' = { w with stores := { w.stores with remittanceExchangeQuotations := links } } := by
  simp only [link, called, bind_ok, throwIf_ok, get_ok, orThrow_ok, modify_ok] at h
  obtain ⟨_, _, ⟨-, rfl⟩, _, _, ⟨rfl, rfl⟩, links, _, ⟨hins, rfl⟩, rfl⟩ := h
  exact ⟨links, hins, rfl⟩

theorem links_ok {q : Uuid} {ids : List Uuid} {t : Unit}
    (h : ids.forM (link answers q) w = .ok t w') :
    ∃ links : Table RemittanceExchangeQuotation,
      links.rows = w.stores.remittanceExchangeQuotations.rows ++ ids.map (⟨·, q⟩) ∧
        w' = { w with stores := { w.stores with remittanceExchangeQuotations := links } } := by
  induction ids generalizing w with
  | nil =>
      obtain ⟨-, rfl⟩ := pure_ok.mp h
      exact ⟨w'.stores.remittanceExchangeQuotations, (List.append_nil _).symm, rfl⟩
  | cons id ids ih =>
      obtain ⟨_, w₁, hlink, h⟩ := bind_ok.mp h
      obtain ⟨links₁, hins, rfl⟩ := link_ok hlink
      obtain ⟨links, hrows, rfl⟩ := ih h
      refine ⟨links, ?_, rfl⟩
      rw [hrows, (Table.insert?_eq_some hins).2, List.append_assoc]
      rfl

theorem create_ok {q : ExchangeQuotation} {t : Unit} (h : create answers q w = .ok t w') :
    ∃ exchangeQuotations, w.stores.exchangeQuotations.insert? q = some exchangeQuotations ∧
      w' = { w with stores := { w.stores with exchangeQuotations } } := by
  simp only [create, called, bind_ok, throwIf_ok, get_ok, orThrow_ok, modify_ok] at h
  obtain ⟨_, _, ⟨-, rfl⟩, _, _, ⟨rfl, rfl⟩, t, _, ⟨hins, rfl⟩, rfl⟩ := h
  exact ⟨t, hins, rfl⟩

/-- Storing the quotation, once the PSP has accepted it. -/
theorem store_delivered {rs : List Remittance} {id : Uuid} {w₁ : World} {t : Unit}
    (hvalid : HandleCreateAndAcceptExchangeQuotationEventUseCase.validateRemittances
      (services answers w.stores) w.stores.remittances e.remittanceIds = .ok rs)
    (hstores : w₁.stores = w.stores) (hevents : w₁.events = w.events)
    (hpsp : PspGrown w.psp w₁.psp) (hnew : w.psp.get? id = none)
    (hcreated : ∃ p, w₁.psp.get? id = some p) (h : store answers e id w₁ = .ok t w') :
    Delivered answers e w w' := by
  obtain ⟨stores, psp, events⟩ := w
  obtain ⟨stores₁, psp₁, events₁⟩ := w₁
  obtain rfl : stores₁ = stores := hstores
  obtain rfl : events₁ = events := hevents
  rw [store, bind_of_ok (get_ok.mpr ⟨rfl, rfl⟩)] at h
  obtain ⟨_, w₂, hcreate, h⟩ := bind_ok.mp h
  obtain ⟨_, w₃, hserver, h⟩ := bind_ok.mp h
  obtain ⟨quotations, hins, rfl⟩ := create_ok hcreate
  obtain ⟨-, rfl⟩ := throwIf_ok.mp hserver
  obtain ⟨links, hrows, rfl⟩ := links_ok h
  exact .traded hvalid hpsp hnew hcreated rfl hins hrows

/-- **A delivery has one of the two effects.** -/
theorem deliver_effect (answers : Answers) (e : ReadyExchangeQuotation) (w : World) :
    Delivered answers e w (left (HandleCreateAndAccept.deliver answers e) w) := by
  have undo : ∀ {ex : HandleCreateAndAccept.Exception} {w₁ : World},
      execute answers e w = .error ex w₁ → PspGrown w.psp w₁.psp → w₁.events = w.events →
      Delivered answers e w (left (HandleCreateAndAccept.deliver answers e) w) := by
    intro ex w₁ h hpsp hevents
    have hleft : left (HandleCreateAndAccept.deliver answers e) w = { w with psp := w₁.psp } := by
      rw [left, HandleCreateAndAccept.deliver, transaction, h]
      exact congrArg (World.mk w.stores w₁.psp) hevents
    rw [hleft]
    exact .undone hpsp
  have done : ∀ {t : Unit} {w₁ : World}, execute answers e w = .ok t w₁ →
      Delivered answers e w w₁ →
        Delivered answers e w (left (HandleCreateAndAccept.deliver answers e) w) := by
    intro t w₁ h hw
    have hdeliver : HandleCreateAndAccept.deliver answers e w = .ok t w₁ := transaction_ok.mpr h
    rwa [left_ok hdeliver]
  cases hrequest : request answers e w with
  | error ex w₁ =>
      obtain rfl : w₁ = w := (left_error hrequest).symm.trans request_keeps
      exact undo (bind_of_error hrequest) (.refl _) rfl
  | ok r w₁ =>
      obtain rfl : w₁ = w := (left_ok hrequest).symm.trans request_keeps
      have hexecute : execute answers e w₁ = _ := bind_of_ok hrequest
      cases r with
      | none => exact done hexecute (.undone (.refl _))
      | some r =>
          obtain ⟨rs, hvalid⟩ := request_ok hrequest
          have hcreate := createExchangeQuotation_eq answers w₁
          have hnew := get?_fresh w₁.psp
          have hgrown := pspGrown_create w₁
          have hself : (w₁.psp.upsert ⟨fresh (w₁.psp.rows.map (·.id)), some .PENDING⟩).get?
              (fresh (w₁.psp.rows.map (·.id))) = some _ := Table.get?_upsert_self
          generalize fresh (w₁.psp.rows.map (·.id)) = id at hcreate hnew hgrown hself
          dsimp only at hcreate
          split at hcreate
          · split at hcreate
            · -- The PSP has created the quotation, and is asked to accept it.
              have htail : execute answers e w₁ = _ := hexecute.trans (bind_of_ok hcreate)
              have haccept := acceptExchangeQuotation_eq answers id
                { w₁ with psp := w₁.psp.upsert ⟨id, some .PENDING⟩ }
              have haccepted : ∀ w₂ : World, w₂ = (if answers.accept.performed = true then
                  { w₁ with psp := (w₁.psp.upsert ⟨id, some .PENDING⟩).set ⟨id, some .ACCEPTED⟩ }
                  else { w₁ with psp := w₁.psp.upsert ⟨id, some .PENDING⟩ }) →
                  w₂.stores = w₁.stores ∧ w₂.events = w₁.events ∧ PspGrown w₁.psp w₂.psp ∧
                    ∃ p, w₂.psp.get? id = some p := by
                rintro w₂ rfl
                split
                · exact ⟨rfl, rfl, hgrown.accept hnew, _, Table.get?_set_self hself rfl⟩
                · exact ⟨rfl, rfl, hgrown, _, hself⟩
              dsimp only at haccept
              generalize (if answers.accept.performed = true then _ else _ : World) = w₂
                at haccept haccepted
              obtain ⟨hstores, hevents, hpsp, hcreated⟩ := haccepted w₂ rfl
              split at haccept
              · have hstore : execute answers e w₁ = store answers e id w₂ :=
                  htail.trans (bind_of_ok haccept)
                cases hs : store answers e id w₂ with
                | ok t w₃ =>
                    exact done (hstore.trans hs)
                      (store_delivered hvalid hstores hevents hpsp hnew hcreated hs)
                | error ex w₃ =>
                    have hkept := keeps_store answers e id w₂
                    rw [left_error hs] at hkept
                    obtain ⟨hpsp', hevents'⟩ := Prod.mk.inj hkept
                    exact undo (hstore.trans hs) (hpsp' ▸ hpsp) (hevents'.trans hevents)
              · exact undo (htail.trans (bind_of_error haccept)) hpsp hevents
            · exact undo (hexecute.trans (bind_of_error hcreate)) hgrown rfl
          · exact undo (hexecute.trans (bind_of_error hcreate)) (.refl _) rfl

/-! ### What sync does -/

open SyncState

/-- What sync does not write while it handles an answer. -/
def untouched (w : World) :
    Table RemittanceExchangeQuotation × Table ExchangeQuotation × Table PspQuotation :=
  (w.stores.remittanceExchangeQuotations, w.stores.exchangeQuotations, w.psp)

theorem keeps_updateRemittance (fails : SyncState.Call → Bool) (q : ExchangeQuotation)
    (status : RemittanceStatus) (l : RemittanceExchangeQuotation) :
    Keeps untouched (updateRemittance fails q status l) := by
  refine keeps_throwIf.bind fun _ => keeps_get.bind fun _ => keeps_orThrow.bind fun r =>
    keeps_throwIf.bind fun _ => Keeps.bind (keeps_modify ?_) fun _ => keeps_pure _
  exact fun _ => rfl

theorem keeps_emit (event : Event) : Keeps untouched (SyncState.emit event) :=
  keeps_modify fun _ => rfl

section

variable (fails : SyncState.Call → Bool)
include fails

theorem keeps_closeAllRemittances (q : ExchangeQuotation) :
    Keeps untouched (closeAllRemittances fails q) := by
  refine keeps_throwIf.bind fun _ => keeps_get.bind fun _ => Keeps.forM fun l =>
    (keeps_updateRemittance fails q .CLOSED l).bind fun r =>
      Keeps.bind (keeps_modify ?_) fun _ => keeps_emit (.closedRemittance r)
  exact fun _ => rfl

theorem keeps_reopenAllRemittances (q : ExchangeQuotation) :
    Keeps untouched (reopenAllRemittances fails q) :=
  keeps_throwIf.bind fun _ => keeps_get.bind fun _ => Keeps.forM fun l =>
    (keeps_updateRemittance fails q .OPEN l).bind fun _ => keeps_pure _

theorem keeps_handle (q : ExchangeQuotation)
    (result : PspResult) : Keeps untouched (handle fails q result) := by
  rw [handle.eq_def]
  split
  · exact (keeps_emit _).tryCatch fun _ => keeps_pure _
  · exact ((keeps_closeAllRemittances fails q).bind fun _ => keeps_emit _).tryCatch
      fun _ => keeps_pure _
  · exact ((keeps_reopenAllRemittances fails q).bind fun _ => keeps_emit _).tryCatch
      fun _ => keeps_pure _
  · exact keeps_reopenAllRemittances fails q
  · exact keeps_pure _

/-- Sync writes the quotation with the state that is assigned to it, or throws before. -/
theorem sync_effect (q : ExchangeQuotation) (w : World) :
    let w' := left (syncExchangeQuotation fails q) w
    w'.stores.remittanceExchangeQuotations = w.stores.remittanceExchangeQuotations ∧
      w'.psp = w.psp ∧
      (w'.stores.exchangeQuotations = w.stores.exchangeQuotations ∨
        w'.stores.exchangeQuotations = w.stores.exchangeQuotations.set
          (assigned q (getExchangeQuotationById fails q w))) := by
  intro w'
  have hkept := keeps_handle fails (assigned q (getExchangeQuotationById fails q w))
    (getExchangeQuotationById fails q w) w
  have hsync : syncExchangeQuotation fails q w = _ := bind_of_ok (get_ok.mpr ⟨rfl, rfl⟩)
  cases hhandle : handle fails (assigned q (getExchangeQuotationById fails q w))
      (getExchangeQuotationById fails q w) w with
  | error ex w₁ =>
      obtain rfl : w' = w₁ := left_error (hsync.trans (bind_of_error hhandle))
      rw [left_error hhandle] at hkept
      simp only [untouched, Prod.mk.injEq] at hkept
      exact ⟨hkept.1, hkept.2.2, .inl hkept.2.1⟩
  | ok t w₁ =>
      rw [left_ok hhandle] at hkept
      simp only [untouched, Prod.mk.injEq] at hkept
      have htail := hsync.trans (bind_of_ok hhandle)
      by_cases hfails : fails (.updateExchangeQuotation q.id) = true
      · have hcalled : SyncState.called fails (.updateExchangeQuotation q.id) w₁ =
            .error (.failed (.updateExchangeQuotation q.id)) w₁ :=
          throwIf_error.mpr ⟨hfails, rfl, rfl⟩
        obtain rfl : w' = w₁ := left_error (htail.trans (bind_of_error hcalled))
        exact ⟨hkept.1, hkept.2.2, .inl hkept.2.1⟩
      · have hcalled : SyncState.called fails (.updateExchangeQuotation q.id) w₁ = .ok () w₁ :=
          throwIf_ok.mpr ⟨hfails, rfl⟩
        have hw' : w' = _ := left_ok (htail.trans (bind_of_ok hcalled))
        rw [hw']
        refine ⟨hkept.1, hkept.2.2, .inr ?_⟩
        rw [← hkept.2.1]

end

/-! ### The invariant -/

/-- The PSP does not find the quotation, or has canceled it. -/
def Gone (psp : Table PspQuotation) (id : Uuid) : Prop :=
  ∀ status, (psp.get? id).bind (·.status) = some status → status = .CANCELED

/-- The quotation of a link is neither rejected nor canceled. -/
def OpenLink (t : Table ExchangeQuotation) (l : RemittanceExchangeQuotation) : Prop :=
  ∃ q, t.get? l.exchangeQuotation = some q ∧ q.state ≠ .REJECTED ∧ q.state ≠ .CANCELED

/-- What holds between the quotations, their links, the PSP and a sync run. -/
structure Inv (s : State) : Prop where
  stored : ∀ l ∈ s.world.stores.remittanceExchangeQuotations.rows,
    ∃ q, s.world.stores.exchangeQuotations.get? l.exchangeQuotation = some q
  solicited : ∀ q ∈ s.world.stores.exchangeQuotations.rows,
    ∃ p, s.world.psp.get? q.solicitationPspId = some p
  gone : ∀ q ∈ s.world.stores.exchangeQuotations.rows, q.state = .REJECTED ∨ q.state = .CANCELED →
    Gone s.world.psp q.solicitationPspId
  once : ∀ l ∈ s.world.stores.remittanceExchangeQuotations.rows,
    ∀ l' ∈ s.world.stores.remittanceExchangeQuotations.rows, l.remittance = l'.remittance →
      OpenLink s.world.stores.exchangeQuotations l →
        OpenLink s.world.stores.exchangeQuotations l' → l = l'
  pending : ∀ q ∈ s.pending, s.world.stores.exchangeQuotations.get? q.id = some q ∧
    (q.state = .ACCEPTED ∨ q.state = .APPROVED)
  nodup : (s.pending.map (·.id)).Nodup

/-- A delivery that trades its remittances finds none of their quotations approved or completed. -/
def Untraded (s : State) : Command → Prop
  | .deliver e answers =>
      (HandleCreateAndAcceptExchangeQuotationEventUseCase.validateRemittances
        (services answers s.world.stores) s.world.stores.remittances
          e.remittanceIds).toOption.isSome →
        ∀ id ∈ e.remittanceIds, ∀ state ∈ quotationStates s.world.stores id,
          state ≠ .APPROVED ∧ state ≠ .COMPLETED
  | _ => True

instance (s : State) (l : Command) : Decidable (Untraded s l) :=
  match l with
  | .deliver _ _ => inferInstanceAs (Decidable (_ → ∀ _ ∈ _, ∀ _ ∈ _, _))
  | .saveRemittance _ | .psp _ _ | .begin _ | .next _ => .isTrue trivial

theorem Gone.grown {psp psp' : Table PspQuotation} {id : Uuid} (h : Gone psp id)
    (hpsp : PspGrown psp psp') (hstored : ∃ p, psp.get? id = some p) : Gone psp' id := by
  obtain ⟨p, hp⟩ := hstored
  intro status hstatus
  rw [hpsp id p hp] at hstatus
  exact h status (by rw [hp, hstatus])

theorem mem_quotationStates {s : Stores} {l : RemittanceExchangeQuotation} {q : ExchangeQuotation}
    (hl : l ∈ s.remittanceExchangeQuotations.rows)
    (hq : s.exchangeQuotations.get? l.exchangeQuotation = some q) :
    q.state ∈ quotationStates s l.remittance :=
  List.mem_filterMap.mpr ⟨l, List.mem_filter.mpr ⟨hl, decide_eq_true rfl⟩, by rw [hq]; rfl⟩

/-- The PSP trades the quotations of links that are open. -/
theorem Inv.tradedOnce (h : Inv s) : TradedOnce s.world := by
  have opened : ∀ l : RemittanceExchangeQuotation, Traded s.world l.exchangeQuotation →
      OpenLink s.world.stores.exchangeQuotations l := by
    rintro l ⟨q, hq, status, hstatus, htraded⟩
    have kept : ¬ (q.state = .REJECTED ∨ q.state = .CANCELED) := by
      intro hstate
      obtain rfl := h.gone q (Table.mem_of_get? hq) hstate status hstatus
      revert htraded
      decide
    exact ⟨q, hq, fun e => kept (.inl e), fun e => kept (.inr e)⟩
  intro l hl l' hl' hr ht ht'
  exact h.once l hl l' hl' hr (opened l ht) (opened l' ht')

/-- A delivery keeps the invariant. -/
theorem Inv.deliver (h : Inv s) (hd : Delivered answers e s.world w')
    (hok : Untraded s (.deliver e answers)) : Inv { s with world := w' } := by
  cases hd with
  | undone hpsp =>
      refine ⟨h.stored, fun q hq => ?_, fun q hq hstate => ?_, h.once, h.pending, h.nodup⟩
      · obtain ⟨p, hp⟩ := h.solicited q hq
        exact ⟨p, hpsp _ p hp⟩
      · exact (h.gone q hq hstate).grown hpsp (h.solicited q hq)
  | @traded psp q t links rs hvalid hpsp hnew hcreated hstate hins hlinks =>
      -- The other quotations of the remittances are rejected or canceled.
      have closed : ∀ l ∈ s.world.stores.remittanceExchangeQuotations.rows,
          l.remittance ∈ e.remittanceIds →
            ¬ OpenLink s.world.stores.exchangeQuotations l := by
        rintro l hl hid ⟨q', hq', hrejected, hcanceled⟩
        have hmem := mem_quotationStates hl hq'
        obtain ⟨hpending, haccepted⟩ := validateRemittances_states hvalid l.remittance hid q'.state
          hmem
        obtain ⟨happroved, hcompleted⟩ := hok (by rw [hvalid]; rfl) l.remittance hid q'.state hmem
        cases hq'state : q'.state with
        | PENDING => exact hpending hq'state
        | ACCEPTED => exact haccepted hq'state
        | APPROVED => exact happroved hq'state
        | COMPLETED => exact hcompleted hq'state
        | REJECTED => exact hrejected hq'state
        | CANCELED => exact hcanceled hq'state
      have old : ∀ l ∈ s.world.stores.remittanceExchangeQuotations.rows, OpenLink t l →
          OpenLink s.world.stores.exchangeQuotations l := by
        rintro l hl ⟨q', hq', hopen⟩
        obtain ⟨q'', hq''⟩ := h.stored l hl
        obtain rfl := Option.some.inj ((Table.get?_insert?_of_some hins hq'').symm.trans hq')
        exact ⟨q'', hq'', hopen⟩
      have rows : ∀ l ∈ links.rows, l ∈ s.world.stores.remittanceExchangeQuotations.rows ∨
          ∃ id ∈ e.remittanceIds, l = ⟨id, q.id⟩ := by
        intro l hl
        rw [hlinks] at hl
        refine (List.mem_append.mp hl).imp_right fun hl => ?_
        obtain ⟨id, hid, rfl⟩ := List.mem_map.mp hl
        exact ⟨id, hid, rfl⟩
      refine ⟨fun l hl => ?_, fun q' hq' => ?_, fun q' hq' hgone => ?_,
        fun l hl l' hl' hr ho ho' => ?_, fun q' hq' => ?_, h.nodup⟩
      · rcases rows l hl with hl | ⟨id, -, rfl⟩
        · obtain ⟨q', hq'⟩ := h.stored l hl
          exact ⟨q', Table.get?_insert?_of_some hins hq'⟩
        · exact ⟨q, Table.get?_insert?_self hins⟩
      · rcases (Table.mem_insert? hins).mp hq' with hq' | rfl
        · obtain ⟨p, hp⟩ := h.solicited q' hq'
          exact ⟨p, hpsp _ p hp⟩
        · exact hcreated
      · rcases (Table.mem_insert? hins).mp hq' with hq' | rfl
        · exact (h.gone q' hq' hgone).grown hpsp (h.solicited q' hq')
        · rw [hstate] at hgone
          rcases hgone with hgone | hgone <;> cases hgone
      · rcases rows l hl with hl | ⟨id, hid, rfl⟩
        · rcases rows l' hl' with hl' | ⟨id, hid, rfl⟩
          · exact h.once l hl l' hl' hr (old l hl ho) (old l' hl' ho')
          · exact absurd (old l hl ho) (closed l hl (hr ▸ hid))
        · rcases rows l' hl' with hl' | ⟨id', hid', rfl⟩
          · exact absurd (old l' hl' ho') (closed l' hl' (hr ▸ hid))
          · exact congrArg (RemittanceExchangeQuotation.mk · q.id) hr
      · obtain ⟨hget, hopen⟩ := h.pending q' hq'
        exact ⟨Table.get?_insert?_of_some hins hget, hopen⟩

/-- What the PSP does keeps the invariant. -/
theorem Inv.psp (h : Inv s) (id : Uuid) (status : Option ExchangeQuotationState) :
    Inv { s with world := { s.world with psp := pspMove s.world.psp id status } } := by
  rw [pspMove]
  split
  · exact h
  · exact h
  · rename_i old hcanceled hold
    refine ⟨h.stored, fun q hq => ?_, fun q hq hstate => ?_, h.once, h.pending, h.nodup⟩
    · obtain ⟨p, hp⟩ := h.solicited q hq
      change ∃ p, (s.world.psp.set ⟨id, status⟩).get? q.solicitationPspId = some p
      rw [Table.get?_set, hp]
      split
      · exact ⟨_, rfl⟩
      · exact ⟨p, rfl⟩
    · have hgone := h.gone q hq hstate
      have hne : q.solicitationPspId ≠ id := by
        rintro rfl
        exact hcanceled (hgone old hold)
      intro st hst
      change ((s.world.psp.set ⟨id, status⟩).get? q.solicitationPspId).bind _ = _ at hst
      rw [Table.get?_set_ne (fun e => hne e.symm)] at hst
      exact hgone st hst

/-- Reading the quotations that are accepted or approved. -/
theorem Inv.begin (h : Inv s) : Inv { s with pending := getAllToSync s.world.stores } := by
  refine ⟨h.stored, h.solicited, h.gone, h.once, fun q hq => ?_,
    s.world.stores.exchangeQuotations.nodup.sublist (List.filter_sublist.map _)⟩
  obtain ⟨hmem, hstate⟩ := List.mem_filter.mp hq
  exact ⟨Table.get?_of_mem hmem, of_decide_eq_true hstate⟩

/-- The state that is assigned for an answer: rejected when the PSP does not find the quotation,
canceled when it has canceled it. -/
theorem assigned_gone {fails : SyncState.Call → Bool} {q : ExchangeQuotation}
    (hq : q.state = .ACCEPTED ∨ q.state = .APPROVED)
    (h : (assigned q (getExchangeQuotationById fails q w)).state = .REJECTED ∨
      (assigned q (getExchangeQuotationById fails q w)).state = .CANCELED) :
    Gone w.psp q.solicitationPspId := by
  have unmoved : ¬ (q.state = .REJECTED ∨ q.state = .CANCELED) := by
    rcases hq with hq | hq <;> rw [hq] <;> decide
  intro status hstatus
  rw [getExchangeQuotationById] at h
  split at h
  · exact absurd h unmoved
  · rw [hstatus] at h
    cases status with
    | CANCELED => rfl
    | PENDING | ACCEPTED | REJECTED => exact absurd h unmoved
    | APPROVED | COMPLETED => simp [assigned] at h

theorem assigned_id (q : ExchangeQuotation) (result : PspResult) :
    (assigned q result).id = q.id ∧
      (assigned q result).solicitationPspId = q.solicitationPspId := by
  rw [assigned.eq_def]
  split <;> exact ⟨rfl, rfl⟩

/-- Taking a quotation keeps the invariant. -/
theorem Inv.next (h : Inv s) (fails : SyncState.Call → Bool) : Inv (takeNext fails s) := by
  rw [takeNext]
  cases hpending : s.pending with
  | nil => exact h
  | cons q rest =>
      obtain ⟨hq, hstate⟩ := h.pending q (hpending ▸ List.mem_cons_self)
      have hnodup := h.nodup
      rw [hpending, List.map_cons, List.nodup_cons] at hnodup
      obtain ⟨hlinks, hpsp, hquotations⟩ := sync_effect fails q s.world
      generalize hw : left (syncExchangeQuotation fails q) s.world = w' at hlinks hpsp hquotations
      have inv : ∀ rest', rest' = rest ∨ rest' = [] → Inv ⟨w', rest'⟩ := by
        intro rest' hrest
        have hsub : ∀ x ∈ rest', x ∈ rest := by
          rcases hrest with rfl | rfl
          · exact fun _ hx => hx
          · exact fun _ hx => absurd hx List.not_mem_nil
        have hrestNodup : (rest'.map (·.id)).Nodup := by
          rcases hrest with rfl | rfl
          · exact hnodup.2
          · exact List.nodup_nil
        rcases hquotations with e | e
        · refine ⟨?_, ?_, ?_, ?_, fun x hx => ?_, hrestNodup⟩
          · rw [hlinks, e]; exact h.stored
          · rw [e, hpsp]; exact h.solicited
          · rw [e, hpsp]; exact h.gone
          · rw [hlinks, e]; exact h.once
          · rw [e]; exact h.pending x (hpending ▸ List.mem_cons_of_mem q (hsub x hx))
        · generalize hassigned : assigned q (getExchangeQuotationById fails q s.world) = q' at e
          have hid : q'.id = q.id := hassigned ▸ (assigned_id q _).1
          have hsolicitation : q'.solicitationPspId = q.solicitationPspId :=
            hassigned ▸ (assigned_id q _).2
          have opened : ∀ l : RemittanceExchangeQuotation,
              OpenLink (s.world.stores.exchangeQuotations.set q') l →
                OpenLink s.world.stores.exchangeQuotations l := by
            rintro l ⟨x, hx, hopen⟩
            by_cases hl : l.exchangeQuotation = q.id
            · refine ⟨q, hl ▸ hq, ?_⟩
              rcases hstate with hstate | hstate <;> rw [hstate] <;> decide
            · rw [Table.get?_set_ne (fun hk => hl (hk.symm.trans hid))] at hx
              exact ⟨x, hx, hopen⟩
          refine ⟨fun l hl => ?_, fun x hx => ?_, fun x hx hgone => ?_,
            fun l hl l' hl' hr ho ho' => ?_, fun x hx => ?_, hrestNodup⟩
          · rw [hlinks] at hl
            obtain ⟨x, hx⟩ := h.stored l hl
            rw [e, Table.get?_set, hx]
            split
            · exact ⟨_, rfl⟩
            · exact ⟨x, rfl⟩
          · rw [hpsp]
            rw [e] at hx
            rcases Table.mem_set.mp hx with ⟨hx, -⟩ | ⟨rfl, -⟩
            · exact h.solicited x hx
            · exact hsolicitation ▸ h.solicited q (Table.mem_of_get? hq)
          · rw [hpsp]
            rw [e] at hx
            rcases Table.mem_set.mp hx with ⟨hx, -⟩ | ⟨rfl, -⟩
            · exact h.gone x hx hgone
            · rw [hsolicitation]
              rw [← hassigned] at hgone
              exact assigned_gone hstate hgone
          · rw [hlinks] at hl hl'
            rw [e] at ho ho'
            exact h.once l hl l' hl' hr (opened l ho) (opened l' ho')
          · obtain ⟨hget, hopen⟩ := h.pending x (hpending ▸ List.mem_cons_of_mem q (hsub x hx))
            have hne : x.id ≠ q.id := by
              intro hk
              exact hnodup.1 (hk ▸ List.mem_map_of_mem (hsub x hx))
            rw [e, Table.get?_set_ne (fun hk => hne (hk.symm.trans hid))]
            exact ⟨hget, hopen⟩
      cases hsync : syncExchangeQuotation fails q s.world with
      | ok t w₁ =>
          obtain rfl : w₁ = w' := (left_ok hsync).symm.trans hw
          simp only [hsync]
          exact inv rest (.inl rfl)
      | error ex w₁ =>
          obtain rfl : w₁ = w' := (left_error hsync).symm.trans hw
          simp only [hsync]
          exact inv [] (.inr rfl)

/-- **A step keeps the invariant.** -/
theorem Inv.step (h : Inv s) {l : Command} (hok : Untraded s l) : Inv (step s l) := by
  cases l with
  | deliver e answers => exact h.deliver (deliver_effect answers e s.world) hok
  | saveRemittance r => exact ⟨h.stored, h.solicited, h.gone, h.once, h.pending, h.nodup⟩
  | psp id status => exact h.psp id status
  | begin fails =>
      cases fails with
      | false => exact h.begin
      | true =>
          exact ⟨h.stored, h.solicited, h.gone, h.once, fun _ hq => absurd hq List.not_mem_nil,
            List.nodup_nil⟩
  | next fails => exact h.next fails

/-- No quotation is stored, and no sync run is under way. -/
structure Fresh (s : State) : Prop where
  quotations : s.world.stores.exchangeQuotations = .empty
  links : s.world.stores.remittanceExchangeQuotations = .empty
  pending : s.pending = []

theorem Fresh.inv (h : Fresh s) : Inv s := by
  refine ⟨fun l hl => ?_, fun q hq => ?_, fun q hq => ?_, fun l hl => ?_, fun q hq => ?_, ?_⟩
  · rw [h.links] at hl
    cases hl
  · rw [h.quotations] at hq
    cases hq
  · rw [h.quotations] at hq
    cases hq
  · rw [h.links] at hl
    cases hl
  · rw [h.pending] at hq
    cases hq
  · rw [h.pending]
    exact List.nodup_nil

/-- **No remittance is traded twice** over every run in which a delivery that trades its remittances
finds none of their quotations approved or completed. -/
theorem run_traded_once {ls : List Command} (h : Fresh s) (hok : Along Trade.step Untraded s ls) :
    TradedOnce (run Trade.step s ls).world :=
  (Along.invariant (I := Inv) (fun _ _ hinv hl => hinv.step hl) h.inv hok).tradedOnce

/-! ### A delivery after the approval -/

namespace Redelivery

def start : State := ⟨⟨⟨.empty, .empty, .empty, .empty⟩, .empty, []⟩, []⟩

/-- A buy of 100 that waits. -/
def remittance : Remittance :=
  ⟨1, .BUY, 1, 100, .WAITING, 1, some 1, 0, 0, none, none, none, 0⟩

def ready : ReadyExchangeQuotation := ⟨0, 0, [1], "USD", some 1, 1, ⟨1, 1, 1, .D0, .D2⟩, 0⟩

/-- Every call is performed and answered. -/
def answering : Answers where
  createExchangeQuotationDeactive := false
  currencyFound _ := true
  streamQuotationFound := true
  zroBankPartnerId := 1
  create := ⟨true, true⟩
  response := ⟨"Q", 50000, 500, 100, "TOPAZIO"⟩
  accept := ⟨true, true⟩
  fails _ := false

/-- The event is delivered twice before the PSP moves; the second delivery is refused. -/
def redelivery : List Command :=
  [.saveRemittance remittance, .deliver ready answering, .deliver ready answering,
    .psp 1 (some .APPROVED), .begin false, .next fun _ => false]

end Redelivery

open Redelivery in
theorem redelivery_traded_once : TradedOnce (run Trade.step start redelivery).world :=
  run_traded_once ⟨rfl, rfl, rfl⟩ (by decide +kernel)

open Redelivery in
/-- The event is delivered again after sync has stored that the quotation is approved: the
remittance, which still waits, is traded again. -/
theorem redelivered_traded :
    ¬ TradedOnce (run Trade.step start (redelivery ++ [.deliver ready answering])).world := by
  intro h
  have htraded : ∀ id, id = 1 ∨ id = 2 →
      Traded (run Trade.step start (redelivery ++ [.deliver ready answering])).world id := by
    rintro id (rfl | rfl)
    · refine ⟨⟨1, "Q", 1, 50000, 100, 500, .APPROVED, "TOPAZIO", some 1, some 1⟩, ?_, .APPROVED, ?_⟩
      · decide +kernel
      · decide +kernel
    · refine ⟨⟨2, "Q", 2, 50000, 100, 500, .ACCEPTED, "TOPAZIO", some 1, some 1⟩, ?_, .ACCEPTED, ?_⟩
      · decide +kernel
      · decide +kernel
  have hlinks : (run Trade.step start
      (redelivery ++ [.deliver ready answering])).world.stores.remittanceExchangeQuotations.rows =
        [⟨1, 1⟩, ⟨1, 2⟩] := by
    decide +kernel
  have e := h ⟨1, 1⟩ (by rw [hlinks]; simp) ⟨1, 2⟩ (by rw [hlinks]; simp) rfl
    (htraded 1 (.inl rfl)) (htraded 2 (.inr rfl))
  cases e

end ZroServices.Otc.Trade
