import Mathlib.Data.List.TakeWhile
import ZroServices.Otc.TradedOnce

/-!
# OTC — a quotation and its remittances

Sync assigns the state of a quotation, writes its remittances one by one and then the quotation.
An exception of the remittances is swallowed, and the quotation is written with its new state all
the same (`handle_completed`, `handle_canceled`); one of a quotation that is not found leaves the
loop before the quotation is written.

* `moves_together_iff`: the quotation and its remittances move together just when no remittance is
  left behind (`Covered`);
* `completed_not_closed`: a write of the second remittance that fails.
-/

namespace ZroServices.Otc.Trade

open Foundation SyncState

/-! ### Writing the remittances of a quotation -/

variable {fails : SyncState.Call → Bool} {q : ExchangeQuotation} {status : RemittanceStatus}
  {w w' w₁ : World} {s : State} {l : RemittanceExchangeQuotation}
  {ls : List RemittanceExchangeQuotation}
variable {ids : List Uuid} {state : ExchangeQuotationState}
variable {id : Uuid} {result : PspResult} {q' : ExchangeQuotation}

/-- The calls for the remittance of a link succeed. -/
def succeeds (fails : SyncState.Call → Bool) (q : Uuid) (l : RemittanceExchangeQuotation) : Bool :=
  ! fails (.getRemittance q l.remittance) && ! fails (.updateRemittance q l.remittance)

/-- The links of the quotation whose remittances are written: up to the first call that fails. -/
def reached (fails : SyncState.Call → Bool) (q : Uuid) (w : World) :
    List RemittanceExchangeQuotation :=
  if fails (.getAllByExchangeQuotation q) then []
  else (getAllByExchangeQuotation w.stores q).takeWhile (succeeds fails q)

/-- The remittance of the link has the status. -/
def HasStatus (status : RemittanceStatus) (w : World) (l : RemittanceExchangeQuotation) : Prop :=
  ∃ r, w.stores.remittances.get? l.remittance = some r ∧ r.status = status

/-- Every remittance of the quotation has the status. -/
def AllAre (status : RemittanceStatus) (w : World) (q : Uuid) : Prop :=
  ∀ l ∈ getAllByExchangeQuotation w.stores q, HasStatus status w l

/-- A link is to a remittance that is stored. -/
def Linked (w : World) : Prop :=
  ∀ l ∈ w.stores.remittanceExchangeQuotations.rows,
    ∃ r, w.stores.remittances.get? l.remittance = some r

/-- The remittances of `ids` get the status, and nothing else that matters is written. -/
structure Writes (status : RemittanceStatus) (ids : List Uuid) (w w' : World) : Prop where
  remittances : ∀ id, w'.stores.remittances.get? id =
    if id ∈ ids then (w.stores.remittances.get? id).map ({ · with status })
    else w.stores.remittances.get? id
  untouched : untouched w' = untouched w

theorem Writes.none : Writes status [] w w := ⟨fun _ => by simp, rfl⟩

theorem Writes.links (h : Writes status ids w w') :
    w'.stores.remittanceExchangeQuotations = w.stores.remittanceExchangeQuotations :=
  congrArg Prod.fst h.untouched

theorem Writes.quotations (h : Writes status ids w w') :
    w'.stores.exchangeQuotations = w.stores.exchangeQuotations :=
  congrArg (·.2.1) h.untouched

theorem Writes.psp (h : Writes status ids w w') : w'.psp = w.psp :=
  congrArg (·.2.2) h.untouched

theorem Writes.trans (h : Writes status [id] w w₁)
    (h' : Writes status ids w₁ w') : Writes status (id :: ids) w w' := by
  refine ⟨fun x => ?_, h'.untouched.trans h.untouched⟩
  rw [h'.remittances, h.remittances]
  by_cases hx : x = id
  · subst hx
    rw [if_pos (List.mem_singleton_self x), if_pos List.mem_cons_self]
    split
    · rw [Option.map_map]
      rfl
    · rfl
  · have hne : x ∉ [id] := fun m => hx (List.mem_singleton.mp m)
    rw [if_neg hne]
    by_cases hin : x ∈ ids
    · rw [if_pos hin, if_pos (List.mem_cons_of_mem id hin)]
    · rw [if_neg hin, if_neg fun m => (List.mem_cons.mp m).elim hx hin]

theorem Writes.linked (h : Writes status ids w w') (hw : Linked w) : Linked w' := by
  intro l hl
  rw [h.links] at hl
  obtain ⟨r, hr⟩ := hw l hl
  rw [h.remittances, hr]
  split
  · exact ⟨_, rfl⟩
  · exact ⟨r, rfl⟩

/-- The body of a loop over the remittances: it writes one, or it throws and writes nothing. -/
structure Body (fails : SyncState.Call → Bool) (q : Uuid) (status : RemittanceStatus)
    (body : RemittanceExchangeQuotation → SyncState.App Unit) : Prop where
  ok : ∀ l w, succeeds fails q l = true → (∃ r, w.stores.remittances.get? l.remittance = some r) →
    ∃ w', body l w = .ok () w' ∧ Writes status [l.remittance] w w'
  error : ∀ l w, succeeds fails q l = false →
    (∃ r, w.stores.remittances.get? l.remittance = some r) → ∃ e, body l w = .error e w

theorem updateRemittance_ok {r : Remittance} (hl : succeeds fails q.id l = true)
    (hr : w.stores.remittances.get? l.remittance = some r) :
    updateRemittance fails q status l w = .ok { r with status }
      { w with stores := { w.stores with
        remittances := w.stores.remittances.set { r with status } } } := by
  obtain ⟨hget, hupdate⟩ : fails (.getRemittance q.id l.remittance) = false ∧
      fails (.updateRemittance q.id l.remittance) = false := by
    simpa [succeeds] using hl
  refine bind_ok.mpr ⟨(), w, throwIf_ok.mpr ⟨by simp [hget], rfl⟩, ?_⟩
  refine bind_ok.mpr ⟨w, w, get_ok.mpr ⟨rfl, rfl⟩, bind_ok.mpr ⟨r, w, orThrow_ok.mpr ⟨hr, rfl⟩, ?_⟩⟩
  exact bind_ok.mpr ⟨(), w, throwIf_ok.mpr ⟨by simp [hupdate], rfl⟩, rfl⟩

theorem updateRemittance_error {r : Remittance} (status : RemittanceStatus)
    (hl : succeeds fails q.id l = false)
    (hr : w.stores.remittances.get? l.remittance = some r) :
    ∃ e, updateRemittance fails q status l w = .error e w := by
  cases hget : fails (.getRemittance q.id l.remittance) with
  | true =>
      exact ⟨_, bind_of_error (throwIf_error.mpr ⟨hget, rfl, rfl⟩)⟩
  | false =>
      have hupdate : fails (.updateRemittance q.id l.remittance) = true := by
        simpa [succeeds, hget] using hl
      refine ⟨.failed (.updateRemittance q.id l.remittance), ?_⟩
      refine bind_error.mpr (.inr ⟨(), w, throwIf_ok.mpr ⟨by simp [hget], rfl⟩, ?_⟩)
      refine bind_error.mpr (.inr ⟨w, w, get_ok.mpr ⟨rfl, rfl⟩, ?_⟩)
      refine bind_error.mpr (.inr ⟨r, w, orThrow_ok.mpr ⟨hr, rfl⟩, ?_⟩)
      exact bind_of_error (throwIf_error.mpr ⟨hupdate, rfl, rfl⟩)

/-- Writing one remittance. -/
theorem writes_set {r : Remittance} {results : Table RemittanceResult} {events : List Event}
    (hr : w.stores.remittances.get? l.remittance = some r) :
    Writes status [l.remittance] w
      ⟨⟨w.stores.remittances.set { r with status }, results, w.stores.exchangeQuotations,
        w.stores.remittanceExchangeQuotations⟩, w.psp, events⟩ := by
  have hid : r.id = l.remittance := Table.key_of_get? hr
  refine ⟨fun x => ?_, rfl⟩
  change (w.stores.remittances.set { r with status }).get? x = _
  by_cases hx : x = l.remittance
  · subst hx
    rw [if_pos (List.mem_singleton_self _), hr]
    exact Table.get?_set_self hr hid
  · rw [if_neg fun m => hx (List.mem_singleton.mp m)]
    exact Table.get?_set_ne fun e => hx (e.symm.trans hid)

theorem body_close (fails : SyncState.Call → Bool) (q : ExchangeQuotation) :
    Body fails q.id .CLOSED (closeRemittance fails q) where
  ok := by
    rintro l w hl ⟨r, hr⟩
    exact ⟨_, bind_ok.mpr ⟨_, _, updateRemittance_ok hl hr, rfl⟩, writes_set hr⟩
  error := by
    rintro l w hl ⟨r, hr⟩
    obtain ⟨e, he⟩ := updateRemittance_error .CLOSED hl hr
    exact ⟨e, bind_of_error he⟩

theorem body_reopen (fails : SyncState.Call → Bool) (q : ExchangeQuotation) :
    Body fails q.id .OPEN (reopenRemittance fails q) where
  ok := by
    rintro l w hl ⟨r, hr⟩
    exact ⟨_, bind_ok.mpr ⟨_, _, updateRemittance_ok hl hr, rfl⟩, writes_set hr⟩
  error := by
    rintro l w hl ⟨r, hr⟩
    obtain ⟨e, he⟩ := updateRemittance_error .OPEN hl hr
    exact ⟨e, bind_of_error he⟩

/-- The loop writes the remittances up to the first call that fails, and throws there. -/
theorem forM_writes_reached {body : RemittanceExchangeQuotation → SyncState.App Unit}
    (hbody : Body fails id status body)
    (hstored : ∀ l ∈ ls, ∃ r, w.stores.remittances.get? l.remittance = some r) :
    ∃ w', Writes status ((ls.takeWhile (succeeds fails id)).map (·.remittance)) w w' ∧
      ((ls.takeWhile (succeeds fails id) = ls ∧ ls.forM body w = .ok () w') ∨
        (∃ l ∈ ls, succeeds fails id l = false) ∧ ∃ e, ls.forM body w = .error e w') := by
  induction ls generalizing w with
  | nil => exact ⟨w, .none, .inl ⟨rfl, rfl⟩⟩
  | cons l ls ih =>
      have hl := hstored l List.mem_cons_self
      cases hsucceeds : succeeds fails id l with
      | true =>
          obtain ⟨w₁, hrun, hw₁⟩ := hbody.ok l w hsucceeds hl
          have hrest : ∀ x ∈ ls, ∃ r, w₁.stores.remittances.get? x.remittance = some r := by
            intro x hx
            obtain ⟨r, hr⟩ := hstored x (List.mem_cons_of_mem l hx)
            rw [hw₁.remittances, hr]
            split
            · exact ⟨_, rfl⟩
            · exact ⟨r, rfl⟩
          obtain ⟨w', hw', h⟩ := ih hrest
          rw [List.takeWhile_cons_of_pos hsucceeds, List.map_cons]
          refine ⟨w', hw₁.trans hw', h.imp ?_ ?_⟩
          · rintro ⟨e, h⟩
            exact ⟨by rw [e], (bind_of_ok hrun).trans h⟩
          · rintro ⟨⟨x, hx, hfails⟩, e, h⟩
            exact ⟨⟨x, List.mem_cons_of_mem l hx, hfails⟩, e, (bind_of_ok hrun).trans h⟩
      | false =>
          obtain ⟨e, he⟩ := hbody.error l w hsucceeds hl
          rw [List.takeWhile_cons_of_neg (by simp [hsucceeds])]
          exact ⟨w, .none, .inr ⟨⟨l, List.mem_cons_self, hsucceeds⟩, e, bind_of_error he⟩⟩

/-- The loop over the remittances of a quotation, with the call that reads its links. -/
def writeAll (fails : SyncState.Call → Bool) (q : Uuid)
    (body : RemittanceExchangeQuotation → SyncState.App Unit) : SyncState.App Unit := do
  called fails (.getAllByExchangeQuotation q)
  let w ← get
  (getAllByExchangeQuotation w.stores q).forM body

/-- A call for the remittances of the quotation fails. -/
def Interrupted (fails : SyncState.Call → Bool) (q : Uuid) (w : World) : Prop :=
  fails (.getAllByExchangeQuotation q) = true ∨
    ∃ l ∈ getAllByExchangeQuotation w.stores q, succeeds fails q l = false

theorem writeAll_reached {body : RemittanceExchangeQuotation → SyncState.App Unit}
    (hbody : Body fails id status body) (hw : Linked w) :
    ∃ w', Writes status ((reached fails id w).map (·.remittance)) w w' ∧
      ((reached fails id w = getAllByExchangeQuotation w.stores id ∧
          writeAll fails id body w = .ok () w') ∨
        Interrupted fails id w ∧ ∃ e, writeAll fails id body w = .error e w') := by
  cases hfails : fails (.getAllByExchangeQuotation id) with
  | true =>
      rw [reached, if_pos hfails]
      exact ⟨w, .none, .inr ⟨.inl hfails, _, bind_of_error (throwIf_error.mpr ⟨hfails, rfl, rfl⟩)⟩⟩
  | false =>
      have hcalled : SyncState.called fails (.getAllByExchangeQuotation id) w = .ok () w :=
        throwIf_ok.mpr ⟨by simp [hfails], rfl⟩
      have hrun : writeAll fails id body w =
          (getAllByExchangeQuotation w.stores id).forM body w :=
        (bind_of_ok hcalled).trans (bind_of_ok (get_ok.mpr ⟨rfl, rfl⟩))
      rw [reached, if_neg (by simp [hfails]), hrun]
      obtain ⟨w', hw', h⟩ := forM_writes_reached hbody
        fun l hl => hw l (List.mem_filter.mp hl).1
      exact ⟨w', hw', h.imp_right (And.imp_left .inr)⟩

/-- After the loop the remittances have the status that were reached, or had it before. -/
theorem allAre_iff
    (h : Writes status ((reached fails id w).map (·.remittance)) w w') (hw : Linked w) :
    AllAre status w' id ↔ ∀ l ∈ getAllByExchangeQuotation w.stores id,
      l ∈ reached fails id w ∨ HasStatus status w l := by
  have sub : ∀ l ∈ reached fails id w, l ∈ getAllByExchangeQuotation w.stores id := by
    intro l hl
    rw [reached] at hl
    split at hl
    · cases hl
    · exact (List.takeWhile_sublist _).subset hl
  have mem : ∀ l ∈ getAllByExchangeQuotation w.stores id,
      l.remittance ∈ (reached fails id w).map (·.remittance) ↔ l ∈ reached fails id w := by
    intro l hl
    refine ⟨fun hm => ?_, List.mem_map_of_mem⟩
    obtain ⟨l', hl', e⟩ := List.mem_map.mp hm
    have hq : l'.exchangeQuotation = l.exchangeQuotation :=
      (of_decide_eq_true (List.mem_filter.mp (sub l' hl')).2).trans
        (of_decide_eq_true (List.mem_filter.mp hl).2).symm
    obtain ⟨r, x⟩ := l
    obtain ⟨r', x'⟩ := l'
    obtain rfl : r' = r := e
    obtain rfl : x' = x := hq
    exact hl'
  rw [AllAre, getAllByExchangeQuotation, h.links]
  refine forall₂_congr fun l hl => ?_
  obtain ⟨r, hr⟩ := hw l (List.mem_filter.mp hl).1
  rw [HasStatus, h.remittances, ← mem l hl]
  by_cases hin : l.remittance ∈ (reached fails id w).map (·.remittance)
  · rw [if_pos hin, hr]
    exact ⟨fun _ => .inl hin, fun _ => ⟨_, rfl, rfl⟩⟩
  · rw [if_neg hin]
    exact ⟨.inr, fun h => h.resolve_left hin⟩

/-! ### Handling a quotation -/

/-- The quotation is written. -/
def withQuotation (q : ExchangeQuotation) (w : World) : World :=
  { w with stores := { w.stores with
    exchangeQuotations := w.stores.exchangeQuotations.set q } }

theorem Writes.ofEvents (h : Writes status ids w w') (events : List Event) :
    Writes status ids w { w' with events } := ⟨h.remittances, h.untouched⟩

/-- After its remittances the quotation is written, if the call succeeds. -/
theorem sync_written (ha : getExchangeQuotationById fails q w = result)
    (h : handle fails (assigned q result) result w = .ok () w₁) :
    left (syncExchangeQuotation fails q) w =
      if fails (.updateExchangeQuotation q.id) then w₁
      else withQuotation (assigned q result) w₁ := by
  have hsync : syncExchangeQuotation fails q w = _ := bind_of_ok (get_ok.mpr ⟨rfl, rfl⟩)
  rw [ha] at hsync
  have htail := hsync.trans (bind_of_ok h)
  by_cases hfails : fails (.updateExchangeQuotation q.id) = true
  · have hcalled : SyncState.called fails (.updateExchangeQuotation q.id) w₁ =
        .error (.failed (.updateExchangeQuotation q.id)) w₁ :=
      throwIf_error.mpr ⟨hfails, rfl, rfl⟩
    rw [if_pos hfails]
    exact left_error (htail.trans (bind_of_error hcalled))
  · have hcalled : SyncState.called fails (.updateExchangeQuotation q.id) w₁ = .ok () w₁ :=
      throwIf_ok.mpr ⟨hfails, rfl⟩
    rw [if_neg hfails]
    exact left_ok (htail.trans (bind_of_ok hcalled))

theorem sync_thrown {e : SyncState.Exception} (ha : getExchangeQuotationById fails q w = result)
    (h : handle fails (assigned q result) result w = .error e w₁) :
    left (syncExchangeQuotation fails q) w = w₁ := by
  have hsync : syncExchangeQuotation fails q w = _ := bind_of_ok (get_ok.mpr ⟨rfl, rfl⟩)
  rw [ha] at hsync
  exact left_error (hsync.trans (bind_of_error h))

theorem swallow_eq (x : SyncState.App Unit) (w : World) : swallow x w = .ok () (left x w) := by
  change EStateM.tryCatch x _ w = _
  rw [EStateM.tryCatch, left]
  cases x w with
  | ok t w' => rfl
  | error e w' => rfl

/-- What is swallowed is an exception of the remittances; the event is emitted when there is
none. -/
theorem swallow_writes {x : SyncState.App Unit} {event : Event}
    (h : Writes status ids w w') (hx : x w = .ok () w' ∨ ∃ e, x w = .error e w') :
    ∃ w₁, Writes status ids w w₁ ∧
      swallow (do x; SyncState.emit event) w = .ok () w₁ := by
  rw [swallow_eq]
  rcases hx with hx | ⟨e, hx⟩
  · exact ⟨_, h.ofEvents _, congrArg _ (left_bind_ok hx)⟩
  · exact ⟨w', h, congrArg _ (left_bind_error hx)⟩

/-- The states of the PSP that end a quotation, and the status of its remittances then. -/
def Ends (state : ExchangeQuotationState) (remittances : RemittanceStatus) : Prop :=
  (state = .COMPLETED ∧ remittances = .CLOSED) ∨ state = .CANCELED ∧ remittances = .OPEN

/-- A quotation that the PSP has completed or canceled. -/
theorem handle_ended (hw : Linked w) (hends : Ends state status)
    (ha : getExchangeQuotationById fails q w = .found state) :
    ∃ w₁, Writes status ((reached fails q.id w).map (·.remittance)) w w₁ ∧
      left (syncExchangeQuotation fails q) w =
        if fails (.updateExchangeQuotation q.id) then w₁
        else withQuotation { q with state } w₁ := by
  rcases hends with ⟨rfl, rfl⟩ | ⟨rfl, rfl⟩
  · obtain ⟨w', hw', hx⟩ := writeAll_reached
      (body_close fails { q with state := .COMPLETED }) hw
    obtain ⟨w₁, hw₁, hrun⟩ := swallow_writes hw' (hx.imp And.right And.right)
    exact ⟨w₁, hw₁, sync_written ha hrun⟩
  · obtain ⟨w', hw', hx⟩ := writeAll_reached
      (body_reopen fails { q with state := .CANCELED }) hw
    obtain ⟨w₁, hw₁, hrun⟩ := swallow_writes hw' (hx.imp And.right And.right)
    exact ⟨w₁, hw₁, sync_written ha hrun⟩

/-- A quotation that the PSP does not find: when a call fails, it is not written. -/
theorem handle_notFound (hw : Linked w) (ha : getExchangeQuotationById fails q w = .notFound) :
    ∃ w₁, Writes .OPEN ((reached fails q.id w).map (·.remittance)) w w₁ ∧
      ((Interrupted fails q.id w ∨ fails (.updateExchangeQuotation q.id) = true) ∧
          left (syncExchangeQuotation fails q) w = w₁ ∨
        reached fails q.id w = getAllByExchangeQuotation w.stores q.id ∧
          left (syncExchangeQuotation fails q) w =
            withQuotation { q with state := .REJECTED } w₁) := by
  obtain ⟨w₁, hw₁, hx⟩ := writeAll_reached
    (body_reopen fails { q with state := .REJECTED }) hw
  refine ⟨w₁, hw₁, ?_⟩
  rcases hx with ⟨hreached, hrun⟩ | ⟨hinterrupted, e, hrun⟩
  · have hleft := sync_written ha hrun
    by_cases hfails : fails (.updateExchangeQuotation q.id) = true
    · rw [if_pos hfails] at hleft
      exact .inl ⟨.inr hfails, hleft⟩
    · rw [if_neg hfails] at hleft
      exact .inr ⟨hreached, hleft⟩
  · exact .inl ⟨.inl hinterrupted, sync_thrown ha hrun⟩

/-- For every other answer no remittance is written, and no state but approved is assigned. -/
theorem handle_other (ha : getExchangeQuotationById fails q w = result)
    (hcompleted : result ≠ .found .COMPLETED) (hcanceled : result ≠ .found .CANCELED)
    (hnotFound : result ≠ .notFound) :
    ∃ w₁ q', Writes .OPEN [] w w₁ ∧ q'.id = q.id ∧
      (q' = q ∨ q' = { q with state := .APPROVED }) ∧
      left (syncExchangeQuotation fails q) w =
        if fails (.updateExchangeQuotation q.id) then w₁ else withQuotation q' w₁ := by
  cases result with
  | notFound => exact absurd rfl hnotFound
  | failed => exact ⟨w, q, .none, rfl, .inl rfl, sync_written ha rfl⟩
  | found status =>
      cases status with
      | COMPLETED => exact absurd rfl hcompleted
      | CANCELED => exact absurd rfl hcanceled
      | APPROVED =>
          exact ⟨_, { q with state := .APPROVED }, Writes.none.ofEvents _, rfl, .inr rfl,
            sync_written ha (swallow_eq _ _)⟩
      | PENDING | ACCEPTED | REJECTED =>
          exact ⟨w, q, .none, rfl, .inl rfl, sync_written ha rfl⟩

/-! ### Moving together -/

/-- Sync has done what the status at the PSP asks for. -/
def Finished (w : World) (id : Uuid) : Prop :=
  ∀ q, w.stores.exchangeQuotations.get? id = some q →
    match (w.psp.get? q.solicitationPspId).bind (·.status) with
    | some .COMPLETED => q.state = .COMPLETED ∧ AllAre .CLOSED w id
    | some .CANCELED => q.state = .CANCELED ∧ AllAre .OPEN w id
    | none => q.state = .REJECTED ∧ AllAre .OPEN w id
    | some _ => True

/-- The next run, in which no call fails: it takes the quotation if it is accepted or approved. -/
def nextRun (w : World) (id : Uuid) : World :=
  match (getAllToSync w.stores).find? (·.id = id) with
  | some q => left (syncExchangeQuotation (fun _ => false) q) w
  | none => w

/-- The quotation and its remittances move together, and the next run finishes the work. -/
structure MovesTogether (w : World) (id : Uuid) : Prop where
  completed : ∀ q, w.stores.exchangeQuotations.get? id = some q → q.state = .COMPLETED →
    AllAre .CLOSED w id
  canceled : ∀ q, w.stores.exchangeQuotations.get? id = some q → q.state = .CANCELED →
    AllAre .OPEN w id
  resumes : Finished (nextRun w id) id

/-- No remittance of the quotation is left behind: if the PSP has completed it (canceled it) and the
quotation is written, each of its remittances is written before a call fails, or was closed (open)
before. -/
def Covered (fails : SyncState.Call → Bool) (q : ExchangeQuotation) (w : World) : Prop :=
  fails (.updateExchangeQuotation q.id) = false →
    (getExchangeQuotationById fails q w = .found .COMPLETED →
      ∀ l ∈ getAllByExchangeQuotation w.stores q.id,
        l ∈ reached fails q.id w ∨ HasStatus .CLOSED w l) ∧
    (getExchangeQuotationById fails q w = .found .CANCELED →
      ∀ l ∈ getAllByExchangeQuotation w.stores q.id,
        l ∈ reached fails q.id w ∨ HasStatus .OPEN w l)

/-- The next run takes a quotation that is accepted or approved. -/
theorem nextRun_selected (hq : w.stores.exchangeQuotations.get? q.id = some q)
    (hstate : q.state = .ACCEPTED ∨ q.state = .APPROVED) :
    nextRun w q.id = left (syncExchangeQuotation (fun _ => false) q) w := by
  have hmem : q ∈ getAllToSync w.stores :=
    List.mem_filter.mpr ⟨Table.mem_of_get? hq, decide_eq_true hstate⟩
  have hfind : (getAllToSync w.stores).find? (·.id = q.id) = some q := by
    refine find?_eq_some_of_forall hmem (decide_eq_true rfl) fun x hx hid => ?_
    exact Table.eq_of_key (List.mem_filter.mp hx).1 (Table.mem_of_get? hq) (of_decide_eq_true hid)
  rw [nextRun, hfind]

/-- The next run leaves a quotation of another state. -/
theorem nextRun_other (hq : w.stores.exchangeQuotations.get? id = some q)
    (hstate : ¬ (q.state = .ACCEPTED ∨ q.state = .APPROVED)) : nextRun w id = w := by
  have hfind : (getAllToSync w.stores).find? (·.id = id) = none := by
    refine List.find?_eq_none.mpr fun x hx hid => ?_
    obtain ⟨hmem, hx⟩ := List.mem_filter.mp hx
    obtain rfl := Table.eq_of_key hmem (Table.mem_of_get? hq)
      ((of_decide_eq_true hid).trans (Table.key_of_get? hq).symm)
    exact hstate (of_decide_eq_true hx)
  rw [nextRun, hfind]

/-- What is asked for by the status at the PSP, of the quotation `q'` that was written. -/
def Asked (st : Option ExchangeQuotationState) (q' : ExchangeQuotation) (w : World) (id : Uuid) :
    Prop :=
  match st with
  | some .COMPLETED => q'.state = .COMPLETED ∧ AllAre .CLOSED w id
  | some .CANCELED => q'.state = .CANCELED ∧ AllAre .OPEN w id
  | none => q'.state = .REJECTED ∧ AllAre .OPEN w id
  | some _ => True

theorem get?_withQuotation
    (hq : w.stores.exchangeQuotations.get? q.id = some q) (hw : Writes status ids w w₁)
    (hid : q'.id = q.id) :
    (withQuotation q' w₁).stores.exchangeQuotations.get? q.id = some q' := by
  have hstored : w₁.stores.exchangeQuotations.get? q.id = some q := by
    rw [hw.quotations]
    exact hq
  exact Table.get?_set_self hstored hid

theorem finished_written
    (hq : w.stores.exchangeQuotations.get? q.id = some q) (hw : Writes status ids w w₁)
    (hid : q'.id = q.id) (hsolicitation : q'.solicitationPspId = q.solicitationPspId)
    (h : Asked ((w.psp.get? q.solicitationPspId).bind (·.status)) q' w₁ q.id) :
    Finished (withQuotation q' w₁) q.id := by
  intro x hx
  obtain rfl := Option.some.inj ((get?_withQuotation hq hw hid).symm.trans hx)
  change Asked ((w₁.psp.get? q'.solicitationPspId).bind (·.status)) q' w₁ q.id
  rw [hw.psp, hsolicitation]
  exact h

theorem reached_faultless (id : Uuid) (w : World) :
    reached (fun _ => false) id w = getAllByExchangeQuotation w.stores id := by
  rw [reached, if_neg (by simp)]
  exact List.takeWhile_eq_self_iff.mpr fun _ _ => rfl

/-- The answer of the PSP, when the call succeeds. -/
theorem getExchangeQuotationById_eq (hfails : fails (.getExchangeQuotationById q.id) = false) :
    getExchangeQuotationById fails q w =
      match (w.psp.get? q.solicitationPspId).bind (·.status) with
      | some status => .found status
      | none => .notFound := by
  exact if_neg (by simp [hfails])

theorem getExchangeQuotationById_found {st : ExchangeQuotationState}
    (ha : getExchangeQuotationById fails q w = .found st) :
    (w.psp.get? q.solicitationPspId).bind (·.status) = some st := by
  rw [getExchangeQuotationById] at ha
  split at ha
  · cases ha
  · split at ha
    · cases ha
      assumption
    · cases ha

/-- **A run in which no call fails finishes the work.** -/
theorem finished_faultless (hw : Linked w) (hq : w.stores.exchangeQuotations.get? q.id = some q) :
    Finished (left (syncExchangeQuotation (fun _ => false) q) w) q.id := by
  have hall : ∀ status, ∀ l ∈ getAllByExchangeQuotation w.stores q.id,
      l ∈ reached (fun _ => false) q.id w ∨ HasStatus status w l := by
    intro status l hl
    rw [reached_faultless]
    exact .inl hl
  have ha : getExchangeQuotationById (fun _ => false) q w = _ := getExchangeQuotationById_eq rfl
  cases hstatus : (w.psp.get? q.solicitationPspId).bind (·.status) with
  | none =>
      rw [hstatus] at ha
      obtain ⟨w₁, hw₁, ⟨hfails, -⟩ | ⟨-, hleft⟩⟩ := handle_notFound hw ha
      · simp [Interrupted, succeeds] at hfails
      · rw [hleft]
        refine finished_written hq hw₁ rfl rfl ?_
        rw [hstatus]
        exact ⟨rfl, (allAre_iff hw₁ hw).mpr (hall _)⟩
  | some st =>
      rw [hstatus] at ha
      by_cases hcompleted : st = .COMPLETED
      · subst hcompleted
        obtain ⟨w₁, hw₁, hleft⟩ := handle_ended hw (.inl ⟨rfl, rfl⟩) ha
        rw [hleft, if_neg (by simp)]
        refine finished_written hq hw₁ rfl rfl ?_
        rw [hstatus]
        exact ⟨rfl, (allAre_iff hw₁ hw).mpr (hall _)⟩
      · by_cases hcanceled : st = .CANCELED
        · subst hcanceled
          obtain ⟨w₁, hw₁, hleft⟩ := handle_ended hw (.inr ⟨rfl, rfl⟩) ha
          rw [hleft, if_neg (by simp)]
          refine finished_written hq hw₁ rfl rfl ?_
          rw [hstatus]
          exact ⟨rfl, (allAre_iff hw₁ hw).mpr (hall _)⟩
        · obtain ⟨w₁, q', hw₁, hid, hq', hleft⟩ := handle_other ha
            (by simp [hcompleted]) (by simp [hcanceled]) (by simp)
          rw [hleft, if_neg (by simp)]
          refine finished_written hq hw₁ hid ?_ ?_
          · rcases hq' with rfl | rfl <;> rfl
          · rw [hstatus]
            cases st with
            | COMPLETED => exact absurd rfl hcompleted
            | CANCELED => exact absurd rfl hcanceled
            | PENDING | ACCEPTED | APPROVED | REJECTED => trivial

theorem takeNext_world {rest : List ExchangeQuotation} (h : s.pending = q :: rest) :
    (takeNext fails s).world = left (syncExchangeQuotation fails q) s.world := by
  rw [takeNext, h, left]
  dsimp only
  cases syncExchangeQuotation fails q s.world <;> rfl

/-- A quotation that is still accepted or approved is taken again by the next run. -/
theorem MovesTogether.again (hw : Linked w) (hq : w.stores.exchangeQuotations.get? q.id = some q)
    (hstate : q.state = .ACCEPTED ∨ q.state = .APPROVED) : MovesTogether w q.id := by
  refine ⟨fun x hx hcompleted => ?_, fun x hx hcanceled => ?_, ?_⟩
  · obtain rfl := Option.some.inj (hq.symm.trans hx)
    rw [hcompleted] at hstate
    rcases hstate with h | h <;> cases h
  · obtain rfl := Option.some.inj (hq.symm.trans hx)
    rw [hcanceled] at hstate
    rcases hstate with h | h <;> cases h
  · rw [nextRun_selected hq hstate]
    exact finished_faultless hw hq

/-- A quotation that was not written is taken again. -/
theorem MovesTogether.unwritten (hw : Linked w) (hwrites : Writes status ids w w₁)
    (hq : w.stores.exchangeQuotations.get? q.id = some q)
    (hstate : q.state = .ACCEPTED ∨ q.state = .APPROVED) : MovesTogether w₁ q.id := by
  refine .again (hwrites.linked hw) ?_ hstate
  rw [hwrites.quotations]
  exact hq

/-- A quotation that was written with what was asked for. -/
theorem MovesTogether.written
    (hwrites : Writes status ids w w₁) (hq : w.stores.exchangeQuotations.get? q.id = some q)
    (hid : q'.id = q.id) (hsolicitation : q'.solicitationPspId = q.solicitationPspId)
    (hstate : ¬ (q'.state = .ACCEPTED ∨ q'.state = .APPROVED))
    (hcompleted : q'.state = .COMPLETED → AllAre .CLOSED w₁ q.id)
    (hcanceled : q'.state = .CANCELED → AllAre .OPEN w₁ q.id)
    (h : Asked ((w.psp.get? q.solicitationPspId).bind (·.status)) q' w₁ q.id) :
    MovesTogether (withQuotation q' w₁) q.id := by
  have hq' := get?_withQuotation hq hwrites hid
  refine ⟨fun x hx => ?_, fun x hx => ?_, ?_⟩
  · obtain rfl := Option.some.inj (hq'.symm.trans hx)
    exact hcompleted
  · obtain rfl := Option.some.inj (hq'.symm.trans hx)
    exact hcanceled
  · rw [nextRun_other hq' hstate]
    exact finished_written hq hwrites hid hsolicitation h

/-- A quotation that the PSP has completed or canceled, and its remittances. -/
theorem ended_iff (hw : Linked w) (hq : w.stores.exchangeQuotations.get? q.id = some q)
    (hstate : q.state = .ACCEPTED ∨ q.state = .APPROVED) (hends : Ends state status)
    (ha : getExchangeQuotationById fails q w = .found state) :
    MovesTogether (left (syncExchangeQuotation fails q) w) q.id ↔
      (fails (.updateExchangeQuotation q.id) = false →
        ∀ l ∈ getAllByExchangeQuotation w.stores q.id,
          l ∈ reached fails q.id w ∨ HasStatus status w l) := by
  obtain ⟨w₁, hw₁, hleft⟩ := handle_ended hw hends ha
  rw [hleft, ← allAre_iff hw₁ hw]
  cases hfails : fails (.updateExchangeQuotation q.id) with
  | true =>
      rw [if_pos rfl]
      exact iff_of_true (.unwritten hw hw₁ hq hstate) fun h => absurd h (by simp)
  | false =>
      have hfound := getExchangeQuotationById_found ha
      rw [if_neg (by simp)]
      rcases hends with ⟨rfl, rfl⟩ | ⟨rfl, rfl⟩
      · refine ⟨fun h _ => h.completed _ (get?_withQuotation hq hw₁ rfl) rfl, fun h => ?_⟩
        refine .written hw₁ hq rfl rfl (by simp) (fun _ => h rfl) (fun e => by cases e) ?_
        rw [hfound]
        exact ⟨rfl, h rfl⟩
      · refine ⟨fun h _ => h.canceled _ (get?_withQuotation hq hw₁ rfl) rfl, fun h => ?_⟩
        refine .written hw₁ hq rfl rfl (by simp) (fun e => by cases e) (fun _ => h rfl) ?_
        rw [hfound]
        exact ⟨rfl, h rfl⟩

/-- A quotation that the PSP does not find and its remittances. -/
theorem notFound_moves (hw : Linked w) (hq : w.stores.exchangeQuotations.get? q.id = some q)
    (hstate : q.state = .ACCEPTED ∨ q.state = .APPROVED)
    (ha : getExchangeQuotationById fails q w = .notFound) :
    MovesTogether (left (syncExchangeQuotation fails q) w) q.id := by
  obtain ⟨w₁, hw₁, ⟨-, hleft⟩ | ⟨hreached, hleft⟩⟩ := handle_notFound hw ha
  · exact hleft ▸ .unwritten hw hw₁ hq hstate
  · have hnone : (w.psp.get? q.solicitationPspId).bind (·.status) = none := by
      rw [getExchangeQuotationById] at ha
      split at ha
      · cases ha
      · split at ha
        · cases ha
        · assumption
    rw [hleft]
    refine .written hw₁ hq rfl rfl (by simp) (fun e => by cases e) (fun e => by cases e) ?_
    rw [hnone]
    exact ⟨rfl, (allAre_iff hw₁ hw).mpr fun l hl => .inl (hreached ▸ hl)⟩

/-- A quotation for which no remittance is written. -/
theorem other_moves (hw : Linked w) (hq : w.stores.exchangeQuotations.get? q.id = some q)
    (hstate : q.state = .ACCEPTED ∨ q.state = .APPROVED)
    (hcompleted : getExchangeQuotationById fails q w ≠ .found .COMPLETED)
    (hcanceled : getExchangeQuotationById fails q w ≠ .found .CANCELED)
    (hnotFound : getExchangeQuotationById fails q w ≠ .notFound) :
    MovesTogether (left (syncExchangeQuotation fails q) w) q.id := by
  obtain ⟨w₁, q', hw₁, hid, hq', hleft⟩ := handle_other rfl hcompleted hcanceled hnotFound
  rw [hleft]
  split
  · exact .unwritten hw hw₁ hq hstate
  · -- What was written is accepted or approved, and is taken again.
    have hstate' : q'.state = .ACCEPTED ∨ q'.state = .APPROVED := by
      rcases hq' with rfl | rfl
      · exact hstate
      · exact .inr rfl
    have hstored : (withQuotation q' w₁).stores.exchangeQuotations.get? q'.id = some q' :=
      hid ▸ get?_withQuotation hq hw₁ hid
    rw [← hid]
    exact .again (hw₁.linked hw) hstored hstate'

/-- **The quotation that sync takes and its remittances move together just when no remittance is
left behind**; the other quotations, those that are pending among them, stay as they are. -/
theorem moves_together_iff {rest : List ExchangeQuotation} (hpending : s.pending = q :: rest)
    (hq : s.world.stores.exchangeQuotations.get? q.id = some q)
    (hstate : q.state = .ACCEPTED ∨ q.state = .APPROVED) (hw : Linked s.world) :
    (MovesTogether (step s (.next fails)).world q.id ↔ Covered fails q s.world) ∧
      ∀ id ≠ q.id, (step s (.next fails)).world.stores.exchangeQuotations.get? id =
        s.world.stores.exchangeQuotations.get? id := by
  have hworld : (step s (.next fails)).world = left (syncExchangeQuotation fails q) s.world :=
    takeNext_world hpending
  rw [hworld]
  refine ⟨?_, fun id hid => ?_⟩
  · by_cases hcompleted : getExchangeQuotationById fails q s.world = .found .COMPLETED
    · rw [ended_iff hw hq hstate (.inl ⟨rfl, rfl⟩) hcompleted]
      simp [Covered, hcompleted]
    by_cases hcanceled : getExchangeQuotationById fails q s.world = .found .CANCELED
    · rw [ended_iff hw hq hstate (.inr ⟨rfl, rfl⟩) hcanceled]
      simp [Covered, hcanceled]
    have hcovered : Covered fails q s.world :=
      fun _ => ⟨fun h => absurd h hcompleted, fun h => absurd h hcanceled⟩
    by_cases hnotFound : getExchangeQuotationById fails q s.world = .notFound
    · exact iff_of_true (notFound_moves hw hq hstate hnotFound) hcovered
    · exact iff_of_true (other_moves hw hq hstate hcompleted hcanceled hnotFound) hcovered
  · obtain ⟨-, -, h⟩ := sync_effect fails q s.world
    rcases h with h | h
    · rw [h]
    · rw [h, Table.get?_set_ne]
      exact fun e => hid (e.symm.trans (assigned_id q _).1)

/-! ### A remittance that is left behind -/

namespace Redelivery

/-- A quotation of two remittances. -/
def quotation : ExchangeQuotation :=
  ⟨1, "Q", 1, 50000, 100, 500, .APPROVED, "TOPAZIO", some 1, some 1⟩

/-- Sync is to take the quotation, which the PSP has completed. -/
def billed : State :=
  run Trade.step start [.saveRemittance remittance, .saveRemittance { remittance with id := 2 },
    .deliver { ready with remittanceIds := [1, 2] } answering, .psp 1 (some .APPROVED),
    .begin false, .next fun _ => false, .psp 1 (some .COMPLETED), .begin false]

/-- The write of the second remittance fails. -/
def failing : SyncState.Call → Bool := fun c => c = .updateRemittance 1 2

theorem billed_pending : billed.pending = [quotation] := by decide +kernel

theorem billed_stored :
    billed.world.stores.exchangeQuotations.get? quotation.id = some quotation := by
  decide +kernel

theorem billed_links : billed.world.stores.remittanceExchangeQuotations.rows =
    [⟨1, 1⟩, ⟨2, 1⟩] := by
  decide +kernel

theorem billed_linked : Linked billed.world := by
  intro l hl
  rw [billed_links] at hl
  have hstored : ∀ l ∈ ([⟨1, 1⟩, ⟨2, 1⟩] : List RemittanceExchangeQuotation),
      (billed.world.stores.remittances.get? l.remittance).isSome := by
    decide +kernel
  exact Option.isSome_iff_exists.mp (hstored l hl)

end Redelivery

open Redelivery in
theorem moves_together_billed :
    MovesTogether (step billed (.next fun _ => false)).world quotation.id :=
  (moves_together_iff billed_pending billed_stored (by decide) billed_linked).1.mpr fun _ =>
    ⟨fun _ l hl => .inl (by rw [reached_faultless]; exact hl),
      fun _ l hl => .inl (by rw [reached_faultless]; exact hl)⟩

open Redelivery in
/-- The quotation is stored completed while its second remittance still waits. -/
theorem completed_not_closed :
    ¬ MovesTogether (step billed (.next failing)).world quotation.id := by
  intro h
  have hcompleted : (step billed (.next failing)).world.stores.exchangeQuotations.get?
      quotation.id = some { quotation with state := .COMPLETED } := by
    decide +kernel
  have hlink : (⟨2, 1⟩ : RemittanceExchangeQuotation) ∈
      getAllByExchangeQuotation (step billed (.next failing)).world.stores quotation.id := by
    decide +kernel
  obtain ⟨r, hr, hclosed⟩ := h.completed _ hcompleted rfl _ hlink
  have hwaits : (step billed (.next failing)).world.stores.remittances.get? 2 =
      some { remittance with id := 2 } := by
    decide +kernel
  obtain rfl := Option.some.inj (hwaits.symm.trans hr)
  cases hclosed

end ZroServices.Otc.Trade
