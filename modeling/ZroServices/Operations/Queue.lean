import ZroServices.Operations.Booking

/-!
# Operations — the queue of reverted operations

`Queued`: every event of a reverted operation tells what is stored of the operation, no operation
has two events in the queue, and a reverted operation that still stands on a tracker has one.

Every change keeps the queue and the booking (`Change.books`), so they hold after every run that
starts without operations, trackers and events of reverted operations (`run_books`).
-/

namespace ZroServices

open Foundation
open CreateOperationUseCase AcceptOperationUseCase RevertOperationUseCase
open HandleRevertedOperationEventUseCase HandleRevertedOperationEventController

namespace Db

/-- The operation whose revert an event tells, on the owner's side. -/
def revertedOperation : Event → Option Uuid
  | .operation .REVERTED e => e.ownerOperation.map (·.item.id)
  | _ => none

/-- The reverted operations whose events were not delivered yet. -/
def awaiting (db : Db) : List Uuid := db.events.filterMap revertedOperation

variable {db : Db}

theorem mem_awaiting {id : Uuid} :
    id ∈ db.awaiting ↔ ∃ i b, .operation .REVERTED ⟨some i, b⟩ ∈ db.events ∧ i.item.id = id := by
  rw [awaiting, List.mem_filterMap]
  constructor
  · rintro ⟨e, he, hid⟩
    cases e with
    | createdUserLimit l => cases hid
    | operation type e =>
        obtain ⟨o, b⟩ := e
        cases type with
        | PENDING | ACCEPTED => cases hid
        | REVERTED =>
            cases o with
            | none => cases hid
            | some i => exact ⟨i, b, he, Option.some.inj hid⟩
  · rintro ⟨i, b, he, hid⟩
    exact ⟨_, he, congrArg some hid⟩

end Db

/-- The event tells of the operation what is stored of it. -/
structure Tells (i : OperationItem) (o : Operation) : Prop where
  value : i.value = o.value
  createdAt : i.createdAt = o.createdAt
  analysisTags : i.analysisTags = o.analysisTags
  userLimitTracker : i.userLimitTrackerId = o.userLimitTracker

/-- The events of reverted operations fit the operations. -/
structure Queued (db : Db) : Prop where
  nodup : db.awaiting.Nodup
  tells : ∀ i b, .operation .REVERTED ⟨some i, b⟩ ∈ db.events →
    ∃ o, db.operations.get? i.item.id = some o ∧ o.state = .REVERTED ∧ Tells i.item o ∧
      attachedTracker i b = o.userLimitTracker
  awaited : ∀ o ∈ db.operations.rows, o.state = .REVERTED → o.owner ≠ none →
    o.userLimitTracker ≠ none → o.analysisTags ≠ [] → o.id ∈ db.awaiting

/-- Both invariants. -/
structure Books (env : Env) (db : Db) : Prop extends Booked env db, Queued db

section
variable {env : Env} {now : ℤ} {db db' : Db} {o o' x : Operation} {tt : TransactionType}
  {i : OperationInfo} {c : TrackedLimit} {t : Table Operation}
variable {b : Option OperationEventItem}

/-! ### The queue -/

/-- The rest of a list without one of its entries. -/
theorem eraseIdx_split {α : Type} {l : List α} {n : ℕ} {a : α} (h : l[n]? = some a) :
    ∃ pre post, l = pre ++ a :: post ∧ l.eraseIdx n = pre ++ post := by
  induction l generalizing n with
  | nil => simp at h
  | cons b l ih =>
      cases n with
      | zero =>
          rw [List.getElem?_cons_zero, Option.some_inj] at h
          subst h
          exact ⟨[], l, rfl, rfl⟩
      | succ n =>
          rw [List.getElem?_cons_succ] at h
          obtain ⟨pre, post, e, e'⟩ := ih h
          refine ⟨b :: pre, post, ?_, ?_⟩
          · rw [e, List.cons_append]
          · rw [List.eraseIdx_cons_succ, e', List.cons_append]

/-- Events that are not of reverted operations, and changes of other operations, leave the queue
fitting. -/
theorem Queued.of_quiet (h : Queued db) (hawaiting : db'.awaiting = db.awaiting)
    (hevents : ∀ i b, .operation .REVERTED ⟨some i, b⟩ ∈ db'.events →
      .operation .REVERTED ⟨some i, b⟩ ∈ db.events)
    (hkept : ∀ id o, db.operations.get? id = some o → o.state = .REVERTED →
      ∃ o', db'.operations.get? id = some o' ∧ o'.state = .REVERTED ∧ Operation.SameCharge o o')
    (hold : ∀ x ∈ db'.operations.rows, x.state = .REVERTED →
      ∃ y ∈ db.operations.rows, Operation.SameCharge y x ∧ y.state = .REVERTED) : Queued db' where
  nodup := by
    rw [hawaiting]
    exact h.nodup
  tells i b hmem := by
    obtain ⟨o, ho, hstate, ht, ha⟩ := h.tells i b (hevents i b hmem)
    obtain ⟨o', ho', hstate', hs⟩ := hkept _ o ho hstate
    refine ⟨o', ho', hstate', ⟨?_, ?_, ?_, ?_⟩, ?_⟩
    · rw [hs.value]; exact ht.value
    · rw [hs.createdAt]; exact ht.createdAt
    · rw [hs.analysisTags]; exact ht.analysisTags
    · rw [hs.userLimitTracker]; exact ht.userLimitTracker
    · rw [hs.userLimitTracker]; exact ha
  awaited x hx hstate hown htracker htags := by
    obtain ⟨y, hy, hs, hstate'⟩ := hold x hx hstate
    rw [hs.owner] at hown
    rw [hs.userLimitTracker] at htracker
    rw [hs.analysisTags] at htags
    rw [hawaiting, hs.id]
    exact h.awaited y hy hstate' hown htracker htags

/-- Replacing an operation by one of the same charge, neither of the two newly reverted. -/
theorem Queued.set_operation (h : Queued db) (ho : db.operations.get? o.id = some o)
    (hs : Operation.SameCharge o o') (hstate : o'.state = .REVERTED ↔ o.state = .REVERTED)
    (hops : db'.operations = db.operations.set o') (hawaiting : db'.awaiting = db.awaiting)
    (hevents : ∀ i b, .operation .REVERTED ⟨some i, b⟩ ∈ db'.events →
      .operation .REVERTED ⟨some i, b⟩ ∈ db.events) : Queued db' := by
  refine h.of_quiet hawaiting hevents (fun id x hx hx' => ?_) fun x hx hx' => ?_
  · rw [hops]
    by_cases e : o.id = id
    · subst e
      obtain rfl := Option.some.inj (hx.symm.trans ho)
      exact ⟨o', Table.get?_set_self ho hs.id, hstate.mpr hx', hs⟩
    · exact ⟨x, (Table.get?_set_ne fun h => e (hs.id.symm.trans h)).trans hx, hx', .refl x⟩
  · rw [hops] at hx
    rcases Table.mem_set.mp hx with ⟨hx, -⟩ | ⟨rfl, -⟩
    · exact ⟨x, hx, .refl x, hx'⟩
    · exact ⟨o, Table.mem_of_get? ho, hs, hstate.mp hx'⟩

theorem awaiting_append {es : List Event} (hes : ∀ e ∈ es, Db.revertedOperation e = none)
    (hdb : db'.events = db.events ++ es) : db'.awaiting = db.awaiting := by
  rw [Db.awaiting, hdb, List.filterMap_append, List.filterMap_eq_nil_iff.mpr hes, List.append_nil]
  rfl

theorem mem_events_append {es : List Event} (hes : ∀ e ∈ es, Db.revertedOperation e = none)
    (hdb : db'.events = db.events ++ es) {i : OperationEventItem}
    (hmem : .operation .REVERTED ⟨some i, b⟩ ∈ db'.events) :
    .operation .REVERTED ⟨some i, b⟩ ∈ db.events := by
  rw [hdb] at hmem
  rcases List.mem_append.mp hmem with hmem | hmem
  · exact hmem
  · cases hes _ hmem

theorem Queued.opened (h : Queued db)
    (hins : db.operations.insert? (i.operation env now tt) = some t) :
    Queued (i.store env now t db) := by
  refine h.of_quiet rfl (fun _ _ h => h)
    (fun id o ho hstate => ⟨o, Table.get?_insert?_of_some hins ho, hstate, .refl o⟩)
    fun x hx hstate => ?_
  rcases (Table.mem_insert? hins).mp hx with hx | rfl
  · exact ⟨x, hx, .refl x, hstate⟩
  · rw [OperationInfo.operation_state] at hstate
    cases hstate

/-- Reverting a pending operation sends its event. -/
theorem Queued.reverted (h : Queued db) (hr : Reverted now db o db') : Queued db' := by
  obtain ⟨found, pending, u, event, -, about, rfl⟩ := hr
  have hops : ∀ id x, db.operations.get? id = some x → x.state = .REVERTED →
      (db.operations.set (RevertOperationUseCase.reverted now o)).get? id = some x := by
    intro id x hx hstate
    refine (Table.get?_set_ne ?_).trans hx
    rintro rfl
    obtain rfl := Option.some.inj (hx.symm.trans found)
    rw [pending] at hstate
    cases hstate
  have new : o.id ∉ db.awaiting := by
    intro hmem
    obtain ⟨i, b, hmem, hid⟩ := Db.mem_awaiting.mp hmem
    obtain ⟨x, hx, hstate, -⟩ := h.tells i b hmem
    rw [hid, found] at hx
    rw [← Option.some.inj hx, pending] at hstate
    cases hstate
  have self : (db.operations.set (RevertOperationUseCase.reverted now o)).get? o.id
      = some (RevertOperationUseCase.reverted now o) := Table.get?_set_self found rfl
  obtain ⟨ei, eb⟩ := event
  have kept : ∀ i b, .operation .REVERTED ⟨some i, b⟩ ∈ db.events → ∃ x,
      (db.operations.set (RevertOperationUseCase.reverted now o)).get? i.item.id = some x ∧
        x.state = .REVERTED ∧ Tells i.item x ∧ attachedTracker i b = x.userLimitTracker := by
    intro i b hmem
    obtain ⟨x, hx, hstate, ht, ha⟩ := h.tells i b hmem
    exact ⟨x, hops _ x hx hstate, hstate, ht, ha⟩
  have old : ∀ x ∈ (db.operations.set (RevertOperationUseCase.reverted now o)).rows,
      x = RevertOperationUseCase.reverted now o ∨ x ∈ db.operations.rows := by
    intro x hx
    rcases Table.mem_set.mp hx with ⟨hx, -⟩ | ⟨rfl, -⟩
    · exact Or.inr hx
    · exact Or.inl rfl
  cases ei with
  | none =>
      -- An operation without an owner: its event does not name one.
      have howner : o.owner = none := Option.map_eq_none_iff.mp
        (Option.map_eq_none_iff.mp about.1.symm)
      have awaiting : ∀ db'' : Db, db''.events = db.events ++ [.operation .REVERTED ⟨none, eb⟩] →
          db''.awaiting = db.awaiting := fun db'' he =>
        awaiting_append (fun e he => by rw [List.mem_singleton.mp he]; rfl) he
      refine ⟨?_, fun i b hmem => ?_, fun x hx hstate hown htracker htags => ?_⟩
      · rw [awaiting _ rfl]
        exact h.nodup
      · rcases List.mem_append.mp hmem with hmem | hmem
        · exact kept i b hmem
        · cases List.mem_singleton.mp hmem
      · rw [awaiting _ rfl]
        rcases old x hx with rfl | hx
        · exact absurd howner hown
        · exact h.awaited x hx hstate hown htracker htags
  | some i =>
      obtain ⟨y, hy, e⟩ := Option.map_eq_some_iff.mp about.1.symm
      obtain ⟨p, hp, rfl⟩ := Option.map_eq_some_iff.mp hy
      replace e : i.item = OperationEventEmitter.formatItem
        (RevertOperationUseCase.reverted now o) := e.symm
      have hid : i.item.id = o.id := congrArg (·.id) e
      have awaiting : ∀ db'' : Db, db''.events = db.events ++ [.operation .REVERTED ⟨some i, eb⟩] →
          db''.awaiting = db.awaiting ++ [o.id] := by
        intro db'' he
        rw [Db.awaiting, he, List.filterMap_append, ← hid]
        rfl
      refine ⟨?_, fun j b hmem => ?_, fun x hx hstate hown htracker htags => ?_⟩
      · rw [awaiting _ rfl]
        exact List.Nodup.append h.nodup (List.nodup_singleton _)
          (List.disjoint_singleton.mpr new)
      · rcases List.mem_append.mp hmem with hmem | hmem
        · exact kept j b hmem
        · cases List.mem_singleton.mp hmem
          refine ⟨_, hid ▸ self, rfl, ?_, ?_⟩
          · rw [e]
            exact ⟨rfl, rfl, rfl, rfl⟩
          · -- A shared operation has one tracker, under both sides.
            cases eb with
            | none =>
                rw [attachedTracker, e]
                rfl
            | some j =>
                obtain ⟨z, hz, e'⟩ := Option.map_eq_some_iff.mp about.2.symm
                obtain ⟨q, -, rfl⟩ := Option.map_eq_some_iff.mp hz
                replace e' : j.item = OperationEventEmitter.formatItem
                  (RevertOperationUseCase.reverted now o) := e'.symm
                rw [attachedTracker, e']
                rfl
      · rw [awaiting _ rfl, List.mem_append]
        rcases old x hx with rfl | hx
        · exact Or.inr (List.mem_singleton.mpr rfl)
        · exact Or.inl (h.awaited x hx hstate hown htracker htags)

/-- The event that is delivered, and the queue without it. -/
theorem awaiting_consume {n : ℕ} {e : Event} (he : db.events[n]? = some e) :
    ∃ pre post, db.awaiting = pre ++ (Db.revertedOperation e).toList ++ post ∧
      (db.consume n).awaiting = pre ++ post := by
  obtain ⟨pre, post, hsplit, herase⟩ := eraseIdx_split he
  refine ⟨pre.filterMap Db.revertedOperation, post.filterMap Db.revertedOperation, ?_, ?_⟩
  · rw [Db.awaiting, hsplit, List.filterMap_append, List.filterMap_cons]
    cases Db.revertedOperation e with
    | none => simp
    | some id => simp
  · rw [Db.awaiting, Db.consume, herase, List.filterMap_append]

/-- The event of an operation that still stands gives it back. -/
theorem Books.finds (h : Books env db) {j : OperationEventItem}
    (hmem : .operation .REVERTED ⟨some j, b⟩ ∈ db.events) (hx : x ∈ db.operations.rows)
    (hid : x.id = j.item.id) (htracker : x.userLimitTracker ≠ none) :
    j.item.analysisTags = x.analysisTags ∧ ∃ c, Finds db (attachedTracker j b) c := by
  obtain ⟨y, hy, -, ht, ha⟩ := h.tells j b hmem
  have := Table.get?_of_mem hx
  rw [Operation.key_eq, hid, hy] at this
  obtain rfl := Option.some.inj this
  obtain ⟨id, hid'⟩ := Option.ne_none_iff_exists'.mp htracker
  obtain ⟨t', l, ht', hb⟩ := h.booking y hx id hid'
  exact ⟨ht.analysisTags, ⟨l, t'⟩, id, ha.trans hid', ht', hb.userLimit⟩

/-- An event that gives nothing back was of an operation that does not stand. -/
theorem Books.dropped (h : Books env db) {n : ℕ} {e : OperationControllerEvent}
    (he : db.events[n]? = some (.operation .REVERTED e))
    (hstop : ∀ o c, e.ownerOperation = some o →
      Finds db (attachedTracker o e.beneficiaryOperation) c → o.item.analysisTags = []) :
    Queued (db.consume n) := by
  obtain ⟨pre, post, hawaiting, hawaiting'⟩ := awaiting_consume he
  have sub : (db.consume n).awaiting.Sublist db.awaiting := by
    rw [hawaiting, hawaiting']
    exact (List.sublist_append_left _ _).append (List.Sublist.refl _)
  refine ⟨h.nodup.sublist sub, fun i b hmem => h.tells i b (List.mem_of_mem_eraseIdx hmem),
    fun x hx hstate hown htracker htags => ?_⟩
  · have hin := h.awaited x hx hstate hown htracker htags
    rw [hawaiting, List.mem_append, List.mem_append] at hin
    rw [hawaiting', List.mem_append]
    rcases hin with (hin | hin) | hin
    · exact Or.inl hin
    · obtain ⟨eo, eb⟩ := e
      obtain ⟨j, rfl, hj⟩ := Option.map_eq_some_iff.mp (Option.mem_toList.mp hin)
      have hmem := List.mem_of_getElem? he
      obtain ⟨htags', c, hc⟩ := h.finds hmem hx hj.symm htracker
      rw [hstop j c rfl hc] at htags'
      exact absurd htags'.symm htags
    · exact Or.inr hin

/-- An event that is handled gives its operation back. -/
theorem Books.given (h : Books env db) {n : ℕ} {j : OperationEventItem}
    (he : db.events[n]? = some (.operation .REVERTED ⟨some j, b⟩))
    (hc : Finds db (attachedTracker j b) c) :
    Books env (givenBack env now j.item c (db.consume n)) := by
  obtain ⟨pre, post, hawaiting, hawaiting'⟩ := awaiting_consume he
  obtain ⟨x, hx, hstate, ht, ha⟩ := h.tells j b (List.mem_of_getElem? he)
  obtain ⟨tracker, -, hct, -⟩ := hc
  have hxid : x.id = j.item.id := Table.key_of_get? hx
  have nd := h.nodup
  rw [hawaiting, List.append_assoc] at nd
  change (pre ++ j.item.id :: post).Nodup at nd
  rw [List.nodup_middle, List.nodup_cons] at nd
  have ops : (givenBack env now j.item c (db.consume n)).operations = db.operations.set x.given :=
    operations_givenBack hx
  have booked : Booked env (db.consume n) :=
    h.toBooked.of_eq (sameOperations_of_eq rfl) rfl rfl
  refine ⟨booked.given hx hstate hct, ⟨?_, fun i b' hmem => ?_,
    fun y hy hstate' hown htracker htags => ?_⟩⟩
  · change (db.consume n).awaiting.Nodup
    rw [hawaiting']
    exact nd.2
  · have hid : i.item.id ∈ (db.consume n).awaiting := Db.mem_awaiting.mpr ⟨i, b', hmem, rfl⟩
    have hne : x.id ≠ i.item.id := by
      intro e
      rw [hawaiting', ← e, hxid] at hid
      exact nd.1 hid
    obtain ⟨z, hz, hrest'⟩ := h.tells i b' (List.mem_of_mem_eraseIdx hmem)
    refine ⟨z, ?_, hrest'⟩
    rw [ops]
    exact (Table.get?_set_ne hne).trans hz
  · rw [ops] at hy
    rcases Table.mem_set.mp hy with ⟨hy, hne⟩ | ⟨rfl, -⟩
    · have hin := h.awaited y hy hstate' hown htracker htags
      rw [hawaiting, List.mem_append, List.mem_append] at hin
      change _ ∈ (db.consume n).awaiting
      rw [hawaiting', List.mem_append]
      rcases hin with (hin | hin) | hin
      · exact Or.inl hin
      · exact absurd ((List.mem_singleton.mp hin).trans hxid.symm) hne
      · exact Or.inr hin
    · exact absurd rfl htags

/-! ### Every change -/

/-- **Every change keeps the books.** -/
theorem Change.books (h : Change env now db db') (hb : Books env db) : Books env db' := by
  cases h with
  | limitCreated h =>
      refine ⟨hb.toBooked.limitCreated h, ?_⟩
      cases h with
      | same => exact hb.toQueued
      | created l userLimits hl _ hins hcredit =>
          have quiet : ∀ e ∈ [Event.createdUserLimit l], Db.revertedOperation e = none := by
            intro e he
            rw [List.mem_singleton.mp he]
            rfl
          exact hb.toQueued.of_quiet (awaiting_append quiet rfl)
            (fun _ _ => mem_events_append quiet rfl)
            (fun _ o ho hstate => ⟨o, ho, hstate, .refl o⟩)
            (fun x hx hstate => ⟨x, hx, .refl x, hstate⟩)
  | opened tt i t ho hins => exact ⟨hb.toBooked.opened ho hins, hb.toQueued.opened hins⟩
  | linked o other ho =>
      have hs := Operation.sameCharge_linked o other
      exact ⟨hb.toBooked.of_eq (sameOperations_set ho hs id rfl) rfl rfl,
        hb.toQueued.set_operation ho hs Iff.rfl rfl rfl (fun _ _ h => h)⟩
  | sent e =>
      have quiet : ∀ e' ∈ [Event.operation .PENDING e], Db.revertedOperation e' = none := by
        intro e' he'
        rw [List.mem_singleton.mp he']
        rfl
      exact ⟨hb.toBooked.of_eq (sameOperations_of_eq rfl) rfl rfl,
        hb.toQueued.of_quiet (awaiting_append quiet rfl) (fun _ _ => mem_events_append quiet rfl)
          (fun _ o ho hstate => ⟨o, ho, hstate, .refl o⟩)
          (fun x hx hstate => ⟨x, hx, .refl x, hstate⟩)⟩
  | accepted o ha =>
      obtain ⟨found, pending, ⟨t, t', ts, es, -, -, hes, rfl⟩, -⟩ := ha
      have hs := Operation.sameCharge_accepted o
      have quiet : ∀ e ∈ es, Db.revertedOperation e = none := by
        intro e he
        obtain ⟨event, rfl⟩ := hes e he
        rfl
      refine ⟨hb.toBooked.of_eq (sameOperations_set found hs (fun _ => Or.inl pending) rfl) rfl rfl,
        hb.toQueued.set_operation found hs ?_ rfl (awaiting_append quiet rfl)
          (fun _ _ => mem_events_append quiet rfl)⟩
      rw [pending]
      exact iff_of_false (by simp [AcceptOperationUseCase.accepted]) (by simp)
  | reverted o hr =>
      refine ⟨?_, hb.toQueued.reverted hr⟩
      obtain ⟨found, pending, t, event, -, -, rfl⟩ := hr
      exact hb.toBooked.of_eq (sameOperations_set found (Operation.sameCharge_reverted now o)
        (fun _ => Or.inl pending) rfl) rfl rfl
  | delivered n h =>
      cases h with
      | dropped e he hstop =>
          exact ⟨hb.toBooked.of_eq (sameOperations_of_eq rfl) rfl rfl, hb.dropped he hstop⟩
      | given o b c he _ hfinds => exact hb.given he hfinds

end

/-- Nothing is booked and nothing is queued at the start. -/
theorem books_start (env : Env) {db : Db} (hops : db.operations.rows = [])
    (htrackers : db.userLimitTrackers.rows = []) (hevents : db.awaiting = []) : Books env db where
  nonneg o ho := by rw [hops] at ho; cases ho
  one_tracker t ht := by rw [htrackers] at ht; cases ht
  limit t ht := by rw [htrackers] at ht; cases ht
  booking o ho := by rw [hops] at ho; cases ho
  carried o ho := by rw [hops] at ho; cases ho
  tagged o ho := by rw [hops] at ho; cases ho
  nodup := by rw [hevents]; exact List.nodup_nil
  tells i b hmem := by
    have : i.item.id ∈ db.awaiting := Db.mem_awaiting.mpr ⟨i, b, hmem, rfl⟩
    rw [hevents] at this
    cases this
  awaited o ho := by rw [hops] at ho; cases ho

theorem step_books {env : Env} (s : State) (l : ℤ × Command) (h : Books env s.world.db) :
    Books env (step env s l).world.db :=
  (step_changes s l).invariant (fun _ _ hc hb => hc.books hb) h

/-- **The books are kept over every run.** -/
theorem run_books (env : Env) (s : State) (ls : List (ℤ × Command))
    (h : Books env s.world.db) : Books env (run (step env) s ls).world.db :=
  run_invariant (I := fun s => Books env s.world.db) (fun s l h => step_books s l h) h ls

namespace Sample

theorem books_sample : Books (env .DATE) (run (step (env .DATE)) (start 1000 0)
    [(noon, transfer 1 300), (noon, .revert 1)]).world.db :=
  run_books _ _ _ (books_start _ rfl rfl rfl)

end Sample

end ZroServices
