import ZroServices.Foundation.Run
import ZroServices.Payments.Handlers

/-!
# Payments — a payment and its operations

The service writes a payment, and the operations service its operations; no transaction covers the
two.  They are *in step* when the operations of a confirmed payment are accepted, those of a failed
payment reverted or never created, and those of a payment under way neither.

An execution calls the operations service two times or more, and a call may be refused after
another had its effect.  `in_step_iff`: in every state of a run the payments and their operations
are in step, if and only if no call of an execution is refused after one that settled an operation.
-/

namespace ZroServices.Payments

open Foundation
open Pix (Failed)

namespace World

/-- The state of the payment is that of its operations. -/
def Agrees (w : World) (p : Payment) : Prop :=
  match p.state with
  | .CONFIRMED => ∀ o ∈ p.operations, w.stateOf o = some .ACCEPTED
  | .FAILED => ∀ o ∈ p.operations, w.stateOf o = none ∨ w.stateOf o = some .REVERTED
  | .PENDING | .WAITING | .SCHEDULED =>
      ∀ o ∈ p.operations, w.stateOf o ≠ some .ACCEPTED ∧ w.stateOf o ≠ some .REVERTED
  | .ERROR | .CANCELED => True

/-- Every operation is of a payment, and every payment agrees with its operations.  So an operation
that its payment has forgotten was never created. -/
structure InStep (w : World) : Prop where
  known : ∀ o ∈ w.operations.rows, ∃ p ∈ w.payments.rows, o.id ∈ p.operations
  agrees : ∀ p ∈ w.payments.rows, w.Agrees p

/-- No operation is of two payments, or twice of one. -/
structure Linked (w : World) : Prop where
  known : ∀ o ∈ w.operations.rows, ∃ p ∈ w.payments.rows, o.id ∈ p.operations
  apart : ∀ p ∈ w.payments.rows, ∀ q ∈ w.payments.rows, p.id ≠ q.id →
    ∀ o ∈ p.operations, o ∉ q.operations
  nodup : ∀ p ∈ w.payments.rows, p.operations.Nodup

theorem linked_empty : World.empty.Linked := by
  constructor <;> simp [World.empty, Table.empty]

/-- The operation comes to be, or changes its state. -/
def settle (w : World) (operation : Uuid) (state : OperationState) : World :=
  { w with operations := w.operations.upsert { id := operation, state } }

/-- The same for the operations of a list. -/
def settleAll (w : World) (operations : List Uuid) (state : OperationState) : World :=
  operations.foldl (fun w o => w.settle o state) w

/-- `w'` is `w` with `p'` in the place of the payment `p`, and with other operations of `p`; an
operation that `p'` has forgotten does not exist. -/
structure Moves (w w' : World) (p p' : Payment) : Prop where
  payment : w'.payments.get? p.id = some p'
  others : ∀ id, id ≠ p.id → w'.payments.get? id = w.payments.get? id
  operations : ∀ o, o ∉ p.operations → w'.operations.get? o = w.operations.get? o
  sublist : p'.operations.Sublist p.operations
  forgotten : ∀ o ∈ p.operations, o ∉ p'.operations → w'.operations.get? o = none

variable {w w' w'' : World} {p p' p'' : Payment} {o o' : Uuid} {state : OperationState}

@[simp] theorem stateOf_settle_self : (w.settle o state).stateOf o = some state := by
  rw [stateOf, settle]
  exact congrArg (Option.map LedgerOperation.state) Table.get?_upsert_self

theorem get?_settle_ne (h : o ≠ o') :
    (w.settle o state).operations.get? o' = w.operations.get? o' :=
  Table.get?_upsert_ne h

theorem stateOf_settle_ne (h : o ≠ o') : (w.settle o state).stateOf o' = w.stateOf o' := by
  rw [stateOf, get?_settle_ne h, stateOf]

theorem stateOf_settleAll {os : List Uuid} :
    (w.settleAll os state).stateOf o = if o ∈ os then some state else w.stateOf o := by
  induction os generalizing w with
  | nil => simp [settleAll]
  | cons o' os ih =>
      change ((w.settle o' state).settleAll os state).stateOf o = _
      rw [ih]
      by_cases hos : o ∈ os
      · rw [if_pos hos, if_pos (List.mem_cons_of_mem o' hos)]
      · by_cases e : o' = o
        · subst e
          rw [if_neg hos, if_pos List.mem_cons_self, stateOf_settle_self]
        · have hcons : o ∉ o' :: os := by
            rintro (_ | ⟨_, hm⟩)
            · exact e rfl
            · exact hos hm
          rw [if_neg hos, if_neg hcons, stateOf_settle_ne e]

theorem stateOf_eq_none : w.stateOf o = none ↔ w.operations.get? o = none := by
  rw [stateOf, Option.map_eq_none_iff]

theorem Moves.refl (hp : w.payments.get? p.id = some p) : w.Moves w p p where
  payment := hp
  others _ _ := rfl
  operations _ _ := rfl
  sublist := .refl _
  forgotten _ ho hno := absurd ho hno

theorem Moves.mem_payments (h : w.Moves w' p p') {q : Payment} :
    q ∈ w'.payments.rows ↔ q = p' ∨ q ∈ w.payments.rows ∧ q.id ≠ p.id := by
  constructor
  · intro hq
    have hget : w'.payments.get? q.id = some q := Table.get?_of_mem hq
    by_cases e : q.id = p.id
    · rw [e, h.payment] at hget
      exact .inl (Option.some.inj hget).symm
    · rw [h.others q.id e] at hget
      exact .inr ⟨Table.mem_of_get? hget, e⟩
  · rintro (rfl | ⟨hq, e⟩)
    · exact Table.mem_of_get? h.payment
    · have hget : w.payments.get? q.id = some q := Table.get?_of_mem hq
      exact Table.mem_of_get? ((h.others q.id e).trans hget)

/-- The operations of the other payments are what they were. -/
theorem Moves.stateOf_eq (h : w.Moves w' p p') {o : Uuid} (ho : o ∉ p.operations) :
    w'.stateOf o = w.stateOf o := by
  rw [stateOf, h.operations o ho, stateOf]

theorem Moves.linked (h : w.Moves w' p p') (hl : w.Linked)
    (hp : w.payments.get? p.id = some p) : w'.Linked := by
  have hmem : p ∈ w.payments.rows := Table.mem_of_get? hp
  refine ⟨fun o ho => ?_, fun q hq r hr hne o hoq hor => ?_, fun q hq => ?_⟩
  · have hget : w'.operations.get? o.id = some o := Table.get?_of_mem ho
    by_cases hop : o.id ∈ p.operations
    · by_cases hop' : o.id ∈ p'.operations
      · exact ⟨p', h.mem_payments.mpr (.inl rfl), hop'⟩
      · rw [h.forgotten o.id hop hop'] at hget
        cases hget
    · rw [h.operations o.id hop] at hget
      obtain ⟨q, hq, hoq⟩ := hl.known o (Table.mem_of_get? hget)
      refine ⟨q, h.mem_payments.mpr (.inr ⟨hq, fun e => hop ?_⟩), hoq⟩
      rwa [← Table.eq_of_key hq hmem e]
  · rcases h.mem_payments.mp hq with rfl | ⟨hq, eq⟩ <;>
      rcases h.mem_payments.mp hr with rfl | ⟨hr, er⟩
    · exact hne rfl
    · exact hl.apart p hmem r hr er.symm o (h.sublist.subset hoq) hor
    · exact hl.apart q hq p hmem eq o hoq (h.sublist.subset hor)
    · exact hl.apart q hq r hr hne o hoq hor
  · rcases h.mem_payments.mp hq with rfl | ⟨hq, -⟩
    · exact (hl.nodup p hmem).sublist h.sublist
    · exact hl.nodup q hq

theorem agrees_congr (h : ∀ o ∈ p.operations, w'.stateOf o = w.stateOf o) :
    w'.Agrees p ↔ w.Agrees p := by
  rw [Agrees, Agrees]
  cases p.state with
  | CONFIRMED => exact forall₂_congr fun o ho => by rw [h o ho]
  | FAILED => exact forall₂_congr fun o ho => by rw [h o ho]
  | PENDING | WAITING | SCHEDULED => exact forall₂_congr fun o ho => by rw [h o ho]
  | ERROR | CANCELED => exact Iff.rfl

section

variable (h : w.Moves w' p p')
include h

/-- Only the payment that moved may fall out of step. -/
theorem Moves.inStep_iff (hl : w.Linked) (hs : w.InStep)
    (hp : w.payments.get? p.id = some p) : w'.InStep ↔ w'.Agrees p' := by
  have hmem : p ∈ w.payments.rows := Table.mem_of_get? hp
  constructor
  · exact fun hs' => hs'.agrees p' (h.mem_payments.mpr (.inl rfl))
  · intro hagrees
    refine ⟨(h.linked hl hp).known, fun q hq => ?_⟩
    rcases h.mem_payments.mp hq with rfl | ⟨hq, e⟩
    · exact hagrees
    · refine (agrees_congr fun o ho => h.stateOf_eq ?_).mpr (hs.agrees q hq)
      exact hl.apart q hq p hmem e o ho

/-- An operation that the payment remembers is settled. -/
theorem Moves.settle (ho : o ∈ p'.operations) :
    w.Moves (w'.settle o state) p p' where
  payment := h.payment
  others := h.others
  operations o' ho' := by
    have hne : o ≠ o' := fun e => ho' (e ▸ h.sublist.subset ho)
    rw [get?_settle_ne hne, h.operations o' ho']
  sublist := h.sublist
  forgotten o' ho' hno := by
    have hne : o ≠ o' := fun e => hno (e ▸ ho)
    rw [get?_settle_ne hne, h.forgotten o' ho' hno]

theorem Moves.settleAll {os : List Uuid}
    (hos : ∀ o ∈ os, o ∈ p'.operations) : w.Moves (w'.settleAll os state) p p' := by
  induction os generalizing w' with
  | nil => exact h
  | cons o os ih =>
      exact ih (h.settle (hos o List.mem_cons_self)) fun o' ho' =>
        hos o' (List.mem_cons_of_mem o ho')

/-- The payment is written, without the operations that were never created. -/
theorem Moves.set (hid : p''.id = p.id) (hsublist : p''.operations.Sublist p'.operations)
    (hforgotten : ∀ o ∈ p'.operations, o ∉ p''.operations → w'.operations.get? o = none) :
    w.Moves { w' with payments := w'.payments.set p'' } p p'' where
  payment := Table.get?_set_self h.payment hid
  others id hne := (Table.get?_set_ne fun e => hne (e.symm.trans hid)).trans (h.others id hne)
  operations := h.operations
  sublist := hsublist.trans h.sublist
  forgotten o ho hno := by
    by_cases hop : o ∈ p'.operations
    · exact hforgotten o hop hno
    · exact h.forgotten o ho hop

/-- The payment is written with the operations that it has. -/
theorem Moves.update (q : Payment) (hid : q.id = p.id) (hops : q.operations = p'.operations) :
    w.Moves { w' with payments := w'.payments.set q } p q := by
  refine h.set hid ?_ fun o ho hno => absurd (hops ▸ ho) hno
  rw [hops]

/-- Only the tables of payments and operations matter. -/
theorem Moves.congr (hpayments : w''.payments = w'.payments)
    (hoperations : w''.operations = w'.operations) : w.Moves w'' p p' where
  payment := hpayments ▸ h.payment
  others id hne := hpayments ▸ h.others id hne
  operations o ho := hoperations ▸ h.operations o ho
  sublist := h.sublist
  forgotten o ho hno := hoperations ▸ h.forgotten o ho hno

end

/-- A payment under way has no operation that is accepted or reverted. -/
theorem not_agrees (hstate : p.state = .PENDING ∨ p.state = .WAITING) (ho : o ∈ p.operations)
    (hsettled : w.stateOf o = some .ACCEPTED ∨ w.stateOf o = some .REVERTED) : ¬ w.Agrees p := by
  intro h
  rw [Agrees] at h
  rcases hstate with e | e <;>
    (rw [e] at h
     rcases hsettled with hs | hs
     · exact (h o ho).1 hs
     · exact (h o ho).2 hs)

/-- An execution leaves `w'`, in step if and only if `ok`. -/
structure Leads (w w' : World) (ok : Prop) : Prop where
  linked : w'.Linked
  inStep_iff : w'.InStep ↔ ok

theorem Leads.refl (hl : w.Linked) (hs : w.InStep) {ok : Prop} (h : ok) : w.Leads w ok :=
  ⟨hl, iff_of_true hs h⟩

theorem Moves.leads (h : w.Moves w' p p') (hl : w.Linked) (hs : w.InStep)
    (hp : w.payments.get? p.id = some p) {ok : Prop} (hiff : w'.Agrees p' ↔ ok) :
    w.Leads w' ok :=
  ⟨h.linked hl hp, (h.inStep_iff hl hs hp).trans hiff⟩

end World

/-! ### Calls of the operations service -/

variable {services : Services} {w : World} {o : Uuid}
variable {state : OperationState}

/-- The call of `acceptOperation` accepts the operation. -/
def Services.Accepts (services : Services) (w : World) (o : Uuid) : Prop :=
  services.acceptOperation o = none ∧ w.stateOf o = some .PENDING

/-- The operation is found pending, and reverted. -/
def Services.Reverts (services : Services) (w : World) (o : Uuid) : Prop :=
  services.getOperationById o = none ∧ services.revertOperation o = none ∧
    w.stateOf o = some .PENDING

/-- The operation is not found, or is reverted after the call. -/
def Services.Undoes (services : Services) (w : World) (o : Uuid) : Prop :=
  services.getOperationById o = none ∧
    (w.stateOf o = none ∨ services.revertOperation o = none ∧
      (w.stateOf o = some .PENDING ∨ w.stateOf o = some .REVERTED))

/-- What undoing the operation `o` of `w` returns and leaves. -/
inductive Undone (w : World) (o : Uuid) : Option Uuid → World → Prop where
  | missing (h : w.stateOf o = none) : Undone w o none w
  | reverted (h : w.stateOf o = some .PENDING) : Undone w o (some o) (w.settle o .REVERTED)
  | already (h : w.stateOf o = some .REVERTED) : Undone w o (some o) w

theorem stateOf_eq_some :
    w.stateOf o = some state ↔ ∃ found, w.operations.get? o = some found ∧ found.state = state := by
  rw [World.stateOf, Option.map_eq_some_iff]

theorem settle_eq_set {found : LedgerOperation} (h : w.operations.get? o = some found) :
    w.settle o state = { w with operations := w.operations.set { id := o, state } } := by
  rw [World.settle, Table.upsert_of_get? (s := found) h]

/-- What a call does: it accepts the operation, or throws. -/
theorem acceptOperation_cases (services : Services) (operation : Option Uuid) (w : World) :
    (∃ o, operation = some o ∧ services.Accepts w o ∧
      acceptOperation services operation w = .ok () (w.settle o .ACCEPTED)) ∨
    ((∀ o ∈ operation, ¬ services.Accepts w o) ∧
      ∃ e, acceptOperation services operation w = .error e w) := by
  cases operation with
  | none => exact .inr ⟨fun o ho => absurd ho (Option.not_mem_none o), _, rfl⟩
  | some o =>
      rw [acceptOperation, operationId, some_bind_apply]
      cases hrefused : services.acceptOperation o with
      | some e =>
          refine .inr ⟨fun o' ho' ha => ?_, e, rfl⟩
          cases ho'
          rw [ha.1] at hrefused
          cases hrefused
      | none =>
          rw [refuse, pure_bind_apply, get_bind_apply]
          cases hfound : w.operations.get? o with
          | none =>
              refine .inr ⟨fun o' ho' ⟨_, hs⟩ => ?_, _, rfl⟩
              cases ho'
              rw [World.stateOf, hfound] at hs
              cases hs
          | some found =>
              rw [some_bind_apply, throwIf_bind_apply]
              by_cases hpending : found.state = .PENDING
              · refine .inl ⟨o, rfl, ⟨hrefused, stateOf_eq_some.mpr ⟨found, hfound, hpending⟩⟩, ?_⟩
                rw [if_neg (not_not_intro hpending), settle_eq_set hfound]
                rfl
              · rw [if_pos hpending]
                refine .inr ⟨fun o' ho' ⟨_, hs⟩ => ?_, _, rfl⟩
                cases ho'
                rw [World.stateOf, hfound] at hs
                exact hpending (Option.some.inj hs)

theorem acceptChangeOperation_cases (services : Services) (p : Payment) (w : World) :
    ((∀ c ∈ p.changeOperation, services.Accepts w c) ∧
      acceptChangeOperation services p w =
        .ok () (w.settleAll p.changeOperation.toList .ACCEPTED)) ∨
    (∃ c ∈ p.changeOperation, ¬ services.Accepts w c) ∧
      ∃ e, acceptChangeOperation services p w = .error e w := by
  rw [acceptChangeOperation]
  cases p.changeOperation with
  | none => exact .inl ⟨fun c hc => absurd hc (Option.not_mem_none c), rfl⟩
  | some c =>
      rcases acceptOperation_cases services (some c) w with
        ⟨c', e, ha, hrun⟩ | ⟨hno, e, hrun⟩
      · cases e
        exact .inl ⟨fun c' hc' => Option.some.inj hc' ▸ ha, hrun⟩
      · exact .inr ⟨⟨c, rfl, hno c rfl⟩, e, hrun⟩

theorem revertOperation_cases (services : Services) (o : Uuid) (found : LedgerOperation) (w : World)
    (hfound : w.operations.get? o = some found) :
    (services.revertOperation o = none ∧ ∃ w', Undone w o (some o) w' ∧
      revertOperation services (some o) w = .ok () w') ∨
    (¬ (services.revertOperation o = none ∧
        (w.stateOf o = some .PENDING ∨ w.stateOf o = some .REVERTED)) ∧
      ∃ e, revertOperation services (some o) w = .error e w) := by
  have hstate : w.stateOf o = some found.state := by rw [World.stateOf, hfound]; rfl
  rw [revertOperation, operationId, some_bind_apply]
  cases hrefused : services.revertOperation o with
  | some e => exact .inr ⟨fun h => absurd h.1 (by simp), e, rfl⟩
  | none =>
      rw [refuse, pure_bind_apply, get_bind_apply, hfound, some_bind_apply, hstate]
      cases e : found.state with
      | PENDING =>
          rw [e] at hstate
          refine .inl ⟨rfl, _, .reverted hstate, ?_⟩
          rw [settle_eq_set hfound]
          rfl
      | REVERTED =>
          rw [e] at hstate
          exact .inl ⟨rfl, w, .already hstate, rfl⟩
      | ACCEPTED | DECLINED | UNDONE =>
          refine .inr ⟨?_, _, rfl⟩
          rintro ⟨-, h | h⟩ <;> cases h

theorem revertFound_cases (services : Services) (operation : Option Uuid) (w : World) :
    (∃ o kept w', operation = some o ∧ services.Undoes w o ∧ Undone w o kept w' ∧
      revertFound services operation w = .ok kept w') ∨
    ((∀ o ∈ operation, ¬ services.Undoes w o) ∧
      ∃ e, revertFound services operation w = .error e w) := by
  cases operation with
  | none => exact .inr ⟨fun o ho => absurd ho (Option.not_mem_none o), _, rfl⟩
  | some o =>
      cases hrefused : services.getOperationById o with
      | some e =>
          refine .inr ⟨fun o' ho' h => ?_, e, ?_⟩
          · cases ho'
            rw [h.1] at hrefused
            cases hrefused
          · refine bind_of_error ?_
            rw [getOperationById, operationId, some_bind_apply, hrefused]
            rfl
      | none =>
          have hget : getOperationById services (some o) w = .ok (w.operations.get? o) w := by
            rw [getOperationById, operationId, some_bind_apply, hrefused]
            rfl
          rw [revertFound, bind_of_ok hget]
          cases hfound : w.operations.get? o with
          | none =>
              have hnone : w.stateOf o = none := World.stateOf_eq_none.mpr hfound
              exact .inl ⟨o, none, w, rfl, ⟨hrefused, .inl hnone⟩, .missing hnone, rfl⟩
          | some found =>
              dsimp only
              rcases revertOperation_cases services o found w hfound with
                ⟨hcall, w', hundone, hrun⟩ | ⟨hno, e, hrun⟩
              · refine .inl ⟨o, some o, w', rfl, ⟨hrefused, .inr ⟨hcall, ?_⟩⟩, hundone, ?_⟩
                · cases hundone with
                  | reverted h => exact .inl h
                  | already h => exact .inr h
                · rw [bind_of_ok hrun]
                  rfl
              · refine .inr ⟨fun o' ho' h => ?_, e, bind_of_error hrun⟩
                cases ho'
                rcases h.2 with hnone | hcall
                · rw [World.stateOf_eq_none, hfound] at hnone
                  cases hnone
                · exact hno hcall

theorem revertChangeOperation_cases (services : Services) (p : Payment) (w : World) :
    (p.changeOperation = none ∧ revertChangeOperation services p w = .ok none w) ∨
    (∃ c kept w', p.changeOperation = some c ∧ services.Undoes w c ∧ Undone w c kept w' ∧
      revertChangeOperation services p w = .ok kept w') ∨
    ((∃ c ∈ p.changeOperation, ¬ services.Undoes w c) ∧
      ∃ e, revertChangeOperation services p w = .error e w) := by
  rw [revertChangeOperation]
  cases p.changeOperation with
  | none => exact .inl ⟨rfl, rfl⟩
  | some c =>
      rcases revertFound_cases services (some c) w with h | ⟨hno, e, hrun⟩
      · exact .inr (.inl h)
      · exact .inr (.inr ⟨⟨c, rfl, hno c rfl⟩, e, hrun⟩)

theorem Services.Accepts.settle {o' : Uuid} (hne : o ≠ o') :
    services.Accepts (w.settle o state) o' ↔ services.Accepts w o' := by
  rw [Accepts, Accepts, World.stateOf_settle_ne hne]

/-! ### Completion -/

/-- Once the first operation is accepted, so is the second. -/
def Services.Completes (services : Services) (w : World) (p : Payment) : Prop :=
  ∀ o ∈ p.operation, services.Accepts w o → ∀ c ∈ p.changeOperation, services.Accepts w c

theorem ne_of_nodup {p : Payment} {c : Uuid} (h : p.operations.Nodup)
    (ho : p.operation = some o) (hc : p.changeOperation = some c) : o ≠ c := by
  rw [Payment.operations, ho, hc] at h
  simpa using h

theorem forall_mem_some {α : Type} {a : α} {q : α → Prop} : (∀ b ∈ some a, q b) ↔ q a := by
  simp

/-- A handler of a payment leads where it leads with the payment that is found. -/
theorem leads_getById {β : Type} {f : Payment → App β} {id : Uuid} {ok : Payment → Prop}
    (hl : w.Linked) (hs : w.InStep)
    (h : ∀ p, w.payments.get? p.id = some p → w.Leads (left (f p) w) (ok p)) :
    w.Leads (left (getById id >>= f) w) (∀ p ∈ w.payments.get? id, ok p) := by
  cases hp : w.payments.get? id with
  | none =>
      rw [left_bind_error (e := .paymentNotFound id) (by rw [getById, get_bind_apply, hp]; rfl)]
      exact .refl hl hs fun p hp => absurd hp (Option.not_mem_none p)
  | some p =>
      obtain rfl : p.id = id := Table.key_of_get? hp
      rw [forall_mem_some, left_bind_ok (by rw [getById, get_bind_apply, hp]; rfl)]
      exact h p hp

theorem left_updatePayment {now : ℤ} {p : Payment} :
    left (do updatePayment now p; return p) w =
      { w with payments := w.payments.set { p with updatedAt := now } } := rfl

/-- The execution ends here: nothing was written. -/
theorem leads_of_error {β : Type} {x : App β} {e : Exception} {ok : Prop} (hl : w.Linked)
    (hs : w.InStep) (h : x w = .error e w) (hok : ok) : w.Leads (left x w) ok := by
  rw [left_error h]
  exact .refl hl hs hok

/-- Both operations are accepted. -/
theorem stateOf_settled {p : Payment} {o' : Uuid}
    (ho : p.operation = some o) (ho' : o' ∈ p.operations) :
    ((w.settle o state).settleAll p.changeOperation.toList state).stateOf o' = some state := by
  rw [World.stateOf_settleAll]
  by_cases hc : o' ∈ p.changeOperation.toList
  · rw [if_pos hc]
  · rw [Payment.operations, ho] at ho'
    rcases List.mem_append.mp ho' with ho' | hc'
    · cases List.mem_singleton.mp ho'
      rw [if_neg hc, World.stateOf_settle_self]
    · exact absurd hc' hc

theorem handleCompletePayment_leads {now : ℤ} {id : Uuid} {endToEndId : Option String}
    (hl : w.Linked) (hs : w.InStep) :
    w.Leads (left (handleCompletePayment services now id endToEndId) w)
      (∀ p ∈ w.payments.get? id, p.state = .WAITING → services.Completes w p) := by
  rw [handleCompletePayment]
  refine leads_getById hl hs fun p hp => ?_
  cases hstate : p.state with
  | PENDING | CONFIRMED | ERROR | FAILED | CANCELED | SCHEDULED =>
      exact .refl hl hs fun e => by cases e
  | WAITING =>
      simp only [forall_const]
      have hnodup := hl.nodup p (Table.mem_of_get? hp)
      rcases acceptOperation_cases services p.operation w with
        ⟨o, ho, ha, hrun⟩ | ⟨hno, e, hrun⟩
      · have hmem : o ∈ p.operations := by simp [Payment.operations, ho]
        have hmoves : w.Moves (w.settle o .ACCEPTED) p p := (World.Moves.refl hp).settle hmem
        rw [left_bind_ok hrun]
        rcases acceptChangeOperation_cases services p (w.settle o .ACCEPTED) with
          ⟨hall, hrun⟩ | ⟨⟨c, hc, hno⟩, e, hrun⟩
        · rw [left_bind_ok hrun, left_updatePayment]
          have hchange : ∀ c ∈ p.changeOperation.toList, c ∈ p.operations := fun c hc =>
            List.mem_append_right _ hc
          refine (World.Moves.update (hmoves.settleAll hchange) _ ?_ ?_).leads hl hs hp
            (iff_of_true ?_ ?_)
          · rfl
          · rfl
          · exact fun o' ho' => stateOf_settled ho ho'
          · intro o' ho' ha' c hc
            cases ho.symm.trans ho'
            exact (Services.Accepts.settle (ne_of_nodup hnodup ho hc)).mp (hall c hc)
        · rw [left_bind_error hrun]
          have hne := ne_of_nodup hnodup ho hc
          refine hmoves.leads hl hs hp (iff_of_false ?_ fun hall => hno ?_)
          · exact World.not_agrees (.inr hstate) hmem (.inl World.stateOf_settle_self)
          · exact (Services.Accepts.settle hne).mpr (hall o ho ha c hc)
      · exact leads_of_error hl hs (bind_of_error hrun) fun o ho ha => absurd ha (hno o ho)

/-! ### Reverts -/

/-- Once the first operation is reverted, the second is undone. -/
def Services.Fails (services : Services) (w : World) (p : Payment) : Prop :=
  ∀ o ∈ p.operation, services.Reverts w o → ∀ c ∈ p.changeOperation, services.Undoes w c

section

variable {w' : World} {p : Payment} {kept : Option Uuid}

section

variable (h : Undone w o kept w')
include h

theorem Undone.stateOf_ne {o' : Uuid} (hne : o ≠ o') : w'.stateOf o' = w.stateOf o' := by
  cases h with
  | missing | already => rfl
  | reverted => exact World.stateOf_settle_ne hne

theorem Undone.undoes_iff {o' : Uuid} (hne : o ≠ o') :
    services.Undoes w' o' ↔ services.Undoes w o' := by
  rw [Services.Undoes, Services.Undoes, h.stateOf_ne hne]

theorem Undone.sublist : kept.toList.Sublist [o] := by
  cases h with
  | missing => exact List.nil_sublist [o]
  | reverted | already => exact .refl [o]

/-- What is kept is reverted. -/
theorem Undone.stateOf_kept {k : Uuid} (hk : k ∈ kept.toList) : w'.stateOf k = some .REVERTED := by
  cases h with
  | missing => cases hk
  | reverted =>
      cases List.mem_singleton.mp hk
      exact World.stateOf_settle_self
  | already h =>
      cases List.mem_singleton.mp hk
      exact h

/-- What is not kept was never created. -/
theorem Undone.stateOf_forgotten (hno : o ∉ kept.toList) : w'.stateOf o = none := by
  cases h with
  | missing h => exact h
  | reverted | already => exact absurd (List.mem_singleton.mpr rfl) hno

theorem Undone.moves {w₀ : World} (hm : w₀.Moves w p p)
    (ho : o ∈ p.operations) : w₀.Moves w' p p := by
  cases h with
  | missing | already => exact hm
  | reverted => exact hm.settle ho

end

end

/-- A payment that has failed, with what it keeps of its operations. -/
theorem failed_leads {w' : World} {p q : Payment} (hl : w.Linked) (hs : w.InStep)
    (hp : w.payments.get? p.id = some p) (hm : w.Moves w' p p) (hid : q.id = p.id)
    (hstate : q.state = .FAILED) (hsub : q.operations.Sublist p.operations)
    (hkept : ∀ o ∈ q.operations, w'.stateOf o = some .REVERTED)
    (hforgotten : ∀ o ∈ p.operations, o ∉ q.operations → w'.stateOf o = none) {ok : Prop}
    (hok : ok) : w.Leads { w' with payments := w'.payments.set q } ok := by
  refine (hm.set hid hsub fun o ho hno => ?_).leads hl hs hp (iff_of_true ?_ hok)
  · exact World.stateOf_eq_none.mp (hforgotten o ho hno)
  · rw [World.Agrees, hstate]
    exact fun o ho => .inr (hkept o ho)

/-- An operation that can be undone is of a payment under way, and not reverted yet. -/
theorem under_way {w' : World} {p : Payment} {kept : Option Uuid} (h : w.Agrees p)
    (hstate : p.state = .PENDING ∨ p.state = .WAITING ∨ p.state = .CONFIRMED)
    (ho : o ∈ p.operations) (hundone : Undone w o kept w') :
    (p.state = .PENDING ∨ p.state = .WAITING) ∧ w.stateOf o ≠ some .REVERTED := by
  rw [World.Agrees] at h
  rcases hstate with e | e | e
  · rw [e] at h
    exact ⟨.inl e, (h o ho).2⟩
  · rw [e] at h
    exact ⟨.inr e, (h o ho).2⟩
  · rw [e] at h
    have haccepted := h o ho
    cases hundone with
    | missing h | reverted h | already h =>
        rw [haccepted] at h
        cases h

theorem failPayment_leads (services : Services) (now : ℤ) (chargebackReason : Option String)
    (failed : Option Failed) {p : Payment} (hl : w.Linked) (hs : w.InStep) (hp : w.payments.get? p.id = some p)
    (hstate : p.state = .PENDING ∨ p.state = .WAITING ∨ p.state = .CONFIRMED) :
    w.Leads (left (failPayment services now chargebackReason failed p) w)
      (services.Fails w p) := by
  have hmem := Table.mem_of_get? hp
  have hnodup := hl.nodup p hmem
  have hagrees := hs.agrees p hmem
  rw [failPayment]
  rcases revertFound_cases services p.operation w with
    ⟨o, kept, w₁, ho, hundoes, hundone, hrun⟩ | ⟨hno, e, hrun⟩
  · have hop : o ∈ p.operations := by simp [Payment.operations, ho]
    obtain ⟨hway, hsettled⟩ := under_way hagrees hstate hop hundone
    have hmoves := hundone.moves (World.Moves.refl hp) hop
    have hops : p.operations = o :: p.changeOperation.toList := by rw [Payment.operations, ho]; rfl
    rw [left_bind_ok hrun]
    rcases revertChangeOperation_cases services p w₁ with
      ⟨hc, hrun⟩ | ⟨c, kept', w₂, hc, hundoes', hundone', hrun⟩ | ⟨⟨c, hc, hno⟩, e, hrun⟩
    · rw [left_bind_ok hrun, left_updatePayment]
      have hops₁ : p.operations = [o] := by rw [hops, hc]; rfl
      refine failed_leads hl hs hp hmoves ?_ ?_ ?_ (fun k hk => ?_) (fun k hk hno => ?_) ?_
      · rfl
      · rfl
      · rw [Payment.operations, Option.toList_none, List.append_nil, hops₁]
        exact hundone.sublist
      · rw [Payment.operations, Option.toList_none, List.append_nil] at hk
        exact hundone.stateOf_kept hk
      · rw [Payment.operations, Option.toList_none, List.append_nil] at hno
        rw [hops₁] at hk
        cases List.mem_singleton.mp hk
        exact hundone.stateOf_forgotten hno
      · intro o' _ _ c' hc'
        rw [hc] at hc'
        cases hc'
    · have hne := ne_of_nodup hnodup ho hc
      have hops₂ : p.operations = [o] ++ [c] := by rw [hops, hc]; rfl
      have hcp : c ∈ p.operations := by simp [hops₂]
      rw [left_bind_ok hrun, left_updatePayment]
      refine failed_leads hl hs hp (hundone'.moves hmoves hcp) ?_ ?_ ?_ (fun k hk => ?_)
        (fun k hk hno => ?_) ?_
      · rfl
      · rfl
      · rw [Payment.operations, hops₂]
        exact hundone.sublist.append hundone'.sublist
      · rcases List.mem_append.mp hk with hk | hk
        · have hko := List.mem_singleton.mp (hundone.sublist.subset hk)
          subst hko
          rw [hundone'.stateOf_ne hne.symm]
          exact hundone.stateOf_kept hk
        · exact hundone'.stateOf_kept hk
      · rw [hops₂] at hk
        rcases List.mem_append.mp hk with hk | hk
        · cases List.mem_singleton.mp hk
          rw [hundone'.stateOf_ne hne.symm]
          exact hundone.stateOf_forgotten fun hm => hno (List.mem_append_left _ hm)
        · cases List.mem_singleton.mp hk
          exact hundone'.stateOf_forgotten fun hm => hno (List.mem_append_right _ hm)
      · intro o' _ _ c' hc'
        cases hc.symm.trans hc'
        exact (hundone.undoes_iff hne).mp hundoes'
    · have hne := ne_of_nodup hnodup ho hc
      rw [left_bind_error hrun]
      cases hundone with
      | already h => exact absurd h hsettled
      | missing h =>
          refine .refl hl hs fun o' ho' hreverts => ?_
          cases ho.symm.trans ho'
          have hpending := hreverts.2.2
          rw [h] at hpending
          cases hpending
      | reverted h =>
          refine hmoves.leads hl hs hp (iff_of_false ?_ fun hall => ?_)
          · exact World.not_agrees hway hop (.inr World.stateOf_settle_self)
          · have hreverts : services.Reverts w o := by
              refine ⟨hundoes.1, ?_, h⟩
              rcases hundoes.2 with hnone | hcall
              · rw [h] at hnone
                cases hnone
              · exact hcall.1
            have hchange := hall o ho hreverts c hc
            exact hno (((Undone.reverted h).undoes_iff hne).mpr hchange)
  · refine leads_of_error hl hs (bind_of_error hrun) fun o ho hreverts => ?_
    exact absurd ⟨hreverts.1, .inr ⟨hreverts.2.1, .inl hreverts.2.2⟩⟩ (hno o ho)

theorem handleRevertPayment_leads {now : ℤ} {id : Uuid} {chargebackReason : Option String}
    {failed : Option Failed} (hl : w.Linked) (hs : w.InStep) :
    w.Leads (left (handleRevertPayment services now id chargebackReason failed) w)
      (∀ p ∈ w.payments.get? id,
        p.state = .PENDING ∨ p.state = .WAITING ∨ p.state = .CONFIRMED → services.Fails w p) := by
  rw [handleRevertPayment]
  refine leads_getById hl hs fun p hp => ?_
  cases hstate : p.state with
  | FAILED | ERROR | CANCELED | SCHEDULED =>
      exact .refl hl hs (by simp)
  | PENDING | WAITING | CONFIRMED =>
      have h := failPayment_leads services now chargebackReason failed hl hs hp
        (by simp [hstate])
      exact ⟨h.linked, h.inStep_iff.trans (by simp)⟩

/-! ### Sending -/

/-- The call lets a new operation through. -/
def Services.CreatesAccepted (services : Services) (w : World) (tag : String) (p : Payment)
    (beneficiaryWallet : Uuid) (o : Uuid) : Prop :=
  services.createAndAcceptOperation tag o p.value p.wallet beneficiaryWallet = none ∧
    w.stateOf o = none

/-- Once the first operation is accepted, so is the second, and the bank is found. -/
def Services.Pays (services : Services) (config : Config) (w : World) (p : Payment)
    (beneficiaryWallet : Uuid) : Prop :=
  ∀ o ∈ p.operation, services.CreatesAccepted w p.transactionTag p beneficiaryWallet o →
    (∀ c ∈ p.changeOperation,
      services.CreatesAccepted w config.changeTransactionTag p beneficiaryWallet c ∧
        services.setOperationReference o c = none) ∧
    ∃ bank, services.getBankByIspb p.beneficiaryBankIspb = .ok (some bank)

theorem Services.CreatesAccepted.settle {tag : String} {p : Payment} {beneficiaryWallet o' : Uuid}
    {state : OperationState} (hne : o ≠ o') :
    services.CreatesAccepted (w.settle o state) tag p beneficiaryWallet o' ↔
      services.CreatesAccepted w tag p beneficiaryWallet o' := by
  rw [CreatesAccepted, CreatesAccepted, World.stateOf_settle_ne hne]

theorem insertOperation_cases (o : Uuid) (state : OperationState) (w : World) :
    (w.stateOf o = none ∧ insertOperation o state w = .ok () (w.settle o state)) ∨
    (w.stateOf o ≠ none ∧ ∃ e, insertOperation o state w = .error e w) := by
  rw [insertOperation, get_bind_apply, World.stateOf_eq_none]
  cases hget : w.operations.get? o with
  | none =>
      obtain ⟨t, ht⟩ := Table.insert?_of_fresh (r := ({ id := o, state } : LedgerOperation)) hget
      refine .inl ⟨rfl, ?_⟩
      rw [ht, some_bind_apply, World.settle, Table.upsert, ht]
      rfl
  | some found =>
      refine .inr ⟨fun hnone => ?_, .uniqueConstraint o, ?_⟩
      · rw [World.stateOf, hget] at hnone
        cases hnone
      · cases ht : w.operations.insert? { id := o, state } with
        | none => rfl
        | some t =>
            have hnone : w.operations.get? o = none := (Table.insert?_eq_some ht).1
            rw [hnone] at hget
            cases hget

theorem createAndAcceptOperation_cases (services : Services) (tag : String)
    (operation : Option Uuid) (p : Payment) (beneficiaryWallet : Uuid) (w : World) :
    (∃ o, operation = some o ∧ services.CreatesAccepted w tag p beneficiaryWallet o ∧
      createAndAcceptOperation services tag operation p.value p.wallet beneficiaryWallet w =
        .ok () (w.settle o .ACCEPTED)) ∨
    ((∀ o ∈ operation, ¬ services.CreatesAccepted w tag p beneficiaryWallet o) ∧
      ∃ e, createAndAcceptOperation services tag operation p.value p.wallet beneficiaryWallet w =
        .error e w) := by
  cases operation with
  | none => exact .inr ⟨fun o ho => absurd ho (Option.not_mem_none o), _, rfl⟩
  | some o =>
      rw [createAndAcceptOperation, operationId, some_bind_apply, forall_mem_some]
      cases hrefused : services.createAndAcceptOperation tag o p.value p.wallet
        beneficiaryWallet with
      | some e =>
          refine .inr ⟨fun h => ?_, e, rfl⟩
          rw [h.1] at hrefused
          cases hrefused
      | none =>
          rw [refuse, pure_bind_apply]
          rcases insertOperation_cases o .ACCEPTED w with ⟨hnew, hrun⟩ | ⟨hold, e, hrun⟩
          · exact .inl ⟨o, rfl, ⟨hrefused, hnew⟩, hrun⟩
          · exact .inr ⟨fun h => hold h.2, e, hrun⟩

theorem setOperationReference_cases (services : Services) (o c : Uuid) (w : World)
    (ho : w.stateOf o ≠ none) (hc : w.stateOf c ≠ none) :
    (services.setOperationReference o c = none ∧
      setOperationReference services (some o) (some c) w = .ok () w) ∨
    (services.setOperationReference o c ≠ none ∧
      ∃ e, setOperationReference services (some o) (some c) w = .error e w) := by
  obtain ⟨first, hfirst⟩ := Option.ne_none_iff_exists'.mp (mt World.stateOf_eq_none.mpr ho)
  obtain ⟨second, hsecond⟩ := Option.ne_none_iff_exists'.mp (mt World.stateOf_eq_none.mpr hc)
  rw [setOperationReference, operationId, some_bind_apply, operationId, some_bind_apply]
  cases hrefused : services.setOperationReference o c with
  | some e => exact .inr ⟨by simp, e, rfl⟩
  | none =>
      refine .inl ⟨rfl, ?_⟩
      rw [refuse, pure_bind_apply, get_bind_apply, hfirst, some_bind_apply, hsecond,
        some_bind_apply]
      rfl

theorem createAndAcceptChangeOperationP2P_cases (config : Config) (services : Services)
    (p : Payment) (beneficiaryWallet o : Uuid) (w : World) (ho : p.operation = some o)
    (hnodup : p.operations.Nodup) (hcreated : w.stateOf o = some .ACCEPTED) :
    ((∀ c ∈ p.changeOperation,
        services.CreatesAccepted w config.changeTransactionTag p beneficiaryWallet c ∧
          services.setOperationReference o c = none) ∧
      createAndAcceptChangeOperationP2P config services p beneficiaryWallet w =
        .ok () (w.settleAll p.changeOperation.toList .ACCEPTED)) ∨
    ((∃ c ∈ p.changeOperation,
        ¬ (services.CreatesAccepted w config.changeTransactionTag p beneficiaryWallet c ∧
          services.setOperationReference o c = none)) ∧
      ∃ e w', createAndAcceptChangeOperationP2P config services p beneficiaryWallet w =
        .error e w' ∧ (w' = w ∨ w' = w.settleAll p.changeOperation.toList .ACCEPTED)) := by
  rw [createAndAcceptChangeOperationP2P]
  cases hc : p.changeOperation with
  | none => exact .inl ⟨fun c hc => absurd hc (Option.not_mem_none c), rfl⟩
  | some c =>
      have hne := ne_of_nodup hnodup ho hc
      rw [forall_mem_some, ho]
      rcases createAndAcceptOperation_cases services config.changeTransactionTag (some c) p
        beneficiaryWallet w with ⟨c', e, hcreates, hrun⟩ | ⟨hno, e, hrun⟩
      · cases e
        have hset := setOperationReference_cases services o c (w.settle c .ACCEPTED)
          (by rw [World.stateOf_settle_ne hne.symm, hcreated]; simp)
          (by rw [World.stateOf_settle_self]; simp)
        rcases hset with ⟨hset, hrun'⟩ | ⟨hset, e, hrun'⟩
        · exact .inl ⟨⟨hcreates, hset⟩, (bind_of_ok hrun).trans hrun'⟩
        · refine .inr ⟨⟨c, rfl, fun h => hset h.2⟩, e, w.settle c .ACCEPTED, ?_, .inr rfl⟩
          exact (bind_of_ok hrun).trans hrun'
      · refine .inr ⟨⟨c, rfl, fun h => hno c rfl h.1⟩, e, w, ?_, .inl rfl⟩
        exact bind_of_error hrun

theorem sendPaymentP2P_leads (config : Config) (services : Services) (now : ℤ) {p : Payment}
    (beneficiary : Pix.WalletAccount) (hl : w.Linked) (hs : w.InStep)
    (hp : w.payments.get? p.id = some p) (hstate : p.state = .PENDING) :
    w.Leads (left (sendPaymentP2P config services now p beneficiary) w)
      (services.Pays config w p beneficiary.wallet) := by
  have hnodup := hl.nodup p (Table.mem_of_get? hp)
  rw [sendPaymentP2P]
  rcases createAndAcceptOperation_cases services p.transactionTag p.operation p
    beneficiary.wallet w with ⟨o, ho, hcreates, hrun⟩ | ⟨hno, e, hrun⟩
  · have hop : o ∈ p.operations := by simp [Payment.operations, ho]
    have hmoves : w.Moves (w.settle o .ACCEPTED) p p := (World.Moves.refl hp).settle hop
    have hchange : ∀ c ∈ p.changeOperation.toList, c ∈ p.operations := fun c hc =>
      List.mem_append_right _ hc
    have hmoves' : w.Moves ((w.settle o .ACCEPTED).settleAll p.changeOperation.toList .ACCEPTED)
        p p := hmoves.settleAll hchange
    have hbroken : ∀ w' : World, w'.stateOf o = some .ACCEPTED → ¬ w'.Agrees p := fun w' haccepted =>
      World.not_agrees (.inl hstate) hop (.inl haccepted)
    rw [left_bind_ok hrun]
    rcases createAndAcceptChangeOperationP2P_cases config services p beneficiary.wallet o
      (w.settle o .ACCEPTED) ho hnodup World.stateOf_settle_self with
      ⟨hchanges, hrun⟩ | ⟨⟨c, hc, hno⟩, e, w', hrun, hw'⟩
    · rw [left_bind_ok hrun]
      have hcreated : ∀ o' ∈ p.operation, ∀ c ∈ p.changeOperation,
          services.CreatesAccepted w config.changeTransactionTag p beneficiary.wallet c ∧
            services.setOperationReference o' c = none := by
        intro o' ho' c hc
        cases ho.symm.trans ho'
        have h := hchanges c hc
        exact ⟨(Services.CreatesAccepted.settle (ne_of_nodup hnodup ho hc)).mp h.1, h.2⟩
      cases hbank : services.getBankByIspb p.beneficiaryBankIspb with
      | error e =>
          refine hmoves'.leads hl hs hp (iff_of_false (hbroken _ (stateOf_settled ho hop)) ?_)
          intro hpays
          obtain ⟨bank, h⟩ := (hpays o ho hcreates).2
          rw [hbank] at h
          cases h
      | ok found =>
          cases found with
          | none =>
              refine hmoves'.leads hl hs hp (iff_of_false (hbroken _ (stateOf_settled ho hop)) ?_)
              intro hpays
              obtain ⟨bank, h⟩ := (hpays o ho hcreates).2
              rw [hbank] at h
              cases h
          | some bank =>
              have hwritten := hmoves'.update { p with state := .CONFIRMED, updatedAt := now } rfl rfl
              refine World.Moves.leads (hwritten.congr ?_ ?_) hl hs hp (iff_of_true ?_ ?_)
              · rfl
              · rfl
              · exact fun o' ho' => stateOf_settled ho ho'
              · exact fun o' ho' _ => ⟨hcreated o' ho', bank, hbank⟩
    · rw [left_bind_error hrun]
      have hne := ne_of_nodup hnodup ho hc
      have hno' : ¬ services.Pays config w p beneficiary.wallet := by
        intro hpays
        have h := (hpays o ho hcreates).1 c hc
        exact hno ⟨(Services.CreatesAccepted.settle hne).mpr h.1, h.2⟩
      rcases hw' with rfl | rfl
      · exact hmoves.leads hl hs hp (iff_of_false (hbroken _ World.stateOf_settle_self) hno')
      · exact hmoves'.leads hl hs hp (iff_of_false (hbroken _ (stateOf_settled ho hop)) hno')
  · exact leads_of_error hl hs (bind_of_error hrun) fun o ho hcreates => absurd hcreates (hno o ho)

/-- So far only the operations of the payment changed, and none of them is settled. -/
structure Holds (w : World) (p : Payment) (w' : World) : Prop where
  moves : w.Moves w' p p
  held : ∀ o ∈ p.operations, w'.stateOf o ≠ some .ACCEPTED ∧ w'.stateOf o ≠ some .REVERTED

section

variable {p : Payment} {w' : World}

theorem Holds.settle (h : Holds w p w') (ho : o ∈ p.operations) :
    Holds w p (w'.settle o .PENDING) where
  moves := h.moves.settle ho
  held o' ho' := by
    by_cases e : o = o'
    · subst e
      rw [World.stateOf_settle_self]
      simp
    · rw [World.stateOf_settle_ne e]
      exact h.held o' ho'

theorem Holds.createOperation (services : Services) (h : Holds w p w') (tag : String)
    {operation : Option Uuid} (hop : ∀ o ∈ operation, o ∈ p.operations) (rawValue : ℕ) (wallet : Uuid) :
    Holds w p (left (createOperation services tag operation rawValue wallet) w') := by
  cases operation with
  | none => exact h
  | some o =>
      cases hrefused : services.createOperation tag o rawValue wallet with
      | some e =>
          rw [Payments.createOperation, operationId, left, some_bind_apply, hrefused]
          exact h
      | none =>
          rw [Payments.createOperation, operationId, left, some_bind_apply, hrefused, refuse,
            pure_bind_apply]
          rcases insertOperation_cases o .PENDING w' with ⟨-, hrun⟩ | ⟨-, e, hrun⟩
          · rw [hrun]
            exact h.settle (hop o rfl)
          · rw [hrun]
            exact h

theorem Holds.bind {α β : Type} {x : App α} {f : α → App β} {ok : Prop}
    (hx : Holds w p (left x w')) (hl : w.Linked) (hs : w.InStep)
    (hp : w.payments.get? p.id = some p) (hok : ok)
    (hf : ∀ a w'', Holds w p w'' → w.Leads (left (f a) w'') ok)
    (hstate : p.state = .PENDING) : w.Leads (left (x >>= f) w') ok := by
  cases hrun : x w' with
  | ok a w'' =>
      rw [left_ok hrun] at hx
      rw [left_bind_ok hrun]
      exact hf a w'' hx
  | error e w'' =>
      rw [left_error hrun] at hx
      rw [left_bind_error hrun]
      refine hx.moves.leads hl hs hp (iff_of_true ?_ hok)
      rw [World.Agrees, hstate]
      exact hx.held

end

theorem keeps_refuse {γ : Type} {q : World → γ} (refused : Option Exception) :
    Keeps q (refuse refused) := by
  cases refused with
  | none => exact keeps_pure ()
  | some e => exact keeps_throw e

theorem keeps_setOperationReference {γ : Type} {q : World → γ} (first second : Option Uuid) :
    Keeps q (setOperationReference services first second) :=
  keeps_orThrow.bind fun _ => keeps_orThrow.bind fun _ => (keeps_refuse _).bind fun _ =>
    keeps_get.bind fun _ => keeps_orThrow.bind fun _ => keeps_orThrow.bind fun _ => keeps_pure ()

theorem Holds.createChangeOperation {p : Payment} {w' : World} (h : Holds w p w')
    (config : Config) : Holds w p (left (createChangeOperationPSP config services p) w') := by
  rw [createChangeOperationPSP]
  cases hc : p.changeOperation with
  | none => exact h
  | some c =>
      have hop : ∀ o ∈ some c, o ∈ p.operations := by
        rintro o ho
        cases ho
        simp [Payment.operations, hc]
      have hcreated := h.createOperation services config.changeTransactionTag hop
        p.value p.wallet
      dsimp only
      cases hrun : Payments.createOperation services config.changeTransactionTag (some c) p.value
        p.wallet w' with
      | ok u w'' =>
          rw [left_ok hrun] at hcreated
          have hkeeps : left (setOperationReference services p.operation (some c)) w'' = w'' :=
            keeps_setOperationReference (q := id) p.operation (some c) w''
          rw [left_bind_ok hrun, hkeeps]
          exact hcreated
      | error e w'' =>
          rw [left_error hrun] at hcreated
          rw [left_bind_error hrun]
          exact hcreated

theorem keeps_createPayment {γ : Type} {q : World → γ} (services : Services)
    (hq : ∀ w psp, q { w with psp := psp } = q w) (request : CreatePaymentPspRequest) :
    Keeps q (createPayment services request) := by
  refine (keeps_modify fun w => ?_).bind fun _ => ?_
  · split
    · exact hq _ _
    · rfl
  · cases (services.createPayment request).answer with
    | ok a => exact keeps_pure a
    | error e => exact keeps_throw e

/-- Asking the PSP changes nothing but what the PSP knows. -/
theorem Holds.createPayment {p : Payment} {w' : World} (h : Holds w p w')
    (request : CreatePaymentPspRequest) : Holds w p (left (createPayment services request) w') := by
  have hpayments := keeps_createPayment (q := World.payments) services
    (fun _ _ => rfl) request w'
  have hoperations := keeps_createPayment (q := World.operations) services
    (fun _ _ => rfl) request w'
  refine ⟨h.moves.congr hpayments hoperations, fun o ho => ?_⟩
  rw [World.stateOf, hoperations]
  exact h.held o ho

theorem sendPaymentPSP_leads (config : Config) (services : Services) (now : ℤ) {p : Payment}
    (hl : w.Linked) (hs : w.InStep) (hp : w.payments.get? p.id = some p)
    (hstate : p.state = .PENDING) {ok : Prop} (hok : ok) :
    w.Leads (left (sendPaymentPSP config services now p) w) ok := by
  have hagrees := hs.agrees p (Table.mem_of_get? hp)
  rw [World.Agrees, hstate] at hagrees
  have hstart : Holds w p w := ⟨.refl hp, hagrees⟩
  have hop : ∀ o ∈ p.operation, o ∈ p.operations := fun o ho =>
    List.mem_append_left _ (Option.mem_toList.mpr ho)
  rw [sendPaymentPSP]
  refine (hstart.createOperation services p.transactionTag hop p.value p.wallet).bind hl hs hp hok ?_ hstate
  intro _ w₁ h₁
  refine (h₁.createChangeOperation config).bind hl hs hp hok ?_ hstate
  intro _ w₂ h₂
  refine (h₂.createPayment _).bind hl hs hp hok ?_ hstate
  intro pspResult w₃ h₃
  rw [left_updatePayment]
  refine World.Moves.leads (h₃.moves.update _ ?_ ?_) hl hs hp (iff_of_true ?_ hok)
  · rfl
  · rfl
  · exact h₃.held

/-- A payment inside the bank is paid to the end. -/
def Services.PaysInside (services : Services) (config : Config) (w : World) (p : Payment) : Prop :=
  ∀ beneficiary, services.getWalletAccountByAccountNumberAndCurrency p.beneficiaryAccountNumber =
      .ok (some beneficiary) → beneficiary.isActive → p.wallet ≠ beneficiary.wallet →
    services.Pays config w p beneficiary.wallet

theorem handlePendingPayment_leads (config : Config) (services : Services) (now : ℤ) (id : Uuid)
    (hl : w.Linked) (hs : w.InStep) :
    w.Leads (left (handlePendingPayment config services now id) w)
      (∀ p ∈ w.payments.get? id, p.state = .PENDING →
        p.beneficiaryBankIspb = config.zroBankIspb → services.PaysInside config w p) := by
  rw [handlePendingPayment]
  refine leads_getById hl hs fun p hp => ?_
  cases hstate : p.state with
  | WAITING | CONFIRMED | ERROR | FAILED | CANCELED | SCHEDULED =>
      exact .refl hl hs fun e => by cases e
  | PENDING =>
      simp only [forall_const]
      by_cases hbank : p.beneficiaryBankIspb = config.zroBankIspb
      · simp only [hbank, decide_true, forall_const]
        cases hfound : services.getWalletAccountByAccountNumberAndCurrency
          p.beneficiaryAccountNumber with
        | error e =>
            refine leads_of_error (e := e) hl hs rfl fun b hb => ?_
            rw [hfound] at hb
            cases hb
        | ok found =>
            cases found with
            | none =>
                refine leads_of_error hl hs rfl fun b hb => ?_
                rw [hfound] at hb
                cases hb
            | some beneficiary =>
                change w.Leads (left (throwIf (¬ beneficiary.isActive = true) _ >>= fun _ =>
                  throwIf (p.wallet = beneficiary.wallet) _ >>= fun _ =>
                    sendPaymentP2P config services now p beneficiary) w) _
                rw [left_throwIf_bind, left_throwIf_bind]
                have hself : services.PaysInside config w p ↔ (beneficiary.isActive →
                    p.wallet ≠ beneficiary.wallet →
                      services.Pays config w p beneficiary.wallet) := by
                  refine ⟨fun h => h beneficiary hfound, fun h b hb => ?_⟩
                  cases hfound.symm.trans hb
                  exact h
                rw [hself]
                by_cases hactive : beneficiary.isActive = true
                · rw [if_neg (not_not_intro hactive)]
                  by_cases hsame : p.wallet = beneficiary.wallet
                  · rw [if_pos hsame]
                    exact .refl hl hs fun _ hne => absurd hsame hne
                  · have h := sendPaymentP2P_leads config services now beneficiary hl hs hp hstate
                    rw [if_neg hsame]
                    exact ⟨h.linked, h.inStep_iff.trans ⟨fun hpays _ _ => hpays,
                      fun hpays => hpays hactive hsame⟩⟩
                · rw [if_pos hactive]
                  exact .refl hl hs fun h => absurd h hactive
      · simp only [hbank, decide_false]
        exact sendPaymentPSP_leads config services now hl hs hp hstate False.elim

/-! ### What a rollback undoes -/

/-- The tables that a rollback restores. -/
def World.tables (w : World) : Table Payment × Table PaidDeposit := (w.payments, w.deposits)

/-- Code that throws before it writes a table: to commit and to roll back is the same. -/
def Unwritten {α : Type} (x : App α) : Prop :=
  ∀ w e w', x w = .error e w' → w.rollback w' = w'

theorem rollback_of_tables {w w' : World} (h : w'.tables = w.tables) : w.rollback w' = w' := by
  obtain ⟨hpayments, hdeposits⟩ := Prod.mk.inj h
  rw [World.rollback, ← hpayments, ← hdeposits]

section

variable {α β : Type} {x : App α} {f : α → App β}

theorem unwritten_of_keeps (h : Keeps World.tables x) : Unwritten x := by
  intro w e w' hrun
  refine rollback_of_tables ?_
  rw [← left_error hrun]
  exact h w

theorem unwritten_of_ok (h : ∀ w, ∃ a w', x w = .ok a w') : Unwritten x := by
  intro w e w' hrun
  obtain ⟨a, w'', hok⟩ := h w
  rw [hok] at hrun
  cases hrun

theorem Unwritten.bind (hx : Keeps World.tables x) (hf : ∀ a, Unwritten (f a)) :
    Unwritten (x >>= f) := by
  intro w e w' hrun
  rcases bind_error.mp hrun with hrun | ⟨a, w₁, hx', hrun⟩
  · exact unwritten_of_keeps hx w e w' hrun
  · have htables : w₁.tables = w.tables := by
      rw [← left_ok hx']
      exact hx w
    obtain ⟨hpayments, hdeposits⟩ := Prod.mk.inj htables
    have h := hf a w₁ e w' hrun
    rw [World.rollback, hpayments, hdeposits] at h
    exact h

end

theorem keeps_insertOperation (o : Uuid) (state : OperationState) :
    Keeps World.tables (insertOperation o state) :=
  keeps_get.bind fun _ => keeps_orThrow.bind fun _ => keeps_modify fun _ => rfl

theorem keeps_createOperation (tag : String) (operation : Option Uuid) (rawValue : ℕ)
    (wallet : Uuid) : Keeps World.tables (createOperation services tag operation rawValue wallet) :=
  keeps_orThrow.bind fun _ => (keeps_refuse _).bind fun _ => keeps_insertOperation _ _

theorem keeps_createAndAcceptOperation (tag : String) (operation : Option Uuid) (rawValue : ℕ)
    (wallet beneficiaryWallet : Uuid) : Keeps World.tables
      (createAndAcceptOperation services tag operation rawValue wallet beneficiaryWallet) :=
  keeps_orThrow.bind fun _ => (keeps_refuse _).bind fun _ => keeps_insertOperation _ _

theorem keeps_createChangeOperationPSP (config : Config) (p : Payment) :
    Keeps World.tables (createChangeOperationPSP config services p) := by
  rw [createChangeOperationPSP]
  cases p.changeOperation with
  | none => exact keeps_pure ()
  | some c => exact (keeps_createOperation _ _ _ _).bind fun _ => keeps_setOperationReference _ _

theorem keeps_createAndAcceptChangeOperationP2P (config : Config) (p : Payment)
    (beneficiaryWallet : Uuid) : Keeps World.tables
      (createAndAcceptChangeOperationP2P config services p beneficiaryWallet) := by
  rw [createAndAcceptChangeOperationP2P]
  cases p.changeOperation with
  | none => exact keeps_pure ()
  | some c =>
      exact (keeps_createAndAcceptOperation _ _ _ _ _).bind fun _ =>
        keeps_setOperationReference _ _

theorem keeps_call {α : Type} {γ : Type} {q : World → γ} (x : Except Exception α) :
    Keeps q (call x) := by
  cases x with
  | ok a => exact keeps_pure a
  | error e => exact keeps_throw e

theorem keeps_getById {γ : Type} {q : World → γ} (id : Uuid) : Keeps q (getById id) :=
  keeps_get.bind fun _ => keeps_orThrow

theorem unwritten_handlePendingPayment (config : Config) (services : Services) (now : ℤ)
    (id : Uuid) : Unwritten (handlePendingPayment config services now id) := by
  refine Unwritten.bind (keeps_getById id) fun p => ?_
  cases p.state with
  | WAITING | CONFIRMED => exact unwritten_of_keeps (keeps_pure p)
  | ERROR | FAILED | CANCELED | SCHEDULED => exact unwritten_of_keeps (keeps_throw _)
  | PENDING =>
      dsimp only
      cases decide (p.beneficiaryBankIspb = config.zroBankIspb) with
      | false =>
          refine Unwritten.bind (keeps_createOperation _ _ _ _) fun _ => ?_
          refine Unwritten.bind (keeps_createChangeOperationPSP config p) fun _ => ?_
          refine Unwritten.bind (keeps_createPayment services (fun _ _ => rfl) _) fun _ => ?_
          exact unwritten_of_ok fun w => ⟨_, _, rfl⟩
      | true =>
          refine Unwritten.bind (keeps_call _) fun _ => ?_
          refine Unwritten.bind keeps_orThrow fun _ => ?_
          refine Unwritten.bind keeps_throwIf fun _ => ?_
          refine Unwritten.bind keeps_throwIf fun _ => ?_
          refine Unwritten.bind (keeps_createAndAcceptOperation _ _ _ _ _) fun _ => ?_
          refine Unwritten.bind (keeps_createAndAcceptChangeOperationP2P config p _) fun _ => ?_
          refine Unwritten.bind (keeps_call _) fun _ => ?_
          refine Unwritten.bind keeps_orThrow fun _ => ?_
          exact unwritten_of_ok fun w => ⟨_, _, rfl⟩

theorem keeps_revertOperation (operation : Option Uuid) :
    Keeps World.tables (revertOperation services operation) := by
  refine keeps_orThrow.bind fun _ => (keeps_refuse _).bind fun _ => keeps_get.bind fun _ =>
    keeps_orThrow.bind fun found => ?_
  cases found.state with
  | REVERTED => exact keeps_pure ()
  | PENDING => exact keeps_modify fun _ => rfl
  | ACCEPTED | DECLINED | UNDONE => exact keeps_throw _

theorem keeps_revertFound (operation : Option Uuid) :
    Keeps World.tables (revertFound services operation) := by
  have hget : Keeps World.tables (getOperationById services operation) :=
    keeps_orThrow.bind fun _ => (keeps_refuse _).bind fun _ => keeps_get.bind fun _ => keeps_pure _
  refine hget.bind fun found => ?_
  cases found with
  | none => exact keeps_pure none
  | some o => exact (keeps_revertOperation operation).bind fun _ => keeps_pure operation

theorem unwritten_failPayment (services : Services) (now : ℤ) (chargebackReason : Option String)
    (failed : Option Failed) (p : Payment) :
    Unwritten (failPayment services now chargebackReason failed p) := by
  have hchange : Keeps World.tables (revertChangeOperation services p) := by
    rw [revertChangeOperation]
    cases p.changeOperation with
    | none => exact keeps_pure none
    | some c => exact keeps_revertFound (some c)
  refine Unwritten.bind (keeps_revertFound _) fun _ => Unwritten.bind hchange fun _ => ?_
  exact unwritten_of_ok fun w => ⟨_, _, rfl⟩

theorem unwritten_receivePaymentChargeback (services : Services) (now : ℤ) (id : Uuid)
    (chargebackReason : Option String) (failed : Option Failed) :
    Unwritten (receivePaymentChargeback services now id chargebackReason failed) := by
  refine Unwritten.bind (keeps_getById id) fun p => ?_
  cases p.state with
  | FAILED => exact unwritten_of_keeps (keeps_pure p)
  | WAITING => exact unwritten_failPayment services now chargebackReason failed p
  | PENDING | CONFIRMED | ERROR | CANCELED | SCHEDULED =>
      exact unwritten_of_keeps (keeps_throw _)

/-! ### Runs -/

/-- What an execution commits: everything when it returns or its exception is swallowed, and
nothing of its tables when the exception leaves it. -/
def World.observe {α : Type} (w : World) (swallowed : Bool) (x : App α) : World :=
  match x w with
  | .ok _ w' => w'
  | .error _ w' => if swallowed then w' else w.rollback w'

theorem observe_eq_left {α : Type} {x : App α} (h : Unwritten x) (swallowed : Bool) :
    w.observe swallowed x = left x w := by
  rw [World.observe, left]
  cases hrun : x w with
  | ok a w' => rfl
  | error e w' =>
      dsimp only
      rw [h w e w' hrun, ite_self]

/-- The next identifiers of operations. -/
def World.uuidV4 (w : World) : Uuid :=
  fresh (w.operations.rows.map LedgerOperation.id ++ w.payments.rows.flatMap Payment.operations)

/-- A payment is asked for, to be made now or later, with cash back or without. -/
def World.storePayment (w : World) (payment : Payment) (scheduled change : Bool) : World :=
  let stored : Payment :=
    { payment with
      operation := some w.uuidV4
      changeOperation := if change then some (w.uuidV4 + 1) else none
      state := if scheduled then .SCHEDULED else .PENDING }
  match w.payments.insert? stored with
  | some payments => { w with payments }
  | none => w

/-- The operations of a payment that is stored are older. -/
theorem World.lt_uuidV4 {p : Payment} (hp : p ∈ w.payments.rows) (ho : o ∈ p.operations) :
    o < w.uuidV4 :=
  lt_fresh (List.mem_append_right _ (List.mem_flatMap.mpr ⟨p, hp, ho⟩))

theorem World.stateOf_of_uuidV4_le (h : w.uuidV4 ≤ o) : w.stateOf o = none := by
  rw [World.stateOf_eq_none, Table.get?_eq_none]
  intro found hfound e
  have hlt : o < w.uuidV4 :=
    lt_fresh (List.mem_append_left _ (List.mem_map.mpr ⟨found, hfound, e⟩))
  exact absurd hlt (not_lt.mpr h)

/-- A payment is stored with new operations, unless its identifier is taken. -/
theorem World.storePayment_cases (w : World) (payment : Payment) (scheduled change : Bool) :
    w.storePayment payment scheduled change = w ∨
    ∃ (stored : Payment) (payments : Table Payment),
      w.storePayment payment scheduled change = { w with payments } ∧
      w.payments.insert? stored = some payments ∧ (∀ o ∈ stored.operations, w.uuidV4 ≤ o) ∧
      stored.operations.Nodup ∧ (stored.state = .PENDING ∨ stored.state = .SCHEDULED) := by
  rw [World.storePayment]
  split
  · rename_i payments hinsert
    refine .inr ⟨_, payments, rfl, hinsert, ?_, ?_, ?_⟩
    · rw [Payment.operations]
      cases change <;> simp
    · rw [Payment.operations]
      cases change <;> simp
    · cases scheduled <;> simp
  · exact .inl rfl

/-- The executions of the use cases, each with what the other services do. -/
inductive Command where
  | storePayment (payment : Payment) (scheduled change : Bool)
  /-- The observer swallows an exception once it has sent the reverted event. -/
  | handlePendingPayment (services : Services) (now : ℤ) (reverted : Bool) (id : Uuid)
  | handleCompletePayment (services : Services) (now : ℤ) (id : Uuid) (endToEndId : Option String)
  | handleRevertPayment (services : Services) (now : ℤ) (id : Uuid)
      (chargebackReason : Option String) (failed : Option Failed)
  | receivePaymentChargeback (services : Services) (now : ℤ) (id : Uuid)
      (chargebackReason : Option String) (failed : Option Failed)

/-- The world after a command. -/
def execute (config : Config) (w : World) : Command → World
  | .storePayment payment scheduled change => w.storePayment payment scheduled change
  | .handlePendingPayment services now reverted id =>
      w.observe reverted (handlePendingPayment config services now id)
  | .handleCompletePayment services now id endToEndId =>
      w.observe true (handleCompletePayment services now id endToEndId)
  | .handleRevertPayment services now id chargebackReason failed =>
      w.observe true (handleRevertPayment services now id chargebackReason failed)
  | .receivePaymentChargeback services now id chargebackReason failed =>
      w.observe false (receivePaymentChargeback services now id chargebackReason failed)

/-- No call is refused after one of the same execution has settled an operation. -/
def Command.Sound (config : Config) (w : World) : Command → Prop
  | .storePayment .. => True
  | .handlePendingPayment services _ _ id =>
      ∀ p ∈ w.payments.get? id, p.state = .PENDING →
        p.beneficiaryBankIspb = config.zroBankIspb → services.PaysInside config w p
  | .handleCompletePayment services _ id _ =>
      ∀ p ∈ w.payments.get? id, p.state = .WAITING → services.Completes w p
  | .handleRevertPayment services _ id _ _ =>
      ∀ p ∈ w.payments.get? id,
        p.state = .PENDING ∨ p.state = .WAITING ∨ p.state = .CONFIRMED → services.Fails w p
  | .receivePaymentChargeback services _ id _ _ =>
      ∀ p ∈ w.payments.get? id, p.state = .WAITING → services.Fails w p

theorem receivePaymentChargeback_leads (services : Services) (now : ℤ) (id : Uuid)
    (chargebackReason : Option String) (failed : Option Failed) (hl : w.Linked) (hs : w.InStep) :
    w.Leads (left (receivePaymentChargeback services now id chargebackReason failed) w)
      (∀ p ∈ w.payments.get? id, p.state = .WAITING → services.Fails w p) := by
  rw [receivePaymentChargeback]
  refine leads_getById hl hs fun p hp => ?_
  cases hstate : p.state with
  | PENDING | CONFIRMED | FAILED | ERROR | CANCELED | SCHEDULED =>
      exact .refl hl hs fun e => by cases e
  | WAITING =>
      simp only [forall_const]
      exact failPayment_leads services now chargebackReason failed hl hs hp (by simp [hstate])

/-- A payment with new operations, none of which was created, is in step. -/
theorem storePayment_leads {payment : Payment} {scheduled change : Bool} (hl : w.Linked)
    (hs : w.InStep) : w.Leads (w.storePayment payment scheduled change) True := by
  rcases w.storePayment_cases payment scheduled change with
    heq | ⟨stored, payments, heq, hinsert, hnew, hnodup, hstate⟩
  · rw [heq]
    exact .refl hl hs trivial
  · rw [heq]
    have hmem := fun p => Table.mem_insert? (x := p) hinsert
    have hlinked : World.Linked { w with payments } := by
      refine ⟨fun o ho => ?_, fun p hp q hq hne o hop hoq => ?_, fun p hp => ?_⟩
      · obtain ⟨p, hp, hop⟩ := hl.known o ho
        exact ⟨p, (hmem p).mpr (.inl hp), hop⟩
      · rcases (hmem p).mp hp with hp | rfl <;> rcases (hmem q).mp hq with hq | rfl
        · exact hl.apart p hp q hq hne o hop hoq
        · exact absurd (World.lt_uuidV4 hp hop) (not_lt.mpr (hnew o hoq))
        · exact absurd (World.lt_uuidV4 hq hoq) (not_lt.mpr (hnew o hop))
        · exact hne rfl
      · rcases (hmem p).mp hp with hp | rfl
        · exact hl.nodup p hp
        · exact hnodup
    refine ⟨hlinked, iff_of_true ⟨hlinked.known, fun p hp => ?_⟩ trivial⟩
    rcases (hmem p).mp hp with hp | rfl
    · exact hs.agrees p hp
    · have hfree : ∀ o ∈ p.operations, w.stateOf o ≠ some .ACCEPTED ∧
          w.stateOf o ≠ some .REVERTED := by
        intro o ho
        rw [World.stateOf_of_uuidV4_le (hnew o ho)]
        simp
      rw [World.Agrees]
      rcases hstate with e | e <;> rw [e] <;> exact hfree

theorem observe_true {α : Type} {x : App α} : w.observe true x = left x w := by
  rw [World.observe, left]
  cases x w <;> rfl

theorem execute_leads (config : Config) (hl : w.Linked) (hs : w.InStep) (c : Command) :
    w.Leads (execute config w c) (c.Sound config w) := by
  cases c with
  | storePayment => exact storePayment_leads hl hs
  | handlePendingPayment services now reverted id =>
      rw [execute, observe_eq_left (unwritten_handlePendingPayment config services now id)]
      exact handlePendingPayment_leads config services now id hl hs
  | handleCompletePayment =>
      rw [execute, observe_true]
      exact handleCompletePayment_leads hl hs
  | handleRevertPayment =>
      rw [execute, observe_true]
      exact handleRevertPayment_leads hl hs
  | receivePaymentChargeback services now id chargebackReason failed =>
      rw [execute, observe_eq_left
        (unwritten_receivePaymentChargeback services now id chargebackReason failed)]
      exact receivePaymentChargeback_leads services now id chargebackReason failed hl hs

theorem inStep_empty : World.empty.InStep := by
  constructor <;> simp [World.empty, Table.empty]

/-- In every state of a run the payments and their operations are in step, if and only if no
execution of the run is refused a call after it has settled an operation. -/
theorem in_step_iff (config : Config) (cs : List Command) :
    (∀ ds, ds <+: cs → (run (execute config) World.empty ds).InStep) ↔
      Along (execute config) (fun w c => c.Sound config w) World.empty cs := by
  refine along_iff (I := fun w : World => w.Linked ∧ w.InStep) (fun _ h => h.2) ?_ ?_
    ⟨World.linked_empty, inStep_empty⟩ cs
  · rintro w c ⟨hl, hs⟩
    exact (execute_leads config hl hs c).inStep_iff
  · rintro w c ⟨hl, hs⟩ hsound
    have h := execute_leads config hl hs c
    exact ⟨h.linked, h.inStep_iff.mpr hsound⟩

/-! A payment with cash back whose second operation is not accepted. -/

def sampleConfig : Config where
  newPixReceivedTransactionTag := "PIXREC"
  zroBankIspb := "26264220"
  changeTransactionTag := "PIXCHANGE"
  updatedAtThresholdInSeconds := 60

def samplePayment : Payment where
  id := 1
  user := 2
  wallet := 3
  operation := none
  changeOperation := none
  state := .PENDING
  value := 100
  transactionTag := "PIXSENDQRD"
  paymentDate := none
  endToEndId := none
  externalId := none
  txId := none
  key := none
  description := none
  beneficiaryBankIspb := "00000000"
  beneficiaryBranch := "1"
  beneficiaryAccountNumber := "1"
  beneficiaryDocument := ""
  beneficiaryName := none
  ownerBranch := "1"
  ownerAccountNumber := "2"
  ownerDocument := ""
  ownerFullName := ""
  chargebackReason := none
  failed := none
  createdAt := 0
  updatedAt := 0
  confirmedAt := none
  canceledAt := none

/-- Every call gets through. -/
def sampleServices : Services where
  createOperation _ _ _ _ := none
  createAndAcceptOperation _ _ _ _ _ := none
  setOperationReference _ _ := none
  acceptOperation _ := none
  revertOperation _ := none
  getOperationById _ := none
  getWalletAccountByAccountNumberAndCurrency _ := .ok none
  getBankByIspb ispb := .ok (some ispb)
  createPayment _ := { executed := true, answer := .ok { endToEndId := none, externalId := "X" } }

/-- The second operation is not accepted. -/
def halfAccepted : List Command :=
  [.storePayment samplePayment false true, .handlePendingPayment sampleServices 0 true 1,
    .handleCompletePayment
      { sampleServices with
        acceptOperation := fun o => if o = 2 then some (.service "timeout") else none }
      0 1 none]

/-- The payment waits, and one of its two operations is accepted. -/
theorem half_of_payment_accepted :
    ¬ ∀ config cs, (run (execute config) World.empty cs).InStep := by
  intro h
  have hagrees := (h sampleConfig halfAccepted).agrees
  have hwaiting : ∃ p ∈ (run (execute sampleConfig) World.empty halfAccepted).payments.rows,
      p.state = .WAITING ∧ 1 ∈ p.operations ∧
        (run (execute sampleConfig) World.empty halfAccepted).stateOf 1 = some .ACCEPTED := by
    decide
  obtain ⟨p, hp, hstate, hmem, haccepted⟩ := hwaiting
  exact World.not_agrees (.inr hstate) hmem (.inl haccepted) (hagrees p hp)

end ZroServices.Payments
