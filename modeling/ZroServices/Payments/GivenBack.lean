import ZroServices.Foundation.Outcome
import ZroServices.Payments.InStep

/-!
# Payments — a payment that is given back

A pending payment is sent to the PSP, and the observer answers every exception with a reverted
event, by which the payer's operations are reverted.  The PSP may have the payment all the same,
and settle it later.

The state of the system has the events that were emitted: each may be delivered any number of times
and in any order, and the PSP settles a payment, or charges it back, when it will.
`never_given_back`: no payment is settled while an operation of the payer is reverted, when no
reverted event is handled for a payment under way that the PSP processes or has settled.
-/

namespace ZroServices.Payments.GivenBack

open Foundation
open Pix (Failed)

structure State where
  world : World
  events : List PaymentEvent

def State.empty : State := ⟨World.empty, []⟩

inductive Label where
  | storePayment (payment : Payment) (scheduled change : Bool)
  /-- `translated` is what the exception becomes in the event. -/
  | handlePendingPayment (services : Services) (now : ℤ) (id : Uuid)
      (translated : Exception → Failed)
  | syncWaitingPayment (now : ℤ) (translate : Option String → Option Failed)
      (getPayment : (id : Uuid) → (endToEndId : Option String) → Option GetPaymentPspResponse)
  | deliver (services : Services) (now : ℤ) (event : PaymentEvent)
  /-- The PSP is done with a payment. -/
  | finish (id : Uuid) (status : PaymentStatusType)

/-- The PSP settles a payment that it processes, or charges it back. -/
def finish (w : World) (id : Uuid) (status : PaymentStatusType) : World :=
  match w.statusOf id with
  | some .PROCESSING => { w with psp := w.psp.set { id, status } }
  | _ => w

/-- The observers of the two events log an exception and return. -/
def handle (services : Services) (now : ℤ) (w : World) : PaymentEvent → World
  | .completed id endToEndId => left (handleCompletePayment services now id endToEndId) w
  | .reverted id chargebackReason failed =>
      left (handleRevertPayment services now id chargebackReason failed) w

def step (config : Config) (s : State) : Label → State
  | .storePayment payment scheduled change =>
      { s with world := s.world.storePayment payment scheduled change }
  | .handlePendingPayment services now id translated =>
      match handlePendingPayment config services now id s.world with
      | .ok _ world => { s with world }
      | .error e world =>
          { world, events := s.events ++ [.reverted id none (some (translated e))] }
  | .syncWaitingPayment now translate getPayment =>
      { s with
        events := s.events ++ syncWaitingPayment config now translate getPayment s.world }
  | .deliver services now event =>
      if event ∈ s.events then { s with world := handle services now s.world event } else s
  | .finish id status => { s with world := finish s.world id status }

/-- The PSP neither processes the payment nor has settled it. -/
def Unsent (w : World) (id : Uuid) : Prop :=
  w.statusOf id ≠ some .PROCESSING ∧ w.statusOf id ≠ some .SETTLED

/-- A reverted event is handled only for a payment that the PSP does not have. -/
def Label.Sound (s : State) : Label → Prop
  | .deliver _ _ (.reverted id chargebackReason failed) =>
      .reverted id chargebackReason failed ∈ s.events → ∀ p ∈ s.world.payments.get? id,
        p.state = .PENDING ∨ p.state = .WAITING ∨ p.state = .CONFIRMED → Unsent s.world id
  | _ => True

/-- The payment is settled at the PSP, and an operation of the payer is reverted. -/
def Returned (w : World) (p : Payment) : Prop :=
  w.statusOf p.id = some .SETTLED ∧ ∃ o ∈ p.operations, w.stateOf o = some .REVERTED

/-- No payment that is settled at the PSP is returned to its payer. -/
def NoneReturned (w : World) : Prop :=
  ∀ p ∈ w.payments.rows, ¬ Returned w p

/-! ### The invariant -/

/-- No operation is of two payments.  The operation for cash back is created after the other one.
A payment with an operation that is reverted was not sent. -/
structure Inv (w : World) : Prop where
  apart : ∀ p ∈ w.payments.rows, ∀ q ∈ w.payments.rows, p.id ≠ q.id →
    ∀ o ∈ p.operations, o ∉ q.operations
  first : ∀ p ∈ w.payments.rows, ∀ c ∈ p.changeOperation, w.stateOf c ≠ none →
    ∃ o ∈ p.operation, w.stateOf o ≠ none
  unsent : ∀ p ∈ w.payments.rows, ∀ o ∈ p.operations, w.stateOf o = some .REVERTED →
    Unsent w p.id

theorem Inv.not_returned {w : World} (h : Inv w) {p : Payment} (hp : p ∈ w.payments.rows) :
    ¬ Returned w p := by
  rintro ⟨hsettled, o, ho, hreverted⟩
  exact (h.unsent p hp o ho hreverted).2 hsettled

section

variable {w : World} {p q : Payment} {o o' : Uuid} {state : OperationState}

theorem stateOf_settle :
    (w.settle o state).stateOf o' = if o = o' then some state else w.stateOf o' := by
  by_cases h : o = o'
  · rw [if_pos h, ← h, World.stateOf_settle_self]
  · rw [if_neg h, World.stateOf_settle_ne h]

theorem stateOf_settle_ne_none (h : w.stateOf o' ≠ none) :
    (w.settle o state).stateOf o' ≠ none := by
  rw [stateOf_settle]
  split
  · exact Option.some_ne_none state
  · exact h

/-- An operation of a payment comes to be or changes its state.  The first operation is there, and
the payment was not sent when this one is reverted. -/
theorem Inv.settle (h : Inv w) (hp : p ∈ w.payments.rows) (ho : o ∈ p.operations)
    (hfirst : ∃ o' ∈ p.operation, (w.settle o state).stateOf o' ≠ none)
    (hunsent : state = .REVERTED → Unsent w p.id) : Inv (w.settle o state) where
  apart := h.apart
  first q hq c hc hcreated := by
    by_cases hid : q.id = p.id
    · rw [Table.eq_of_key hq hp hid]
      exact hfirst
    · have hne : o ≠ c := by
        rintro rfl
        exact h.apart p hp q hq (Ne.symm hid) o ho
          (List.mem_append_right _ (Option.mem_toList.mpr hc))
      rw [World.stateOf_settle_ne hne] at hcreated
      obtain ⟨o', ho', hcreated'⟩ := h.first q hq c hc hcreated
      exact ⟨o', ho', stateOf_settle_ne_none hcreated'⟩
  unsent q hq o' ho' hreverted := by
    rw [stateOf_settle] at hreverted
    split at hreverted
    · rename_i heq
      have hid : q.id = p.id := by
        by_contra hne
        exact h.apart p hp q hq (Ne.symm hne) o ho (heq ▸ ho')
      rw [hid]
      exact hunsent (Option.some_inj.mp hreverted)
    · exact h.unsent q hq o' ho' hreverted

/-- The PSP learns something of a payment that has no reverted operation. -/
theorem Inv.learn (h : Inv w) (id : Uuid) {psp : Table PspPayment}
    (hno : ∀ p ∈ w.payments.rows, p.id = id → ∀ o ∈ p.operations, w.stateOf o ≠ some .REVERTED)
    (hothers : ∀ id', id' ≠ id → psp.get? id' = w.psp.get? id') : Inv { w with psp } where
  apart := h.apart
  first := h.first
  unsent q hq o ho hreverted := by
    have hne : q.id ≠ id := fun hid => hno q hq hid o ho hreverted
    have hunsent := h.unsent q hq o ho hreverted
    rw [Unsent, World.statusOf] at hunsent ⊢
    rw [hothers q.id hne]
    exact hunsent

/-- A payment is written, perhaps without operations that it had. -/
theorem Inv.set (h : Inv w) (hp : p ∈ w.payments.rows) (hid : q.id = p.id)
    (hops : ∀ o ∈ q.operations, o ∈ p.operations)
    (hfirst : ∀ c ∈ q.changeOperation, w.stateOf c ≠ none →
      ∃ o ∈ q.operation, w.stateOf o ≠ none) :
    Inv { w with payments := w.payments.set q } := by
  have hmem : ∀ r, r ∈ (w.payments.set q).rows → r = q ∨ r ∈ w.payments.rows ∧ r.id ≠ q.id := by
    intro r hr
    rcases Table.mem_set.mp hr with hr | ⟨rfl, -⟩
    · exact .inr hr
    · exact .inl rfl
  refine ⟨fun r hr t ht hne o hor hot => ?_, fun r hr => ?_, fun r hr o ho hreverted => ?_⟩
  · rcases hmem r hr with rfl | ⟨hr', hrid⟩ <;> rcases hmem t ht with rfl | ⟨ht', htid⟩
    · exact hne rfl
    · exact h.apart p hp t ht' (fun e => htid (e.symm.trans hid.symm)) o (hops o hor) hot
    · exact h.apart r hr' p hp (fun e => hrid (e.trans hid.symm)) o hor (hops o hot)
    · exact h.apart r hr' t ht' hne o hor hot
  · rcases hmem r hr with rfl | ⟨hr, -⟩
    · exact hfirst
    · exact h.first r hr
  · rcases hmem r hr with rfl | ⟨hr, -⟩
    · rw [hid]
      exact h.unsent p hp o (hops o ho) hreverted
    · exact h.unsent r hr o ho hreverted

end

/-! ### The handlers -/

section

variable {α β : Type} {services : Services} {p : Payment} {A B C : World → Prop} {w : World}
  {x : App α} {k : α → App β}
variable {o : Uuid}

/-- From `A` the code returns with `B`, and the invariant holds where it throws. -/
def Brings (A : World → Prop) (x : App α) (B : World → Prop) : Prop :=
  ∀ w, A w → Outcome x w (fun _ => B) fun _ => Inv

theorem Brings.bind (hx : Brings A x B) (hk : ∀ a, Brings B (k a) C) : Brings A (x >>= k) C := by
  intro w hw
  rw [outcome_bind]
  exact (hx w hw).mono (fun a w' => hk a w') fun _ _ h => h

theorem brings_of_keeps (hx : Keeps (fun w => w) x) (hA : ∀ w, A w → Inv w) : Brings A x A := by
  intro w hw
  have hleft : Foundation.left x w = w := hx w
  cases hrun : x w with
  | ok a w' =>
      rw [left_ok hrun] at hleft
      rw [outcome_of_ok hrun, hleft]
      exact hw
  | error e w' =>
      rw [left_error hrun] at hleft
      rw [outcome_of_error hrun, hleft]
      exact hA w hw

theorem Brings.left (hx : Brings A x Inv) (hw : A w) : Inv (left x w) := left_iff.mpr (hx w hw)

/-- The payment has its first operation, and none that is reverted. -/
structure Started (p : Payment) (w : World) : Prop where
  inv : Inv w
  row : p ∈ w.payments.rows
  first : ∃ o ∈ p.operation, w.stateOf o ≠ none
  held : ∀ o ∈ p.operations, w.stateOf o ≠ some .REVERTED

/-- A payment whose first operation was not created has none. -/
theorem Inv.none_created (h : Inv w) (hp : p ∈ w.payments.rows)
    (hfirst : p.operation = some o) (hnone : w.stateOf o = none) {o' : Uuid}
    (ho' : o' ∈ p.operations) : w.stateOf o' = none := by
  rcases List.mem_append.mp ho' with ho' | ho'
  · rw [hfirst] at ho'
    rw [List.mem_singleton.mp ho', hnone]
  · by_contra hcreated
    obtain ⟨o'', ho'', hcreated'⟩ := h.first p hp o' (Option.mem_toList.mp ho') hcreated
    rw [hfirst] at ho''
    rw [← Option.some_inj.mp ho'', hnone] at hcreated'
    exact hcreated' rfl

theorem brings_start (state : OperationState) (ho : p.operation = some o)
    (hstate : state ≠ .REVERTED) : Brings (fun w => Inv w ∧ p ∈ w.payments.rows)
      (insertOperation o state) (Started p) := by
  rintro w ⟨hinv, hp⟩
  have hop : o ∈ p.operations := List.mem_append_left _ (Option.mem_toList.mpr ho)
  have hfirst : ∃ o' ∈ p.operation, (w.settle o state).stateOf o' ≠ none :=
    ⟨o, ho, by rw [World.stateOf_settle_self]; exact Option.some_ne_none state⟩
  rcases insertOperation_cases o state w with ⟨hnone, hrun⟩ | ⟨-, e, hrun⟩
  · rw [outcome_of_ok hrun]
    refine ⟨hinv.settle hp hop hfirst fun e => absurd e hstate, hp, hfirst, fun o' ho' => ?_⟩
    rw [stateOf_settle]
    split
    · exact fun e => hstate (Option.some_inj.mp e)
    · rw [hinv.none_created hp ho hnone ho']
      exact (Option.some_ne_none _).symm
  · rw [outcome_of_error hrun]
    exact hinv

/-- Another operation of a payment that was started. -/
theorem brings_more {c : Uuid} {state : OperationState} (hc : p.changeOperation = some c)
    (hstate : state ≠ .REVERTED) :
    Brings (Started p) (insertOperation c state) (Started p) := by
  intro w h
  have hcp : c ∈ p.operations := List.mem_append_right _ (Option.mem_toList.mpr hc)
  obtain ⟨o, ho, hcreated⟩ := h.first
  have hfirst : ∃ o' ∈ p.operation, (w.settle c state).stateOf o' ≠ none :=
    ⟨o, ho, stateOf_settle_ne_none hcreated⟩
  rcases insertOperation_cases c state w with ⟨-, hrun⟩ | ⟨-, e, hrun⟩
  · rw [outcome_of_ok hrun]
    refine ⟨h.inv.settle h.row hcp hfirst fun e => absurd e hstate, h.row, hfirst, fun o' ho' => ?_⟩
    rw [stateOf_settle]
    split
    · exact fun e => hstate (Option.some_inj.mp e)
    · exact h.held o' ho'
  · rw [outcome_of_error hrun]
    exact h.inv

/-- The two calls that create an operation. -/
theorem Brings.createOperation (h : Brings A (insertOperation o .PENDING) B)
    (hA : ∀ w, A w → Inv w) (tag : String) (rawValue : ℕ) (wallet : Uuid) :
    Brings A (createOperation services tag (some o) rawValue wallet) B :=
  (brings_of_keeps (keeps_refuse _) hA).bind fun _ => h

theorem Brings.createAndAcceptOperation (h : Brings A (insertOperation o .ACCEPTED) B)
    (hA : ∀ w, A w → Inv w) (tag : String) (rawValue : ℕ) (wallet beneficiaryWallet : Uuid) :
    Brings A
      (createAndAcceptOperation services tag (some o) rawValue wallet beneficiaryWallet) B :=
  (brings_of_keeps (keeps_refuse _) hA).bind fun _ => h

theorem brings_createChangeOperationPSP (config : Config) :
    Brings (Started p) (createChangeOperationPSP config services p) (Started p) := by
  rw [createChangeOperationPSP]
  cases hc : p.changeOperation with
  | none => exact brings_of_keeps (keeps_pure ()) fun _ h => h.inv
  | some c =>
      have hmore : Brings (Started p) (insertOperation c .PENDING) (Started p) :=
        brings_more hc OperationState.noConfusion
      refine (hmore.createOperation (fun _ h => h.inv) _ _ _).bind fun _ => ?_
      exact brings_of_keeps (keeps_setOperationReference _ _) fun _ h => h.inv

theorem brings_createAndAcceptChangeOperationP2P (config : Config) (wallet : Uuid) :
    Brings (Started p) (createAndAcceptChangeOperationP2P config services p wallet)
      (Started p) := by
  rw [createAndAcceptChangeOperationP2P]
  cases hc : p.changeOperation with
  | none => exact brings_of_keeps (keeps_pure ()) fun _ h => h.inv
  | some c =>
      have hmore : Brings (Started p) (insertOperation c .ACCEPTED) (Started p) :=
        brings_more hc OperationState.noConfusion
      refine (hmore.createAndAcceptOperation (fun _ h => h.inv) _ _ _ _).bind fun _ => ?_
      exact brings_of_keeps (keeps_setOperationReference _ _) fun _ h => h.inv

/-- The PSP may have the payment, whatever it answers. -/
theorem brings_createPayment (request : CreatePaymentPspRequest) (hid : request.paymentId = p.id) :
    Brings (Started p) (createPayment services request) (Started p) := by
  rw [createPayment]
  refine Brings.bind (B := Started p) (fun w h => ?_) fun _ =>
    brings_of_keeps (keeps_call _) fun _ h => h.inv
  rw [outcome_modify]
  split
  · rename_i psp _ hinsert
    have hinv : Inv { w with psp } := by
      refine h.inv.learn p.id (fun q hq hqid o ho => ?_) fun id hne => ?_
      · rw [Table.eq_of_key hq h.row hqid] at ho
        exact h.held o ho
      · refine Table.get?_insert?_ne hinsert ?_
        rw [← hid] at hne
        exact hne.symm
    exact ⟨hinv, h.row, h.first, h.held⟩
  · exact h

theorem brings_updatePayment {now : ℤ} {q : Payment} (hid : q.id = p.id)
    (hoperation : q.operation = p.operation) (hchange : q.changeOperation = p.changeOperation) :
    Brings (fun w => Inv w ∧ p ∈ w.payments.rows)
      (updatePayment now q >>= fun _ => (pure q : App Payment)) Inv := by
  rintro w ⟨hinv, hp⟩
  refine hinv.set hp hid (fun o ho => ?_) fun c hc hcreated => ?_
  · rwa [Payment.operations, hoperation, hchange] at ho
  · rw [hoperation]
    exact hinv.first p hp c (hchange ▸ hc) hcreated

theorem Brings.of_started {x : App α} (h : Brings (fun w => Inv w ∧ p ∈ w.payments.rows) x B) :
    Brings (Started p) x B := fun w hw => h w ⟨hw.inv, hw.row⟩

theorem brings_sendPaymentPSP (config : Config) (now : ℤ) :
    Brings (fun w => Inv w ∧ p ∈ w.payments.rows) (sendPaymentPSP config services now p) Inv := by
  rw [sendPaymentPSP]
  cases ho : p.operation with
  | none => exact fun _ h => h.1
  | some o =>
      have hstart := brings_start .PENDING ho OperationState.noConfusion
      refine (hstart.createOperation (fun _ h => h.1) _ _ _).bind fun _ => ?_
      refine (brings_createChangeOperationPSP config).bind fun _ => ?_
      refine (brings_createPayment _ rfl).bind fun _ => ?_
      refine (brings_updatePayment ?_ ?_ ?_).of_started
      · rfl
      · exact ho.symm
      · rfl

theorem brings_sendPaymentP2P (config : Config) (now : ℤ) (beneficiary : Pix.WalletAccount) :
    Brings (fun w => Inv w ∧ p ∈ w.payments.rows)
      (sendPaymentP2P config services now p beneficiary) Inv := by
  rw [sendPaymentP2P]
  cases ho : p.operation with
  | none => exact fun _ h => h.1
  | some o =>
      have hstart := brings_start .ACCEPTED ho OperationState.noConfusion
      refine (hstart.createAndAcceptOperation (fun _ h => h.1) _ _ _ _).bind fun _ => ?_
      refine (brings_createAndAcceptChangeOperationP2P config _).bind fun _ => ?_
      refine (brings_of_keeps (keeps_call _) fun _ h => h.inv).bind fun _ => ?_
      refine (brings_of_keeps keeps_orThrow fun _ h => h.inv).bind fun _ => ?_
      refine Brings.bind (B := Started p) (fun w h => ?_) fun _ =>
        (brings_updatePayment ?_ ?_ ?_).of_started
      · exact ⟨⟨h.inv.apart, h.inv.first, h.inv.unsent⟩, h.row, h.first, h.held⟩
      · rfl
      · exact ho.symm
      · rfl

theorem brings_handlePendingPayment (config : Config) (now : ℤ) (id : Uuid) :
    Brings Inv (handlePendingPayment config services now id) Inv := by
  intro w hinv
  rw [handlePendingPayment, outcome_bind, getById, outcome_bind, outcome_get, outcome_orThrow]
  refine ⟨fun _ => hinv, fun p hp => ?_⟩
  have hrow : p ∈ w.payments.rows := Table.mem_of_get? hp
  split
  · exact hinv
  · exact hinv
  · split
    · exact brings_sendPaymentPSP config now w ⟨hinv, hrow⟩
    · have hkeeps : ∀ w, (Inv w ∧ p ∈ w.payments.rows) → Inv w := fun _ h => h.1
      refine ((brings_of_keeps (keeps_call _) hkeeps).bind fun found => ?_) w ⟨hinv, hrow⟩
      refine (brings_of_keeps keeps_orThrow hkeeps).bind fun _ => ?_
      refine (brings_of_keeps keeps_throwIf hkeeps).bind fun _ => ?_
      refine (brings_of_keeps keeps_throwIf hkeeps).bind fun _ => ?_
      exact brings_sendPaymentP2P config now _
  · exact hinv

theorem Inv.first_of_created (h : Inv w) (hp : p ∈ w.payments.rows)
    (ho : o ∈ p.operations) (hcreated : w.stateOf o ≠ none) :
    ∃ o' ∈ p.operation, w.stateOf o' ≠ none := by
  rcases List.mem_append.mp ho with ho | ho
  · exact ⟨o, Option.mem_toList.mp ho, hcreated⟩
  · exact h.first p hp o (Option.mem_toList.mp ho) hcreated

/-- An operation of the payment that was created gets another state. -/
theorem Inv.resettle (h : Inv w) (hp : p ∈ w.payments.rows) (ho : o ∈ p.operations)
    (hcreated : w.stateOf o ≠ none) {state : OperationState}
    (hunsent : state = .REVERTED → Unsent w p.id) : Inv (w.settle o state) := by
  obtain ⟨o', ho', hcreated'⟩ := h.first_of_created hp ho hcreated
  exact h.settle hp ho ⟨o', ho', stateOf_settle_ne_none hcreated'⟩ hunsent

theorem brings_acceptOperation {operation : Option Uuid}
    (hops : ∀ o ∈ operation, o ∈ p.operations) :
    Brings (fun w => Inv w ∧ p ∈ w.payments.rows) (acceptOperation services operation)
      (fun w => Inv w ∧ p ∈ w.payments.rows) := by
  rintro w ⟨hinv, hp⟩
  rcases acceptOperation_cases services operation w with ⟨o, ho, haccepts, hrun⟩ | ⟨-, e, hrun⟩
  · rw [outcome_of_ok hrun]
    have hcreated : w.stateOf o ≠ none := by
      rw [haccepts.2]
      exact Option.some_ne_none _
    exact ⟨hinv.resettle hp (hops o ho) hcreated OperationState.noConfusion, hp⟩
  · rw [outcome_of_error hrun]
    exact hinv

theorem brings_handleCompletePayment (now : ℤ) (id : Uuid) (endToEndId : Option String) :
    Brings Inv (handleCompletePayment services now id endToEndId) Inv := by
  intro w hinv
  rw [handleCompletePayment, outcome_bind, getById, outcome_bind, outcome_get, outcome_orThrow]
  refine ⟨fun _ => hinv, fun p hp => ?_⟩
  have hrow : p ∈ w.payments.rows := Table.mem_of_get? hp
  have hfirst : ∀ o ∈ p.operation, o ∈ p.operations := fun o ho =>
    List.mem_append_left _ (Option.mem_toList.mpr ho)
  split
  · exact hinv
  · refine ((brings_acceptOperation hfirst).bind fun _ => ?_) w ⟨hinv, hrow⟩
    refine Brings.bind (B := fun w => Inv w ∧ p ∈ w.payments.rows) ?_ fun _ =>
      brings_updatePayment rfl rfl rfl
    rw [acceptChangeOperation]
    cases hc : p.changeOperation with
    | none => exact brings_of_keeps (keeps_pure ()) fun _ h => h.1
    | some c =>
        refine brings_acceptOperation fun o ho => ?_
        exact List.mem_append_right _ (Option.mem_toList.mpr (hc.trans ho))
  · exact hinv

/-! ### The revert of a payment that the PSP does not have -/

/-- The payment may be given back. -/
structure Revertible (p : Payment) (w : World) : Prop where
  inv : Inv w
  row : p ∈ w.payments.rows
  unsent : Unsent w p.id

/-- `kept` is the operation if it was created, and what was created is still there. -/
structure Undid (operation kept : Option Uuid) (w w' : World) : Prop where
  which : kept = operation ∨ kept = none ∧ ∀ o ∈ operation, w'.stateOf o = none
  known : ∀ o ∈ kept, w.stateOf o ≠ none
  created : ∀ o, w.stateOf o ≠ none → w'.stateOf o ≠ none

theorem outcome_revertFound {operation : Option Uuid} (hops : ∀ o ∈ operation, o ∈ p.operations)
    (h : Revertible p w) : Outcome (revertFound services operation) w
      (fun kept w' => Revertible p w' ∧ Undid operation kept w w') fun _ => Inv := by
  rcases revertFound_cases services operation w with
    ⟨o, kept, w', ho, -, hundone, hrun⟩ | ⟨-, e, hrun⟩
  · rw [outcome_of_ok hrun]
    cases hundone with
    | missing hnone =>
        refine ⟨h, .inr ⟨rfl, fun o' ho' => ?_⟩, fun o' ho' => ?_, fun _ h => h⟩
        · rw [ho] at ho'
          rwa [← Option.some_inj.mp ho']
        · cases ho'
    | reverted hpending =>
        have hcreated : w.stateOf o ≠ none := by rw [hpending]; exact Option.some_ne_none _
        refine ⟨⟨h.inv.resettle h.row (hops o ho) hcreated fun _ => h.unsent, h.row, h.unsent⟩,
          .inl ho.symm, fun o' ho' => ?_, fun _ => stateOf_settle_ne_none⟩
        rwa [← Option.some_inj.mp ho']
    | already hreverted =>
        refine ⟨h, .inl ho.symm, fun o' ho' => ?_, fun _ h => h⟩
        rw [← Option.some_inj.mp ho', hreverted]
        exact Option.some_ne_none _
  · rw [outcome_of_error hrun]
    exact h.inv

theorem outcome_revertChangeOperation (h : Revertible p w) :
    Outcome (revertChangeOperation services p) w
      (fun kept w' => Revertible p w' ∧ Undid p.changeOperation kept w w') fun _ => Inv := by
  rw [revertChangeOperation]
  cases hc : p.changeOperation with
  | none => exact ⟨h, .inl rfl, fun o ho => (by cases ho), fun _ h => h⟩
  | some c =>
      refine outcome_revertFound (fun o ho => ?_) h
      exact List.mem_append_right _ (Option.mem_toList.mpr (hc.trans ho))

theorem brings_failPayment (now : ℤ) (chargebackReason : Option String) (failed : Option Failed) :
    Brings (Revertible p) (failPayment services now chargebackReason failed p) Inv := by
  intro w h
  have hfirst : ∀ o ∈ p.operation, o ∈ p.operations := fun o ho =>
    List.mem_append_left _ (Option.mem_toList.mpr ho)
  rw [failPayment, outcome_bind]
  refine (outcome_revertFound hfirst h).mono ?_ fun _ _ h => h
  rintro operation w₁ ⟨h₁, hundid⟩
  rw [outcome_bind]
  refine (outcome_revertChangeOperation h₁).mono ?_ fun _ _ h => h
  rintro changeOperation w₂ ⟨h₂, hundid'⟩
  refine h₂.inv.set h₂.row rfl (fun o ho => ?_) fun c hc _ => ?_
  · rcases List.mem_append.mp ho with ho | ho
    · have hkept : o ∈ operation := Option.mem_toList.mp ho
      rcases hundid.which with heq | ⟨heq, -⟩
      · exact hfirst o (heq ▸ hkept)
      · rw [heq] at hkept
        cases hkept
    · have hkept : o ∈ changeOperation := Option.mem_toList.mp ho
      rcases hundid'.which with heq | ⟨heq, -⟩
      · exact List.mem_append_right _ (Option.mem_toList.mpr (heq ▸ hkept))
      · rw [heq] at hkept
        cases hkept
  · have hkept : c ∈ p.changeOperation := by
      rcases hundid'.which with heq | ⟨heq, -⟩
      · exact heq ▸ hc
      · have hc' : c ∈ changeOperation := hc
        rw [heq] at hc'
        cases hc'
    obtain ⟨o, ho, hcreated⟩ := h₁.inv.first p h₁.row c hkept (hundid'.known c hc)
    rcases hundid.which with heq | ⟨-, hnone⟩
    · exact ⟨o, heq.symm ▸ ho, hundid'.created o hcreated⟩
    · exact absurd (hnone o ho) hcreated

theorem outcome_handleRevertPayment {now : ℤ} {id : Uuid} {chargebackReason : Option String}
    {failed : Option Failed} (hinv : Inv w)
    (hunsent : ∀ p ∈ w.payments.get? id,
      p.state = .PENDING ∨ p.state = .WAITING ∨ p.state = .CONFIRMED → Unsent w id) :
    Outcome (handleRevertPayment services now id chargebackReason failed) w (fun _ => Inv)
      fun _ => Inv := by
  rw [handleRevertPayment, outcome_bind, getById, outcome_bind, outcome_get, outcome_orThrow]
  refine ⟨fun _ => hinv, fun p hp => ?_⟩
  have hrow : p ∈ w.payments.rows := Table.mem_of_get? hp
  have hfail : p.state = .PENDING ∨ p.state = .WAITING ∨ p.state = .CONFIRMED →
      Outcome (failPayment services now chargebackReason failed p) w (fun _ => Inv)
        fun _ => Inv := by
    intro hstate
    have hsent := hunsent p hp hstate
    rw [← Table.key_of_get? hp] at hsent
    exact brings_failPayment now chargebackReason failed w ⟨hinv, hrow, hsent⟩
  split
  · exact hinv
  · exact hfail (.inl ‹_›)
  · exact hfail (.inr (.inl ‹_›))
  · exact hfail (.inr (.inr ‹_›))
  · exact hinv

end

/-! ### Runs -/

section

variable {w : World}

theorem inv_empty : Inv World.empty where
  apart _ hp := absurd hp List.not_mem_nil
  first _ hp := absurd hp List.not_mem_nil
  unsent _ hp := absurd hp List.not_mem_nil

theorem Inv.storePayment (h : Inv w) (payment : Payment) (scheduled change : Bool) :
    Inv (w.storePayment payment scheduled change) := by
  rcases w.storePayment_cases payment scheduled change with
    heq | ⟨stored, payments, heq, hinsert, hnew, -, -⟩
  · rwa [heq]
  · rw [heq]
    have hmem := fun p => Table.mem_insert? (x := p) hinsert
    refine ⟨fun p hp q hq hne o hop hoq => ?_, fun p hp c hc hcreated => ?_,
      fun p hp o ho hreverted => ?_⟩
    · rcases (hmem p).mp hp with hp' | rfl <;> rcases (hmem q).mp hq with hq' | rfl
      · exact h.apart p hp' q hq' hne o hop hoq
      · exact absurd (World.lt_uuidV4 hp' hop) (not_lt.mpr (hnew o hoq))
      · exact absurd (World.lt_uuidV4 hq' hoq) (not_lt.mpr (hnew o hop))
      · exact hne rfl
    · rcases (hmem p).mp hp with hp' | rfl
      · exact h.first p hp' c hc hcreated
      · refine absurd (World.stateOf_of_uuidV4_le (hnew c ?_)) hcreated
        exact List.mem_append_right _ (Option.mem_toList.mpr hc)
    · rcases (hmem p).mp hp with hp' | rfl
      · exact h.unsent p hp' o ho hreverted
      · have hreverted' : w.stateOf o = some .REVERTED := hreverted
        rw [World.stateOf_of_uuidV4_le (hnew o ho)] at hreverted'
        cases hreverted'

/-- The PSP finishes only what it processes. -/
theorem Inv.finish (h : Inv w) (id : Uuid) (status : PaymentStatusType) :
    Inv (finish w id status) := by
  rw [GivenBack.finish]
  split
  · rename_i hprocessing
    refine h.learn id (fun p hp hid o ho hreverted => ?_) fun id' hne => ?_
    · have hunsent := h.unsent p hp o ho hreverted
      rw [hid] at hunsent
      exact hunsent.1 hprocessing
    · exact Table.get?_set_ne (Ne.symm hne)
  · exact h

theorem Inv.handle (h : Inv w) (services : Services) (now : ℤ) {event : PaymentEvent}
    {events : List PaymentEvent} (hemitted : event ∈ events)
    (hsound : (Label.deliver services now event).Sound ⟨w, events⟩) :
    Inv (handle services now w event) := by
  cases event with
  | completed id endToEndId => exact (brings_handleCompletePayment now id endToEndId).left h
  | reverted id chargebackReason failed =>
      exact left_iff.mpr (outcome_handleRevertPayment h (hsound hemitted))

theorem step_inv {config : Config} {s : State} {l : Label} (h : Inv s.world) (hsound : l.Sound s) :
    Inv (step config s l).world := by
  cases l with
  | storePayment payment scheduled change => exact h.storePayment payment scheduled change
  | handlePendingPayment services now id translated =>
      have hleft : Inv (left (handlePendingPayment config services now id) s.world) :=
        (brings_handlePendingPayment config now id).left h
      rw [step]
      split
      · rename_i hrun
        rwa [left_ok hrun] at hleft
      · rename_i hrun
        rwa [left_error hrun] at hleft
  | syncWaitingPayment now translate getPayment => exact h
  | deliver services now event =>
      rw [step]
      split
      · rename_i hemitted
        exact h.handle services now hemitted hsound
      · exact h
  | finish id status => exact h.finish id status

/-- No payment is settled at the PSP while an operation of the payer is reverted. -/
theorem never_given_back (config : Config) (ls : List Label)
    (h : Along (step config) (fun s l => l.Sound s) State.empty ls) :
    NoneReturned (run (step config) State.empty ls).world := by
  intro p hp
  have hinv : Inv (run (step config) State.empty ls).world :=
    h.invariant (I := fun s : State => Inv s.world) (fun _ _ => step_inv) inv_empty
  exact hinv.not_returned hp

end

/-! ### The PSP does not answer -/

namespace Sample

def failed : Failed := ⟨"timeout", "timeout"⟩

/-- The PSP does not answer, and has executed the payment or not. -/
def silent (executed : Bool) : Services :=
  { sampleServices with
    createPayment := fun _ => { executed, answer := .error (.service "timeout") } }

/-- The payment is sent, and is reverted because the PSP does not answer. -/
def labels (executed : Bool) : List Label :=
  [.storePayment samplePayment false false,
    .handlePendingPayment (silent executed) 0 1 fun _ => failed,
    .deliver sampleServices 0 (.reverted 1 none (some failed)),
    .finish 1 .SETTLED]

end Sample

open Sample in
/-- The PSP did not get the payment. -/
theorem never_given_back_unsent :
    NoneReturned (run (step sampleConfig) State.empty (labels false)).world := by
  refine never_given_back sampleConfig (labels false) ⟨trivial, trivial, ?_, trivial, trivial⟩
  exact fun _ _ _ _ => ⟨by decide, by decide⟩

open Sample in
/-- The PSP has executed the payment, and settles it when the payer has the money back. -/
theorem settled_and_given_back : ¬ ∀ config ls,
    NoneReturned (run (step config) State.empty ls).world := by
  intro h
  refine h sampleConfig (labels true) _ (List.mem_singleton_self _) ⟨?_, 1, ?_, ?_⟩ <;> decide

end ZroServices.Payments.GivenBack
