import ZroServices.Payments.InStep

/-!
# Payments — a scheduled payment that is canceled

`CancelPaymentByOperationIdUseCase` reads a payment and writes the whole row, in a transaction that
takes no lock before it writes.  `SyncScheduledPaymentUseCase` reads the scheduled payments of the
day, writes them one after the other, each at once, and fires the pending events in the end.
`HandlePendingPaymentEventUseCase` reads a payment, asks the operations service and the PSP, and
writes the row.  Their executions go on side by side, from one step to the next.

What a transaction writes is seen when it commits, and other writers of the row wait until then: so
the write is one step with the commit.  The operations and the payments of the PSP are not followed
here: `sent` notes the payments for which the handler has asked one of the two.

`canceled_kept`: a payment that was answered to be canceled stays so, and nothing is asked for it,
when no payment is written as canceled that a pending event has taken up, and none as pending that
is canceled.
-/

namespace ZroServices.Payments.Canceled

open Foundation

structure State where
  world : World
  /-- Executions that are to cancel the scheduled payment they have read. -/
  cancels : List Payment
  /-- Executions of the job: the payments that are still to be written, and the events to fire. -/
  syncs : List (List Payment × List Uuid)
  /-- The pending events that were fired. -/
  events : List Uuid
  /-- Executions for a pending event, with the payment they have read. -/
  handled : List Payment
  /-- The payments that were answered to be canceled. -/
  canceled : List Uuid
  sent : List Uuid

def State.empty : State := ⟨World.empty, [], [], [], [], [], []⟩

inductive Label where
  | storePayment (payment : Payment) (scheduled change : Bool)
  | readCancel (operation wallet : Uuid)
  | commitCancel (payment : Payment) (now : ℤ)
  | readSync (now : ℤ)
  | writeSync (payment : Payment) (rest : List Payment) (emitted : List Uuid) (now : ℤ)
  | fireSync (emitted : List Uuid)
  | readPending (id : Uuid)
  /-- The handler asks the operations service or the PSP. -/
  | send (payment : Payment)
  /-- The payment is sent to the PSP, which has answered, or paid inside the bank. -/
  | commitPending (payment : Payment) (response : Option CreatePaymentPspResponse) (now : ℤ)
  /-- The handler throws. -/
  | endPending (payment : Payment)

/-- `PaymentRepository.getAllByStateAndPaymentDate`. -/
def scheduledPayments (w : World) (now : ℤ) : List Payment :=
  w.payments.rows.filter fun p =>
    p.state = .SCHEDULED ∧ ∃ date ∈ p.paymentDate, localDay date = localDay now

/-- The row of a payment that the handler is done with. -/
def handledRow (payment : Payment) : Option CreatePaymentPspResponse → Payment
  | some pspResult =>
      { payment with
        endToEndId := pspResult.endToEndId.or payment.endToEndId
        state := .WAITING
        externalId := some pspResult.externalId }
  | none => { payment with state := .CONFIRMED }

namespace State

variable (s : State)

def update (now : ℤ) (payment : Payment) : State :=
  { s with world := left (updatePayment now payment) s.world }

def readCancel (operation wallet : Uuid) : State :=
  match s.world.getByOperationAndWallet operation wallet with
  | none => s
  | some payment =>
      match payment.state with
      | .CANCELED => { s with canceled := s.canceled ++ [payment.id] }
      | .SCHEDULED => { s with cancels := s.cancels ++ [payment] }
      | _ => s

def commitCancel (payment : Payment) (now : ℤ) : State :=
  { s.update now { payment with state := .CANCELED, canceledAt := some now } with
    cancels := s.cancels.erase payment
    canceled := s.canceled ++ [payment.id] }

def writeSync (payment : Payment) (rest : List Payment) (emitted : List Uuid) (now : ℤ) : State :=
  { s.update now { payment with state := .PENDING } with
    syncs := s.syncs.erase (payment :: rest, emitted) ++ [(rest, emitted ++ [payment.id])] }

def fireSync (emitted : List Uuid) : State :=
  { s with
    syncs := s.syncs.erase ([], emitted)
    events := s.events ++ emitted }

def readPending (id : Uuid) : State :=
  match s.world.payments.get? id with
  | none => s
  | some payment =>
      match payment.state with
      | .PENDING => { s with handled := s.handled ++ [payment] }
      | _ => s

def commitPending (payment : Payment) (response : Option CreatePaymentPspResponse) (now : ℤ) :
    State :=
  { s.update now (handledRow payment response) with handled := s.handled.erase payment }

end State

/-- A step of an execution that there is not, does nothing. -/
def step (s : State) : Label → State
  | .storePayment payment scheduled change =>
      match s.world.payments.get? payment.id with
      | some _ => s
      | none =>
          { s with
            world := s.world.storePayment payment scheduled change
            events := if scheduled then s.events else s.events ++ [payment.id] }
  | .readCancel operation wallet => s.readCancel operation wallet
  | .commitCancel payment now => if payment ∈ s.cancels then s.commitCancel payment now else s
  | .readSync now => { s with syncs := s.syncs ++ [(scheduledPayments s.world now, [])] }
  | .writeSync payment rest emitted now =>
      if (payment :: rest, emitted) ∈ s.syncs then s.writeSync payment rest emitted now else s
  | .fireSync emitted => if ([], emitted) ∈ s.syncs then s.fireSync emitted else s
  | .readPending id => if id ∈ s.events then s.readPending id else s
  | .send payment =>
      if payment ∈ s.handled then { s with sent := s.sent ++ [payment.id] } else s
  | .commitPending payment response now =>
      if payment ∈ s.handled then s.commitPending payment response now else s
  | .endPending payment => { s with handled := s.handled.erase payment }

/-- A pending event has taken the payment up. -/
def Taken (s : State) (id : Uuid) : Prop := id ∈ s.sent ∨ ∃ p ∈ s.handled, p.id = id

/-- No payment is written as canceled that a pending event has taken up, and none as pending that
is canceled. -/
def Label.Sound (s : State) : Label → Prop
  | .commitCancel payment _ => payment ∈ s.cancels → ¬ Taken s payment.id
  | .writeSync payment rest emitted _ => (payment :: rest, emitted) ∈ s.syncs →
      ∀ p ∈ s.world.payments.get? payment.id, p.state ≠ .CANCELED
  | _ => True

/-- What was answered to be canceled is canceled, and nobody was asked for it. -/
def CanceledKept (s : State) : Prop :=
  ∀ id ∈ s.canceled, (∃ p ∈ s.world.payments.get? id, p.state = .CANCELED) ∧ id ∉ s.sent

/-! ### The invariant -/

/-- The rows of canceled payments, and the rows that executions have read. -/
structure Inv (s : State) : Prop where
  canceled : ∀ id ∈ s.canceled, ∃ p ∈ s.world.payments.get? id, p.state = .CANCELED
  free : ∀ p ∈ s.world.payments.rows, p.state = .CANCELED → ¬ Taken s p.id
  read : ∀ p ∈ s.cancels, ∃ q, s.world.payments.get? p.id = some q

section

variable {s : State} {p q : Payment}

theorem Inv.canceledKept (h : Inv s) : CanceledKept s := by
  intro id hid
  obtain ⟨p, hp, hstate⟩ := h.canceled id hid
  refine ⟨⟨p, hp, hstate⟩, fun hsent => ?_⟩
  have hid : p.id = id := Table.key_of_get? hp
  exact h.free p (Table.mem_of_get? hp) hstate (.inl (hid ▸ hsent))

theorem inv_empty : Inv State.empty where
  canceled _ h := absurd h List.not_mem_nil
  free _ h := absurd h List.not_mem_nil
  read _ h := absurd h List.not_mem_nil

theorem get?_update {now : ℤ} {id : Uuid} (hne : q.id ≠ id) :
    (s.update now q).world.payments.get? id = s.world.payments.get? id :=
  Table.get?_set_ne hne

theorem get?_update_self {now : ℤ} (hp : s.world.payments.get? q.id = some p) :
    (s.update now q).world.payments.get? q.id = some { q with updatedAt := now } :=
  Table.get?_set_self hp rfl

theorem mem_update {now : ℤ} (h : p ∈ (s.update now q).world.payments.rows) :
    p ∈ s.world.payments.rows ∧ p.id ≠ q.id ∨ p = { q with updatedAt := now } := by
  rcases Table.mem_set.mp h with h | ⟨heq, -⟩
  · exact .inl h
  · exact .inr heq

section

variable (h : Inv s)
include h

/-- A row is written in a state other than canceled, where no canceled payment was. -/
theorem Inv.update (now : ℤ) (hstate : q.state ≠ .CANCELED)
    (hrow : ∀ p ∈ s.world.payments.get? q.id, p.state ≠ .CANCELED) : Inv (s.update now q) where
  canceled id hid := by
    obtain ⟨p, hp, hcanceled⟩ := h.canceled id hid
    refine ⟨p, ?_, hcanceled⟩
    have hne : q.id ≠ id := by
      rintro rfl
      exact hrow p hp hcanceled
    exact (get?_update hne).trans hp
  free p hp hcanceled := by
    rcases mem_update hp with ⟨hp, -⟩ | rfl
    · exact h.free p hp hcanceled
    · exact absurd hcanceled hstate
  read r hr := by
    obtain ⟨t, ht⟩ := h.read r hr
    by_cases hid : q.id = r.id
    · rw [← hid] at ht ⊢
      exact ⟨_, get?_update_self ht⟩
    · exact ⟨t, (get?_update hid).trans ht⟩

/-- Fewer payments are taken up, and fewer are to be canceled. -/
theorem Inv.mono {t : State} (hworld : t.world = s.world)
    (hcanceled : t.canceled = s.canceled) (htaken : ∀ id, Taken t id → Taken s id)
    (hread : ∀ p ∈ t.cancels, p ∈ s.cancels) : Inv t where
  canceled := by
    rw [hworld, hcanceled]
    exact h.canceled
  free := by
    rw [hworld]
    exact fun p hp hstate htaken' => h.free p hp hstate (htaken p.id htaken')
  read := by
    rw [hworld]
    exact fun p hp => h.read p (hread p hp)

theorem Inv.commitCancel (now : ℤ) (hp : p ∈ s.cancels) (hfree : ¬ Taken s p.id) :
    Inv (s.commitCancel p now) := by
  obtain ⟨q, hq⟩ := h.read p hp
  let row : Payment := { p with state := .CANCELED, canceledAt := some now }
  have hself : (s.update now row).world.payments.get? p.id = some { row with updatedAt := now } :=
    get?_update_self hq
  refine ⟨fun id hid => ?_, fun r hr hstate => ?_, fun r hr => ?_⟩
  · rcases List.mem_append.mp hid with hid | hid
    · by_cases hne : p.id = id
      · rw [← hne]
        exact ⟨_, hself, rfl⟩
      · obtain ⟨r, hr, hstate⟩ := h.canceled id hid
        exact ⟨r, (get?_update (q := row) hne).trans hr, hstate⟩
    · rw [List.mem_singleton.mp hid]
      exact ⟨_, hself, rfl⟩
  · rcases mem_update hr with ⟨hr, -⟩ | rfl
    · exact h.free r hr hstate
    · exact hfree
  · obtain ⟨t, ht⟩ := h.read r (List.mem_of_mem_erase hr)
    by_cases hne : p.id = r.id
    · rw [← hne]
      exact ⟨_, hself⟩
    · exact ⟨t, (get?_update (q := row) hne).trans ht⟩

theorem Inv.storePayment (payment : Payment) (scheduled change : Bool) (events : List Uuid) :
    Inv { s with world := s.world.storePayment payment scheduled change, events } := by
  rcases s.world.storePayment_cases payment scheduled change with
    heq | ⟨stored, payments, heq, hinsert, -, -, hstate⟩
  · rw [heq]
    exact h.mono rfl rfl (fun _ => id) fun _ => id
  · rw [heq]
    refine ⟨fun id hid => ?_, fun p hp hcanceled => ?_, fun p hp => ?_⟩
    · obtain ⟨p, hp, hcanceled⟩ := h.canceled id hid
      exact ⟨p, Table.get?_insert?_of_some hinsert hp, hcanceled⟩
    · rcases (Table.mem_insert? hinsert).mp hp with hp | rfl
      · exact h.free p hp hcanceled
      · rcases hstate with hstate | hstate <;>
          (rw [hstate] at hcanceled; cases hcanceled)
    · obtain ⟨q, hq⟩ := h.read p hp
      exact ⟨q, Table.get?_insert?_of_some hinsert hq⟩

theorem Inv.readCancel (operation wallet : Uuid) : Inv (s.readCancel operation wallet) := by
  rw [State.readCancel]
  split
  · exact h
  · rename_i p hfound
    have hget : s.world.payments.get? p.id = some p :=
      Table.get?_of_mem (List.mem_of_find?_eq_some hfound)
    split
    · rename_i hcanceled
      refine ⟨fun id hid => ?_, h.free, h.read⟩
      rcases List.mem_append.mp hid with hid | hid
      · exact h.canceled id hid
      · rw [List.mem_singleton.mp hid]
        exact ⟨p, hget, hcanceled⟩
    · refine ⟨h.canceled, h.free, fun q hq => ?_⟩
      rcases List.mem_append.mp hq with hq | hq
      · exact h.read q hq
      · rw [List.mem_singleton.mp hq]
        exact ⟨p, hget⟩
    · exact h

/-- A payment that is pending is taken up. -/
theorem Inv.readPending (id : Uuid) : Inv (s.readPending id) := by
  rw [State.readPending]
  split
  · exact h
  · rename_i p hp
    split
    · rename_i hpending
      refine ⟨h.canceled, fun q hq hcanceled => ?_, h.read⟩
      rintro (hsent | ⟨r, hr, hid⟩)
      · exact h.free q hq hcanceled (.inl hsent)
      · rcases List.mem_append.mp hr with hr | hr
        · exact h.free q hq hcanceled (.inr ⟨r, hr, hid⟩)
        · rw [List.mem_singleton.mp hr] at hid
          rw [Table.eq_of_key hq (Table.mem_of_get? hp) hid.symm, hpending] at hcanceled
          cases hcanceled
    · exact h

theorem Inv.send (hp : p ∈ s.handled) : Inv { s with sent := s.sent ++ [p.id] } := by
  refine ⟨h.canceled, fun q hq hcanceled => ?_, h.read⟩
  rintro (hsent | hhandled)
  · rcases List.mem_append.mp hsent with hsent | hsent
    · exact h.free q hq hcanceled (.inl hsent)
    · exact h.free q hq hcanceled (.inr ⟨p, hp, (List.mem_singleton.mp hsent).symm⟩)
  · exact h.free q hq hcanceled (.inr hhandled)

theorem Inv.endPending (p : Payment) : Inv { s with handled := s.handled.erase p } := by
  refine h.mono rfl rfl (fun id htaken => ?_) fun _ => id
  rcases htaken with hsent | ⟨q, hq, hid⟩
  · exact .inl hsent
  · exact .inr ⟨q, List.mem_of_mem_erase hq, hid⟩

end

theorem handledRow_state (response : Option CreatePaymentPspResponse) :
    (handledRow p response).state ≠ .CANCELED := by
  cases response <;> exact PaymentState.noConfusion

theorem handledRow_id (response : Option CreatePaymentPspResponse) :
    (handledRow p response).id = p.id := by
  cases response <;> rfl

theorem Inv.commitPending (h : Inv s) (hp : p ∈ s.handled)
    (response : Option CreatePaymentPspResponse) (now : ℤ) :
    Inv (s.commitPending p response now) := by
  refine Inv.endPending (h.update now (handledRow_state response) fun q hq hcanceled => ?_) p
  rw [handledRow_id] at hq
  have hid : q.id = p.id := Table.key_of_get? hq
  exact h.free q (Table.mem_of_get? hq) hcanceled (.inr ⟨p, hp, hid.symm⟩)

theorem step_inv {l : Label} (h : Inv s) (hsound : l.Sound s) : Inv (step s l) := by
  cases l with
  | storePayment payment scheduled change =>
      rw [step]
      split
      · exact h
      · exact h.storePayment payment scheduled change _
  | readCancel operation wallet => exact h.readCancel operation wallet
  | commitCancel payment now =>
      rw [step]
      split
      · rename_i hp
        exact h.commitCancel now hp (hsound hp)
      · exact h
  | readSync now => exact h.mono rfl rfl (fun _ => id) fun _ => id
  | writeSync payment rest emitted now =>
      rw [step]
      split
      · rename_i hsync
        have hrow := h.update now (q := { payment with state := .PENDING })
          PaymentState.noConfusion (hsound hsync)
        exact hrow.mono rfl rfl (fun _ => id) fun _ => id
      · exact h
  | fireSync emitted =>
      rw [step]
      split
      · exact h.mono rfl rfl (fun _ => id) fun _ => id
      · exact h
  | readPending id =>
      rw [step]
      split
      · exact h.readPending id
      · exact h
  | send payment =>
      rw [step]
      split
      · exact h.send ‹_›
      · exact h
  | commitPending payment response now =>
      rw [step]
      split
      · exact h.commitPending ‹_› response now
      · exact h
  | endPending payment => exact h.endPending payment

/-- What was answered to be canceled stays canceled, and nobody is asked for it. -/
theorem canceled_kept (ls : List Label)
    (h : Along step (fun s l => l.Sound s) State.empty ls) :
    CanceledKept (run step State.empty ls) :=
  (h.invariant (fun _ _ => step_inv) inv_empty).canceledKept

end

/-! ### Two executions -/

namespace Sample

/-- A payment for the first day. -/
def payment : Payment := { samplePayment with paymentDate := some 0 }

/-- The payment, as it was stored. -/
def stored : Payment := { payment with state := .SCHEDULED, operation := some 1 }

/-- It is canceled, and then the job runs. -/
def canceledFirst : List Label :=
  [.storePayment payment true false, .readCancel 1 3, .commitCancel stored 0, .readSync 0]

/-- The job has read the payment before it is canceled. -/
def readFirst : List Label :=
  [.storePayment payment true false, .readSync 0, .readCancel 1 3, .commitCancel stored 0,
    .writeSync stored [] [] 0, .fireSync [1], .readPending 1,
    .send { stored with state := .PENDING }]

end Sample

open Sample in
theorem canceled_kept_first : CanceledKept (run step State.empty canceledFirst) := by
  refine canceled_kept canceledFirst ⟨trivial, trivial, fun _ => ?_, trivial, trivial⟩
  rintro (hsent | ⟨p, hp, -⟩)
  · cases hsent
  · cases hp

open Sample in
/-- The payment was answered to be canceled, and the handler of the pending event sends it. -/
theorem canceled_and_sent : ¬ ∀ ls, CanceledKept (run step State.empty ls) := by
  intro h
  have hcanceled : 1 ∈ (run step State.empty readFirst).canceled := by decide
  exact (h readFirst 1 hcanceled).2 (by decide)

end ZroServices.Payments.Canceled
