import ZroServices.Pix.Refunds
import ZroServices.Pix.Returned

/-!
# PIX — the end of a refund

A refund is closed, and a refund devolution sends the money, or it is canceled, and the money is
released.  Both look only at whether they were made before: a refund that was closed is canceled
while its devolution is under way, and closed again for another devolution.

`one_end`: along a run in which a refund is not canceled or closed while a devolution of it is
under way, and in which its refund operations are reverted as a whole, they are not reverted while
a devolution is sent, and there is one devolution at most that did not fail.
-/

namespace ZroServices.Pix

open Foundation
open Payments (LedgerOperation)

/-! ### The two ends of a refund -/

namespace Ledgered

section

variable (w : Ledgered) (pixRefund : Uuid)

/-- The refund devolutions that were asked for the refund. -/
def asked : List Uuid := w.events.filterMap fun
  | .createRefundDevolution id r => if r = pixRefund then some id else none
  | .createWarningPixDevolution _ _ => none

/-- The refund devolution failed. -/
def Fell (id : Uuid) : Prop := ∃ d ∈ w.db.refundDevolutions.rows, d.id = id ∧ d.state = .FAILED

/-- The refund holds money: a refund operation of it is open. -/
def Held : Prop :=
  ∃ o ∈ w.db.infractionRefundOperations.rows, o.pixRefund = some pixRefund ∧ o.state = .OPEN

/-- A refund operation of the refund is reverted to the customer. -/
def Released : Prop :=
  ∃ o ∈ w.db.infractionRefundOperations.rows,
    o.pixRefund = some pixRefund ∧ ⟨o.refundOperation, .REVERTED⟩ ∈ w.operations.rows

/-- The refund is paid back or released, not both, and it is paid back once. -/
structure OneEnd : Prop where
  sent : ∀ d ∈ w.db.refundDevolutions.rows, d.id ∈ w.asked pixRefund →
    (d.state = .WAITING ∨ d.state = .CONFIRMED) → ¬ w.Released pixRefund
  one : ∀ d ∈ w.db.refundDevolutions.rows, ∀ e ∈ w.db.refundDevolutions.rows,
    d.id ∈ w.asked pixRefund → e.id ∈ w.asked pixRefund → d.state ≠ .FAILED →
      e.state ≠ .FAILED → d = e

/-- The refund was received: no devolution was asked for it, nothing of it is reverted, and no
refund operation of it is one of another refund. -/
structure Received : Prop where
  asked : w.asked pixRefund = []
  refundDevolution :
    ∀ r ∈ w.db.refunds.rows, r.id = pixRefund → r.refundDevolution = none
  released : ¬ w.Released pixRefund
  apart : ∀ o ∈ w.db.infractionRefundOperations.rows,
    ∀ p ∈ w.db.infractionRefundOperations.rows,
      o.refundOperation = p.refundOperation → o.pixRefund = p.pixRefund

/-- A step does not start the other end of the refund, or the same end again, and does not release
a part of it: a refund that holds money is canceled, and is closed for another devolution, after all
devolutions that were asked for it failed; and its refund operations are reverted all or none. -/
def OneAtATime (issues : ℤ → Option Uuid) : RefundCommand → Prop
  | .cancel refusals issueId _ =>
      issues issueId = some pixRefund → w.Held pixRefund →
        (∀ r ∈ w.db.refunds.rows, r.id = pixRefund → r.state ≠ .CANCEL_PENDING) →
          (∀ d ∈ w.db.refundDevolutions.rows, d.id ∈ w.asked pixRefund → d.state = .FAILED) ∧
            Whole (Reverts refusals w.operations) (w.db.getOpenInfractionRefundOperations pixRefund)
  | .closePending id =>
      id = pixRefund → w.Held pixRefund →
        (∀ r ∈ w.db.refunds.rows, r.id = pixRefund →
          r.state = .CLOSED_PENDING ∨ r.state = .ERROR) →
            ∀ i ∈ w.asked pixRefund, w.Fell i
  | .revertDevolution refusals _ _ id =>
      ∀ r, w.db.getRefundByRefundDevolution id = some r → r.id = pixRefund →
        Whole (Reverts refusals w.operations) (w.db.getOpenInfractionRefundOperations pixRefund)
  | _ => True

end

section

variable {w : Ledgered} {pixRefund id : Uuid}

theorem mem_asked : id ∈ w.asked pixRefund ↔ .createRefundDevolution id pixRefund ∈ w.events := by
  rw [asked, List.mem_filterMap]
  constructor
  · rintro ⟨event, hevent, h⟩
    cases event with
    | createWarningPixDevolution _ _ => cases h
    | createRefundDevolution i r =>
        dsimp only at h
        split at h
        · cases h
          exact ‹r = pixRefund› ▸ hevent
        · cases h
  · intro h
    exact ⟨_, h, if_pos rfl⟩

instance : Decidable (w.Fell id) := inferInstanceAs (Decidable (∃ d ∈ _, _))

instance : Decidable (w.Held pixRefund) := inferInstanceAs (Decidable (∃ o ∈ _, _))

instance : Decidable (w.Released pixRefund) := inferInstanceAs (Decidable (∃ o ∈ _, _))

end

/-! ### What a step leaves to a refund -/

/-- What the two ends of a refund, and the steps to them, rest on. -/
structure RefundSound (pixRefund : Uuid) (w : Ledgered) : Prop where
  one : ∀ d ∈ w.db.refundDevolutions.rows, ∀ e ∈ w.db.refundDevolutions.rows,
    d.id ∈ w.asked pixRefund → e.id ∈ w.asked pixRefund → d.state ≠ .FAILED →
      e.state ≠ .FAILED → d.id = e.id
  next : w.Held pixRefund → ∀ i ∈ w.asked pixRefund, ∀ j ∈ w.asked pixRefund,
    ¬ w.Fell i → ¬ w.Fell j → i = j
  released : w.Released pixRefund → ¬ w.Held pixRefund ∧
    ∀ d ∈ w.db.refundDevolutions.rows, d.id ∈ w.asked pixRefund → d.state = .FAILED
  owner : ∀ r, ∀ i ∈ w.asked pixRefund, i ∈ w.asked r → r = pixRefund
  refundDevolution : ∀ r ∈ w.db.refunds.rows, r.id = pixRefund →
    ∀ i ∈ r.refundDevolution, i ∈ w.asked pixRefund
  apart : ∀ o ∈ w.db.infractionRefundOperations.rows,
    ∀ p ∈ w.db.infractionRefundOperations.rows,
      o.refundOperation = p.refundOperation → o.pixRefund = p.pixRefund

/-- A step that asks for no devolution, creates none and releases nothing of the refund. -/
structure Quiet (pixRefund : Uuid) (w w' : Ledgered) : Prop where
  events : w'.events = w.events
  devolutions : ∀ d' ∈ w'.db.refundDevolutions.rows, ∃ d ∈ w.db.refundDevolutions.rows,
    d.id = d'.id ∧ (d'.state ≠ .FAILED → d.state ≠ .FAILED)
  fell : ∀ i, w.Fell i → w'.Fell i
  held : w'.Held pixRefund → w.Held pixRefund
  released : w'.Released pixRefund → w.Released pixRefund
  refunds : ∀ r' ∈ w'.db.refunds.rows, ∃ r ∈ w.db.refunds.rows,
    r.id = r'.id ∧ r.refundDevolution = r'.refundDevolution
  operations : ∀ o' ∈ w'.db.infractionRefundOperations.rows,
    ∃ o ∈ w.db.infractionRefundOperations.rows,
      o.pixRefund = o'.pixRefund ∧ o.refundOperation = o'.refundOperation

section

variable {w w' w'' : Ledgered} {pixRefund id : Uuid}

theorem RefundSound.oneEnd (h : RefundSound pixRefund w) : w.OneEnd pixRefund := by
  constructor
  · intro d hd hasked hsent hreleased
    have hfailed := (h.released hreleased).2 d hd hasked
    rcases hsent with hs | hs <;> rw [hs] at hfailed <;> cases hfailed
  · intro d hd e he hd' he' hdf hef
    exact Table.eq_of_key hd he (h.one d hd e he hd' he' hdf hef)

theorem Received.refundSound (h : w.Received pixRefund) : RefundSound pixRefund w where
  one d _ _ _ hasked := by
    rw [h.asked] at hasked
    cases hasked
  next _ i hi := by
    rw [h.asked] at hi
    cases hi
  released hr := absurd hr h.released
  owner _ i hi := by
    rw [h.asked] at hi
    cases hi
  refundDevolution r hr hid i hi := by
    rw [h.refundDevolution r hr hid] at hi
    cases hi
  apart := h.apart

theorem Quiet.refl (pixRefund : Uuid) (w : Ledgered) : Quiet pixRefund w w where
  events := rfl
  devolutions d hd := ⟨d, hd, rfl, id⟩
  fell _ h := h
  held h := h
  released h := h
  refunds r hr := ⟨r, hr, rfl, rfl⟩
  operations o ho := ⟨o, ho, rfl, rfl⟩

theorem Quiet.trans (h : Quiet pixRefund w w') (h' : Quiet pixRefund w' w'') :
    Quiet pixRefund w w'' where
  events := h'.events.trans h.events
  devolutions d'' hd'' := by
    obtain ⟨d', hd', hid', hf'⟩ := h'.devolutions d'' hd''
    obtain ⟨d, hd, hid, hf⟩ := h.devolutions d' hd'
    exact ⟨d, hd, hid.trans hid', hf ∘ hf'⟩
  fell i hi := h'.fell i (h.fell i hi)
  held hh := h.held (h'.held hh)
  released hr := h.released (h'.released hr)
  refunds r'' hr'' := by
    obtain ⟨r', hr', hid', hd'⟩ := h'.refunds r'' hr''
    obtain ⟨r, hr, hid, hd⟩ := h.refunds r' hr'
    exact ⟨r, hr, hid.trans hid', hd.trans hd'⟩
  operations o'' ho'' := by
    obtain ⟨o', ho', hp', hr'⟩ := h'.operations o'' ho''
    obtain ⟨o, ho, hp, hr⟩ := h.operations o' ho'
    exact ⟨o, ho, hp.trans hp', hr.trans hr'⟩

theorem Quiet.asked (h : Quiet pixRefund w w') (r : Uuid) : w'.asked r = w.asked r := by
  rw [Ledgered.asked, Ledgered.asked, h.events]

theorem RefundSound.quiet (hs : RefundSound pixRefund w) (h : Quiet pixRefund w w') :
    RefundSound pixRefund w' where
  one d' hd' e' he' hda hea hdf hef := by
    rw [h.asked] at hda hea
    obtain ⟨d, hd, hdid, hd⟩ := h.devolutions d' hd'
    obtain ⟨e, he, heid, he⟩ := h.devolutions e' he'
    rw [← hdid] at hda ⊢
    rw [← heid] at hea ⊢
    exact hs.one d ‹_› e ‹_› hda hea (hd hdf) (he hef)
  next hheld i hi j hj hif hjf := by
    rw [h.asked] at hi hj
    exact hs.next (h.held hheld) i hi j hj (fun hf => hif (h.fell i hf))
      fun hf => hjf (h.fell j hf)
  released hr := by
    obtain ⟨hheld, hall⟩ := hs.released (h.released hr)
    refine ⟨fun hh => hheld (h.held hh), fun d' hd' hasked => ?_⟩
    rw [h.asked] at hasked
    obtain ⟨d, hd, hid, hf⟩ := h.devolutions d' hd'
    by_contra hne
    exact hf hne (hall d hd (hid ▸ hasked))
  owner r i hi hir := by
    rw [h.asked] at hi hir
    exact hs.owner r i hi hir
  refundDevolution r' hr' hid i hi := by
    obtain ⟨r, hr, hrid, hrd⟩ := h.refunds r' hr'
    rw [h.asked]
    exact hs.refundDevolution r hr (hrid.trans hid) i (hrd ▸ hi)
  apart o' ho' p' hp' heq := by
    obtain ⟨o, ho, hop, hor⟩ := h.operations o' ho'
    obtain ⟨p, hp, hpp, hpr⟩ := h.operations p' hp'
    rw [← hop, ← hpp]
    exact hs.apart o ho p hp (by rw [hor, hpr, heq])

/-! ### Writes -/

/-- A write of a refund that leaves its devolution. -/
theorem quiet_updateRefund {r : PixRefund} (r' : PixRefund) (hr : r ∈ w.db.refunds.rows)
    (hid : r'.id = r.id) (hd : r'.refundDevolution = r.refundDevolution) :
    Quiet pixRefund w { w with db := { w.db with refunds := w.db.refunds.set r' } } :=
  { Quiet.refl pixRefund w with
    refunds := by
      intro x hx
      rcases Table.mem_set.mp hx with ⟨hx, -⟩ | ⟨rfl, -⟩
      · exact ⟨x, hx, rfl, rfl⟩
      · exact ⟨r, hr, hid.symm, hd.symm⟩ }

/-- A write of a refund devolution, which stays failed. -/
theorem quiet_updateRefundDevolution {d : PixRefundDevolution} (d' : PixRefundDevolution)
    (hd : d ∈ w.db.refundDevolutions.rows) (hid : d'.id = d.id)
    (hf : d.state = .FAILED → d'.state = .FAILED) :
    Quiet pixRefund w
      { w with db := { w.db with refundDevolutions := w.db.refundDevolutions.set d' } } :=
  { Quiet.refl pixRefund w with
    devolutions := by
      intro x hx
      rcases Table.mem_set.mp hx with ⟨hx, -⟩ | ⟨rfl, -⟩
      · exact ⟨x, hx, rfl, id⟩
      · exact ⟨d, hd, hid.symm, mt hf⟩
    fell := by
      rintro i ⟨x, hx, rfl, hxf⟩
      by_cases h : x.id = d.id
      · obtain rfl := Table.eq_of_key hx hd h
        exact ⟨d', Table.mem_set.mpr (.inr ⟨rfl, x, hd, hid.symm⟩), hid, hf hxf⟩
      · exact ⟨x, Table.mem_set.mpr (.inl ⟨hx, fun e => h (e.trans hid)⟩), rfl, hxf⟩ }

/-- Writes to the tables of the transactions. -/
theorem quiet_transactions {db : Database} (hd : db.refundDevolutions = w.db.refundDevolutions)
    (hr : db.refunds = w.db.refunds)
    (ho : db.infractionRefundOperations = w.db.infractionRefundOperations) :
    Quiet pixRefund w { w with db } where
  events := rfl
  devolutions d h := ⟨d, hd ▸ h, rfl, id⟩
  fell _ h := by simpa only [Fell, hd] using h
  held h := by simpa only [Held, ho] using h
  released h := by simpa only [Released, ho] using h
  refunds r h := ⟨r, hr ▸ h, rfl, rfl⟩
  operations o h := ⟨o, ho ▸ h, rfl, rfl⟩

theorem quiet_deposits (deposits : Table PixDeposit) :
    Quiet pixRefund w { w with db := { w.db with deposits } } :=
  quiet_transactions rfl rfl rfl

theorem quiet_devolutionsReceived (devolutionsReceived : Table PixDevolutionReceived) :
    Quiet pixRefund w { w with db := { w.db with devolutionsReceived } } :=
  quiet_transactions rfl rfl rfl

/-- A new operation that is not reverted. -/
theorem quiet_createOperation {operations : Table LedgerOperation} {o : LedgerOperation}
    (h : w.operations.insert? o = some operations) (ho : o.state ≠ .REVERTED) :
    Quiet pixRefund w { w with operations } :=
  { Quiet.refl pixRefund w with
    released := by
      rintro ⟨x, hx, hid, hreverted⟩
      rcases (Table.mem_insert? h).mp hreverted with hreverted | rfl
      · exact ⟨x, hx, hid, hreverted⟩
      · exact absurd rfl ho }

end

/-! ### The settlement of refund operations -/

section

variable {state : OperationState} {w : Ledgered} {pixRefund r : Uuid}
variable {operations : Table LedgerOperation}

theorem mem_getOpen {o : PixInfractionRefundOperation} :
    o ∈ w.db.getOpenInfractionRefundOperations r ↔
      o ∈ w.db.infractionRefundOperations.rows ∧ o.pixRefund = some r ∧ o.state = .OPEN := by
  rw [Database.getOpenInfractionRefundOperations, List.mem_filter, decide_eq_true_eq]

theorem not_held_settledAs :
    ¬ (w.settledAs state (w.db.getOpenInfractionRefundOperations r)).Held r := by
  rintro ⟨o, ho, hr, hopen⟩
  obtain ⟨hmem, hnot⟩ := open_settledAs ho hopen
  exact hnot (mem_getOpen.mpr ⟨hmem, hr, hopen⟩)

theorem operations_settledAs {o' : PixInfractionRefundOperation}
    (ho : o' ∈ (w.settledAs state
      (w.db.getOpenInfractionRefundOperations r)).db.infractionRefundOperations.rows) :
    ∃ o ∈ w.db.infractionRefundOperations.rows,
      o.pixRefund = o'.pixRefund ∧ o.refundOperation = o'.refundOperation := by
  rcases row_settledAs ho with ⟨ho, -⟩ | ⟨o, hmem, rfl⟩
  · exact ⟨o', ho, rfl, rfl⟩
  · exact ⟨o, (mem_getOpen.mp hmem).1, rfl, rfl⟩

section

variable (hs : RefundSound pixRefund w)
include hs

/-- An operation of the refund that was settled with those of a refund. -/
theorem RefundSound.settled {o x : PixInfractionRefundOperation}
    (ho : o ∈ w.db.infractionRefundOperations.rows) (hp : o.pixRefund = some pixRefund)
    (hx : x ∈ w.db.getOpenInfractionRefundOperations r)
    (hsame : x.refundOperation = o.refundOperation) : r = pixRefund ∧ w.Held r := by
  obtain ⟨hmem, hxr, hopen⟩ := mem_getOpen.mp hx
  have hxo := hs.apart x hmem o ho hsame
  rw [hxr, hp, Option.some_inj] at hxo
  exact ⟨hxo, x, hmem, hxr, hopen⟩

/-- Only the refund whose refund operations are reverted is released. -/
theorem released_settledAs
    (h : (w.settledAs state (w.db.getOpenInfractionRefundOperations r)).Released pixRefund) :
    w.Released pixRefund ∨ (state = .REVERTED ∧ r = pixRefund ∧ w.Held r) := by
  obtain ⟨o', ho', hid, hreverted⟩ := h
  obtain ⟨o, ho, hp, hop⟩ := operations_settledAs ho'
  rcases operation_settledAs hreverted with hreverted | ⟨x, hx, hxe⟩
  · exact .inl ⟨o, ho, hp.trans hid, hop ▸ hreverted⟩
  · injection hxe with hxop hstate
    exact .inr ⟨hstate.symm, hs.settled ho (hp.trans hid) hx (hxop.symm.trans hop.symm)⟩

/-- Refund operations that are accepted, or are those of another refund. -/
theorem quiet_settledAs (h : state = .REVERTED → r = pixRefund → ¬ w.Held r) :
    Quiet pixRefund w (w.settledAs state (w.db.getOpenInfractionRefundOperations r)) where
  events := rfl
  devolutions d hd := ⟨d, hd, rfl, id⟩
  fell _ hf := hf
  held := by
    rintro ⟨o, ho, hr, hopen⟩
    exact ⟨o, (open_settledAs ho hopen).1, hr, hopen⟩
  released hr := (released_settledAs hs hr).resolve_right fun ⟨hstate, hid, hheld⟩ =>
    h hstate hid hheld
  refunds x hx := ⟨x, hx, rfl, rfl⟩
  operations _ ho := operations_settledAs ho

/-- The refund operations of a refund of which all devolutions failed. -/
theorem RefundSound.settledAs
    (h : r = pixRefund → w.Held r →
      ∀ d ∈ w.db.refundDevolutions.rows, d.id ∈ w.asked r → d.state = .FAILED) :
    RefundSound pixRefund (w.settledAs state (w.db.getOpenInfractionRefundOperations r)) := by
  by_cases hr : r = pixRefund
  · subst hr
    by_cases hheld : w.Held r
    · exact
        { hs with
          next := fun hh => absurd hh not_held_settledAs
          released := fun _ => ⟨not_held_settledAs, h rfl hheld⟩
          apart := by
            intro o' ho' p' hp' heq
            obtain ⟨o, ho, hop, hor⟩ := operations_settledAs ho'
            obtain ⟨p, hp, hpp, hpr⟩ := operations_settledAs hp'
            rw [← hop, ← hpp]
            exact hs.apart o ho p hp (by rw [hor, hpr, heq]) }
    · exact hs.quiet (quiet_settledAs hs fun _ _ => hheld)
  · exact hs.quiet (quiet_settledAs hs fun _ hid => absurd hid hr)

end

/-! #### Executions that are rolled back -/

/-- None of the operations of the refund is reverted that was not. -/
def Unreleased (pixRefund : Uuid) (w : Ledgered) (operations : Table LedgerOperation) : Prop :=
  ∀ o ∈ w.db.infractionRefundOperations.rows, o.pixRefund = some pixRefund →
    ⟨o.refundOperation, .REVERTED⟩ ∈ operations.rows →
      ⟨o.refundOperation, .REVERTED⟩ ∈ w.operations.rows

theorem Unreleased.quiet
    (h : Unreleased pixRefund w operations) : Quiet pixRefund w { w with operations } :=
  { Quiet.refl pixRefund w with
    released := fun ⟨o, ho, hp, hreverted⟩ => ⟨o, ho, hp, h o ho hp hreverted⟩ }

theorem unreleased_of_eq (h : operations = w.operations) :
    Unreleased pixRefund w operations := fun _ _ _ hreverted => h ▸ hreverted

theorem unreleased_of_operationsIn
    (h : operationsIn .REVERTED operations = operationsIn .REVERTED w.operations) :
    Unreleased pixRefund w operations := by
  intro o _ _ hreverted
  have hget := (Set.ext_iff.mp h o.refundOperation).mp (Table.get?_of_mem hreverted)
  exact Table.mem_of_get? hget

/-- Refund operations were to be reverted, and some were not. -/
theorem unreleased_of_revertAll {refusals : Refusals} {e : LedgerException} {w' : Ledgered}
    (hs : RefundSound pixRefund w)
    (hwhole : r = pixRefund → w.Held r → Whole (Reverts refusals w.operations)
      (w.db.getOpenInfractionRefundOperations r))
    (h : settleRefundOperations (revertOperation refusals) r w = .error e w') :
    Unreleased pixRefund w w'.operations := by
  by_cases hr : r = pixRefund ∧ w.Held r
  · exact unreleased_of_eq (revertAll_error (hwhole hr.1 hr.2) h)
  · intro o ho hp hreverted
    rcases settleAll_error (settles_revertOperation refusals)
      (fun _ => keepsThrowing_revertOperation) h _ hreverted with hreverted | ⟨x, hx, hxe⟩
    · exact hreverted
    · injection hxe with hxop
      exact absurd (hs.settled ho hp hx hxop.symm) hr

end

/-! ### What the handlers do -/

section

variable {w w' : Ledgered} {pixRefund id : Uuid}

/-- Code that writes a refund and leaves its devolution. -/
theorem quiet_of_refund {r r' p : PixRefund} (hfound : w.db.refunds.get? id = some r)
    (h : (do onDatabase (updateRefund r'); return r' : LedgerApp PixRefund) w = .ok p w')
    (hid : r'.id = r.id) (hd : r'.refundDevolution = r.refundDevolution) :
    Quiet pixRefund w w' := by
  simp only [updateRefund, modify_onDatabase_bind, pure_ok] at h
  obtain ⟨-, rfl⟩ := h
  exact quiet_updateRefund _ (Table.mem_of_get? hfound) hid hd

variable {issues : ℤ → Option Uuid} {p : PixRefund}

theorem quiet_closePixRefund {issueId : ℤ} {analysisDetails : String}
    (h : closePixRefund issues issueId analysisDetails w = .ok p w') : Quiet pixRefund w w' := by
  rw [closePixRefund, throwIf_bind_ok, getRefundByIssue_bind_ok] at h
  obtain ⟨-, r, -, hr, h⟩ := h
  cases hstate : r.state with
  | CLOSED_PENDING =>
      simp only [hstate, pure_ok] at h
      obtain ⟨-, rfl⟩ := h
      exact .refl pixRefund w'
  | _ =>
      simp only [hstate] at h
      exact quiet_of_refund hr h rfl rfl

theorem quiet_handleCancelPendingPixRefund
    {cancelRefundRequest : CancelPixRefundPspRequest → Except Exception Unit}
    (h : handleCancelPendingPixRefund cancelRefundRequest id w = .ok p w') :
    Quiet pixRefund w w' := by
  rw [handleCancelPendingPixRefund, get_bind_ok, orThrow_bind_ok] at h
  obtain ⟨r, hr, h⟩ := h
  cases hstate : r.state with
  | CANCEL_CONFIRMED =>
      simp only [hstate, pure_ok] at h
      obtain ⟨-, rfl⟩ := h
      exact .refl pixRefund w'
  | CANCEL_PENDING | ERROR =>
      simp only [hstate, call_onDatabase_bind_ok] at h
      obtain ⟨_, -, h⟩ := h
      exact quiet_of_refund hr h rfl rfl
  | _ =>
      simp only [hstate] at h
      exact absurd h throw_ok

theorem quiet_handleRevertPixRefund (h : handleRevertPixRefund id w = .ok p w') :
    Quiet pixRefund w w' := by
  rw [handleRevertPixRefund, get_bind_ok, orThrow_bind_ok] at h
  obtain ⟨r, hr, h⟩ := h
  cases hstate : r.state with
  | ERROR =>
      simp only [hstate, pure_ok] at h
      obtain ⟨-, rfl⟩ := h
      exact .refl pixRefund w'
  | _ =>
      simp only [hstate] at h
      exact quiet_of_refund hr h rfl rfl

/-- A refund is canceled, and its open refund operations are reverted. -/
theorem RefundSound.cancelPixRefund {refusals : Refusals} {issueId : ℤ}
    {analysisDetails : Option String} (hs : RefundSound pixRefund w)
    (hok : w.OneAtATime pixRefund issues (.cancel refusals issueId analysisDetails))
    (h : Ledgered.cancelPixRefund issues refusals issueId analysisDetails w = .ok p w') :
    RefundSound pixRefund w' := by
  rw [Ledgered.cancelPixRefund, throwIf_bind_ok, getRefundByIssue_bind_ok] at h
  obtain ⟨-, r, hissue, hr, h⟩ := h
  cases hstate : r.state with
  | CANCEL_PENDING =>
      simp only [hstate, pure_ok] at h
      obtain ⟨-, rfl⟩ := h
      exact hs
  | _ =>
      simp only [hstate, updateRefund, modify_onDatabase_bind] at h
      obtain ⟨_, s, hsettle, h⟩ := bind_ok.mp h
      obtain ⟨-, rfl⟩ := pure_ok.mp h
      obtain rfl := settleRefundOperations_ok (settles_revertOperation refusals) hsettle
      refine (hs.quiet (quiet_updateRefund _ (Table.mem_of_get? hr) ?_ ?_)).settledAs ?_
      · rfl
      · rfl
      · rintro rfl hheld
        refine (hok hissue hheld fun x hx hid => ?_).1
        obtain rfl := Table.eq_of_key hx (Table.mem_of_get? hr) hid
        rw [hstate]
        rintro ⟨⟩

/-- A cancellation that is rolled back. -/
theorem unreleased_cancelPixRefund {refusals : Refusals} {issueId : ℤ}
    {analysisDetails : Option String} {e : LedgerException} (hs : RefundSound pixRefund w)
    (hok : w.OneAtATime pixRefund issues (.cancel refusals issueId analysisDetails))
    (h : cancelPixRefund issues refusals issueId analysisDetails w = .error e w') :
    Unreleased pixRefund w w'.operations := by
  rw [Ledgered.cancelPixRefund] at h
  rcases bind_error.mp h with he | ⟨_, s, hs₁, he⟩
  · obtain ⟨-, -, rfl⟩ := throwIf_error.mp he
    exact unreleased_of_eq rfl
  obtain ⟨-, rfl⟩ := throwIf_ok.mp hs₁
  rcases (keeps_getRefundByIssue (p := Ledgered.operations)).bind_error he with
    hkept | ⟨r, s, hfound, hrest⟩
  · exact unreleased_of_eq hkept
  obtain ⟨hissue, hr, rfl⟩ := getRefundByIssue_ok.mp hfound
  cases hstate : r.state with
  | CANCEL_PENDING =>
      simp only [hstate] at hrest
      exact absurd hrest pure_error
  | _ =>
      simp only [hstate, updateRefund, modify_onDatabase_bind] at hrest
      rcases bind_error.mp hrest with hsettle | ⟨_, _, -, hend⟩
      · have hq := hs.quiet (quiet_updateRefund { r with state := .CANCEL_PENDING, analysisDetails }
          (Table.mem_of_get? hr) rfl rfl)
        have hwhole : r.id = pixRefund → s.Held r.id →
            Whole (Reverts refusals s.operations) (s.db.getOpenInfractionRefundOperations r.id) := by
          rintro rfl hheld
          refine (hok hissue hheld fun x hx hid => ?_).2
          obtain rfl := Table.eq_of_key hx (Table.mem_of_get? hr) hid
          rw [hstate]
          rintro ⟨⟩
        have hunreleased := unreleased_of_revertAll hq hwhole hsettle
        exact hunreleased
      · exact absurd hend pure_error

end

/-! #### The refund devolutions -/

section

variable {w w' : Ledgered} {pixRefund r id : Uuid}

theorem lt_newRefundDevolution {i : Uuid}
    (h : i ∈ w.db.refundDevolutions.rows.map PixRefundDevolution.id ∨ i ∈ w.asked r) :
    i < w.newRefundDevolution := by
  refine lt_fresh (List.mem_append_left _ ?_)
  rcases h with h | h
  · exact List.mem_append_left _ h
  · exact List.mem_append_right _ (List.mem_filterMap.mpr ⟨_, mem_asked.mp h, rfl⟩)

/-- What is asked after the event for a new devolution of `id`. -/
theorem mem_asked_emit {i j : Uuid} {events : List Event}
    (hevents : events = w.events ++ [.createRefundDevolution j id]) {db : Database} :
    i ∈ ({ w with db, events } : Ledgered).asked r ↔ i ∈ w.asked r ∨ (i = j ∧ r = id) := by
  rw [mem_asked, mem_asked, hevents, List.mem_append, List.mem_singleton,
    Event.createRefundDevolution.injEq]

section

variable (hs : RefundSound pixRefund w)
include hs

/-- The refund `p` is to be paid back by a new devolution. -/
theorem RefundSound.asks {p : PixRefund} (hid : p.refundDevolution = some w.newRefundDevolution)
    (hlast : p.id = pixRefund → w.Held pixRefund → ∀ i ∈ w.asked pixRefund, w.Fell i) :
    RefundSound pixRefund
      { w with
        db := { w.db with refunds := w.db.refunds.set p }
        events := w.events ++ [.createRefundDevolution w.newRefundDevolution p.id] } := by
  have hnew : ∀ d ∈ w.db.refundDevolutions.rows, d.id ≠ w.newRefundDevolution := fun d hd e =>
    absurd (lt_newRefundDevolution (r := pixRefund) (.inl (List.mem_map_of_mem hd)))
      (e ▸ Nat.lt_irrefl _)
  have hasked : ∀ x, w.newRefundDevolution ∉ w.asked x := fun x hx =>
    Nat.lt_irrefl _ (lt_newRefundDevolution (.inr hx))
  -- no row is the new devolution's
  have old : ∀ d ∈ w.db.refundDevolutions.rows,
      d.id ∈ w.asked pixRefund ∨ (d.id = w.newRefundDevolution ∧ pixRefund = p.id) →
        d.id ∈ w.asked pixRefund := fun d hd h => h.resolve_right fun h => hnew d hd h.1
  refine ⟨?_, ?_, ?_, ?_, ?_, hs.apart⟩
  · intro d hd e he hda hea
    exact hs.one d hd e he (old d hd ((mem_asked_emit rfl).mp hda))
      (old e he ((mem_asked_emit rfl).mp hea))
  · intro hheld i hi j hj hif hjf
    have last : ∀ i, i ∈ w.asked pixRefund ∨ (i = w.newRefundDevolution ∧ pixRefund = p.id) →
        ¬ w.Fell i → pixRefund = p.id → i = w.newRefundDevolution := by
      rintro i (hi | ⟨rfl, -⟩) hif hp
      · exact absurd (hlast hp.symm hheld i hi) hif
      · rfl
    have hi := (mem_asked_emit rfl).mp hi
    have hj := (mem_asked_emit rfl).mp hj
    by_cases hp : pixRefund = p.id
    · rw [last i hi hif hp, last j hj hjf hp]
    · exact hs.next hheld i (hi.resolve_right fun h => hp h.2) j
        (hj.resolve_right fun h => hp h.2) hif hjf
  · intro hreleased
    obtain ⟨hheld, hall⟩ := hs.released hreleased
    exact ⟨hheld, fun d hd hda => hall d hd (old d hd ((mem_asked_emit rfl).mp hda))⟩
  · intro x i hi hix
    rcases (mem_asked_emit rfl).mp hi with hi | ⟨rfl, rfl⟩
    · rcases (mem_asked_emit rfl).mp hix with hix | ⟨rfl, rfl⟩
      · exact hs.owner x i hi hix
      · exact absurd hi (hasked pixRefund)
    · exact (((mem_asked_emit rfl).mp hix).resolve_left (hasked x)).2
  · intro x hx hxid i hi
    refine (mem_asked_emit rfl).mpr ?_
    rcases Table.mem_set.mp hx with ⟨hx, -⟩ | ⟨rfl, -⟩
    · exact .inl (hs.refundDevolution x hx hxid i hi)
    · rw [hid] at hi
      exact .inr ⟨(Option.some_inj.mp hi).symm, hxid.symm⟩

/-- A refund that was closed asks for a devolution. -/
theorem RefundSound.handleClosePendingPixRefund {issues : ℤ → Option Uuid} {p : PixRefund}
    (hok : w.OneAtATime pixRefund issues (.closePending id))
    (h : Ledgered.handleClosePendingPixRefund id w = .ok p w') : RefundSound pixRefund w' := by
  rw [Ledgered.handleClosePendingPixRefund, get_bind_ok, orThrow_bind_ok] at h
  obtain ⟨r, hr, h⟩ := h
  obtain rfl : r.id = id := Table.key_of_get? hr
  have hlast (hstate : r.state = .CLOSED_PENDING ∨ r.state = .ERROR) (hid : r.id = pixRefund)
      (hheld : w.Held pixRefund) : ∀ i ∈ w.asked pixRefund, w.Fell i := by
    refine hok hid hheld fun x hx hxid => ?_
    obtain rfl := Table.eq_of_key hx (Table.mem_of_get? hr) (hxid.trans hid.symm)
    exact hstate
  cases hstate : r.state with
  | CLOSED_WAITING | CLOSED_CONFIRMED =>
      simp only [hstate, pure_ok] at h
      obtain ⟨-, rfl⟩ := h
      exact hs
  | CLOSED_PENDING | ERROR =>
      simp only [hstate, updateRefund, modify_onDatabase_bind, emit, modify_bind_ok, pure_ok] at h
      obtain ⟨-, rfl⟩ := h
      refine hs.asks ?_ ?_
      · rfl
      · exact hlast (by simp [hstate])
  | _ =>
      simp only [hstate] at h
      exact absurd h throw_ok

/-- A devolution that was asked for a refund that holds money is created. -/
theorem RefundSound.creates {d : PixRefundDevolution} {t : Table PixRefundDevolution}
    (hins : w.db.refundDevolutions.insert? d = some t)
    (hasked : d.id ∈ w.asked r) (hheld : w.Held r) (hd : d.state ≠ .FAILED) :
    RefundSound pixRefund { w with db := { w.db with refundDevolutions := t } } := by
  have hnone := (Table.insert?_eq_some hins).1
  have fell : ∀ i, ¬ Fell { w with db := { w.db with refundDevolutions := t } } i → ¬ w.Fell i :=
    fun i hi ⟨x, hx, hid, hf⟩ => hi ⟨x, (Table.mem_insert? hins).mpr (.inl hx), hid, hf⟩
  have hnew : ¬ w.Fell d.id := fun ⟨x, hx, hid, _⟩ => Table.get?_eq_none.mp hnone x hx hid
  -- the devolutions that did not fail are those of one identifier
  have same : d.id ∈ w.asked pixRefund → ∀ x ∈ w.db.refundDevolutions.rows,
      x.id ∈ w.asked pixRefund → x.state ≠ .FAILED → x.id = d.id := by
    intro hda x hx hxa hxf
    obtain rfl := hs.owner r d.id hda hasked
    refine hs.next hheld x.id hxa d.id hda ?_ hnew
    rintro ⟨y, hy, hyid, hyf⟩
    obtain rfl := Table.eq_of_key hy hx hyid
    exact hxf hyf
  refine { hs with one := ?_, next := ?_, released := ?_ }
  · intro x hx y hy hxa hya hxf hyf
    rcases (Table.mem_insert? hins).mp hx with hx | rfl
    · rcases (Table.mem_insert? hins).mp hy with hy | rfl
      · exact hs.one x hx y hy hxa hya hxf hyf
      · exact same hya x hx hxa hxf
    · rcases (Table.mem_insert? hins).mp hy with hy | rfl
      · exact (same hxa y hy hya hyf).symm
      · rfl
  · intro hh i hi j hj hif hjf
    exact hs.next hh i hi j hj (fell i hif) (fell j hjf)
  · intro hreleased
    obtain ⟨hnot, hall⟩ := hs.released hreleased
    refine ⟨hnot, fun x hx hxa => ?_⟩
    rcases (Table.mem_insert? hins).mp hx with hx | rfl
    · exact hall x hx hxa
    · obtain rfl := hs.owner r x.id hxa hasked
      exact absurd hheld hnot

end

/-- What is to be paid back is held. -/
theorem held_of_calculateRefundAmount {refund : PixRefund} {n : ℕ}
    (h : calculateRefundAmount w.db refund = some n) : w.Held refund.id := by
  rw [calculateRefundAmount] at h
  split at h
  · cases h
  · rename_i hne
    obtain ⟨o, ho⟩ := List.exists_mem_of_ne_nil _ hne
    obtain ⟨hmem, hsel⟩ := List.mem_filter.mp ho
    exact ⟨o, hmem, of_decide_eq_true hsel⟩

theorem RefundSound.handleCreatePixRefundDevolution {config : Config} {now : ℤ} {db : Database}
    {d : PixRefundDevolution} (hs : RefundSound pixRefund w) (hasked : id ∈ w.asked r)
    (h : Pix.handleCreatePixRefundDevolution config now id r w.db = .ok d db) :
    RefundSound pixRefund { w with db } := by
  rw [Pix.handleCreatePixRefundDevolution, get_bind_ok] at h
  cases hfound : w.db.refundDevolutions.get? id with
  | some devolution =>
      simp only [hfound, pure_ok] at h
      obtain ⟨-, rfl⟩ := h
      exact hs
  | none =>
      simp only [hfound, orThrow_bind_ok, throwIf_bind_ok] at h
      obtain ⟨refund, hr, found, -, -, -, -, -, h⟩ := h
      obtain rfl : refund.id = r := Table.key_of_get? hr
      obtain ⟨n, db₁, hadd, h⟩ := bind_ok.mp h
      obtain ⟨operation, -, h⟩ := orThrow_bind_ok.mp h
      obtain ⟨-, t, hins, rfl⟩ := createRefundDevolution_ok.mp h
      obtain ⟨hn, hdb⟩ := addReturnedAmount_ok hadd
      have hheld := held_of_calculateRefundAmount hn
      rcases hdb with ⟨deposit, -, rfl⟩ | ⟨received, -, rfl⟩
      · refine (hs.quiet (quiet_deposits _)).creates hins hasked hheld ?_
        rintro ⟨⟩
      · refine (hs.quiet (quiet_devolutionsReceived _)).creates hins hasked hheld ?_
        rintro ⟨⟩

variable {config : Config} {services : Services} {refusals : Refusals} {d : PixRefundDevolution}
variable {issues : ℤ → Option Uuid}

/-! #### Handlers that are rolled back -/

theorem createAndAcceptOperation_ok {n : ℕ} {owner : Option Uuid} {beneficiary : Uuid} {u : Unit}
    (h : createAndAcceptOperation services id n owner beneficiary w = .ok u w') :
    ∃ operations, w.operations.insert? ⟨id, .ACCEPTED⟩ = some operations ∧
      w' = { w with operations } := by
  rw [createAndAcceptOperation, call_onDatabase_bind_ok] at h
  obtain ⟨_, -, h⟩ := h
  rw [get_bind_ok, orThrow_bind_ok] at h
  obtain ⟨operations, hins, h⟩ := h
  exact ⟨operations, hins, modify_ok.mp h⟩

theorem keeps_closePixRefund {issueId : ℤ} {analysisDetails : String} :
    Keeps Ledgered.operations (closePixRefund issues issueId analysisDetails) := by
  refine keeps_throwIf.bind fun _ => keeps_getRefundByIssue.bind fun r => ?_
  cases r.state with
  | CLOSED_PENDING => exact keeps_pure r
  | _ => exact (keeps_onDatabase _).bind fun _ => keeps_pure _

theorem keeps_handleClosePendingPixRefund :
    Keeps Ledgered.operations (Ledgered.handleClosePendingPixRefund id) := by
  refine keeps_get.bind fun _ => keeps_orThrow.bind fun r => ?_
  cases r.state with
  | CLOSED_WAITING | CLOSED_CONFIRMED => exact keeps_pure r
  | CLOSED_PENDING | ERROR =>
      exact (keeps_onDatabase _).bind fun _ => (keeps_emit _).bind fun _ => keeps_pure _
  | _ => exact keeps_throw _

theorem keeps_handleCancelPendingPixRefund
    {cancelRefundRequest : CancelPixRefundPspRequest → Except Exception Unit} :
    Keeps Ledgered.operations (handleCancelPendingPixRefund cancelRefundRequest id) := by
  refine keeps_get.bind fun _ => keeps_orThrow.bind fun r => ?_
  cases r.state with
  | CANCEL_CONFIRMED => exact keeps_pure r
  | CANCEL_PENDING | ERROR =>
      exact (keeps_onDatabase _).bind fun _ => (keeps_onDatabase _).bind fun _ => keeps_pure _
  | _ => exact keeps_throw _

theorem keeps_handleRevertPixRefund : Keeps Ledgered.operations (handleRevertPixRefund id) := by
  refine keeps_get.bind fun _ => keeps_orThrow.bind fun r => ?_
  cases r.state with
  | ERROR => exact keeps_pure r
  | _ => exact (keeps_onDatabase _).bind fun _ => keeps_pure _

/-- A new operation that is accepted is not reverted. -/
theorem keeps_createAndAcceptOperation {n : ℕ} {owner : Option Uuid} {beneficiary : Uuid} :
    Keeps (fun w => operationsIn .REVERTED w.operations)
      (createAndAcceptOperation services id n owner beneficiary) := by
  have hthrow : KeepsThrowing Ledgered.operations
      (createAndAcceptOperation services id n owner beneficiary) :=
    .bind (keeps_onDatabase _) fun _ => .bind keeps_get fun _ => .bind keeps_orThrow fun _ =>
      keepsThrowing_of_returns (throws_modify _)
  refine KeepsThrowing.keeps (fun w e w' h => ?_) fun w u w' h => ?_
  · rw [show w'.operations = w.operations from hthrow w e w' h]
  · obtain ⟨operations, hins, rfl⟩ := createAndAcceptOperation_ok h
    exact operationsIn_insert hins (by rintro ⟨⟩)

theorem keeps_handlePendingPixRefundDevolution :
    Keeps (fun w => operationsIn .REVERTED w.operations)
      (handlePendingPixRefundDevolution config services id) := by
  refine keeps_get.bind fun _ => keeps_orThrow.bind fun d => ?_
  cases d.state with
  | WAITING | CONFIRMED => exact keeps_pure d
  | PENDING =>
      refine keeps_orThrow.bind fun transaction => ?_
      cases decide (transaction.thirdPartBank = config.pixDevolutionZroBankIspb) with
      | false => exact keepsIn_onDatabase _
      | true =>
          exact (keepsIn_onDatabase _).bind fun _ => keeps_orThrow.bind fun _ =>
            keeps_throwIf.bind fun _ => keeps_createAndAcceptOperation.bind fun _ =>
              (keepsIn_onDatabase _).bind fun _ => keeps_pure _
  | _ => exact keeps_throw _

theorem keeps_handleCompletePixRefundDevolution {endToEndId : Option String} :
    Keeps (fun w => operationsIn .REVERTED w.operations)
      (Ledgered.handleCompletePixRefundDevolution services refusals id endToEndId) := by
  have haccept (o : PixInfractionRefundOperation) :
      Keeps (fun w => operationsIn .REVERTED w.operations)
        (settleRefundOperation (acceptOperation refusals) o) := by
    have h : Keeps (fun w => operationsIn .REVERTED w.operations)
        (acceptOperation refusals o.refundOperation) := keeps_acceptOperation (by rintro ⟨⟩) (by rintro ⟨⟩)
    exact h.bind fun _ => keepsIn_onDatabase _
  refine keeps_get.bind fun _ => keeps_orThrow.bind fun d => ?_
  cases d.state with
  | CONFIRMED => exact keeps_pure d
  | WAITING =>
      exact keeps_orThrow.bind fun _ =>
        (keeps_get.bind fun _ => Keeps.forM haccept).bind fun _ =>
          (keepsIn_onDatabase _).bind fun _ => (keepsIn_onDatabase _).bind fun _ =>
            (keepsIn_onDatabase _).bind fun _ => keeps_pure _
  | _ => exact keeps_throw _

/-- A devolution that is sent is not a new one, and has not failed. -/
theorem quiet_handlePendingPixRefundDevolution
    (h : handlePendingPixRefundDevolution config services id w = .ok d w') :
    Quiet pixRefund w w' := by
  rw [handlePendingPixRefundDevolution, get_bind_ok, orThrow_bind_ok] at h
  obtain ⟨e, he, h⟩ := h
  have hmem := Table.mem_of_get? he
  cases hstate : e.state with
  | WAITING | CONFIRMED =>
      simp only [hstate, pure_ok] at h
      obtain ⟨-, rfl⟩ := h
      exact .refl pixRefund w'
  | PENDING =>
      simp only [hstate, orThrow_bind_ok] at h
      obtain ⟨transaction, -, h⟩ := h
      have hf : e.state = .FAILED → False := by simp [hstate]
      cases hbank : decide (transaction.thirdPartBank = config.pixDevolutionZroBankIspb)
      · simp only [hbank] at h
        obtain ⟨db, hdb, rfl⟩ := onDatabase_ok.mp h
        simp only [sendRefundDevolutionPSP, call_bind_ok, updateRefundDevolution, modify_bind_ok,
          pure_ok] at hdb
        obtain ⟨_, -, -, rfl⟩ := hdb
        refine quiet_updateRefundDevolution _ hmem ?_ fun h => (hf h).elim
        rfl
      · simp only [hbank, call_onDatabase_bind_ok, orThrow_bind_ok, throwIf_bind_ok,
          sendRefundDevolutionP2P] at h
        obtain ⟨_, -, account, -, -, h⟩ := h
        obtain ⟨_, s, hcreate, h⟩ := bind_ok.mp h
        obtain ⟨operations, hins, rfl⟩ := createAndAcceptOperation_ok hcreate
        simp only [updateRefundDevolution, modify_onDatabase_bind, pure_ok] at h
        obtain ⟨-, rfl⟩ := h
        refine (quiet_createOperation hins (by rintro ⟨⟩)).trans
          (quiet_updateRefundDevolution _ hmem ?_ fun h => (hf h).elim)
        rfl
  | _ =>
      simp only [hstate] at h
      exact absurd h throw_ok

theorem RefundSound.handleCompletePixRefundDevolution {endToEndId : Option String}
    (hs : RefundSound pixRefund w)
    (h : Ledgered.handleCompletePixRefundDevolution services refusals id endToEndId w =
      .ok d w') : RefundSound pixRefund w' := by
  rw [Ledgered.handleCompletePixRefundDevolution, get_bind_ok, orThrow_bind_ok] at h
  obtain ⟨e, he, h⟩ := h
  cases hstate : e.state with
  | CONFIRMED =>
      simp only [hstate, pure_ok] at h
      obtain ⟨-, rfl⟩ := h
      exact hs
  | WAITING =>
      simp only [hstate, orThrow_bind_ok] at h
      obtain ⟨refund, hr, h⟩ := h
      obtain ⟨_, s, hsettle, h⟩ := bind_ok.mp h
      obtain rfl := settleRefundOperations_ok (settles_acceptOperation refusals) hsettle
      simp only [updateRefundDevolution, updateRefund, modify_onDatabase_bind,
        call_onDatabase_bind_ok, pure_ok] at h
      obtain ⟨_, -, -, rfl⟩ := h
      have settled : Quiet pixRefund w (w.settledAs .ACCEPTED _) :=
        quiet_settledAs (r := refund.id) hs (by rintro ⟨⟩)
      refine hs.quiet (settled.trans (.trans (quiet_updateRefundDevolution _
        (Table.mem_of_get? he) ?_ fun hf => ?_)
        (quiet_updateRefund _ (List.mem_of_find?_eq_some hr) ?_ ?_)))
      · rfl
      · rw [hstate] at hf
        cases hf
      · rfl
      · rfl
  | _ =>
      simp only [hstate] at h
      exact absurd h throw_ok

/-- What a reverted devolution gives back to its transaction. -/
theorem subtractReturnedAmount_onDatabase {db₀ : Database} {u : Unit}
    (h : onDatabase (subtractReturnedAmount db₀ d) w = .ok u w') :
    ∃ deposits, w' = { w with db := { w.db with deposits } } := by
  obtain ⟨db, hdb, rfl⟩ := onDatabase_ok.mp h
  cases htype : d.transactionType with
  | DEPOSIT =>
      obtain ⟨deposit, -, rfl⟩ := subtractReturnedAmount_deposit htype hdb
      exact ⟨_, rfl⟩
  | DEVOLUTION_RECEIVED =>
      rw [subtractReturnedAmount_received htype] at hdb
      obtain ⟨-, rfl⟩ := pure_ok.mp hdb
      exact ⟨w.db.deposits, rfl⟩

section

variable (hs : RefundSound pixRefund w)
include hs

/-- The refund operations of the refund whose devolution failed: it was the last devolution. -/
theorem RefundSound.revertRefundOperations {e e' : PixRefundDevolution}
    {found : Option LedgerOperation} {u : Unit} (he : e ∈ w.db.refundDevolutions.rows)
    (hlive : e.state ≠ .FAILED) (hid : e'.id = e.id) (hfailed : e'.state = .FAILED)
    (h : Ledgered.revertRefundOperations refusals found e.id
      { w with db := { w.db with refundDevolutions := w.db.refundDevolutions.set e' } } =
        .ok u w') : RefundSound pixRefund w' := by
  have hs' := hs.quiet (quiet_updateRefundDevolution _ he hid fun _ => hfailed)
  cases found with
  | none =>
      obtain ⟨-, rfl⟩ := pure_ok.mp h
      exact hs'
  | some operation =>
      rw [Ledgered.revertRefundOperations, get_bind_ok, orThrow_bind_ok] at h
      obtain ⟨refund, hr, h⟩ := h
      obtain rfl := settleRefundOperations_ok (settles_revertOperation refusals) h
      refine hs'.settledAs ?_
      rintro rfl hheld d hd hasked
      have hrefund : refund.refundDevolution = some e.id := by
        simpa using List.find?_some hr
      have hea : e.id ∈ w.asked refund.id :=
        hs.refundDevolution refund (List.mem_of_find?_eq_some hr) rfl e.id hrefund
      rcases Table.mem_set.mp hd with ⟨hd, hne⟩ | ⟨rfl, -⟩
      · by_contra hdf
        have notFell : ∀ x ∈ w.db.refundDevolutions.rows, x.state ≠ .FAILED → ¬ w.Fell x.id := by
          rintro x hx hxf ⟨y, hy, hyid, hyf⟩
          obtain rfl := Table.eq_of_key hy hx hyid
          exact hxf hyf
        have hde := hs.next hheld d.id hasked e.id hea (notFell d hd hdf) (notFell e he hlive)
        exact hne (hde.trans hid.symm)
      · exact hfailed

theorem RefundSound.handleRevertPixRefundDevolution {chargebackReason : Option String}
    {failed : Option Failed}
    (h : Ledgered.handleRevertPixRefundDevolution refusals chargebackReason failed id w =
      .ok d w') : RefundSound pixRefund w' := by
  rw [Ledgered.handleRevertPixRefundDevolution, get_bind_ok, orThrow_bind_ok] at h
  obtain ⟨e, he, h⟩ := h
  obtain rfl : e.id = id := Table.key_of_get? he
  cases hstate : e.state with
  | FAILED =>
      simp only [hstate, pure_ok] at h
      obtain ⟨-, rfl⟩ := h
      exact hs
  | PENDING | WAITING | CONFIRMED =>
      simp only [hstate] at h
      obtain ⟨_, w₁, hsub, h⟩ := bind_ok.mp h
      obtain ⟨deposits, rfl⟩ := subtractReturnedAmount_onDatabase hsub
      simp only [updateRefundDevolution, modify_onDatabase_bind, getOperationById_bind_ok] at h
      obtain ⟨-, h⟩ := h
      obtain ⟨_, w₂, hrevert, h⟩ := bind_ok.mp h
      obtain ⟨-, rfl⟩ := pure_ok.mp h
      refine (hs.quiet (quiet_deposits deposits)).revertRefundOperations (Table.mem_of_get? he)
        ?_ ?_ ?_ hrevert
      · rw [hstate]
        rintro ⟨⟩
      · rfl
      · rfl
  | _ =>
      simp only [hstate] at h
      exact absurd h throw_ok

/-- A revert of a devolution that is rolled back. -/
theorem unreleased_handleRevertPixRefundDevolution
    {chargebackReason : Option String} {failed : Option Failed} {e : LedgerException}
    (hok : w.OneAtATime pixRefund issues (.revertDevolution refusals chargebackReason failed id))
    (h : Ledgered.handleRevertPixRefundDevolution refusals chargebackReason failed id w =
      .error e w') : Unreleased pixRefund w w'.operations := by
  rw [Ledgered.handleRevertPixRefundDevolution, get_bind_apply] at h
  rcases keeps_orThrow.bind_error (p := Ledgered.operations) h with hkept | ⟨d, s, hd, h⟩
  · exact unreleased_of_eq hkept
  obtain ⟨hd, rfl⟩ := orThrow_ok.mp hd
  obtain rfl : d.id = id := Table.key_of_get? hd
  have hlive (hstate : d.state ≠ .FAILED) (h : (do
      onDatabase (subtractReturnedAmount s.db d)
      let reverted : PixRefundDevolution := { d with state := .FAILED, chargebackReason, failed }
      onDatabase (updateRefundDevolution reverted)
      let hasOperation ← getOperationById refusals d.operation
      Ledgered.revertRefundOperations refusals hasOperation d.id
      return reverted : LedgerApp PixRefundDevolution) s = .error e w') :
      Unreleased pixRefund s w'.operations := by
    rcases (keeps_onDatabase _).bind_error h with hkept | ⟨_, w₁, hsub, h⟩
    · exact unreleased_of_eq hkept
    obtain ⟨deposits, rfl⟩ := subtractReturnedAmount_onDatabase hsub
    simp only [updateRefundDevolution, modify_onDatabase_bind] at h
    rcases (keeps_getOperationById (p := Ledgered.operations)).bind_error h with
      hkept | ⟨found, w₂, hfound, h⟩
    · exact unreleased_of_eq hkept
    obtain ⟨-, rfl, rfl⟩ := getOperationById_ok.mp hfound
    rcases bind_error.mp h with h | ⟨_, _, -, h⟩
    · cases hf : s.operations.get? d.operation with
      | none =>
          rw [hf] at h
          exact absurd h pure_error
      | some operation =>
          rw [hf, Ledgered.revertRefundOperations, get_bind_apply] at h
          rcases keeps_orThrow.bind_error (p := Ledgered.operations) h with
            hkept | ⟨refund, w₂, hread, h⟩
          · exact unreleased_of_eq hkept
          obtain ⟨hrefund, rfl⟩ := orThrow_ok.mp hread
          have hdeposits : Quiet pixRefund s { s with db := { s.db with deposits } } :=
            quiet_deposits deposits
          have hq := hdeposits.trans
            (quiet_updateRefundDevolution { d with state := .FAILED, chargebackReason, failed }
              (Table.mem_of_get? hd) rfl fun h => absurd h hstate)
          have hwhole (hr : refund.id = pixRefund) (_ : s.Held refund.id) :
              Whole (Reverts refusals s.operations) (s.db.getOpenInfractionRefundOperations refund.id) :=
            hr ▸ hok refund hrefund hr
          have hunreleased := unreleased_of_revertAll (hs.quiet hq) hwhole h
          exact hunreleased
    · exact absurd h pure_error
  cases hstate : d.state with
  | FAILED =>
      simp only [hstate] at h
      exact absurd h pure_error
  | PENDING | WAITING | CONFIRMED =>
      simp only [hstate] at h
      exact hlive (by simp [hstate]) h
  | ERROR | CANCELED =>
      simp only [hstate] at h
      obtain ⟨-, rfl⟩ := throw_error.mp h
      exact unreleased_of_eq rfl

/-- A step that starts nothing anew. -/
theorem RefundSound.refundStep (c : RefundCommand) (hok : w.OneAtATime pixRefund issues c) :
    RefundSound pixRefund (w.refundStep config issues c) := by
  cases c with
  | close => 
      exact executed_induction_of_keeps hs keeps_closePixRefund.throwing fun _ _ h =>
        hs.quiet (quiet_closePixRefund h)
  | cancel =>
      exact executed_induction (fun _ _ h => hs.cancelPixRefund hok h) fun _ _ h =>
        hs.quiet (unreleased_cancelPixRefund hs hok h).quiet
  | closePending =>
      exact executed_induction_of_keeps hs keeps_handleClosePendingPixRefund.throwing fun _ _ h =>
        hs.handleClosePendingPixRefund hok h
  | cancelPending =>
      exact executed_induction_of_keeps hs keeps_handleCancelPendingPixRefund.throwing fun _ _ h =>
        hs.quiet (quiet_handleCancelPendingPixRefund h)
  | revert =>
      exact executed_induction_of_keeps hs keeps_handleRevertPixRefund.throwing fun _ _ h =>
        hs.quiet (quiet_handleRevertPixRefund h)
  | create now id r =>
      rw [Ledgered.refundStep]
      split
      · rename_i hasked
        refine executed_induction_of_keeps hs (keeps_onDatabase _).throwing fun _ _ h => ?_
        obtain ⟨db, hdb, rfl⟩ := onDatabase_ok.mp h
        exact hs.handleCreatePixRefundDevolution (mem_asked.mpr hasked) hdb
      · exact hs
  | pendingDevolution =>
      exact executed_induction
        (fun _ _ h => hs.quiet (quiet_handlePendingPixRefundDevolution h)) fun _ _ h =>
          hs.quiet (unreleased_of_operationsIn
            (keeps_handlePendingPixRefundDevolution.throwing _ _ _ h)).quiet
  | completeDevolution =>
      exact executed_induction
        (fun _ _ h => hs.handleCompletePixRefundDevolution h) fun _ _ h =>
          hs.quiet (unreleased_of_operationsIn
            (keeps_handleCompletePixRefundDevolution.throwing _ _ _ h)).quiet
  | revertDevolution =>
      exact executed_induction (fun _ _ h => hs.handleRevertPixRefundDevolution h) fun _ _ h =>
        hs.quiet (unreleased_handleRevertPixRefundDevolution hs hok h).quiet

end

end

end Ledgered

/-- Along a run that starts one end of a refund at a time, the refund has one end. -/
theorem one_end (config : Config) (issues : ℤ → Option Uuid) (pixRefund : Uuid) (w : Ledgered)
    (h : w.Received pixRefund) (cs : List RefundCommand)
    (hok : Along (Ledgered.refundStep config issues)
      (fun w => w.OneAtATime pixRefund issues) w cs) :
    (run (Ledgered.refundStep config issues) w cs).OneEnd pixRefund := by
  have hstep (w : Ledgered) (c : RefundCommand) (hs : Ledgered.RefundSound pixRefund w)
      (hc : w.OneAtATime pixRefund issues c) :
      Ledgered.RefundSound pixRefund (w.refundStep config issues c) := hs.refundStep c hc
  exact (hok.invariant hstep h.refundSound).oneEnd

/-! A refund of 100 of a deposit, of which the issue is 8 and the blocked refund operation 7. -/

def sampleRefund : PixRefund where
  id := 5
  solicitationPspId := "R5"
  operation := some 7
  transaction := 1
  transactionType := .DEPOSIT
  amount := 100
  state := .RECEIVE_CONFIRMED
  analysisDetails := none
  refundDevolution := none
  createdAt := 0

def receivedWorld : Ledgered where
  db :=
    { Database.empty with
      deposits := Table.empty.upsert sampleDeposit
      refunds := Table.empty.upsert sampleRefund
      infractionRefundOperations := Table.empty.upsert ⟨6, 2, none, some 5, 4, 100, 7, 100, .OPEN⟩ }
  operations := Table.empty.upsert ⟨7, .PENDING⟩
  events := []

/-- Services that answer every call. -/
def readyServices : Services where
  getOperationById _ := .ok none
  createOperation _ _ _ := .ok ()
  createAndAcceptOperation _ _ _ _ := .ok ()
  acceptOperation _ := .ok ()
  revertOperation _ := .ok ()
  getWalletAccountByAccountNumberAndCurrency _ := .ok none
  createPixDevolution _ := .ok ⟨"D1", "X1"⟩
  createWarningPixDevolution _ := .ok ⟨"D1", "X1"⟩
  createPixDevolutionRefund _ := .ok ⟨"D1", "X1"⟩
  closeRefundRequest _ := .ok ()
  getWarningTransactionByOperation _ := .ok none
  addWarningTransactionComment _ _ := .ok ()

/-- The refund is closed, and its devolution sent. -/
def paidBack : List RefundCommand :=
  [.close 8 "fraud", .closePending 5, .create 0 1 5, .pendingDevolution readyServices 1]

theorem receivedWorld_received : receivedWorld.Received 5 where
  asked := rfl
  refundDevolution r hr _ := by
    obtain rfl := List.mem_singleton.mp hr
    rfl
  released := by decide +kernel
  apart o ho p hp _ := by
    obtain rfl := List.mem_singleton.mp ho
    obtain rfl := List.mem_singleton.mp hp
    rfl

theorem one_end_paidBack :
    (run (Ledgered.refundStep sampleConfig fun issueId => if issueId = 8 then some 5 else none)
      receivedWorld (paidBack ++ [.completeDevolution readyServices noRefusals 1 none,
        .cancel noRefusals 8 none])).OneEnd 5 :=
  one_end sampleConfig _ 5 receivedWorld receivedWorld_received _
    ⟨trivial, fun _ _ _ _ hi => absurd hi List.not_mem_nil, trivial, trivial, trivial,
      fun _ hheld => absurd hheld (by decide +kernel), trivial⟩

/-- The devolution is sent, and the money released. -/
theorem paid_back_and_released :
    ¬ ∀ config issues pixRefund (w : Ledgered), w.Received pixRefund →
      ∀ cs, (run (Ledgered.refundStep config issues) w cs).OneEnd pixRefund := by
  intro h
  have hone := h sampleConfig (fun issueId => if issueId = 8 then some 5 else none) 5
    receivedWorld receivedWorld_received (paidBack ++ [.cancel noRefusals 8 none])
  have hsent : ∃ d ∈ (run (Ledgered.refundStep sampleConfig
      fun issueId => if issueId = 8 then some 5 else none) receivedWorld
        (paidBack ++ [.cancel noRefusals 8 none])).db.refundDevolutions.rows,
      d.id ∈ (run (Ledgered.refundStep sampleConfig
        fun issueId => if issueId = 8 then some 5 else none) receivedWorld
          (paidBack ++ [.cancel noRefusals 8 none])).asked 5 ∧ d.state = .WAITING := by
    decide +kernel
  obtain ⟨d, hd, hasked, hstate⟩ := hsent
  exact hone.sent d hd hasked (.inl hstate) (by decide +kernel)

end ZroServices.Pix
