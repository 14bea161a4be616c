import ZroServices.Banking.Trail

/-!
# Banking — a TED leaves once, with the payer's money

The handler of the pending event asks the PSP first and debits the payer after.  When the PSP's
answer is lost, or the debit fails, the transfer is under way without the payer's money, and the
dead letter, which asks for the operation only, stores the TED failed.  When the debit is there and
the row is not stored, the next delivery of the event asks the PSP again, under a new id.

* `sentOnce_iff`: a run has no state of either kind if and only if each delivery that has the PSP
  take a transfer is of a TED without an operation, gets the PSP's answer and debits the payer.
-/

namespace ZroServices.Banking

open Foundation

/-- A TED to another bank, of which nothing was made yet. -/
structure Created (config : Config) (s : Trail) (t : BankingTed) : Prop where
  row : s.row = some t
  pending : t.state = .PENDING
  other : t.beneficiaryBankCode ≠ config.bankingTedZroBankCode
  operation : s.operation = none
  transfers : s.transfers = []
  reversals : s.reversals = []

/-- The operation of a TED debits a wallet by the full amount. -/
def Debited (t : BankingTed) (o : Operation) : Prop :=
  o.id = t.operation ∧ o.state = .ACCEPTED ∧ o.ownerWallet ≠ none ∧ o.rawValue = t.amount

/-- The PSP took one transfer at most, for which the payer is debited, and a failed TED is one that
it did not take, or that was given back. -/
structure SentOnce (s : Trail) : Prop where
  once : s.transfers.length ≤ 1
  debited : ∀ x ∈ s.transfers, ∃ t o, s.row = some t ∧ s.operation = some o ∧ Debited t o ∧
    x.request.amount = t.amount
  failed : ∀ t, s.row = some t → t.state = .FAILED →
    s.transfers = [] ∨ ∃ r ∈ s.reversals, r.operation.rawValue = t.amount

/-- A delivery that has the PSP take a transfer is the first, and debits the payer. -/
def Covered (config : Config) (s : Trail) (c : Command) : Prop :=
  Sends config s c → s.operation = none ∧ c.Debits

/-- The invariant of a run. -/
inductive Underway (config : Config) (s : Trail) : Prop
  | unsent {t : BankingTed} (row : s.row = some t)
      (other : t.beneficiaryBankCode ≠ config.bankingTedZroBankCode)
      (state : t.state = .PENDING ∨ t.state = .FAILED) (operation : s.operation = none)
      (transfers : s.transfers = [])
  | sent {t : BankingTed} {o : Operation} {x : Transfer} (row : s.row = some t)
      (other : t.beneficiaryBankCode ≠ config.bankingTedZroBankCode)
      (operation : s.operation = some o) (debited : Debited t o) (transfers : s.transfers = [x])
      (amount : x.request.amount = t.amount)
      (failed : t.state = .FAILED → ∃ r ∈ s.reversals, r.operation.rawValue = t.amount)

section

variable {config : Config} {c : Command} {s s' : Trail} {t : BankingTed}

theorem Created.underway (h : Created config s t) : Underway config s :=
  .unsent h.row h.other (.inl h.pending) h.operation h.transfers

section

variable (h : Underway config s)
include h

theorem Underway.sentOnce : SentOnce s := by
  cases h with
  | unsent _ _ _ _ transfers =>
      refine ⟨?_, ?_, fun _ _ _ => .inl transfers⟩
      · simp [transfers]
      · simp [transfers]
  | @sent t o x row _ operation debited transfers amount failed =>
      refine ⟨by simp [transfers], fun y hy => ?_, fun t' ht' hfailed => .inr ?_⟩
      · rw [transfers, List.mem_singleton] at hy
        exact ⟨t, o, row, operation, debited, hy ▸ amount⟩
      · obtain rfl := Option.some.inj (row.symm.trans ht')
        exact failed hfailed

/-- A transfer without the payer's money, or a second one. -/
theorem Underway.not_sentOnce {x : Transfer} :
    ¬ SentOnce { s with transfers := s.transfers ++ [x] } := by
  intro hsent
  cases h with
  | unsent _ _ _ operation _ =>
      obtain ⟨_, o, -, ho, -⟩ :=
        hsent.debited x (List.mem_append_right _ (List.mem_singleton_self x))
      rw [operation] at ho
      cases ho
  | sent _ _ _ _ transfers =>
      have honce := hsent.once
      simp [transfers] at honce

/-- A TED that the PSP has is confirmed or forwarded. -/
theorem Underway.advance {state : BankingTedState} (hrow : s.row = some t)
    (hstate : t.state ≠ .PENDING ∧ t.state ≠ .FAILED) (hnext : state ≠ .FAILED) :
    Underway config { s with row := some { t with state } } := by
  cases h with
  | unsent row _ state _ _ =>
      obtain rfl := Option.some.inj (row.symm.trans hrow)
      exact absurd state (not_or.mpr hstate)
  | sent row other operation debited transfers amount _ =>
      obtain rfl := Option.some.inj (row.symm.trans hrow)
      exact .sent rfl other operation debited transfers amount fun h => absurd h hnext

/-- What a covered delivery makes of the trail. -/
theorem Underway.moved (hmoved : Moved config c s s')
    (hcovered : Covered config s c) : Underway config s' := by
  cases hmoved with
  | rest => exact h
  | asked x hsends hno =>
      obtain ⟨hnone, hdebits⟩ := hcovered hsends
      exact absurd hdebits (hno.resolve_left fun hne => hne hnone)
  | debited x wallet hsends hdebits hrow hx hnone ht' =>
      cases h with
      | sent _ _ operation => exact absurd (hnone.symm.trans operation) (by rintro ⟨⟩)
      | unsent row other state operation transfers =>
          obtain rfl := Option.some.inj (row.symm.trans hrow)
          obtain ⟨services, ownerWallet, t, -, ht, hpending, -⟩ := hsends
          obtain rfl := Option.some.inj (hrow.symm.trans ht)
          rcases ht' with rfl | ⟨transactionId, rfl⟩
          · refine .sent rfl other rfl ⟨rfl, rfl, (by rintro ⟨⟩), rfl⟩ (by rw [transfers]; rfl) hx ?_
            rw [hpending]
            rintro ⟨⟩
          · exact .sent rfl other rfl ⟨rfl, rfl, (by rintro ⟨⟩), rfl⟩ (by rw [transfers]; rfl) hx (by rintro ⟨⟩)
  | paid _ _ _ hrow _ hzro hnone _ =>
      cases h with
      | sent _ _ operation => exact absurd (hnone.symm.trans operation) (by rintro ⟨⟩)
      | unsent row other =>
          obtain rfl := Option.some.inj (row.symm.trans hrow)
          exact absurd hzro other
  | failed _ hrow _ hnone =>
      cases h with
      | sent _ _ operation => exact absurd (hnone.symm.trans operation) (by rintro ⟨⟩)
      | unsent row other _ operation transfers =>
          obtain rfl := Option.some.inj (row.symm.trans hrow)
          exact .unsent rfl other (.inr rfl) operation transfers
  | reverted _ _ _ ho haccepted =>
      cases h with
      | unsent _ _ _ operation => exact absurd (operation.symm.trans ho) (by rintro ⟨⟩)
      | sent _ _ operation debited =>
          obtain rfl := Option.some.inj (operation.symm.trans ho)
          exact absurd debited.2.1 haccepted
  | confirmed _ hrow hwaiting => exact h.advance hrow (by simp [hwaiting]) (by rintro ⟨⟩)
  | forwarded _ hrow hconfirmed => exact h.advance hrow (by simp [hconfirmed]) (by rintro ⟨⟩)
  | rejected r hcredits hrow hr ht' =>
      obtain ⟨_, _, _, t, -, ht, hstate, -⟩ := hcredits
      obtain rfl := Option.some.inj (hrow.symm.trans ht)
      cases h with
      | unsent row _ state =>
          obtain rfl := Option.some.inj (row.symm.trans hrow)
          rcases state with state | state
          · simp [state] at hstate
          · simp [state] at hstate
      | sent row other operation debited transfers amount _ =>
          obtain rfl := Option.some.inj (row.symm.trans hrow)
          have hback : ∃ u ∈ s.reversals ++ [r], u.operation.rawValue = _ :=
            ⟨r, List.mem_append_right _ (List.mem_singleton_self r), hr⟩
          rcases ht' with rfl | rfl
          · exact .sent rfl other operation debited transfers amount fun _ => hback
          · exact .sent rfl other operation debited transfers amount fun _ => hback

theorem Underway.moved_iff (hmoved : Moved config c s s') : SentOnce s' ↔ Covered config s c := by
  constructor
  · intro hsent hsends
    cases hmoved with
    | asked x => exact absurd hsent h.not_sentOnce
    | debited _ _ _ hdebits _ _ hnone => exact ⟨hnone, hdebits⟩
    | rest hquiet | paid hquiet | failed hquiet | reverted hquiet | confirmed hquiet
    | forwarded hquiet => exact absurd hsends hquiet.sends
    | rejected _ hcredits =>
        obtain ⟨_, _, _, _, rfl, -⟩ := hcredits
        exact absurd hsends (not_sends fun _ _ => by rintro ⟨⟩)
  · intro hcovered
    exact (h.moved hmoved hcovered).sentOnce

end

end

/-! ### Runs -/

/-- For a TED to another bank: in every state of a run the PSP has taken one transfer at most, with
the payer's money, and a failed TED did not leave or was given back, if and only if every delivery
that has the PSP take a transfer is covered. -/
theorem sentOnce_iff {config : Config} {id : BankingTedId} {w : World} {t : BankingTed}
    (hcreated : Created config (w.trail id) t) (ds : List Delivery) :
    (∀ ms, ms <+: ds → SentOnce ((run (step config id) w ms).trail id)) ↔
      Along (step config id) (fun w d => Covered config (w.trail id) d.command) w ds := by
  refine along_iff (I := fun w : World => Underway config (w.trail id))
    (P := fun w : World => SentOnce (w.trail id)) (fun _ h => h.sentOnce) ?_ ?_
    hcreated.underway ds
  · intro w d h
    exact h.moved_iff (moved_step d)
  · intro w d h hcovered
    exact h.moved (moved_step d) hcovered

/-! A TED of 100 to bank 001; the payer's wallet is 5. -/

def sampleConfig : Config := ⟨"999"⟩

def sampleBankingTed : BankingTed where
  id := 1
  transactionId := none
  user := 3
  state := .PENDING
  amount := 100
  operation := 8
  beneficiaryBankCode := "001"
  beneficiaryName := "Ana"
  beneficiaryDocument := "11122233344"
  beneficiaryAgency := "0001"
  beneficiaryAccount := "1234"
  beneficiaryAccountDigit := "5"
  beneficiaryAccountType := "CC"

def sampleWorld : World := ⟨Table.empty.upsert sampleBankingTed, [], Table.empty, [], []⟩

/-- Services that know the payer and answer every call but the operation's, which meets a fate. -/
def samplePending (createAndAcceptOperation : Fate Exception) : PendingServices where
  getUserByUuid _ := .ok (some ⟨some "11122233344", some "Rui"⟩)
  getWalletAccountByWalletAndCurrency wallet := .ok (some ⟨wallet, true, some "77", some "1"⟩)
  getOnboardingByAccountNumberAndStatusIsFinished _ := .ok none
  getWalletByUserAndDefaultIsTrue _ := .ok none
  getByCode _ := .ok none
  createBankingTed := .answered
  createAndAcceptOperation := createAndAcceptOperation
  createBankingTedReceived := .ok ()
  createBankingContact := .ok ()

theorem sampleWorld_created : Created sampleConfig (sampleWorld.trail 1) sampleBankingTed where
  row := rfl
  pending := rfl
  other := by decide
  operation := rfl
  transfers := rfl
  reversals := rfl

theorem sentOnce_answered :
    (∀ ms, ms <+: [⟨.pending (samplePending .answered) 5, true⟩, ⟨.forward, true⟩] →
        SentOnce ((run (step sampleConfig 1) sampleWorld ms).trail 1)) ↔
      Along (step sampleConfig 1) (fun w d => Covered sampleConfig (w.trail 1) d.command)
        sampleWorld [⟨.pending (samplePending .answered) 5, true⟩, ⟨.forward, true⟩] :=
  sentOnce_iff sampleWorld_created _

/-- The payer has no funds: the transfer is under way, and the TED fails. -/
theorem sent_undebited :
    ¬ ∀ (config : Config) (id : BankingTedId) (w : World) (t : BankingTed),
      Created config (w.trail id) t → ∀ ds,
        SentOnce ((run (step config id) w ds).trail id) := by
  intro h
  have hsent := h sampleConfig 1 sampleWorld sampleBankingTed sampleWorld_created
    [⟨.pending (samplePending (.refused (.service "no funds"))) 5, true⟩,
      ⟨.deadLetter (.ok ()) .answered, true⟩]
  have hrow : ((run (step sampleConfig 1) sampleWorld
      [⟨.pending (samplePending (.refused (.service "no funds"))) 5, true⟩,
        ⟨.deadLetter (.ok ()) .answered, true⟩]).trail 1).row =
      some { sampleBankingTed with state := .FAILED } := by decide +kernel
  rcases hsent.failed _ hrow rfl with hnone | ⟨r, hr, -⟩
  · exact absurd (congrArg List.length hnone) (by decide +kernel)
  · exact absurd (List.length_pos_of_mem hr) (by decide +kernel)

end ZroServices.Banking
