import ZroServices.Banking.Trail

/-!
# Banking — a TED is given back once, and only when it did not arrive

A rejection credits the payer by a new operation, under a new id, and then stores the TED failed.
The state is all that says whether it was done.  When a write after the credit fails, the TED keeps
its state and the next rejection credits again.  A TED inside this bank is stored confirmed as soon
as its operation has credited the beneficiary, and a rejection takes it like any other.

* `refundedOnce_iff`: a run has no state of either kind if and only if each rejection that credits the
  payer is the first, and of a TED to another bank.
-/

namespace ZroServices.Banking

open Foundation

/-- A TED of which nothing was made yet. -/
structure Untouched (s : Trail) (t : BankingTed) : Prop where
  row : s.row = some t
  pending : t.state = .PENDING
  operation : s.operation = none
  reversals : s.reversals = []

/-- The payer is credited back once at most and by what was debited, and so when the TED failed after
the debit, and not when a beneficiary of this bank was credited. -/
structure RefundedOnce (s : Trail) : Prop where
  once : s.reversals.length ≤ 1
  amount : ∀ r ∈ s.reversals, ∃ o, s.operation = some o ∧ o.state = .ACCEPTED ∧
    o.ownerWallet ≠ none ∧ r.operation.rawValue = o.rawValue
  failed : ∀ t, s.row = some t → t.state = .FAILED → s.operation ≠ none → s.reversals ≠ []
  arrived : ∀ o, s.operation = some o → o.beneficiaryWallet ≠ none → s.reversals = []

/-- A delivery that credits the payer is the first, and of a TED to another bank. -/
def Due (config : Config) (s : Trail) (c : Command) : Prop :=
  Credits s c → s.reversals = [] ∧
    ∀ t, s.row = some t → t.beneficiaryBankCode ≠ config.bankingTedZroBankCode

/-- The operation of a TED, with a beneficiary inside this bank only. -/
structure Paid (config : Config) (t : BankingTed) (o : Operation) : Prop where
  state : o.state = .ACCEPTED
  owner : o.ownerWallet ≠ none
  rawValue : o.rawValue = t.amount
  beneficiary : o.beneficiaryWallet ≠ none ↔
    t.beneficiaryBankCode = config.bankingTedZroBankCode

/-- The invariant of a run. -/
inductive Kept (config : Config) (s : Trail) : Prop
  | unpaid {t : BankingTed} (row : s.row = some t) (state : t.state = .PENDING ∨ t.state = .FAILED)
      (operation : s.operation = none) (reversals : s.reversals = [])
  | paid {t : BankingTed} {o : Operation} (row : s.row = some t) (operation : s.operation = some o)
      (paid : Paid config t o) (state : t.state ≠ .FAILED) (reversals : s.reversals = [])
  | refunded {t : BankingTed} {o : Operation} {r : Reversal} (row : s.row = some t)
      (operation : s.operation = some o) (paid : Paid config t o)
      (other : t.beneficiaryBankCode ≠ config.bankingTedZroBankCode)
      (reversals : s.reversals = [r]) (amount : r.operation.rawValue = t.amount)

section

variable {config : Config} {c : Command} {s s' : Trail} {t t' : BankingTed} {o : Operation}

theorem Untouched.kept (h : Untouched s t) : Kept config s :=
  .unpaid h.row (.inl h.pending) h.operation h.reversals

/-- A row that keeps what the operation is about. -/
theorem Paid.row (h : Paid config t o) (hamount : t'.amount = t.amount)
    (hcode : t'.beneficiaryBankCode = t.beneficiaryBankCode) : Paid config t' o where
  state := h.state
  owner := h.owner
  rawValue := h.rawValue.trans hamount.symm
  beneficiary := hcode ▸ h.beneficiary

section

variable (h : Kept config s)
include h

theorem Kept.refundedOnce : RefundedOnce s := by
  cases h with
  | unpaid _ _ operation reversals =>
      refine ⟨by simp [reversals], by simp [reversals], fun _ _ _ hne => ?_, fun _ _ _ => reversals⟩
      exact absurd operation hne
  | @paid t o row operation paid state reversals =>
      refine ⟨by simp [reversals], by simp [reversals], fun t' ht' hfailed => ?_,
        fun _ _ _ => reversals⟩
      obtain rfl := Option.some.inj (row.symm.trans ht')
      exact absurd hfailed state
  | @refunded t o r row operation paid other reversals amount =>
      refine ⟨by simp [reversals], fun u hu => ?_, fun _ _ _ _ => by simp [reversals],
        fun o' ho' hbeneficiary => ?_⟩
      · rw [reversals, List.mem_singleton] at hu
        exact ⟨o, operation, paid.state, paid.owner, hu ▸ amount.trans paid.rawValue.symm⟩
      · obtain rfl := Option.some.inj (operation.symm.trans ho')
        exact absurd (paid.beneficiary.mp hbeneficiary) other

/-- A second credit, or one of a TED inside this bank. -/
theorem Kept.not_refundedOnce (hrow : s.row = some t)
    (hlive : t.state = .CONFIRMED ∨ t.state = .FORWARDED) {r : Reversal}
    (hdue : ¬ (s.reversals = [] ∧ t.beneficiaryBankCode ≠ config.bankingTedZroBankCode)) :
    ¬ RefundedOnce { s with row := some t', reversals := s.reversals ++ [r] } := by
  intro hrefunded
  cases h with
  | unpaid row state =>
      obtain rfl := Option.some.inj (row.symm.trans hrow)
      rcases state with state | state
      · simp [state] at hlive
      · simp [state] at hlive
  | @paid t o row operation paid state reversals =>
      obtain rfl := Option.some.inj (row.symm.trans hrow)
      have hzro := not_not.mp fun hother => hdue ⟨reversals, hother⟩
      have harrived := hrefunded.arrived o operation (paid.beneficiary.mpr hzro)
      simp at harrived
  | refunded _ _ _ _ reversals =>
      have honce := hrefunded.once
      simp [reversals] at honce

/-- A row in another state, of a TED that did not fail. -/
theorem Kept.advance {state : BankingTedState} (hrow : s.row = some t)
    (hstate : t.state ≠ .PENDING ∧ t.state ≠ .FAILED) (hnext : state ≠ .FAILED) :
    Kept config { s with row := some { t with state } } := by
  cases h with
  | unpaid row state _ _ =>
      obtain rfl := Option.some.inj (row.symm.trans hrow)
      exact absurd state (not_or.mpr hstate)
  | paid row operation paid _ reversals =>
      obtain rfl := Option.some.inj (row.symm.trans hrow)
      exact .paid rfl operation (paid.row rfl rfl) hnext reversals
  | refunded row operation paid other reversals amount =>
      obtain rfl := Option.some.inj (row.symm.trans hrow)
      exact .refunded rfl operation (paid.row rfl rfl) other reversals amount

/-- The first operation of a TED. -/
theorem Kept.pay {operation : Operation} {transfers : List Transfer}
    (hnone : s.operation = none) (hpaid : Paid config t operation) (hstate : t.state ≠ .FAILED) :
    Kept config { s with row := some t, operation := some operation, transfers } := by
  cases h with
  | unpaid _ _ _ reversals => exact .paid rfl rfl hpaid hstate reversals
  | paid _ operation => exact absurd (hnone.symm.trans operation) (by rintro ⟨⟩)
  | refunded _ operation => exact absurd (hnone.symm.trans operation) (by rintro ⟨⟩)

/-- What a delivery makes of the trail that credits the payer only when it is due. -/
theorem Kept.moved (hmoved : Moved config c s s') (hdue : Due config s c) : Kept config s' := by
  cases hmoved with
  | rest => exact h
  | asked x hsends hno =>
      cases h with
      | unpaid row state operation reversals => exact .unpaid row state operation reversals
      | paid row operation paid state reversals => exact .paid row operation paid state reversals
      | refunded row operation paid other reversals amount =>
          exact .refunded row operation paid other reversals amount
  | @debited t t' x wallet hsends hdebits hrow hx hnone ht' =>
      obtain ⟨_, _, u, -, hu, hpending, hother, -⟩ := hsends
      obtain rfl := Option.some.inj (hrow.symm.trans hu)
      have hpaid : Paid config t ⟨t.operation, t.amount, some wallet, none, .ACCEPTED⟩ :=
        ⟨rfl, (by rintro ⟨⟩), rfl, iff_of_false (fun hne => hne rfl) hother⟩
      rcases ht' with rfl | ⟨transactionId, rfl⟩
      · exact h.pay hnone hpaid (by simp [hpending])
      · exact h.pay hnone (hpaid.row rfl rfl) (by rintro ⟨⟩)
  | @paid t t' _ wallet beneficiary hrow hpending hzro hnone ht' =>
      have hpaid : Paid config t
          ⟨t.operation, t.amount, some wallet, some beneficiary, .ACCEPTED⟩ :=
        ⟨rfl, (by rintro ⟨⟩), rfl, iff_of_true (by rintro ⟨⟩) hzro⟩
      rcases ht' with rfl | rfl
      · exact h.pay hnone hpaid (by simp [hpending])
      · exact h.pay hnone (hpaid.row rfl rfl) (by rintro ⟨⟩)
  | failed _ hrow _ hnone =>
      cases h with
      | unpaid _ _ _ reversals => exact .unpaid rfl (.inr rfl) hnone reversals
      | paid _ operation => exact absurd (hnone.symm.trans operation) (by rintro ⟨⟩)
      | refunded _ operation => exact absurd (hnone.symm.trans operation) (by rintro ⟨⟩)
  | reverted _ _ _ ho haccepted =>
      cases h with
      | unpaid _ _ operation => exact absurd (operation.symm.trans ho) (by rintro ⟨⟩)
      | paid _ operation paid =>
          obtain rfl := Option.some.inj (operation.symm.trans ho)
          exact absurd paid.state haccepted
      | refunded _ operation paid =>
          obtain rfl := Option.some.inj (operation.symm.trans ho)
          exact absurd paid.state haccepted
  | confirmed _ hrow hwaiting => exact h.advance hrow (by simp [hwaiting]) (by rintro ⟨⟩)
  | forwarded _ hrow hconfirmed => exact h.advance hrow (by simp [hconfirmed]) (by rintro ⟨⟩)
  | @rejected t t' r hcredits hrow hr ht' =>
      obtain ⟨hnone, hother⟩ := hdue hcredits
      obtain ⟨_, _, _, u, -, hu, hlive, -⟩ := hcredits
      obtain rfl := Option.some.inj (hrow.symm.trans hu)
      cases h with
      | unpaid row state =>
          obtain rfl := Option.some.inj (row.symm.trans hrow)
          rcases state with state | state
          · simp [state] at hlive
          · simp [state] at hlive
      | refunded _ _ _ _ reversals => exact absurd (hnone.symm.trans reversals) (by rintro ⟨⟩)
      | paid row operation paid =>
          obtain rfl := Option.some.inj (row.symm.trans hrow)
          have hcode := hother _ row
          have hfirst : s.reversals ++ [r] = [r] := by rw [hnone]; rfl
          rcases ht' with rfl | rfl
          · exact .refunded rfl operation paid hcode hfirst hr
          · exact .refunded rfl operation (paid.row rfl rfl) hcode hfirst hr

theorem Kept.moved_iff (hmoved : Moved config c s s') : RefundedOnce s' ↔ Due config s c := by
  constructor
  · intro hrefunded hcredits
    cases hmoved with
    | @rejected t t' r _ hrow _ ht' =>
        obtain ⟨_, _, _, u, -, hu, hlive, -⟩ := hcredits
        obtain rfl := Option.some.inj (hrow.symm.trans hu)
        have hdue := not_not.mp fun hdue => h.not_refundedOnce hrow hlive hdue hrefunded
        refine ⟨hdue.1, fun u hu => ?_⟩
        obtain rfl := Option.some.inj (hrow.symm.trans hu)
        exact hdue.2
    | rest hquiet | paid hquiet | failed hquiet | reverted hquiet | confirmed hquiet
    | forwarded hquiet => exact absurd hcredits hquiet.credits
    | asked _ hsends | debited _ _ hsends =>
        obtain ⟨_, _, _, rfl, -⟩ := hsends
        exact absurd hcredits (not_credits fun _ _ _ => by rintro ⟨⟩)
  · intro hdue
    exact (h.moved hmoved hdue).refundedOnce

end

end

/-! ### Runs -/

def ownConfig : Config := ⟨"999"⟩

def ownBankingTed : BankingTed where
  id := 1
  transactionId := none
  user := 3
  state := .PENDING
  amount := 100
  operation := 8
  beneficiaryBankCode := "999"
  beneficiaryName := "Ana"
  beneficiaryDocument := "11122233344"
  beneficiaryAgency := "0001"
  beneficiaryAccount := "1234"
  beneficiaryAccountDigit := "5"
  beneficiaryAccountType := "CC"

def ownWorld : World := ⟨Table.empty.upsert ownBankingTed, [], Table.empty, [], []⟩

/-- Services that know both accounts and answer every call. -/
def ownPending : PendingServices where
  getUserByUuid _ := .ok (some ⟨some "11122233344", some "Rui"⟩)
  getWalletAccountByWalletAndCurrency wallet := .ok (some ⟨wallet, true, some "77", some "1"⟩)
  getOnboardingByAccountNumberAndStatusIsFinished _ := .ok (some 4)
  getWalletByUserAndDefaultIsTrue user := .ok (some ⟨6, user, true⟩)
  getByCode _ := .ok (some "Zro")
  createBankingTed := .answered
  createAndAcceptOperation := .answered
  createBankingTedReceived := .ok ()
  createBankingContact := .ok ()

def ownReject : RejectServices where
  getWalletByUserAndDefaultIsTrue user := .ok (some ⟨5, user, true⟩)
  createAndAcceptOperation := .answered
  createBankingTedFailure := .ok ()

theorem ownWorld_untouched : Untouched (ownWorld.trail 1) ownBankingTed where
  row := rfl
  pending := rfl
  operation := rfl
  reversals := rfl

end ZroServices.Banking
