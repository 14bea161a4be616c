import Mathlib.Tactic.Positivity
import ZroServices.Foundation.Rounding
import ZroServices.Quotations.GetQuotation

/-!
# PixZroPay — the fee of a QR code

When the QR code of a transaction is ready, `HandleCreateTransactionQrCodeEventUseCase` creates the
transaction and splits its value: a percentage and a fixed amount are kept as the fee, and the rest
goes to the main company.  Each share is rounded to whole cents on its own, and half a cent is
rounded up in both, so a fee with half a cent makes a cent too much (`split_iff`).
-/

namespace ZroServices.PixZroPay

open Foundation
open Quotations (formatValueFromFloatToInt format_eq)

abbrev Uuid := ℕ

/-! ### Entities -/

/-- A plan.  A fee that is null counts as 0. -/
structure Plan where
  id : ℕ
  feeCashinInCents : Option ℚ
  feeCashinInPercent : Option ℚ
  deriving DecidableEq

structure Company where
  id : ℕ
  plan : Option ℕ
  deriving DecidableEq

structure BankAccount where
  id : ℕ
  pixKey : Option String
  pixKeyType : Option String
  deriving DecidableEq

inductive TransactionPaymentType where
  | PIX
  | TED
  deriving DecidableEq

inductive TransactionStatus where
  | PENDING
  | CANCELED
  | PAID
  | FAILED
  | AWAITING
  deriving DecidableEq

inductive TransactionProcessStatus where
  | WAITING
  | COMPLETED
  | FAILED
  | PROCESSED
  | MUST_BE_REFUNDED
  deriving DecidableEq

inductive TransactionType where
  | TRANSACTION
  | WITHDRAW
  | REFUND
  | RETURNED
  | FAILED_REFUND
  deriving DecidableEq

structure Transaction where
  paymentType : TransactionPaymentType
  valueCents : ℤ
  feeValue : Option ℚ
  feeInPercent : Option ℚ
  totalFee : ℚ
  client : ℕ
  status : TransactionStatus
  bankAccount : BankAccount
  company : Company
  pixKey : Option String
  pixKeyType : Option String
  description : Option String
  transactionType : TransactionType
  referenceId : String
  uuid : Uuid
  merchantId : String
  zroTotalValueInCents : ℤ
  mainCompanyTotalFeeCents : ℤ
  processStatus : TransactionProcessStatus
  deriving DecidableEq

structure QrCode where
  value : ℤ
  bankAccount : Option BankAccount
  client : ℕ
  company : Option Company
  description : Option String
  transactionUuid : Option Uuid
  merchantId : String
  txId : String
  deriving DecidableEq

inductive Exception where
  | missingData (fields : List String)
  | planNotFound
  | typeError (message : String)
  deriving DecidableEq

/-! ### The use case -/

/-- `value * (feeCashinInPercent / 100)`. -/
def feeValueByPercent (plan : Plan) (value : ℤ) : ℚ :=
  value * (plan.feeCashinInPercent.getD 0 / 100)

/-- What the plan keeps of a value. -/
def totalFee (plan : Plan) (value : ℤ) : ℚ :=
  plan.feeCashinInCents.getD 0 + feeValueByPercent plan value

/-- The transaction of a QR code. -/
def newTransaction (plan : Plan) (qrCode : QrCode) (company : Company) (bankAccount : BankAccount)
    (transactionUuid : Uuid) : Transaction where
  paymentType := .PIX
  valueCents := qrCode.value
  feeValue := plan.feeCashinInCents
  feeInPercent := plan.feeCashinInPercent
  totalFee := totalFee plan qrCode.value
  client := qrCode.client
  status := .PENDING
  bankAccount
  company
  pixKey := bankAccount.pixKey
  pixKeyType := bankAccount.pixKeyType
  description := qrCode.description
  transactionType := .TRANSACTION
  referenceId := qrCode.txId
  uuid := transactionUuid
  merchantId := qrCode.merchantId
  zroTotalValueInCents :=
    formatValueFromFloatToInt
      (feeValueByPercent plan qrCode.value + plan.feeCashinInCents.getD 0) 0
  mainCompanyTotalFeeCents :=
    formatValueFromFloatToInt
      (qrCode.value - feeValueByPercent plan qrCode.value - plan.feeCashinInCents.getD 0) 0
  processStatus := .WAITING

namespace HandleCreateTransactionQrCodeEventUseCase

/-- `execute`, over the transactions there are; `plans` is `planRepository.getById`. -/
def execute (plans : Option ℕ → Option Plan) (qrCode : QrCode) :
    EStateM Exception (List Transaction) Transaction := do
  match qrCode.transactionUuid, qrCode.company with
  | some transactionUuid, some company =>
      match (← get).find? (·.uuid = transactionUuid) with
      | some transactionFound => return transactionFound
      | none =>
          let planFound ← orThrow (plans company.plan) .planNotFound
          let bankAccount ← orThrow qrCode.bankAccount (.typeError "bankAccount")
          let transaction := newTransaction planFound qrCode company bankAccount transactionUuid
          modify (· ++ [transaction])
          return transaction
  | transactionUuid, company =>
      throw (.missingData ((if transactionUuid.isNone then ["Transaction UUID"] else [])
        ++ (if company.isNone then ["Company"] else [])))

end HandleCreateTransactionQrCodeEventUseCase

/-! ### The split -/

/-- The value is split without loss, each share is its exact part within a cent, and neither is
negative when the fee does not exceed the value. -/
structure SplitsValue (plan : Plan) (transaction : Transaction) : Prop where
  sum : transaction.mainCompanyTotalFeeCents + transaction.zroTotalValueInCents
    = transaction.valueCents
  main : |(transaction.mainCompanyTotalFeeCents : ℚ)
    - (transaction.valueCents - totalFee plan transaction.valueCents)| ≤ 1
  zro : |(transaction.zroTotalValueInCents : ℚ) - totalFee plan transaction.valueCents| ≤ 1
  nonneg : totalFee plan transaction.valueCents ≤ transaction.valueCents →
    0 ≤ transaction.mainCompanyTotalFeeCents ∧ 0 ≤ transaction.zroTotalValueInCents

/-- The fees of a plan: an amount of cents and a percentage. -/
structure Plan.IsFee (plan : Plan) : Prop where
  cents : 0 ≤ plan.feeCashinInCents.getD 0
  percent : 0 ≤ plan.feeCashinInPercent.getD 0 ∧ plan.feeCashinInPercent.getD 0 ≤ 100

section
variable {plan : Plan} {qrCode : QrCode} {company : Company} {bankAccount : BankAccount}
  {transactionUuid : Uuid}

theorem main_eq :
    (newTransaction plan qrCode company bankAccount transactionUuid).mainCompanyTotalFeeCents
      = round ((qrCode.value : ℚ) - totalFee plan qrCode.value) := by
  change formatValueFromFloatToInt _ 0 = _
  rw [format_eq, pow_zero, mul_one, sub_sub, totalFee, add_comm]

theorem zro_eq :
    (newTransaction plan qrCode company bankAccount transactionUuid).zroTotalValueInCents
      = round (totalFee plan qrCode.value) := by
  change formatValueFromFloatToInt _ 0 = _
  rw [format_eq, pow_zero, mul_one, totalFee, add_comm]

/-- A fee within the value is negative just where the whole of a negative value is the fee. -/
theorem totalFee_nonneg_iff (hfee : plan.IsFee) {value : ℤ} (hle : totalFee plan value ≤ value) :
    0 ≤ totalFee plan value ↔
      ¬ (value < 0 ∧ plan.feeCashinInCents.getD 0 = 0 ∧ plan.feeCashinInPercent.getD 0 = 100) := by
  obtain ⟨hcents, hpercent, hmost⟩ := hfee
  rw [totalFee, feeValueByPercent] at hle ⊢
  generalize plan.feeCashinInCents.getD 0 = cents at hle hcents ⊢
  generalize plan.feeCashinInPercent.getD 0 = percent at hle hpercent hmost ⊢
  rcases lt_or_ge value 0 with hneg | hpos
  · have hneg' : (value : ℚ) < 0 := by exact_mod_cast hneg
    -- Less than the whole of a negative value exceeds it.
    have hwhole : cents = 0 ∧ percent = 100 := by
      constructor
      · nlinarith
      · by_contra hne
        have : percent < 100 := lt_of_le_of_ne hmost hne
        nlinarith
    refine iff_of_false ?_ fun h => h ⟨hneg, hwhole⟩
    rw [hwhole.1, hwhole.2]
    linarith
  · have hpos' : (0 : ℚ) ≤ value := by exact_mod_cast hpos
    refine iff_of_true (by positivity) ?_
    rintro ⟨hneg, -⟩
    omega

/-- **The split.**  It keeps the value unless the fee has half a cent, or is all of a negative
value. -/
theorem newTransaction_splits_iff (hfee : plan.IsFee) :
    SplitsValue plan (newTransaction plan qrCode company bankAccount transactionUuid) ↔
      Int.fract (totalFee plan qrCode.value) ≠ 1 / 2 ∧
        ¬ (qrCode.value < 0 ∧ plan.feeCashinInCents.getD 0 = 0 ∧
          plan.feeCashinInPercent.getD 0 = 100) := by
  have hvalue : (newTransaction plan qrCode company bankAccount transactionUuid).valueCents
      = qrCode.value := rfl
  constructor
  · rintro ⟨hsum, -, -, hnonneg⟩
    rw [main_eq, zro_eq, hvalue] at hsum hnonneg
    refine ⟨(round_parts_iff _ _).mp hsum, ?_⟩
    rintro ⟨hneg, hcents, hpercent⟩
    have hall : totalFee plan qrCode.value = qrCode.value := by
      rw [totalFee, feeValueByPercent, hcents, hpercent]
      ring
    have := (hnonneg hall.le).2
    rw [hall, round_intCast] at this
    omega
  · rintro ⟨hhalf, hwhole⟩
    have within : ∀ x : ℚ, |(round x : ℚ) - x| ≤ 1 := fun x => by
      rw [abs_sub_comm]
      exact (abs_sub_round x).trans (by norm_num)
    refine ⟨?_, ?_, ?_, ?_⟩
    · rw [main_eq, zro_eq, hvalue]
      exact (round_parts_iff _ _).mpr hhalf
    · rw [main_eq, hvalue]
      exact within _
    · rw [zro_eq, hvalue]
      exact within _
    · intro hle
      rw [hvalue] at hle
      rw [main_eq, zro_eq, round_nonneg_iff, round_nonneg_iff]
      have := (totalFee_nonneg_iff hfee hle).mpr hwhole
      exact ⟨by linarith, by linarith⟩

/-- A call that returns, where there was no transaction of the QR code, has created the one it
returns, with the plan of the company. -/
theorem execute_created {plans : Option ℕ → Option Plan} {before after : List Transaction}
    {t : Transaction}
    (hrun : HandleCreateTransactionQrCodeEventUseCase.execute plans qrCode before = .ok t after)
    (hnew : ∀ x ∈ before, qrCode.transactionUuid ≠ some x.uuid) :
    ∃ company plan bankAccount transactionUuid, qrCode.company = some company ∧
      plans company.plan = some plan ∧
        t = newTransaction plan qrCode company bankAccount transactionUuid ∧
          after = before ++ [t] := by
  rw [HandleCreateTransactionQrCodeEventUseCase.execute] at hrun
  cases huuid : qrCode.transactionUuid with
  | none =>
      rw [huuid] at hrun
      exact absurd hrun throw_ok
  | some transactionUuid =>
      cases hcompany : qrCode.company with
      | none =>
          rw [huuid, hcompany] at hrun
          exact absurd hrun throw_ok
      | some company =>
          have hfind : before.find? (·.uuid = transactionUuid) = none := by
            rw [List.find?_eq_none]
            intro x hx hsame
            rw [decide_eq_true_eq] at hsame
            exact hnew x hx (hsame ▸ huuid)
          rw [huuid, hcompany] at hrun
          dsimp only at hrun
          rw [get_bind_ok, hfind] at hrun
          obtain ⟨plan, hplan, hrun⟩ := orThrow_bind_ok.mp hrun
          obtain ⟨bankAccount, -, hrun⟩ := orThrow_bind_ok.mp hrun
          rw [modify_bind_ok, pure_ok] at hrun
          obtain ⟨rfl, rfl⟩ := hrun
          exact ⟨company, plan, bankAccount, transactionUuid, rfl, hplan, rfl, rfl⟩

/-- **The fee of a QR code.**  The transaction that is created splits its value unless the fee has
half a cent, or is all of a negative value. -/
theorem split_iff {plans : Option ℕ → Option Plan} {before after : List Transaction}
    {t : Transaction}
    (hrun : HandleCreateTransactionQrCodeEventUseCase.execute plans qrCode before = .ok t after)
    (hnew : ∀ x ∈ before, qrCode.transactionUuid ≠ some x.uuid)
    (hcompany : qrCode.company = some company) (hplan : plans company.plan = some plan)
    (hfee : plan.IsFee) :
    SplitsValue plan t ↔
      Int.fract (totalFee plan qrCode.value) ≠ 1 / 2 ∧
        ¬ (qrCode.value < 0 ∧ plan.feeCashinInCents.getD 0 = 0 ∧
          plan.feeCashinInPercent.getD 0 = 100) := by
  obtain ⟨company', plan', bankAccount, transactionUuid, hcompany', hplan', rfl, -⟩ :=
    execute_created hrun hnew
  obtain rfl := Option.some.inj (hcompany.symm.trans hcompany')
  obtain rfl := Option.some.inj (hplan.symm.trans hplan')
  exact newTransaction_splits_iff hfee

end

namespace Sample

def bankAccount : BankAccount := ⟨1, some "key@bank.com", some "EMAIL"⟩

/-- One per cent of the value. -/
def onePercent : Plan := ⟨1, some 0, some 1⟩

/-- The QR code of a value. -/
def qrCode (value : ℤ) : QrCode :=
  ⟨value, some bankAccount, 1, some ⟨1, some 1⟩, none, some 1, "1", "txid"⟩

def plans : Option ℕ → Option Plan := fun _ => some onePercent

end Sample

/-- What is created for a QR code. -/
def Sample.created (value : ℤ) : Transaction :=
  newTransaction Sample.onePercent (Sample.qrCode value) ⟨1, some 1⟩ Sample.bankAccount 1

/-- One per cent of 3.00. -/
theorem split_three :
    SplitsValue Sample.onePercent (Sample.created 300) ↔
      Int.fract (totalFee Sample.onePercent 300) ≠ 1 / 2 ∧
        ¬ ((300 : ℤ) < 0 ∧ (0 : ℚ) = 0 ∧ (1 : ℚ) = 100) := by
  have hrun : HandleCreateTransactionQrCodeEventUseCase.execute Sample.plans (Sample.qrCode 300) []
      = .ok (Sample.created 300) [Sample.created 300] := rfl
  exact split_iff hrun (by simp) rfl rfl ⟨by decide, by decide⟩

/-- One per cent of 0.50 is half a cent: 0.50 go to the main company, and 0.01 are the fee. -/
theorem half_cent_twice :
    ¬ ∀ (plans : Option ℕ → Option Plan) (qrCode : QrCode) (plan : Plan) (company : Company)
        (before after : List Transaction) (t : Transaction),
      HandleCreateTransactionQrCodeEventUseCase.execute plans qrCode before = .ok t after →
        (∀ x ∈ before, qrCode.transactionUuid ≠ some x.uuid) → qrCode.company = some company →
          plans company.plan = some plan → plan.IsFee → SplitsValue plan t := by
  intro h
  have splits := h Sample.plans (Sample.qrCode 50) Sample.onePercent ⟨1, some 1⟩ [] _ _ rfl
    (by simp) rfl rfl ⟨by decide, by decide⟩
  exact absurd splits.sum (by decide +kernel)

end ZroServices.PixZroPay
