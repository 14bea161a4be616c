import ZroServices.Otc.CryptoReports

/-!
# OTC — the two calculations of a crypto report

The job and the document fill in the figures of a report by the same formulas, except that they
scale the percentage of a first transaction differently.  That percentage is 0 whenever it is a
number, so the two give the same figures for every history.

Both divide by the balance, for an average price, and by the loss, for the percentage, and check
neither.  They agree and never divide by zero exactly when no transaction that is computed would
bring the balance to 0 while there is an average price, or make a loss of 0 (`agree_iff`).
-/

namespace ZroServices.Otc.CryptoReports

open Foundation

/-- The analysis of a history by the job, one transaction after the other. -/
def syncTransactions (services : Services) (currency : Currency) :
    Option CryptoReport → List CryptoReport → App (List CryptoReport)
  | _, [] => return []
  | lastTransaction, transaction :: transactions => do
      let (transaction, _) ← analyseTransaction services 10000 currency lastTransaction transaction
      let rest ← syncTransactions services currency (some transaction) transactions
      return transaction :: rest

namespace CryptoReport

variable (transaction : CryptoReport) (scale : ℤ) (decimal : ℕ)

/-- What the figures of a transaction after `last` are divided by. -/
def divisors (last : Option CryptoReport) : List ℤ :=
  let figures := transaction.figures scale decimal last
  if transaction.isTypeBeneficiary then
    match last with
    | none => []
    | some last => if falsy last.avgPrice then [] else [figures.cryptoBalance.getD 0]
  else [figures.loss.getD 0]

/-- A transaction of a given price after its analysis. -/
def analysed (last : Option CryptoReport) : CryptoReport :=
  if transaction.lacksFigures then transaction.figures scale decimal last else transaction

/-- A price and the amount of money are given. -/
def Given : Prop := ¬ falsy transaction.cryptoPrice ∧ transaction.fiatAmount.isSome

/-- What a transaction moves does not bring the balance after `last` to 0, and is worth something
that is not lost in rounding. -/
def Divisible : Option CryptoReport → Prop
  | none =>
      transaction.isTypeBeneficiary ∨
        transaction.cryptoAmount ≠ 0 ∧ transaction.fiatAmount.getD 0 ≠ 0
  | some last =>
      let worth := 2 * (transaction.cryptoAmount * last.avgPrice.getD 0)
      if transaction.isTypeBeneficiary then
        falsy last.avgPrice ∨ last.cryptoBalance.getD 0 + transaction.cryptoAmount ≠ 0
      else if last.cryptoBalance.getD 0 < transaction.cryptoAmount then
        transaction.fiatAmount.getD 0 ≠ 0
      else ¬ (-10 ^ decimal < worth ∧ worth ≤ 10 ^ decimal)

end CryptoReport

/-- A history after its analysis. -/
def history (scale : ℤ) (decimal : ℕ) : Option CryptoReport → List CryptoReport → List CryptoReport
  | _, [] => []
  | last, transaction :: transactions =>
      let transaction := transaction.analysed scale decimal last
      transaction :: history scale decimal (some transaction) transactions

/-- No transaction that is computed has figures that are divided by zero. -/
def NeverByZero (scale : ℤ) (decimal : ℕ) : Option CryptoReport → List CryptoReport → Prop
  | _, [] => True
  | last, transaction :: transactions =>
      (transaction.lacksFigures → 0 ∉ transaction.divisors scale decimal last) ∧
        NeverByZero scale decimal (some (transaction.analysed scale decimal last)) transactions

/-- Every transaction that is computed can be divided by what it is divided by. -/
def AllDivisible (decimal : ℕ) : Option CryptoReport → List CryptoReport → Prop
  | _, [] => True
  | last, transaction :: transactions =>
      (transaction.lacksFigures → transaction.Divisible decimal last) ∧
        AllDivisible decimal (some (transaction.analysed 100 decimal last)) transactions

/-- The two calculations of a history give the same figures, as long as the database takes them, and
neither divides by zero. -/
structure Agree (currency : Currency) (transactions : List CryptoReport) : Prop where
  same : ∀ services w, (∀ transaction, services.update transaction = .ok ()) →
    ∃ reports w', analyseTransactions services currency none transactions w = .ok reports w' ∧
      syncTransactions services currency none transactions w = .ok reports w'
  document : NeverByZero 100 currency.decimal none transactions
  job : NeverByZero 10000 currency.decimal none transactions

variable {services : Services} {currency : Currency} {transaction last : CryptoReport}
  {transactions : List CryptoReport} {scale : ℤ} {decimal : ℕ} {w : World}

/-! ### The same figures -/

/-- The profit of a first transaction is 0, unless its loss is. -/
theorem firstFigures_scale (transaction : CryptoReport) (scale scale' : ℤ) :
    transaction.firstFigures scale = transaction.firstFigures scale' := by
  simp only [CryptoReport.firstFigures]
  congr 1
  by_cases hbeneficiary : transaction.isTypeBeneficiary
  · simp only [if_pos hbeneficiary]
  · simp only [hbeneficiary, if_false, false_or, Option.getD_some, mul_zero, sub_zero]
    by_cases hneg : transaction.movement < 0
    · simp only [if_pos hneg, zero_mul]
    · simp only [if_neg hneg, sub_self, if_true]

theorem figures_scale (transaction : CryptoReport) (scale scale' : ℤ) (decimal : ℕ)
    (last : Option CryptoReport) :
    transaction.figures scale decimal last = transaction.figures scale' decimal last := by
  cases last with
  | none => exact firstFigures_scale transaction scale scale'
  | some last => rfl

theorem analyseTransaction_scale (services : Services) (scale scale' : ℤ) (currency : Currency)
    (last : Option CryptoReport) (transaction : CryptoReport) :
    analyseTransaction services scale currency last transaction =
      analyseTransaction services scale' currency last transaction := by
  simp only [analyseTransaction, figures_scale _ scale scale']

/-- The job and the document do the same to a history, whatever is given and whatever raises. -/
theorem syncTransactions_eq (services : Services) (currency : Currency)
    (last : Option CryptoReport) (transactions : List CryptoReport) :
    syncTransactions services currency last transactions =
      analyseTransactions services currency last transactions := by
  induction transactions generalizing last with
  | nil => rfl
  | cons transaction transactions ih =>
      simp only [syncTransactions, analyseTransactions, ih,
        analyseTransaction_scale services 10000 100]

theorem neverByZero_scale (scale scale' : ℤ) (decimal : ℕ) (last : Option CryptoReport)
    (transactions : List CryptoReport) :
    NeverByZero scale decimal last transactions ↔
      NeverByZero scale' decimal last transactions := by
  induction transactions generalizing last with
  | nil => rfl
  | cons transaction transactions ih =>
      simp only [NeverByZero, CryptoReport.divisors, CryptoReport.analysed,
        figures_scale _ scale scale', ih]

/-! ### The divisors -/

theorem zero_mem_divisors_first (hbeneficiary : ¬ transaction.isTypeBeneficiary) :
    0 ∈ transaction.divisors scale decimal none ↔
      transaction.cryptoAmount = 0 ∨ transaction.fiatAmount.getD 0 = 0 := by
  simp only [CryptoReport.divisors, hbeneficiary, if_false, CryptoReport.figures,
    CryptoReport.firstFigures, false_or, Option.getD_some, mul_zero, sub_zero, List.mem_singleton,
    CryptoReport.movement]
  split_ifs with hneg
  · omega
  · omega

/-- The loss is 0 when what was sold is worth less than rounding keeps. -/
theorem loss_eq_zero_iff (fiat price : ℤ) (amount decimal : ℕ) :
    fiat - formatValueFromFloatToInt (fiat - formatValueFromIntToFloat amount decimal * price) 0 =
        0 ↔
      -10 ^ decimal < 2 * (amount * price) ∧ 2 * (amount * price) ≤ 10 ^ decimal := by
  have hpos : (0 : ℚ) < 10 ^ decimal := by positivity
  have hworth : formatValueFromIntToFloat amount decimal * price =
      (amount * price : ℤ) / 10 ^ decimal := by
    rw [formatValueFromIntToFloat]
    push_cast
    ring
  rw [sub_eq_zero, eq_comm, formatValueFromFloatToInt, Int.floor_eq_iff, hworth, pow_zero, mul_one,
    ← Int.cast_lt (R := ℚ), ← Int.cast_le (R := ℚ)]
  generalize hw : amount * price = worth
  have hhigh : (worth : ℚ) / 10 ^ decimal ≤ 1 / 2 ↔ 2 * (worth : ℚ) ≤ 10 ^ decimal := by
    rw [div_le_iff₀ hpos]
    constructor <;> intro h <;> linarith
  have hlow : -(1 / 2) < (worth : ℚ) / 10 ^ decimal ↔ -10 ^ decimal < 2 * (worth : ℚ) := by
    rw [lt_div_iff₀ hpos]
    constructor <;> intro h <;> linarith
  push_cast
  rw [← hhigh, ← hlow]
  constructor
  · rintro ⟨h, h'⟩
    exact ⟨by linarith, by linarith⟩
  · rintro ⟨h, h'⟩
    exact ⟨by linarith, by linarith⟩

theorem divisible_iff (scale : ℤ) (last : Option CryptoReport) :
    transaction.Divisible decimal last ↔ 0 ∉ transaction.divisors scale decimal last := by
  by_cases hbeneficiary : transaction.isTypeBeneficiary
  · cases last with
    | none => simp [CryptoReport.Divisible, CryptoReport.divisors, hbeneficiary]
    | some last =>
        by_cases havg : falsy last.avgPrice
        · simp [CryptoReport.Divisible, CryptoReport.divisors, hbeneficiary, havg]
        · simp [CryptoReport.Divisible, CryptoReport.divisors, hbeneficiary, havg,
            CryptoReport.figures, CryptoReport.nextFigures, eq_comm]
  · cases last with
    | none =>
        rw [zero_mem_divisors_first hbeneficiary, not_or, CryptoReport.Divisible,
          or_iff_right hbeneficiary]
    | some last =>
        simp only [CryptoReport.Divisible, hbeneficiary, if_false, CryptoReport.divisors,
          CryptoReport.figures, CryptoReport.nextFigures, false_or, Option.getD_some,
          List.mem_singleton]
        by_cases hneg : last.cryptoBalance.getD 0 < transaction.cryptoAmount
        · rw [if_pos hneg, if_pos (sub_neg.mpr hneg), sub_zero, ne_comm]
        · rw [if_neg hneg, if_neg fun h => hneg (sub_neg.mp h), eq_comm, loss_eq_zero_iff]

/-! ### A history -/

theorem neverByZero_iff (last : Option CryptoReport) (transactions : List CryptoReport) :
    NeverByZero 100 decimal last transactions ↔ AllDivisible decimal last transactions := by
  induction transactions generalizing last with
  | nil => rfl
  | cons transaction transactions ih =>
      simp only [NeverByZero, AllDivisible, divisible_iff 100, ih]

/-- With its price given, a transaction is analysed without a service. -/
theorem analyseTransaction_ok (hupdate : ∀ transaction, services.update transaction = .ok ())
    (hgiven : transaction.Given) (last : Option CryptoReport) (w : World) :
    ∃ updated w', analyseTransaction services scale currency last transaction w =
      .ok (transaction.analysed scale currency.decimal last, updated) w' := by
  have hprice : findPrice services currency transaction = .ok (transaction, false) := by
    rw [findPrice, if_neg hgiven.1]
    rfl
  have hcall : (call (findPrice services currency transaction) : App _) w =
      .ok (transaction, false) w := call_ok.mpr ⟨hprice, rfl⟩
  rw [analyseTransaction, bind_of_ok hcall, CryptoReport.analysed]
  dsimp only
  by_cases hlacks : transaction.lacksFigures
  · rw [if_pos (.inr hlacks), if_pos hlacks]
    have hrow : (call (services.update (transaction.figures scale currency.decimal last)) : App _)
        w = .ok () w := call_ok.mpr ⟨hupdate _, rfl⟩
    have hupdated : updateCryptoReport services
          (transaction.figures scale currency.decimal last) w = .ok ()
        { w with cryptoReports :=
            w.cryptoReports.set (transaction.figures scale currency.decimal last) } := by
      rw [updateCryptoReport, bind_of_ok hrow]
      rfl
    exact ⟨true, _, bind_of_ok hupdated⟩
  · rw [if_neg (by simp [hlacks]), if_neg hlacks]
    exact ⟨false, w, rfl⟩

theorem analyseTransactions_ok (hupdate : ∀ transaction, services.update transaction = .ok ())
    (hgiven : ∀ transaction ∈ transactions, transaction.Given) (last : Option CryptoReport)
    (w : World) :
    ∃ w', analyseTransactions services currency last transactions w =
      .ok (history 100 currency.decimal last transactions) w' := by
  induction transactions generalizing last w with
  | nil => exact ⟨w, rfl⟩
  | cons transaction transactions ih =>
      obtain ⟨hfirst, hrest⟩ := List.forall_mem_cons.mp hgiven
      obtain ⟨updated, w₁, hanalysed⟩ := analyseTransaction_ok hupdate hfirst last w
      obtain ⟨w₂, hhistory⟩ := ih hrest (some (transaction.analysed 100 currency.decimal last)) w₁
      refine ⟨w₂, ?_⟩
      rw [analyseTransactions, bind_of_ok hanalysed]
      exact bind_of_ok hhistory

/-- The two calculations agree on a history with given prices, and never divide by zero, when every
transaction that is computed is divisible. -/
theorem agree_iff (hgiven : ∀ transaction ∈ transactions, transaction.Given) :
    Agree currency transactions ↔ AllDivisible currency.decimal none transactions := by
  rw [← neverByZero_iff]
  constructor
  · exact fun h => h.document
  · intro h
    refine ⟨fun services w hupdate => ?_, h, (neverByZero_scale 10000 100 _ _ _).mpr h⟩
    obtain ⟨w', hrun⟩ := analyseTransactions_ok hupdate hgiven none w
    exact ⟨_, w', hrun, (congrFun (syncTransactions_eq services currency none transactions) w).trans
      hrun⟩

/-! ### Two histories -/

namespace Dust

def btc : Currency := ⟨1, "BTC", 8, true⟩

/-- One coin is bought at 100. -/
def oneBought : CryptoReport :=
  ⟨1, .BUY, 100000000, some 100, none, some 100, none, none, none, none, none, 1, 1, 0⟩

/-- Some of it is sold. -/
def oneSold (cryptoAmount : ℕ) (fiatAmount : ℤ) : CryptoReport :=
  ⟨2, .SELL, cryptoAmount, some 100, none, some fiatAmount, none, none, none, none, none, 1, 1, 1⟩

end Dust

open Dust

theorem agree_iff_half : Agree btc [oneBought, oneSold 50000000 50] := by
  refine (agree_iff ?_).mpr ⟨fun _ => .inl (by decide), fun _ => ?_, trivial⟩
  · simp [CryptoReport.Given, oneBought, oneSold, falsy]
  · unfold CryptoReport.Divisible
    decide +kernel

/-- What is sold is worth less than one half, and the loss is 0. -/
theorem not_agree :
    (∀ transaction ∈ [oneBought, oneSold 100000 1], transaction.Given) ∧
      ¬Agree btc [oneBought, oneSold 100000 1] := by
  refine ⟨by simp [CryptoReport.Given, oneBought, oneSold, falsy], fun h => ?_⟩
  obtain ⟨-, hsold, -⟩ := h.document
  exact hsold (by decide +kernel) (by decide +kernel)

end ZroServices.Otc.CryptoReports
