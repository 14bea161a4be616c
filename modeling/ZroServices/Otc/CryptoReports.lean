import ZroServices.Otc.Cashback

/-!
# OTC — crypto reports

A crypto report is one movement of a user's crypto currency, with figures that are computed from the
report before it: the balance, the average price, profit and loss.  The figures are filled in when a
document is asked for (`getCryptoReport`), and by a job that goes through all reports a page at a
time (`syncUpdateCryptoReport`).  Neither looks at what it has filled in before by a mark of its own:
a figure that is missing or 0 is computed again.

The document is a database transaction; the job is none, and keeps its place in the cache.  Numbers
are exact here, and the database may refuse a row.
-/

namespace ZroServices.Otc.CryptoReports

open Foundation
export Cashbacks (Currency formatValueFromFloatToInt formatValueFromIntToFloat)

inductive CryptoReportType where
  | BUY
  | SELL
  | DEPOSIT
  | WITHDRAWAL
  | CASHBACK
  deriving DecidableEq, Repr

structure CryptoReport where
  id : Uuid
  type : CryptoReportType
  cryptoAmount : ℕ
  cryptoPrice : Option ℤ
  accuratePrice : Option Bool
  fiatAmount : Option ℤ
  avgPrice : Option ℤ
  cryptoBalance : Option ℤ
  profit : Option ℤ
  loss : Option ℤ
  profitLossPercentage : Option ℤ
  user : Uuid
  crypto : CurrencyId
  createdAt : ℤ
  deriving DecidableEq, Repr

instance : Keyed CryptoReport Uuid := ⟨CryptoReport.id⟩

/-- Where the job is. -/
structure CryptoReportCurrentPage where
  lastUpdatedCryptoReportId : Uuid
  lastUpdatedCryptoReportCreatedAt : ℤ
  deriving DecidableEq, Repr

structure World where
  cryptoReports : Table CryptoReport
  currentPage : Option CryptoReportCurrentPage
  /-- The reports that the job has analysed, in order.  Nothing reads it. -/
  analysed : List Uuid

inductive Exception where
  | userNotFound (user : Uuid)
  | currencyNotFound
  | cryptoTransactionsNotFound
  | streamQuotationNotFound
  | historicalCryptoPriceGateway
  | service (message : String)
  deriving DecidableEq, Repr

abbrev App := EStateM Exception World

/-- The rows of before. -/
def World.rollback (before after : World) : World :=
  { after with cryptoReports := before.cryptoReports }

/-- What the other services, the gateways and the database answer. -/
structure Services where
  now : ℤ
  getUserByUuid : Except Exception Bool
  getCurrencyBySymbol : Except Exception (Option Currency)
  getCurrencyById : CurrencyId → Except Exception (Option Currency)
  /-- The buy and the sell price. -/
  getStreamQuotationByBaseCurrency : CurrencyId → Except Exception (Option (ℚ × ℚ))
  getHistoricalCryptoPrice : CurrencyId → ℤ → Except Exception (Option ℤ)
  /-- The database takes a row. -/
  update : CryptoReport → Except Exception Unit
  /-- The document is generated, and uploaded. -/
  deliver : Except Exception Unit
  /-- The order in which the database returns rows of one instant. -/
  ties : Uuid → ℕ

/-- A column that is missing or 0. -/
def falsy (column : Option ℤ) : Prop := column.getD 0 = 0

instance (column : Option ℤ) : Decidable (falsy column) := inferInstanceAs (Decidable (_ = _))

/-! ### Figures -/

namespace CryptoReport

variable (transaction : CryptoReport)

def isTypeBeneficiary : Prop :=
  transaction.type = .BUY ∨ transaction.type = .DEPOSIT ∨ transaction.type = .CASHBACK

instance : Decidable transaction.isTypeBeneficiary := inferInstanceAs (Decidable (_ ∨ _))

/-- What the report moves. -/
def movement : ℤ :=
  if transaction.isTypeBeneficiary then transaction.cryptoAmount else -transaction.cryptoAmount

def lacksFigures : Prop :=
  falsy transaction.avgPrice ∨ falsy transaction.cryptoBalance ∨ falsy transaction.profit ∨
    falsy transaction.loss ∨ falsy transaction.profitLossPercentage

instance : Decidable transaction.lacksFigures := inferInstanceAs (Decidable (_ ∨ _))

/-- The estimated price. -/
def withPrice (decimal : ℕ) (price : ℤ) : CryptoReport :=
  { transaction with
    cryptoPrice := some price
    fiatAmount := some (formatValueFromFloatToInt
      (price * formatValueFromIntToFloat transaction.cryptoAmount decimal) 0)
    accuratePrice := some false }

/-- The figures of a first transaction; the two use cases scale the percentage differently.  It is
no number when the loss is 0, and 0 otherwise. -/
def firstFigures (scale : ℤ) : CryptoReport :=
  let avgPrice := if transaction.isTypeBeneficiary then transaction.cryptoPrice else some 0
  let cryptoBalance := transaction.movement
  let fiatAmount := transaction.fiatAmount.getD 0
  let profit :=
    if transaction.isTypeBeneficiary ∨ cryptoBalance < 0 then 0
    else fiatAmount - transaction.cryptoAmount * avgPrice.getD 0
  let loss := if transaction.isTypeBeneficiary then 0 else fiatAmount - profit
  { transaction with
    avgPrice := avgPrice
    cryptoBalance := some cryptoBalance
    profit := some profit
    loss := some loss
    profitLossPercentage :=
      if transaction.isTypeBeneficiary then some 0
      else if loss = 0 then none
      else some (profit * scale / loss) }

/-- The figures of a transaction after `last`. -/
def nextFigures (decimal : ℕ) (last : CryptoReport) : CryptoReport :=
  let lastBalance := last.cryptoBalance.getD 0
  let cryptoBalance :=
    if transaction.isTypeBeneficiary then lastBalance + transaction.cryptoAmount
    else lastBalance - transaction.cryptoAmount
  let avgPrice :=
    if transaction.isTypeBeneficiary then
      if falsy last.avgPrice then transaction.cryptoPrice
      else some (formatValueFromFloatToInt
        ((last.avgPrice.getD 0 * lastBalance +
          transaction.cryptoAmount * transaction.cryptoPrice.getD 0) / cryptoBalance) 0)
    else last.avgPrice
  let fiatAmount := transaction.fiatAmount.getD 0
  let profit :=
    if transaction.isTypeBeneficiary ∨ cryptoBalance < 0 then 0
    else formatValueFromFloatToInt
      (fiatAmount - formatValueFromIntToFloat transaction.cryptoAmount decimal * avgPrice.getD 0) 0
  let loss := if transaction.isTypeBeneficiary then 0 else fiatAmount - profit
  { transaction with
    avgPrice := avgPrice
    cryptoBalance := some cryptoBalance
    profit := some profit
    loss := some loss
    profitLossPercentage :=
      if transaction.isTypeBeneficiary then some 0
      else some (formatValueFromFloatToInt
        (formatValueFromFloatToInt (profit * 100) 2 / loss) 0) }

def figures (scale : ℤ) (decimal : ℕ) : Option CryptoReport → CryptoReport
  | none => transaction.firstFigures scale
  | some last => transaction.nextFigures decimal last

/-- The average price after `last`, on which neither scale has an influence. -/
def averagePrice (last : Option CryptoReport) : Option ℤ := (transaction.figures 100 0 last).avgPrice

end CryptoReport

section

variable (services : Services)

/-- The price of the day, or that of the gateway. -/
def estimatePrice (currency : Currency) (transaction : CryptoReport) : Except Exception ℤ :=
  if localDay transaction.createdAt = localDay services.now then do
    match ← services.getStreamQuotationByBaseCurrency currency.id with
    | none => .error .streamQuotationNotFound
    | some (buy, sell) =>
        if buy = 0 ∨ sell = 0 then .error .streamQuotationNotFound
        else return formatValueFromFloatToInt ((buy + sell) / 2) 2
  else do
    match ← services.getHistoricalCryptoPrice currency.id transaction.createdAt with
    | none => .error .historicalCryptoPriceGateway
    | some price => if price = 0 then .error .historicalCryptoPriceGateway else return price

/-- The transaction with a price, and whether the price is new. -/
def findPrice (currency : Currency) (transaction : CryptoReport) :
    Except Exception (CryptoReport × Bool) :=
  if falsy transaction.cryptoPrice then do
    let price ← estimatePrice services currency transaction
    return (transaction.withPrice currency.decimal price, true)
  else return (transaction, false)

/-- `CryptoReportRepository.update`. -/
def updateCryptoReport (cryptoReport : CryptoReport) : App Unit := do
  call (services.update cryptoReport)
  modify fun w => { w with cryptoReports := w.cryptoReports.set cryptoReport }

/-- The analysis of one transaction, and whether it was updated. -/
def analyseTransaction (scale : ℤ) (currency : Currency) (lastTransaction : Option CryptoReport)
    (transaction : CryptoReport) : App (CryptoReport × Bool) := do
  let (transaction, update) ← call (findPrice services currency transaction)
  if update ∨ transaction.lacksFigures then do
    let transaction := transaction.figures scale currency.decimal lastTransaction
    updateCryptoReport services transaction
    return (transaction, true)
  else return (transaction, false)

end

/-! ### Queries -/

/-- The order by creation; rows of one instant come as the database likes. -/
def before (ties : Uuid → ℕ) (a b : CryptoReport) : Prop :=
  a.createdAt < b.createdAt ∨ a.createdAt = b.createdAt ∧ ties a.id ≤ ties b.id

instance (ties : Uuid → ℕ) : DecidableRel (before ties) :=
  fun _ _ => inferInstanceAs (Decidable (_ ∨ _))

/-- 1 January 2020, when crypto transactions began. -/
def startDate : ℤ := 18262 * msPerDay + midnight

def endOfDay (t : ℤ) : ℤ := startOf .day t + msPerDay - 1

/-- A transaction of a user in a currency. -/
def CryptoReport.Of (transaction : CryptoReport) (user : Uuid) (crypto : CurrencyId) : Prop :=
  transaction.user = user ∧ transaction.crypto = crypto

instance (transaction : CryptoReport) (user : Uuid) (crypto : CurrencyId) :
    Decidable (transaction.Of user crypto) := inferInstanceAs (Decidable (_ ∧ _))

/-- A window of days; no window without both ends. -/
def between (createdAtStart createdAtEnd : Option ℤ) (t : ℤ) : Prop :=
  match createdAtStart, createdAtEnd with
  | some createdAtStart, some createdAtEnd =>
      startOf .day createdAtStart ≤ t ∧ t ≤ endOfDay createdAtEnd
  | _, _ => True

instance (createdAtStart createdAtEnd : Option ℤ) (t : ℤ) :
    Decidable (between createdAtStart createdAtEnd t) := by
  unfold between
  split <;> infer_instance

namespace World

variable (w : World) (ties : Uuid → ℕ)

def getAllByUserAndCurrency (user : Uuid) (crypto : CurrencyId)
    (createdAtStart createdAtEnd : Option ℤ) : List CryptoReport :=
  (w.cryptoReports.rows.filter fun r =>
    decide (r.Of user crypto ∧ between createdAtStart createdAtEnd r.createdAt)).insertionSort
      (before ties)

def getAllFromDate (createdAtStart : ℤ) (pageSize : ℕ) : List CryptoReport :=
  ((w.cryptoReports.rows.filter fun r => decide (createdAtStart ≤ r.createdAt)).insertionSort
    (before ties)).take pageSize

/-- The second of the last two transactions up to an instant. -/
def getLastBeforeDateByUserAndCurrency (user : Uuid) (crypto : CurrencyId) (createdAt : ℤ) :
    Option CryptoReport :=
  ((w.cryptoReports.rows.filter fun r =>
    decide (r.Of user crypto ∧ r.createdAt ≤ createdAt)).insertionSort
      fun a b => before ties b a)[1]?

end World

/-! ### The document -/

/-- The analysis of transactions one after the other. -/
def analyseTransactions (services : Services) (currency : Currency) :
    Option CryptoReport → List CryptoReport → App (List CryptoReport)
  | _, [] => return []
  | lastTransaction, transaction :: transactions => do
      let (transaction, _) ← analyseTransaction services 100 currency lastTransaction transaction
      let rest ← analyseTransactions services currency (some transaction) transactions
      return transaction :: rest

/-- `transactions.splice(deleteLength)`. -/
def splice (l : List CryptoReport) (deleteLength : ℤ) : List CryptoReport :=
  if 0 ≤ deleteLength then l.drop deleteLength.toNat
  else l.drop (l.length - (-deleteLength).toNat)

/-- `GetCryptoReportByCurrencyAndFormatUseCase`, up to the document. -/
def getCryptoReport (services : Services) (user : Uuid) (createdAtStart createdAtEnd : Option ℤ) :
    App (List CryptoReport) := do
  let userFound ← call services.getUserByUuid
  throwIf (userFound = false) (.userNotFound user)
  let currencyFound ← call services.getCurrencyBySymbol
  let currency ← orThrow currencyFound .currencyNotFound
  let w ← get
  let transactions :=
    w.getAllByUserAndCurrency services.ties user currency.id createdAtStart createdAtEnd
  match transactions with
  | [] => throw .cryptoTransactionsNotFound
  | firstTransaction :: _ => do
      let all :=
        if falsy firstTransaction.avgPrice ∨ falsy firstTransaction.cryptoBalance then
          w.getAllByUserAndCurrency services.ties user currency.id (some startDate) createdAtEnd
        else transactions
      let analysedTransactions ← analyseTransactions services currency none all
      call services.deliver
      return splice analysedTransactions (all.length - transactions.length)

/-! ### The job -/

section

variable (services : Services)

/-- The transaction before, as the job finds it: among those that it has just updated, which then
leaves them, or in the database. -/
def findLast (newUpdates : List CryptoReport) (transaction : CryptoReport) :
    App (Option CryptoReport × List CryptoReport) := do
  match newUpdates.find? fun r => decide (r.Of transaction.user transaction.crypto) with
  | some lastTransaction => return (some lastTransaction, newUpdates.erase lastTransaction)
  | none => do
      let w ← get
      return (w.getLastBeforeDateByUserAndCurrency services.ties transaction.user
        transaction.crypto transaction.createdAt, newUpdates)

/-- A page, one transaction after the other; it ends with the job's new place. -/
def syncPage : Option CryptoReportCurrentPage → List CryptoReport → List CryptoReport →
    App (Option CryptoReportCurrentPage)
  | currentPage, _, [] => return currentPage
  | currentPage, newUpdates, transaction :: transactions =>
      if currentPage.map (·.lastUpdatedCryptoReportId) = some transaction.id then
        syncPage currentPage newUpdates transactions
      else do
        let currencyFound ← call (services.getCurrencyById transaction.crypto)
        let currency ← orThrow currencyFound .currencyNotFound
        let (lastTransaction, newUpdates) ← findLast services newUpdates transaction
        let (analysed, updated) ←
          analyseTransaction services 10000 currency lastTransaction transaction
        modify fun w => { w with analysed := w.analysed ++ [analysed.id] }
        syncPage (some ⟨analysed.id, analysed.createdAt⟩)
          (if updated then newUpdates ++ [analysed] else newUpdates) transactions

/-- `SyncUpdateCryptoReportUseCase`. -/
def syncUpdateCryptoReport (pageSize : ℕ) : App Unit := do
  let w ← get
  let createdAtStart := (w.currentPage.map (·.lastUpdatedCryptoReportCreatedAt)).getD startDate
  match w.getAllFromDate services.ties createdAtStart pageSize with
  | [] => return
  | transactions => do
      let currentPage ← syncPage services w.currentPage [] transactions
      modify fun w => { w with currentPage := currentPage }

end

/-! ### The analysis of one transaction -/

/-- The same transaction, with other figures. -/
structure CryptoReport.Same (r r' : CryptoReport) : Prop where
  id : r'.id = r.id
  type : r'.type = r.type
  cryptoAmount : r'.cryptoAmount = r.cryptoAmount
  user : r'.user = r.user
  crypto : r'.crypto = r.crypto
  createdAt : r'.createdAt = r.createdAt

/-- Every currency and every price is found, and the database takes every row. -/
structure Services.Answers (services : Services) : Prop where
  currency : ∀ crypto, ∃ currency, services.getCurrencyById crypto = .ok (some currency)
  price : ∀ currency transaction, ∃ price, estimatePrice services currency transaction = .ok price
  update : ∀ transaction, services.update transaction = .ok ()

/-- The price and the figures are there. -/
def CryptoReport.Complete (r : CryptoReport) : Prop := ¬ falsy r.cryptoPrice ∧ ¬ r.lacksFigures

instance (r : CryptoReport) : Decidable r.Complete := inferInstanceAs (Decidable (_ ∧ _))

section

variable {services : Services} {currency : Currency} {w : World} {r : CryptoReport}

theorem CryptoReport.Same.refl (r : CryptoReport) : r.Same r := ⟨rfl, rfl, rfl, rfl, rfl, rfl⟩

theorem CryptoReport.Same.movement {r' : CryptoReport} (h : r.Same r') :
    r'.movement = r.movement := by
  have htype : r'.isTypeBeneficiary ↔ r.isTypeBeneficiary := by
    rw [CryptoReport.isTypeBeneficiary, CryptoReport.isTypeBeneficiary, h.type]
  simp only [CryptoReport.movement, htype, h.cryptoAmount]

theorem CryptoReport.Same.trans {r' r'' : CryptoReport} (h : r.Same r') (h' : r'.Same r'') :
    r.Same r'' :=
  ⟨h'.id.trans h.id, h'.type.trans h.type, h'.cryptoAmount.trans h.cryptoAmount,
    h'.user.trans h.user, h'.crypto.trans h.crypto, h'.createdAt.trans h.createdAt⟩

theorem same_figures (scale : ℤ) (decimal : ℕ) (last : Option CryptoReport) :
    r.Same (r.figures scale decimal last) := by
  cases last with
  | none => exact ⟨rfl, rfl, rfl, rfl, rfl, rfl⟩
  | some last => exact ⟨rfl, rfl, rfl, rfl, rfl, rfl⟩

/-- The balance goes on from that of the transaction before, which is 0 when it is not there. -/
theorem cryptoBalance_figures (scale : ℤ) (decimal : ℕ) (last : Option CryptoReport) :
    (r.figures scale decimal last).cryptoBalance =
      some ((last.bind CryptoReport.cryptoBalance).getD 0 + r.movement) := by
  cases last with
  | none =>
      rw [Option.bind_none, Option.getD_none, zero_add]
      rfl
  | some last =>
      rw [Option.bind_some, CryptoReport.movement]
      simp only [CryptoReport.figures, CryptoReport.nextFigures]
      split
      · rfl
      · rw [sub_eq_add_neg]

theorem avgPrice_figures (scale : ℤ) (decimal : ℕ) (last : Option CryptoReport) :
    (r.figures scale decimal last).avgPrice =
      (r.figures scale decimal last).averagePrice last := by
  cases last with
  | none => rfl
  | some last => rfl

/-- A transaction that is complete is left as it is, any other one gets its figures. -/
theorem outcome_analyseTransaction (scale : ℤ) (last : Option CryptoReport) :
    Outcome (analyseTransaction services scale currency last r) w
      (fun (r', updated) w' => r.Same r' ∧
        (¬ r.Complete ∧ updated = true ∧ w' = { w with cryptoReports := w.cryptoReports.set r' } ∧
            r'.cryptoBalance = some ((last.bind CryptoReport.cryptoBalance).getD 0 + r.movement) ∧
              r'.avgPrice = r'.averagePrice last ∨
          r.Complete ∧ updated = false ∧ w' = w ∧ r' = r))
      (fun _ w' => w' = w ∧ ¬ services.Answers) := by
  rw [analyseTransaction, outcome_bind, outcome_call]
  refine ⟨fun e he => ⟨rfl, fun hanswers => ?_⟩, fun (r₁, update) hprice => ?_⟩
  · obtain ⟨price, hprice⟩ := hanswers.price currency r
    rw [findPrice, hprice] at he
    split at he
    · cases he
    · cases he
  -- a price that is found is new, and one that is there stays
  have hfound : r.Same r₁ ∧ (update = true ∧ falsy r.cryptoPrice ∨
      update = false ∧ ¬ falsy r.cryptoPrice ∧ r₁ = r) := by
    rw [findPrice] at hprice
    split at hprice
    · next hfalsy =>
      cases hestimate : estimatePrice services currency r with
      | error e =>
          rw [hestimate] at hprice
          cases hprice
      | ok price =>
          rw [hestimate] at hprice
          cases hprice
          exact ⟨⟨rfl, rfl, rfl, rfl, rfl, rfl⟩, .inl ⟨rfl, hfalsy⟩⟩
    · next hfalsy =>
      cases hprice
      exact ⟨.refl r, .inr ⟨rfl, hfalsy, rfl⟩⟩
  obtain ⟨hsame, hupdate⟩ := hfound
  dsimp only
  split
  · next hlacks =>
    have hincomplete : ¬ r.Complete := by
      rintro ⟨hpriced, hfigures⟩
      rcases hupdate with ⟨-, hfalsy⟩ | ⟨rfl, -, rfl⟩
      · exact hpriced hfalsy
      · exact hlacks.elim (by simp) hfigures
    have hsame' : r.Same (r₁.figures scale currency.decimal last) := hsame.trans (same_figures ..)
    rw [outcome_bind, updateCryptoReport, outcome_bind, outcome_call]
    refine ⟨fun e he => ⟨rfl, fun hanswers => ?_⟩, fun _ _ => ?_⟩
    · rw [hanswers.update] at he
      cases he
    · rw [outcome_modify, outcome_pure]
      refine ⟨hsame', .inl ⟨hincomplete, rfl, rfl, ?_, avgPrice_figures ..⟩⟩
      rw [cryptoBalance_figures, hsame.movement]
  · next hlacks =>
    rw [not_or] at hlacks
    rcases hupdate with ⟨rfl, -⟩ | ⟨rfl, hpriced, rfl⟩
    · exact absurd rfl hlacks.1
    · exact ⟨.refl _, .inr ⟨⟨hpriced, hlacks.2⟩, rfl, rfl, rfl⟩⟩

end

end ZroServices.Otc.CryptoReports
