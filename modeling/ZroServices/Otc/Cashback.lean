import Mathlib.Data.Rat.Floor
import ZroServices.Foundation.Remote
import ZroServices.Otc.SyncCreateRemittance
import ZroServices.Otc.SyncMarketPending

/-!
# OTC — cashbacks and filled remittances

A cashback credits a user's wallet by an operation of the operations service and then stores the
conversion, the crypto order and, last, the cashback, under the id of the request.  The event of a
filled crypto remittance creates the remittance order of what it is worth.

A request or an event that throws is rolled back; the operation stays.
-/

namespace ZroServices.Otc.Cashbacks

open Foundation
export CryptoOrders (OrderSide OrderType CryptoOrderState CryptoRemittanceStatus)
open Exposure (RemittanceOrderSide RemittanceOrderStatus)

/-! ### Entities -/

structure Currency where
  id : CurrencyId
  symbol : String
  decimal : ℕ
  isActive : Bool
  deriving DecidableEq, Repr

inductive PersonType where
  | NATURAL_PERSON
  | LEGAL_PERSON
  deriving DecidableEq, Repr

inductive PersonDocumentType where
  | CPF
  | CNPJ
  deriving DecidableEq, Repr

structure User where
  document : Option String
  fullName : Option String
  type : Option PersonType

/-- One pair of a stream quotation. -/
structure ComposedQuotation where
  baseCurrency : String
  quoteCurrency : String
  buy : ℚ
  sell : ℚ

/-- An amount that is missing is 0. -/
structure Quotation where
  id : Uuid
  provider : Option String
  baseCurrency : Option String
  quoteCurrency : Option String
  quoteDecimal : ℕ
  baseAmountBuy : ℕ
  baseAmountSell : ℕ
  quoteAmountBuy : ℕ
  quoteAmountSell : ℕ
  partialBuy : ℕ
  partialSell : ℕ
  spreads : List Uuid
  spreadBuy : Option ℤ
  spreadSell : Option ℤ
  spreadAmountBuy : Option ℤ
  spreadAmountSell : Option ℤ
  side : Option OrderSide
  composedBy : Option (List ComposedQuotation)

structure Conversion where
  id : Uuid
  operation : Uuid
  user : Uuid
  currency : CurrencyId
  conversionType : OrderSide
  clientName : String
  clientDocument : String
  amount : ℕ
  usdAmount : ℤ
  /-- As text in the source. -/
  quote : Option ℚ
  usdQuote : ℤ
  fiatAmount : ℕ
  quotation : Uuid

structure CryptoOrder where
  id : Uuid
  baseCurrency : CurrencyId
  amount : ℕ
  side : OrderSide
  type : OrderType
  state : CryptoOrderState
  system : Option Uuid
  user : Uuid
  conversion : Uuid
  clientName : String
  clientDocument : String
  clientDocumentType : PersonDocumentType

structure Cashback where
  id : Uuid
  user : Uuid
  conversion : Uuid
  amount : ℚ
  currency : CurrencyId
  description : Option String
  issuedBy : Option String

instance : Keyed Cashback Uuid := ⟨Cashback.id⟩

/-- An operation that credits a wallet; the cashback is known here only. -/
structure Credit where
  cashback : Uuid
  id : Uuid
  rawValue : ℕ
  currency : CurrencyId
  description : String
  wallet : Uuid
  deriving DecidableEq, Repr

structure CryptoRemittance where
  id : Uuid
  status : CryptoRemittanceStatus
  side : OrderSide
  baseDecimal : ℕ
  quoteCurrency : CurrencyId
  quoteDecimal : ℕ
  priceSignificantDigits : Option ℕ
  executedAmount : ℕ
  executedPrice : ℕ
  provider : Uuid

instance : Keyed CryptoRemittance Uuid := ⟨CryptoRemittance.id⟩

structure RemittanceOrder where
  id : Uuid
  side : RemittanceOrderSide
  currency : CurrencyId
  amount : ℤ
  status : RemittanceOrderStatus
  system : Uuid
  provider : Uuid
  cryptoRemittance : Uuid
  sendDateCode : SettlementDateCode
  receiveDateCode : SettlementDateCode
  deriving DecidableEq

structure World where
  conversions : List Conversion
  cryptoOrders : List CryptoOrder
  cashbacks : Table Cashback
  cryptoRemittances : Table CryptoRemittance
  remittanceOrders : List RemittanceOrder
  credits : List Credit
  quotations : List Uuid

inductive Exception where
  | missingData (fields : List String)
  | forbidden
  | userNotFound (id : Uuid)
  | onboardingNotFound (user : Uuid)
  | currencyNotFound (symbol : String)
  | currencyNotActive (symbol : String)
  | quotationNotFound (baseCurrency quoteCurrency : String)
  | walletAccountNotFound (wallet : Uuid)
  | walletAccountNotActive (wallet : Uuid)
  | notIterable
  | duplicate (id : Uuid)
  | cryptoRemittanceNotFound (id : Uuid)
  | cryptoRemittanceInvalidStatus (id : Uuid)
  | systemNotFound (name : String)
  | service (message : String)
  deriving DecidableEq, Repr

abbrev App := EStateM Exception World

/-- `formatValueFromFloatToInt`, with two decimals by default. -/
def formatValueFromFloatToInt (value : ℚ) (decimals : ℕ) : ℤ := ⌊1 / 2 + value * 10 ^ decimals⌋

/-- `formatValueFromIntToFloat`. -/
def formatValueFromIntToFloat (value decimals : ℕ) : ℚ := value / 10 ^ decimals

/-- A new identifier. -/
def World.uuidV4 (w : World) : Uuid :=
  fresh ((((w.credits.map Credit.id ++ w.conversions.map Conversion.id) ++
    w.cryptoOrders.map CryptoOrder.id) ++ w.remittanceOrders.map RemittanceOrder.id))

/-! ### Cashbacks -/

structure Config where
  cashbackOperationTransactionTag : String
  symbolCurrencyMidQuote : String
  defaultSendDateCode : SettlementDateCode
  defaultReceiveDateCode : SettlementDateCode

structure CreateCashbackRequest where
  id : Uuid
  user : Uuid
  wallet : Uuid
  baseCurrency : String
  amountCurrency : String
  amount : Option ℚ
  description : Option String
  issuedBy : Option String

def CreateCashbackRequest.missing (request : CreateCashbackRequest) : List String :=
  (if request.baseCurrency = "" then ["Base Currency"] else []) ++
    (if request.amountCurrency = "" then ["Amount Currency"] else []) ++
    if request.amount = none then ["Amount"] else []

/-- What the other services answer, and whether the rows are written. -/
structure CashbackServices where
  getUserByUuid : Except Exception (Option User)
  /-- Whether there is one. -/
  getOnboardingByUserAndStatusIsFinished : Except Exception Bool
  getCurrencyBySymbol : String → Except Exception (Option Currency)
  getQuotation : Except Exception (Option Quotation)
  /-- Whether it is active. -/
  getWalletAccountByWalletAndCurrency : Except Exception (Option Bool)
  createAndAcceptOperation : Fate Exception
  createConversion : Except Exception Unit
  getSystemByName : Except Exception (Option Uuid)
  createCryptoOrder : Except Exception Unit
  createQuotation : Fate Exception
  createCashback : Except Exception Unit

/-- A quotation, and what is known of the user and the currency. -/
structure Checked where
  document : String
  fullName : String
  type : PersonType
  currency : Currency
  quotation : Quotation
  side : OrderSide

section

variable (services : CashbackServices) (request : CreateCashbackRequest)

def checkCurrency (symbol : String) : Except Exception Currency := do
  match ← services.getCurrencyBySymbol symbol with
  | none => .error (.currencyNotFound symbol)
  | some currency => do
      check (¬ currency.isActive) (.currencyNotActive symbol)
      return currency

/-- What is missing in a quotation, under the source's names. -/
def Quotation.missing (quotation : Quotation) : List String :=
  (if quotation.provider = none then ["Provider"] else []) ++
    (if quotation.baseCurrency = none then ["Base Currency"] else []) ++
    (if quotation.quoteCurrency = none then ["Quote Currency"] else []) ++
    (if quotation.baseAmountBuy = 0 then ["Base Amount Buy"] else []) ++
    (if quotation.baseAmountSell = 0 then ["Base Amount Sell"] else []) ++
    (if quotation.quoteAmountBuy = 0 then ["Base Amount Buy"] else []) ++
    (if quotation.quoteAmountSell = 0 then ["Base Amount Sell"] else []) ++
    (if quotation.partialBuy = 0 then ["Partial Buy"] else []) ++
    (if quotation.partialSell = 0 then ["Partial Sell"] else []) ++
    (if quotation.spreads = [] then ["Spreads"] else []) ++
    (if quotation.spreadBuy = none then ["Spread Buy"] else []) ++
    (if quotation.spreadSell = none then ["Spread Sell"] else []) ++
    (if quotation.spreadAmountBuy = none then ["Spread Amount Buy"] else []) ++
    (if quotation.spreadAmountSell = none then ["Spread Amount Sell"] else []) ++
    if quotation.side = none then ["Side"] else []

/-- What is looked up and checked before the wallet is credited. -/
def checkServices : Except Exception Checked := do
  match ← services.getUserByUuid with
  | none => .error (.userNotFound request.user)
  | some user =>
      match user.document, user.fullName, user.type with
      | some document, some fullName, some type => do
          check (¬ (← services.getOnboardingByUserAndStatusIsFinished))
            (.onboardingNotFound request.user)
          let currency ← checkCurrency services request.baseCurrency
          let _ ← checkCurrency services request.amountCurrency
          match ← services.getQuotation with
          | none => .error (.quotationNotFound request.baseCurrency request.amountCurrency)
          | some quotation =>
              match quotation.missing, quotation.side with
              | [], some side => do
                  match ← services.getWalletAccountByWalletAndCurrency with
                  | none => .error (.walletAccountNotFound request.wallet)
                  | some isActive => do
                      check (¬ isActive) (.walletAccountNotActive request.wallet)
                      return ⟨document, fullName, type, currency, quotation, side⟩
              | missing, _ => .error (.missingData missing)
      | document, fullName, type => .error (.missingData
          ((if document = none then ["document"] else []) ++
            (if fullName = none then ["FullName"] else []) ++
            if type = none then ["Type"] else []))

end

/-- `searchQuotePairValues`, of the side BUY: the last pair of each kind counts. -/
def searchQuotePairValues (config : Config) (composedBy : List ComposedQuotation) :
    Option ℚ × Option ℚ :=
  composedBy.foldl
    (fun (cryptoQuoteFound, usdQuoteFound) pair =>
      (if pair.quoteCurrency = config.symbolCurrencyMidQuote then some pair.buy
        else cryptoQuoteFound,
      if pair.baseCurrency = config.symbolCurrencyMidQuote then some pair.buy else usdQuoteFound))
    (none, none)

/-- The operations service credits a wallet. -/
def createAndAcceptOperation (fate : Fate Exception) (credit : Credit) : App Unit :=
  remote fate fun w => .ok { w with credits := w.credits ++ [credit] }

/-- `CashbackRepository.create`. -/
def insertCashback (cashback : Cashback) : App Unit := do
  let w ← get
  let cashbacks ← orThrow (w.cashbacks.insert? cashback) (.duplicate cashback.id)
  set { w with cashbacks }

section

variable (config : Config) (services : CashbackServices) (request : CreateCashbackRequest)

/-- The rows of a cashback whose wallet has been credited by an operation. -/
def storeCashback (checked : Checked) (operation : Uuid) : App Unit := do
  let quotation := checked.quotation
  let composedBy ← orThrow quotation.composedBy .notIterable
  let (cryptoQuoteFound, usdQuoteFound) := searchQuotePairValues config composedBy
  let fiatAmountFloat := formatValueFromIntToFloat quotation.partialBuy quotation.quoteDecimal
  let w ← get
  let newConversion : Conversion :=
    { id := w.uuidV4
      operation
      user := request.user
      currency := checked.currency.id
      conversionType := checked.side
      clientName := checked.fullName
      clientDocument := checked.document
      amount := quotation.baseAmountBuy
      usdAmount :=
        (usdQuoteFound.map fun q => formatValueFromFloatToInt (fiatAmountFloat / q) 2).getD 0
      quote := cryptoQuoteFound
      usdQuote := (usdQuoteFound.map fun q => formatValueFromFloatToInt q 2).getD 0
      fiatAmount := quotation.partialBuy
      quotation := quotation.id }
  call services.createConversion
  modify fun w => { w with conversions := w.conversions ++ [newConversion] }
  let system ← call services.getSystemByName
  let w ← get
  let newCryptoOrder : CryptoOrder :=
    { id := w.uuidV4
      baseCurrency := checked.currency.id
      amount := quotation.baseAmountBuy
      side := checked.side
      type := .MARKET
      state := .PENDING
      system
      user := request.user
      conversion := newConversion.id
      clientName := checked.fullName
      clientDocument := checked.document
      clientDocumentType := if checked.type = .NATURAL_PERSON then .CPF else .CNPJ }
  call services.createCryptoOrder
  modify fun w => { w with cryptoOrders := w.cryptoOrders ++ [newCryptoOrder] }
  remote services.createQuotation fun w =>
    .ok { w with quotations := w.quotations ++ [quotation.id] }
  call services.createCashback
  insertCashback ⟨request.id, request.user, newConversion.id, request.amount.getD 0,
    checked.currency.id, request.description, request.issuedBy⟩

/-- `CreateCashbackUseCase`. -/
def createCashback : App Unit := do
  throwIf (request.missing ≠ []) (.missingData request.missing)
  let w ← get
  match w.cashbacks.get? request.id with
  | some cashback => throwIf (cashback.user ≠ request.user) .forbidden
  | none => do
      let checked ← call (checkServices services request)
      createAndAcceptOperation services.createAndAcceptOperation
        ⟨request.id, w.uuidV4, checked.quotation.baseAmountBuy, checked.currency.id,
          request.description.getD config.cashbackOperationTransactionTag, request.wallet⟩
      storeCashback config services request checked w.uuidV4

end

/-! ### Filled remittances -/

structure FilledServices where
  getSystemByName : String → Except Exception (Option Uuid)
  createRemittanceOrder : Except Exception Unit

/-- What a filled remittance is worth. -/
def CryptoRemittance.orderAmount (r : CryptoRemittance) : ℤ :=
  formatValueFromFloatToInt
    (formatValueFromIntToFloat r.executedAmount r.baseDecimal *
      formatValueFromIntToFloat r.executedPrice (r.priceSignificantDigits.getD 2))
    r.quoteDecimal

/-- `HandleFilledCryptoRemittanceEventUseCase`. -/
def handleFilledCryptoRemittance (config : Config) (services : FilledServices) (id : Uuid)
    (systemName : String) : App Unit := do
  throwIf (systemName = "") (.missingData ["System Name"])
  let w ← get
  let cryptoRemittance ← orThrow (w.cryptoRemittances.get? id) (.cryptoRemittanceNotFound id)
  throwIf (cryptoRemittance.status ≠ .FILLED) (.cryptoRemittanceInvalidStatus id)
  let systemFound ← call (services.getSystemByName systemName)
  let system ← orThrow systemFound (.systemNotFound systemName)
  call services.createRemittanceOrder
  modify fun w => { w with
    remittanceOrders := w.remittanceOrders ++
      [{ id := w.uuidV4
         side := if cryptoRemittance.side = .BUY then .BUY else .SELL
         currency := cryptoRemittance.quoteCurrency
         amount := cryptoRemittance.orderAmount
         status := .OPEN
         system
         provider := cryptoRemittance.provider
         cryptoRemittance := id
         sendDateCode := config.defaultSendDateCode
         receiveDateCode := config.defaultReceiveDateCode }] }

/-! ### Runs -/

inductive Command where
  | cashback (services : CashbackServices) (request : CreateCashbackRequest)
  | filled (services : FilledServices) (id : Uuid) (systemName : String)

/-- A request or an event, and whether its rows are committed. -/
structure Delivery where
  command : Command
  committed : Bool

/-- The rows of before; what the other services did stays. -/
def World.rollback (before after : World) : World :=
  { after with
    conversions := before.conversions
    cryptoOrders := before.cryptoOrders
    cashbacks := before.cashbacks
    cryptoRemittances := before.cryptoRemittances
    remittanceOrders := before.remittanceOrders }

/-- The state after a delivery. -/
def step (config : Config) (w : World) (d : Delivery) : World :=
  let w' := left (transaction World.rollback
    (match d.command with
      | .cashback services request => createCashback config services request
      | .filled services id systemName =>
          handleFilledCryptoRemittance config services id systemName)) w
  if d.committed then w' else w.rollback w'

end ZroServices.Otc.Cashbacks
