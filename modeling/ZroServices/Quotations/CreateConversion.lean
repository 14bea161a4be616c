import ZroServices.Foundation.Remote
import ZroServices.Quotations.GetQuotation

/-!
# Quotations — conversions

A quotation stays in the cache for a while.  `CreateConversionUseCase` looks it up, moves its
amounts between the wallet accounts of the user by one call of the operations service, and then
stores the conversion and the crypto order.

The operations service takes the fee of an owner on top of what it sends, and the fee of a
beneficiary out of what it receives.
-/

namespace ZroServices.Quotations

open Foundation
open Otc.CryptoOrders (OrderSide CryptoOrderState)

/-! ### Entities -/

inductive PersonType where
  | NATURAL_PERSON
  | LEGAL_PERSON
  deriving DecidableEq, Repr

inductive PersonDocumentType where
  | CPF
  | CNPJ
  deriving DecidableEq, Repr

structure User where
  document : Option String
  fullName : Option String
  type : Option PersonType

/-- An operation of the ledger, without the wallet. -/
structure Operation where
  id : Uuid
  rawValue : ℤ
  fee : ℤ
  currency : Currency
  description : String
  deriving DecidableEq, Repr

/-- What the account of an owner loses. -/
def Operation.debit (o : Operation) : ℤ := o.rawValue + o.fee

/-- What the account of a beneficiary is given. -/
def Operation.credit (o : Operation) : ℤ := o.rawValue - o.fee

/-- A call of `createAndAcceptOperation`. -/
structure Movement where
  transactionTag : String
  owner : Operation
  beneficiary : Operation
  ownerWallet : Uuid
  beneficiaryWallet : Uuid
  deriving DecidableEq, Repr

structure Conversion where
  id : Uuid
  operation : Uuid
  user : Uuid
  currency : Currency
  conversionType : OrderSide
  clientName : String
  clientDocument : String
  amount : ℤ
  usdAmount : ℤ
  /-- As text in the source. -/
  quote : Option ℚ
  usdQuote : ℤ
  fiatAmount : ℤ
  quotation : Uuid

instance : Keyed Conversion Uuid := ⟨Conversion.id⟩

structure CryptoOrder where
  id : Uuid
  baseCurrency : Currency
  amount : ℤ
  side : OrderSide
  type : Otc.CryptoOrders.OrderType
  state : CryptoOrderState
  system : Option Uuid
  user : Uuid
  conversion : Uuid
  clientName : String
  clientDocument : String
  clientDocumentType : PersonDocumentType

/-- The quotations in the cache, what the operations service was told to move, and the rows. -/
structure World where
  quotations : Uuid → Option Quotation
  movements : List Movement
  conversions : Table Conversion
  cryptoOrders : List CryptoOrder
  created : List Uuid

abbrev App := EStateM Exception World

/-- A new identifier. -/
def World.uuidV4 (w : World) : Uuid :=
  fresh (w.movements.flatMap (fun m => [m.owner.id, m.beneficiary.id]) ++
    w.cryptoOrders.map CryptoOrder.id)

/-- `GetQuotationUseCase.execute`. -/
def getQuotation (src : QuotationSources) (id : Uuid) (request : GetQuotationRequest) :
    App Quotation := do
  let quotation ← call (GetQuotationUseCase.quotationOf src id request)
  modify fun w =>
    { w with quotations := fun i => if i = id then some quotation else w.quotations i }
  return quotation

/-! ### The use case -/

structure ConversionConfig where
  conversionOperationTransactionTag : String
  conversionDepositOperationDescription : String
  conversionWithdrawalOperationDescription : String
  conversionSystemName : String
  symbolCurrencyMidQuote : String

/-- An id that is missing is empty. -/
structure CreateConversionRequest where
  id : Option Uuid
  user : Option Uuid
  wallet : Option Uuid
  quotation : Option Uuid
  systemName : Option String

def CreateConversionRequest.missing (request : CreateConversionRequest) : List String :=
  (if request.id = none then ["ID"] else []) ++
    (if request.user = none then ["User"] else []) ++
    (if request.wallet = none then ["Wallet"] else []) ++
    if request.quotation = none then ["Quotation"] else []

/-- What the other services answer, and whether the rows are written. -/
structure ConversionServices where
  /-- Whether the quotation is in the cache still. -/
  getCurrentQuotationById : Except Exception Bool
  getUserByUuid : Except Exception (Option User)
  /-- Whether there is one. -/
  getOnboardingByUserAndStatusIsFinished : Except Exception Bool
  getCurrencyBySymbol : String → Except Exception (Option Currency)
  /-- Whether it is active. -/
  getWalletAccountByWalletAndCurrency : Currency → Except Exception (Option Bool)
  createAndAcceptOperation : Fate Exception
  createConversion : Except Exception Unit
  createQuotation : Fate Exception
  getSystemByName : String → Except Exception (Option Uuid)
  createCryptoOrder : Except Exception Unit

/-- What is known of the user, and the currencies. -/
structure Checked where
  document : String
  fullName : String
  type : PersonType
  baseCurrency : Currency
  quoteCurrency : Currency

namespace CreateConversionUseCase

/-- What is missing in a quotation, under the source's names; an amount of 0 is. -/
def missing (quotation : Quotation) : List String :=
  (if quotation.baseCurrency.symbol = "" then ["Base Currency Symbol"] else []) ++
    (if quotation.quoteCurrency.symbol = "" then ["Quote Currency Symbol"] else []) ++
    (if quotation.baseAmountBuy = 0 then ["Base Amount Buy"] else []) ++
    (if quotation.baseAmountSell = 0 then ["Base Amount Sell"] else []) ++
    (if quotation.quoteAmountBuy = 0 then ["Base Amount Buy"] else []) ++
    (if quotation.quoteAmountSell = 0 then ["Base Amount Sell"] else []) ++
    (if quotation.partialBuy = 0 then ["Partial Buy"] else []) ++
    (if quotation.partialSell = 0 then ["Partial Sell"] else []) ++
    (if quotation.spreads = [] then ["Spreads"] else []) ++
    if quotation.iofAmount = 0 then ["IOF Amount"] else []

variable (config : ConversionConfig) (services : ConversionServices)

def checkCurrency (symbol : String) : Except Exception Currency := do
  match ← services.getCurrencyBySymbol symbol with
  | none => .error (.currencyNotFound symbol)
  | some currency => return currency

def checkWalletAccount (wallet : Uuid) (currency : Currency) : Except Exception Unit := do
  match ← services.getWalletAccountByWalletAndCurrency currency with
  | none => .error (.walletAccountNotFound currency wallet)
  | some isActive => check (¬ isActive) (.walletAccountNotActive currency wallet)

/-- What is looked up and checked before the amounts are moved. -/
def checkServices (user wallet : Uuid) (quotation : Quotation) : Except Exception Checked := do
  check (missing quotation ≠ []) (.missingData (missing quotation))
  match ← services.getUserByUuid with
  | none => .error (.userNotFound user)
  | some userFound =>
      match userFound.document, userFound.fullName, userFound.type with
      | some document, some fullName, some type => do
          check (¬ (← services.getOnboardingByUserAndStatusIsFinished)) (.onboardingNotFound user)
          let baseCurrency ← checkCurrency services quotation.baseCurrency.symbol
          let quoteCurrency ← checkCurrency services quotation.quoteCurrency.symbol
          checkWalletAccount services wallet baseCurrency
          checkWalletAccount services wallet quoteCurrency
          return ⟨document, fullName, type, baseCurrency, quoteCurrency⟩
      | document, fullName, type => .error (.missingData
          ((if document = none then ["Document"] else []) ++
            (if fullName = none then ["FullName"] else []) ++
            if type = none then ["Type"] else []))

/-- The operations of `createOperationWhenBuy` and `createOperationWhenSell`; the ids are new. -/
def movementOf (quotation : Quotation) (checked : Checked) (wallet ownerId beneficiaryId : Uuid) :
    Movement :=
  match quotation.side with
  | .BUY =>
      { transactionTag := config.conversionOperationTransactionTag
        owner :=
          { id := ownerId
            rawValue := quotation.partialBuy
            fee := quotation.spreadAmountBuy + quotation.iofAmount
            currency := checked.quoteCurrency
            description := config.conversionWithdrawalOperationDescription }
        beneficiary :=
          { id := beneficiaryId
            rawValue := quotation.baseAmountBuy
            fee := 0
            currency := checked.baseCurrency
            description := config.conversionDepositOperationDescription }
        ownerWallet := wallet
        beneficiaryWallet := wallet }
  | .SELL =>
      { transactionTag := config.conversionOperationTransactionTag
        owner :=
          { id := ownerId
            rawValue := quotation.baseAmountSell
            fee := 0
            currency := checked.baseCurrency
            description := config.conversionWithdrawalOperationDescription }
        beneficiary :=
          { id := beneficiaryId
            rawValue := quotation.partialSell
            fee := quotation.spreadAmountSell + quotation.iofAmount
            currency := checked.quoteCurrency
            description := config.conversionDepositOperationDescription }
        ownerWallet := wallet
        beneficiaryWallet := wallet }

/-- The operation that a conversion names: the one in the base currency. -/
def conversionOperation (side : OrderSide) (movement : Movement) : Uuid :=
  match side with
  | .BUY => movement.beneficiary.id
  | .SELL => movement.owner.id

/-- The price of a side. -/
def priceOf (side : OrderSide) (pair : Quoted) : ℚ :=
  match side with
  | .BUY => pair.buy
  | .SELL => pair.sell

/-- The last pair of each kind counts. -/
def searchQuotePairValues (composedBy : List Quoted) (side : OrderSide) : Option ℚ × Option ℚ :=
  composedBy.foldl
    (fun (cryptoQuoteFound, usdQuoteFound) pair =>
      (if pair.quoteCurrency.symbol = config.symbolCurrencyMidQuote then some (priceOf side pair)
        else cryptoQuoteFound,
      if pair.baseCurrency.symbol = config.symbolCurrencyMidQuote then some (priceOf side pair)
        else usdQuoteFound))
    (none, none)

/-- The operations service moves the amounts. -/
def createAndAcceptOperation (movement : Movement) : App Unit :=
  remote services.createAndAcceptOperation fun w =>
    .ok { w with movements := w.movements ++ [movement] }

/-- `ConversionRepository.create`. -/
def insertConversion (conversion : Conversion) : App Unit := do
  let w ← get
  let conversions ← orThrow (w.conversions.insert? conversion) (.service "duplicate key")
  set { w with conversions }

/-- The rows of a conversion whose amounts have been moved. -/
def store (id user : Uuid) (systemName : Option String) (quotation : Quotation)
    (checked : Checked) (operation : Uuid) : App Conversion := do
  let composedBy ← orThrow quotation.streamQuotation.composedBy .notIterable
  let (cryptoQuoteFound, usdQuoteFound) :=
    searchQuotePairValues config composedBy quotation.side
  let cryptoAmount := match quotation.side with
    | .BUY => quotation.baseAmountBuy
    | .SELL => quotation.baseAmountSell
  let fiatAmount := match quotation.side with
    | .BUY => quotation.partialBuy
    | .SELL => quotation.partialSell
  let fiatAmountFloat := formatValueFromIntToFloat fiatAmount checked.quoteCurrency.decimal
  let newConversion : Conversion :=
    { id, operation, user
      currency := checked.baseCurrency
      conversionType := quotation.side
      clientName := checked.fullName
      clientDocument := checked.document
      amount := cryptoAmount
      usdAmount :=
        (usdQuoteFound.map fun q => formatValueFromFloatToInt (fiatAmountFloat / q) 2).getD 0
      quote := cryptoQuoteFound
      usdQuote := (usdQuoteFound.map fun q => formatValueFromFloatToInt q 2).getD 0
      fiatAmount
      quotation := quotation.id }
  call services.createConversion
  insertConversion newConversion
  remote services.createQuotation fun w => .ok { w with created := w.created ++ [quotation.id] }
  let system ← call (services.getSystemByName (systemName.getD config.conversionSystemName))
  call services.createCryptoOrder
  modify fun w =>
    { w with
      cryptoOrders := w.cryptoOrders ++
        [{ id := w.uuidV4
           baseCurrency := checked.baseCurrency
           amount := cryptoAmount
           side := quotation.side
           type := .MARKET
           state := .PENDING
           system, user
           conversion := id
           clientName := checked.fullName
           clientDocument := checked.document
           clientDocumentType := if checked.type = .NATURAL_PERSON then .CPF else .CNPJ }] }
  return newConversion

/-- A conversion that there is not yet. -/
def convert (id user wallet quotationId : Uuid) (systemName : Option String) :
    App Conversion := do
  let cached ← call services.getCurrentQuotationById
  let w ← get
  let quotation ← orThrow (if cached then w.quotations quotationId else none)
    (.quotationNotFound quotationId)
  let checked ← call (checkServices services user wallet quotation)
  let movement := movementOf config quotation checked wallet w.uuidV4 (w.uuidV4 + 1)
  createAndAcceptOperation services movement
  store config services id user systemName quotation checked
    (conversionOperation quotation.side movement)

def execute (request : CreateConversionRequest) : App Conversion := do
  match request.missing, request.id, request.user, request.wallet, request.quotation with
  | [], some id, some user, some wallet, some quotationId => do
      let w ← get
      match w.conversions.get? id with
      | some conversion => do
          throwIf (conversion.user ≠ user) .forbidden
          return conversion
      | none => convert config services id user wallet quotationId request.systemName
  | missing, _, _, _, _ => throw (.missingData missing)

end CreateConversionUseCase

end ZroServices.Quotations
