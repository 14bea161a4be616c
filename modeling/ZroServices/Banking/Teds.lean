import ZroServices.Foundation.Remote
import ZroServices.Foundation.Run
import ZroServices.Operations.Domain

/-!
# Banking — TEDs

A TED sends money of a wallet to an account of another bank, by the PSP, or to an account of this
bank, by an operation with a beneficiary.  Its pending event makes both: it asks the PSP, or the
operations service, and stores the new state.  When that throws, the event goes to the dead letters,
whose handler stores the TED failed.  The PSP's callbacks confirm, forward and reject the TED.

`World` holds the rows of the service together with what the PSP and the operations service did for
it.  `PendingBankingTedNestObserver` catches what its handlers throw, so the rows they wrote before
are stored; a callback that throws is rolled back.

The rows of received TEDs and of contacts, which none of the handlers reads back, are left out; to
write one may fail.
-/

namespace ZroServices.Banking

open Foundation

abbrev BankingTedId := ℕ+

inductive BankingTedState where
  | PENDING
  | WAITING
  | FAILED
  | FORWARDED
  | CONFIRMED
  deriving DecidableEq, Repr

structure BankingTed where
  id : BankingTedId
  transactionId : Option Uuid
  user : Uuid
  state : BankingTedState
  amount : ℕ
  operation : Uuid
  beneficiaryBankCode : String
  beneficiaryName : String
  beneficiaryDocument : String
  beneficiaryAgency : String
  beneficiaryAccount : String
  beneficiaryAccountDigit : String
  beneficiaryAccountType : String
  deriving DecidableEq, Repr

instance : Keyed BankingTed BankingTedId := ⟨BankingTed.id⟩

namespace BankingTed

variable (t : BankingTed)

def isAlreadyForwardedBankingTed : Prop := t.state = .FORWARDED

def isAlreadyFailedBankingTed : Prop := t.state = .FAILED

def isAlreadyPaidBankingTed : Prop := t.state = .WAITING ∨ t.state = .CONFIRMED

def isAlreadyConfirmedBankingTed : Prop := t.state = .CONFIRMED

end BankingTed

structure BankingTedFailure where
  operation : Uuid
  transactionId : Option Uuid
  bankingTed : BankingTedId
  failureCode : Option String
  failureMessage : Option String
  deriving DecidableEq, Repr

inductive OperationState where
  | PENDING
  | ACCEPTED
  | REVERTED
  deriving DecidableEq, Repr

/-- An operation of the operations service: it debits the owner's wallet, and credits the
beneficiary's. -/
structure Operation where
  id : Uuid
  rawValue : ℕ
  ownerWallet : Option Uuid
  beneficiaryWallet : Option Uuid
  state : OperationState
  deriving DecidableEq, Repr

instance : Keyed Operation Uuid := ⟨Operation.id⟩

/-- An operation that credits the payer of a TED; the TED is known here only. -/
structure Reversal where
  bankingTed : BankingTedId
  operation : Operation
  deriving DecidableEq, Repr

/-- `CreateBankingTedPspRequest`, without the address of the callback. -/
structure CreateBankingTedPspRequest where
  transactionId : Uuid
  ownerDocument : String
  ownerName : String
  ownerAccount : String
  beneficiaryDocument : String
  beneficiaryName : String
  beneficiaryBankCode : String
  beneficiaryAgency : String
  beneficiaryAccount : String
  beneficiaryAccountDigit : String
  beneficiaryAccountType : String
  amount : ℕ
  purposeCode : ℕ
  deriving DecidableEq, Repr

/-- A transfer that the PSP has accepted; the TED is known here only. -/
structure Transfer where
  bankingTed : BankingTedId
  request : CreateBankingTedPspRequest
  deriving DecidableEq, Repr

structure World where
  bankingTeds : Table BankingTed
  bankingTedFailures : List BankingTedFailure
  operations : Table Operation
  reversals : List Reversal
  transfers : List Transfer

inductive Exception where
  | missingData (fields : List String)
  | bankingTedNotFound (id : BankingTedId)
  | bankingTedOfTransactionNotFound (transactionId : Uuid)
  | bankingTedInvalidState (id : BankingTedId)
  | bankingTedInvalidConfirmation (transactionId : Uuid)
  | bankingTedZroAccountNotExists (id : BankingTedId)
  | bankTedNotFound (code : String)
  | onboardingNotFound (accountNumber : String)
  | walletNotFound (user : Uuid)
  | walletNotActive (wallet : Uuid)
  | walletAccountNotFound (wallet : Uuid)
  | walletAccountNotActive (wallet : Uuid)
  | operationNotFound (id : Uuid)
  | operationInvalidState (state : OperationState)
  | operationAlreadyExists (id : Uuid)
  | service (message : String)
  deriving DecidableEq, Repr

abbrev App := EStateM Exception World

structure User where
  document : Option String
  fullName : Option String

structure Wallet where
  uuid : Uuid
  user : Uuid
  isActive : Bool

structure WalletAccount where
  wallet : Uuid
  isActive : Bool
  accountNumber : Option String
  branchNumber : Option String

/-- The code of this bank. -/
structure Config where
  bankingTedZroBankCode : String

/-- What the other services answer to the handler of the pending event, and whether the rows that
are left out are written. -/
structure PendingServices where
  getUserByUuid : Uuid → Except Exception (Option User)
  getWalletAccountByWalletAndCurrency : Uuid → Except Exception (Option WalletAccount)
  /-- The user of the onboarding. -/
  getOnboardingByAccountNumberAndStatusIsFinished : String → Except Exception (Option Uuid)
  getWalletByUserAndDefaultIsTrue : Uuid → Except Exception (Option Wallet)
  /-- The bank's name. -/
  getByCode : String → Except Exception (Option String)
  createBankingTed : Fate Exception
  createAndAcceptOperation : Fate Exception
  createBankingTedReceived : Except Exception Unit
  createBankingContact : Except Exception Unit

/-! ### The other services -/

/-- A new identifier. -/
def World.uuidV4 (w : World) : Uuid :=
  fresh (((w.operations.rows.map Operation.id ++ w.bankingTeds.rows.map BankingTed.operation) ++
    w.reversals.map (·.operation.id)) ++ w.transfers.map (·.request.transactionId))

/-- The PSP accepts a transfer. -/
def createBankingTed (fate : Fate Exception) (transfer : Transfer) : App Unit :=
  remote fate fun w => .ok { w with transfers := w.transfers ++ [transfer] }

/-- An operation that is accepted comes to be, unless its id is taken. -/
def createAndAcceptOperation (fate : Fate Exception) (id : Uuid) (rawValue : ℕ)
    (ownerWallet beneficiaryWallet : Option Uuid) : App Unit :=
  remote fate fun w =>
    match w.operations.insert? ⟨id, rawValue, ownerWallet, beneficiaryWallet, .ACCEPTED⟩ with
    | some operations => .ok { w with operations }
    | none => .error (.operationAlreadyExists id)

/-- The same, of an operation with a new id that gives a TED back. -/
def createAndAcceptReversal (fate : Fate Exception) (reversal : Reversal) : App Unit :=
  remote fate fun w => .ok { w with reversals := w.reversals ++ [reversal] }

/-- `RevertOperationUseCase`. -/
def revertOperation (fate : Fate Exception) (id : Uuid) : App Unit :=
  remote fate fun w =>
    match w.operations.get? id with
    | none => .error (.operationNotFound id)
    | some operation =>
        match operation.state with
        | .REVERTED => .ok w
        | .PENDING => .ok { w with
            operations := w.operations.set { operation with state := .REVERTED } }
        | .ACCEPTED => .error (.operationInvalidState .ACCEPTED)

/-- `BankingTedRepository.update`. -/
def update (bankingTed : BankingTed) : App Unit :=
  modify fun w => { w with bankingTeds := w.bankingTeds.set bankingTed }

/-! ### The pending event -/

section

variable (config : Config) (services : PendingServices)

/-- The user, and the wallet account to pay from. -/
def checkOwner (bankingTed : BankingTed) (ownerWallet : Uuid) :
    Except Exception (String × String × WalletAccount) := do
  let ownerUserFound ← services.getUserByUuid bankingTed.user
  match ownerUserFound.bind (·.document), ownerUserFound.bind (·.fullName) with
  | some document, some fullName => do
      match ← services.getWalletAccountByWalletAndCurrency ownerWallet with
      | none => .error (.walletAccountNotFound ownerWallet)
      | some account => do
          check (¬ account.isActive) (.walletAccountNotActive account.wallet)
          check (account.accountNumber = none ∨ account.branchNumber = none) (.missingData
            ((if account.accountNumber = none then ["Account Number"] else []) ++
              if account.branchNumber = none then ["Branch Number"] else []))
          return (document, fullName, account)
  | document, fullName => .error (.missingData
      ((if document = none then ["Document"] else []) ++
        if fullName = none then ["FullName"] else []))

/-- The wallet of an account of this bank. -/
def checkBeneficiary (bankingTed : BankingTed) : Except Exception Wallet := do
  let accountNumber := bankingTed.beneficiaryAccount ++ bankingTed.beneficiaryAccountDigit
  match ← services.getOnboardingByAccountNumberAndStatusIsFinished accountNumber with
  | none => .error (.onboardingNotFound accountNumber)
  | some user => do
      match ← services.getWalletByUserAndDefaultIsTrue user with
      | none => .error (.walletNotFound user)
      | some wallet => do
          check (¬ wallet.isActive) (.walletNotActive wallet.uuid)
          match ← services.getWalletAccountByWalletAndCurrency wallet.uuid with
          | none => .error (.bankingTedZroAccountNotExists bankingTed.id)
          | some account => do
              check (¬ account.isActive) (.walletAccountNotActive account.wallet)
              let _ ← services.getUserByUuid wallet.user
              return wallet

/-- What the PSP is asked. -/
def BankingTed.pspRequest (bankingTed : BankingTed) (transactionId : Uuid)
    (document fullName : String) (account : WalletAccount) : CreateBankingTedPspRequest where
  transactionId := transactionId
  ownerDocument := document
  ownerName := fullName
  ownerAccount := account.accountNumber.getD ""
  beneficiaryDocument := bankingTed.beneficiaryDocument
  beneficiaryName := bankingTed.beneficiaryName
  beneficiaryBankCode := bankingTed.beneficiaryBankCode
  beneficiaryAgency := bankingTed.beneficiaryAgency
  beneficiaryAccount := bankingTed.beneficiaryAccount
  beneficiaryAccountDigit := bankingTed.beneficiaryAccountDigit
  beneficiaryAccountType := bankingTed.beneficiaryAccountType
  amount := bankingTed.amount
  purposeCode := 10

/-- `sendBankingTedPSP`. -/
def sendBankingTedPSP (bankingTed : BankingTed) (document fullName : String)
    (account : WalletAccount) : App BankingTed := do
  let w ← get
  createBankingTed services.createBankingTed
    ⟨bankingTed.id, bankingTed.pspRequest w.uuidV4 document fullName account⟩
  createAndAcceptOperation services.createAndAcceptOperation bankingTed.operation bankingTed.amount
    (some account.wallet) none
  let waiting : BankingTed :=
    { bankingTed with transactionId := some w.uuidV4, state := .WAITING }
  update waiting
  call services.createBankingContact
  return waiting

/-- `sendBankingTedP2P`. -/
def sendBankingTedP2P (bankingTed : BankingTed) (ownerWallet beneficiaryWallet : Uuid) :
    App BankingTed := do
  let foundBank ← call (services.getByCode bankingTed.beneficiaryBankCode)
  let _ ← orThrow foundBank (.bankTedNotFound bankingTed.beneficiaryBankCode)
  createAndAcceptOperation services.createAndAcceptOperation bankingTed.operation bankingTed.amount
    (some ownerWallet) (some beneficiaryWallet)
  call services.createBankingTedReceived
  let confirmed : BankingTed := { bankingTed with state := .CONFIRMED }
  update confirmed
  call services.createBankingContact
  return confirmed

/-- `HandlePendingBankingTedEventUseCase`. -/
def handlePendingBankingTed (id : BankingTedId) (ownerWallet : Uuid) : App BankingTed := do
  let w ← get
  let bankingTed ← orThrow (w.bankingTeds.get? id) (.bankingTedNotFound id)
  match bankingTed.state with
  | .WAITING | .CONFIRMED => return bankingTed
  | .PENDING => do
      let (document, fullName, account) ← call (checkOwner services bankingTed ownerWallet)
      match decide (bankingTed.beneficiaryBankCode = config.bankingTedZroBankCode) with
      | false => sendBankingTedPSP services bankingTed document fullName account
      | true => do
          let wallet ← call (checkBeneficiary services bankingTed)
          sendBankingTedP2P services bankingTed ownerWallet wallet.uuid
  | _ => throw (.bankingTedInvalidState id)

end

/-- `HandlePendingFailedBankingTedEventUseCase`, of the dead letters; `getOperationById` says
whether the operations service is reached. -/
def handlePendingFailedBankingTed (getOperationById : Except Exception Unit)
    (revert : Fate Exception) (id : BankingTedId) : App BankingTed := do
  let w ← get
  let bankingTed ← orThrow (w.bankingTeds.get? id) (.bankingTedNotFound id)
  match bankingTed.state with
  | .PENDING => do
      call getOperationById
      match w.operations.get? bankingTed.operation with
      | some _ => revertOperation revert bankingTed.operation
      | none => pure ()
      let failed : BankingTed := { bankingTed with state := .FAILED }
      update failed
      return failed
  | _ => return bankingTed

/-! ### The callbacks of the PSP -/

/-- `BankingTedRepository.getByTransactionId`. -/
def World.getByTransactionId (w : World) (transactionId : Uuid) : Option BankingTed :=
  w.bankingTeds.rows.find? fun t => t.transactionId = some transactionId

structure ConfirmRequest where
  transactionId : Uuid
  beneficiaryDocument : String
  beneficiaryBankCode : String
  beneficiaryAgency : String
  beneficiaryAccount : String
  beneficiaryAccountType : String
  amount : ℕ

def padStart (length : ℕ) (s : String) : String :=
  String.ofList (List.replicate (length - s.length) '0') ++ s

/-- `validateTedInfo`. -/
def validateTedInfo (bankingTed : BankingTed) (payload : ConfirmRequest) : App Unit :=
  throwIf
    (bankingTed.beneficiaryDocument ≠ payload.beneficiaryDocument ∨
      padStart 3 bankingTed.beneficiaryBankCode ≠ padStart 3 payload.beneficiaryBankCode ∨
      padStart 4 bankingTed.beneficiaryAgency ≠ padStart 4 payload.beneficiaryAgency ∨
      bankingTed.beneficiaryAccount ++ bankingTed.beneficiaryAccountDigit ≠
        payload.beneficiaryAccount ∨
      bankingTed.beneficiaryAccountType.toLower ≠ payload.beneficiaryAccountType.toLower ∨
      bankingTed.amount ≠ payload.amount)
    (.bankingTedInvalidConfirmation payload.transactionId)

/-- `ConfirmBankingTedUseCase`. -/
def confirmBankingTed (payload : ConfirmRequest) : App BankingTed := do
  throwIf
    (payload.beneficiaryDocument = "" ∨ payload.beneficiaryBankCode = "" ∨
      payload.beneficiaryAgency = "" ∨ payload.beneficiaryAccount = "" ∨
      payload.beneficiaryAccountType = "" ∨ payload.amount = 0)
    (.missingData
      ((if payload.beneficiaryDocument = "" then ["Beneficiary Document"] else []) ++
        (if payload.beneficiaryBankCode = "" then ["Beneficiary BankCode"] else []) ++
        (if payload.beneficiaryAgency = "" then ["Beneficiary Agency"] else []) ++
        (if payload.beneficiaryAccount = "" then ["Beneficiary Account"] else []) ++
        (if payload.beneficiaryAccountType = "" then ["Beneficiary Account Type"] else []) ++
        if payload.amount = 0 then ["Amount"] else []))
  let w ← get
  let bankingTed ← orThrow (w.getByTransactionId payload.transactionId)
    (.bankingTedOfTransactionNotFound payload.transactionId)
  throwIf
    (bankingTed.beneficiaryDocument = "" ∨ bankingTed.beneficiaryAccount = "" ∨
      bankingTed.beneficiaryBankCode = "" ∨ bankingTed.beneficiaryAgency = "" ∨
      bankingTed.beneficiaryAccountType = "" ∨ bankingTed.amount = 0)
    (.bankingTedOfTransactionNotFound payload.transactionId)
  match bankingTed.state with
  | .CONFIRMED => return bankingTed
  | .WAITING => do
      validateTedInfo bankingTed payload
      let confirmed : BankingTed := { bankingTed with state := .CONFIRMED }
      update confirmed
      return confirmed
  | _ => throw (.bankingTedInvalidState bankingTed.id)

/-- `ForwardBankingTedUseCase`. -/
def forwardBankingTed (id : BankingTedId) : App BankingTed := do
  let w ← get
  let bankingTed ← orThrow (w.bankingTeds.get? id) (.bankingTedNotFound id)
  match bankingTed.state with
  | .FORWARDED => return bankingTed
  | .CONFIRMED => do
      let forwarded : BankingTed := { bankingTed with state := .FORWARDED }
      update forwarded
      return forwarded
  | _ => throw (.bankingTedInvalidState id)

/-- What the other services answer to a rejection, and whether the failure is stored. -/
structure RejectServices where
  getWalletByUserAndDefaultIsTrue : Uuid → Except Exception (Option Wallet)
  createAndAcceptOperation : Fate Exception
  createBankingTedFailure : Except Exception Unit

section

variable (services : RejectServices)

/-- The wallet of the payer. -/
def checkPayer (bankingTed : BankingTed) : Except Exception Wallet := do
  match ← services.getWalletByUserAndDefaultIsTrue bankingTed.user with
  | none => .error (.walletNotFound bankingTed.user)
  | some wallet => do
      check (¬ wallet.isActive) (.walletNotActive wallet.uuid)
      return wallet

/-- `createAndAcceptReversalOperation`. -/
def createAndAcceptReversalOperation (bankingTed : BankingTed) : App Operation := do
  let wallet ← call (checkPayer services bankingTed)
  let w ← get
  let operation : Operation := ⟨w.uuidV4, bankingTed.amount, none, some wallet.uuid, .ACCEPTED⟩
  createAndAcceptReversal services.createAndAcceptOperation ⟨bankingTed.id, operation⟩
  return operation

/-- `RejectBankingTedUseCase`. -/
def rejectBankingTed (id : BankingTedId) (code message : Option String) : App BankingTed := do
  let w ← get
  let bankingTed ← orThrow (w.bankingTeds.get? id) (.bankingTedNotFound id)
  match bankingTed.state with
  | .FAILED => return bankingTed
  | .CONFIRMED | .FORWARDED => do
      let reversal ← createAndAcceptReversalOperation services bankingTed
      let failed : BankingTed := { bankingTed with state := .FAILED }
      update failed
      call services.createBankingTedFailure
      modify fun w => { w with
        bankingTedFailures := w.bankingTedFailures ++
          [⟨reversal.id, bankingTed.transactionId, id, code, message⟩] }
      return failed
  | _ => throw (.bankingTedInvalidState id)

end

/-! ### Runs -/

inductive Command where
  | pending (services : PendingServices) (ownerWallet : Uuid)
  | deadLetter (getOperationById : Except Exception Unit) (revert : Fate Exception)
  | confirm (payload : ConfirmRequest)
  | forward
  | reject (services : RejectServices) (code message : Option String)

/-- An event or a call, and whether the rows that its handler wrote are committed. -/
structure Delivery where
  command : Command
  committed : Bool

/-- The rows of before; what the other services did stays. -/
def World.rollback (before after : World) : World :=
  { after with
    bankingTeds := before.bankingTeds, bankingTedFailures := before.bankingTedFailures }

/-- The end of the database transaction. -/
def World.commit (before after : World) (committed : Bool) : World :=
  if committed then after else before.rollback after

/-- What the handler of a command leaves. -/
def handled (config : Config) (id : BankingTedId) (w : World) : Command → World
  | .pending services ownerWallet =>
      left (handlePendingBankingTed config services id ownerWallet) w
  | .deadLetter getOperationById revert =>
      left (handlePendingFailedBankingTed getOperationById revert id) w
  | .confirm payload => left (transaction World.rollback (confirmBankingTed payload)) w
  | .forward => left (transaction World.rollback (forwardBankingTed id)) w
  | .reject services code message =>
      left (transaction World.rollback (rejectBankingTed services id code message)) w

/-- The state after a delivery for a TED. -/
def step (config : Config) (id : BankingTedId) (w : World) (d : Delivery) : World :=
  w.commit (handled config id w d.command) d.committed

end ZroServices.Banking
