import ZroServices.Payments.Domain
import ZroServices.Pix.Devolutions

/-!
# Payments — the handlers

`handlePendingPayment` sends a payment, `handleCompletePayment` and `handleRevertPayment` end it.
Each calls the operations service two times or more around its one write of the payment.

A call of another service may be refused, and then has no effect; what else it answers depends on
what the service holds.  The PSP alone may execute a payment and still raise.
-/

namespace ZroServices.Payments

open Foundation
open Pix (Ispb Failed)

/-- `pixPayments` settings. -/
structure Config where
  newPixReceivedTransactionTag : String
  zroBankIspb : Ispb
  changeTransactionTag : String
  updatedAtThresholdInSeconds : ℤ

/-! ### Other services -/

/-- `CreatePaymentPixPaymentPspRequest`. -/
structure CreatePaymentPspRequest where
  paymentId : Uuid
  value : ℕ
  description : Option String
  ownerAccountNumber : String
  ownerBranch : String
  ownerDocument : String
  ownerName : String
  beneficiaryBankIspb : Ispb
  beneficiaryBranch : String
  beneficiaryAccountNumber : String
  beneficiaryName : Option String
  beneficiaryDocument : String
  beneficiaryKey : Option String
  endToEndId : Option String
  txId : Option String
  createdAt : ℤ
  ispb : Ispb

structure CreatePaymentPspResponse where
  endToEndId : Option String
  externalId : String

/-- Whether the PSP takes the payment, and what the caller gets. -/
structure PspOutcome where
  executed : Bool
  answer : Except Exception CreatePaymentPspResponse

/-- `GetPaymentPixPaymentPspResponse`. -/
structure GetPaymentPspResponse where
  status : PaymentStatusType
  endToEndId : Option String
  errorCode : Option String
  reason : Option String

/-- What the other services do during an execution.  The functions with an optional exception say
which calls are refused. -/
structure Services where
  createOperation : (tag : String) → (id : Uuid) → (rawValue : ℕ) → (ownerWallet : Uuid) →
    Option Exception
  createAndAcceptOperation : (tag : String) → (id : Uuid) → (rawValue : ℕ) →
    (ownerWallet beneficiaryWallet : Uuid) → Option Exception
  setOperationReference : (first second : Uuid) → Option Exception
  acceptOperation : Uuid → Option Exception
  revertOperation : Uuid → Option Exception
  getOperationById : Uuid → Option Exception
  getWalletAccountByAccountNumberAndCurrency : (accountNumber : String) →
    Except Exception (Option Pix.WalletAccount)
  getBankByIspb : Ispb → Except Exception (Option Ispb)
  createPayment : CreatePaymentPspRequest → PspOutcome

/-- Throw when the call is refused. -/
def refuse (refused : Option Exception) : App Unit :=
  match refused with
  | some e => throw e
  | none => pure ()

/-- The identifier of an operation, which a request must have. -/
def operationId (operation : Option Uuid) : App Uuid :=
  orThrow operation (.missingData ["Operation ID"])

section

variable (services : Services)

/-- An operation in the state `state` comes to be. -/
def insertOperation (id : Uuid) (state : OperationState) : App Unit := do
  let w ← get
  let operations ← orThrow (w.operations.insert? { id, state }) (.uniqueConstraint id)
  modify fun w => { w with operations }

def setOperationState (id : Uuid) (state : OperationState) : App Unit :=
  modify fun w => { w with operations := w.operations.set { id, state } }

def createOperation (tag : String) (operation : Option Uuid) (rawValue : ℕ) (ownerWallet : Uuid) :
    App Unit := do
  let id ← operationId operation
  refuse (services.createOperation tag id rawValue ownerWallet)
  insertOperation id .PENDING

def createAndAcceptOperation (tag : String) (operation : Option Uuid) (rawValue : ℕ)
    (ownerWallet beneficiaryWallet : Uuid) : App Unit := do
  let id ← operationId operation
  refuse (services.createAndAcceptOperation tag id rawValue ownerWallet beneficiaryWallet)
  insertOperation id .ACCEPTED

/-- The operations service keeps the references of the operations, which nothing here reads. -/
def setOperationReference (operation changeOperation : Option Uuid) : App Unit := do
  let first ← operationId operation
  let second ← operationId changeOperation
  refuse (services.setOperationReference first second)
  let w ← get
  let _ ← orThrow (w.operations.get? first) (.operationNotFound first)
  let _ ← orThrow (w.operations.get? second) (.operationNotFound second)

/-- `AcceptOperationUseCase`. -/
def acceptOperation (operation : Option Uuid) : App Unit := do
  let id ← operationId operation
  refuse (services.acceptOperation id)
  let w ← get
  let found ← orThrow (w.operations.get? id) (.operationNotFound id)
  throwIf (found.state ≠ .PENDING) (.operationInvalidState found.state)
  setOperationState id .ACCEPTED

/-- `RevertOperationUseCase`, which does nothing to an operation that is reverted. -/
def revertOperation (operation : Option Uuid) : App Unit := do
  let id ← operationId operation
  refuse (services.revertOperation id)
  let w ← get
  let found ← orThrow (w.operations.get? id) (.operationNotFound id)
  match found.state with
  | .REVERTED => pure ()
  | .PENDING => setOperationState id .REVERTED
  | _ => throw (.operationInvalidState found.state)

def getOperationById (operation : Option Uuid) : App (Option LedgerOperation) := do
  let id ← operationId operation
  refuse (services.getOperationById id)
  let w ← get
  return w.operations.get? id

/-- The PSP knows a payment by its identifier: asked again, it does not execute it again. -/
def createPayment (request : CreatePaymentPspRequest) : App CreatePaymentPspResponse := do
  let outcome := services.createPayment request
  modify fun w =>
    match outcome.executed, w.psp.insert? { id := request.paymentId, status := .PROCESSING } with
    | true, some psp => { w with psp }
    | _, _ => w
  call outcome.answer

end

/-! ### The handlers -/

/-- `PaymentRepository.update` writes the whole row. -/
def updatePayment (now : ℤ) (payment : Payment) : App Unit :=
  modify fun w => { w with payments := w.payments.set { payment with updatedAt := now } }

def getById (id : Uuid) : App Payment := do
  let w ← get
  orThrow (w.payments.get? id) (.paymentNotFound id)

section

variable (config : Config) (services : Services) (now : ℤ)

def Payment.pspRequest (payment : Payment) : CreatePaymentPspRequest where
  paymentId := payment.id
  value := payment.value
  description := payment.description
  ownerAccountNumber := payment.ownerAccountNumber
  ownerBranch := payment.ownerBranch
  ownerDocument := payment.ownerDocument
  ownerName := payment.ownerFullName
  beneficiaryBankIspb := payment.beneficiaryBankIspb
  beneficiaryBranch := payment.beneficiaryBranch
  beneficiaryAccountNumber := payment.beneficiaryAccountNumber
  beneficiaryName := payment.beneficiaryName
  beneficiaryDocument := payment.beneficiaryDocument
  beneficiaryKey := payment.key
  endToEndId := payment.endToEndId
  txId := payment.txId
  createdAt := payment.createdAt
  ispb := config.zroBankIspb

/-- `createChangeOperationPSP` and the reference, `if (payment.changeOperation?.id)`. -/
def createChangeOperationPSP (payment : Payment) : App Unit :=
  match payment.changeOperation with
  | none => pure ()
  | some change => do
      createOperation services config.changeTransactionTag (some change) payment.value
        payment.wallet
      setOperationReference services payment.operation (some change)

/-- `HandlePendingPaymentEventUseCase.sendPaymentPSP`. -/
def sendPaymentPSP (payment : Payment) : App Payment := do
  createOperation services payment.transactionTag payment.operation payment.value payment.wallet
  createChangeOperationPSP config services payment
  let pspResult ← createPayment services (payment.pspRequest config)
  let sent : Payment :=
    { payment with
      endToEndId := pspResult.endToEndId.or payment.endToEndId
      state := .WAITING
      externalId := some pspResult.externalId }
  updatePayment now sent
  return sent

/-- `createAndAcceptChangeOperationP2P` and the reference. -/
def createAndAcceptChangeOperationP2P (payment : Payment) (beneficiaryWallet : Uuid) : App Unit :=
  match payment.changeOperation with
  | none => pure ()
  | some change => do
      createAndAcceptOperation services config.changeTransactionTag (some change) payment.value
        payment.wallet beneficiaryWallet
      setOperationReference services payment.operation (some change)

/-- The deposit of a payment inside the bank. -/
def Payment.deposit (payment : Payment) (id : Uuid) (beneficiary : Pix.WalletAccount)
    (bank : Ispb) : PaidDeposit where
  id := id
  operation := payment.operation
  user := beneficiary.user
  wallet := beneficiary.wallet
  txId := payment.txId
  amount := payment.value
  bank := bank
  clientBranch := payment.beneficiaryBranch
  clientAccountNumber := payment.beneficiaryAccountNumber
  clientDocument := payment.beneficiaryDocument
  clientName := payment.beneficiaryName
  clientKey := payment.key
  thirdPartBranch := payment.ownerBranch
  thirdPartAccountNumber := payment.ownerAccountNumber
  thirdPartDocument := payment.ownerDocument
  thirdPartName := payment.ownerFullName
  description := payment.description
  transactionTag := config.newPixReceivedTransactionTag

/-- `PixDepositRepository.create`, with an identifier of its own. -/
def createDeposit (deposit : Uuid → PaidDeposit) : App Unit :=
  modify fun w =>
    let id := fresh (w.deposits.rows.map PaidDeposit.id)
    { w with deposits := w.deposits.upsert { deposit id with id } }

/-- `HandlePendingPaymentEventUseCase.sendPaymentP2P`. -/
def sendPaymentP2P (payment : Payment) (beneficiary : Pix.WalletAccount) : App Payment := do
  createAndAcceptOperation services payment.transactionTag payment.operation payment.value
    payment.wallet beneficiary.wallet
  createAndAcceptChangeOperationP2P config services payment beneficiary.wallet
  let foundBank ← call (services.getBankByIspb payment.beneficiaryBankIspb)
  let bank ← orThrow foundBank .bankNotFound
  createDeposit fun id => payment.deposit config id beneficiary bank
  let confirmed : Payment := { payment with state := .CONFIRMED }
  updatePayment now confirmed
  return confirmed

/-- `HandlePendingPaymentEventUseCase`. -/
def handlePendingPayment (id : Uuid) : App Payment := do
  let payment ← getById id
  match payment.state with
  | .WAITING | .CONFIRMED => return payment
  | .PENDING =>
      match decide (payment.beneficiaryBankIspb = config.zroBankIspb) with
      | false => sendPaymentPSP config services now payment
      | true => do
          let found ← call (services.getWalletAccountByAccountNumberAndCurrency
            payment.beneficiaryAccountNumber)
          let beneficiary ← orThrow found (.pixPaymentZroAccountNotExists payment.id)
          throwIf (¬ beneficiary.isActive) (.walletAccountNotActive beneficiary.wallet)
          throwIf (payment.wallet = beneficiary.wallet) (.paymentBetweenSameWallet payment.wallet)
          sendPaymentP2P config services now payment beneficiary
  | state => throw (.paymentInvalidState id state)

/-- `if (payment.changeOperation?.id)`, the operation is accepted. -/
def acceptChangeOperation (payment : Payment) : App Unit :=
  match payment.changeOperation with
  | none => pure ()
  | some change => acceptOperation services (some change)

/-- `HandleCompletePaymentEventUseCase`. -/
def handleCompletePayment (id : Uuid) (endToEndId : Option String) : App Payment := do
  let payment ← getById id
  match payment.state with
  | .CONFIRMED => return payment
  | .WAITING => do
      acceptOperation services payment.operation
      acceptChangeOperation services payment
      let confirmed : Payment :=
        { payment with
          state := .CONFIRMED
          endToEndId := endToEndId.or payment.endToEndId
          confirmedAt := some now }
      updatePayment now confirmed
      return confirmed
  | state => throw (.paymentInvalidState id state)

/-- `revertOperation`, and `revertChangeOperation`: what the payment keeps of the operation. -/
def revertFound (operation : Option Uuid) : App (Option Uuid) := do
  let hasOperation ← getOperationById services operation
  match hasOperation with
  | some _ => do
      revertOperation services operation
      return operation
  | none => return none

/-- `if (payment.changeOperation?.id)`, the operation is reverted. -/
def revertChangeOperation (payment : Payment) : App (Option Uuid) :=
  match payment.changeOperation with
  | none => return none
  | some change => revertFound services (some change)

/-- Both operations are reverted, and the payment has failed. -/
def failPayment (chargebackReason : Option String) (failed : Option Failed) (payment : Payment) :
    App Payment := do
  let operation ← revertFound services payment.operation
  let changeOperation ← revertChangeOperation services payment
  let reverted : Payment :=
    { payment with
      operation, changeOperation, failed
      state := .FAILED
      chargebackReason := chargebackReason.or payment.chargebackReason }
  updatePayment now reverted
  return reverted

/-- `HandleRevertPaymentEventUseCase`. -/
def handleRevertPayment (id : Uuid) (chargebackReason : Option String)
    (failed : Option Failed) : App Payment := do
  let payment ← getById id
  match payment.state with
  | .FAILED => return payment
  | .PENDING | .WAITING | .CONFIRMED =>
      failPayment services now chargebackReason failed payment
  | state => throw (.paymentInvalidState id state)

/-- `ReceivePaymentChargebackUseCase`. -/
def receivePaymentChargeback (id : Uuid) (chargebackReason : Option String)
    (failed : Option Failed) : App Payment := do
  let payment ← getById id
  match payment.state with
  | .FAILED => return payment
  | .WAITING => failPayment services now chargebackReason failed payment
  | state => throw (.paymentInvalidState id state)

end

/-! ### The crons -/

/-- The events by which a cron ends a payment. -/
inductive PaymentEvent where
  | completed (id : Uuid) (endToEndId : Option String)
  | reverted (id : Uuid) (chargebackReason : Option String) (failed : Option Failed)
  deriving DecidableEq, Repr

/-- What `SyncWaitingPaymentUseCase` makes of the answer of the PSP. -/
def Payment.reported (payment : Payment) (translate : Option String → Option Failed)
    (response : Option GetPaymentPspResponse) : Option PaymentEvent :=
  match response with
  | none => none
  | some response =>
      match response.status with
      | .SETTLED => some (.completed payment.id response.endToEndId)
      | .PROCESSING => none
      | .CHARGEBACK =>
          some (.reverted payment.id response.reason (translate response.errorCode))

/-- `SyncWaitingPaymentUseCase`: the events that it emits. -/
def syncWaitingPayment (config : Config) (now : ℤ) (translate : Option String → Option Failed)
    (getPayment : (id : Uuid) → (endToEndId : Option String) → Option GetPaymentPspResponse)
    (w : World) : List PaymentEvent :=
  let thresholdDate := now - config.updatedAtThresholdInSeconds * 1000
  let waitingPayments :=
    w.payments.rows.filter fun p => p.state = .WAITING ∧ p.updatedAt < thresholdDate
  waitingPayments.filterMap fun p => p.reported translate (getPayment p.id p.endToEndId)

end ZroServices.Payments
