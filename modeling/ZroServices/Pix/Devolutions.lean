import ZroServices.Pix.Domain

/-!
# PIX — the handlers of the returns

The three kinds of returns are created, sent, completed and reverted by handlers of their own.
`createPixDevolution` and `handleCreatePixRefundDevolution` take what is left of the transaction
and add to its `returnedAmount`; `handleCreateFailedPixDevolution` and
`handleCreateWarningPixDevolution` return the whole deposit and write its amount over it.  A
revert gives back what the return took: to a deposit only, where it is a refund devolution.  A
warning devolution that failed may be sent again.

Other services answer from outside, with an exception or a value, for every execution anew.
-/

namespace ZroServices.Pix

open Foundation

/-- `pixPayments` settings. -/
structure Config where
  devolutionMaxNumber : ℕ
  depositDevolutionIntervalDays : ℤ
  staticWithdrawalTransactionTag : String
  dinamicWithdrawalTransactionTag : String
  dinamicChangeTransactionTag : String
  refundDevolutionMaxNumber : ℕ
  transactionRefundDevolutionIntervalDays : ℤ
  pixDevolutionZroBankIspb : Ispb
  messageUserRequestWarningPixDevolution : String

/-! ### Other services -/

/-- An operation of the operations service. -/
structure Operation where
  id : Uuid
  isReverted : Bool

structure WalletAccount where
  wallet : Uuid
  user : Uuid
  isActive : Bool

/-- `CreatePixDevolutionPixPaymentPspRequest`, and those of the other kinds of returns. -/
structure CreateDevolutionPspRequest where
  devolutionId : Uuid
  depositId : Uuid
  depositEndToEndId : String
  amount : ℕ
  description : Option String
  devolutionCode : PixDevolutionCode

structure CreateDevolutionPspResponse where
  endToEndId : String
  externalId : String

structure ClosePixRefundPspRequest where
  solicitationPspId : String
  devolutionId : Option Uuid
  devolutionEndToEndId : Option String
  analisysDetails : Option String

/-- What the other services answer during an execution. -/
structure Services where
  getOperationById : Uuid → Except Exception (Option Operation)
  createOperation : (id : Uuid) → (rawValue : ℕ) → (wallet : Uuid) → Except Exception Unit
  createAndAcceptOperation : (id : Uuid) → (rawValue : ℕ) → (ownerWallet : Option Uuid) →
    (beneficiaryWallet : Uuid) → Except Exception Unit
  acceptOperation : Uuid → Except Exception Unit
  revertOperation : Uuid → Except Exception Unit
  getWalletAccountByAccountNumberAndCurrency : String → Except Exception (Option WalletAccount)
  createPixDevolution : CreateDevolutionPspRequest → Except Exception CreateDevolutionPspResponse
  createWarningPixDevolution :
    CreateDevolutionPspRequest → Except Exception CreateDevolutionPspResponse
  createPixDevolutionRefund :
    CreateDevolutionPspRequest → Except Exception CreateDevolutionPspResponse
  closeRefundRequest : ClosePixRefundPspRequest → Except Exception Unit
  /-- The issue of the warning transaction of an operation. -/
  getWarningTransactionByOperation : Uuid → Except Exception (Option ℕ)
  addWarningTransactionComment : (issueId : ℕ) → (text : String) → Except Exception Unit

/-! ### Repositories -/

/-- `PixDepositRepository.update` writes the whole row. -/
def updateDeposit (deposit : PixDeposit) : App Unit :=
  modify fun db => { db with deposits := db.deposits.set deposit }

def updateDevolutionReceived (received : PixDevolutionReceived) : App Unit :=
  modify fun db => { db with devolutionsReceived := db.devolutionsReceived.set received }

def updateDevolution (devolution : PixDevolution) : App Unit :=
  modify fun db => { db with devolutions := db.devolutions.set devolution }

def updateWarningDevolution (devolution : WarningPixDevolution) : App Unit :=
  modify fun db => { db with warningDevolutions := db.warningDevolutions.set devolution }

def updateRefundDevolution (devolution : PixRefundDevolution) : App Unit :=
  modify fun db => { db with refundDevolutions := db.refundDevolutions.set devolution }

def updateRefund (refund : PixRefund) : App Unit :=
  modify fun db => { db with refunds := db.refunds.set refund }

def updateInfractionRefundOperation (operation : PixInfractionRefundOperation) : App Unit :=
  modify fun db =>
    { db with infractionRefundOperations := db.infractionRefundOperations.set operation }

def createDevolution (devolution : PixDevolution) : App PixDevolution := do
  let db ← get
  let devolutions ← orThrow (db.devolutions.insert? devolution) (.uniqueConstraint devolution.id)
  modify fun db => { db with devolutions }
  return devolution

def createWarningDevolution (devolution : WarningPixDevolution) : App WarningPixDevolution := do
  let db ← get
  let warningDevolutions ←
    orThrow (db.warningDevolutions.insert? devolution) (.uniqueConstraint devolution.id)
  modify fun db => { db with warningDevolutions }
  return devolution

def createRefundDevolution (devolution : PixRefundDevolution) : App PixRefundDevolution := do
  let db ← get
  let refundDevolutions ←
    orThrow (db.refundDevolutions.insert? devolution) (.uniqueConstraint devolution.id)
  modify fun db => { db with refundDevolutions }
  return devolution

def createDevolutionReceived (received : PixDevolutionReceived) : App Unit := do
  let db ← get
  let devolutionsReceived ←
    orThrow (db.devolutionsReceived.insert? received) (.uniqueConstraint received.id)
  modify fun db => { db with devolutionsReceived }

/-! ### Creation -/

section Create

variable (config : Config) (now : ℤ)

/-- The devolution that a user asks for. -/
def newDevolution (uuid id user wallet : Uuid) (amount : ℕ) (description : Option String)
    (deposit : PixDeposit) : PixDevolution where
  id := id
  user := user
  wallet := wallet
  operation := uuid
  deposit := deposit.id
  endToEndId := none
  externalId := none
  amount := amount
  description := description
  devolutionCode :=
    if [config.staticWithdrawalTransactionTag, config.dinamicWithdrawalTransactionTag,
      config.dinamicChangeTransactionTag].contains deposit.transactionTag
    then .WITHDRAWAL_CHANGE else .ORIGINAL
  state := .PENDING
  chargebackReason := none
  failed := none

/-- `CreatePixDevolutionUseCase`.  The operation of the devolution gets the identifier `uuid`. -/
def createPixDevolution (uuid id user wallet operation : Uuid) (amount : ℕ)
    (description : Option String) : App PixDevolution := do
  throwIf (amount = 0) (.missingData ["Amount"])
  let db ← get
  match db.devolutions.get? id with
  | some devolution => do
      throwIf (devolution.wallet ≠ wallet) .forbidden
      return devolution
  | none => do
      let deposit ← orThrow (db.getDepositByOperationAndWallet operation wallet)
        (.pixDepositOfOperationNotFound operation)
      throwIf (¬ withinDays deposit.createdAt config.depositDevolutionIntervalDays now)
        (.pixDepositExpiredDevolutionTime deposit.createdAt)
      throwIf (deposit.amount < amount) (.pixDevolutionAmountOverflow deposit.amount)
      let devolutionCount := db.countByDeposit deposit.id
      throwIf (config.devolutionMaxNumber ≠ 0 ∧ config.devolutionMaxNumber ≤ devolutionCount)
        (.pixDevolutionMaxNumber devolutionCount)
      let availableAmount := deposit.amount - deposit.returnedAmount
      throwIf (availableAmount < amount) (.pixDevolutionAmountOverflow availableAmount)
      updateDeposit { deposit with returnedAmount := deposit.returnedAmount + amount }
      createDevolution (newDevolution config uuid id user wallet amount description deposit)

/-- `HandleCreateFailedPixDevolutionEventUseCase`. -/
def handleCreateFailedPixDevolution (uuid id pixDepositId : Uuid) : App PixDevolution := do
  let db ← get
  match db.devolutions.get? id with
  | some pixDevolution => return pixDevolution
  | none => do
      let pixDeposit ← orThrow (db.deposits.get? pixDepositId) (.pixDepositNotFound pixDepositId)
      throwIf (pixDeposit.state ≠ .ERROR) (.pixDepositInvalidState pixDepositId)
      updateDeposit { pixDeposit with returnedAmount := pixDeposit.amount }
      createDevolution
        { id
          user := pixDeposit.user
          wallet := pixDeposit.wallet
          operation := uuid
          deposit := pixDeposit.id
          endToEndId := some pixDeposit.endToEndId
          externalId := none
          amount := pixDeposit.amount
          description := pixDeposit.description
          devolutionCode := .PSP_ERROR
          state := .PENDING
          chargebackReason := none
          failed := none }

/-- `HandleCreateWarningPixDevolutionEventUseCase`. -/
def handleCreateWarningPixDevolution (id warningPixDepositId : Uuid) :
    App WarningPixDevolution := do
  let db ← get
  match db.warningDevolutions.get? id with
  | some warningPixDevolution => return warningPixDevolution
  | none => do
      let warningPixDeposit ← orThrow (db.warningDeposits.get? warningPixDepositId)
        (.warningPixDepositNotFound warningPixDepositId)
      let deposit ← orThrow (db.getDepositByOperation warningPixDeposit.operation)
        (.pixDepositOfOperationNotFound warningPixDeposit.operation)
      updateDeposit { deposit with returnedAmount := deposit.amount }
      createWarningDevolution
        { id
          user := deposit.user
          operation := deposit.operation
          endToEndId := some deposit.endToEndId
          externalId := none
          amount := deposit.amount
          description := deposit.description
          devolutionCode := if warningPixDeposit.state = .CREATED then .ORIGINAL else .FRAUD
          state := .PENDING
          chargebackReason := none
          failed := none }

/-- What a refund knows of the transaction that it returns. -/
structure PixRefundTransaction where
  id : Uuid
  user : Uuid
  wallet : Uuid
  endToEndId : String
  amount : ℕ
  returnedAmount : ℤ
  thirdPartBank : Ispb
  thirdPartAccountNumber : String
  description : Option String

def PixDeposit.toRefundTransaction (d : PixDeposit) : PixRefundTransaction where
  id := d.id
  user := d.user
  wallet := d.wallet
  endToEndId := d.endToEndId
  amount := d.amount
  returnedAmount := d.returnedAmount
  thirdPartBank := d.thirdPartBank
  thirdPartAccountNumber := d.thirdPartAccountNumber
  description := d.description

def PixDevolutionReceived.toRefundTransaction (r : PixDevolutionReceived) :
    PixRefundTransaction where
  id := r.id
  user := r.user
  wallet := r.wallet
  endToEndId := r.endToEndId
  amount := r.amount
  returnedAmount := r.returnedAmount
  thirdPartBank := r.thirdPartBank
  thirdPartAccountNumber := r.thirdPartAccountNumber
  description := r.description

/-- `deposit || devolutionReceived`. -/
def transactionFound (deposit : Option PixDeposit)
    (devolutionReceived : Option PixDevolutionReceived) : Option PixRefundTransaction :=
  (deposit.map PixDeposit.toRefundTransaction).or
    (devolutionReceived.map PixDevolutionReceived.toRefundTransaction)

/-- `calculateRefundAmount`: undefined without an open infraction refund operation. -/
def calculateRefundAmount (db : Database) (pixRefund : PixRefund) : Option ℕ :=
  match db.getOpenInfractionRefundOperations pixRefund.id with
  | [] => none
  | operations => some (operations.map (·.refundOperationValue)).sum

/-- Add the refund to the transaction of the refund's type.  A sum with `undefined` is not a
number, which no column of integers stores. -/
def addReturnedAmount (transactionType : PixRefundTransactionType) (deposit : Option PixDeposit)
    (devolutionReceived : Option PixDevolutionReceived) (refundAmount : Option ℕ) : App ℕ :=
  match transactionType with
  | .DEPOSIT => do
      let deposit ← orThrow deposit .typeError
      let amount ← orThrow refundAmount .invalidSyntaxForBigint
      updateDeposit { deposit with returnedAmount := deposit.returnedAmount + amount }
      return amount
  | _ => do
      let devolutionReceived ← orThrow devolutionReceived .typeError
      let amount ← orThrow refundAmount .invalidSyntaxForBigint
      updateDevolutionReceived
        { devolutionReceived with returnedAmount := devolutionReceived.returnedAmount + amount }
      return amount

/-- `HandleCreatePixRefundDevolutionEventUseCase`. -/
def handleCreatePixRefundDevolution (id refundId : Uuid) : App PixRefundDevolution := do
  let db ← get
  match db.refundDevolutions.get? id with
  | some refundDevolution => return refundDevolution
  | none => do
      let refund ← orThrow (db.refunds.get? refundId) (.pixRefundNotFound refundId)
      let devolutionReceived := db.devolutionsReceived.get? refund.transaction
      let deposit := db.deposits.get? refund.transaction
      let found ← orThrow (transactionFound deposit devolutionReceived)
        (.pixTransactionNotFound refund.transaction)
      throwIf (¬ withinDays refund.createdAt config.transactionRefundDevolutionIntervalDays now)
        (.pixRefundTransactionExpiredDevolutionTime refund.createdAt)
      throwIf (found.amount < refund.amount) (.pixRefundDevolutionAmountOverflow refund.amount)
      let count := db.countByTransaction refund.transaction
      throwIf (config.refundDevolutionMaxNumber ≠ 0 ∧ config.refundDevolutionMaxNumber ≤ count)
        (.pixRefundDevolutionMaxNumber count)
      let availableAmount := found.amount - found.returnedAmount
      let refundAmount := calculateRefundAmount db refund
      -- `undefined` is not greater than any number
      throwIf (∃ amount ∈ refundAmount, availableAmount < amount)
        (.pixRefundDevolutionAmountOverflow availableAmount)
      let amount ←
        addReturnedAmount refund.transactionType deposit devolutionReceived refundAmount
      let operation ← orThrow refund.operation (.notNullViolation "operationId")
      createRefundDevolution
        { id, amount, operation
          user := found.user
          transaction := found.id
          transactionType := if deposit.isSome then .DEPOSIT else .DEVOLUTION_RECEIVED
          endToEndId := none
          externalId := none
          description := found.description
          devolutionCode := .FRAUD
          state := .PENDING
          chargebackReason := none
          failed := none }

end Create

/-! ### Sending -/

section Pending

variable (config : Config) (services : Services)

/-- The request to the PSP for a devolution of a deposit. -/
def PixDevolution.pspRequest (devolution : PixDevolution) (deposit : PixDeposit) :
    CreateDevolutionPspRequest where
  devolutionId := devolution.id
  depositId := deposit.id
  depositEndToEndId := deposit.endToEndId
  amount := devolution.amount
  description := devolution.description
  devolutionCode := devolution.devolutionCode

def WarningPixDevolution.pspRequest (devolution : WarningPixDevolution) (deposit : PixDeposit) :
    CreateDevolutionPspRequest where
  devolutionId := devolution.id
  depositId := deposit.id
  depositEndToEndId := deposit.endToEndId
  amount := devolution.amount
  description := devolution.description
  devolutionCode := devolution.devolutionCode

def PixRefundDevolution.pspRequest (devolution : PixRefundDevolution)
    (transaction : PixRefundTransaction) : CreateDevolutionPspRequest where
  devolutionId := devolution.id
  depositId := transaction.id
  depositEndToEndId := transaction.endToEndId
  amount := devolution.amount
  description := devolution.description
  devolutionCode := devolution.devolutionCode

/-- `HandlePendingPixDevolutionEventUseCase.sendDevolutionPSP`. -/
def sendDevolutionPSP (devolution : PixDevolution) (deposit : PixDeposit) :
    App PixDevolution := do
  call (services.createOperation devolution.operation devolution.amount devolution.wallet)
  let pspResult ← call (services.createPixDevolution (devolution.pspRequest deposit))
  let sent : PixDevolution :=
    { devolution with
      endToEndId := some pspResult.endToEndId
      state := .WAITING
      externalId := some pspResult.externalId }
  updateDevolution sent
  return sent

/-- `HandlePendingPixDevolutionEventUseCase.sendDevolutionP2P`: the returned amount is a received
devolution of the account that paid the deposit. -/
def sendDevolutionP2P (devolution : PixDevolution) (deposit : PixDeposit)
    (beneficiary : WalletAccount) : App PixDevolution := do
  let db ← get
  throwIf (deposit.operation ∉ db.payments) (.paymentNotFound deposit.operation)
  call (services.createAndAcceptOperation devolution.operation devolution.amount
    (some devolution.wallet) beneficiary.wallet)
  createDevolutionReceived
    { id := db.uuidV4
      user := beneficiary.user
      wallet := beneficiary.wallet
      operation := devolution.operation
      state := .READY
      endToEndId := deposit.endToEndId
      amount := devolution.amount
      returnedAmount := 0
      thirdPartBank := deposit.thirdPartBank
      thirdPartAccountNumber := deposit.thirdPartAccountNumber
      description := devolution.description }
  let confirmed : PixDevolution := { devolution with state := .CONFIRMED }
  updateDevolution confirmed
  return confirmed

/-- `HandlePendingPixDevolutionEventUseCase`. -/
def handlePendingPixDevolution (id : Uuid) : App PixDevolution := do
  let db ← get
  let devolution ← orThrow (db.devolutions.get? id) (.pixDevolutionNotFound id)
  match devolution.state with
  | .WAITING | .CONFIRMED => return devolution
  | .PENDING => do
      let deposit ← orThrow (db.deposits.get? devolution.deposit)
        (.pixDepositNotFound devolution.deposit)
      match decide (deposit.thirdPartBank = config.pixDevolutionZroBankIspb) with
      | false => sendDevolutionPSP services devolution deposit
      | true => do
          let found ← call
            (services.getWalletAccountByAccountNumberAndCurrency deposit.thirdPartAccountNumber)
          let beneficiary ← orThrow found (.pixDepositZroAccountNotExists deposit.id)
          throwIf (¬ beneficiary.isActive) (.walletAccountNotActive beneficiary.wallet)
          sendDevolutionP2P services devolution deposit beneficiary
  | _ => throw (.pixDevolutionInvalidState id)

/-- `HandlePendingFailedPixDevolutionEventUseCase`. -/
def handlePendingFailedPixDevolution (id : Uuid) : App PixDevolution := do
  let db ← get
  let devolution ← orThrow (db.devolutions.get? id) (.pixDevolutionNotFound id)
  match devolution.state with
  | .WAITING | .CONFIRMED => return devolution
  | .PENDING => do
      let deposit ← orThrow (db.deposits.get? devolution.deposit)
        (.pixDepositNotFound devolution.deposit)
      let pspResult ← call (services.createPixDevolution (devolution.pspRequest deposit))
      let sent : PixDevolution :=
        { devolution with
          endToEndId := some pspResult.endToEndId
          state := .WAITING
          externalId := some pspResult.externalId }
      updateDevolution sent
      return sent
  | _ => throw (.pixDevolutionInvalidState id)

/-- Tell the compliance that the user asked for the devolution. -/
def notifyCompliance (devolution : WarningPixDevolution) : App Unit :=
  match devolution.devolutionCode with
  | .ORIGINAL => do
      let found ← call (services.getWarningTransactionByOperation devolution.operation)
      let issueId ← orThrow found .typeError
      call (services.addWarningTransactionComment issueId
        config.messageUserRequestWarningPixDevolution)
  | _ => pure ()

/-- `if (!operation.isReverted())`, the operation is reverted. -/
def revertUnlessReverted (operation : Operation) : App Unit :=
  match operation.isReverted with
  | true => pure ()
  | false => call (services.revertOperation operation.id)

/-- The devolution after the PSP took it. -/
def WarningPixDevolution.sentAs (devolution : WarningPixDevolution)
    (pspResult : CreateDevolutionPspResponse) : WarningPixDevolution :=
  { devolution with
    endToEndId := some pspResult.endToEndId
    state := .WAITING
    externalId := some pspResult.externalId }

/-- `HandlePendingWarningPixDevolutionEventUseCase`, for a devolution to send. -/
def sendWarningDevolution (devolution : WarningPixDevolution) : App WarningPixDevolution := do
  let db ← get
  let found ← call (services.getOperationById devolution.operation)
  let operation ← orThrow found (.operationNotFound devolution.operation)
  let deposit ← orThrow (db.getDepositByOperation devolution.operation)
    (.pixDepositOfOperationNotFound devolution.operation)
  let pspResult ← call (services.createWarningPixDevolution (devolution.pspRequest deposit))
  let sent := devolution.sentAs pspResult
  updateWarningDevolution sent
  revertUnlessReverted services operation
  notifyCompliance config services sent
  return sent

/-- `HandlePendingWarningPixDevolutionEventUseCase`: a devolution that failed is sent again. -/
def handlePendingWarningPixDevolution (id : Uuid) : App WarningPixDevolution := do
  let db ← get
  let devolution ← orThrow (db.warningDevolutions.get? id) (.warningPixDevolutionNotFound id)
  match devolution.state with
  | .WAITING | .CONFIRMED => return devolution
  | .PENDING | .FAILED => sendWarningDevolution config services devolution
  | _ => throw (.warningPixDevolutionInvalidState id)

/-- `HandlePendingPixRefundDevolutionEventUseCase.sendDevolutionPSP`. -/
def sendRefundDevolutionPSP (devolution : PixRefundDevolution)
    (transaction : PixRefundTransaction) : App PixRefundDevolution := do
  let pspResult ← call (services.createPixDevolutionRefund (devolution.pspRequest transaction))
  let sent : PixRefundDevolution :=
    { devolution with
      endToEndId := some pspResult.endToEndId
      state := .WAITING
      externalId := some pspResult.externalId }
  updateRefundDevolution sent
  return sent

/-- `HandlePendingPixRefundDevolutionEventUseCase.sendDevolutionP2P`. -/
def sendRefundDevolutionP2P (devolution : PixRefundDevolution) (beneficiaryWallet : Uuid) :
    App PixRefundDevolution := do
  call (services.createAndAcceptOperation devolution.operation devolution.amount none
    beneficiaryWallet)
  let confirmed : PixRefundDevolution := { devolution with state := .CONFIRMED }
  updateRefundDevolution confirmed
  return confirmed

/-- `HandlePendingPixRefundDevolutionEventUseCase`. -/
def handlePendingPixRefundDevolution (id : Uuid) : App PixRefundDevolution := do
  let db ← get
  let devolution ← orThrow (db.refundDevolutions.get? id) (.pixRefundDevolutionNotFound id)
  match devolution.state with
  | .WAITING | .CONFIRMED => return devolution
  | .PENDING => do
      let transaction ← orThrow
        (transactionFound (db.deposits.get? devolution.transaction)
          (db.devolutionsReceived.get? devolution.transaction))
        (.pixTransactionNotFound devolution.transaction)
      match decide (transaction.thirdPartBank = config.pixDevolutionZroBankIspb) with
      | false => sendRefundDevolutionPSP services devolution transaction
      | true => do
          let found ← call
            (services.getWalletAccountByAccountNumberAndCurrency
              transaction.thirdPartAccountNumber)
          let account ← orThrow found (.pixRefundTransactionZroAccountNotExists transaction.id)
          throwIf (¬ account.isActive) (.walletAccountNotActive account.wallet)
          sendRefundDevolutionP2P services devolution transaction.wallet
  | _ => throw (.pixRefundDevolutionInvalidState id)

end Pending

/-- `if (hasOperation)`, the operation of a devolution is accepted or reverted. -/
def settleFound (settle : Uuid → Except Exception Unit) (hasOperation : Option Operation)
    (operation : Uuid) : App Unit :=
  match hasOperation with
  | some _ => call (settle operation)
  | none => pure ()

/-! ### Completion -/

section Complete

variable (services : Services)

/-- `HandleCompletePixDevolutionEventUseCase`. -/
def handleCompletePixDevolution (id : Uuid) (endToEndId : Option String) :
    App PixDevolution := do
  let db ← get
  let devolution ← orThrow (db.devolutions.get? id) (.pixDevolutionNotFound id)
  match devolution.state with
  | .CONFIRMED => return devolution
  | .WAITING => do
      let hasOperation ← call (services.getOperationById devolution.operation)
      settleFound services.acceptOperation hasOperation devolution.operation
      let _ ← orThrow (db.deposits.get? devolution.deposit)
        (.pixDepositNotFound devolution.deposit)
      let confirmed : PixDevolution := { devolution with state := .CONFIRMED, endToEndId }
      updateDevolution confirmed
      return confirmed
  | _ => throw (.pixDevolutionInvalidState id)

/-- `HandleCompleteWarningPixDevolutionEventUseCase`. -/
def handleCompleteWarningPixDevolution (id : Uuid) (endToEndId : Option String) :
    App WarningPixDevolution := do
  let db ← get
  let devolution ← orThrow (db.warningDevolutions.get? id) (.warningPixDevolutionNotFound id)
  match devolution.state with
  | .CONFIRMED => return devolution
  | .WAITING => do
      let confirmed : WarningPixDevolution := { devolution with state := .CONFIRMED, endToEndId }
      updateWarningDevolution confirmed
      return confirmed
  | _ => throw (.warningPixDevolutionInvalidState id)

/-- Close an infraction refund operation after its refund operation was settled. -/
def closePixInfractionRefundOperation (settle : Uuid → Except Exception Unit)
    (operation : PixInfractionRefundOperation) : App Unit := do
  call (settle operation.refundOperation)
  updateInfractionRefundOperation { operation with state := .CLOSED }

/-- Close the open infraction refund operations of a refund. -/
def closePixInfractionRefundOperations (settle : Uuid → Except Exception Unit)
    (pixRefund : PixRefund) : App Unit := do
  let db ← get
  (db.getOpenInfractionRefundOperations pixRefund.id).forM
    (closePixInfractionRefundOperation settle)

/-- `HandleCompletePixRefundDevolutionEventUseCase`. -/
def handleCompletePixRefundDevolution (id : Uuid) (endToEndId : Option String) :
    App PixRefundDevolution := do
  let db ← get
  let devolution ← orThrow (db.refundDevolutions.get? id) (.pixRefundDevolutionNotFound id)
  match devolution.state with
  | .CONFIRMED => return devolution
  | .WAITING => do
      let pixRefund ← orThrow (db.getRefundByRefundDevolution id)
        (.pixRefundOfDevolutionNotFound id)
      closePixInfractionRefundOperations services.acceptOperation pixRefund
      let confirmed : PixRefundDevolution := { devolution with state := .CONFIRMED, endToEndId }
      updateRefundDevolution confirmed
      call (services.closeRefundRequest
        { solicitationPspId := pixRefund.solicitationPspId
          devolutionId := pixRefund.refundDevolution
          devolutionEndToEndId := confirmed.endToEndId
          analisysDetails := pixRefund.analysisDetails })
      updateRefund { pixRefund with state := .CLOSED_CONFIRMED }
      return confirmed
  | _ => throw (.pixRefundDevolutionInvalidState id)

end Complete

/-! ### Reverts -/

section Revert

variable (services : Services) (chargebackReason : Option String) (failed : Option Failed)

/-- `HandleRevertPixDevolutionEventUseCase`. -/
def handleRevertPixDevolution (id : Uuid) : App PixDevolution := do
  let db ← get
  let devolution ← orThrow (db.devolutions.get? id) (.pixDevolutionNotFound id)
  match devolution.state with
  | .FAILED => return devolution
  | .PENDING | .WAITING | .CONFIRMED => do
      let deposit ← orThrow (db.deposits.get? devolution.deposit)
        (.pixDepositNotFound devolution.deposit)
      updateDeposit
        { deposit with returnedAmount := deposit.returnedAmount - devolution.amount }
      let reverted : PixDevolution := { devolution with state := .FAILED, chargebackReason, failed }
      updateDevolution reverted
      let hasOperation ← call (services.getOperationById devolution.operation)
      settleFound services.revertOperation hasOperation devolution.operation
      return reverted
  | _ => throw (.pixDevolutionInvalidState id)

/-- `ReceivePixDevolutionChargebackUseCase`: without its operation the devolution would be written
with none, which the column does not allow. -/
def receivePixDevolutionChargeback (id : Uuid) : App PixDevolution := do
  let db ← get
  let devolution ← orThrow (db.devolutions.get? id) (.pixDevolutionNotFound id)
  match devolution.state with
  | .FAILED => return devolution
  | .WAITING => do
      let deposit ← orThrow (db.deposits.get? devolution.deposit)
        (.pixDepositNotFound devolution.deposit)
      updateDeposit
        { deposit with returnedAmount := deposit.returnedAmount - devolution.amount }
      let hasOperation ← call (services.getOperationById devolution.operation)
      let _ ← orThrow hasOperation (.notNullViolation "operationId")
      call (services.revertOperation devolution.operation)
      let reverted : PixDevolution := { devolution with state := .FAILED, chargebackReason, failed }
      updateDevolution reverted
      return reverted
  | _ => throw (.pixDevolutionInvalidState id)

/-- `HandleRevertWarningPixDevolutionEventUseCase`. -/
def handleRevertWarningPixDevolution (id : Uuid) : App WarningPixDevolution := do
  let db ← get
  let devolution ← orThrow (db.warningDevolutions.get? id) (.warningPixDevolutionNotFound id)
  match devolution.state with
  | .FAILED => return devolution
  | .PENDING | .WAITING | .CONFIRMED => do
      let deposit ← orThrow (db.getDepositByOperation devolution.operation)
        (.pixDepositOfOperationNotFound devolution.operation)
      updateDeposit
        { deposit with returnedAmount := deposit.returnedAmount - devolution.amount }
      let reverted : WarningPixDevolution :=
        { devolution with state := .FAILED, chargebackReason, failed }
      updateWarningDevolution reverted
      return reverted
  | _ => throw (.warningPixDevolutionInvalidState id)

/-- What a reverted refund devolution gives back: nothing to a received devolution. -/
def subtractReturnedAmount (db : Database) (devolution : PixRefundDevolution) : App Unit :=
  match devolution.transactionType with
  | .DEPOSIT => do
      let deposit ← orThrow (db.deposits.get? devolution.transaction)
        (.pixDepositNotFound devolution.transaction)
      updateDeposit
        { deposit with returnedAmount := deposit.returnedAmount - devolution.amount }
  | .DEVOLUTION_RECEIVED => pure ()

/-- `revertOperation` of a refund devolution: the refund operations of its refund are reverted. -/
def revertRefundOperations (hasOperation : Option Operation) (id : Uuid) : App Unit :=
  match hasOperation with
  | some _ => do
      let db ← get
      let pixRefund ← orThrow (db.getRefundByRefundDevolution id)
        (.pixRefundOfDevolutionNotFound id)
      closePixInfractionRefundOperations services.revertOperation pixRefund
  | none => pure ()

/-- `HandleRevertPixRefundDevolutionEventUseCase`. -/
def handleRevertPixRefundDevolution (id : Uuid) : App PixRefundDevolution := do
  let db ← get
  let devolution ← orThrow (db.refundDevolutions.get? id) (.pixRefundDevolutionNotFound id)
  match devolution.state with
  | .FAILED => return devolution
  | .PENDING | .WAITING | .CONFIRMED => do
      subtractReturnedAmount db devolution
      let reverted : PixRefundDevolution :=
        { devolution with state := .FAILED, chargebackReason, failed }
      updateRefundDevolution reverted
      let hasOperation ← call (services.getOperationById devolution.operation)
      revertRefundOperations services hasOperation id
      return reverted
  | _ => throw (.pixRefundDevolutionInvalidState id)

end Revert

end ZroServices.Pix
