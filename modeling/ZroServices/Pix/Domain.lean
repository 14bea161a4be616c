import ZroServices.Foundation.Effect
import ZroServices.Foundation.Table

/-!
# PIX — received transactions and their returns

A PIX deposit and a received devolution bring money to a wallet, and each counts in
`returnedAmount` what of it goes back.  Three kinds of returns share the counter: the devolution
of a deposit, asked for by its owner or after a failed deposit; the warning devolution of a deposit
under suspicion, which names it by its operation; and the refund devolution of either kind of
transaction, for a refund that another bank asked for.

Amounts are integers, in cents, and times are in milliseconds.  The columns of a row that none of
the handlers reads are left out.
-/

namespace ZroServices.Pix

open Foundation

abbrev Uuid := ℕ
abbrev Ispb := String

/-- The states of the three kinds of returns. -/
inductive DevolutionState where
  | PENDING
  | WAITING
  | CONFIRMED
  | ERROR
  | FAILED
  | CANCELED
  deriving DecidableEq, Repr

/-- The return is under way or made. -/
def DevolutionState.live : DevolutionState → Bool
  | PENDING | WAITING | CONFIRMED => true
  | ERROR | FAILED | CANCELED => false

inductive PixDevolutionCode where
  | ORIGINAL
  | FRAUD
  | PSP_ERROR
  | WITHDRAWAL_CHANGE
  deriving DecidableEq, Repr

inductive PixDepositState where
  | NEW
  | RECEIVED
  | WAITING
  | ERROR
  | BLOCKED
  deriving DecidableEq, Repr

inductive PixDevolutionReceivedState where
  | READY
  | ERROR
  deriving DecidableEq, Repr

inductive WarningPixDepositState where
  | CREATED
  | APPROVED
  | REJECTED
  deriving DecidableEq, Repr

inductive PixRefundTransactionType where
  | PAYMENT
  | DEVOLUTION
  | DEPOSIT
  | DEVOLUTION_RECEIVED
  deriving DecidableEq, Repr

inductive PixRefundDevolutionTransactionType where
  | DEPOSIT
  | DEVOLUTION_RECEIVED
  deriving DecidableEq, Repr

inductive PixRefundState where
  | RECEIVE_PENDING
  | RECEIVE_CONFIRMED
  | CANCEL_PENDING
  | CANCEL_CONFIRMED
  | CLOSED_PENDING
  | CLOSED_WAITING
  | CLOSED_CONFIRMED
  | ERROR
  deriving DecidableEq, Repr

inductive PixInfractionState where
  | NEW_CONFIRMED
  | OPEN_PENDING
  | OPEN_CONFIRMED
  | ACKNOWLEDGED_PENDING
  | ACKNOWLEDGED_CONFIRMED
  | IN_ANALYSIS_PENDING
  | IN_ANALYSIS_CONFIRMED
  | CLOSED_PENDING
  | CLOSED_CONFIRMED
  | RECEIVE_PENDING
  | RECEIVE_CONFIRMED
  | CANCEL_PENDING
  | CANCEL_CONFIRMED
  | ERROR
  | EXPIRED
  | REQUEST_REFUND_RECEIVED
  deriving DecidableEq, Repr

inductive PixInfractionAnalysisResultType where
  | AGREED
  | DISAGREED
  deriving DecidableEq, Repr

inductive PixInfractionStatus where
  | ACKNOWLEDGED
  | CLOSED
  | OPEN
  | CANCELLED
  | NEW
  | RECEIVED
  | IN_ANALYSIS
  | OPENED
  deriving DecidableEq, Repr

inductive PixInfractionType where
  | FRAUD
  | REFUND_REQUEST
  | CANCEL_DEVOLUTION
  deriving DecidableEq, Repr

inductive PixRefundStatus where
  | OPEN
  | CLOSED
  | CANCELLED
  | RECEIVED
  deriving DecidableEq, Repr

inductive PixInfractionRefundOperationState where
  | OPEN
  | CLOSED
  deriving DecidableEq, Repr

structure Failed where
  code : String
  message : String
  deriving DecidableEq, Repr

structure PixDeposit where
  id : Uuid
  user : Uuid
  wallet : Uuid
  operation : Uuid
  state : PixDepositState
  endToEndId : String
  amount : ℕ
  returnedAmount : ℤ
  thirdPartBank : Ispb
  thirdPartAccountNumber : String
  description : Option String
  transactionTag : String
  createdAt : ℤ
  deriving DecidableEq, Repr

structure PixDevolutionReceived where
  id : Uuid
  user : Uuid
  wallet : Uuid
  operation : Uuid
  state : PixDevolutionReceivedState
  endToEndId : String
  amount : ℕ
  returnedAmount : ℤ
  thirdPartBank : Ispb
  thirdPartAccountNumber : String
  description : Option String
  deriving DecidableEq, Repr

structure PixDevolution where
  id : Uuid
  user : Uuid
  wallet : Uuid
  operation : Uuid
  deposit : Uuid
  endToEndId : Option String
  externalId : Option String
  amount : ℕ
  description : Option String
  devolutionCode : PixDevolutionCode
  state : DevolutionState
  chargebackReason : Option String
  failed : Option Failed
  deriving DecidableEq, Repr

structure WarningPixDevolution where
  id : Uuid
  user : Uuid
  operation : Uuid
  endToEndId : Option String
  externalId : Option String
  amount : ℕ
  description : Option String
  devolutionCode : PixDevolutionCode
  state : DevolutionState
  chargebackReason : Option String
  failed : Option Failed
  deriving DecidableEq, Repr

structure PixRefundDevolution where
  id : Uuid
  user : Uuid
  operation : Uuid
  transaction : Uuid
  transactionType : PixRefundDevolutionTransactionType
  endToEndId : Option String
  externalId : Option String
  amount : ℕ
  description : Option String
  devolutionCode : PixDevolutionCode
  state : DevolutionState
  chargebackReason : Option String
  failed : Option Failed
  deriving DecidableEq, Repr

structure WarningPixDeposit where
  id : Uuid
  operation : Uuid
  state : WarningPixDepositState
  deriving DecidableEq, Repr

structure PixRefund where
  id : Uuid
  solicitationPspId : String
  operation : Option Uuid
  transaction : Uuid
  transactionType : PixRefundTransactionType
  amount : ℕ
  state : PixRefundState
  analysisDetails : Option String
  refundDevolution : Option Uuid
  createdAt : ℤ
  deriving DecidableEq, Repr

structure PixInfraction where
  id : Uuid
  infractionPspId : String
  infractionType : PixInfractionType
  operation : Option Uuid
  transaction : Uuid
  status : PixInfractionStatus
  state : PixInfractionState
  analysisResult : Option PixInfractionAnalysisResultType
  analysisDetails : Option String
  closingDate : Option ℤ
  deriving DecidableEq, Repr

structure PixInfractionRefundOperation where
  id : Uuid
  user : Uuid
  pixInfraction : Option Uuid
  pixRefund : Option Uuid
  originalOperation : Uuid
  originalOperationValue : ℕ
  refundOperation : Uuid
  refundOperationValue : ℕ
  state : PixInfractionRefundOperationState
  deriving DecidableEq, Repr

instance : Keyed PixDeposit Uuid := ⟨PixDeposit.id⟩
instance : Keyed PixDevolutionReceived Uuid := ⟨PixDevolutionReceived.id⟩
instance : Keyed PixDevolution Uuid := ⟨PixDevolution.id⟩
instance : Keyed WarningPixDevolution Uuid := ⟨WarningPixDevolution.id⟩
instance : Keyed PixRefundDevolution Uuid := ⟨PixRefundDevolution.id⟩
instance : Keyed WarningPixDeposit Uuid := ⟨WarningPixDeposit.id⟩
instance : Keyed PixRefund Uuid := ⟨PixRefund.id⟩
instance : Keyed PixInfraction Uuid := ⟨PixInfraction.id⟩
instance : Keyed PixInfractionRefundOperation Uuid := ⟨PixInfractionRefundOperation.id⟩

/-- `canCreateDevolution` and `canCreateRefundDevolution`: the interval is not over. -/
def withinDays (createdAt intervalDays now : ℤ) : Bool := ¬ createdAt + intervalDays * 86400000 < now

/-- What a failed execution throws. -/
inductive Exception where
  | missingData (fields : List String)
  | forbidden
  | pixDepositNotFound (id : Uuid)
  | pixDepositOfOperationNotFound (operation : Uuid)
  | pixDepositInvalidState (id : Uuid)
  | pixDepositExpiredDevolutionTime (createdAt : ℤ)
  | pixDepositZroAccountNotExists (deposit : Uuid)
  | pixDevolutionAmountOverflow (amount : ℤ)
  | pixDevolutionMaxNumber (count : ℕ)
  | pixDevolutionNotFound (id : Uuid)
  | pixDevolutionInvalidState (id : Uuid)
  | warningPixDepositNotFound (id : Uuid)
  | warningPixDevolutionNotFound (id : Uuid)
  | warningPixDevolutionInvalidState (id : Uuid)
  | pixRefundNotFound (id : Uuid)
  | pixRefundOfDevolutionNotFound (refundDevolution : Uuid)
  | pixTransactionNotFound (id : Uuid)
  | pixRefundTransactionExpiredDevolutionTime (createdAt : ℤ)
  | pixRefundTransactionZroAccountNotExists (transaction : Uuid)
  | pixRefundDevolutionAmountOverflow (amount : ℤ)
  | pixRefundDevolutionMaxNumber (count : ℕ)
  | pixRefundDevolutionNotFound (id : Uuid)
  | pixRefundDevolutionInvalidState (id : Uuid)
  | operationNotFound (id : Uuid)
  | paymentNotFound (operation : Uuid)
  | walletAccountNotActive (wallet : Uuid)
  | typeError
  | invalidSyntaxForBigint
  | notNullViolation (column : String)
  | uniqueConstraint (id : Uuid)
  | service (message : String)
  deriving DecidableEq, Repr

/-- The tables of the service. -/
structure Database where
  deposits : Table PixDeposit
  devolutionsReceived : Table PixDevolutionReceived
  devolutions : Table PixDevolution
  warningDevolutions : Table WarningPixDevolution
  refundDevolutions : Table PixRefundDevolution
  warningDeposits : Table WarningPixDeposit
  refunds : Table PixRefund
  infractions : Table PixInfraction
  infractionRefundOperations : Table PixInfractionRefundOperation
  /-- The operations of the payments. -/
  payments : List Uuid

def Database.empty : Database where
  deposits := .empty
  devolutionsReceived := .empty
  devolutions := .empty
  warningDevolutions := .empty
  refundDevolutions := .empty
  warningDeposits := .empty
  refunds := .empty
  infractions := .empty
  infractionRefundOperations := .empty
  payments := []

namespace Database

variable (db : Database)

/-- `PixDepositRepository.getByEndToEndId`. -/
def getDepositByEndToEndId (endToEndId : String) : Option PixDeposit :=
  db.deposits.rows.find? fun d => d.endToEndId = endToEndId

/-- `PixDevolutionReceivedRepository.getByEndToEndId`. -/
def getDevolutionReceivedByEndToEndId (endToEndId : String) : Option PixDevolutionReceived :=
  db.devolutionsReceived.rows.find? fun r => r.endToEndId = endToEndId

/-- `PixDepositRepository.getByOperation`. -/
def getDepositByOperation (operation : Uuid) : Option PixDeposit :=
  db.deposits.rows.find? fun d => d.operation = operation

/-- `PixDepositRepository.getByOperationAndWallet`. -/
def getDepositByOperationAndWallet (operation wallet : Uuid) : Option PixDeposit :=
  db.deposits.rows.find? fun d => d.operation = operation ∧ d.wallet = wallet

/-- `PixRefundRepository.getByRefundDevolution`. -/
def getRefundByRefundDevolution (refundDevolution : Uuid) : Option PixRefund :=
  db.refunds.rows.find? fun r => r.refundDevolution = some refundDevolution

/-- `PixInfractionRefundOperationRepository.getAllByFilter`, of the open ones of a refund. -/
def getOpenInfractionRefundOperations (pixRefund : Uuid) : List PixInfractionRefundOperation :=
  db.infractionRefundOperations.rows.filter fun o =>
    o.pixRefund = some pixRefund ∧ o.state = .OPEN

/-- The return counts towards the number of returns of a transaction. -/
def counted (state : DevolutionState) : Bool :=
  state ≠ .CANCELED ∧ state ≠ .FAILED ∧ state ≠ .ERROR

/-- `PixDevolutionRepository.countByDeposit`. -/
def countByDeposit (deposit : Uuid) : ℕ :=
  db.devolutions.rows.countP fun d => d.deposit = deposit ∧ counted d.state

/-- `PixRefundDevolutionRepository.countByTransaction`. -/
def countByTransaction (transaction : Uuid) : ℕ :=
  db.refundDevolutions.rows.countP fun d => d.transaction = transaction ∧ counted d.state

/-- The next identifier: above those of the transactions and of their operations. -/
def uuidV4 : Uuid :=
  fresh ((db.deposits.rows.map PixDeposit.id ++ db.deposits.rows.map PixDeposit.operation) ++
    db.devolutionsReceived.rows.map PixDevolutionReceived.id)

end Database

/-- An execution runs in one database transaction. -/
abbrev App := EStateM Exception Database

end ZroServices.Pix
