import ZroServices.Operations.Domain
import ZroServices.Pix.Domain

/-!
# Payments — what a PIX payment touches

A payment is a row of the payments service.  Its money is held by one operation of the operations
service, or two when it pays cash back (`changeOperation`), and it is executed by the PSP, or
inside the bank by a deposit.  `World` holds the tables of the service together with what the two
other services know: only the tables are undone when a database transaction is rolled back
(`World.rollback`).

Times are in milliseconds.  The columns that none of the handlers reads are left out.
-/

namespace ZroServices.Payments

open Foundation
open Pix (Ispb Failed)

inductive PaymentState where
  | PENDING
  | WAITING
  | CONFIRMED
  | ERROR
  | FAILED
  | CANCELED
  | SCHEDULED
  deriving DecidableEq, Repr

/-- What the PSP answers about a payment. -/
inductive PaymentStatusType where
  | SETTLED
  | PROCESSING
  | CHARGEBACK
  deriving DecidableEq, Repr

structure Payment where
  id : Uuid
  user : Uuid
  wallet : Uuid
  /-- A failed payment forgets an operation that was never created. -/
  operation : Option Uuid
  changeOperation : Option Uuid
  state : PaymentState
  value : ℕ
  transactionTag : String
  paymentDate : Option ℤ
  endToEndId : Option String
  externalId : Option String
  txId : Option String
  key : Option String
  description : Option String
  beneficiaryBankIspb : Ispb
  beneficiaryBranch : String
  beneficiaryAccountNumber : String
  beneficiaryDocument : String
  beneficiaryName : Option String
  ownerBranch : String
  ownerAccountNumber : String
  ownerDocument : String
  ownerFullName : String
  chargebackReason : Option String
  failed : Option Failed
  createdAt : ℤ
  updatedAt : ℤ
  confirmedAt : Option ℤ
  canceledAt : Option ℤ
  deriving DecidableEq, Repr

/-- The operations of the payment. -/
def Payment.operations (payment : Payment) : List Uuid :=
  payment.operation.toList ++ payment.changeOperation.toList

/-- A deposit that a payment inside the bank makes: the columns of the payment. -/
structure PaidDeposit where
  id : Uuid
  operation : Option Uuid
  user : Uuid
  wallet : Uuid
  txId : Option String
  amount : ℕ
  bank : Ispb
  clientBranch : String
  clientAccountNumber : String
  clientDocument : String
  clientName : Option String
  clientKey : Option String
  thirdPartBranch : String
  thirdPartAccountNumber : String
  thirdPartDocument : String
  thirdPartName : String
  description : Option String
  transactionTag : String
  deriving DecidableEq, Repr

/-- An operation of the operations service. -/
structure LedgerOperation where
  id : Uuid
  state : OperationState
  deriving DecidableEq, Repr

/-- A payment at the PSP. -/
structure PspPayment where
  id : Uuid
  status : PaymentStatusType
  deriving DecidableEq, Repr

instance : Keyed Payment Uuid := ⟨Payment.id⟩
instance : Keyed PaidDeposit Uuid := ⟨PaidDeposit.id⟩
instance : Keyed LedgerOperation Uuid := ⟨LedgerOperation.id⟩
instance : Keyed PspPayment Uuid := ⟨PspPayment.id⟩

/-- What a failed execution throws. -/
inductive Exception where
  | missingData (fields : List String)
  | paymentNotFound (id : Uuid)
  | paymentOfOperationNotFound (operation : Uuid)
  | paymentInvalidState (id : Uuid) (state : PaymentState)
  | pixPaymentZroAccountNotExists (payment : Uuid)
  | walletAccountNotActive (wallet : Uuid)
  | paymentBetweenSameWallet (wallet : Uuid)
  | bankNotFound
  | operationNotFound (id : Uuid)
  | operationInvalidState (state : OperationState)
  | uniqueConstraint (id : Uuid)
  | service (message : String)
  deriving DecidableEq, Repr

/-- The tables of the service, the operations of the operations service, and the payments of the
PSP. -/
structure World where
  payments : Table Payment
  deposits : Table PaidDeposit
  operations : Table LedgerOperation
  psp : Table PspPayment

namespace World

def empty : World where
  payments := .empty
  deposits := .empty
  operations := .empty
  psp := .empty

variable (w : World)

/-- The state of an operation, if it was created. -/
def stateOf (operation : Uuid) : Option OperationState :=
  (w.operations.get? operation).map LedgerOperation.state

/-- What the PSP knows of a payment. -/
def statusOf (payment : Uuid) : Option PaymentStatusType :=
  (w.psp.get? payment).map PspPayment.status

/-- `PaymentRepository.getByOperationAndWallet`. -/
def getByOperationAndWallet (operation wallet : Uuid) : Option Payment :=
  w.payments.rows.find? fun p =>
    (p.operation = some operation ∨ p.changeOperation = some operation) ∧ p.wallet = wallet

/-- The database transaction that began at `w` is rolled back. -/
def rollback (w' : World) : World :=
  { w' with payments := w.payments, deposits := w.deposits }

end World

abbrev App := EStateM Exception World

end ZroServices.Payments
