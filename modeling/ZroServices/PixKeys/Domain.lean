import ZroServices.Foundation.Effect
import ZroServices.Foundation.Transaction
import ZroServices.Operations.Domain

/-!
# PIX keys — rows, queries and exceptions

A PIX key is an e-mail address, a telephone number, a document or a random value by which the
accounts of a user are found in DICT, the directory of the central bank.  The service keeps one
row for every key that a user registered, and a row goes through the states of `KeyState`: from
its code being verified, through its creation in DICT, to a claim by which another user or another
bank takes it over.  Rows of one key value may belong to several users.

`Database` holds the tables of the service and the events that a transaction sends when it
commits.  A query that returns several rows returns them in any order (`Env.order`).
-/

namespace ZroServices.PixKeys

open Foundation

inductive KeyType where
  | CNPJ
  | CPF
  | PHONE
  | EMAIL
  | EVP
  deriving DecidableEq, Repr

inductive KeyState where
  | PENDING
  | CONFIRMED
  | NOT_CONFIRMED
  | ADD_KEY_READY
  | READY
  | CANCELED
  | ERROR
  | DELETING
  | DELETED
  | PORTABILITY_PENDING
  | PORTABILITY_OPENED
  | PORTABILITY_STARTED
  | PORTABILITY_READY
  | PORTABILITY_CONFIRMED
  | PORTABILITY_CANCELING
  | PORTABILITY_CANCELED
  | PORTABILITY_REQUEST_PENDING
  | PORTABILITY_REQUEST_CANCEL_OPENED
  | PORTABILITY_REQUEST_CANCEL_STARTED
  | PORTABILITY_REQUEST_CONFIRM_OPENED
  | PORTABILITY_REQUEST_CONFIRM_STARTED
  | PORTABILITY_REQUEST_AUTO_CONFIRMED
  | OWNERSHIP_PENDING
  | OWNERSHIP_OPENED
  | OWNERSHIP_STARTED
  | OWNERSHIP_CONFIRMED
  | OWNERSHIP_READY
  | OWNERSHIP_CANCELING
  | OWNERSHIP_CANCELED
  | OWNERSHIP_WAITING
  | OWNERSHIP_CONFLICT
  | CLAIM_NOT_CONFIRMED
  | CLAIM_PENDING
  | CLAIM_CLOSING
  | CLAIM_DENIED
  | CLAIM_CLOSED
  deriving DecidableEq, Repr

inductive PersonType where
  | NATURAL_PERSON
  | LEGAL_PERSON
  deriving DecidableEq, Repr

inductive ClaimReasonType where
  | FRAUD
  | USER_REQUESTED
  | ACCOUNT_CLOSURE
  | DEFAULT_OPERATION
  deriving DecidableEq, Repr

inductive PixKeyReasonType where
  | USER_REQUESTED
  | ACCOUNT_CLOSURE
  | BRANCH_TRANSFER
  | ENTRY_INACTIVITY
  | RECONCILIATION
  deriving DecidableEq, Repr

structure PixKey where
  id : Uuid
  type : KeyType
  key : Option String
  personType : PersonType
  document : String
  name : String
  tradeName : Option String
  user : Uuid
  accountNumber : String
  branch : String
  state : KeyState
  accountOpeningDate : ℤ
  code : Option String
  /-- The claim of the key that DICT reported last. -/
  claim : Option Uuid
  deriving DecidableEq, Repr

structure PixKeyClaim where
  id : Uuid
  document : Option String
  claimOpeningDate : Option ℤ
  claimClosingDate : Option ℤ
  deriving DecidableEq, Repr

inductive PixKeyVerificationState where
  | OK
  | FAILED
  deriving DecidableEq, Repr

/-- A try to verify the code of a key. -/
structure PixKeyVerification where
  pixKey : Uuid
  code : String
  state : PixKeyVerificationState
  deriving DecidableEq, Repr

instance : Keyed PixKey Uuid := ⟨PixKey.id⟩
instance : Keyed PixKeyClaim Uuid := ⟨PixKeyClaim.id⟩

/-! ### States -/

def pixKeyReadyStates : List KeyState :=
  [.READY, .ADD_KEY_READY, .PORTABILITY_READY, .OWNERSHIP_READY]

def pixKeyCanceledStates : List KeyState :=
  [.NOT_CONFIRMED, .PORTABILITY_REQUEST_AUTO_CONFIRMED, .PORTABILITY_REQUEST_CONFIRM_STARTED,
    .PORTABILITY_CANCELED, .OWNERSHIP_CANCELED, .OWNERSHIP_CONFLICT, .CLAIM_CLOSED]

namespace PixKey

variable (p : PixKey)

def isSendCodeState : Bool := p.state ∈ [.PENDING, .CLAIM_PENDING]

def isSendCodeType : Bool := p.type ∈ [.EMAIL, .PHONE]

def isVerifiedCodeState : Bool := p.state ∈ [.PENDING, .CLAIM_PENDING]

def isVerifiedCodeValue (code : String) : Bool := some code = p.code

def isReadyState : Bool := p.state ∈ pixKeyReadyStates

def isCanceledState : Bool := p.state ∈ pixKeyCanceledStates

end PixKey

/-! ### Events -/

/-- The events of a key, under the names of the emitter. -/
inductive EventKind where
  | pending
  | confirmed
  | notConfirmed
  | addReady
  | ready
  | ownershipPending
  | ownershipOpened
  | ownershipStarted
  | ownershipWaiting
  | ownershipConfirmed
  | ownershipReady
  | ownershipCanceled
  | ownershipCanceling
  | ownershipConflict
  | portabilityPending
  | claimPending
  | claimNotConfirmed
  | claimDenied
  | claimClosing
  | claimClosed
  | deleting
  | deleted
  | canceled
  deriving DecidableEq, Repr

structure PixKeyEvent where
  kind : EventKind
  pixKey : PixKey
  reason : Option ClaimReasonType
  deriving DecidableEq, Repr

/-! ### The database -/

structure Database where
  pixKeys : Table PixKey
  claims : Table PixKeyClaim
  verifications : List PixKeyVerification
  events : List PixKeyEvent
  deriving DecidableEq

/-- No rows and no events. -/
def Database.empty : Database := ⟨Table.empty, Table.empty, [], []⟩

inductive Exception where
  | missingData (fields : List String)
  | nullPointer (message : String)
  | typeError
  | uniqueConstraint (id : Uuid)
  | forbidden
  | userNotFound (user : Uuid)
  | onboardingNotFound (user : Uuid)
  | pixKeyUnsupportedCnpjType
  | invalidEmailFormat (key : Option String)
  | invalidPhoneNumberFormat (key : Option String)
  | invalidDocumentFormat (key : Option String)
  | maxNumberOfPixKeysReached (maxNumber : ℕ)
  | pixKeyAlreadyCreated (id : Uuid)
  | pixKeyNotFound (id : Uuid)
  | pixKeyNotFoundByKey (key : String)
  | pixKeyInvalidState (pixKey : PixKey)
  | pixKeyInvalidType (pixKey : PixKey)
  | pixKeyVerificationOverflow (pixKey : PixKey) (pastRetries : ℕ)
  | pixKeyClaimNotFound (id : Uuid)
  | pixKeyOwnedByThirdPersonPsp
  | pixKeyOwnedBySamePersonPsp
  | psp
  | user
  | notification
  deriving DecidableEq, Repr

abbrev App := EStateM Exception Database

namespace Database

variable (db : Database)

/-- The rows that are not canceled and of which `p` holds. -/
def notCanceled (p : PixKey → Prop) [DecidablePred p] : List PixKey :=
  db.pixKeys.rows.filter fun r => p r ∧ r.state ≠ .CANCELED

variable {db} in
theorem mem_notCanceled {c : PixKey → Prop} [DecidablePred c] {r : PixKey} :
    r ∈ db.notCanceled c ↔ r ∈ db.pixKeys.rows ∧ c r ∧ r.state ≠ .CANCELED := by
  simp [notCanceled]

def getByIdAndStateIsNotCanceled (id : Uuid) : Option PixKey :=
  (db.notCanceled fun r => r.id = id).head?

def getByUserAndIdAndStateIsNotCanceled (user id : Uuid) : Option PixKey :=
  (db.notCanceled fun r => r.id = id ∧ r.user = user).head?

def getByUserAndKeyAndStateIsNotCanceled (user : Uuid) (key : Option String) : Option PixKey :=
  (db.notCanceled fun r => r.user = user ∧ r.key = key).head?

def countByUserAndStateIsNotCanceled (user : Uuid) : ℕ :=
  (db.notCanceled fun r => r.user = user).length

def countByPixKey (pixKey : Uuid) : ℕ :=
  (db.verifications.filter fun v => v.pixKey = pixKey).length

end Database

/-- `update`: the whole row. -/
def updatePixKey (p : PixKey) : App Unit :=
  modify fun db => { db with pixKeys := db.pixKeys.set p }

/-- Send an event when the transaction commits. -/
def emit (kind : EventKind) (pixKey : PixKey) (reason : Option ClaimReasonType) : App Unit :=
  modify fun db => { db with events := db.events ++ [⟨kind, pixKey, reason⟩] }

end ZroServices.PixKeys
