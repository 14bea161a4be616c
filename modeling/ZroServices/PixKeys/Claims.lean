import ZroServices.PixKeys.Domain

/-!
# PIX keys — the use cases of ownership claims

A claim moves a key from its donor to its claimer.  When both have their accounts here the claim
is settled between two rows: the handlers of CLAIM_CLOSING, CLAIM_DENIED and OWNERSHIP_CANCELING
look the other row up by the key value (`settleClaim`).  A claim of another bank is settled in
DICT, whose notices name the key value only: the use cases `…ClaimProcess` look up the row
(`claimProcess`).  Both take the first row that the query returns.
-/

namespace ZroServices.PixKeys

open Foundation

/-! ### The PSP -/

structure FinishClaimPixKeyPspRequest where
  key : Option String
  keyType : KeyType
  claimId : Uuid
  ispb : String
  deriving DecidableEq, Repr

structure DeletePixKeyPspRequest where
  key : Option String
  keyType : KeyType
  reason : PixKeyReasonType
  ispb : String
  pixKeyId : Uuid
  deriving DecidableEq, Repr

structure CreatePixKeyPspRequest where
  key : Option String
  keyType : KeyType
  personType : PersonType
  document : String
  name : String
  branch : String
  accountNumber : String
  accountOpeningDate : ℤ
  tradeName : Option String
  reason : PixKeyReasonType
  accountType : String
  ispb : String
  pixKeyId : Uuid
  deriving DecidableEq, Repr

structure ClosingClaimPspRequest where
  key : Option String
  keyType : KeyType
  document : String
  reason : ClaimReasonType
  claimId : Uuid
  ispb : String
  deriving DecidableEq, Repr

structure DeniedClaimPspRequest where
  key : Option String
  keyType : KeyType
  document : String
  claimId : Uuid
  ispb : String
  isClaimOwner : Bool
  reason : ClaimReasonType
  deriving DecidableEq, Repr

/-- What the PSP answers to one execution. -/
structure PixKeyGateway where
  finishClaimPixKey : FinishClaimPixKeyPspRequest → Except Exception Unit
  deletePixKey : DeletePixKeyPspRequest → Except Exception Unit
  createPixKey : CreatePixKeyPspRequest → Except Exception (Option String)
  closingClaim : ClosingClaimPspRequest → Except Exception Unit
  deniedClaim : DeniedClaimPspRequest → Except Exception Unit

/-- What one execution finds around it: the order in which the database returns the rows of a
query, the time, and the PSP. -/
structure Env where
  order : List PixKey → List PixKey
  now : ℤ
  ispb : String
  gateway : PixKeyGateway

variable (env : Env)

/-- `getByKeyAndStateIsNotCanceled`. -/
def Database.getByKeyAndStateIsNotCanceled (db : Database) (key : Option String) : List PixKey :=
  env.order (db.notCanceled fun r => r.key = key)

/-! ### Claims of another bank -/

/-- The row that a notice of DICT is taken to be about. -/
def firstOfKey (key : String) : App PixKey := do
  throwIf (key = "") (.missingData ["Key"])
  let db ← get
  orThrow (db.getByKeyAndStateIsNotCanceled env (some key)).head? (.pixKeyNotFoundByKey key)

/-- A key that is `done` is returned; another one, if `accepted`, goes to the state `next`, after
the code `before` and followed by the code `after`. -/
def moveKey (done : KeyState) (accepted : List KeyState) (before : PixKey → App Unit)
    (next : KeyState) (after : PixKey → App Unit) (event : EventKind) (pixKey : PixKey) :
    App PixKey := do
  if pixKey.state = done then return pixKey
  throwIf (pixKey.state ∉ accepted) (.pixKeyInvalidState pixKey)
  before pixKey
  updatePixKey { pixKey with state := next }
  after pixKey
  emit event { pixKey with state := next } none
  return { pixKey with state := next }

/-- Write a date of the claim of the key; a key without a claim is an error of the program. -/
def dateClaim (date : PixKeyClaim → PixKeyClaim) (pixKey : PixKey) : App Unit := do
  let id ← orThrow pixKey.claim .typeError
  modify fun db => match db.claims.get? id with
    | some c => { db with claims := db.claims.set { date c with id } }
    | none => db

def openingDate (c : PixKeyClaim) : PixKeyClaim := { c with claimOpeningDate := some env.now }

def closingDate (c : PixKeyClaim) : PixKeyClaim := { c with claimClosingDate := some env.now }

/-- The PSP finishes the claim. -/
def finishClaim (pixKey : PixKey) : App Unit := do
  let claimId ← orThrow pixKey.claim (.missingData ["Pix Key Claim ID"])
  call (env.gateway.finishClaimPixKey ⟨pixKey.key, pixKey.type, claimId, env.ispb⟩)

def nothing (_ : PixKey) : App Unit := pure ()

/-- The use cases that a notice of DICT calls. -/
inductive ClaimProcess where
  | waitOwnership
  | confirmOwnership
  | completeOwnership
  | cancelOwnership
  | readyOwnership
  | completeClosing
  deriving DecidableEq, Repr

def waitOwnershipClaim : PixKey → App PixKey :=
  moveKey .OWNERSHIP_WAITING [.OWNERSHIP_STARTED] nothing .OWNERSHIP_WAITING
    (dateClaim (openingDate env)) .ownershipWaiting

def confirmOwnershipClaim : PixKey → App PixKey :=
  moveKey .OWNERSHIP_CONFIRMED [.OWNERSHIP_STARTED, .OWNERSHIP_WAITING] (finishClaim env)
    .OWNERSHIP_CONFIRMED nothing .ownershipConfirmed

def completeOwnershipClaim : PixKey → App PixKey :=
  moveKey .OWNERSHIP_READY [.OWNERSHIP_STARTED, .OWNERSHIP_WAITING, .OWNERSHIP_CONFIRMED] nothing
    .OWNERSHIP_READY (dateClaim (closingDate env)) .ownershipReady

def cancelOwnershipClaim : PixKey → App PixKey :=
  moveKey .OWNERSHIP_CANCELED [.OWNERSHIP_STARTED, .OWNERSHIP_WAITING, .OWNERSHIP_CONFIRMED] nothing
    .OWNERSHIP_CANCELED (dateClaim (closingDate env)) .ownershipCanceled

def readyOwnershipClaim : PixKey → App PixKey :=
  moveKey .CLAIM_PENDING pixKeyReadyStates nothing .CLAIM_PENDING (dateClaim (openingDate env))
    .claimPending

def completeClosingClaim : PixKey → App PixKey :=
  moveKey .CLAIM_CLOSED [.CLAIM_CLOSING] nothing .CLAIM_CLOSED nothing .claimClosed

/-- What a use case does with the row that it found. -/
def ClaimProcess.act : ClaimProcess → PixKey → App PixKey
  | waitOwnership => waitOwnershipClaim env
  | confirmOwnership => confirmOwnershipClaim env
  | completeOwnership => completeOwnershipClaim env
  | cancelOwnership => cancelOwnershipClaim env
  | readyOwnership => readyOwnershipClaim env
  | completeClosing => completeClosingClaim

def ClaimProcess.execute (process : ClaimProcess) (key : String) : App PixKey := do
  let pixKey ← firstOfKey env key
  process.act env pixKey

/-! ### Claims between two users of the bank -/

/-- The claim that a row was given, as it is stored. -/
def claimOf (pixKey : PixKey) : App PixKeyClaim := do
  let id ← orThrow pixKey.claim (.missingData ["Pix Key Claim ID"])
  let db ← get
  orThrow (db.claims.get? id) (.pixKeyClaimNotFound id)

/-- A handler that settles a claim: from the state `own` of its row to `next`, with the other row
of the key, if there is one, in the state `other` and then in `otherNext`. -/
structure Settlement where
  done : KeyState
  own : KeyState
  other : KeyState
  otherNext : KeyState
  otherEvent : EventKind
  next : KeyState
  event : EventKind

/-- The other row is found here. -/
def settleBetween (h : Settlement) (inside : PixKey → PixKey → App Unit)
    (pixKey pixKeyOwnedByThirdPerson : PixKey) : App Unit := do
  throwIf (pixKeyOwnedByThirdPerson.state ≠ h.other)
    (.pixKeyInvalidState pixKeyOwnedByThirdPerson)
  inside pixKey pixKeyOwnedByThirdPerson
  updatePixKey { pixKeyOwnedByThirdPerson with state := h.otherNext }
  emit h.otherEvent { pixKeyOwnedByThirdPerson with state := h.otherNext } none

/-- The row of the handler itself. -/
def settleOwn (h : Settlement) (pixKey : PixKey) : App PixKey := do
  updatePixKey { pixKey with state := h.next }
  emit h.event { pixKey with state := h.next } none
  return { pixKey with state := h.next }

/-- The handler: `inside` is what it asks of the PSP when the other row is found here, and
`outside` when it is not. -/
def settleClaim (h : Settlement) (inside : PixKey → PixKey → App Unit)
    (outside : ClaimReasonType → PixKey → App Unit) (id : Uuid) (reason : Option ClaimReasonType) :
    App PixKey := do
  let reason ← orThrow reason (.missingData ["Reason"])
  let db ← get
  let pixKey ← orThrow (db.getByIdAndStateIsNotCanceled id) (.pixKeyNotFound id)
  if pixKey.state = h.done then return pixKey
  throwIf (pixKey.state ≠ h.own) (.pixKeyInvalidState pixKey)
  let foundReadyKeys := db.getByKeyAndStateIsNotCanceled env pixKey.key
  match foundReadyKeys.find? fun r => r.id ≠ pixKey.id with
  | some pixKeyOwnedByThirdPerson => settleBetween h inside pixKey pixKeyOwnedByThirdPerson
  | none => outside reason pixKey
  settleOwn h pixKey

/-- The key is deleted in DICT for its donor and created for the claimer. -/
def transferKey (pixKey pixKeyOwnedByThirdPerson : PixKey) : App Unit := do
  call (env.gateway.deletePixKey ⟨pixKey.key, pixKey.type, .USER_REQUESTED, env.ispb, pixKey.id⟩)
  let _ ← call (env.gateway.createPixKey
    { key := pixKeyOwnedByThirdPerson.key
      keyType := pixKeyOwnedByThirdPerson.type
      personType := pixKeyOwnedByThirdPerson.personType
      document := pixKeyOwnedByThirdPerson.document
      name := pixKeyOwnedByThirdPerson.name
      branch := pixKeyOwnedByThirdPerson.branch
      accountNumber := pixKeyOwnedByThirdPerson.accountNumber
      accountOpeningDate := pixKeyOwnedByThirdPerson.accountOpeningDate
      tradeName := pixKey.tradeName
      reason := .USER_REQUESTED
      accountType := "CACC"
      ispb := env.ispb
      pixKeyId := pixKeyOwnedByThirdPerson.id })

def claimClosing : Settlement where
  done := .CLAIM_CLOSED
  own := .CLAIM_CLOSING
  other := .OWNERSHIP_WAITING
  otherNext := .OWNERSHIP_READY
  otherEvent := .ownershipReady
  next := .CLAIM_CLOSED
  event := .claimClosed

def handleClaimClosing : Uuid → Option ClaimReasonType → App PixKey :=
  settleClaim env claimClosing (transferKey env) fun reason pixKey => do
    let claim ← claimOf pixKey
    let document ← orThrow claim.document (.pixKeyClaimNotFound claim.id)
    call (env.gateway.closingClaim ⟨pixKey.key, pixKey.type, document, reason, claim.id, env.ispb⟩)

def claimDenied : Settlement where
  done := .READY
  own := .CLAIM_DENIED
  other := .OWNERSHIP_WAITING
  otherNext := .OWNERSHIP_CANCELED
  otherEvent := .ownershipCanceled
  next := .READY
  event := .ready

def handleClaimDenied : Uuid → Option ClaimReasonType → App PixKey :=
  settleClaim env claimDenied (fun _ _ => pure ()) fun reason pixKey => do
    let claim ← claimOf pixKey
    let document ← orThrow claim.document (.pixKeyClaimNotFound claim.id)
    call (env.gateway.deniedClaim
      ⟨pixKey.key, pixKey.type, document, claim.id, env.ispb, false, reason⟩)

def ownershipCanceling : Settlement where
  done := .OWNERSHIP_CANCELED
  own := .OWNERSHIP_CANCELING
  other := .CLAIM_PENDING
  otherNext := .READY
  otherEvent := .ready
  next := .OWNERSHIP_CANCELED
  event := .ownershipCanceled

def handleOwnershipCanceling : Uuid → Option ClaimReasonType → App PixKey :=
  settleClaim env ownershipCanceling (fun _ _ => pure ()) fun reason pixKey => do
    let claimId ← orThrow pixKey.claim (.missingData ["Pix Key Claim ID"])
    call (env.gateway.deniedClaim
      ⟨pixKey.key, pixKey.type, pixKey.document, claimId, env.ispb, true, reason⟩)

/-- The handlers of a claim between two rows. -/
inductive ClaimHandler where
  | claimClosing
  | claimDenied
  | ownershipCanceling
  deriving DecidableEq, Repr

namespace ClaimHandler

def settlement : ClaimHandler → Settlement
  | claimClosing => PixKeys.claimClosing
  | claimDenied => PixKeys.claimDenied
  | ownershipCanceling => PixKeys.ownershipCanceling

def handle : ClaimHandler → Uuid → Option ClaimReasonType → App PixKey
  | claimClosing => handleClaimClosing env
  | claimDenied => handleClaimDenied env
  | ownershipCanceling => handleOwnershipCanceling env

/-- The row that the handler is called for. -/
def own (handler : ClaimHandler) (claimer donor : PixKey) : PixKey :=
  match handler with
  | claimClosing | claimDenied => donor
  | ownershipCanceling => claimer

/-- The other row. -/
def other (handler : ClaimHandler) (claimer donor : PixKey) : PixKey :=
  match handler with
  | claimClosing | claimDenied => claimer
  | ownershipCanceling => donor

end ClaimHandler

end ZroServices.PixKeys
