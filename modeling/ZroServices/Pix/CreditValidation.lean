import ZroServices.Foundation.Run
import ZroServices.Foundation.Table
import ZroServices.Pix.QrCodeStatic

/-!
# PIX — validation of received credits

`CreateNotifyCreditValidationUseCase` answers whether a credit can be received.  A static QR code
with a due date is answered for by itself, with a mark in redis when it is to be paid once; any
other credit by the account, its user and the payment that it gives back, and that answer is kept in
redis for the account.

An execution goes from one call of redis to the next, and others go on in between.  The calls of the
user and payment services are made between two of redis, and answer the same throughout.

A text that is missing is an empty one: the use case tells them apart nowhere.  When a response was
created is left out.
-/

namespace ZroServices.Pix.CreditValidation

open Foundation

abbrev Uuid := ℕ

/-- `AccountType`. -/
inductive AccountType where
  | CACC | CASH | CHAR | CISH | COMM | CPAC | LLSV | LOAN | MGLD | MOMA | NREX | ODFT | ONDP | OTHR
  | SACC | SLRY | SVGS | TAXE | TRAN | TRAS | CC
  deriving DecidableEq, Repr

/-- The codes of `JdpiErrorCode` that the use case answers with. -/
inductive JdpiErrorCode where
  | AC03
  | AC07
  | AG03
  | AM09
  | BE01
  | BE17
  | DS04
  | ED05
  deriving DecidableEq, Repr

inductive ResultType where
  | VALID
  | INVALID
  deriving DecidableEq, Repr

structure Response where
  resultType : ResultType
  devolutionCode : Option JdpiErrorCode
  deriving DecidableEq, Repr

def Response.valid : Response := ⟨.VALID, none⟩

def Response.invalid (devolutionCode : Option JdpiErrorCode) : Response :=
  ⟨.INVALID, devolutionCode⟩

structure NotifyCreditValidation where
  clientIspb : String
  clientDocument : String
  clientAccountType : AccountType
  clientAccountNumber : String
  amount : ℤ
  clientConciliationId : TxId
  originalEndToEndId : String
  groupId : String
  deriving DecidableEq, Repr

structure User where
  document : String
  active : Bool
  deriving DecidableEq, Repr

structure Config where
  ispb : String
  /-- The digest of the information that a validation is kept under. -/
  hash : String → String
  /-- Reads a date in the format `YYYYMMDDHHmmss`, at UTC−3. -/
  parseDate : String → Option ℤ

/-- What the services answer. -/
structure Services where
  /-- The user of the finished onboarding of an account. -/
  getOnboarding : String → Option Uuid
  getUserByUuid : Uuid → Option User
  /-- The value of a payment. -/
  getPaymentByEndToEndId : String → Option ℤ

/-- A validation that is kept. -/
structure CachedValidation where
  hash : String
  payload : NotifyCreditValidation
  response : Response
  deriving DecidableEq, Repr

instance : Keyed CachedValidation String := ⟨CachedValidation.hash⟩

/-- The mark of a QR code that was paid. -/
structure PaidMark where
  txId : TxId
  expiresAt : Option ℤ
  deriving DecidableEq, Repr

instance : Keyed PaidMark TxId := ⟨PaidMark.txId⟩

inductive Event where
  | pendingCreditValidation
  | readyCreditValidation
  | errorCreditValidation
  deriving DecidableEq, Repr

/-- Where an execution is, by what it does next. -/
inductive Stage where
  | getByTxId (txId : TxId) (dueDate : Option ℤ)
  /-- The lifetime of the mark is computed. -/
  | measure (txId : TxId) (dueDate : Option ℤ)
  /-- `none` is `NaN`. -/
  | create (txId : TxId) (ttl : Option ℤ)
  | getByHash
  | createHash (response : Response)
  | answered (response : Response) (event : Event)
  deriving DecidableEq, Repr

structure World where
  validations : Table CachedValidation
  qrCodes : Table PaidMark
  now : ℤ
  deriving DecidableEq

namespace NotifyCreditValidation

variable (payload : NotifyCreditValidation)

/-- `handleValidCredit` and `handleInvalidCredit`, after the response was kept. -/
def answer (response : Response) : Stage :=
  .answered response <|
    if payload.groupId ≠ "" then .pendingCreditValidation
    else if response.resultType = .VALID then .readyCreditValidation
    else .errorCreditValidation

/-- `handleInvalidCredit` without a hash. -/
def refuse (devolutionCode : JdpiErrorCode) : Stage :=
  payload.answer (.invalid (some devolutionCode))

/-- `checkQrCodeStaticWithDueDate`, up to the call of redis. -/
def checkQrCodeStaticWithDueDate (config : Config) (now : ℤ) : Stage :=
  let txId := payload.clientConciliationId
  let dueDate := txId.getDueDate config.parseDate
  if ∃ t ∈ dueDate, t ≤ now then payload.refuse .BE17
  else if txId.isPayableManyTimes then payload.answer .valid
  else .getByTxId txId dueDate

/-- `execute`, up to the first call of redis. -/
def begin (config : Config) (now : ℤ) : Stage :=
  let txId := payload.clientConciliationId
  if payload.clientIspb = "" ∨ payload.clientIspb ≠ config.ispb ∨
      payload.clientAccountNumber = "" ∨ payload.clientDocument = "" then
    payload.refuse .DS04
  else if payload.clientAccountType ≠ .CACC then payload.refuse .AG03
  else if txId ≠ [] ∧ txId.isFastFormat then
    if ¬ txId.checkTxId then payload.refuse .BE17
    else if txId.hasValue ∧ txId.getValue ≠ payload.amount then payload.refuse .BE17
    else if txId.hasDueDate then payload.checkQrCodeStaticWithDueDate config now
    else .getByHash
  else .getByHash

/-- What is wrong with the payment that the credit gives back. -/
def originalRefusal (services : Services) : Option JdpiErrorCode :=
  if payload.originalEndToEndId = "" then none
  else match services.getPaymentByEndToEndId payload.originalEndToEndId with
    | none => some .ED05
    | some value => if value < payload.amount then some .AM09 else none

/-- The checks that are made when no validation is kept. -/
def validate (services : Services) : Response :=
  match services.getOnboarding payload.clientAccountNumber with
  | none => .invalid (some .AC03)
  | some uuid =>
      match services.getUserByUuid uuid with
      | none => .invalid (some .ED05)
      | some user =>
          if user.document ≠ payload.clientDocument then .invalid (some .BE01)
          else if ¬ user.active then .invalid (some .AC07)
          else match payload.originalRefusal services with
            | some devolutionCode => .invalid (some devolutionCode)
            | none => .valid

end NotifyCreditValidation

namespace World

variable (w : World)

/-- `qrCodeStaticCacheRepository.getByTxId`: a key of redis is gone after its time. -/
def getByTxId (txId : TxId) : Option PaidMark :=
  (w.qrCodes.get? txId).filter fun mark => decide (∀ t ∈ mark.expiresAt, w.now ≤ t)

/-- `qrCodeStaticCacheRepository.create`: without a lifetime, or with one of 0, the key stays; redis
refuses a negative one, and the error is not looked at. -/
def create (txId : TxId) (ttl : Option ℤ) : World :=
  match ttl with
  | none => { w with qrCodes := w.qrCodes.upsert ⟨txId, none⟩ }
  | some t =>
      if t = 0 then { w with qrCodes := w.qrCodes.upsert ⟨txId, none⟩ }
      else if t < 0 then w
      else { w with qrCodes := w.qrCodes.upsert ⟨txId, some (w.now + t)⟩ }

/-- An execution goes on by one call, or computes the lifetime of a mark. -/
def go (config : Config) (services : Services) (payload : NotifyCreditValidation) :
    Stage → World × Stage
  | .getByTxId txId dueDate =>
      match w.getByTxId txId with
      | some _ => (w, payload.refuse .BE17)
      | none => (w, .measure txId dueDate)
  | .measure txId dueDate => (w, .create txId (dueDate.map fun t => t - w.now))
  | .create txId ttl => (w.create txId ttl, payload.answer .valid)
  | .getByHash =>
      match w.validations.get? (config.hash payload.clientAccountNumber) with
      | some kept =>
          (w, payload.answer <|
            if kept.response.resultType = .VALID then .valid
            else .invalid kept.response.devolutionCode)
      | none => (w, .createHash (payload.validate services))
  | .createHash response =>
      ({ w with
        validations := w.validations.upsert
          ⟨config.hash payload.clientAccountNumber, payload, response⟩ }, payload.answer response)
  | .answered response event => (w, .answered response event)

end World

/-! ### Executions one after the other -/

/-- An execution that nothing else goes on beside: it goes on three times at most. -/
def World.execute (w : World) (config : Config) (services : Services)
    (payload : NotifyCreditValidation) : World × Stage :=
  let go (s : World × Stage) := s.1.go config services payload s.2
  go (go (go (w, payload.begin config w.now)))

namespace Serial

inductive Step where
  | request (payload : NotifyCreditValidation)
  /-- A validation is no longer kept. -/
  | expire (hash : String)
  | tick (ms : ℕ)
  deriving DecidableEq, Repr

def step (config : Config) (services : Services) (w : World) : Step → World
  | .request payload => (w.execute config services payload).1
  | .expire hash => { w with validations := w.validations.filter fun kept => kept.hash ≠ hash }
  | .tick ms => { w with now := w.now + ms }

end Serial

def start (now : ℤ) : World := ⟨Table.empty, Table.empty, now⟩

/-! ### Executions side by side -/

structure Execution where
  payload : NotifyCreditValidation
  stage : Stage
  /-- When it began, and tested the due date.  Nothing reads it. -/
  begunAt : ℤ
  deriving DecidableEq, Repr

namespace SideBySide

structure State where
  world : World
  executions : List Execution
  deriving DecidableEq

inductive Step where
  | request (payload : NotifyCreditValidation)
  | go (i : ℕ)
  /-- A validation is no longer kept. -/
  | expire (hash : String)
  | tick (ms : ℕ)
  deriving DecidableEq, Repr

def step (config : Config) (services : Services) (s : State) : Step → State
  | .request payload =>
      { s with
        executions := s.executions ++ [⟨payload, payload.begin config s.world.now, s.world.now⟩] }
  | .go i =>
      match s.executions[i]? with
      | none => s
      | some x =>
          let (world, stage) := s.world.go config services x.payload x.stage
          ⟨world, s.executions.set i { x with stage := stage }⟩
  | .expire hash =>
      { s with world := { s.world with
        validations := s.world.validations.filter fun kept => kept.hash ≠ hash } }
  | .tick ms => { s with world := { s.world with now := s.world.now + ms } }

def start (now : ℤ) : State := ⟨CreditValidation.start now, []⟩

end SideBySide

end ZroServices.Pix.CreditValidation
