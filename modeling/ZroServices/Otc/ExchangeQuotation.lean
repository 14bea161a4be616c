import ZroServices.Otc.PspLimits

/-!
# OTC — exchange quotations

`HandleCreateAndAcceptExchangeQuotationEventUseCase` takes a batch of remittances that is ready,
creates a quotation at the PSP and accepts it, and stores it with a link to each remittance.  The
writes are of one transaction, which is undone when an exception leaves the handler; what the PSP
did stays.  `SyncStateExchangeQuotationUseCase` asks the PSP for the status of the stored quotations
that are accepted or approved, writes the remittances and then the quotation; it runs in no
transaction.

A call of a repository or of the gateway may fail: `fails` says which calls of an execution do.
A run is a sequence of steps (`Command`) of deliveries, of sync runs, one quotation at a time, and
of the PSP.
-/

namespace ZroServices

open Foundation

namespace Otc.Trade

/-! ### Rows -/

structure ExchangeQuotation where
  id : Uuid
  quotationPspId : String
  solicitationPspId : Uuid
  quotation : ℤ
  amount : ℤ
  amountExternalCurrency : ℤ
  state : ExchangeQuotationState
  gatewayName : String
  provider : Option Uuid
  system : Option Uuid
  deriving DecidableEq, Repr

instance : Keyed ExchangeQuotation Uuid := ⟨ExchangeQuotation.id⟩

structure RemittanceExchangeQuotation where
  remittance : Uuid
  exchangeQuotation : Uuid
  deriving DecidableEq, Repr

/-- A remittance is linked to a quotation once. -/
instance : Keyed RemittanceExchangeQuotation (Uuid × Uuid) :=
  ⟨fun l => (l.remittance, l.exchangeQuotation)⟩

/-- The columns of a remittance that closing it writes. -/
structure RemittanceResult where
  remittance : Uuid
  bankQuote : ℤ
  resultAmount : ℤ
  deriving DecidableEq, Repr

instance : Keyed RemittanceResult Uuid := ⟨RemittanceResult.remittance⟩

/-- A quotation at the PSP, and its status; none when the PSP does not find it any more. -/
structure PspQuotation where
  id : Uuid
  status : Option ExchangeQuotationState
  deriving DecidableEq, Repr

instance : Keyed PspQuotation Uuid := ⟨PspQuotation.id⟩

structure Stores where
  remittances : Table Remittance
  results : Table RemittanceResult
  exchangeQuotations : Table ExchangeQuotation
  remittanceExchangeQuotations : Table RemittanceExchangeQuotation
  deriving DecidableEq

inductive Event where
  | closedRemittance (r : Remittance)
  | approvedExchangeQuotation (q : ExchangeQuotation)
  | completedExchangeQuotation (q : ExchangeQuotation)
  | canceledExchangeQuotation (q : ExchangeQuotation)
  deriving DecidableEq, Repr

/-- The stores, the PSP, and the events. -/
structure World where
  stores : Stores
  psp : Table PspQuotation
  events : List Event
  deriving DecidableEq

/-- The states of the quotations that a remittance is linked to. -/
def quotationStates (s : Stores) (remittance : Uuid) : List ExchangeQuotationState :=
  (s.remittanceExchangeQuotations.rows.filter (·.remittance = remittance)).filterMap fun l =>
    (s.exchangeQuotations.get? l.exchangeQuotation).map (·.state)

/-- The links of a quotation. -/
def getAllByExchangeQuotation (s : Stores) (q : Uuid) : List RemittanceExchangeQuotation :=
  s.remittanceExchangeQuotations.rows.filter (·.exchangeQuotation = q)

/-! ### Create and accept -/

namespace HandleCreateAndAccept

/-- A call of the gateway: what the PSP does, and whether the gateway returns. -/
structure GatewayCall where
  performed : Bool
  answered : Bool
  deriving DecidableEq, Repr

/-- The answer of the PSP to a quotation it creates. -/
structure CreateExchangeQuotationResponse where
  quotationId : String
  fxRate : ℤ
  internalValue : ℤ
  externalValue : ℤ
  gatewayName : String
  deriving DecidableEq, Repr

/-- The repository calls that write. -/
inductive Call where
  | createExchangeQuotation
  | createOrUpdateServer
  | createRemittanceExchangeQuotation (remittance : Uuid)
  deriving DecidableEq, Repr

/-- What other services and the PSP answer in an execution, and the calls that fail. -/
structure Answers where
  createExchangeQuotationDeactive : Bool
  currencyFound : CurrencyTag → Bool
  streamQuotationFound : Bool
  zroBankPartnerId : ℕ
  create : GatewayCall
  response : CreateExchangeQuotationResponse
  accept : GatewayCall
  fails : Call → Bool

inductive Exception where
  | refused (e : HandleCreateAndAcceptExchangeQuotationEventUseCase.Exception)
  | exchangeQuotationPsp
  | uniqueConstraint (table : String)
  | failed (call : Call)
  deriving DecidableEq, Repr

abbrev App := EStateM Exception World

variable (answers : Answers)

/-- A call that fails throws. -/
def called (call : Call) : App Unit := throwIf (answers.fails call) (.failed call)

def services (s : Stores) : HandleCreateAndAcceptExchangeQuotationEventUseCase.Services where
  createExchangeQuotationDeactive := answers.createExchangeQuotationDeactive
  exchangeQuotations := quotationStates s
  currencyFound := answers.currencyFound
  streamQuotationFound := answers.streamQuotationFound
  zroBankPartnerId := answers.zroBankPartnerId

/-- The checks, and the request for the PSP. -/
def request (e : ReadyExchangeQuotation) : App (Option CreateExchangeQuotationRequest) := do
  let w ← get
  match HandleCreateAndAcceptExchangeQuotationEventUseCase.createRequest
      (services answers w.stores) w.stores.remittances e with
  | .ok request => return request
  | .error e => throw (.refused e)

/-- The PSP creates a quotation, which is pending. -/
def createExchangeQuotation : App Uuid := do
  let w ← get
  let id := fresh (w.psp.rows.map (·.id))
  if answers.create.performed then
    modify fun w => { w with psp := w.psp.upsert ⟨id, some .PENDING⟩ }
  throwIf (¬ (answers.create.performed ∧ answers.create.answered)) .exchangeQuotationPsp
  return id

/-- The PSP accepts the quotation; `isAccepted` of the answer is not looked at. -/
def acceptExchangeQuotation (id : Uuid) : App Unit := do
  if answers.accept.performed then
    modify fun w => { w with psp := w.psp.set ⟨id, some .ACCEPTED⟩ }
  throwIf (¬ answers.accept.answered) .exchangeQuotationPsp

def newExchangeQuotation (id solicitationPspId : Uuid) (e : ReadyExchangeQuotation) :
    ExchangeQuotation where
  id
  quotationPspId := answers.response.quotationId
  solicitationPspId
  quotation := answers.response.fxRate
  amount := answers.response.externalValue
  amountExternalCurrency := answers.response.internalValue
  state := .ACCEPTED
  gatewayName := answers.response.gatewayName
  provider := e.providerId
  system := some e.systemId

/-- `exchangeQuotationRepository.create`. -/
def create (q : ExchangeQuotation) : App Unit := do
  called answers .createExchangeQuotation
  let w ← get
  let exchangeQuotations ← orThrow (w.stores.exchangeQuotations.insert? q)
    (.uniqueConstraint "exchange_quotations")
  modify fun w => { w with stores := { w.stores with exchangeQuotations } }

/-- `remittanceExchangeQuotationRepository.create`. -/
def link (q remittance : Uuid) : App Unit := do
  called answers (.createRemittanceExchangeQuotation remittance)
  let w ← get
  let remittanceExchangeQuotations ← orThrow
    (w.stores.remittanceExchangeQuotations.insert? ⟨remittance, q⟩)
    (.uniqueConstraint "remittance_exchange_quotations")
  modify fun w => { w with stores := { w.stores with remittanceExchangeQuotations } }

/-- `HandleCreateAndAcceptExchangeQuotationEventUseCase.execute`; nothing is done when the feature
is switched off. -/
def execute (e : ReadyExchangeQuotation) : App Unit := do
  let some _ ← request answers e | return ()
  let solicitationPspId ← createExchangeQuotation answers
  acceptExchangeQuotation answers solicitationPspId
  let w ← get
  let q := newExchangeQuotation answers (fresh (w.stores.exchangeQuotations.rows.map (·.id)))
    solicitationPspId e
  create answers q
  called answers .createOrUpdateServer
  e.remittanceIds.forM (link answers q.id)

/-- The execution in its transaction. -/
def deliver (e : ReadyExchangeQuotation) : App Unit :=
  transaction (fun before after => { after with stores := before.stores }) (execute answers e)

end HandleCreateAndAccept

/-! ### Sync of the states -/

namespace SyncState

/-- The calls of a repository or of the gateway, with the quotation they are made for. -/
inductive Call where
  | getExchangeQuotationById (q : Uuid)
  | getAllByExchangeQuotation (q : Uuid)
  | getRemittance (q remittance : Uuid)
  | updateRemittance (q remittance : Uuid)
  | updateExchangeQuotation (q : Uuid)
  deriving DecidableEq, Repr

inductive Exception where
  | failed (call : Call)
  | typeError (message : String)
  deriving DecidableEq, Repr

abbrev App := EStateM Exception World

variable (fails : Call → Bool)

/-- A call that fails throws. -/
def called (call : Call) : App Unit := throwIf (fails call) (.failed call)

def emit (e : Event) : App Unit := modify fun w => { w with events := w.events ++ [e] }

/-- What the gateway answers, or how it throws. -/
inductive PspResult where
  | found (status : ExchangeQuotationState)
  /-- No answer, or `ExchangeQuotationNotFoundPspException`. -/
  | notFound
  /-- Another exception. -/
  | failed
  deriving DecidableEq, Repr

/-- `pspGateway.getExchangeQuotationById`. -/
def getExchangeQuotationById (q : ExchangeQuotation) (w : World) : PspResult :=
  if fails (.getExchangeQuotationById q.id) then .failed
  else match (w.psp.get? q.solicitationPspId).bind (·.status) with
    | some status => .found status
    | none => .notFound

/-- The body of the loops over the remittances of a quotation. -/
def updateRemittance (q : ExchangeQuotation) (status : RemittanceStatus)
    (l : RemittanceExchangeQuotation) : App Remittance := do
  called fails (.getRemittance q.id l.remittance)
  let w ← get
  let r ← orThrow (w.stores.remittances.get? l.remittance) (.typeError "status")
  called fails (.updateRemittance q.id l.remittance)
  modify fun w => { w with stores := { w.stores with
    remittances := w.stores.remittances.set { r with status } } }
  return { r with status }

def closeRemittance (q : ExchangeQuotation) (l : RemittanceExchangeQuotation) : App Unit := do
  let r ← updateRemittance fails q .CLOSED l
  modify fun w => { w with stores := { w.stores with
    results := w.stores.results.upsert ⟨r.id, q.quotation, q.amountExternalCurrency⟩ } }
  emit (.closedRemittance r)

def reopenRemittance (q : ExchangeQuotation) (l : RemittanceExchangeQuotation) : App Unit := do
  let _ ← updateRemittance fails q .OPEN l

def closeAllRemittances (q : ExchangeQuotation) : App Unit := do
  called fails (.getAllByExchangeQuotation q.id)
  let w ← get
  (getAllByExchangeQuotation w.stores q.id).forM (closeRemittance fails q)

def reopenAllRemittances (q : ExchangeQuotation) : App Unit := do
  called fails (.getAllByExchangeQuotation q.id)
  let w ← get
  (getAllByExchangeQuotation w.stores q.id).forM (reopenRemittance fails q)

/-- The `catch`, for an exception that is no `ExchangeQuotationNotFoundPspException`. -/
def swallow (x : App Unit) : App Unit := tryCatch x fun _ => pure ()

/-- The quotation with the state that is assigned to it, before its remittances are written. -/
def assigned (q : ExchangeQuotation) : PspResult → ExchangeQuotation
  | .found .APPROVED => { q with state := .APPROVED }
  | .found .COMPLETED => { q with state := .COMPLETED }
  | .found .CANCELED => { q with state := .CANCELED }
  | .notFound => { q with state := .REJECTED }
  | _ => q

/-- What is done for the answer: the cases of the `switch` are in the `try`, a quotation that is not
found is handled in the `catch`. -/
def handle (q : ExchangeQuotation) : PspResult → App Unit
  | .found .APPROVED => swallow (emit (.approvedExchangeQuotation q))
  | .found .COMPLETED => swallow do
      closeAllRemittances fails q
      emit (.completedExchangeQuotation q)
  | .found .CANCELED => swallow do
      reopenAllRemittances fails q
      emit (.canceledExchangeQuotation q)
  | .notFound => reopenAllRemittances fails q
  | _ => pure ()

/-- The body of the loop over the quotations. -/
def syncExchangeQuotation (q : ExchangeQuotation) : App Unit := do
  let w ← get
  let pspResult := getExchangeQuotationById fails q w
  handle fails (assigned q pspResult) pspResult
  called fails (.updateExchangeQuotation q.id)
  modify fun w => { w with stores := { w.stores with
    exchangeQuotations := w.stores.exchangeQuotations.set (assigned q pspResult) } }

/-- `getAllByStateIn` of the states that are looked at. -/
def getAllToSync (s : Stores) : List ExchangeQuotation :=
  s.exchangeQuotations.rows.filter fun q => q.state = .ACCEPTED ∨ q.state = .APPROVED

end SyncState

/-! ### Runs -/

/-- The world, and the quotations that the sync run has still to take. -/
structure State where
  world : World
  pending : List ExchangeQuotation

inductive Command where
  /-- A ready event is delivered, once more or for the first time. -/
  | deliver (e : ReadyExchangeQuotation) (answers : HandleCreateAndAccept.Answers)
  /-- Another use case stores a remittance. -/
  | saveRemittance (r : Remittance)
  /-- The PSP moves a quotation; one that is canceled or that it does not find stays so. -/
  | psp (id : Uuid) (status : Option ExchangeQuotationState)
  /-- A sync run begins: it reads the quotations, unless the call fails. -/
  | begin (fails : Bool)
  /-- The sync run takes its next quotation. -/
  | next (fails : SyncState.Call → Bool)

/-- The PSP moves one of its quotations. -/
def pspMove (psp : Table PspQuotation) (id : Uuid) (status : Option ExchangeQuotationState) :
    Table PspQuotation :=
  match (psp.get? id).bind (·.status) with
  | none | some .CANCELED => psp
  | some _ => psp.set ⟨id, status⟩

/-- Take the next quotation; an exception ends the run. -/
def takeNext (fails : SyncState.Call → Bool) (s : State) : State :=
  match s.pending with
  | [] => s
  | q :: rest =>
      match SyncState.syncExchangeQuotation fails q s.world with
      | .ok _ world => ⟨world, rest⟩
      | .error _ world => ⟨world, []⟩

def step (s : State) : Command → State
  | .deliver e answers => { s with world := left (HandleCreateAndAccept.deliver answers e) s.world }
  | .saveRemittance r =>
      { s with world := { s.world with stores := { s.world.stores with
        remittances := s.world.stores.remittances.upsert r } } }
  | .psp id status => { s with world := { s.world with psp := pspMove s.world.psp id status } }
  | .begin fails =>
      { s with pending := if fails then [] else SyncState.getAllToSync s.world.stores }
  | .next fails => takeNext fails s

end Otc.Trade

end ZroServices
