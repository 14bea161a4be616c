import ZroServices.Foundation.Effect
import ZroServices.Foundation.Run
import ZroServices.Foundation.Table

/-!
# Webhooks — notifications and their retries

A notification is an event in the table.  `handleWebhookEventCreated` sends it to its target.  What
fails there is reported, and `handleFailedWebhookEventCreated` then closes the event, opens its
successor and pushes a retry, which delivers the successor's created event later on.  The event and
its successors are a chain.

`WebhookEventNestObserver` lets neither handler throw.  A failure of the first is sent on as a
message; a failure of the second is logged, and what was written before it is committed.

Messages and retries are delivered at least once, in any order, one at a time.
-/

namespace ZroServices.Webhooks

open Foundation

abbrev Uuid := ℕ

inductive WebhookEventState where
  | PENDING
  | CONFIRMED
  | FAILED
  deriving DecidableEq, Repr

inductive WebhookType where
  | DEVOLUTION_RECEIVED
  | DEVOLUTION_COMPLETED
  | DEVOLUTION_FAILED
  | DEPOSIT_RECEIVED
  | PAYMENT_COMPLETED
  | PAYMENT_FAILED
  deriving DecidableEq, Repr

structure Webhook where
  id : Uuid
  targetUrl : String
  apiKey : String
  type : WebhookType
  accountNumber : String
  agencyNumber : String
  deriving DecidableEq, Repr

/-- Times are in milliseconds. -/
structure WebhookEvent where
  id : Uuid
  state : WebhookEventState
  webhook : Uuid
  targetUrl : String
  apiKey : String
  type : WebhookType
  accountNumber : String
  agencyNumber : String
  httpStatusCodeResponse : Option String
  data : String
  retryLimit : ℤ
  lastRetry : Option ℤ
  createdAt : ℤ
  /-- The first event of its chain.  Nothing reads it. -/
  chain : Uuid
  deriving DecidableEq, Repr

instance : Keyed WebhookEvent Uuid := ⟨WebhookEvent.id⟩

/-- A retry, with the created event that it delivers. -/
structure Retry where
  id : Uuid
  counter : ℤ
  retryQueue : String
  failQueue : String
  retryAt : ℤ
  abortAt : ℤ
  state : WebhookEventState
  deriving DecidableEq, Repr

/-- A call of the target, whether or not it was answered. -/
structure Sent where
  event : Uuid
  chain : Uuid
  type : WebhookType
  targetUrl : String
  apiKey : String
  data : String
  deriving DecidableEq, Repr

inductive WebhookException where
  | missingData (fields : List String)
  | webhookEventNotFound (id : Uuid)
  | webhookEventInvalidState (id : Uuid)
  | webhookNotFound (id : Uuid)
  /-- Of a repository, a service, the gateway or the encryption. -/
  | raised (message : String)
  deriving DecidableEq, Repr

structure RetryConfig where
  RETRY_MIN_SECONDS : ℤ
  RETRY_MAX_SECONDS : ℤ

structure World where
  events : Table WebhookEvent
  /-- The created events that are still to be delivered, by the event. -/
  created : List Uuid
  /-- The reports `NOTIFY_CREATED_FAILED` that are still to be delivered. -/
  createdFailed : List Uuid
  retries : List Retry
  /-- The confirmed events that were emitted. -/
  confirmed : List Uuid
  sent : List Sent
  now : ℤ
  deriving DecidableEq

abbrev Action := EStateM WebhookException World

def KAFKA_EVENTS.CREATED : String := "WEBHOOKS.webhookEvent.event.created"

/-- `HttpStatus.INTERNAL_SERVER_ERROR.toString()`. -/
def INTERNAL_SERVER_ERROR : String := "500"

namespace World

variable (w : World)

/-- The id of the next row. -/
def newId : Uuid := fresh (w.events.rows.map WebhookEvent.id)

def update (e : WebhookEvent) : World := { w with events := w.events.set e }

def create (e : WebhookEvent) : World := { w with events := w.events.upsert e }

def push (r : Retry) : World := { w with retries := w.retries ++ [r] }

def send (s : Sent) : World := { w with sent := w.sent ++ [s] }

/-- `kafkaService.emit(NOTIFY_CREATED_FAILED, …)`. -/
def notifyCreatedFailed (id : Uuid) : World := { w with createdFailed := w.createdFailed ++ [id] }

/-- Its created event, a retry that delivers that, or the report that its delivery failed is still
to come. -/
def InHand (id : Uuid) : Prop :=
  id ∈ w.created ∨ (∃ r ∈ w.retries, r.id = id) ∨ id ∈ w.createdFailed

end World

/-! ### The created event -/

/-- What the calls of `handleWebhookEventCreated` answer, and the emission of its failure. -/
structure CreatedCalls where
  getById : Except WebhookException Unit
  decrypt : String → Except WebhookException String
  send : Except WebhookException String
  update : Except WebhookException Unit
  notifyCreatedFailed : Except WebhookException Unit

/-- `HandleWebhookEventCreatedUseCase.execute`. -/
def handleWebhookEventCreated (calls : CreatedCalls) (id : Uuid) : Action WebhookEvent := do
  call calls.getById
  let w ← get
  let webhookEventFound ← orThrow (w.events.get? id) (.webhookEventNotFound id)
  if webhookEventFound.state ≠ .PENDING then
    return webhookEventFound
  else do
    let targetUrl ← call (calls.decrypt webhookEventFound.targetUrl)
    let apiKey ← call (calls.decrypt webhookEventFound.apiKey)
    modify (·.send ⟨id, webhookEventFound.chain, webhookEventFound.type, targetUrl, apiKey,
      webhookEventFound.data⟩)
    let httpStatusCodeResponse ← call calls.send
    let webhookEventUpdated : WebhookEvent :=
      { webhookEventFound with
        httpStatusCodeResponse := some httpStatusCodeResponse
        state := .CONFIRMED }
    call calls.update
    modify (·.update webhookEventUpdated)
    modify fun w => { w with confirmed := w.confirmed ++ [id] }
    return webhookEventUpdated

/-- `WebhookEventNestObserver.handleCreatedWebhookEvent`. -/
def handleCreatedWebhookEvent (calls : CreatedCalls) (id : Uuid) (w : World) : World :=
  match handleWebhookEventCreated calls id w with
  | .ok _ w' => w'
  | .error _ w' =>
      match calls.notifyCreatedFailed with
      | .ok _ => w'.notifyCreatedFailed id
      | .error _ => w'

/-! ### The report of a failure -/

/-- What the calls of `handleFailedWebhookEventCreated` answer; `getWebhook`, whether there is the
webhook. -/
structure FailedCalls where
  getById : Except WebhookException Unit
  update : Except WebhookException Unit
  getWebhook : Except WebhookException Bool
  create : Except WebhookException Unit
  push : Except WebhookException Unit

namespace WebhookEvent

variable (e : WebhookEvent)

def isInRetryLimit (now : ℤ) : Prop := now < e.retryLimit

instance (now : ℤ) : Decidable (e.isInRetryLimit now) := inferInstanceAs (Decidable (_ < _))

def generateRetryAt (config : RetryConfig) (now : ℤ) : ℤ :=
  match e.lastRetry with
  | none => now + 1000 * config.RETRY_MIN_SECONDS
  | some lastTryRetry =>
      let diffInMili := lastTryRetry - e.createdAt
      if 1000 * config.RETRY_MAX_SECONDS ≤ diffInMili then
        now + 1000 * config.RETRY_MAX_SECONDS
      else
        let retries := diffInMili / (1000 * config.RETRY_MIN_SECONDS)
        now + 1000 * (config.RETRY_MIN_SECONDS * (retries + 1))

/-- `newWebhookEvent`. -/
def successor (config : RetryConfig) (id : Uuid) (now : ℤ) : WebhookEvent where
  id := id
  state := .PENDING
  webhook := e.webhook
  targetUrl := e.targetUrl
  apiKey := e.apiKey
  type := e.type
  accountNumber := e.accountNumber
  agencyNumber := e.agencyNumber
  httpStatusCodeResponse := none
  data := e.data
  retryLimit := e.retryLimit
  lastRetry := some (e.generateRetryAt config now)
  createdAt := now
  chain := e.chain

/-- The retry for a successor, which is due at `retryAt`. -/
def retry (retryAt : ℤ) : Retry where
  id := e.id
  counter := 1
  retryQueue := KAFKA_EVENTS.CREATED
  failQueue := ""
  retryAt := retryAt
  abortAt := e.retryLimit
  state := e.state

end WebhookEvent

/-- `HandleFailedWebhookEventCreatedUseCase.execute`. -/
def handleFailedWebhookEventCreated (config : RetryConfig) (calls : FailedCalls) (id : Uuid)
    (httpStatusCodeResponse : String) : Action WebhookEvent := do
  throwIf (httpStatusCodeResponse = "") (.missingData ["WebhookEvent HttpStatusCodeResponse"])
  call calls.getById
  let w ← get
  let webhookEventFound ← orThrow (w.events.get? id) (.webhookEventNotFound id)
  if webhookEventFound.state = .FAILED then
    return webhookEventFound
  else do
    throwIf (webhookEventFound.state ≠ .PENDING) (.webhookEventInvalidState id)
    let failed : WebhookEvent :=
      { webhookEventFound with
        state := .FAILED
        httpStatusCodeResponse := some httpStatusCodeResponse }
    call calls.update
    modify (·.update failed)
    if ¬ failed.isInRetryLimit w.now then
      return failed
    else do
      let webhookFound ← call calls.getWebhook
      throwIf (webhookFound = false) (.webhookNotFound failed.webhook)
      let lastRetry := failed.generateRetryAt config w.now
      let newWebhookEvent := failed.successor config w.newId w.now
      call calls.create
      modify (·.create newWebhookEvent)
      call calls.push
      modify (·.push (newWebhookEvent.retry lastRetry))
      return newWebhookEvent

/-- `WebhookEventNestObserver.handleFailedCreatedWebhookEvent`: what is thrown is logged. -/
def handleFailedCreatedWebhookEvent (config : RetryConfig) (calls : FailedCalls) (id : Uuid)
    (w : World) : World :=
  left (handleFailedWebhookEventCreated config calls id INTERNAL_SERVER_ERROR) w

/-! ### Runs -/

inductive Step where
  /-- One of the six use cases that notify creates the first event of a chain. -/
  | notify (webhook : Webhook) (type : WebhookType) (data : String)
  /-- A created event is delivered, and may be delivered again. -/
  | created (id : Uuid) (again : Bool) (calls : CreatedCalls)
  /-- A report is delivered, and may be delivered again. -/
  | createdFailed (id : Uuid) (again : Bool) (calls : FailedCalls)
  /-- The retry agent delivers a retry, and may deliver it again. -/
  | fire (r : Retry) (again : Bool)
  /-- The retry agent gives up on a retry. -/
  | abort (r : Retry)
  | tick (ms : ℕ)

/-- 7 days. -/
def RETRY_LIMIT : ℤ := 7 * 24 * 60 * 60 * 1000

/-- The first event of a chain. -/
def firstEvent (webhook : Webhook) (type : WebhookType) (data : String) (id : Uuid) (now : ℤ) :
    WebhookEvent where
  id := id
  state := .PENDING
  webhook := webhook.id
  targetUrl := webhook.targetUrl
  apiKey := webhook.apiKey
  type := type
  accountNumber := webhook.accountNumber
  agencyNumber := webhook.agencyNumber
  httpStatusCodeResponse := none
  data := data
  retryLimit := now + RETRY_LIMIT
  lastRetry := none
  createdAt := now
  chain := id

/-- The messages without one of them, unless it is delivered again. -/
def taken {α : Type} [DecidableEq α] (a : α) (again : Bool) (messages : List α) : List α :=
  if again then messages else messages.erase a

namespace World

variable (w : World)

def notify (webhook : Webhook) (type : WebhookType) (data : String) : World :=
  { w.create (firstEvent webhook type data w.newId w.now) with
    created := w.created ++ [w.newId] }

def takeCreated (id : Uuid) (again : Bool) : World :=
  { w with created := taken id again w.created }

def takeCreatedFailed (id : Uuid) (again : Bool) : World :=
  { w with createdFailed := taken id again w.createdFailed }

def fire (r : Retry) (again : Bool) : World :=
  { w with
    retries := taken r again w.retries
    created := w.created ++ [r.id] }

def abort (r : Retry) : World := { w with retries := w.retries.erase r }

end World

def step (config : RetryConfig) (w : World) : Step → World
  | .notify webhook type data => w.notify webhook type data
  | .created id again calls =>
      if id ∈ w.created then handleCreatedWebhookEvent calls id (w.takeCreated id again) else w
  | .createdFailed id again calls =>
      if id ∈ w.createdFailed then
        handleFailedCreatedWebhookEvent config calls id (w.takeCreatedFailed id again)
      else w
  | .fire r again =>
      if r ∈ w.retries ∧ r.retryAt ≤ w.now ∧ w.now < r.abortAt then w.fire r again else w
  | .abort r => if r ∈ w.retries ∧ r.abortAt ≤ w.now then w.abort r else w
  | .tick ms => { w with now := w.now + ms }

/-- Before the first notification. -/
def start (now : ℤ) : World where
  events := Table.empty
  created := []
  createdFailed := []
  retries := []
  confirmed := []
  sent := []
  now := now

end ZroServices.Webhooks
