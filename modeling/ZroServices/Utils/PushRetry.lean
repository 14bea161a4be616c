import ZroServices.Foundation.Run
import ZroServices.Foundation.Table

/-!
# Utils — the retry agent

Other services push retries.  `PushRetryNestObserver` stores each one in the database and in a queue in
memory, and at every tick of a timer its agent fires the retries of the queue that are due: to their
retry queue, or to their fail queue when they have run out of time.

Two kinds of code go on side by side, and every `await` lets the other go on: the handlers of the
messages (`handlePushRetryEvent`, in a database transaction that is committed after the handler has
returned), and the agent (`handleRetryEvent`, in none).  The queue is the agent's only source; the
table is read when the service starts.

What the agent emits and deletes succeeds.  A handler's queries may fail, and then the message goes
to its fail queue at once.
-/

namespace ZroServices.PushRetry

open Foundation

abbrev Uuid := ℕ

/-- A retry, as `PushRetryRequest` admits it. -/
structure Retry where
  id : Uuid
  counter : ℤ
  retryQueue : String
  failQueue : String
  retryAt : ℤ
  abortAt : ℤ
  data : String
  le : retryAt ≤ abortAt
  deriving DecidableEq, Repr

/-- A row stays when it is deleted. -/
structure RetryModel where
  retry : Retry
  deleted : Bool
  deriving DecidableEq, Repr

instance : Keyed RetryModel Uuid := ⟨fun row => row.retry.id⟩

/-- An object of the queue. -/
structure Entry where
  /-- Which object it is. -/
  ref : ℕ
  retry : Retry
  /-- The number of ticks before it was pushed.  Nothing reads it. -/
  since : ℕ
  deriving DecidableEq, Repr

/-- Where a handler is, by the `await` that it waits at. -/
inductive Stage where
  | atGetById
  | atCreate
  /-- The use case returned; it may have written a row. -/
  | atPush (wrote : Bool)
  /-- The handler returned, and its transaction is being committed. -/
  | atCommit (wrote : Bool)
  | ended
  deriving DecidableEq, Repr

structure Delivery where
  message : Retry
  stage : Stage
  deriving DecidableEq, Repr

inductive AgentStage where
  | emitting
  /-- At `getById` of the deletion. -/
  | looking
  | deleting
  deriving DecidableEq, Repr

/-- The agent at work. -/
structure Agent where
  now : ℤ
  /-- In the second loop, of those that have run out of time. -/
  aborting : Bool
  /-- The retries of the loop that were fired, and deleted. -/
  done : List Entry
  /-- The retry that was fired last, and those that are to be fired. -/
  rest : List Entry
  stage : AgentStage
  deriving DecidableEq, Repr

/-- A message that was sent. -/
structure Emission where
  retry : Retry
  since : ℕ
  /-- The tick; none for a message that could not be stored. -/
  tick : Option ℕ
  topic : String
  deriving DecidableEq, Repr

structure World where
  retries : Table RetryModel
  retryQueue : List Entry
  agent : Option Agent
  deliveries : List Delivery
  emitted : List Emission
  /-- The ticks at which the agent went to work.  Nothing reads them. -/
  ticks : List ℤ
  /-- Every object that ever was in the queue; it gives each its number. -/
  queued : List Entry
  deriving DecidableEq

/-- `RetryDatabaseRepository.getById`. -/
def World.getById (w : World) (id : Uuid) : Option RetryModel :=
  (w.retries.get? id).filter fun row => row.deleted = false

/-! ### The agent -/

namespace World

variable (w : World)

def emit (retry : Retry) (since : ℕ) (tick : Option ℕ) (topic : String) : World :=
  { w with emitted := w.emitted ++ [⟨retry, since, tick, topic⟩] }

/-- `this.retryQueue.filter((r) => !batch.includes(r))`. -/
def remove (batch : List Entry) : World :=
  { w with retryQueue := w.retryQueue.filter fun e => decide (e ∉ batch) }

/-- The next retry of the loop of those that have run out of time, or its end. -/
def abortNext (now : ℤ) (done : List Entry) : List Entry → World
  | e :: rest =>
      { w.emit e.retry e.since (some (w.ticks.length - 1)) e.retry.failQueue with
        agent := some ⟨now, true, done, e :: rest, .emitting⟩ }
  | [] => { w.remove done with agent := none }

/-- The next retry of the loop of those that are due, or the second loop. -/
def retryNext (now : ℤ) (done : List Entry) : List Entry → World
  | e :: rest =>
      { w.emit e.retry e.since (some (w.ticks.length - 1)) e.retry.retryQueue with
        agent := some ⟨now, false, done, e :: rest, .emitting⟩ }
  | [] =>
      let w := w.remove done
      w.abortNext now [] (w.retryQueue.filter fun e => decide (e.retry.abortAt ≤ now))

def next (a : Agent) (done rest : List Entry) : World :=
  if a.aborting then w.abortNext a.now done rest else w.retryNext a.now done rest

/-- `handleRetryEvent`, up to its first `await`. -/
def tick (now : ℤ) : World :=
  match w.agent with
  | some _ => w
  | none =>
      { w with ticks := w.ticks ++ [now] }.retryNext now []
        (w.retryQueue.filter fun e => decide (e.retry.retryAt ≤ now ∧ now < e.retry.abortAt))

/-- `RetryDatabaseRepository.delete`. -/
def delete (id : Uuid) : World :=
  match w.retries.get? id with
  | none => w
  | some row => { w with retries := w.retries.set { row with deleted := true } }

/-- The agent, from one `await` to the next. -/
def agentStep : World :=
  match w.agent with
  | none => w
  | some a =>
      match a.rest with
      | [] => w
      | e :: rest =>
          match a.stage with
          | .emitting => { w with agent := some { a with stage := .looking } }
          | .looking =>
              match w.getById e.retry.id with
              | some _ => { w with agent := some { a with stage := .deleting } }
              | none => w.next a (a.done ++ [e]) rest
          | .deleting => (w.delete e.retry.id).next a (a.done ++ [e]) rest

/-! ### The handlers -/

def setStage (i : ℕ) (d : Delivery) (stage : Stage) : World :=
  { w with deliveries := w.deliveries.set i { d with stage := stage } }

/-- The message goes to its fail queue. -/
def reject (i : ℕ) (d : Delivery) : World :=
  (w.emit d.message w.ticks.length none d.message.failQueue).setStage i d (.atCommit false)

/-- `this.retryQueue.push(payload)`. -/
def push (message : Retry) : World :=
  let e : Entry := ⟨w.queued.length, message, w.ticks.length⟩
  { w with retryQueue := w.retryQueue ++ [e], queued := w.queued ++ [e] }

end World

/-- The delivery has a row that is not committed. -/
def Delivery.Uncommitted (d : Delivery) : Prop := d.stage = .atPush true ∨ d.stage = .atCommit true

instance (d : Delivery) : Decidable d.Uncommitted := inferInstanceAs (Decidable (_ ∨ _))

/-- `handlePushRetryEvent`, from one `await` to the next.  A row is refused when there is one of its
id, deleted or not, and waits for one that is not committed. -/
def World.handlerStep (w : World) (i : ℕ) (failure : Bool) : World :=
  match w.deliveries[i]? with
  | none => w
  | some d =>
      match d.stage with
      | .atGetById =>
          if failure then w.reject i d
          else
            match w.getById d.message.id with
            | some _ => w.setStage i d (.atPush false)
            | none => w.setStage i d .atCreate
      | .atCreate =>
          if failure ∨ (w.retries.get? d.message.id).isSome then w.reject i d
          else if ∃ d' ∈ w.deliveries, d'.message.id = d.message.id ∧ d'.Uncommitted then w
          else w.setStage i d (.atPush true)
      | .atPush wrote => (w.push d.message).setStage i d (.atCommit wrote)
      | .atCommit _ => w
      | .ended => w

/-- The commit of a handler's transaction ends. -/
def World.commitStep (w : World) (i : ℕ) (failure : Bool) : World :=
  match w.deliveries[i]? with
  | none => w
  | some d =>
      match d.stage with
      | .atCommit wrote =>
          if wrote = true ∧ failure = false then
            { w.setStage i d .ended with retries := w.retries.upsert ⟨d.message, false⟩ }
          else w.setStage i d .ended
      | _ => w

inductive Label where
  /-- The timer ticks. -/
  | tick (now : ℤ)
  /-- What the agent awaits ends. -/
  | agent
  /-- A message is delivered, for the first time or again. -/
  | deliver (message : Retry)
  /-- What a handler awaits ends, or fails. -/
  | handler (i : ℕ) (failure : Bool)
  /-- A handler's commit ends, or fails. -/
  | commit (i : ℕ) (failure : Bool)

def step (w : World) : Label → World
  | .tick now => w.tick now
  | .agent => w.agentStep
  | .deliver message => { w with deliveries := w.deliveries ++ [⟨message, .atGetById⟩] }
  | .handler i failure => w.handlerStep i failure
  | .commit i failure => w.commitStep i failure

/-- Objects of the queue, with their numbers. -/
def entries (retries : List Retry) : List Entry :=
  retries.mapIdx fun i retry => ⟨i, retry, 0⟩

/-- `onModuleInit`: the queue is what the table holds. -/
def World.init (retries : Table RetryModel) : World :=
  let queue := entries ((retries.rows.filter fun row => row.deleted = false).map RetryModel.retry)
  ⟨retries, queue, none, [], [], [], queue⟩

end ZroServices.PushRetry
