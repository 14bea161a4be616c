import ZroServices.Foundation.Observable
import ZroServices.Foundation.Run

/-!
# Common — the interceptors of a request

A request goes through the interceptors of its controller (`MicroserviceController`), the first one
outermost, to its handler.  `TransactionInterceptor` opens a database transaction for it, commits when
the handler's value comes, and rolls back on an error.  The reply is sent when the value, or the
error, comes out of the outermost interceptor.

The roll-back is awaited before the error is passed on.  The commit is not: its promise is that of
the observer of a `tap`, and nobody waits for it.

The handlers are any code that reads and writes rows, emits events and awaits what it does; a read
sees what was committed before it, and the request's own rows.  Interceptors that only add to the
request (its id, the trace, the services) are left out, and no reply comes from the cache.

* `committed_iff`: in a run every success reply means that what the request wrote is there, for those
  who ask after they have received it, if and only if no commit fails, and each has ended before a
  request that its caller sent after the reply reads.
-/

namespace ZroServices.Interceptors

open Foundation

inductive ProtocolType where
  | HTTP
  | RPC
  | WS
  deriving DecidableEq, Repr

inductive Exception where
  | notImplemented (detail : String)
  | nullPointer (detail : String)
  /-- Any other `DefaultException`, by its code. -/
  | default (code : String)
  /-- An `Error` that is none. -/
  | error (message : String)
  | unknown (message : String)
  deriving DecidableEq, Repr

/-- What the interceptors leave in the request for those after them. -/
structure Request where
  protocol : ProtocolType
  logger : Bool
  transaction : Bool
  deriving DecidableEq, Repr

/-- What a handler awaits. -/
inductive HandlerJob (V : Type) where
  | read
  | write (row : V)

/-- What the request awaits. -/
inductive Job (V : Type) where
  | transaction
  | rollback
  | handler (job : HandlerJob V)

/-- What the request does not await. -/
inductive Started (V : Type) where
  | commit
  /-- `transaction.afterCommit(…)`, which fires the events. -/
  | afterCommit
  | emit (event : V)
  deriving DecidableEq

def HandlerJob.Answer {V : Type} : HandlerJob V → Type
  | .read => Except Exception (List V)
  | .write _ => Except Exception Unit

def Job.Answer {V : Type} : Job V → Type
  | .transaction => Except Exception Unit
  | .rollback => Except Exception Unit
  | .handler job => job.Answer

section

variable (V : Type)

/-- The code of a handler; it only sets off events. -/
abbrev Handler := Observable (HandlerJob V) HandlerJob.Answer V Exception V

abbrev Flow := Observable (Job V) Job.Answer (Started V) Exception V

abbrev Interceptor := Request → (Request → Flow V) → Flow V

end

variable {V : Type}

def Handler.flow (handler : Handler V) : Flow V :=
  handler.mapJobs Job.handler (fun _ answer => answer) Started.emit

def notImplemented (protocol : ProtocolType) : Exception :=
  .notImplemented ("Protocol " ++ (match protocol with
    | .HTTP => "http"
    | .RPC => "rpc"
    | .WS => "ws") ++ " is not implemented.")

def LoggerInterceptor : Interceptor V := fun request next =>
  if request.protocol = .HTTP ∨ request.protocol = .RPC then next { request with logger := true }
  else .error (notImplemented request.protocol)

def TransactionInterceptor : Interceptor V := fun request next =>
  if request.protocol = .HTTP ∨ request.protocol = .RPC then
    .await .transaction fun
      | .error e => .error e
      | .ok () =>
          ((next { request with transaction := true }).tap fun _ => .commit).catchError fun err =>
            .await .rollback fun
              | .error e => .error e
              | .ok () => .error err
  else .error (notImplemented request.protocol)

def KafkaEventInterceptor : Interceptor V := fun request next =>
  if request.protocol = .HTTP ∨ request.protocol = .RPC then
    if request.logger = false then
      .error (.nullPointer "Request logger is not defined. Check if LoggerInterceptor is available.")
    else if request.transaction = false then
      .error (.nullPointer
        "Database transaction is not defined.\n        Check if TransactionInterceptor is available.")
    else .start .afterCommit (next request)
  else .error (notImplemented request.protocol)

def ExceptionInterceptor : Interceptor V := fun request next =>
  if request.protocol = .HTTP ∨ request.protocol = .RPC then
    (next request).catchError fun
      | .error message => .error (.unknown message)
      | e => .error e
  else .error (notImplemented request.protocol)

/-- The interceptors, the first one outermost. -/
def MicroserviceController (request : Request) (handler : Handler V) : Flow V :=
  [LoggerInterceptor, TransactionInterceptor, KafkaEventInterceptor, ExceptionInterceptor].foldr
    (fun interceptor next request => interceptor request next) (fun _ => handler.flow) request

/-! ### The requests of a service -/

inductive Transaction where
  | none
  | opened
  /-- The commit was set off. -/
  | committing
  | committed
  | failed
  | rolledBack
  deriving DecidableEq, Repr

/-- A row, with the request that wrote it. -/
structure Stored (V : Type) where
  request : ℕ
  row : V
  deriving DecidableEq

structure Session (V : Type) where
  caller : ℕ
  /-- What is left of the request; its reply, at last. -/
  rest : Flow V
  transaction : Transaction
  written : List V
  events : List V
  /-- The events are fired after the commit. -/
  hooked : Bool
  /-- The caller has received the reply. -/
  received : Bool
  /-- The requests whose success reply the caller had received when it sent this one. -/
  known : List ℕ
  /-- What each read saw. -/
  seen : List (List (Stored V))

structure World (V : Type) where
  committed : List (Stored V)
  fired : List V
  session : ℕ → Option (Session V)
  /-- The requests, as they were sent. -/
  sent : List ℕ

def World.init : World V := ⟨[], [], fun _ => none, []⟩

/-- The reply of the request is a success. -/
def Session.Replied (s : Session V) : Prop :=
  match s.rest with
  | .next _ => True
  | _ => False

instance (s : Session V) : Decidable s.Replied := by
  unfold Session.Replied
  split <;> infer_instance

/-- What is set off is done at once, but for the commit, which then goes on. -/
def Session.set (s : Session V) : Started V → Session V
  | .commit => { s with transaction := .committing }
  | .afterCommit => { s with hooked := true }
  | .emit event => { s with events := s.events ++ [event] }

/-- The request goes on until it waits, or replies. -/
def Session.goOn (s : Session V) (flow : Flow V) : Session V :=
  { flow.begun.1.foldl Session.set s with rest := flow.begun.2 }

def World.put (w : World V) (i : ℕ) (s : Session V) : World V :=
  { w with session := Function.update w.session i (some s) }

inductive Label (V : Type) where
  | send (i caller : ℕ) (protocol : ProtocolType) (handler : Handler V)
  /-- What the request awaits ends, or fails. -/
  | ends (i : ℕ) (failure : Option Exception)
  /-- The commit ends, or fails. -/
  | lands (i : ℕ) (failure : Option Exception)
  /-- The reply reaches the caller. -/
  | receive (i : ℕ)

/-- The success replies that a caller has received. -/
def World.known (w : World V) (caller : ℕ) : List ℕ :=
  w.sent.filter fun i => match w.session i with
    | some s => decide (s.caller = caller ∧ s.received = true ∧ s.Replied)
    | none => false

/-- A new request goes on until it waits. -/
def World.accept (w : World V) (caller : ℕ) (protocol : ProtocolType) (handler : Handler V) :
    Session V :=
  let flow := MicroserviceController ⟨protocol, false, false⟩ handler
  Session.goOn ⟨caller, flow, .none, [], [], false, false, w.known caller, []⟩ flow

/-- The request's job ends. -/
def Session.ends (i : ℕ) (committed : List (Stored V)) (s : Session V)
    (failure : Option Exception) : Session V :=
  match s.rest with
  | .await .transaction k =>
      match failure with
      | some e => s.goOn (k (.error e))
      | none => { s with transaction := .opened }.goOn (k (.ok ()))
  | .await .rollback k =>
      match failure with
      | some e => { s with transaction := .rolledBack }.goOn (k (.error e))
      | none => { s with transaction := .rolledBack }.goOn (k (.ok ()))
  | .await (.handler .read) k =>
      match failure with
      | some e => s.goOn (k (.error e))
      | none =>
          let snapshot := committed ++ s.written.map (Stored.mk i)
          { s with seen := s.seen ++ [snapshot] }.goOn (k (.ok (snapshot.map Stored.row)))
  | .await (.handler (.write row)) k =>
      match failure with
      | some e => s.goOn (k (.error e))
      | none => { s with written := s.written ++ [row] }.goOn (k (.ok ()))
  | _ => s

def step (w : World V) : Label V → World V
  | .send i caller protocol handler =>
      match w.session i with
      | some _ => w
      | none =>
          { w.put i (w.accept caller protocol handler) with sent := w.sent ++ [i] }
  | .ends i failure =>
      match w.session i with
      | none => w
      | some s => w.put i (s.ends i w.committed failure)
  | .lands i failure =>
      match w.session i with
      | none => w
      | some s =>
          if s.transaction = .committing then
            match failure with
            | some _ => w.put i { s with transaction := .failed }
            | none =>
                { w.put i { s with transaction := .committed } with
                  committed := w.committed ++ s.written.map (Stored.mk i)
                  fired := if s.hooked then w.fired ++ s.events else w.fired }
          else w
  | .receive i =>
      match w.session i with
      | none => w
      | some s => w.put i { s with received := s.received || decide s.Replied }

/-! ### What a success reply means -/

/-- The request waits for a read. -/
def Session.Reads (s : Session V) : Prop :=
  match s.rest with
  | .await (.handler .read) _ => True
  | _ => False

/-- Who has received a success reply sees what the request wrote, and its commit did not fail. -/
structure World.SuccessMeansCommitted (w : World V) : Prop where
  sees : ∀ j s, w.session j = some s → ∀ i ∈ s.known, ∀ t, w.session i = some t →
    ∀ snapshot ∈ s.seen, ∀ row ∈ t.written, ⟨i, row⟩ ∈ snapshot
  committed : ∀ i s, w.session i = some s → s.Replied → s.transaction ≠ .failed

/-- No commit fails, and the commits of the requests whose success replies a caller had received, when
it sent a request, have ended before the request reads, unless they have nothing to commit. -/
def Prompt (w : World V) : Label V → Prop
  | .ends j none => ∀ s, w.session j = some s → s.Reads → ∀ i ∈ s.known, ∀ t,
      w.session i = some t → t.transaction = .committing → t.written = []
  | .lands i (some _) => ∀ s, w.session i = some s → s.transaction ≠ .committing
  | _ => True

/-! ### One request -/

/-- The commit is set off once, right before the reply, and not before an error. -/
theorem startsLast_microserviceController (request : Request) (handler : Handler V) :
    (MicroserviceController request handler).StartsLast .commit := by
  have hhandler : handler.flow.Never .commit := Observable.never_mapJobs fun _ => (by rintro ⟨⟩)
  have hexception (request : Request) :
      (ExceptionInterceptor request fun _ => handler.flow).Never .commit := by
    rw [ExceptionInterceptor]
    split
    · refine hhandler.catchError fun e => ?_
      split
      · trivial
      · trivial
    · trivial
  have hkafka (request : Request) : (KafkaEventInterceptor request fun request =>
      ExceptionInterceptor request fun _ => handler.flow).Never .commit := by
    rw [KafkaEventInterceptor]
    split
    · split
      · trivial
      · split
        · trivial
        · exact ⟨(by rintro ⟨⟩), hexception request⟩
    · trivial
  have htransaction (request : Request) : (TransactionInterceptor request fun request =>
      KafkaEventInterceptor request fun request =>
        ExceptionInterceptor request fun _ => handler.flow).StartsLast .commit := by
    rw [TransactionInterceptor]
    split
    · intro answer
      cases answer with
      | error e => trivial
      | ok _ =>
          refine (hkafka _).tap.catchError fun err answer => ?_
          cases answer with
          | error e => trivial
          | ok _ => trivial
    · trivial
  change (LoggerInterceptor request _).StartsLast .commit
  rw [LoggerInterceptor]
  split
  · exact htransaction _
  · trivial

/-- The commit was set off. -/
def Transaction.CommitSetOff (t : Transaction) : Prop := t = .committing ∨ t = .committed ∨ t = .failed

/-- The reply is a success when the commit was set off, and not before. -/
def Session.Phase (s : Session V) : Prop :=
  (s.rest.StartsLast .commit ∧ ¬ s.transaction.CommitSetOff) ∨
    s.Replied ∧ s.transaction.CommitSetOff

section

variable {s : Session V} {flow : Flow V}

theorem not_replied_of_startsLast (h : s.rest.StartsLast .commit) : ¬ s.Replied := by
  rw [Session.Replied]
  split
  · next heq =>
    rw [heq] at h
    exact fun _ => h
  · exact id

theorem not_replied_of_reads (h : s.Reads) : ¬ s.Replied := by
  intro hr
  rw [Session.Reads] at h
  rw [Session.Replied] at hr
  split at h
  · next heq =>
    rw [heq] at hr
    exact hr
  · exact h

theorem Session.Phase.of_replied (h : s.Phase) (hreplied : s.Replied) :
    s.transaction.CommitSetOff :=
  h.elim (fun h => absurd hreplied (not_replied_of_startsLast h.1)) And.right

theorem Session.Phase.of_setOff (h : s.Phase) (hset : s.transaction.CommitSetOff) : s.Replied :=
  h.elim (fun h => absurd hset h.2) And.left

/-- What going on leaves as it is. -/
structure Session.SameRows (s s' : Session V) : Prop where
  written : s'.written = s.written
  known : s'.known = s.known
  seen : s'.seen = s.seen

theorem sameRows_foldl (jobs : List (Started V)) (s : Session V) :
    s.SameRows (jobs.foldl Session.set s) := by
  induction jobs generalizing s with
  | nil => exact ⟨rfl, rfl, rfl⟩
  | cons job jobs ih =>
      have h := ih (s.set job)
      cases job with
      | commit => exact ⟨h.written, h.known, h.seen⟩
      | afterCommit => exact ⟨h.written, h.known, h.seen⟩
      | emit event => exact ⟨h.written, h.known, h.seen⟩

theorem sameRows_goOn (s : Session V) (flow : Flow V) : s.SameRows (s.goOn flow) :=
  have h := sameRows_foldl flow.begun.1 s
  ⟨h.written, h.known, h.seen⟩

theorem transaction_foldl (jobs : List (Started V)) (s : Session V) (h : .commit ∉ jobs) :
    (jobs.foldl Session.set s).transaction = s.transaction := by
  induction jobs generalizing s with
  | nil => rfl
  | cons job jobs ih =>
      rw [List.foldl_cons, ih _ fun hmem => h (List.mem_cons_of_mem job hmem)]
      cases job with
      | commit => exact absurd List.mem_cons_self h
      | afterCommit => rfl
      | emit event => rfl

theorem phase_goOn (hflow : flow.StartsLast .commit) (hs : ¬ s.transaction.CommitSetOff) :
    (s.goOn flow).Phase ∧ ((s.goOn flow).transaction = .committing ∨
      (s.goOn flow).transaction = s.transaction) := by
  rcases hflow.begun with ⟨hnot, hrest⟩ | ⟨⟨jobs, hjobs, hnot⟩, value, hrest⟩
  · have htransaction : (s.goOn flow).transaction = s.transaction := transaction_foldl _ s hnot
    exact ⟨.inl ⟨hrest, htransaction ▸ hs⟩, .inr htransaction⟩
  · have htransaction : (s.goOn flow).transaction = .committing := by
      change (flow.begun.1.foldl Session.set s).transaction = .committing
      rw [hjobs, List.foldl_append]
      rfl
    refine ⟨.inr ⟨?_, .inl htransaction⟩, .inl htransaction⟩
    rw [Session.Replied, show (s.goOn flow).rest = flow.begun.2 from rfl, hrest]
    trivial

/-- What a job that ends makes of its request. -/
structure Ended (i : ℕ) (committed : List (Stored V)) (failure : Option Exception)
    (s s' : Session V) : Prop where
  known : s'.known = s.known
  phase : s'.Phase
  replied : s.Replied → s' = s
  setOff : s'.transaction = .committed ∨ s'.transaction = .failed → s' = s
  seen : (failure = none ∧ s.Reads ∧
      s'.seen = s.seen ++ [committed ++ s.written.map (Stored.mk i)]) ∨
    ¬ (failure = none ∧ s.Reads) ∧ s'.seen = s.seen

/-- The request goes on, with other rows written or read. -/
theorem ended_goOn {i : ℕ} {committed : List (Stored V)} {failure : Option Exception}
    {s s₁ : Session V} {flow : Flow V} (hnot : ¬ s.Replied) (hflow : flow.StartsLast .commit)
    (hset : ¬ s₁.transaction.CommitSetOff) (hknown : s₁.known = s.known)
    (hseen : (failure = none ∧ s.Reads ∧
        s₁.seen = s.seen ++ [committed ++ s.written.map (Stored.mk i)]) ∨
      ¬ (failure = none ∧ s.Reads) ∧ s₁.seen = s.seen) :
    Ended i committed failure s (s₁.goOn flow) := by
  have hrows := sameRows_goOn s₁ flow
  obtain ⟨hphase, htransaction⟩ := phase_goOn hflow hset
  refine ⟨hrows.known.trans hknown, hphase, fun h => absurd h hnot, fun h => ?_, ?_⟩
  · exfalso
    rcases htransaction with heq | heq
    · rw [heq] at h
      exact h.elim (by rintro ⟨⟩) (by rintro ⟨⟩)
    · rw [heq] at h
      exact hset (.inr h)
  · rw [hrows.seen]
    exact hseen

theorem ended_ends (i : ℕ) (committed : List (Stored V)) (failure : Option Exception)
    {s : Session V} (hs : s.Phase) :
    Ended i committed failure s (s.ends i committed failure) := by
  have hstays (hreads : ¬ s.Reads) (heq : s.ends i committed failure = s) :
      Ended i committed failure s (s.ends i committed failure) := by
    rw [heq]
    exact ⟨rfl, hs, fun _ => rfl, fun _ => rfl, .inr ⟨fun h => hreads h.2, rfl⟩⟩
  cases hrest : s.rest with
  | next value =>
      refine hstays ?_ (by rw [Session.ends, hrest])
      rw [Session.Reads, hrest]
      exact id
  | error e =>
      refine hstays ?_ (by rw [Session.ends, hrest])
      rw [Session.Reads, hrest]
      exact id
  | start job rest =>
      refine hstays ?_ (by rw [Session.ends, hrest])
      rw [Session.Reads, hrest]
      exact id
  | await job k =>
      have hnot : ¬ s.Replied := by
        rw [Session.Replied, hrest]
        exact id
      obtain ⟨hlast, hset⟩ := hs.resolve_right fun h => hnot h.1
      rw [hrest] at hlast
      have hopen (t : Transaction) (ht : t = .opened ∨ t = .rolledBack) : ¬ t.CommitSetOff := by
        rcases ht with rfl | rfl
        · exact fun h => by rcases h with h | h | h <;> cases h
        · exact fun h => by rcases h with h | h | h <;> cases h
      have hother (hjob : job ≠ .handler .read) : ¬ (failure = none ∧ s.Reads) := by
        rintro ⟨-, hreads⟩
        rw [Session.Reads, hrest] at hreads
        split at hreads
        · next heq =>
          cases heq
          exact hjob rfl
        · exact hreads
      rw [Session.ends, hrest]
      match job, failure with
      | .transaction, none =>
          exact ended_goOn hnot (hlast _) (hopen _ (.inl rfl)) rfl (.inr ⟨hother (by rintro ⟨⟩), rfl⟩)
      | .transaction, some e =>
          exact ended_goOn hnot (hlast _) hset rfl (.inr ⟨hother (by rintro ⟨⟩), rfl⟩)
      | .rollback, none =>
          exact ended_goOn hnot (hlast _) (hopen _ (.inr rfl)) rfl (.inr ⟨hother (by rintro ⟨⟩), rfl⟩)
      | .rollback, some e =>
          exact ended_goOn hnot (hlast _) (hopen _ (.inr rfl)) rfl (.inr ⟨hother (by rintro ⟨⟩), rfl⟩)
      | .handler (.write row), none =>
          exact ended_goOn hnot (hlast _) hset rfl (.inr ⟨hother (by rintro ⟨⟩), rfl⟩)
      | .handler (.write row), some e =>
          exact ended_goOn hnot (hlast _) hset rfl (.inr ⟨hother (by rintro ⟨⟩), rfl⟩)
      | .handler .read, none =>
          refine ended_goOn hnot (hlast _) hset rfl (.inl ⟨rfl, ?_, rfl⟩)
          rw [Session.Reads, hrest]
          trivial
      | .handler .read, some e =>
          exact ended_goOn hnot (hlast _) hset rfl (.inr ⟨fun h => absurd h.1 (by rintro ⟨⟩), rfl⟩)

end

/-! ### Runs -/

/-- What holds in every state that is reached. -/
structure Sound (w : World V) : Prop where
  phase : ∀ i s, w.session i = some s → s.Phase
  known : ∀ j s, w.session j = some s → ∀ i ∈ s.known, ∃ t, w.session i = some t ∧ t.Replied
  stored : ∀ i s, w.session i = some s → s.transaction = .committed →
    ∀ row ∈ s.written, ⟨i, row⟩ ∈ w.committed
  owned : ∀ x ∈ w.committed, ∃ s, w.session x.request = some s ∧ s.transaction = .committed

section

variable {w : World V} {i j : ℕ} {s s' t : Session V}

theorem session_put (w : World V) (i j : ℕ) (s : Session V) :
    (w.put i s).session j = if j = i then some s else w.session j := by
  rw [World.put]
  exact Function.update_apply ..

/-- A request goes on; what is committed may grow by its rows. -/
structure Goes (w : World V) (i : ℕ) (s s' : Session V) (committed : List (Stored V)) : Prop where
  phase : s'.Phase
  known : s'.known = s.known
  replied : s.Replied → s'.Replied ∧ s'.written = s.written
  grows : ∀ x ∈ w.committed, x ∈ committed
  rows : ∀ x ∈ committed, x ∈ w.committed ∨ x.request = i ∧ s'.transaction = .committed
  stored : s'.transaction = .committed → ∀ row ∈ s'.written, ⟨i, row⟩ ∈ committed
  kept : s.transaction = .committed → s'.transaction = .committed

/-- A request went on, and rows were committed. -/
def World.after (w : World V) (i : ℕ) (s : Session V) (committed : List (Stored V))
    (fired : List V) : World V :=
  { w.put i s with committed := committed, fired := fired }

theorem Sound.goes (h : Sound w) (hs : w.session i = some s) {committed : List (Stored V)}
    (hg : Goes w i s s' committed) (fired : List V) : Sound (w.after i s' committed fired) := by
  have hsession (j : ℕ) : (w.after i s' committed fired).session j =
      if j = i then some s' else w.session j := session_put w i j s'
  refine ⟨fun j t hj => ?_, fun j t hj k hk => ?_, fun j t hj hcommitted row hrow => ?_,
    fun x hx => ?_⟩
  · rw [hsession] at hj
    split at hj
    · exact Option.some.inj hj ▸ hg.phase
    · exact h.phase j t hj
  · have hreplied : ∃ t, w.session k = some t ∧ t.Replied := by
      rw [hsession] at hj
      split at hj
      · exact h.known i s hs k (hg.known ▸ Option.some.inj hj ▸ hk)
      · exact h.known j t hj k hk
    obtain ⟨u, hu, hr⟩ := hreplied
    rw [hsession]
    split
    · next hki =>
      rw [hki, hs] at hu
      exact ⟨s', rfl, (hg.replied (Option.some.inj hu ▸ hr)).1⟩
    · exact ⟨u, hu, hr⟩
  · rw [hsession] at hj
    split at hj
    · next hji =>
      rw [hji]
      rw [← Option.some.inj hj] at hcommitted hrow
      exact hg.stored hcommitted row hrow
    · exact hg.grows _ (h.stored j t hj hcommitted row hrow)
  · rw [hsession]
    split
    · next hxi =>
      refine ⟨s', rfl, ?_⟩
      rcases hg.rows x hx with hold | ⟨-, hnew⟩
      · obtain ⟨u, hu, hcommitted⟩ := h.owned x hold
        rw [hxi, hs] at hu
        exact hg.kept (Option.some.inj hu ▸ hcommitted)
      · exact hnew
    · next hxi =>
      rcases hg.rows x hx with hold | ⟨hown, -⟩
      · exact h.owned x hold
      · exact absurd hown hxi

/-- What the requests mean to those who know them, after one went on. -/
theorem Sound.means_iff (h : Sound w) (hmeans : w.SuccessMeansCommitted)
    (hs : w.session i = some s) {committed : List (Stored V)} (hg : Goes w i s s' committed)
    (fired : List V) {snapshots : List (List (Stored V))} (hseen : s'.seen = s.seen ++ snapshots) :
    (w.after i s' committed fired).SuccessMeansCommitted ↔
      (∀ snapshot ∈ snapshots, ∀ k ∈ s.known, ∀ t, w.session k = some t →
        ∀ row ∈ t.written, ⟨k, row⟩ ∈ snapshot) ∧ (s'.Replied → s'.transaction ≠ .failed) := by
  set w' := w.after i s' committed fired
  have hsession (j : ℕ) : w'.session j = if j = i then some s' else w.session j :=
    session_put w i j s'
  have hself : w'.session i = some s' := by rw [hsession, if_pos rfl]
  -- those that are known have replied, and their rows stay
  have hrows {k : ℕ} (hk : ∃ t, w.session k = some t ∧ t.Replied) :
      ∃ t t', w.session k = some t ∧ w'.session k = some t' ∧ t'.written = t.written := by
    obtain ⟨t, ht, hr⟩ := hk
    by_cases hki : k = i
    · rw [hki, hs] at ht
      rw [hki]
      exact ⟨s, s', hs, hself, (hg.replied (Option.some.inj ht ▸ hr)).2⟩
    · exact ⟨t, t, ht, by rw [hsession, if_neg hki, ht], rfl⟩
  constructor
  · intro h'
    refine ⟨fun snapshot hsnap k hk t ht row hrow => ?_, h'.committed i s' hself⟩
    obtain ⟨t₀, t', ht₀, ht', hwritten⟩ := hrows (h.known i s hs k hk)
    obtain rfl := Option.some.inj (ht.symm.trans ht₀)
    refine h'.sees i s' hself k (hg.known ▸ hk) t' ht' snapshot ?_ row (hwritten ▸ hrow)
    exact hseen ▸ List.mem_append_right s.seen hsnap
  · rintro ⟨hnew, hfailed⟩
    refine ⟨fun j u hj k hk t' ht' snapshot hsnap row hrow => ?_, fun j u hj hr => ?_⟩
    · rw [hsession] at hj
      split at hj
      · rw [← Option.some.inj hj] at hk hsnap
        rw [hg.known] at hk
        obtain ⟨t₀, t₁, ht₀, ht₁, hwritten⟩ := hrows (h.known i s hs k hk)
        obtain rfl := Option.some.inj (ht'.symm.trans ht₁)
        rw [hseen] at hsnap
        rcases List.mem_append.mp hsnap with hold | hsnap
        · exact hmeans.sees i s hs k hk t₀ ht₀ snapshot hold row (hwritten ▸ hrow)
        · exact hnew snapshot hsnap k hk t₀ ht₀ row (hwritten ▸ hrow)
      · obtain ⟨t₀, t₁, ht₀, ht₁, hwritten⟩ := hrows (h.known j u hj k hk)
        obtain rfl := Option.some.inj (ht'.symm.trans ht₁)
        exact hmeans.sees j u hj k hk t₀ ht₀ snapshot hsnap row (hwritten ▸ hrow)
    · rw [hsession] at hj
      split at hj
      · rw [← Option.some.inj hj] at hr ⊢
        exact hfailed hr
      · exact hmeans.committed j u hj hr

theorem Sound.goes_ends (h : Sound w) (hs : w.session i = some s) (failure : Option Exception) :
    Goes w i s (s.ends i w.committed failure) w.committed := by
  have hended := ended_ends i w.committed failure (h.phase i s hs)
  refine ⟨hended.phase, hended.known, fun hr => ?_, fun _ hx => hx, fun _ hx => .inl hx,
    fun hc row hrow => ?_, fun hc => ?_⟩
  · rw [hended.replied hr]
    exact ⟨hr, rfl⟩
  · have heq := hended.setOff (.inl hc)
    rw [heq] at hc hrow
    exact h.stored i s hs hc row hrow
  · rw [hended.replied ((h.phase i s hs).of_setOff (.inr (.inl hc)))]
    exact hc

theorem Sound.goes_committed (h : Sound w) (hs : w.session i = some s)
    (hc : s.transaction = .committing) :
    Goes w i s { s with transaction := .committed }
      (w.committed ++ s.written.map (Stored.mk i)) where
  phase := .inr ⟨(h.phase i s hs).of_setOff (.inl hc), .inr (.inl rfl)⟩
  known := rfl
  replied hr := ⟨hr, rfl⟩
  grows _ hx := List.mem_append_left _ hx
  rows x hx := by
    refine (List.mem_append.mp hx).imp_right fun hx => ?_
    obtain ⟨row, -, rfl⟩ := List.mem_map.mp hx
    exact ⟨rfl, rfl⟩
  stored _ row hrow := List.mem_append_right _ (List.mem_map_of_mem hrow)
  kept _ := rfl

theorem Sound.goes_failed (h : Sound w) (hs : w.session i = some s)
    (hc : s.transaction = .committing) :
    Goes w i s { s with transaction := .failed } w.committed where
  phase := .inr ⟨(h.phase i s hs).of_setOff (.inl hc), .inr (.inr rfl)⟩
  known := rfl
  replied hr := ⟨hr, rfl⟩
  grows _ hx := hx
  rows _ hx := .inl hx
  stored := (by rintro ⟨⟩)
  kept hkept := absurd (hc.symm.trans hkept) (by rintro ⟨⟩)

theorem Sound.goes_received (h : Sound w) (hs : w.session i = some s) (received : Bool) :
    Goes w i s { s with received := received } w.committed where
  phase := h.phase i s hs
  known := rfl
  replied hr := ⟨hr, rfl⟩
  grows _ hx := hx
  rows _ hx := .inl hx
  stored hc := h.stored i s hs hc
  kept hc := hc

theorem mem_known {caller : ℕ} (h : i ∈ w.known caller) :
    ∃ s, w.session i = some s ∧ s.Replied := by
  have hi := (List.mem_filter.mp h).2
  split at hi
  · next s hs => exact ⟨s, hs, (of_decide_eq_true hi).2.2⟩
  · cases hi

/-- A request is sent, and goes on until it waits. -/
theorem Sound.send (h : Sound w) (w' : World V) (hnone : w.session i = none) (hphase : s.Phase)
    (hcommitted : s.transaction ≠ .committed) (hfailed : s.transaction ≠ .failed) {caller : ℕ}
    (hknown : s.known = w.known caller) (hseen : s.seen = [])
    (hw : w'.session = (w.put i s).session) (heq : w'.committed = w.committed) :
    Sound w' ∧ (w.SuccessMeansCommitted → w'.SuccessMeansCommitted) := by
  have hsession (j : ℕ) : w'.session j = if j = i then some s else w.session j := by
    rw [hw, session_put]
  have hstays {j : ℕ} {t : Session V} (hj : w.session j = some t) : w'.session j = some t := by
    rw [hsession, if_neg, hj]
    rintro rfl
    exact absurd (hnone.symm.trans hj) (by rintro ⟨⟩)
  have hback {j : ℕ} {t : Session V} (hj : w'.session j = some t) :
      j = i ∧ t = s ∨ w.session j = some t := by
    rw [hsession] at hj
    split at hj
    · next hji => exact .inl ⟨hji, (Option.some.inj hj).symm⟩
    · exact .inr hj
  refine ⟨⟨fun j t hj => ?_, fun j t hj k hk => ?_, fun j t hj hc row hrow => ?_, fun x hx => ?_⟩,
    fun hmeans => ⟨fun j t hj k hk u hu snapshot hsnap row hrow => ?_, fun j t hj hr => ?_⟩⟩
  · rcases hback hj with ⟨-, rfl⟩ | hj
    · exact hphase
    · exact h.phase j t hj
  · have hreplied : ∃ t, w.session k = some t ∧ t.Replied := by
      rcases hback hj with ⟨-, rfl⟩ | hj
      · exact mem_known (hknown ▸ hk)
      · exact h.known j t hj k hk
    obtain ⟨u, hu, hr⟩ := hreplied
    exact ⟨u, hstays hu, hr⟩
  · rcases hback hj with ⟨-, rfl⟩ | hj
    · exact absurd hc hcommitted
    · exact heq ▸ h.stored j t hj hc row hrow
  · obtain ⟨u, hu, hc⟩ := h.owned x (heq ▸ hx)
    exact ⟨u, hstays hu, hc⟩
  · rcases hback hj with ⟨-, rfl⟩ | hj
    · rw [hseen] at hsnap
      cases hsnap
    · obtain ⟨v, hv, -⟩ := h.known j t hj k hk
      have huv := Option.some.inj (hu.symm.trans (hstays hv))
      exact hmeans.sees j t hj k hk v hv snapshot hsnap row (huv ▸ hrow)
  · rcases hback hj with ⟨-, rfl⟩ | hj
    · exact hfailed
    · exact hmeans.committed j t hj hr

/-- A read finds the rows of those that are known, unless their commit has not ended. -/
theorem Sound.means_ends (h : Sound w) (hmeans : w.SuccessMeansCommitted)
    (hs : w.session i = some s) (failure : Option Exception) :
    (w.put i (s.ends i w.committed failure)).SuccessMeansCommitted ↔ Prompt w (.ends i failure) := by
  have hended := ended_ends i w.committed failure (h.phase i s hs)
  have hgoes := h.goes_ends hs failure
  have hfailed : (s.ends i w.committed failure).Replied →
      (s.ends i w.committed failure).transaction ≠ .failed := by
    intro hr hf
    have heq := hended.setOff (.inr hf)
    rw [heq] at hr hf
    exact hmeans.committed i s hs hr hf
  rcases hended.seen with ⟨rfl, hreads, hseen⟩ | ⟨hnot, hseen⟩
  · refine Iff.trans (h.means_iff hmeans hs hgoes w.fired hseen) ((and_iff_left hfailed).trans ?_)
    rw [List.forall_mem_singleton]
    constructor
    · rintro hsees s' hs' - k hk t ht hcommitting
      obtain rfl := Option.some.inj (hs.symm.trans hs')
      refine List.eq_nil_iff_forall_not_mem.mpr fun row hrow => ?_
      rcases List.mem_append.mp (hsees k hk t ht row hrow) with hold | hown
      · obtain ⟨t', ht', hc⟩ := h.owned _ hold
        obtain rfl := Option.some.inj (ht.symm.trans ht')
        exact absurd (hcommitting.symm.trans hc) (by rintro ⟨⟩)
      -- the request itself still waits
      · obtain ⟨row', -, heq⟩ := List.mem_map.mp hown
        have hik : i = k := congrArg Stored.request heq
        obtain rfl := Option.some.inj (hs.symm.trans (hik ▸ ht))
        exact absurd ((h.phase i s hs).of_setOff (.inl hcommitting)) (not_replied_of_reads hreads)
    · intro hprompt k hk t ht row hrow
      obtain ⟨t', ht', hr⟩ := h.known i s hs k hk
      obtain rfl := Option.some.inj (ht.symm.trans ht')
      rcases (h.phase k t ht).of_replied hr with hc | hc | hc
      · rw [hprompt s hs hreads k hk t ht hc] at hrow
        cases hrow
      · exact List.mem_append_left _ (h.stored k t ht hc row hrow)
      · exact absurd hc (hmeans.committed k t ht hr)
  · refine Iff.trans
      (h.means_iff hmeans hs hgoes w.fired (hseen.trans (List.append_nil _).symm)) ?_
    refine iff_of_true ⟨fun _ h => absurd h List.not_mem_nil, hfailed⟩ ?_
    cases failure with
    | none =>
        intro s' hs' hreads
        exact absurd ⟨rfl, Option.some.inj (hs.symm.trans hs') ▸ hreads⟩ hnot
    | some e => trivial

/-- A step keeps what holds of the requests, and a success reply goes on to mean what it does if and
only if the step is prompt. -/
theorem Sound.step (h : Sound w) (l : Label V) :
    Sound (step w l) ∧
      (w.SuccessMeansCommitted → ((step w l).SuccessMeansCommitted ↔ Prompt w l)) := by
  cases l with
  | send i caller protocol handler =>
      rw [Interceptors.step]
      split
      · exact ⟨h, fun hmeans => iff_of_true hmeans trivial⟩
      · next hnone =>
        have hflow := startsLast_microserviceController ⟨protocol, false, false⟩ handler
        have hset : ¬ Transaction.none.CommitSetOff := fun h => by rcases h with h | h | h <;> cases h
        obtain ⟨hphase, htransaction⟩ := phase_goOn (s := ⟨caller,
          MicroserviceController ⟨protocol, false, false⟩ handler, .none, [], [], false, false,
          w.known caller, []⟩) hflow hset
        have hrows : Session.SameRows _ (w.accept caller protocol handler) := sameRows_goOn _ _
        have hnot {t : Transaction} (ht : t ≠ .committing) (ht' : t ≠ .none) :
            (w.accept caller protocol handler).transaction ≠ t := by
          rintro rfl
          exact htransaction.elim ht ht'
        obtain ⟨hsound, hmeans⟩ := h.send
          { w.put i (w.accept caller protocol handler) with sent := w.sent ++ [i] } hnone hphase
          (hnot (by rintro ⟨⟩) (by rintro ⟨⟩)) (hnot (by rintro ⟨⟩) (by rintro ⟨⟩)) hrows.known hrows.seen rfl rfl
        exact ⟨hsound, fun hm => iff_of_true (hmeans hm) trivial⟩
  | ends i failure =>
      rw [Interceptors.step]
      split
      · next hnone =>
        refine ⟨h, fun hmeans => iff_of_true hmeans ?_⟩
        cases failure with
        | none => exact fun s hs => absurd (hnone.symm.trans hs) (by rintro ⟨⟩)
        | some e => trivial
      · next s hs =>
        have hgoes := h.goes_ends hs failure
        exact ⟨h.goes hs hgoes _, fun hmeans => h.means_ends hmeans hs failure⟩
  | lands i failure =>
      rw [Interceptors.step]
      split
      · next hnone =>
        refine ⟨h, fun hmeans => iff_of_true hmeans ?_⟩
        cases failure with
        | none => trivial
        | some e => exact fun s hs => absurd (hnone.symm.trans hs) (by rintro ⟨⟩)
      · next s hs =>
        split
        · next hc =>
          cases failure with
          | none =>
              have hgoes := h.goes_committed hs hc
              refine ⟨h.goes hs hgoes _, fun hmeans => ?_⟩
              refine Iff.trans (h.means_iff hmeans hs hgoes _ (List.append_nil _).symm) ?_
              exact iff_of_true ⟨fun _ h => absurd h List.not_mem_nil, fun _ => (by rintro ⟨⟩)⟩ trivial
          | some e =>
              have hgoes := h.goes_failed hs hc
              refine ⟨h.goes hs hgoes _, fun hmeans => ?_⟩
              refine Iff.trans (h.means_iff hmeans hs hgoes _ (List.append_nil _).symm) ?_
              refine iff_of_false (fun hboth => ?_) fun hprompt => hprompt s hs hc
              exact hboth.2 (hgoes.replied ((h.phase i s hs).of_setOff (.inl hc))).1 rfl
        · next hc =>
          refine ⟨h, fun hmeans => iff_of_true hmeans ?_⟩
          cases failure with
          | none => trivial
          | some e => exact fun s' hs' => Option.some.inj (hs.symm.trans hs') ▸ hc
  | receive i =>
      rw [Interceptors.step]
      split
      · exact ⟨h, fun hmeans => iff_of_true hmeans trivial⟩
      · next s hs =>
        have hgoes := h.goes_received hs (s.received || decide s.Replied)
        refine ⟨h.goes hs hgoes _, fun hmeans => ?_⟩
        refine Iff.trans (h.means_iff hmeans hs hgoes _ (List.append_nil _).symm) ?_
        exact iff_of_true ⟨fun _ h => absurd h List.not_mem_nil, hmeans.committed i s hs⟩ trivial

theorem sound_init : Sound (World.init : World V) where
  phase _ _ h := by cases h
  known _ _ h := by cases h
  stored _ _ h := by cases h
  owned _ h := absurd h List.not_mem_nil

theorem means_init : (World.init : World V).SuccessMeansCommitted where
  sees _ _ h := by cases h
  committed _ _ h := by cases h

/-- A success reply means committed in every state of a run if and only if every step is prompt. -/
theorem committed_iff (ls : List (Label V)) :
    (∀ ms, ms <+: ls → (run Interceptors.step World.init ms).SuccessMeansCommitted) ↔
      Along Interceptors.step Prompt World.init ls :=
  along_iff (I := fun w => Sound w ∧ w.SuccessMeansCommitted) (fun _ h => h.2)
    (fun _ l h => (h.1.step l).2 h.2)
    (fun _ l h hl => ⟨(h.1.step l).1, ((h.1.step l).2 h.2).mpr hl⟩) ⟨sound_init, means_init⟩ ls

end

/-! A request writes and replies; its caller asks again before the commit has ended. -/

def writing : Handler ℕ := .await (.write 7) fun
  | .error e => .error e
  | .ok () => .next 0

def asking : Handler ℕ := .await .read fun
  | .error e => .error e
  | .ok rows => .next rows.length

def early : List (Label ℕ) :=
  [.send 0 5 .RPC writing, .ends 0 none, .ends 0 none, .receive 0, .send 1 5 .RPC asking,
    .ends 1 none, .ends 1 none]

/-- The first request's row is not there yet. -/
theorem not_committed :
    ¬ ∀ ls : List (Label ℕ), ∀ ms, ms <+: ls →
      (run Interceptors.step World.init ms).SuccessMeansCommitted := by
  intro h
  have hasks : ((run Interceptors.step World.init early).session 1).any
      (fun s => decide (0 ∈ s.known ∧ [] ∈ s.seen)) = true := by decide +kernel
  have hwrote : ((run Interceptors.step World.init early).session 0).any
      (fun s => decide (7 ∈ s.written)) = true := by decide +kernel
  obtain ⟨s, hs, hsees⟩ := (Option.any_eq_true _ _).mp hasks
  obtain ⟨t, ht, hrow⟩ := (Option.any_eq_true _ _).mp hwrote
  obtain ⟨hknown, hseen⟩ := of_decide_eq_true hsees
  have hmem := (h early early List.prefix_rfl).sees 1 s hs 0 hknown t ht [] hseen 7
    (of_decide_eq_true hrow)
  exact List.not_mem_nil hmem

end ZroServices.Interceptors
