import ZroServices.Foundation.Run
import ZroServices.Foundation.Table

/-!
# Users — password resets

A request to reset a password holds a code, and is guessed with `UpdateUserForgotPasswordUseCase`.
Executions of it, of `CreateUserForgotPasswordByEmailUseCase` and of the job that expires requests
go on side by side, one database statement after the other.  Reads take no lock; an `UPDATE` waits
while another open transaction has updated the row, and writes the whole object that was read
before; a commit publishes.

The job is in no transaction: each of its updates is committed by itself, so that an execution of it
is one of these for every request that it found.  The events that are emitted are left out, and so
is the e-mail with the code; a transaction may be rolled back at any moment.
-/

namespace ZroServices.Users.ForgotPassword

open Foundation

abbrev Uuid := ℕ

inductive UserForgotPasswordState where
  | PENDING
  | CONFIRMED
  | DECLINED
  | EXPIRED
  deriving DecidableEq, Repr

structure User where
  uuid : Uuid
  email : String
  phoneNumber : Option String
  password : String
  deriving DecidableEq, Repr

/-- Times are in milliseconds. -/
structure UserForgotPassword where
  id : Uuid
  state : UserForgotPasswordState
  user : Uuid
  phoneNumber : Option String
  email : Option String
  code : String
  attempts : ℕ
  expiredAt : Option ℤ
  createdAt : ℤ
  deriving DecidableEq, Repr

instance : Keyed User Uuid := ⟨User.uuid⟩

instance : Keyed UserForgotPassword Uuid := ⟨UserForgotPassword.id⟩

inductive Exception where
  | missingData (fields : List String)
  | notFound (id : Uuid)
  | maxAttempts (id : Uuid)
  | expired (id : Uuid)
  | invalidState (id : Uuid)
  /-- A property of `null` is set. -/
  | typeError
  /-- Of the primary key. -/
  | uniqueConstraint
  /-- The connection, the e-mail, or what comes after the use case. -/
  | aborted
  deriving DecidableEq, Repr

structure Config where
  maxAttempts : ℤ
  expirationSeconds : ℤ
  /-- Of the job, in seconds. -/
  timestamp : ℤ

/-- A use case, with what it was called with and the clock it reads. -/
inductive Call where
  | update (id : Uuid) (code newPassword : String) (now : ℤ)
  /-- The job, at one of the requests. -/
  | sync (id : Uuid) (now : ℤ)
  /-- `code` is the random one; `pick` is which of several pending requests is found. -/
  | createByEmail (email : String) (id : Uuid) (code : String) (pick : ℕ) (now : ℤ)
  deriving DecidableEq, Repr

/-- Where an execution is, by the statement that comes next. -/
inductive Stage where
  | begun
  /-- The guess was right: `userRepository.getByUuid`. -/
  | getUser (confirmed : UserForgotPassword)
  | updateUser (user : User) (confirmed : UserForgotPassword)
  /-- `update` of the request; the user may have been updated before. -/
  | update (user : Option User) (request : UserForgotPassword)
  | getById (user : User)
  | getByUserAndState (user : User)
  | decline (user : User) (declined : UserForgotPassword)
  | create (user : User) (declined : Option UserForgotPassword)
  | commit (user : Option User) (requests : List UserForgotPassword)
      (created : Option UserForgotPassword)
  | committed
  | rolledBack (exception : Exception)
  deriving DecidableEq, Repr

structure Execution where
  call : Call
  stage : Stage
  deriving DecidableEq, Repr

structure World where
  users : Table User
  requests : Table UserForgotPassword
  executions : List Execution
  /-- The request of every guess that was compared with a code.  Nothing reads it. -/
  compared : List Uuid
  /-- The request of every password that was changed.  Nothing reads it. -/
  changed : List Uuid
  deriving DecidableEq

namespace UserForgotPassword

variable (request : UserForgotPassword)

def isExpired (seconds now : ℤ) : Prop := request.createdAt < now - 1000 * seconds

instance (seconds now : ℤ) : Decidable (request.isExpired seconds now) :=
  inferInstanceAs (Decidable (_ < _))

def expire (now : ℤ) : UserForgotPassword :=
  { request with state := .EXPIRED, expiredAt := some now }

def decline : UserForgotPassword := { request with state := .DECLINED }

/-- The request after a guess. -/
def guessed (config : Config) (code : String) : UserForgotPassword :=
  let attempts := request.attempts + 1
  let isLastAttempt := config.maxAttempts ≤ attempts
  let isWrongCode := request.code ≠ code
  if isWrongCode ∧ isLastAttempt then
    { request with attempts := attempts, state := .DECLINED }
  else if isWrongCode then
    { request with attempts := attempts }
  else
    { request with attempts := attempts, state := .CONFIRMED }

end UserForgotPassword

/-- `newUserForgotPassword`. -/
def newUserForgotPassword (user : User) (id : Uuid) (code : String) (now : ℤ) :
    UserForgotPassword where
  id := id
  state := .PENDING
  user := user.uuid
  phoneNumber := user.phoneNumber
  email := some user.email
  code := code
  attempts := 0
  expiredAt := none
  createdAt := now

/-- The rows that an execution has updated and not committed. -/
def Stage.locked : Stage → List Uuid
  | .create _ declined => declined.toList.map UserForgotPassword.id
  | .commit _ requests _ => requests.map UserForgotPassword.id
  | _ => []

def Stage.lockedUser : Stage → List Uuid
  | .update user _ | .commit user _ _ => user.toList.map User.uuid
  | _ => []

namespace World

variable (w : World)

/-- Execution `i` goes to another stage. -/
def goes (i : ℕ) (x : Execution) (stage : Stage) : World :=
  { w with executions := w.executions.set i { x with stage := stage } }

/-- No other execution has updated the request. -/
def Free (i : ℕ) (id : Uuid) : Prop :=
  ∀ j < w.executions.length, j ≠ i → ∀ x ∈ w.executions[j]?, id ∉ x.stage.locked

def FreeUser (i : ℕ) (uuid : Uuid) : Prop :=
  ∀ j < w.executions.length, j ≠ i → ∀ x ∈ w.executions[j]?, uuid ∉ x.stage.lockedUser

instance (i : ℕ) (id : Uuid) : Decidable (w.Free i id) :=
  inferInstanceAs (Decidable (∀ j < _, _ → _))

instance (i : ℕ) (uuid : Uuid) : Decidable (w.FreeUser i uuid) :=
  inferInstanceAs (Decidable (∀ j < _, _ → _))

def getByEmail (email : String) : Option User := w.users.rows.find? fun u => u.email = email

/-- `getByUserAndState`, for `PENDING`. -/
def getPending (user : Uuid) (pick : ℕ) : Option UserForgotPassword :=
  let found := w.requests.rows.filter fun q => q.user = user ∧ q.state = .PENDING
  found[pick % found.length]?

/-- `UpdateUserForgotPasswordUseCase.execute`, up to its first write. -/
def guess (config : Config) (i : ℕ) (x : Execution) (id : Uuid) (code newPassword : String)
    (now : ℤ) : World :=
  if code = "" ∨ newPassword = "" then
    w.goes i x (.rolledBack (.missingData
      ((if code = "" then ["Code"] else []) ++ if newPassword = "" then ["New password"] else [])))
  else match w.requests.get? id with
    | none => w.goes i x (.rolledBack (.notFound id))
    | some found =>
        if found.state = .DECLINED then w.goes i x (.rolledBack (.maxAttempts id))
        else if found.state = .EXPIRED then w.goes i x (.rolledBack (.expired id))
        else if found.state ≠ .PENDING then w.goes i x (.rolledBack (.invalidState id))
        else if found.isExpired config.expirationSeconds now then
          w.goes i x (.update none (found.expire now))
        else
          { w.goes i x (if found.code = code then .getUser (found.guessed config code)
              else .update none (found.guessed config code)) with
            compared := w.compared ++ [id] }

/-- The job, at a request. -/
def sync (config : Config) (i : ℕ) (x : Execution) (id : Uuid) (now : ℤ) : World :=
  match w.requests.get? id with
  | some found =>
      if found.isExpired config.timestamp now ∧ found.state = .PENDING then
        w.goes i x (.update none (found.expire now))
      else w.goes i x .committed
  | none => w.goes i x .committed

/-- Publish what an execution wrote, unless the id of what it created is taken. -/
def commit (i : ℕ) (x : Execution) (user : Option User) (requests : List UserForgotPassword)
    (created : Option UserForgotPassword) : World :=
  if ∃ q ∈ created, (w.requests.get? q.id).isSome then
    w.goes i x (.rolledBack .uniqueConstraint)
  else
    { w.goes i x .committed with
      users := user.elim w.users w.users.set
      requests := created.elim (w.requests.setAll requests) (w.requests.setAll requests).upsert
      changed := w.changed ++ if user.isSome then requests.map UserForgotPassword.id else [] }

/-- The next statement of an execution. -/
def statement (config : Config) (i : ℕ) (x : Execution) : World :=
  match x.stage, x.call with
  | .begun, .update id code newPassword now => w.guess config i x id code newPassword now
  | .begun, .sync id now => w.sync config i x id now
  | .begun, .createByEmail email _ _ _ _ =>
      if email = "" then w.goes i x (.rolledBack (.missingData ["User Email"]))
      else match w.getByEmail email with
        | none => w.goes i x .committed
        | some user => w.goes i x (.getById user)
  | .getById user, .createByEmail _ id _ _ _ =>
      if (w.requests.get? id).isSome then w.goes i x .committed
      else w.goes i x (.getByUserAndState user)
  | .getByUserAndState user, .createByEmail _ _ _ pick _ =>
      match w.getPending user.uuid pick with
      | some found => w.goes i x (.decline user found.decline)
      | none => w.goes i x (.create user none)
  | .decline user declined, _ =>
      if w.Free i declined.id then w.goes i x (.create user (some declined)) else w
  | .create user declined, .createByEmail _ id code _ now =>
      if (w.requests.get? id).isSome then w.goes i x (.rolledBack .uniqueConstraint)
      else w.goes i x (.commit none declined.toList (some (newUserForgotPassword user id code now)))
  | .getUser confirmed, .update _ _ newPassword _ =>
      match w.users.get? confirmed.user with
      | none => w.goes i x (.rolledBack .typeError)
      | some user => w.goes i x (.updateUser { user with password := newPassword } confirmed)
  | .updateUser user confirmed, _ =>
      if w.FreeUser i user.uuid then w.goes i x (.update (some user) confirmed) else w
  | .update user request, _ =>
      if w.Free i request.id then w.goes i x (.commit user [request] none) else w
  | .commit user requests created, _ => w.commit i x user requests created
  | _, _ => w

end World

/-! ### Runs -/

inductive Step where
  | call (call : Call)
  /-- The next statement of an execution, or its commit. -/
  | go (i : ℕ)
  | abort (i : ℕ)
  deriving DecidableEq, Repr

def step (config : Config) (w : World) : Step → World
  | .call call => { w with executions := w.executions ++ [⟨call, .begun⟩] }
  | .go i =>
      match w.executions[i]? with
      | some x => w.statement config i x
      | none => w
  | .abort i =>
      match w.executions[i]? with
      | some x => if x.stage = .committed then w else w.goes i x (.rolledBack .aborted)
      | none => w

/-- Before the first request. -/
def start (users : Table User) : World := ⟨users, Table.empty, [], [], []⟩

end ZroServices.Users.ForgotPassword
