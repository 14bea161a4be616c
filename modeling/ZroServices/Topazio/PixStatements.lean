import ZroServices.Common.Moment
import ZroServices.Foundation.Run
import ZroServices.Foundation.Table

/-!
# Topazio — the statement of the PSP

`UpdatePixStatementUseCase` copies the statement of the PSP to redis, page by page, from the page of
a cursor on, and `SyncPixStatementUseCase` has pix-payments receive the credits of what is there.

The PSP lists more while an update goes on, so an update is given what is listed before each of its
requests; it raises when it makes one more.  The other calls of an update do not raise.  A sync makes
its calls all at once: those of pix-payments and of the translation may raise, and so may a write of
a failed credit, which ends it.

A day is one at UTC−3, numbered as `localDay` does.
-/

namespace ZroServices.Topazio

open Foundation

inductive PaymentStatusType where
  | SETTLED
  | PROCESSING
  | CHARGEBACK
  deriving DecidableEq, Repr

inductive TransactionType where
  | CREDIT
  | DEBIT
  | CHARGEBACK
  deriving DecidableEq, Repr

structure Statement where
  transactionId : String
  endToEndId : String
  clientBankIspb : String
  status : PaymentStatusType
  transactionType : TransactionType
  isDevolution : Bool
  transactionOriginalId : String
  amount : ℤ
  deriving DecidableEq, Repr

structure PixStatementCurrentPage where
  actualPage : ℕ
  createdDate : ℤ
  deriving DecidableEq, Repr

/-- A page in redis. -/
structure PixStatement where
  createdDate : ℤ
  page : ℕ
  statements : List Statement
  expiresAt : Option ℤ
  deriving DecidableEq, Repr

instance : Keyed PixStatement (ℤ × ℕ) := ⟨fun p => (p.createdDate, p.page)⟩

/-- What pix-payments has received. -/
inductive Received where
  | deposit (id : String) (amount : ℤ)
  | devolution (id payment : String) (amount : ℤ)
  deriving DecidableEq, Repr

def Received.id : Received → String
  | .deposit id _ | .devolution id _ _ => id

structure FailedNotifyCredit where
  transactionId : String
  code : String
  message : String
  deriving DecidableEq, Repr

structure Config where
  zroBankIspb : String
  /-- Of a page, in milliseconds. -/
  ttl : ℕ

structure World where
  /-- What the PSP has listed, with its day, in its order. -/
  listed : List (ℤ × Statement)
  currentPage : Option PixStatementCurrentPage
  pages : Table PixStatement
  received : List Received
  failed : List FailedNotifyCredit
  now : ℤ
  deriving DecidableEq

def pageSize : ℕ := 100

def listedOn (listed : List (ℤ × Statement)) (day : ℤ) : List Statement :=
  (listed.filter fun entry => entry.1 = day).map Prod.snd

/-- `getStatement` of a day. -/
def getStatement (listed : List (ℤ × Statement)) (day : ℤ) (page : ℕ) : List Statement :=
  ((listedOn listed day).drop ((page - 1) * pageSize)).take pageSize

/-- The start of a day. -/
def dayStart (day : ℤ) : ℤ := day * msPerDay + midnight

/-- `getIntervalDates`: one instant a day from the first, as long as they are before `now`. -/
def getIntervalDates (startDate now : ℤ) : List ℤ :=
  startDate :: (List.range ((now - startDate - 1) / msPerDay).toNat).map fun (k : ℕ) =>
    startDate + (k + 1) * msPerDay

/-- The time at which a key of redis is gone, if it has a lifetime. -/
def expiry (now : ℤ) (ttl : ℕ) : Option ℤ := if ttl = 0 then none else some (now + ttl)

def PixStatement.Alive (p : PixStatement) (now : ℤ) : Prop := ∀ t ∈ p.expiresAt, now ≤ t

instance (p : PixStatement) (now : ℤ) : Decidable (p.Alive now) :=
  inferInstanceAs (Decidable (∀ t ∈ _, _))

/-! ### The update -/

/-- The loops of the update over the dates and the pages, and whether they end.  A filter that leaves
nothing of a page makes a page of size 0, and the model raises. -/
def updatePages (config : Config) (filter : Option (String → Bool)) :
    World → List (List (ℤ × Statement)) → List ℤ → ℕ → World × Bool
  | w, _, [], _ => (w, true)
  | w, [], _ :: _, _ => (w, false)
  | w, more :: rest, newUpdateDate :: dates, actualPage =>
      let day := localDay newUpdateDate
      let listed := w.listed ++ more
      let result := getStatement listed day actualPage
      if result = [] then
        updatePages config filter { w with listed := listed } rest dates 1
      else
        let newStatements := filter.elim result fun keeps => result.filter fun s => keeps s.endToEndId
        if newStatements = [] then ({ w with listed := listed }, false)
        else
          let w' := { w with
            listed := listed
            pages := w.pages.upsert ⟨day, actualPage, newStatements, expiry w.now config.ttl⟩
            currentPage := some ⟨actualPage, day⟩ }
          if pageSize ≤ result.length then
            updatePages config filter w' rest (newUpdateDate :: dates) (actualPage + 1)
          else updatePages config filter w' rest dates 1

/-- `UpdatePixStatementUseCase.execute`. -/
def World.update (w : World) (config : Config) (filter : Option (String → Bool))
    (more : List (List (ℤ × Statement))) : World × Bool :=
  match w.currentPage with
  | none => updatePages config filter w more (getIntervalDates w.now w.now) 1
  | some c =>
      updatePages config filter w more (getIntervalDates (dayStart c.createdDate) w.now) c.actualPage

/-! ### The sync -/

/-- What the calls of a sync answer. -/
structure Calls where
  /-- `receivePixDeposit` or `receivePixDevolution`; an exception has a code. -/
  receive : PixStatement → Statement → Except String Unit
  /-- The message of a code, or an exception. -/
  translate : PixStatement → Statement → Option String
  /-- How many failed credits are written before a write raises. -/
  raisesAfter : Option ℕ

/-- A credit that is for this bank. -/
def Statement.IsCredit (s : Statement) (config : Config) : Prop :=
  s.clientBankIspb = config.zroBankIspb ∧ s.status = .SETTLED ∧ s.transactionType = .CREDIT

instance (s : Statement) (config : Config) : Decidable (s.IsCredit config) :=
  inferInstanceAs (Decidable (_ ∧ _))

/-- `handleCreditStatement`. -/
def Statement.received (s : Statement) : Received :=
  if s.isDevolution then .devolution s.transactionId s.transactionOriginalId s.amount
  else .deposit s.transactionId s.amount

namespace World

variable (w : World)

/-- `pixStatementRepository.getAll`. -/
def getAll : List PixStatement := w.pages.rows.filter fun p => p.Alive w.now

/-- The statements that the sync handles, with their pages. -/
def credits (config : Config) : List (PixStatement × Statement) :=
  w.getAll.flatMap fun p => (p.statements.filter fun s => s.IsCredit config).map fun s => (p, s)

/-- What `handleCreditStatement` raises, when the message is translated. -/
def failedStatements (config : Config) (calls : Calls) : List FailedNotifyCredit :=
  (w.credits config).filterMap fun (p, s) =>
    match calls.receive p s with
    | .ok _ => none
    | .error code => (calls.translate p s).map fun message => ⟨s.transactionId, code, message⟩

/-- `SyncPixStatementUseCase.execute`, and whether it ends. -/
def sync (config : Config) (calls : Calls) : World × Bool :=
  let failedStatements := w.failedStatements config calls
  let written := calls.raisesAfter.getD failedStatements.length
  ({ w with
    received := w.received ++ (w.credits config).filterMap fun (p, s) =>
      if (calls.receive p s).isOk then some s.received else none
    pages := w.pages.setAll (w.getAll.map fun p => { p with expiresAt := expiry w.now 1 })
    failed := w.failed ++ failedStatements.take written },
    decide (failedStatements.length ≤ written))

end World

/-! ### Runs -/

inductive Step where
  | update (more : List (List (ℤ × Statement)))
  | sync (calls : Calls)
  /-- The PSP lists more. -/
  | list (more : List (ℤ × Statement))
  | tick (ms : ℕ)

def step (config : Config) (w : World) : Step → World
  | .update more => (w.update config none more).1
  | .sync calls => (w.sync config calls).1
  | .list more => { w with listed := w.listed ++ more }
  | .tick ms => { w with now := w.now + ms }

end ZroServices.Topazio
