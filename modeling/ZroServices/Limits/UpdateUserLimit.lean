import ZroServices.Foundation.Effect
import ZroServices.Foundation.Run
import ZroServices.Operations.Domain

/-!
# Limits — updating a user limit

`UpdateUserLimitUseCase` (the user changes the limits that are user defined) and
`UpdateUserLimitByAdminUseCase` (compliance changes the others), with the controllers' reading of
their requests.  The requests are checked to be integers, not to be positive, and `0` is not a
value: `if (limit)` does not take it (`Limit.Given`).

* A comparison with a limit that is absent is a comparison with `0` (`Limit.number`).
* `adjust` is the common shape of every field of both use cases: a supplied value is verified, and
  then the user defined limit changes.
* Each execution runs in one transaction.
-/

namespace ZroServices

open Foundation

namespace Limit

/-- The limit as a number: `null` is `0`. -/
def number (l : Limit ℤ) : ℤ := l.getD 0

/-- `if (limit)`. -/
def Given (l : Limit ℤ) : Prop := l.number ≠ 0

instance (l : Limit ℤ) : Decidable l.Given := inferInstanceAs (Decidable (_ ≠ _))

/-- The value of the request, when it is given. -/
def override (new old : Limit ℤ) : Limit ℤ := if new.Given then new else old

end Limit

/-- A row of the table of user limits. -/
structure StoredLimit extends LimitValues ℤ where
  id : Uuid
  user : UserId
  limitType : LimitTypeId
  creditBalance : ℤ
  deriving DecidableEq, Repr

instance : Keyed StoredLimit Uuid := ⟨StoredLimit.id⟩

namespace Limits

inductive UserLimitEventType where
  | UPDATED
  | CREATED
  deriving DecidableEq, Repr

structure UserLimitEvent where
  type : UserLimitEventType
  id : Uuid
  userId : UserId
  deriving DecidableEq, Repr

/-- The user limits and the events about them. -/
structure State where
  userLimits : Table StoredLimit
  events : List UserLimitEvent
  deriving DecidableEq

/-- What the use cases do not write. -/
structure Env where
  globalLimit : LimitTypeId → Option (LimitValues ℤ)
  nighttimeIntervals : String

/-- What `UpdateUserLimitUseCase` is given. -/
structure NewLimits where
  userNightlyLimit : Limit ℤ
  userDailyLimit : Limit ℤ
  userMonthlyLimit : Limit ℤ
  userYearlyLimit : Limit ℤ
  userMaxAmount : Limit ℤ
  userMinAmount : Limit ℤ
  userMaxAmountNightly : Limit ℤ
  userMinAmountNightly : Limit ℤ
  nighttimeStart : Option String
  nighttimeEnd : Option String
  deriving DecidableEq, Repr

/-- What `UpdateUserLimitByAdminUseCase` is given. -/
structure NewUserLimit where
  nightlyLimit : Limit ℤ
  dailyLimit : Limit ℤ
  monthlyLimit : Limit ℤ
  yearlyLimit : Limit ℤ
  maxAmount : Limit ℤ
  minAmount : Limit ℤ
  maxAmountNightly : Limit ℤ
  minAmountNightly : Limit ℤ
  deriving DecidableEq, Repr

inductive Exception where
  | missingData (fields : List String)
  | data (messages : List String)
  | uniqueConstraint (table : String)
  | userLimitNotFound (id : Uuid)
  | nighttimeIntervalInvalid (newLimits : NewLimits)
  | dailyLimitExceeded (userDailyLimit : Limit ℤ) (dailyLimit : ℤ)
  | monthlyLimitExceeded (userMonthlyLimit : Limit ℤ) (monthlyLimit : ℤ)
  | yearlyLimitExceeded (userYearlyLimit : Limit ℤ) (yearlyLimit : ℤ)
  | nightlyLimitExceeded (userNightlyLimit nightlyLimit : Limit ℤ)
  | maxAmountLimitExceeded (amount maxAmount : Limit ℤ)
  | maxAmountNightlyLimitExceeded (amount maxAmount : Limit ℤ)
  | minAmountLimitBelow (amount minAmount : Limit ℤ)
  | minAmountNightlyLimitBelow (amount minAmount : Limit ℤ)
  | yearlyLimitUnderMonthly (yearlyLimit : Limit ℤ) (monthlyLimit : ℤ)
  | monthlyLimitAboveYearly (monthlyLimit : Limit ℤ) (yearlyLimit : ℤ)
  | monthlyLimitUnderDaily (monthlyLimit : Limit ℤ) (dailyLimit : ℤ)
  | dailyLimitAboveMonthly (dailyLimit : Limit ℤ) (monthlyLimit : ℤ)
  | dailyLimitUnderMaxAmount (dailyLimit maxAmount : Limit ℤ)
  | nightlyLimitAboveDaily (nightlyLimit : Limit ℤ) (dailyLimit : ℤ)
  | nightlyLimitUnderMaxAmountNightly (nightlyLimit maxAmountNightly : Limit ℤ)
  | maxAmountLimitAboveDaily (maxAmount : Limit ℤ) (dailyLimit : ℤ)
  | maxAmountLimitUnderMinAmount (maxAmount minAmount : Limit ℤ)
  | minAmountLimitAboveMaxAmount (minAmount maxAmount : Limit ℤ)
  | minAmountLimitUnderZero (minAmount : Limit ℤ)
  | maxAmountNightlyLimitAboveNightly (maxAmountNightly nightlyLimit : Limit ℤ)
  | maxAmountNightlyLimitUnderMinAmountNightly (maxAmountNightly minAmountNightly : Limit ℤ)
  | minAmountNightlyLimitAboveMaxAmount (minAmountNightly maxAmountNightly : Limit ℤ)
  | minAmountNightlyLimitUnderZero (minAmountNightly : Limit ℤ)
  deriving DecidableEq, Repr

abbrev App := EStateM Exception State

/-- What is verified of a value, with what is thrown. -/
abbrev Checks := List (Bool × Exception)

/-- A supplied value is verified and the user defined limit changes to `new`; otherwise it stays. -/
def adjust (supplied : Limit ℤ) (verify : Checks) (new old : Limit ℤ) : App (Limit ℤ) := do
  if supplied.Given then
    throwFirst verify
    return new
  else return old

namespace UserLimitRepository

def getByUserAndLimitType (user : UserId) (limitType : LimitTypeId) (s : State) :
    Option StoredLimit :=
  s.userLimits.rows.find? fun l => decide (l.user = user ∧ l.limitType = limitType)

def getById (id : Uuid) (s : State) : Option StoredLimit := s.userLimits.get? id

def create (l : StoredLimit) : App Unit := do
  let s ← get
  let userLimits ← orThrow (s.userLimits.insert? l) (.uniqueConstraint "Users_limits")
  modify fun s => { s with userLimits }

def update (l : StoredLimit) : App Unit := modify fun s => { s with userLimits := s.userLimits.set l }

end UserLimitRepository

namespace UserLimitEventEmitter

def createdUserLimit (l : StoredLimit) : App Unit :=
  modify fun s => { s with events := s.events ++ [⟨.CREATED, l.id, l.user⟩] }

def updatedUserLimit (l : StoredLimit) : App Unit :=
  modify fun s => { s with events := s.events ++ [⟨.UPDATED, l.id, l.user⟩] }

end UserLimitEventEmitter

/-! ### The user's update -/

namespace UpdateUserLimitUseCase

variable (env : Env) (newLimits : NewLimits)

/-- A user defined limit of a period is verified against the compliance limit alone. -/
def verifyPeriodLimit (new : Limit ℤ) (limit : ℤ) (e : Exception) : Checks :=
  [(decide (limit < new.number), e)]

def verifyUserMaxAmount (l : StoredLimit) : Checks :=
  let new := newLimits.userMaxAmount
  [(decide (l.maxAmount.Given ∧ l.maxAmount.number < new.number),
      .maxAmountLimitExceeded new l.maxAmount),
    (decide (l.minAmount.Given ∧ new.number < l.minAmount.number),
      .minAmountLimitBelow new l.minAmount),
    (decide (l.userMinAmount.Given ∧ new.number < l.userMinAmount.number),
      .minAmountLimitBelow new l.userMinAmount)]

def verifyUserMaxAmountNightly (l : StoredLimit) : Checks :=
  let new := newLimits.userMaxAmountNightly
  [(decide (l.maxAmountNightly.Given ∧ l.maxAmountNightly.number < new.number),
      .maxAmountNightlyLimitExceeded new l.maxAmountNightly),
    (decide (l.minAmountNightly.Given ∧ new.number < l.minAmountNightly.number),
      .minAmountLimitBelow new l.minAmountNightly),
    (decide (l.userMinAmountNightly.Given ∧ new.number < l.userMinAmountNightly.number),
      .minAmountLimitBelow new l.userMinAmountNightly)]

def verifyUserMinAmount (l : StoredLimit) : Checks :=
  let new := newLimits.userMinAmount
  [(decide (l.minAmount.Given ∧ new.number < l.minAmount.number),
      .minAmountLimitBelow new l.minAmount),
    (decide (l.maxAmount.Given ∧ l.maxAmount.number < new.number),
      .maxAmountLimitExceeded new l.maxAmount),
    (decide (l.userMaxAmount.Given ∧ l.userMaxAmount.number < new.number),
      .maxAmountLimitExceeded new l.userMaxAmount)]

def verifyUserMinAmountNightly (l : StoredLimit) : Checks :=
  let new := newLimits.userMinAmountNightly
  [(decide (l.minAmountNightly.Given ∧ new.number < l.minAmountNightly.number),
      .minAmountNightlyLimitBelow new l.minAmountNightly),
    (decide (l.maxAmountNightly.Given ∧ l.maxAmountNightly.number < new.number),
      .maxAmountLimitExceeded new l.maxAmountNightly),
    (decide (l.userMaxAmountNightly.Given ∧ l.userMaxAmountNightly.number < new.number),
      .maxAmountLimitExceeded new l.userMaxAmountNightly)]

/-- `newLimits.hasNighttime()`. -/
def hasNighttime : Prop :=
  (newLimits.nighttimeStart.bind hourTime).isSome ∧ (newLimits.nighttimeEnd.bind hourTime).isSome

instance : Decidable (hasNighttime newLimits) := inferInstanceAs (Decidable (_ ∧ _))

/-- The interval is a part of the text of the configured ones. -/
def isValidNighttimesInterval : Prop :=
  (newLimits.nighttimeStart.getD "" ++ ";" ++ newLimits.nighttimeEnd.getD "").toList
    <:+: env.nighttimeIntervals.toList

instance : Decidable (isValidNighttimesInterval env newLimits) :=
  inferInstanceAs (Decidable (_ <:+: _))

/-- The limit with what the user supplied; the amounts are verified one after the other. -/
def applyLimits (l : StoredLimit) : App StoredLimit := do
  let n := newLimits
  let userDailyLimit ← adjust n.userDailyLimit
    (verifyPeriodLimit n.userDailyLimit l.dailyLimit
      (.dailyLimitExceeded n.userDailyLimit l.dailyLimit)) n.userDailyLimit l.userDailyLimit
  let userMonthlyLimit ← adjust n.userMonthlyLimit
    (verifyPeriodLimit n.userMonthlyLimit l.monthlyLimit
      (.monthlyLimitExceeded n.userMonthlyLimit l.monthlyLimit)) n.userMonthlyLimit
      l.userMonthlyLimit
  let userYearlyLimit ← adjust n.userYearlyLimit
    (verifyPeriodLimit n.userYearlyLimit l.yearlyLimit
      (.yearlyLimitExceeded n.userYearlyLimit l.yearlyLimit)) n.userYearlyLimit l.userYearlyLimit
  let userNightlyLimit ← adjust n.userNightlyLimit
    (verifyPeriodLimit n.userNightlyLimit l.nightlyLimit.number
      (.nightlyLimitExceeded n.userNightlyLimit l.nightlyLimit)) n.userNightlyLimit
      l.userNightlyLimit
  let l := { l with userDailyLimit, userMonthlyLimit, userYearlyLimit, userNightlyLimit }
  let userMaxAmount ← adjust n.userMaxAmount (verifyUserMaxAmount n l) n.userMaxAmount
    l.userMaxAmount
  let l := { l with userMaxAmount }
  let userMaxAmountNightly ← adjust n.userMaxAmountNightly (verifyUserMaxAmountNightly n l)
    n.userMaxAmountNightly l.userMaxAmountNightly
  let l := { l with userMaxAmountNightly }
  let userMinAmount ← adjust n.userMinAmount (verifyUserMinAmount n l) n.userMinAmount
    l.userMinAmount
  let l := { l with userMinAmount }
  let userMinAmountNightly ← adjust n.userMinAmountNightly (verifyUserMinAmountNightly n l)
    n.userMinAmountNightly l.userMinAmountNightly
  let l := { l with userMinAmountNightly }
  if hasNighttime n then
    throwIf (¬ isValidNighttimesInterval env n) (.nighttimeIntervalInvalid n)
    return { l with nighttimeStart := n.nighttimeStart, nighttimeEnd := n.nighttimeEnd }
  else return l

/-- The limit of a user that has none, with the values of the global limit. -/
def newUserLimit (user : UserId) (limitType : LimitTypeId) (g : LimitValues ℤ) (s : State) :
    StoredLimit :=
  { g with
    id := fresh (s.userLimits.rows.map (·.id))
    user
    limitType
    creditBalance := 0 }

def getLimit (user : UserId) (limitType : LimitTypeId) : App StoredLimit := do
  let s ← get
  match UserLimitRepository.getByUserAndLimitType user limitType s with
  | some l => return l
  | none =>
      -- The limit type of the request has an id and no tag.
      let g ← orThrow (env.globalLimit limitType) (.data ["Missing global limit for undefined"])
      let l := newUserLimit user limitType g s
      UserLimitRepository.create l
      UserLimitEventEmitter.createdUserLimit l
      return l

def updateUserLimit (user : UserId) (limitType : LimitTypeId) : App StoredLimit := do
  let userLimit ← getLimit env user limitType
  let userLimit ← applyLimits env newLimits userLimit
  UserLimitRepository.update userLimit
  UserLimitEventEmitter.updatedUserLimit userLimit
  return userLimit

/-- The limits of the limit types, one after the other. -/
def execute (user : UserId) (limitTypes : List LimitTypeId) : App Unit :=
  limitTypes.forM fun limitType => do
    let _ ← updateUserLimit env newLimits user limitType

end UpdateUserLimitUseCase

/-! ### The update by compliance -/

namespace UpdateUserLimitByAdminUseCase

variable (newUserLimit : NewUserLimit)

/-- `{...userLimitFound, ...newUserLimit}`.  The new limit is built by the class, which sets its
credit balance to 0. -/
def withNewLimits (l : StoredLimit) : StoredLimit :=
  let n := newUserLimit
  { l with
    nightlyLimit := n.nightlyLimit.override l.nightlyLimit
    dailyLimit := if n.dailyLimit.Given then n.dailyLimit.number else l.dailyLimit
    monthlyLimit := if n.monthlyLimit.Given then n.monthlyLimit.number else l.monthlyLimit
    yearlyLimit := if n.yearlyLimit.Given then n.yearlyLimit.number else l.yearlyLimit
    maxAmount := n.maxAmount.override l.maxAmount
    minAmount := n.minAmount.override l.minAmount
    maxAmountNightly := n.maxAmountNightly.override l.maxAmountNightly
    minAmountNightly := n.minAmountNightly.override l.minAmountNightly
    creditBalance := 0 }

def verifyYearlyLimit (l : StoredLimit) : Checks :=
  let new := newUserLimit.yearlyLimit
  [(decide (new.number < l.monthlyLimit), .yearlyLimitUnderMonthly new l.monthlyLimit)]

def verifyMonthlyLimit (l : StoredLimit) : Checks :=
  let new := newUserLimit.monthlyLimit
  [(decide (l.yearlyLimit < new.number), .monthlyLimitAboveYearly new l.yearlyLimit),
    (decide (new.number < l.dailyLimit), .monthlyLimitUnderDaily new l.dailyLimit)]

def verifyDailyLimit (l : StoredLimit) : Checks :=
  let new := newUserLimit.dailyLimit
  [(decide (l.monthlyLimit < new.number), .dailyLimitAboveMonthly new l.monthlyLimit),
    (decide (new.number < l.maxAmount.number), .dailyLimitUnderMaxAmount new l.maxAmount)]

def verifyNightlyLimit (l : StoredLimit) : Checks :=
  let new := newUserLimit.nightlyLimit
  [(decide (l.dailyLimit < new.number), .nightlyLimitAboveDaily new l.dailyLimit),
    (decide (new.number < l.maxAmountNightly.number),
      .nightlyLimitUnderMaxAmountNightly new l.maxAmountNightly)]

def verifyMaxAmount (l : StoredLimit) : Checks :=
  let new := newUserLimit.maxAmount
  [(decide (l.dailyLimit < new.number), .maxAmountLimitAboveDaily new l.dailyLimit),
    (decide (new.number < l.minAmount.number), .maxAmountLimitUnderMinAmount new l.minAmount)]

def verifyMinAmount (l : StoredLimit) : Checks :=
  let new := newUserLimit.minAmount
  [(decide (l.maxAmount.number < new.number), .minAmountLimitAboveMaxAmount new l.maxAmount),
    (decide (new.number < 0), .minAmountLimitUnderZero newUserLimit.maxAmount)]

def verifyMaxAmountNightly (l : StoredLimit) : Checks :=
  let new := newUserLimit.maxAmountNightly
  [(decide (l.nightlyLimit.number < new.number),
      .maxAmountNightlyLimitAboveNightly new l.nightlyLimit),
    (decide (new.number < l.minAmountNightly.number),
      .maxAmountNightlyLimitUnderMinAmountNightly new l.minAmountNightly)]

def verifyMinAmountNightly (l : StoredLimit) : Checks :=
  let new := newUserLimit.minAmountNightly
  [(decide (l.maxAmountNightly.number < new.number),
      .minAmountNightlyLimitAboveMaxAmount new l.maxAmountNightly),
    (decide (new.number < 0), .minAmountNightlyLimitUnderZero newUserLimit.maxAmount)]

/-- The user defined limit, not above the new limit. -/
def notAbove (user limit : Limit ℤ) : Limit ℤ := if limit.number < user.number then limit else user

/-- The user defined limit, not under the new limit. -/
def notUnder (user limit : Limit ℤ) : Limit ℤ := if user.number < limit.number then limit else user

/-- The limit with what compliance supplied: every supplied limit is verified against the others,
the supplied ones among them, and moves the user defined limit. -/
def applyLimits (userLimitFound : StoredLimit) : App StoredLimit := do
  let n := newUserLimit
  let l := withNewLimits n userLimitFound
  let userYearlyLimit ← adjust n.yearlyLimit (verifyYearlyLimit n l)
    (notAbove l.userYearlyLimit (some l.yearlyLimit)) l.userYearlyLimit
  let userMonthlyLimit ← adjust n.monthlyLimit (verifyMonthlyLimit n l)
    (notAbove l.userMonthlyLimit (some l.monthlyLimit)) l.userMonthlyLimit
  let userDailyLimit ← adjust n.dailyLimit (verifyDailyLimit n l)
    (notAbove l.userDailyLimit (some l.dailyLimit)) l.userDailyLimit
  let userNightlyLimit ← adjust n.nightlyLimit (verifyNightlyLimit n l)
    (notAbove l.userNightlyLimit l.nightlyLimit) l.userNightlyLimit
  let userMaxAmount ← adjust n.maxAmount (verifyMaxAmount n l)
    (notAbove l.userMaxAmount l.maxAmount) l.userMaxAmount
  let userMinAmount ← adjust n.minAmount (verifyMinAmount n l)
    (notUnder l.userMinAmount l.minAmount) l.userMinAmount
  let userMaxAmountNightly ← adjust n.maxAmountNightly (verifyMaxAmountNightly n l)
    (notAbove l.userMaxAmountNightly l.maxAmountNightly) l.userMaxAmountNightly
  let userMinAmountNightly ← adjust n.minAmountNightly (verifyMinAmountNightly n l)
    (notUnder l.userMinAmountNightly l.minAmountNightly) l.userMinAmountNightly
  return { l with
    userYearlyLimit, userMonthlyLimit, userDailyLimit, userNightlyLimit, userMaxAmount,
    userMinAmount, userMaxAmountNightly, userMinAmountNightly }

def execute (userLimit : Option Uuid) : App StoredLimit := do
  let id ← orThrow userLimit (.missingData ["User Limit ID"])
  let s ← get
  let userLimitFound ← orThrow (UserLimitRepository.getById id s) (.userLimitNotFound id)
  let userLimit ← applyLimits newUserLimit userLimitFound
  UserLimitRepository.update userLimit
  UserLimitEventEmitter.updatedUserLimit userLimit
  return userLimit

end UpdateUserLimitByAdminUseCase

/-! ### The system -/

inductive Command where
  | update (user : UserId) (limitTypes : List LimitTypeId) (newLimits : NewLimits)
  | updateByAdmin (userLimit : Option Uuid) (newUserLimit : NewUserLimit)
  deriving DecidableEq, Repr

/-- An execution in its transaction: what a throw leaves is what was there before. -/
def committed {α : Type} (x : App α) (s : State) : State :=
  match transaction (fun before _ => before) x s with
  | .ok _ s' => s'
  | .error _ s' => s'

def step (env : Env) (s : State) : Command → State
  | .update user limitTypes newLimits =>
      committed (UpdateUserLimitUseCase.execute env newLimits user limitTypes) s
  | .updateByAdmin userLimit newUserLimit =>
      committed (UpdateUserLimitByAdminUseCase.execute newUserLimit userLimit) s

/-! ### What the executions do -/

section
variable {supplied new old r : Limit ℤ} {verify : Checks} {s s' : State}

theorem adjust_ok :
    adjust supplied verify new old s = .ok r s' ↔
      (supplied.Given → ∀ c ∈ verify, c.1 = false) ∧
        r = (if supplied.Given then new else old) ∧ s' = s := by
  rw [adjust]
  by_cases h : supplied.Given
  · rw [if_pos h, if_pos h, bind_ok]
    simp only [throwFirst_ok, pure_ok, h, true_implies]
    constructor
    · rintro ⟨_, _, ⟨hc, rfl⟩, rfl, rfl⟩
      exact ⟨hc, rfl, rfl⟩
    · rintro ⟨hc, rfl, rfl⟩
      exact ⟨(), s', ⟨hc, rfl⟩, rfl, rfl⟩
  · simp [h, pure_ok]

theorem committed_cases {α : Type} (x : App α) (s : State) :
    committed x s = s ∨ ∃ a, x s = .ok a (committed x s) := by
  rw [committed, transaction]
  cases x s with
  | ok a s' => exact Or.inr ⟨a, rfl⟩
  | error e s' => exact Or.inl rfl

end

end Limits

end ZroServices
