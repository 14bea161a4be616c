import ZroServices.Foundation.Counter
import ZroServices.Operations.Database

/-!
# Operations — checking and charging user limits

The part of `CreateOperationUseCase` that deals with limits, and the tracker counters.

* `getLimit` finds the limit and the tracker of a user for a limit type, or makes them; a tracker
  that is found is brought up to date (`restartUserLimitTracker`).
* `checkUserLimits` compares a value with the limits, and with what is left of them.
* `updateUserLimitTrackerAndOperation` charges a value to a tracker and tags the operation.

The three period counters of a tracker whose period starts at a DATE are the counters of
`Foundation.Counter`, one for each division of time (`used_restart`, `used_charge`).
-/

namespace ZroServices

open Foundation

namespace UserLimitTracker

/-- The used limit of a day, a month or a year. -/
def used (t : UserLimitTracker) : MomentUnit → ℤ
  | .day => t.usedDailyLimit
  | .month => t.usedMonthlyLimit
  | .year => t.usedAnnualLimit

/-- The used limit of a unit as a usage counter. -/
def counter (t : UserLimitTracker) (u : MomentUnit) : Counter ℤ := ⟨t.used u, t.updatedAt⟩

/-- The used limits of the tracker, as `checkUserLimits` compares them. -/
def usedLimit (t : UserLimitTracker) : UsedLimit where
  nightlyLimit := t.usedNightlyLimit
  dailyLimit := t.usedDailyLimit
  monthlyLimit := t.usedMonthlyLimit
  yearlyLimit := t.usedAnnualLimit

@[simp] theorem usedLimit_period (t : UserLimitTracker) (u : MomentUnit) :
    t.usedLimit.period u = t.used u := by
  cases u <;> rfl

end UserLimitTracker

/-- A limit of a user, and its tracker. -/
structure TrackedLimit where
  userLimit : UserLimit
  tracker : UserLimitTracker
  deriving DecidableEq, Repr

namespace CreateOperationUseCase

variable (env : Env) (now : ℤ)

/-! ### The tracker -/

/-- `restartUserLimitTrackerByDatePeriodStart`. -/
def restartUserLimitTrackerByDatePeriodStart (t : UserLimitTracker) : UserLimitTracker :=
  { t with
    usedDailyLimit :=
      if 0 < t.usedDailyLimit ∧ ¬ MomentUnit.day.period.Same now t.updatedAt then 0
      else t.usedDailyLimit
    usedMonthlyLimit :=
      if 0 < t.usedMonthlyLimit ∧ ¬ MomentUnit.month.period.Same now t.updatedAt then 0
      else t.usedMonthlyLimit
    usedAnnualLimit :=
      if 0 < t.usedAnnualLimit ∧ ¬ MomentUnit.year.period.Same now t.updatedAt then 0
      else t.usedAnnualLimit }

/-- `restartNightlyUserLimitTracker`. -/
def restartNightlyUserLimitTracker (l : UserLimit) (t : UserLimitTracker) : UserLimitTracker :=
  if l.isInNighttimeInterval env.serverOffset now now then t else { t with usedNightlyLimit := 0 }

/-- `restartUserLimitTracker`. -/
def restartUserLimitTracker (l : UserLimit) (t : UserLimitTracker) : UserLimitTracker :=
  let t :=
    if t.periodStart = .DATE ∧
        (0 < t.usedDailyLimit ∨ 0 < t.usedMonthlyLimit ∨ 0 < t.usedAnnualLimit) then
      restartUserLimitTrackerByDatePeriodStart now t
    else t
  if 0 < t.usedNightlyLimit then restartNightlyUserLimitTracker env now l t else t

/-- The tags of an operation that was charged to a tracker. -/
def limitIncludedTags : LimitTypePeriodStart → List OperationAnalysisTag
  | .DATE => [.DATE_LIMIT_INCLUDED]
  | .INTERVAL =>
      [.DAILY_INTERVAL_LIMIT_INCLUDED, .MONTHLY_INTERVAL_LIMIT_INCLUDED,
        .ANNUAL_INTERVAL_LIMIT_INCLUDED]

/-- Charge a value to a tracker. -/
def chargeTracker (l : UserLimit) (t : UserLimitTracker) (value : ℤ) : UserLimitTracker :=
  { t with
    usedDailyLimit := t.usedDailyLimit + value
    usedMonthlyLimit := t.usedMonthlyLimit + value
    usedAnnualLimit := t.usedAnnualLimit + value
    usedNightlyLimit :=
      if l.isInNighttimeInterval env.serverOffset now now then t.usedNightlyLimit + value
      else t.usedNightlyLimit }

/-- `updateUserLimitTrackerAndOperation`. -/
def updateUserLimitTrackerAndOperation (c : TrackedLimit) (o : Operation) :
    UserLimitTracker × Operation :=
  (chargeTracker env now c.userLimit c.tracker o.value,
    { o with
      analysisTags := limitIncludedTags c.tracker.periodStart
      userLimitTracker := some c.tracker.id })

/-! ### What the stored operations have used -/

/-- Where the current day, month or year of a limit type starts. -/
def periodStartOf (limitType : LimitType) (u : MomentUnit) : ℤ :=
  match limitType.periodStart with
  | .DATE => startOf u now
  | .INTERVAL => subtractOne u now

/-- `getOperationLimitCheckStates`. -/
def getOperationLimitCheckStates : List OperationState := [.ACCEPTED, .PENDING]

/-- The operations since a date, of the transaction types and the states of the limit check, that
have the wallet account on the side that `side` reads. -/
def getValueAndCreatedAt (side : Operation → Option Party) (a : WalletAccount) (date : ℤ)
    (transactionTypes : List TransactionType) (db : Db) : List Operation :=
  db.operations.rows.filter fun o =>
    (side o).map (·.walletAccount) = some a.id ∧ date ≤ o.createdAt ∧
      o.transactionType.id ∈ transactionTypes.map (·.id) ∧
      o.state ∈ getOperationLimitCheckStates

/-- `getUsedLimit`. -/
def getUsedLimit (a : WalletAccount) (l : UserLimit) (limitType : LimitType) (db : Db) :
    UsedLimit :=
  let startDay := periodStartOf now limitType .day
  let startMonth := periodStartOf now limitType .month
  let startYear := dateOnly (periodStartOf now limitType .year)
  let transactionTypes := env.transactionTypesOf limitType
  let yearOperations :=
    (if limitType.check = .BOTH ∨ limitType.check = .OWNER then
        getValueAndCreatedAt (·.owner) a startYear transactionTypes db else [])
      ++ (if limitType.check = .BOTH ∨ limitType.check = .BENEFICIARY then
        getValueAndCreatedAt (·.beneficiary) a startYear transactionTypes db else [])
  { nightlyLimit := (yearOperations.map fun o =>
      if l.isInNighttimeInterval env.serverOffset now o.createdAt then o.value else 0).sum
    dailyLimit := (yearOperations.map fun o =>
      if startDay < o.createdAt then o.value else 0).sum
    monthlyLimit := (yearOperations.map fun o =>
      if startMonth < o.createdAt then o.value else 0).sum
    yearlyLimit := (yearOperations.map fun o => o.value).sum }

/-! ### The checks -/

/-- The checks of a value against the limits, in their order, and what they throw. -/
def limitChecks (l : UserLimit) (value : ℤ) : List (Bool × Exception) :=
  let night := decide (l.isInNighttimeInterval env.serverOffset now now)
  [ (decide (l.dailyLimit < value ∨ l.monthlyLimit < value ∨ l.yearlyLimit < value),
      .notEnoughLimit l value),
    (decide (l.userDailyLimit.exceededBy value ∨ l.userMonthlyLimit.exceededBy value ∨
        l.userYearlyLimit.exceededBy value),
      .notEnoughLimit l value),
    (night && decide (l.nightlyLimit.exceededBy value), .notEnoughLimit l value),
    (night && decide (l.userNightlyLimit.exceededBy value), .notEnoughLimit l value),
    (night && decide (l.maxAmountNightly.exceededBy value),
      .valueAboveMaxAmountNightlyLimit l value),
    (night && decide (l.userMaxAmountNightly.exceededBy value),
      .valueAboveMaxAmountNightlyLimit l value),
    (night && decide (l.minAmountNightly.notReachedBy value),
      .valueUnderMinAmountNightlyLimit l value),
    (night && decide (l.userMinAmountNightly.notReachedBy value),
      .valueUnderMinAmountNightlyLimit l value),
    (decide (l.maxAmount.exceededBy value), .valueAboveMaxAmountLimit l value),
    (decide (l.userMaxAmount.exceededBy value), .valueAboveMaxAmountLimit l value),
    (decide (l.minAmount.notReachedBy value), .valueUnderMinAmountLimit l value),
    (decide (l.userMinAmount.notReachedBy value), .valueUnderMinAmountLimit l value) ]

/-- A value does not fit into what is left of a daily, monthly or yearly limit. -/
def exceedsPeriods (l : UserLimit) (used : UsedLimit) (value : ℤ) : Prop :=
  (l.dailyLimit - used.dailyLimit < value ∨ l.monthlyLimit - used.monthlyLimit < value ∨
      l.yearlyLimit - used.yearlyLimit < value) ∨
    (l.userDailyLimit.exceededAfter used.dailyLimit value ∨
      l.userMonthlyLimit.exceededAfter used.monthlyLimit value ∨
      l.userYearlyLimit.exceededAfter used.yearlyLimit value)

instance (l : UserLimit) (used : UsedLimit) (value : ℤ) : Decidable (exceedsPeriods l used value) :=
  inferInstanceAs (Decidable ((_ ∨ _ ∨ _) ∨ (_ ∨ _ ∨ _)))

/-- The checks of a value against what is left of the limits, in their order. -/
def usedLimitChecks (l : UserLimit) (used : UsedLimit) (value : ℤ) : List (Bool × Exception) :=
  let night := decide (l.isInNighttimeInterval env.serverOffset now now)
  [ (decide (exceedsPeriods l used value), .notEnoughAvailableLimit used value),
    (night && decide (l.nightlyLimit.exceededAfter used.nightlyLimit value),
      .notEnoughAvailableLimit used value),
    (night && decide (l.userNightlyLimit.exceededAfter used.nightlyLimit value),
      .notEnoughAvailableLimit used value) ]

/-- Throw the exception of the first check that fails. -/
def refuse (checks : List (Bool × Exception)) : App Unit :=
  match checks.find? (·.1) with
  | some (_, e) => throw e
  | none => return ()

/-- A tracker for a limit that has none.  `drawn` UUIDs were drawn for trackers in this execution
that are not stored yet. -/
def newTracker (drawn : ℕ) (l : UserLimit) (limitType : LimitType) (db : Db) :
    UserLimitTracker where
  id := db.uuidV4 drawn
  userLimit := l.id
  periodStart := limitType.periodStart
  usedDailyLimit := 0
  usedMonthlyLimit := 0
  usedAnnualLimit := 0
  usedNightlyLimit := 0
  updatedAt := now

/-- The limit of a user that has none, with the values of the global limit. -/
def newUserLimit (user : UserId) (globalLimit : GlobalLimit) (limitType : LimitType) (db : Db) :
    UserLimit :=
  { globalLimit.toLimitValues with
    id := db.uuidV4 0
    user
    limitType := limitType.id
    creditBalance := 0 }

/-- `getLimit`: the limit, its tracker, and whether the used limits are to be looked up. -/
def getLimit (drawn : ℕ) (user : UserId) (limitType : LimitType) : App (TrackedLimit × Bool) := do
  match ← readDb (·.userLimitByUserAndLimitType user limitType.id) with
  | some l =>
      match ← readDb (·.userLimitTrackerByUserLimit l) with
      | some t => return (⟨l, restartUserLimitTracker env now l t⟩, false)
      | none =>
          let t ← readDb (newTracker now drawn l limitType)
          return (⟨l, t⟩, true)
  | none =>
      let globalLimit ← orThrow (env.globalLimitByLimitType limitType)
        (.data ["Missing global limit for " ++ limitType.tag])
      let l ← readDb (newUserLimit user globalLimit limitType)
      let userLimits ← readDb (·.userLimits)
      let userLimits ← orThrow (userLimits.insert? l) (.uniqueConstraint "user_limits")
      writeDb fun db => { db with userLimits }
      emit (.createdUserLimit l)
      let t ← readDb (newTracker now drawn l limitType)
      return (⟨l, t⟩, true)

/-- The limit type that limits what a wallet account sends or receives with a transaction type. -/
def limitTypeOf (a : WalletAccount) (transactionType : TransactionType) : Option LimitType :=
  (transactionType.limitType.bind env.limitTypeById).filter fun limitType =>
    decide (limitType.currency = some a.currency.id)

/-- `checkUserLimits`. -/
def checkUserLimits (drawn : ℕ) (user : UserId) (a : WalletAccount)
    (transactionType : TransactionType) (value : ℤ) : App (Option TrackedLimit) := do
  match limitTypeOf env a transactionType with
  | none => return none
  | some limitType =>
      let (c, checkUsedLimitFlag) ← getLimit env now drawn user limitType
      refuse (limitChecks env now c.userLimit value)
      let used ← readDb fun db =>
        if checkUsedLimitFlag then getUsedLimit env now a c.userLimit limitType db
        else c.tracker.usedLimit
      refuse (usedLimitChecks env now c.userLimit used value)
      return some c

/-! ### What the tracker operations do -/

section
variable {env now} {l : UserLimit} {t : UserLimitTracker} {u : MomentUnit} {value : ℤ}

theorem restart_keeps : (restartUserLimitTracker env now l t).id = t.id ∧
    (restartUserLimitTracker env now l t).userLimit = t.userLimit ∧
    (restartUserLimitTracker env now l t).periodStart = t.periodStart := by
  simp only [restartUserLimitTracker, restartNightlyUserLimitTracker,
    restartUserLimitTrackerByDatePeriodStart]
  split_ifs <;> exact ⟨rfl, rfl, rfl⟩

@[simp] theorem restart_id : (restartUserLimitTracker env now l t).id = t.id := restart_keeps.1

@[simp] theorem restart_userLimit :
    (restartUserLimitTracker env now l t).userLimit = t.userLimit := restart_keeps.2.1

@[simp] theorem restart_periodStart :
    (restartUserLimitTracker env now l t).periodStart = t.periodStart := restart_keeps.2.2

theorem used_restartByDate :
    (restartUserLimitTrackerByDatePeriodStart now t).used u
      = (t.counter u).restart u.period now := by
  cases u <;> rfl

/-- Nothing used is nothing to restart. -/
theorem restart_of_not_pos (h : ¬ 0 < t.used u) : (t.counter u).restart u.period now = t.used u :=
  if_neg fun q => h q.1

/-- Only the nightly counter is emptied at the end of a night. -/
theorem used_restartNightly :
    (if 0 < t.usedNightlyLimit then restartNightlyUserLimitTracker env now l t else t).used u
      = t.used u := by
  simp only [restartNightlyUserLimitTracker]
  split_ifs
  · rfl
  · cases u <;> rfl
  · rfl

/-- The period counters of a DATE tracker are brought up to date as usage counters are. -/
theorem used_restart (h : t.periodStart = .DATE) :
    (restartUserLimitTracker env now l t).used u = (t.counter u).restart u.period now := by
  rw [restartUserLimitTracker, used_restartNightly]
  split
  · exact used_restartByDate
  · rename_i hn
    refine (restart_of_not_pos fun hp => hn ⟨h, ?_⟩).symm
    cases u
    · exact Or.inl hp
    · exact Or.inr (Or.inl hp)
    · exact Or.inr (Or.inr hp)

/-- The period counters of an INTERVAL tracker are taken as they are. -/
theorem used_restart_interval (h : t.periodStart ≠ .DATE) :
    (restartUserLimitTracker env now l t).used u = t.used u := by
  rw [restartUserLimitTracker, used_restartNightly, if_neg fun q => h q.1]

/-- The nightly counter is emptied when an operation runs in the daytime. -/
theorem usedNightlyLimit_restart (h : 0 ≤ t.usedNightlyLimit) :
    (restartUserLimitTracker env now l t).usedNightlyLimit
      = if l.isInNighttimeInterval env.serverOffset now now then t.usedNightlyLimit else 0 := by
  have dates : (restartUserLimitTrackerByDatePeriodStart now t).usedNightlyLimit
      = t.usedNightlyLimit := rfl
  simp only [restartUserLimitTracker, restartNightlyUserLimitTracker]
  split_ifs <;> first | rfl | exact dates | (rw [dates] at *; omega)

@[simp] theorem used_charge : (chargeTracker env now l t value).used u = t.used u + value := by
  cases u <;> rfl

theorem limitIncludedTags_ne_nil (p : LimitTypePeriodStart) : limitIncludedTags p ≠ [] := by
  cases p <;> simp [limitIncludedTags]

end

/-! ### What the checks say -/

section
variable {env now} {l : UserLimit} {used : UsedLimit} {value : ℤ} {e : Exception} {w w' : World}
  {checks : List (Bool × Exception)}

theorem refuse_eq : refuse checks = throwFirst checks := by
  rw [refuse, throwFirst]
  cases checks.find? (·.1) <;> rfl

theorem refuse_ok {t : Unit} :
    refuse checks w = .ok t w' ↔ (∀ c ∈ checks, c.1 = false) ∧ w' = w := by
  rw [refuse_eq, throwFirst_ok]

theorem refuse_error (h : refuse checks w = .error e w') : ∃ c ∈ checks, c.1 = true ∧ c.2 = e :=
  throwFirst_error (refuse_eq ▸ h)

theorem le_periodLimit (h : ∀ c ∈ limitChecks env now l value, c.1 = false) (u : MomentUnit) :
    value ≤ l.periodLimit u := by
  have := h _ List.mem_cons_self
  rw [decide_eq_false_iff_not, not_or, not_or, not_lt, not_lt, not_lt] at this
  obtain ⟨hd, hm, hy⟩ := this
  cases u
  · exact hd
  · exact hm
  · exact hy

theorem not_exceedsPeriods (h : ∀ c ∈ usedLimitChecks env now l used value, c.1 = false) :
    ¬ exceedsPeriods l used value :=
  of_decide_eq_false (h _ List.mem_cons_self)

/-- What fits into what is left of the limits, fits with what is used into the limits. -/
theorem add_used_le_periodLimit (h : ¬ exceedsPeriods l used value) (u : MomentUnit) :
    value + used.period u ≤ l.periodLimit u := by
  rw [exceedsPeriods, not_or, not_or, not_or, not_lt, not_lt, not_lt] at h
  obtain ⟨⟨hd, hm, hy⟩, -⟩ := h
  cases u
  · exact le_sub_iff_add_le.mp hd
  · exact le_sub_iff_add_le.mp hm
  · exact le_sub_iff_add_le.mp hy

/-- The checks against the limits never say that too little is left of them. -/
theorem limitChecks_ne {c : Bool × Exception} (h : c ∈ limitChecks env now l value) (v : ℤ) :
    c.2 ≠ .notEnoughAvailableLimit used v := by
  simp only [limitChecks, List.mem_cons, List.not_mem_nil, or_false] at h
  rcases h with rfl | rfl | rfl | rfl | rfl | rfl | rfl | rfl | rfl | rfl | rfl | rfl <;> simp

theorem usedLimitChecks_eq {c : Bool × Exception} (h : c ∈ usedLimitChecks env now l used value) :
    c.2 = .notEnoughAvailableLimit used value := by
  simp only [usedLimitChecks, List.mem_cons, List.not_mem_nil, or_false] at h
  rcases h with rfl | rfl | rfl <;> rfl

end

/-! ### What a limit check does -/

/-- How `getLimit` came to a limit and its tracker, and the database it left. -/
inductive LimitFound (drawn : ℕ) (user : UserId) (limitType : LimitType) (db : Db) :
    Db → TrackedLimit → Bool → Prop
  | tracked (l : UserLimit) (t : UserLimitTracker)
      (hl : db.userLimitByUserAndLimitType user limitType.id = some l)
      (ht : db.userLimitTrackerByUserLimit l = some t) :
      LimitFound drawn user limitType db db ⟨l, restartUserLimitTracker env now l t⟩ false
  | untracked (l : UserLimit)
      (hl : db.userLimitByUserAndLimitType user limitType.id = some l)
      (ht : db.userLimitTrackerByUserLimit l = none) :
      LimitFound drawn user limitType db db ⟨l, newTracker now drawn l limitType db⟩ true
  | created (g : GlobalLimit) (userLimits : Table UserLimit) (db' : Db)
      (hl : db.userLimitByUserAndLimitType user limitType.id = none)
      (hg : env.globalLimitByLimitType limitType = some g)
      (hins : db.userLimits.insert? (newUserLimit user g limitType db) = some userLimits)
      (hdb : db' = { db with
        userLimits
        events := db.events ++ [.createdUserLimit (newUserLimit user g limitType db)] }) :
      LimitFound drawn user limitType db db'
        ⟨newUserLimit user g limitType db,
          newTracker now drawn (newUserLimit user g limitType db) limitType db'⟩ true

/-- What is used of the limits, as the check looks it up. -/
def usedOf (a : WalletAccount) (limitType : LimitType) (db : Db) (c : TrackedLimit)
    (checkUsedLimitFlag : Bool) : UsedLimit :=
  if checkUsedLimitFlag then getUsedLimit env now a c.userLimit limitType db
  else c.tracker.usedLimit

section
variable {env now} {drawn : ℕ} {user : UserId} {limitType : LimitType} {a : WalletAccount}
  {transactionType : TransactionType} {value v : ℤ} {used : UsedLimit} {w w' : World}

theorem getLimit_ok {r : TrackedLimit × Bool}
    (h : getLimit env now drawn user limitType w = .ok r w') :
    ∃ db', w' = { w with db := db' } ∧
      LimitFound env now drawn user limitType w.db db' r.1 r.2 := by
  simp only [getLimit, bind_ok, readDb_ok] at h
  obtain ⟨l?, w₁, ⟨hl, rfl⟩, h⟩ := h
  cases l? with
  | some l =>
      simp only [bind_ok, readDb_ok] at h
      obtain ⟨t?, w₂, ⟨ht, rfl⟩, h⟩ := h
      cases t? with
      | some t =>
          obtain ⟨rfl, rfl⟩ := pure_ok.mp h
          exact ⟨w'.db, rfl, .tracked l t hl.symm ht.symm⟩
      | none =>
          simp only [bind_ok, readDb_ok, pure_ok] at h
          obtain ⟨t, w₃, ⟨rfl, rfl⟩, rfl, rfl⟩ := h
          exact ⟨w'.db, rfl, .untracked l hl.symm ht.symm⟩
  | none =>
      simp only [bind_ok, readDb_ok, orThrow_ok, writeDb_ok, emit_ok, pure_ok] at h
      obtain ⟨g, _, ⟨hg, rfl⟩, l, _, ⟨rfl, rfl⟩, T₀, _, ⟨rfl, rfl⟩, T, _, ⟨hT, rfl⟩,
        _, _, rfl, _, _, rfl, t, _, ⟨rfl, rfl⟩, rfl, rfl⟩ := h
      exact ⟨_, rfl, .created g T _ hl.symm hg hT rfl⟩

/-- Everything a limit check that passed did and found. -/
theorem checkUserLimits_ok {r : Option TrackedLimit}
    (h : checkUserLimits env now drawn user a transactionType value w = .ok r w') :
    (r = none ∧ limitTypeOf env a transactionType = none ∧ w' = w) ∨
    ∃ limitType c flag db', r = some c ∧ limitTypeOf env a transactionType = some limitType ∧
      LimitFound env now drawn user limitType w.db db' c flag ∧ w' = { w with db := db' } ∧
      (∀ x ∈ limitChecks env now c.userLimit value, x.1 = false) ∧
      ∀ x ∈ usedLimitChecks env now c.userLimit (usedOf env now a limitType db' c flag) value,
        x.1 = false := by
  rw [checkUserLimits] at h
  cases hlt : limitTypeOf env a transactionType with
  | none =>
      rw [hlt] at h
      obtain ⟨rfl, rfl⟩ := pure_ok.mp h
      exact Or.inl ⟨rfl, rfl, rfl⟩
  | some limitType =>
      rw [hlt] at h
      simp only [bind_ok, readDb_ok, refuse_ok, pure_ok] at h
      obtain ⟨⟨c, flag⟩, w₁, hget, _, _, ⟨hlim, rfl⟩, used, _, ⟨rfl, rfl⟩, _, _, ⟨hused, rfl⟩,
        rfl, rfl⟩ := h
      obtain ⟨db', rfl, hfound⟩ := getLimit_ok hget
      exact Or.inr ⟨limitType, c, flag, db', rfl, rfl, hfound, rfl, hlim, hused⟩

/-- `getLimit` never says that too little is left of a limit. -/
theorem getLimit_ne (h : getLimit env now drawn user limitType w
    = .error (.notEnoughAvailableLimit used v) w') : False := by
  simp only [getLimit, bind_error, readDb_error, false_or, readDb_ok] at h
  obtain ⟨l?, w₁, ⟨-, rfl⟩, h⟩ := h
  cases l? with
  | some l =>
      simp only [bind_error, readDb_error, false_or, readDb_ok] at h
      obtain ⟨t?, w₂, ⟨-, rfl⟩, h⟩ := h
      cases t? with
      | some t => exact pure_error h
      | none =>
          simp only [bind_error, readDb_error, pure_error, and_false, exists_false, or_false] at h
  | none =>
      simp only [bind_error, readDb_error, orThrow_error, writeDb_error, emit_error, pure_error,
        reduceCtorEq, false_and, and_false, exists_false, or_false] at h

/-- When too little is left of a limit, the exception carries what the check found. -/
theorem checkUserLimits_error
    (h : checkUserLimits env now drawn user a transactionType value w
      = .error (.notEnoughAvailableLimit used v) w') :
    v = value ∧ ∃ limitType c flag db', limitTypeOf env a transactionType = some limitType ∧
      LimitFound env now drawn user limitType w.db db' c flag ∧
      used = usedOf env now a limitType db' c flag := by
  rw [checkUserLimits] at h
  cases hlt : limitTypeOf env a transactionType with
  | none =>
      rw [hlt] at h
      exact absurd h pure_error
  | some limitType =>
      rw [hlt] at h
      rcases bind_error.mp h with h | ⟨⟨c, flag⟩, w₁, hget, h⟩
      · exact (getLimit_ne h).elim
      · obtain ⟨db', rfl, hfound⟩ := getLimit_ok hget
        rcases bind_error.mp h with h | ⟨_, w₂, hlim, h⟩
        · obtain ⟨x, hx, -, he⟩ := refuse_error h
          exact absurd he (limitChecks_ne hx v)
        · obtain ⟨-, rfl⟩ := refuse_ok.mp hlim
          rcases bind_error.mp h with h | ⟨used', w₃, hread, h⟩
          · exact absurd h readDb_error
          · obtain ⟨rfl, rfl⟩ := readDb_ok.mp hread
            rcases bind_error.mp h with h | ⟨_, _, -, h⟩
            · obtain ⟨x, hx, -, he⟩ := refuse_error h
              have e := he.symm.trans (usedLimitChecks_eq hx)
              simp only [Exception.notEnoughAvailableLimit.injEq] at e
              exact ⟨e.2, limitType, c, flag, db', rfl, hfound, e.1⟩
            · exact absurd h pure_error

end

end CreateOperationUseCase

end ZroServices
