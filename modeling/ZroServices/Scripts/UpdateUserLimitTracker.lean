import Mathlib.Data.List.Sort
import ZroServices.Operations.UserLimits

/-!
# Scripts — update-user-limit-tracker

The script fills the trackers of the user limits from the operations that were there before there
were trackers.  For every transaction type with a limit type it goes through the operations since
the start of the month and then through those since the start of the year that have no analysis
tags and no tracker, page by page, and adds each to the tracker of its user.

`updateUserLimitTrackerByTransactionTypeAndDateRange` asks for the first page every time: what was
handled has left the selection.  It takes a number of rounds it may make, and gives `none` when
they are not enough.
-/

namespace ZroServices.Scripts.UpdateUserLimitTracker

open Foundation
open CreateOperationUseCase (periodStartOf)

/-! ### Tables -/

/-- A row of the operations.  The column of the analysis tags is null unless `analysed`. -/
structure OperationRow extends Operation where
  analysed : Bool
  deriving DecidableEq

instance : Keyed OperationRow Uuid := ⟨fun o => o.id⟩

structure Tables where
  operations : Table OperationRow
  userLimits : Table UserLimit
  userLimitTrackers : Table UserLimitTracker
  deriving DecidableEq

namespace Tables

/-- The UUIDs in use. -/
def uuids (t : Tables) : List Uuid :=
  t.operations.rows.map (·.id) ++ t.operations.rows.filterMap (·.userLimitTracker)
    ++ t.userLimits.rows.map (·.id)
    ++ t.userLimitTrackers.rows.map (·.id) ++ t.userLimitTrackers.rows.map (·.userLimit)

/-- `uuidV4()`. -/
def uuidV4 (t : Tables) : Uuid := fresh t.uuids

def userLimitByUserAndLimitType (t : Tables) (user : UserId) (limitType : LimitType) :
    Option UserLimit :=
  t.userLimits.rows.find? fun l => l.user = user ∧ l.limitType = limitType.id

/-- `getUserLimitTrackerByUserLimit`. -/
def userLimitTrackerByUserLimit (t : Tables) (userLimit : Uuid) : Option UserLimitTracker :=
  t.userLimitTrackers.rows.find? (·.userLimit = userLimit)

end Tables

/-- The reference data, and what `moment` makes at an instant of a time that is not a valid one. -/
structure Setting where
  env : Env
  lenient : ℤ → String → Option ℤ

variable (setting : Setting)

/-! ### Times -/

/-- `getMoment(time, 'HH:mm')`; a time that is missing is the current instant. -/
def momentOf (now : ℤ) (time : Option String) : Option ℤ :=
  match time with
  | none => some now
  | some s =>
      if s = "" then some now
      else
        match hourTime s with
        | some minute => some (momentOfDay setting.env.serverOffset now minute)
        | none => setting.lenient now s

/-- `!!time && validateHourTimeFormat(time)`. -/
def isValidTime (time : Option String) : Bool := (time.bind hourTime).isSome

/-- `isInNighttimeInterval`.  No comparison holds of an invalid moment. -/
def isInNighttimeInterval (now : ℤ) (nighttimeStart nighttimeEnd : Option String) : Bool :=
  -- The guard is the other way round: two valid times are answered here.
  if isValidTime nighttimeStart && isValidTime nighttimeEnd then false
  else
    match momentOf setting now nighttimeStart, momentOf setting now nighttimeEnd with
    | some start, some stop =>
        let base := now
        let stop := if stop < start then stop + msPerDay else stop
        let back := if base < start then msPerDay else 0
        decide (start - back ≤ base ∧ base < stop - back)
    | _, _ => false

/-! ### User limits -/

/-- The user whose limit the operation counts for. -/
def checkedUser (check : LimitTypeCheck) (o : Operation) : Option UserId :=
  match check with
  | .BOTH => (o.owner.or o.beneficiary).map (·.user)
  | .OWNER => o.owner.map (·.user)
  | .BENEFICIARY => o.beneficiary.map (·.user)

/-- `createUserLimitByUserAndLimitType`. -/
def createUserLimitByUserAndLimitType (user : UserId) (limitType : LimitType) (t : Tables) :
    Option UserLimit × Tables :=
  match setting.env.globalLimitByLimitType limitType with
  | none => (none, t)
  | some globalLimit =>
      let userLimit : UserLimit :=
        { globalLimit.toLimitValues with
          id := t.uuidV4
          user
          limitType := limitType.id
          creditBalance := 0 }
      (some userLimit, { t with userLimits := t.userLimits.upsert userLimit })

/-- `getTUserLimit`. -/
def getTUserLimit (limitType : LimitType) (o : Operation) (t : Tables) :
    Option UserLimit × Tables :=
  match checkedUser limitType.check o with
  | none => (none, t)
  | some user =>
      match t.userLimitByUserAndLimitType user limitType with
      | some userLimit => (some userLimit, t)
      | none => createUserLimitByUserAndLimitType setting user limitType t

/-! ### Trackers -/

/-- The tracker of a user limit that has none. -/
def newUserLimitTracker (now : ℤ) (limitType : LimitType) (userLimit : UserLimit) (t : Tables) :
    UserLimitTracker where
  id := t.uuidV4
  userLimit := userLimit.id
  periodStart := limitType.periodStart
  usedDailyLimit := 0
  usedMonthlyLimit := 0
  usedAnnualLimit := 0
  usedNightlyLimit := 0
  updatedAt := now

/-- The operation is of the current day, month or year of the limit type. -/
def countsFor (now : ℤ) (limitType : LimitType) (o : Operation) (u : MomentUnit) : Bool :=
  decide (periodStartOf now limitType u ≤ o.createdAt)

/-- The limit has a night and it is taken for night now. -/
def countsForNight (now : ℤ) (l : LimitValues ℕ) : Bool :=
  l.nightlyLimit.any (· ≠ 0) && l.nighttimeStart.any (· ≠ "") && l.nighttimeEnd.any (· ≠ "")
    && isInNighttimeInterval setting now l.nighttimeStart l.nighttimeEnd

/-- `updateUserLimitTracker`: some counter counts the operation. -/
def countsForAny (now : ℤ) (limitType : LimitType) (l : LimitValues ℕ) (o : Operation) : Bool :=
  countsFor now limitType o .day || countsFor now limitType o .month
    || countsFor now limitType o .year || countsForNight setting now l

/-- The tracker with the operation added to the counters that count it. -/
def addOperation (now : ℤ) (limitType : LimitType) (l : LimitValues ℕ) (o : Operation)
    (tracker : UserLimitTracker) : UserLimitTracker :=
  { tracker with
    usedDailyLimit := tracker.usedDailyLimit + if countsFor now limitType o .day then o.value else 0
    usedMonthlyLimit :=
      tracker.usedMonthlyLimit + if countsFor now limitType o .month then o.value else 0
    usedAnnualLimit :=
      tracker.usedAnnualLimit + if countsFor now limitType o .year then o.value else 0
    usedNightlyLimit :=
      tracker.usedNightlyLimit + if countsForNight setting now l then o.value else 0 }

/-- The analysis tags of the operation. -/
def includedTags (now : ℤ) (limitType : LimitType) (l : LimitValues ℕ) (o : Operation) :
    List OperationAnalysisTag :=
  match limitType.periodStart with
  | .DATE => if countsForAny setting now limitType l o then [.DATE_LIMIT_INCLUDED] else []
  | .INTERVAL =>
      (if countsFor now limitType o .day then [.DAILY_INTERVAL_LIMIT_INCLUDED] else [])
        ++ (if countsFor now limitType o .month then [.MONTHLY_INTERVAL_LIMIT_INCLUDED] else [])
        ++ (if countsFor now limitType o .year then [.ANNUAL_INTERVAL_LIMIT_INCLUDED] else [])

/-- `updateUserLimitTracker`: the tracker is stored when a counter counts the operation, and the
operation is given the id of the tracker in any case. -/
def updateUserLimitTracker (now : ℤ) (limitType : LimitType) (l : UserLimit)
    (tracker : UserLimitTracker) (o : OperationRow) (t : Tables) : Tables :=
  let tracker := addOperation setting now limitType l.toLimitValues o.toOperation tracker
  let analysed : OperationRow :=
    { o with
      analysisTags := includedTags setting now limitType l.toLimitValues o.toOperation
      userLimitTracker := some tracker.id
      analysed := true }
  { t with
    userLimitTrackers :=
      if countsForAny setting now limitType l.toLimitValues o.toOperation then
        t.userLimitTrackers.upsert { tracker with updatedAt := now }
      else t.userLimitTrackers
    operations := t.operations.set analysed }

/-- The body of the loop over the operations of a page. -/
def handleOperation (now : ℤ) (limitType : LimitType) (t : Tables) (o : OperationRow) : Tables :=
  match getTUserLimit setting limitType o.toOperation t with
  | (none, t) => t
  | (some userLimit, t) =>
      let tracker := (t.userLimitTrackerByUserLimit userLimit.id).getD
        (newUserLimitTracker now limitType userLimit t)
      updateUserLimitTracker setting now limitType userLimit tracker o t

/-! ### The loop over the pages -/

/-- `PAGE_SIZE`. -/
def pageSize : ℕ := 100

/-- The dates of a filter. -/
structure TGetOperationsFilter where
  createdAtStart : ℤ
  createdAtEnd : ℤ

/-- The conditions of `getAllOperationsByTransactionTypeAndCurrencyAndPagination`. -/
def selects (transactionType : TransactionType) (currency : CurrencyId)
    (filter : TGetOperationsFilter) (o : OperationRow) : Bool :=
  decide (o.state ∈ [OperationState.PENDING, .ACCEPTED] ∧
    o.transactionType.id = transactionType.id ∧ o.currency = currency ∧
    o.analysed = false ∧ o.userLimitTracker = none ∧
    startOf .day filter.createdAtStart ≤ o.createdAt ∧
    o.createdAt ≤ startOf .day filter.createdAtEnd + msPerDay - 1)

/-- The rows in the order of their creation. -/
def byCreatedAt (rows : List OperationRow) : List OperationRow :=
  rows.mergeSort fun a b => decide (a.createdAt ≤ b.createdAt)

/-- All rows of the selection; those of one instant are in the order of the table. -/
def selection (transactionType : TransactionType) (currency : CurrencyId)
    (filter : TGetOperationsFilter) (t : Tables) : List OperationRow :=
  (byCreatedAt t.operations.rows).filter (selects transactionType currency filter)

/-- `Math.ceil(total / pageSize)`. -/
def pageTotal (total : ℕ) : ℕ := (total + pageSize - 1) / pageSize

/-- The `while` loop; `clock o` is the instant at which operation `o` is handled. -/
def whileGoOn (clock : Uuid → ℤ) (transactionType : TransactionType) (limitType : LimitType)
    (currency : CurrencyId) (filter : TGetOperationsFilter) : ℕ → Tables → Option Tables
  | 0, _ => none
  | rounds + 1, t =>
      let found := selection transactionType currency filter t
      let page := found.take pageSize
      if page = [] then some t
      else
        let t := page.foldl (fun t o => handleOperation setting (clock o.id) limitType t o) t
        if 1 < pageTotal found.length then
          whileGoOn clock transactionType limitType currency filter rounds t
        else some t

/-- `updateUserLimitTrackerByTransactionTypeAndDateRange`.  The id of a currency is read off the
limit type, which throws when it has none. -/
def updateUserLimitTrackerByTransactionTypeAndDateRange (clock : Uuid → ℤ)
    (transactionType : TransactionType) (limitType : LimitType) (filter : TGetOperationsFilter)
    (rounds : ℕ) (t : Tables) : Option (Except Exception Tables) :=
  match limitType.currency with
  | none => some (.error (.typeError "currency"))
  | some currency =>
      (whileGoOn setting clock transactionType limitType currency filter rounds t).map .ok

/-! ### The script -/

/-- `getAllTransactionTypesWithLimitType`; a limit type that is not found is skipped. -/
def getAllTransactionTypesWithLimitType : List (TransactionType × LimitType) :=
  setting.env.transactionTypes.filterMap fun transactionType =>
    (transactionType.limitType.bind setting.env.limitTypeById).map (transactionType, ·)

/-- `execute`, with the clock standing still: the month of every transaction type, then the
year of every one. -/
def execute (now : ℤ) (rounds : ℕ) (t : Tables) : Option (Except Exception Tables) :=
  let transactionTypes := getAllTransactionTypesWithLimitType setting
  let passes := [MomentUnit.month, .year].flatMap fun u => transactionTypes.map fun x => (x, u)
  passes.foldl (fun result pass =>
    match result with
    | some (.ok t) =>
        updateUserLimitTrackerByTransactionTypeAndDateRange setting (fun _ => now) pass.1.1
          pass.1.2 ⟨periodStartOf now pass.1.2 pass.2, now⟩ rounds t
    | result => result) (some (.ok t))

end ZroServices.Scripts.UpdateUserLimitTracker
