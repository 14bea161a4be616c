import ZroServices.Common.Moment
import ZroServices.Foundation.Run
import ZroServices.Foundation.Table

/-!
# Users — referral rewards

An accepted conversion earns a reward for the user who referred the one that converted.  The job
`SyncReferralRewardConversionCashbackUseCase` adds up the rewards of a user that are not paid, and has
the OTC service create a cashback of the sum.  It puts a group on the rewards first, whose id is the
cashback's: where a cashback of that id exists, the service returns it and makes no other.

The job is in no transaction.  Any of its calls may fail, and a call that fails may have had its
effect (`Answer.lost`); the calls of one `Promise.all` are all made, whether or not one of them fails.

The amount of a reward is computed with floating-point numbers, and `Config.amount` stands for that.
-/

namespace ZroServices.Users.ReferralRewards

open Foundation

abbrev Uuid := ℕ

inductive PersonType where
  | NATURAL_PERSON
  | LEGAL_PERSON
  deriving DecidableEq, Repr

structure User where
  id : ℕ
  uuid : Uuid
  type : PersonType
  referredBy : Option ℕ
  deriving DecidableEq, Repr

structure Currency where
  id : ℕ
  decimal : ℕ
  deriving DecidableEq, Repr

structure Operation where
  id : Uuid
  tag : String
  currency : ℕ
  owner : Option ℕ
  beneficiary : Option ℕ
  value : ℤ
  rawValue : ℤ
  deriving DecidableEq, Repr

/-- A reward.  Its payment operation is named by the cashback that it belongs to. -/
structure ReferralReward where
  id : ℕ
  awardedTo : Option Uuid
  awardedBy : Uuid
  amount : ℤ
  operation : Uuid
  paymentOperation : Option Uuid
  group : Option Uuid
  createdAt : ℤ
  deriving DecidableEq, Repr

instance : Keyed ReferralReward ℕ := ⟨ReferralReward.id⟩

/-- A cashback of the OTC service. -/
structure Cashback where
  id : Uuid
  amount : ℤ
  /-- The rewards that the amount was added up from.  Nothing reads them. -/
  items : List ℕ
  deriving DecidableEq, Repr

instance : Keyed Cashback Uuid := ⟨Cashback.id⟩

structure Config where
  transactionTagValid : String
  affiliateMonthMinimum : ℤ
  cashbackAmountBps : ℤ
  referralRewardIntervalStartDays : ℤ
  referralRewardIntervalEndDays : ℤ
  affiliateSizeMinimum : ℕ
  /-- Basis points of a value, at the decimals of the currency. -/
  amount : ℤ → ℤ → ℕ → ℤ

structure World where
  rewards : Table ReferralReward
  cashbacks : Table Cashback
  now : ℤ

/-! ### What a conversion earns -/

inductive Exception where
  | missingData (fields : List String)
  | raised (message : String)
  deriving DecidableEq, Repr

/-- What the repositories answer to the handler of an accepted operation. -/
structure AcceptedCalls where
  getById : ℕ → Except Exception (Option User)
  /-- When the finished onboarding of a user was last updated. -/
  onboarding : ℕ → Except Exception (Option ℤ)

/-- `HandleCreateReferralRewardConversionCashbackEventUseCase.execute`, up to the creation: the users
awarded, the amount and the operation. -/
def conversionReward (config : Config) (calls : AcceptedCalls) (now : ℤ)
    (ownerOperation beneficiaryOperation : Option Operation) (conversionCurrency : Currency) :
    Except Exception (Option (Uuid × Uuid × ℤ × Uuid)) := do
  if ownerOperation = none ∧ beneficiaryOperation = none then
    throw (.missingData ["At least one operation"])
  if ∃ operation ∈ ownerOperation, operation.tag ≠ config.transactionTagValid then
    return none
  if ∃ operation ∈ beneficiaryOperation, operation.tag ≠ config.transactionTagValid then
    return none
  let inCurrency (operation : Operation) := operation.currency = conversionCurrency.id
  let some operation :=
      (ownerOperation.filter inCurrency).or (beneficiaryOperation.filter inCurrency)
    | return none
  let some affiliate := operation.owner.or operation.beneficiary | return none
  let some affiliateUser ← calls.getById affiliate | return none
  if affiliateUser.type ≠ .NATURAL_PERSON then
    return none
  let some referredBy := affiliateUser.referredBy | return none
  if affiliateUser.id = referredBy then
    return none
  let some referralUser ← calls.getById referredBy | return none
  if referralUser.type ≠ .NATURAL_PERSON then
    return none
  let some updatedAt ← calls.onboarding affiliateUser.id | return none
  if updatedAt < subtractMonths config.affiliateMonthMinimum now then
    return none
  let cashbackAmount := config.amount config.cashbackAmountBps
    (min operation.value operation.rawValue) conversionCurrency.decimal
  return some (referralUser.uuid, affiliateUser.uuid, cashbackAmount, operation.id)

namespace World

variable (w : World)

/-- `ReferralRewardRepository.create`, unless the operation has a reward: it is unique. -/
def create (awardedTo awardedBy : Uuid) (amount : ℤ) (operation : Uuid) : World :=
  if ∃ r ∈ w.rewards.rows, r.operation = operation then w
  else { w with
    rewards := w.rewards.upsert
      { id := fresh (w.rewards.rows.map ReferralReward.id)
        awardedTo := some awardedTo
        awardedBy := awardedBy
        amount := amount
        operation := operation
        paymentOperation := none
        group := none
        createdAt := w.now } }

/-- The handler of an accepted operation. -/
def accepted (config : Config) (calls : AcceptedCalls)
    (ownerOperation beneficiaryOperation : Option Operation) (conversionCurrency : Currency) :
    World :=
  match conversionReward config calls w.now ownerOperation beneficiaryOperation conversionCurrency with
  | .ok (some (awardedTo, awardedBy, amount, operation)) =>
      w.create awardedTo awardedBy amount operation
  | _ => w

end World

/-! ### The job -/

/-- What becomes of a call that writes. -/
inductive Answer where
  | done
  /-- It was written, but the call raised. -/
  | lost
  | failed
  deriving DecidableEq, Repr

def Answer.Writes (a : Answer) : Prop := a ≠ .failed

def Answer.Raises (a : Answer) : Prop := a ≠ .done

instance : DecidablePred Answer.Writes := fun _ => inferInstanceAs (Decidable (_ ≠ _))

instance : DecidablePred Answer.Raises := fun _ => inferInstanceAs (Decidable (_ ≠ _))

inductive WalletAnswer where
  | raised
  | notFound
  | notActive
  | active
  deriving DecidableEq, Repr

inductive CashbackAnswer where
  | done
  /-- A cashback that was to be created was, but the call raised. -/
  | lost
  | failed
  /-- `QuotationAmountUnderMinAmountException`. -/
  | underMinAmount
  deriving DecidableEq, Repr

/-- What the calls of one execution of the job answer, by the user, the group or the reward. -/
structure Calls where
  getRewards : Except Exception Unit
  countAffiliates : Uuid → Except Exception ℕ
  updateGroup : ℕ → Answer
  getWallet : Uuid → WalletAnswer
  createCashback : Uuid → CashbackAnswer
  updatePaymentOperation : ℕ → Answer
  resetGroup : ℕ → Answer

/-- The key of `referralRewardsGroupByUser`.  No id of a group is that of a user. -/
inductive Key where
  | group (id : Uuid)
  | user (uuid : Uuid)
  deriving DecidableEq, Repr

structure Group where
  group : Uuid
  awardedTo : Uuid
  amount : ℤ
  items : List ReferralReward
  deriving DecidableEq, Repr

/-- `getMoment().startOf('day').subtract(days, 'day')`. -/
def startDate (config : Config) (now : ℤ) : ℤ :=
  startOf .day now - config.referralRewardIntervalStartDays * msPerDay

/-- `getMoment().endOf('day').subtract(days, 'day')`. -/
def endDate (config : Config) (now : ℤ) : ℤ :=
  startOf .day now + msPerDay - 1 - config.referralRewardIntervalEndDays * msPerDay

/-- `item.group ?? item.awardedTo.uuid`. -/
def ReferralReward.key (item : ReferralReward) : Option Key :=
  item.awardedTo.map fun uuid => item.group.elim (.user uuid) .group

/-- The id of a group: a new one for every user that is a key. -/
def Key.groupId (newGroup : Uuid → Uuid) : Key → Uuid
  | .group id => id
  | .user uuid => newGroup uuid

/-- One round of the `reduce`. -/
def addItem (newGroup : Uuid → Uuid) (acc : List (Key × Group)) (item : ReferralReward) :
    List (Key × Group) :=
  match item.awardedTo with
  | none => acc
  | some uuid =>
      let key := item.group.elim (Key.user uuid) Key.group
      if key ∈ acc.map Prod.fst then
        acc.map fun entry =>
          if entry.1 = key then
            (key, { entry.2 with
              amount := entry.2.amount + item.amount
              items := entry.2.items ++ [item] })
          else entry
      else acc ++ [(key, ⟨key.groupId newGroup, uuid, item.amount, [item]⟩)]

namespace World

variable (w : World)

/-- The ids of groups that `uuidV4` gives: above those in use, one for every user. -/
def newGroup (uuid : Uuid) : Uuid :=
  fresh (w.rewards.rows.filterMap ReferralReward.group ++ w.cashbacks.rows.map Cashback.id) + uuid

/-- `getByPaymentOperationIsNullAndCreatedAtStartAndCreatedAtEnd`. -/
def getPending (config : Config) : List ReferralReward :=
  w.rewards.rows.filter fun r => r.paymentOperation = none ∧
    startDate config w.now ≤ r.createdAt ∧ r.createdAt ≤ endDate config w.now

def groups (config : Config) : List Group :=
  ((w.getPending config).foldl (addItem w.newGroup) []).map Prod.snd

/-- The updates of a `Promise.all` that are written. -/
def updateAll (answer : ℕ → Answer) (rewards : List ReferralReward) : World :=
  { w with rewards := w.rewards.setAll (rewards.filter fun r => (answer r.id).Writes) }

end World

/-- The rewards of a group that get the group. -/
def Group.ungrouped (g : Group) : List ReferralReward :=
  (g.items.filter fun r => r.group = none).map fun r => { r with group := some g.group }

/-- The group after its rewards were updated with it. -/
def Group.stored (g : Group) : Group :=
  { g with items := g.items.map fun r => if r.group = none then { r with group := some g.group } else r }

def Group.paid (g : Group) : List ReferralReward :=
  g.items.map fun r => { r with paymentOperation := some g.group }

def Group.reset (g : Group) : List ReferralReward :=
  g.items.map fun r => { r with group := none }

/-- The referrer has enough affiliates. -/
def Calls.Enough (calls : Calls) (config : Config) (awardedTo : Uuid) : Prop :=
  ∃ n ∈ (calls.countAffiliates awardedTo).toOption, config.affiliateSizeMinimum ≤ n

instance (calls : Calls) (config : Config) (awardedTo : Uuid) :
    Decidable (calls.Enough config awardedTo) :=
  inferInstanceAs (Decidable (∃ n ∈ _, _))

namespace World

variable (w : World)

/-- One round of the loop over the groups. -/
def pay (calls : Calls) (g : Group) : World :=
  if calls.getWallet g.awardedTo ≠ .active then w
  else match w.cashbacks.get? g.group, calls.createCashback g.group with
    | some _, .done | some _, .underMinAmount => w.updateAll calls.updatePaymentOperation g.paid
    | some _, .lost | some _, .failed => w
    | none, .done =>
        ({ w with
          cashbacks := w.cashbacks.upsert ⟨g.group, g.amount, g.items.map ReferralReward.id⟩ } :
          World).updateAll calls.updatePaymentOperation g.paid
    | none, .lost =>
        { w with
          cashbacks := w.cashbacks.upsert ⟨g.group, g.amount, g.items.map ReferralReward.id⟩ }
    | none, .failed => w
    | none, .underMinAmount => w.updateAll calls.resetGroup g.reset

/-- A reset of the group raises.  It is made in the `catch` of the round, so the loop ends. -/
def Stops (calls : Calls) (w : World) (g : Group) : Prop :=
  calls.getWallet g.awardedTo = .active ∧ w.cashbacks.get? g.group = none ∧
    calls.createCashback g.group = .underMinAmount ∧
    ∃ r ∈ g.items, (calls.resetGroup r.id).Raises

instance (calls : Calls) (w : World) (g : Group) : Decidable (Stops calls w g) :=
  inferInstanceAs (Decidable (_ ∧ _))

/-- The loop over the groups. -/
def payAll (calls : Calls) : World → List Group → World
  | w, [] => w
  | w, g :: gs => if Stops calls w g then w.pay calls g else payAll calls (w.pay calls g) gs

/-- `SyncReferralRewardConversionCashbackUseCase.execute`. -/
def sync (config : Config) (calls : Calls) : World :=
  if ¬ calls.getRewards.isOk then w
  else if ∃ g ∈ w.groups config, ¬ (calls.countAffiliates g.awardedTo).isOk then w
  else
    let filtered := (w.groups config).filter fun g => calls.Enough config g.awardedTo
    let ungrouped := filtered.flatMap Group.ungrouped
    let updated := w.updateAll calls.updateGroup ungrouped
    if ∃ r ∈ ungrouped, (calls.updateGroup r.id).Raises then updated
    else payAll calls updated (filtered.map Group.stored)

end World

/-! ### Runs -/

inductive Step where
  /-- An accepted event is delivered, for the first time or again. -/
  | accepted (calls : AcceptedCalls) (ownerOperation beneficiaryOperation : Option Operation)
      (conversionCurrency : Currency)
  | sync (calls : Calls)
  | tick (ms : ℕ)

def step (config : Config) (w : World) : Step → World
  | .accepted calls ownerOperation beneficiaryOperation conversionCurrency =>
      w.accepted config calls ownerOperation beneficiaryOperation conversionCurrency
  | .sync calls => w.sync config calls
  | .tick ms => { w with now := w.now + ms }

/-- Before the first reward. -/
def start (now : ℤ) : World := ⟨Table.empty, Table.empty, now⟩

end ZroServices.Users.ReferralRewards
