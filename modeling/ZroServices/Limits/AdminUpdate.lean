import ZroServices.Limits.Coherence

/-!
# Limits — what an update by compliance leaves

`UpdateUserLimitByAdminController` makes an entity of the limits that its request gives, and the use
case spreads this entity over the one that was found.  An entity is made by its class, which has a
default for the credit balance.  So the entity of the request has a credit balance whatever the
request says, and the spread takes it (`toDomain_withNewLimits`).

What was not sent stays exactly when the credit balance was the default already, and no user
defined limit is moved but those above a lowered limit (`onlySent_iff`).
-/

namespace ZroServices

open Foundation

/-- A limit that is given is its number. -/
theorem Limit.Given.some_number {l : Limit ℤ} (h : l.Given) : some l.number = l := by
  cases l with
  | none => exact absurd rfl h
  | some n => rfl

namespace Limits

/-! ### The limits of compliance -/

/-- A limit of compliance.  The user defines one of his own beside each. -/
inductive LimitField where
  | yearlyLimit
  | monthlyLimit
  | dailyLimit
  | nightlyLimit
  | maxAmount
  | minAmount
  | maxAmountNightly
  | minAmountNightly
  deriving DecidableEq, Repr

namespace LimitField

def isMin : LimitField → Bool
  | minAmount | minAmountNightly => true
  | _ => false

/-- What compliance supplies. -/
def supplied (f : LimitField) (n : NewUserLimit) : Limit ℤ :=
  match f with
  | yearlyLimit => n.yearlyLimit
  | monthlyLimit => n.monthlyLimit
  | dailyLimit => n.dailyLimit
  | nightlyLimit => n.nightlyLimit
  | maxAmount => n.maxAmount
  | minAmount => n.minAmount
  | maxAmountNightly => n.maxAmountNightly
  | minAmountNightly => n.minAmountNightly

def limit (f : LimitField) (l : LimitValues ℤ) : Limit ℤ :=
  match f with
  | yearlyLimit => some l.yearlyLimit
  | monthlyLimit => some l.monthlyLimit
  | dailyLimit => some l.dailyLimit
  | nightlyLimit => l.nightlyLimit
  | maxAmount => l.maxAmount
  | minAmount => l.minAmount
  | maxAmountNightly => l.maxAmountNightly
  | minAmountNightly => l.minAmountNightly

/-- The user defined limit. -/
def userLimit (f : LimitField) (l : LimitValues ℤ) : Limit ℤ :=
  match f with
  | yearlyLimit => l.userYearlyLimit
  | monthlyLimit => l.userMonthlyLimit
  | dailyLimit => l.userDailyLimit
  | nightlyLimit => l.userNightlyLimit
  | maxAmount => l.userMaxAmount
  | minAmount => l.userMinAmount
  | maxAmountNightly => l.userMaxAmountNightly
  | minAmountNightly => l.userMinAmountNightly

/-- The user defined limit goes beyond a limit. -/
def Beyond (f : LimitField) (user limit : Limit ℤ) : Prop :=
  if f.isMin then user.number < limit.number else limit.number < user.number

instance (f : LimitField) (user limit : Limit ℤ) : Decidable (f.Beyond user limit) :=
  inferInstanceAs (Decidable (ite _ _ _))

end LimitField

/-! ### Entities -/

/-- The properties that a `Partial<UserLimit>` has. -/
@[ext]
structure UserLimitProps where
  id : Option Uuid
  user : Option UserId
  limitType : Option LimitTypeId
  limit : LimitField → Option (Limit ℤ)
  userLimit : LimitField → Option (Limit ℤ)
  nighttimeStart : Option (Option String)
  nighttimeEnd : Option (Option String)
  creditBalance : Option ℤ

namespace UserLimitProps

/-- `{}`. -/
def empty : UserLimitProps := ⟨none, none, none, fun _ => none, fun _ => none, none, none, none⟩

/-- `Object.assign(target, source)`, which is also `{...target, ...source}`. -/
def assign (target source : UserLimitProps) : UserLimitProps where
  id := source.id <|> target.id
  user := source.user <|> target.user
  limitType := source.limitType <|> target.limitType
  limit f := source.limit f <|> target.limit f
  userLimit f := source.userLimit f <|> target.userLimit f
  nighttimeStart := source.nighttimeStart <|> target.nighttimeStart
  nighttimeEnd := source.nighttimeEnd <|> target.nighttimeEnd
  creditBalance := source.creditBalance <|> target.creditBalance

end UserLimitProps

/-- `new UserLimitEntity(props)`: `creditBalance = 0` is there before `props` is assigned. -/
def UserLimitEntity.new (props : UserLimitProps) : UserLimitProps :=
  .assign { UserLimitProps.empty with creditBalance := some 0 } props

/-- The entity of a row. -/
def toDomain (l : StoredLimit) : UserLimitProps where
  id := some l.id
  user := some l.user
  limitType := some l.limitType
  limit f := some (f.limit l.toLimitValues)
  userLimit f := some (f.userLimit l.toLimitValues)
  nighttimeStart := some l.nighttimeStart
  nighttimeEnd := some l.nighttimeEnd
  creditBalance := some l.creditBalance

structure UpdateUserLimitByAdminRequest extends NewUserLimit where
  userLimitId : Option Uuid
  deriving DecidableEq, Repr

namespace UpdateUserLimitByAdminController

/-- The entity of a request: `...(yearlyLimit ? { yearlyLimit } : {})` for each limit. -/
def newUserLimit (request : NewUserLimit) : UserLimitProps :=
  UserLimitEntity.new { UserLimitProps.empty with
    limit := fun f =>
      if (f.supplied request).Given then some (f.supplied request) else none }

def execute (request : UpdateUserLimitByAdminRequest) : App StoredLimit :=
  UpdateUserLimitByAdminUseCase.execute request.toNewUserLimit request.userLimitId

end UpdateUserLimitByAdminController

open UpdateUserLimitByAdminUseCase

section
variable {n : NewUserLimit} {l l' : StoredLimit} {f : LimitField}

/-- A limit that is supplied is taken. -/
theorem limit_withNewLimits : f.limit (withNewLimits n l).toLimitValues
    = (f.supplied n).override (f.limit l.toLimitValues) := by
  have period : ∀ (new : Limit ℤ) (old : ℤ),
      some (if new.Given then new.number else old) = new.override (some old) := by
    intro new old
    rw [Limit.override]
    split
    · next h => exact h.some_number
    · rfl
  cases f with
  | yearlyLimit | monthlyLimit | dailyLimit => exact period _ _
  | nightlyLimit | maxAmount | minAmount | maxAmountNightly | minAmountNightly => rfl

theorem userLimit_withNewLimits :
    f.userLimit (withNewLimits n l).toLimitValues = f.userLimit l.toLimitValues := by
  cases f <;> rfl

/-- **The new limits are the entity of the request, spread over the one that was found.** -/
theorem toDomain_withNewLimits (n : NewUserLimit) (l : StoredLimit) :
    toDomain (withNewLimits n l) = UserLimitEntity.new
      ((toDomain l).assign (UpdateUserLimitByAdminController.newUserLimit n)) := by
  ext1
  case limit =>
    funext f
    change some (f.limit (withNewLimits n l).toLimitValues) =
      ((((if (f.supplied n).Given then some (f.supplied n) else none) <|> none) <|>
        some (f.limit l.toLimitValues)) <|> none)
    rw [limit_withNewLimits, Limit.override]
    split <;> rfl
  case userLimit =>
    funext f
    exact congrArg some userLimit_withNewLimits
  all_goals rfl

/-! ### What was not sent -/

/-- The update moves the user defined limit. -/
def Moves (n : NewUserLimit) (l : LimitValues ℤ) (f : LimitField) : Prop :=
  (f.supplied n).Given ∧ f.Beyond (f.userLimit l) (f.supplied n)

instance : Decidable (Moves n l.toLimitValues f) := inferInstanceAs (Decidable (_ ∧ _))

/-- The user defined limit exceeds a limit of compliance that is lowered. -/
def Exceeds (n : NewUserLimit) (l : LimitValues ℤ) (f : LimitField) : Prop :=
  (f.supplied n).Given ∧ f.isMin = false ∧
    ((f.limit l).Given → (f.supplied n).number < (f.limit l).number) ∧
    f.userLimit l ≠ none ∧ (f.supplied n).number < (f.userLimit l).number

instance : Decidable (Exceeds n l.toLimitValues f) := inferInstanceAs (Decidable (_ ∧ _))

/-- The update changed only what was sent, and the user defined limits that exceed it. -/
structure OnlySent (n : NewUserLimit) (l l' : StoredLimit) : Prop where
  id : l'.id = l.id
  user : l'.user = l.user
  limitType : l'.limitType = l.limitType
  limit : ∀ f : LimitField, ¬ (f.supplied n).Given →
    f.limit l'.toLimitValues = f.limit l.toLimitValues
  userLimit : ∀ f : LimitField, f.userLimit l'.toLimitValues =
    if Exceeds n l.toLimitValues f then f.supplied n else f.userLimit l.toLimitValues
  nighttimeStart : l'.nighttimeStart = l.nighttimeStart
  nighttimeEnd : l'.nighttimeEnd = l.nighttimeEnd
  creditBalance : l'.creditBalance = l.creditBalance

theorem notAbove_override {new old user : Limit ℤ} :
    (if new.Given then notAbove user (new.override old) else user)
      = if new.Given ∧ new.number < user.number then new else user := by
  by_cases h : new.Given
  · rw [if_pos h, Limit.override_of_given h, notAbove]
    simp only [h, true_and]
  · rw [if_neg h, if_neg fun q => h q.1]

theorem notUnder_override {new old user : Limit ℤ} :
    (if new.Given then notUnder user (new.override old) else user)
      = if new.Given ∧ user.number < new.number then new else user := by
  by_cases h : new.Given
  · rw [if_pos h, Limit.override_of_given h, notUnder]
    simp only [h, true_and]
  · rw [if_neg h, if_neg fun q => h q.1]

/-- **The update moves the user defined limits that are beyond what is supplied.** -/
theorem userLimit_moved : f.userLimit (moved n (withNewLimits n l)).toLimitValues
    = if Moves n l.toLimitValues f then f.supplied n else f.userLimit l.toLimitValues := by
  have hlimit := fun f => limit_withNewLimits (n := n) (l := l) (f := f)
  cases f with
  | yearlyLimit =>
      exact (congrArg (fun x => ite _ (notAbove _ x) _) (hlimit .yearlyLimit)).trans notAbove_override
  | monthlyLimit =>
      exact (congrArg (fun x => ite _ (notAbove _ x) _) (hlimit .monthlyLimit)).trans notAbove_override
  | dailyLimit =>
      exact (congrArg (fun x => ite _ (notAbove _ x) _) (hlimit .dailyLimit)).trans notAbove_override
  | nightlyLimit | maxAmount | maxAmountNightly => exact notAbove_override
  | minAmount | minAmountNightly => exact notUnder_override

theorem limit_moved : f.limit (moved n (withNewLimits n l)).toLimitValues
    = (f.supplied n).override (f.limit l.toLimitValues) := by
  rw [← limit_withNewLimits]
  cases f <;> rfl

theorem number_ne_of_beyond {user limit : Limit ℤ} (h : f.Beyond user limit) : limit ≠ user := by
  rintro rfl
  rw [LimitField.Beyond] at h
  split at h
  · exact lt_irrefl _ h
  · exact lt_irrefl _ h

theorem Exceeds.moves (h : Exceeds n l.toLimitValues f) : Moves n l.toLimitValues f := by
  obtain ⟨hgiven, hmin, -, -, hlt⟩ := h
  refine ⟨hgiven, ?_⟩
  rw [LimitField.Beyond, hmin]
  exact hlt

/-- What an update leaves is what was not sent, when it moves nothing else. -/
theorem onlySent_moved : OnlySent n l (moved n (withNewLimits n l)) ↔
    l.creditBalance = 0 ∧ ∀ f, Moves n l.toLimitValues f → Exceeds n l.toLimitValues f := by
  constructor
  · intro h
    refine ⟨h.creditBalance.symm, fun f hmoves => ?_⟩
    by_contra hnot
    have huser := h.userLimit f
    rw [userLimit_moved, if_pos hmoves, if_neg hnot] at huser
    exact number_ne_of_beyond hmoves.2 huser
  · rintro ⟨hcredit, hexceeds⟩
    refine ⟨rfl, rfl, rfl, fun f hnot => ?_, fun f => ?_, rfl, rfl, hcredit.symm⟩
    · rw [limit_moved, Limit.override_of_not_given hnot]
    · rw [userLimit_moved]
      exact if_congr ⟨hexceeds f, Exceeds.moves⟩ rfl rfl

end

/-- **An update by compliance changes only what was sent exactly when there is no credit.**  The
other user limits stay, and of this one, what the request does not supply, but for the user defined
limits that exceed a lowered one. -/
theorem onlySent_iff {request : UpdateUserLimitByAdminRequest} {l' : StoredLimit} {s s' : State}
    (h : UpdateUserLimitByAdminController.execute request s = .ok l' s') :
    ∃ id l, request.userLimitId = some id ∧ s.userLimits.get? id = some l ∧
      s'.userLimits.get? id = some l' ∧
      (∀ other, other ≠ id → s'.userLimits.get? other = s.userLimits.get? other) ∧
      (OnlySent request.toNewUserLimit l l' ↔ l.creditBalance = 0 ∧
        ∀ f, Moves request.toNewUserLimit l.toLimitValues f →
          Exceeds request.toNewUserLimit l.toLimitValues f) := by
  obtain ⟨id, l, hid, hl, -, rfl, hset⟩ := execute_ok h
  have hkey : l.id = id := Table.key_of_get? hl
  refine ⟨id, l, hid, hl, ?_, fun other hne => ?_, onlySent_moved⟩
  · rw [hset]
    exact Table.get?_set_self hl hkey
  · rw [hset]
    exact Table.get?_set_ne fun e => hne (e.symm.trans hkey)

namespace Sample

def request : UpdateUserLimitByAdminRequest := { nothingNew with userLimitId := some 1 }

/-- The service with a user limit of some credit. -/
def credited (creditBalance : ℤ) : State :=
  ⟨⟨[{ limit with creditBalance }], List.nodup_singleton _⟩, []⟩

end Sample

/-- Without credit, at most 300 in one operation: the user's own 400 become 300. -/
theorem onlySent_sample :
    let l' : StoredLimit := { Sample.limit with maxAmount := some 300, userMaxAmount := some 300 }
    UpdateUserLimitByAdminController.execute { Sample.request with maxAmount := some 300 }
        (Sample.credited 0) = .ok l' ⟨⟨[l'], List.nodup_singleton _⟩, [⟨.UPDATED, 1, 1⟩]⟩ ∧
      OnlySent { Sample.nothingNew with maxAmount := some 300 } Sample.limit l' := by
  have hrun : UpdateUserLimitByAdminController.execute
      { Sample.request with maxAmount := some 300 } (Sample.credited 0)
        = .ok { Sample.limit with maxAmount := some 300, userMaxAmount := some 300 }
          ⟨⟨[{ Sample.limit with maxAmount := some 300, userMaxAmount := some 300 }],
            List.nodup_singleton _⟩, [⟨.UPDATED, 1, 1⟩]⟩ := rfl
  obtain ⟨id, l, hid, hl, -, -, hiff⟩ := onlySent_iff hrun
  obtain rfl := Option.some.inj hid
  obtain rfl := Option.some.inj hl
  exact ⟨hrun, hiff.mpr ⟨rfl, fun f => by cases f <;> decide⟩⟩

/-- With a credit of 50000, the limit of a year is raised: the credit is gone. -/
theorem not_onlySent :
    let l : StoredLimit := { Sample.limit with creditBalance := 50000 }
    let l' : StoredLimit := { Sample.limit with yearlyLimit := 30000, creditBalance := 0 }
    UpdateUserLimitByAdminController.execute { Sample.request with yearlyLimit := some 30000 }
        (Sample.credited 50000) = .ok l' ⟨⟨[l'], List.nodup_singleton _⟩, [⟨.UPDATED, 1, 1⟩]⟩ ∧
      (Sample.credited 50000).userLimits.get? 1 = some l ∧
      ¬ OnlySent { Sample.nothingNew with yearlyLimit := some 30000 } l l' :=
  ⟨rfl, rfl, fun h => absurd h.creditBalance (by decide)⟩

end Limits

end ZroServices
