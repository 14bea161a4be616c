import ZroServices.Operations.Known
import ZroServices.Operations.PeriodLimits

/-!
# Operations — when a period limit refuses

`NotEnoughAvailableLimitException` has two places of origin in a create: the limit check of the
owner and that of the beneficiary (`execute_refused`).

In the owner's check, what is taken as used is at most what the owner's PENDING and ACCEPTED
operations use (`refused_only_exceeding`), when every reverted operation was given back, and

* no delivery of the run found a tracker last written in an earlier day, month or year whose
  counter of it is not zero (`Timely`): it moves the tracker to the current one and leaves the
  counter;
* no operation without an owner stands on the tracker;
* the beneficiary's limit is not the one that refuses.

`refused_earlier_day` is a run with a delivery that is not timely.
-/

namespace ZroServices

open Foundation
open CreateOperationUseCase HandleRevertedOperationEventUseCase
open HandleRevertedOperationEventController

/-! ### Where the exception comes from -/

/-- Another exception than `NotEnoughAvailableLimitException`. -/
def Exception.Other (e : Exception) : Prop := ∀ used v, e ≠ .notEnoughAvailableLimit used v

namespace CreateOperationUseCase

section
variable {env : Env} {now : ℤ} {tt : TransactionType} {w w' : World} {used : UsedLimit} {v : ℤ}

theorem throws_readDb {α : Type} (f : Db → α) : Throws Exception.Other (readDb f) :=
  fun _ _ _ h => absurd h readDb_error

theorem throws_checkInputData (p : CreateOperationParticipant) :
    Throws Exception.Other (checkInputData p) := by
  have missing : (Exception.missingData (missingFields p)).Other := fun _ _ => by simp
  refine .bind (throws_orThrow missing) fun _ => .bind (throws_orThrow missing) fun _ =>
    .bind (throws_orThrow missing) fun _ => .bind (throws_orThrow missing) fun _ =>
    .bind (throws_orThrow missing) fun _ => .bind (throws_orThrow missing) fun _ => ?_
  split
  · exact throws_throw fun _ _ => by simp
  · split
    · exact throws_throw fun _ _ => by simp
    · exact throws_pure _

theorem throws_checkTransactionType (tag : String) (hasOwner hasBeneficiary : Bool) :
    Throws Exception.Other (checkTransactionType env tag hasOwner hasBeneficiary) :=
  .bind (throws_orThrow fun _ _ => by simp) fun _ =>
    .bind (throws_throwIf fun _ _ => by simp) fun _ =>
    .bind (throws_throwIf fun _ _ => by simp) fun _ =>
    .bind (throws_throwIf fun _ _ => by simp) fun _ =>
    .bind (throws_throwIf fun _ _ => by simp) fun _ =>
    .bind (throws_throwIf fun _ _ => by simp) fun _ => throws_pure _

theorem throws_loadParticipant (p : Participant) : Throws Exception.Other (loadParticipant env p) :=
  .bind (throws_orThrow fun _ _ => by simp) fun _ =>
    .bind (throws_throwIf fun _ _ => by simp) fun _ =>
    .bind (throws_readDb _) fun _ => .bind (throws_orThrow fun _ _ => by simp) fun _ =>
    .bind (throws_throwIf fun _ _ => by simp) fun _ =>
    .bind (throws_readDb _) fun _ => .bind (throws_orThrow fun _ _ => by simp) fun _ =>
    .bind (throws_throwIf fun _ _ => by simp) fun _ => throws_pure _

theorem throws_liability (cache : List PendingWalletAccountTransaction)
    (as : List WalletAccount) : Throws Exception.Other (liability env now cache as) := by
  induction as with
  | nil => exact throws_pure _
  | cons a as ih =>
      refine .bind ?_ fun _ => .bind ih fun _ => throws_pure _
      rw [walletAccountLiability]
      split
      · split
        · exact throws_pure _
        · exact .bind (throws_orThrow fun _ _ => by simp) fun _ => throws_pure _
      · exact throws_pure _

theorem throws_hasCreditBalance (wallet : Wallet) (credit : ℕ) :
    Throws Exception.Other (hasCreditBalance env now wallet credit) := by
  rw [hasCreditBalance]
  split
  · exact .bind (throws_readDb _) fun _ => .bind (throws_throwIf fun _ _ => by simp) fun _ =>
      .bind throws_get fun _ => .bind (throws_liability _ _) fun _ => throws_pure _
  · exact throws_pure _

theorem throws_createOperation (pending : List PendingWalletAccountTransaction)
    (i : OperationInfo) : Throws Exception.Other (createOperation env now pending tt i) := by
  refine .bind ?_ fun _ => .bind ?_ fun _ => .bind (throws_modify _) fun _ =>
    .bind ?_ fun _ => throws_pure _
  · rw [chargeOperation]
    split
    · exact .bind (throws_modify _) fun _ => throws_pure _
    · exact throws_pure _
  · exact .bind (throws_readDb _) fun _ => .bind (throws_orThrow fun _ _ => by simp) fun _ =>
      .bind (throws_modify _) fun _ => throws_pure _
  · rw [blockOwnerBalance]
    split
    · exact throws_modify _
    · exact throws_pure _

theorem throws_createOperations (pending : List PendingWalletAccountTransaction)
    (o : Option OwnerSide) (b : Option BeneficiarySide) :
    Throws Exception.Other (createOperations env now pending tt o b) := by
  rw [createOperations.eq_def]
  split
  · split
    · exact .bind (throws_createOperation _ _) fun _ => .bind (throws_createOperation _ _) fun _ =>
        .bind (throws_modify _) fun _ => .bind (throws_modify _) fun _ => throws_pure _
    · exact .bind (throws_createOperation _ _) fun _ => throws_pure _
  · exact .bind (throws_createOperation _ _) fun _ => throws_pure _
  · exact .bind (throws_createOperation _ _) fun _ => throws_pure _
  · exact throws_throw fun _ _ => by simp

theorem throws_emitOperationEvent (type : OperationEventType) (o b : Option Operation) :
    Throws Exception.Other (OperationEventEmitter.emitOperationEvent type o b) := by
  intro s e s' h
  obtain ⟨fields, rfl⟩ := OperationEventEmitter.emitOperationEvent_error h
  exact fun _ _ => by simp

/-- A side of the request, and how it was loaded. -/
structure Names (env : Env) (db : Db) (tag : String) (side : Option CreateOperationParticipant)
    (tt : TransactionType) (q : LoadedParticipant) : Prop where
  transactionType : env.transactionTypeByTag tag = some tt
  requested : ∃ p, side = some p ∧ Requested p q.info
  loaded : Loaded env db q

/-- The limit check that refuses is the owner's, or the beneficiary's. -/
theorem checkAndCreate_refused {pending : List PendingWalletAccountTransaction}
    {o b : Option LoadedParticipant}
    (h : checkAndCreate env now pending tt o b w = .error (.notEnoughAvailableLimit used v) w') :
    (∃ q w₂, o = some q ∧ checkUserLimits env now 0 q.wallet.user q.walletAccount tt
        (availableAmount q.info q.walletAccount.balance).value w
          = .error (.notEnoughAvailableLimit used v) w₂) ∨
      ∃ q w₁ w₂, b = some q ∧ w.db.LimitCreated env w₁.db ∧
        checkUserLimits env now 1 q.wallet.user q.walletAccount tt q.info.rawValue w₁
          = .error (.notEnoughAvailableLimit used v) w₂ := by
  rcases bind_error.mp h with h₁ | ⟨o', w₁, ho, h₁⟩
  · -- The owner's checks: credit and funds throw other exceptions.
    left
    obtain ⟨q, rfl, h₂⟩ := forSome_error.mp h₁
    rw [checkOwner] at h₂
    rcases bind_error.mp h₂ with h₃ | ⟨credit, _, hcredit, h₃⟩
    · exact absurd h₃ readDb_error
    obtain ⟨-, rfl⟩ := readDb_ok.mp hcredit
    rcases bind_error.mp h₃ with h₄ | ⟨hasCredit, _, hhas, h₄⟩
    · exact absurd rfl (throws_hasCreditBalance _ _ _ _ _ h₄ used v)
    obtain ⟨rfl, -⟩ := hasCreditBalance_ok hhas
    rcases bind_error.mp h₄ with h₅ | ⟨_, _, hfunds, h₅⟩
    · cases (throwIf_error.mp h₅).2.1
    obtain ⟨-, rfl⟩ := throwIf_ok.mp hfunds
    rcases bind_error.mp h₅ with h₆ | ⟨_, _, -, h₆⟩
    · exact ⟨q, w', rfl, h₆⟩
    · exact absurd h₆ pure_error
  · obtain ⟨-, db', rfl, hcreated, -⟩ := owner_checked ho
    rcases bind_error.mp h₁ with h₂ | ⟨b', w₂, -, h₂⟩
    · right
      obtain ⟨q, rfl, h₃⟩ := forSome_error.mp h₂
      rw [checkBeneficiary] at h₃
      rcases bind_error.mp h₃ with h₄ | ⟨_, _, -, h₄⟩
      · exact ⟨q, _, w', rfl, hcreated, h₄⟩
      · exact absurd h₄ pure_error
    · rcases bind_error.mp h₂ with h₃ | ⟨r, w₃, -, h₃⟩
      · exact absurd rfl (throws_createOperations _ _ _ _ _ _ h₃ used v)
      rcases bind_error.mp h₃ with h₄ | ⟨_, w₄, -, h₄⟩
      · exact absurd rfl (throws_emitOperationEvent _ _ _ _ _ _ h₄ used v)
      · exact absurd h₄ pure_error

/-- What is thrown is thrown by the code, not by the clean-up. -/
theorem onThrow_refused {α : Type} {x : App α} {ps : List PendingWalletAccountTransaction}
    {e : Exception} (h : onThrow x (removePendingWalletAccountTransaction env now ps) w
      = .error e w') : ∃ w₁, x w = .error e w₁ := by
  obtain ⟨e₀, w₁, hx, h | ⟨rfl, -⟩⟩ := onThrow_error h
  · exact absurd h PendingWalletAccountTransactionRepository.createOrUpdate_error
  · exact ⟨w₁, hx⟩

/-- **Where a create throws the exception**: in the owner's limit check, or in the
beneficiary's. -/
theorem execute_refused {tag : String}
    {ownerInfo beneficiaryInfo : Option CreateOperationParticipant}
    (h : execute env now tag ownerInfo beneficiaryInfo w
      = .error (.notEnoughAvailableLimit used v) w') :
    (∃ tt q w₁ w₂, Names env w.db tag ownerInfo tt q ∧ w₁.db = w.db ∧
        checkUserLimits env now 0 q.wallet.user q.walletAccount tt
          (availableAmount q.info q.walletAccount.balance).value w₁
            = .error (.notEnoughAvailableLimit used v) w₂) ∨
      ∃ tt q w₁ w₂, Names env w.db tag beneficiaryInfo tt q ∧ w.db.LimitCreated env w₁.db ∧
        checkUserLimits env now 1 q.wallet.user q.walletAccount tt q.info.rawValue w₁
          = .error (.notEnoughAvailableLimit used v) w₂ := by
  have other : ∀ {α : Type} {x : App α} {w₁ w₂ : World}, Throws Exception.Other x →
      x w₁ ≠ .error (.notEnoughAvailableLimit used v) w₂ :=
    fun hx he => hx _ _ _ he used v rfl
  rcases bind_error.mp h with h₁ | ⟨_, _, hok, h₁⟩
  · exact absurd h₁ (other (throws_throwIf fun _ _ => by simp))
  obtain ⟨-, rfl⟩ := throwIf_ok.mp hok
  rcases bind_error.mp h₁ with h₂ | ⟨_, _, hok', h₂⟩
  · exact absurd h₂ (other (throws_throwIf fun _ _ => by simp))
  obtain ⟨-, rfl⟩ := throwIf_ok.mp hok'
  rcases bind_error.mp h₂ with h₃ | ⟨io, _, hio, h₃⟩
  · exact absurd h₃ (other (.forSome throws_checkInputData))
  obtain ⟨rfl, ro⟩ := input_requested hio
  rcases bind_error.mp h₃ with h₄ | ⟨ib, _, hib, h₄⟩
  · exact absurd h₄ (other (.forSome throws_checkInputData))
  obtain ⟨rfl, rb⟩ := input_requested hib
  rcases bind_error.mp h₄ with h₅ | ⟨tt, _, htt, h₅⟩
  · exact absurd h₅ (other (throws_checkTransactionType _ _ _))
  obtain ⟨rfl, found⟩ := checkTransactionType_ok htt
  rcases bind_error.mp h₅ with h₆ | ⟨po, _, hpo, h₆⟩
  · exact absurd h₆ (other (.forSome throws_loadParticipant))
  obtain ⟨rfl, rfl, lo⟩ := load_loaded hpo
  rcases bind_error.mp h₆ with h₇ | ⟨_, _, hput, h₇⟩
  · exact absurd h₇ PendingWalletAccountTransactionRepository.createOrUpdate_error
  obtain rfl := PendingWalletAccountTransactionRepository.createOrUpdate_ok.mp hput
  rcases bind_error.mp h₇ with h₈ | ⟨pb, _, hpb, h₈⟩
  · obtain ⟨w₁, h₈⟩ := onThrow_refused h₈
    exact absurd h₈ (other (.forSome throws_loadParticipant))
  obtain ⟨rfl, rfl, lb⟩ := load_loaded (onThrow_ok.mp hpb)
  rcases bind_error.mp h₈ with h₉ | ⟨_, _, hput', h₉⟩
  · exact absurd h₉ PendingWalletAccountTransactionRepository.createOrUpdate_error
  obtain rfl := PendingWalletAccountTransactionRepository.createOrUpdate_ok.mp hput'
  obtain ⟨w₁, h₉⟩ := onThrow_refused h₉
  rcases checkAndCreate_refused h₉ with ⟨q, w₂, rfl, hcheck⟩ | ⟨q, w₃, w₂, rfl, hcreated, hcheck⟩
  · refine Or.inl ⟨tt, q, _, w₂, ⟨found, ?_, lo q rfl⟩, ?_, hcheck⟩
    · cases ro with
      | some hr => exact ⟨_, rfl, hr⟩
    · rfl
  · refine Or.inr ⟨tt, q, w₃, w₂, ⟨found, ?_, lb q rfl⟩, hcreated, hcheck⟩
    cases rb with
    | some hr => exact ⟨_, rfl, hr⟩

end

end CreateOperationUseCase

/-! ### What is exceeded -/

/-- A value does not fit into what is left of the compliance limit, or of the user defined limit,
of a day, a month or a year. -/
def UserLimit.Exceeds (l : UserLimit) (u : MomentUnit) (used v : ℤ) : Prop :=
  (l.periodLimit u : ℤ) - used < v ∨ (l.userPeriodLimit u).exceededAfter used v

instance (l : UserLimit) (u : MomentUnit) (used v : ℤ) : Decidable (l.Exceeds u used v) :=
  inferInstanceAs (Decidable (_ ∨ _))

section
variable {env : Env} {now : ℤ} {db db' : Db} {user : UserId} {limitType : LimitType}
  {l : UserLimit} {u : MomentUnit} {tt : TransactionType} {q : LoadedParticipant} {v : ℤ}

theorem UserLimit.Exceeds.mono {used used' : ℤ} (h : l.Exceeds u used v) (hle : used ≤ used') :
    l.Exceeds u used' v := by
  rcases h with h | h
  · left
    omega
  · right
    cases hl : l.userPeriodLimit u with
    | none => rw [hl] at h; exact h
    | some n =>
        rw [hl] at h
        exact ⟨h.1, lt_of_le_of_lt (by omega) h.2⟩

/-! ### What is taken as used -/

/-- An operation that the limit check finds in the database counts for the limit. -/
theorem counts_of_found (hk : ∀ o ∈ db.operations.rows, Known env db o) (hq : Loaded env db q)
    (hlt : limitTypeOf env q.walletAccount tt = some limitType) {date : ℤ} {o : Operation}
    (ho : o ∈ getValueAndCreatedAt (·.owner) q.walletAccount date
      (env.transactionTypesOf limitType) db) :
    o ∈ db.operations.rows ∧ o.CountsFor env q.wallet.user limitType := by
  rw [getValueAndCreatedAt, List.mem_filter, decide_eq_true_eq] at ho
  obtain ⟨hmem, howner, -, htype, hstate⟩ := ho
  obtain ⟨p, hp, hpa⟩ := Option.map_eq_some_iff.mp howner
  have known := hk o hmem
  obtain ⟨a, w, ha, hcurrency, hw, huser⟩ := known.owner p hp
  -- The account is the participant's, and so are its wallet and its user.
  rw [hpa, hq.walletAccount] at ha
  obtain rfl := Option.some.inj ha
  have hwallet := hq.wallet
  rw [← Table.key_of_get? hwallet] at hwallet
  rw [hq.ofWallet] at hw
  obtain rfl := Option.some.inj (hw.symm.trans hwallet)
  refine ⟨hmem, ⟨?_, ?_, ?_⟩⟩
  · simp only [getOperationLimitCheckStates, List.mem_cons, List.not_mem_nil, or_false] at hstate
    exact hstate.symm
  · rw [hp, Option.map_some, huser]
  · obtain ⟨t, ht, hid⟩ := List.mem_map.mp htype
    rw [Env.transactionTypesOf, List.mem_filter, decide_eq_true_eq] at ht
    obtain rfl := Env.transactionType_eq ht.1 known.ofType hid
    rw [limitTypeOf, Option.filter_eq_some_iff, decide_eq_true_eq] at hlt
    rw [Operation.limitType, ht.2, Option.filter_eq_some_iff, decide_eq_true_eq]
    refine ⟨?_, ?_⟩
    · have : limitTypeOf env q.walletAccount tt = some limitType := by
        rw [limitTypeOf, Option.filter_eq_some_iff, decide_eq_true_eq]
        exact hlt
      exact limitTypeOf_find this
    · rw [← hcurrency]
      exact hlt.2

/-- Without a tracker of the limit, the limit check finds no operation that uses it. -/
theorem getUsedLimit_period (hb : Booked env db)
    (hk : ∀ o ∈ db.operations.rows, Known env db o) (hq : Loaded env db q)
    (hlt : limitTypeOf env q.walletAccount tt = some limitType) (hcheck : limitType.check = .OWNER)
    (hnone : ∀ l, db.userLimitByUserAndLimitType q.wallet.user limitType.id = some l →
      db.userLimitTrackerByUserLimit l = none) (hops : db'.operations = db.operations)
    (l : UserLimit) (u : MomentUnit) :
    (getUsedLimit env now q.walletAccount l limitType db').period u = 0 := by
  have none : getValueAndCreatedAt (·.owner) q.walletAccount
      (dateOnly (periodStartOf now limitType .year)) (env.transactionTypesOf limitType) db' = [] := by
    rw [List.eq_nil_iff_forall_not_mem]
    intro o ho
    have found : o ∈ getValueAndCreatedAt (·.owner) q.walletAccount
        (dateOnly (periodStartOf now limitType .year)) (env.transactionTypesOf limitType) db := by
      rw [getValueAndCreatedAt, ← hops]
      exact ho
    obtain ⟨hmem, hcounts⟩ := counts_of_found hk hq hlt found
    obtain ⟨l', hl', t, ht, hid, -⟩ := hb.stands hmem hcounts
    have := List.find?_eq_none.mp (hnone l' hl') t ht
    simp [hid] at this
  rw [getUsedLimit, none, hcheck]
  cases u <;> rfl

/-- The reverted operations were given back, and what stands on a tracker has an owner. -/
structure Settled (now : ℤ) (db : Db) (t : UserLimitTracker) : Prop where
  handled : db.awaiting = []
  owned : ∀ o ∈ db.standing t.id, o.owner = none → ∀ u : MomentUnit, ¬ u.period.Same o.createdAt now

/-- The charges on a settled tracker are operations that count. -/
theorem Settled.usage_le {t : UserLimitTracker} (h : Settled now db t) (hb : Books env db)
    (hk : ∀ o ∈ db.operations.rows, Known env db o)
    (hl : db.userLimitByUserAndLimitType user limitType.id = some l)
    (hlt : env.limitTypeById limitType.id = some limitType)
    (ht : db.userLimitTrackerByUserLimit l = some t) (u : MomentUnit) :
    usage u.period (db.charges t.id) now ≤ db.used env user limitType u now := by
  refine usage_filter_le hb.nonneg fun o ho hsame hs => ?_
  have howner : o.owner ≠ none := fun e =>
    h.owned o (Db.mem_standing.mpr ⟨ho, hs⟩) e u hsame
  obtain ⟨p, hp⟩ := Option.ne_none_iff_exists'.mp howner
  obtain ⟨htmem, hid⟩ := Db.userLimitTracker_of_find ht
  obtain ⟨-, huser, hltid⟩ := Db.userLimit_of_find hl
  obtain ⟨t', l', ht', hbooking⟩ := hb.booking o ho t.id hs.1
  have hget := Table.get?_of_mem htmem
  rw [UserLimitTracker.key_eq, ht'] at hget
  obtain rfl := Option.some.inj hget
  have hl' := hbooking.userLimit
  rw [hid, (Db.userLimit_find hl).1] at hl'
  obtain rfl := Option.some.inj hl'
  refine ⟨?_, ?_, ?_⟩
  · refine (hk o ho).state.resolve_right fun hstate => ?_
    have := hb.awaited o ho hstate howner (by rw [hs.1]; simp) hs.2
    rw [h.handled] at this
    cases this
  · have := hbooking.user
    rw [Operation.limited, hp, Option.some_or] at this
    rw [hp, this, huser]
  · obtain ⟨lt, hlt', hid'⟩ := Option.map_eq_some_iff.mp hbooking.limitType
    have := Operation.limitTypeById hlt'
    rw [hid', hltid, hlt] at this
    rw [hlt', Option.some.inj this]

/-- The limit check of a participant looks at the limit `l`, and takes `used` as used of it. -/
structure LooksAt (env : Env) (now : ℤ) (drawn : ℕ) (db : Db) (tt : TransactionType)
    (q : LoadedParticipant) (limitType : LimitType) (l : UserLimit) (used : UsedLimit) : Prop where
  ofType : limitTypeOf env q.walletAccount tt = some limitType
  found : ∃ c flag db', LimitFound env now drawn q.wallet.user limitType db db' c flag ∧
    l = c.userLimit ∧ used = usedOf env now q.walletAccount limitType db' c flag

/-- What the check takes as used is at most what the operations that count use. -/
theorem LooksAt.used_le {drawn : ℕ} {used : UsedLimit}
    (h : LooksAt env now drawn db tt q limitType l used) (hb : Books env db)
    (hk : ∀ o ∈ db.operations.rows, Known env db o) (hq : Loaded env db q)
    (hcheck : limitType.check = .OWNER)
    (ht : ∀ l t, db.userLimitByUserAndLimitType q.wallet.user limitType.id = some l →
      db.userLimitTrackerByUserLimit l = some t → Settled now db t ∧
        t.periodStart = .DATE ∧ ∀ u, (t.counter u).Within u.period (db.charges t.id))
    (u : MomentUnit) :
    used.period u ≤ db.used env q.wallet.user limitType u now := by
  obtain ⟨hlt, c, flag, db', hfound, rfl, rfl⟩ := h
  have nonneg : 0 ≤ db.used env q.wallet.user limitType u now := by
    refine usage_nonneg (fun x hx => ?_) now
    obtain ⟨o, ho, rfl⟩ := List.mem_map.mp hx
    exact hb.nonneg o (List.mem_filter.mp ho).1
  cases hfound with
  | tracked l t hl hlt' =>
      obtain ⟨hsettled, hdate, hwithin⟩ := ht l t hl hlt'
      change (restartUserLimitTracker env now l t).usedLimit.period u ≤ _
      rw [UserLimitTracker.usedLimit_period, used_restart hdate]
      exact ((hwithin u).restart now).trans
        (hsettled.usage_le hb hk hl (limitTypeOf_find hlt) hlt' u)
  | untracked l hl hnone =>
      change (getUsedLimit env now q.walletAccount l limitType db).period u ≤ _
      rw [getUsedLimit_period hb.toBooked hk hq hlt hcheck ?_ rfl]
      · exact nonneg
      · intro l' hl'
        rw [hl] at hl'
        rw [← Option.some.inj hl']
        exact hnone
  | created g T _ hl hg hins hdb =>
      change (getUsedLimit env now q.walletAccount _ limitType db').period u ≤ _
      rw [getUsedLimit_period hb.toBooked hk hq hlt hcheck ?_ ?_]
      · exact nonneg
      · intro l' hl'
        rw [hl] at hl'
        cases hl'
      · rw [hdb]

end

/-! ### Runs -/

/-- A delivery finds each period counter of a DATE tracker empty, or of the current period. -/
def Timely (s : State) (l : ℤ × Command) : Prop :=
  match l.2 with
  | .deliver n => ∀ x ∈ s.world.db.delivered n, x.2.tracker.periodStart = .DATE →
      ∀ u, x.2.tracker.used u = 0 ∨ u.period.Same l.1 x.2.tracker.updatedAt
  | _ => True

instance (s : State) (l : ℤ × Command) : Decidable (Timely s l) := by
  unfold Timely
  cases l.2 <;> infer_instance

/-- The tracker of the limit of a side of a request. -/
def sideTracker (env : Env) (db : Db) (tag : String) (side : Option CreateOperationParticipant) :
    Option UserLimitTracker := do
  let (user, limitType) ← sideLimited env db tag side
  let l ← db.userLimitByUserAndLimitType user limitType.id
  db.userLimitTrackerByUserLimit l

/-- The limit check of the beneficiary has room for the raw value, in the period limits. -/
def BeneficiaryHasRoom (env : Env) (now : ℤ) (db : Db) (tag : String)
    (beneficiaryInfo : Option CreateOperationParticipant) : Prop :=
  ∀ tt q limitType l db' used, Names env db tag beneficiaryInfo tt q → db.LimitCreated env db' →
    LooksAt env now 1 db' tt q limitType l used →
    ∀ u, ¬ l.Exceeds u (used.period u) q.info.rawValue

/-- A refusal that a period limit is the reason of only when the owner's operations that count
really exceed it. -/
inductive RightlyRefused (env : Env) (now : ℤ) (db : Db) (tag : String)
    (ownerInfo beneficiaryInfo : Option CreateOperationParticipant) (used : UsedLimit) (v : ℤ) : Prop
  | owner (tt : TransactionType) (q : LoadedParticipant) (limitType : LimitType) (l : UserLimit)
      (hq : Names env db tag ownerInfo tt q) (hl : LooksAt env now 0 db tt q limitType l used)
      (hv : v = (availableAmount q.info q.walletAccount.balance).value)
      (h : ∀ u, l.Exceeds u (used.period u) v →
        l.Exceeds u (db.used env q.wallet.user limitType u now) v)
  | beneficiary (tt : TransactionType) (q : LoadedParticipant) (limitType : LimitType)
      (l : UserLimit) (db' : Db) (hq : Names env db tag beneficiaryInfo tt q)
      (hdb' : db.LimitCreated env db') (hl : LooksAt env now 1 db' tt q limitType l used)
      (hv : v = q.info.rawValue) (h : ∀ u, ¬ l.Exceeds u (used.period u) v)

section
variable {env : Env} {now : ℤ} {s : State} {ls : List (ℤ × Command)}

/-- The counters of a DATE tracker have nothing but charges on it, over every run of timely
deliveries. -/
theorem run_within (h : Along (step env) (fun s l => Forward s l ∧ Timely s l) s ls)
    (hb : Books env s.world.db) (htrackers : s.world.db.userLimitTrackers.rows = []) :
    Books env (run (step env) s ls).world.db ∧
      ∀ t ∈ (run (step env) s ls).world.db.userLimitTrackers.rows, t.periodStart = .DATE →
        Counted Counter.Within (run (step env) s ls).clock t
          ((run (step env) s ls).world.db.charges t.id) := by
  refine run_tracked (I := fun s t H => t.periodStart = .DATE → Counted Counter.Within s.clock t H)
    ?_ h hb ?_
  · rintro s l hb ⟨hclock, htimely⟩ hI y H hy hdate
    refine hy.counted Counter.within_chargeable hclock hI ?_ hdate
    intro n j b c hcommand he hc htags hd u pre post hwithin
    have hmem : c.tracker ∈ s.world.db.userLimitTrackers.rows := by
      obtain ⟨_, -, hct, -⟩ := id hc
      exact Table.mem_of_get? hct
    rw [Timely, hcommand] at htimely
    exact hwithin.release ((hI c.tracker hmem hd).time.trans hclock)
      (htimely (j.item, c) (Db.delivered_of_finds he htags hc) hd u)
  · intro t ht
    rw [htrackers] at ht
    cases ht

/-- **A period limit refuses what does not fit.**  After a run of timely deliveries that starts
without operations and trackers, when every reverted operation was given back, no operation
without an owner stands on the owner's tracker, and the beneficiary's limit has room: a create
that throws `NotEnoughAvailableLimitException` because of the daily, monthly or yearly limit is of
a value that, with the owner's PENDING and ACCEPTED operations of the current day, month or year,
exceeds the limit. -/
theorem refused_only_exceeding (env : Env) {s : State} {ls : List (ℤ × Command)}
    (h : Along (step env) (fun s l => Forward s l ∧ Timely s l) s ls)
    (hops : s.world.db.operations.rows = [])
    (htrackers : s.world.db.userLimitTrackers.rows = []) (hevents : s.world.db.awaiting = [])
    {now : ℤ} {tag : String} {ownerInfo beneficiaryInfo : Option CreateOperationParticipant}
    (hlimit : ∀ user limitType,
      sideLimited env (run (step env) s ls).world.db tag ownerInfo = some (user, limitType) →
        limitType.periodStart = .DATE ∧ limitType.check = .OWNER)
    (hsettled : ∀ t ∈ sideTracker env (run (step env) s ls).world.db tag ownerInfo,
      Settled now (run (step env) s ls).world.db t)
    (hroom : BeneficiaryHasRoom env now (run (step env) s ls).world.db tag beneficiaryInfo)
    {used : UsedLimit} {v : ℤ}
    (hthrow : Fails (CreateOperationUseCase.execute env now tag ownerInfo beneficiaryInfo)
      (run (step env) s ls).world (.notEnoughAvailableLimit used v)) :
    RightlyRefused env now (run (step env) s ls).world.db tag ownerInfo beneficiaryInfo used v := by
  obtain ⟨hb, hwithin⟩ := run_within h (books_start env hops htrackers hevents) htrackers
  have hk : ∀ o ∈ (run (step env) s ls).world.db.operations.rows,
      Known env (run (step env) s ls).world.db o := by
    refine run_known ls fun o ho => ?_
    rw [hops] at ho
    cases ho
  generalize run (step env) s ls = s' at *
  obtain ⟨w', hthrow⟩ := hthrow
  rcases execute_refused hthrow with ⟨tt, q, w₁, w₂, hq, hw₁, herror⟩ |
    ⟨tt, q, w₁, w₂, hq, hcreated, herror⟩
  · obtain ⟨hv, limitType, c, flag, db', hlt, hfound, hused⟩ := checkUserLimits_error herror
    rw [hw₁] at hfound
    have looks : LooksAt env now 0 s'.world.db tt q limitType c.userLimit used :=
      ⟨hlt, c, flag, db', hfound, rfl, hused⟩
    obtain ⟨p, hp, hr⟩ := hq.requested
    have limited : sideLimited env s'.world.db tag ownerInfo = some (q.wallet.user, limitType) := by
      rw [hp, sideLimited_of_loaded hq.transactionType hr hq.loaded, LoadedParticipant.limited, hlt]
      rfl
    obtain ⟨hdate, hcheck⟩ := hlimit q.wallet.user limitType limited
    refine .owner tt q limitType c.userLimit hq looks hv fun u hexceeds => hexceeds.mono ?_
    refine looks.used_le hb hk hq.loaded hcheck (fun l t hl ht => ?_) u
    have htracker : sideTracker env s'.world.db tag ownerInfo = some t := by
      rw [sideTracker, limited]
      simp only [bind, Option.bind_some]
      rw [hl, Option.bind_some, ht]
    obtain ⟨htmem, hid⟩ := Db.userLimitTracker_of_find ht
    obtain ⟨l', lt, hl', -, hlt', hperiod⟩ := hb.limit t htmem
    -- The tracker has the period start of the limit type.
    rw [hid, (Db.userLimit_find hl).1] at hl'
    obtain rfl := Option.some.inj hl'
    rw [(Db.userLimit_of_find hl).2.2, limitTypeOf_find hlt] at hlt'
    obtain rfl := Option.some.inj hlt'
    exact ⟨hsettled t htracker, hperiod.trans hdate,
      (hwithin t htmem (hperiod.trans hdate)).counter⟩
  · obtain ⟨hv, limitType, c, flag, db', hlt, hfound, hused⟩ := checkUserLimits_error herror
    have looks : LooksAt env now 1 w₁.db tt q limitType c.userLimit used :=
      ⟨hlt, c, flag, db', hfound, rfl, hused⟩
    refine .beneficiary tt q limitType c.userLimit w₁.db hq hcreated looks hv ?_
    rw [hv]
    exact hroom tt q limitType c.userLimit w₁.db used hq hcreated looks

/-- 900 of a daily limit of 1000 are used, and 200 are refused. -/
theorem refused_only_exceeding_sample :
    RightlyRefused (Sample.env .DATE) Sample.noon
      (run (step (Sample.env .DATE)) (Sample.start 3000 0)
        [(Sample.noon, Sample.send 10 900)]).world.db
      "PIXSEND" (some (Sample.request 11 1 200)) none ⟨0, 900, 900, 900⟩ 200 := by
  refine refused_only_exceeding (Sample.env .DATE) (s := Sample.start 3000 0)
    (by decide +kernel) rfl rfl rfl ?_ ?_ ?_ (by decide +kernel)
  · intro user limitType h
    have e : sideLimited (Sample.env .DATE) (run (step (Sample.env .DATE)) (Sample.start 3000 0)
        [(Sample.noon, Sample.send 10 900)]).world.db "PIXSEND" (some (Sample.request 11 1 200))
          = some (1, Sample.limitType .DATE) := by decide +kernel
    obtain ⟨-, rfl⟩ := Prod.mk.inj (Option.some.inj (e.symm.trans h))
    exact ⟨rfl, rfl⟩
  · intro t _
    have owned : ∀ o ∈ (run (step (Sample.env .DATE)) (Sample.start 3000 0)
        [(Sample.noon, Sample.send 10 900)]).world.db.operations.rows, o.owner ≠ none := by
      decide +kernel
    exact ⟨by decide +kernel, fun o ho h => absurd h (owned o (Db.mem_standing.mp ho).1)⟩
  · intro tt q limitType l db' used hq
    obtain ⟨p, hp, -⟩ := hq.requested
    cases hp

/-- 600 and 300 are sent, and the 300 are reverted.  Their event arrives a day later, when nothing
was sent yet: 200 are refused for the day's limit of 1000. -/
theorem refused_earlier_day :
    let s := run (step (Sample.env .DATE)) (Sample.start 3000 0)
      [(Sample.noon, Sample.send 10 600), (Sample.noon, Sample.send 11 300),
        (Sample.noon, .revert 11), (Sample.noon + msPerDay, .deliver 2)]
    s.world.db.awaiting = [] ∧
      s.world.db.userLimitByUserAndLimitType 1 1 = some (Sample.userLimit 0) ∧
      Fails (CreateOperationUseCase.execute (Sample.env .DATE) (Sample.noon + msPerDay) "PIXSEND"
        (some (Sample.request 12 1 200)) none) s.world
        (.notEnoughAvailableLimit ⟨0, 900, 900, 600⟩ 200) ∧
      (Sample.userLimit 0).Exceeds .day 900 200 ∧
      ¬ (Sample.userLimit 0).Exceeds .day (s.world.db.used (Sample.env .DATE) 1
        (Sample.limitType .DATE) .day (Sample.noon + msPerDay)) 200 := by
  decide +kernel

end

end ZroServices
