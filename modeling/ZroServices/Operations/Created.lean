import ZroServices.Operations.CreateOperation

/-!
# Operations — what a created operation went through

The inversion of `CreateOperationUseCase`: from "the use case returned" to everything that it
found, checked and wrote, without its code.

* `checkUserLimits_charging` — a limit check that passed leaves a limit, created or found, and a
  tracker that is up to date and has room for the value (`Charging`).
* `loadParticipant_loaded`, `checkOwner_checked`, `checkBeneficiary_checked` — what is known of
  the two sides.
* `createOperation_stored` — what storing an operation does to the database
  (`OperationInfo.store`).
-/

namespace ZroServices

open Foundation

namespace Db

/-- A limit was created for a user that had none for the limit type, or nothing happened. -/
inductive LimitCreated (env : Env) (db : Db) : Db → Prop
  | same : LimitCreated env db db
  | created (l : UserLimit) (userLimits : Table UserLimit)
      (hl : db.userLimitByUserAndLimitType l.user l.limitType = none)
      (hvalues : ∃ g limitType, limitType.id = l.limitType ∧
        env.globalLimitByLimitType limitType = some g ∧ l.toLimitValues = g.toLimitValues)
      (hins : db.userLimits.insert? l = some userLimits) (hcredit : l.creditBalance = 0) :
      LimitCreated env db { db with userLimits, events := db.events ++ [.createdUserLimit l] }

variable {env : Env} {db db' : Db} {user : UserId} {limitType : LimitTypeId} {l : UserLimit}

theorem userLimit_of_find (h : db.userLimitByUserAndLimitType user limitType = some l) :
    l ∈ db.userLimits.rows ∧ l.user = user ∧ l.limitType = limitType := by
  have := List.find?_some h
  simp only [decide_eq_true_eq] at this
  exact ⟨List.mem_of_find?_eq_some h, this⟩

/-- A limit that is found is found after limits were created. -/
theorem LimitCreated.find (h : LimitCreated env db db')
    (hl : db.userLimitByUserAndLimitType user limitType = some l) :
    db'.userLimitByUserAndLimitType user limitType = some l := by
  cases h with
  | same => exact hl
  | created l' userLimits _ _ hins _ =>
      have hrows := (Table.insert?_eq_some hins).2
      change userLimits.rows.find? _ = some l
      rw [hrows, List.find?_append]
      change (db.userLimitByUserAndLimitType user limitType).or _ = _
      rw [hl]
      rfl

/-- The limits that a user has for a limit type, or gets when it has none. -/
def limitValues (env : Env) (db : Db) (user : UserId) (limitType : LimitType) :
    Option (LimitValues ℕ) :=
  match db.userLimitByUserAndLimitType user limitType.id with
  | some l => some l.toLimitValues
  | none => (env.globalLimitByLimitType limitType).map (·.toLimitValues)

theorem limitValues_of_find {limitType : LimitType}
    (h : db.userLimitByUserAndLimitType user limitType.id = some l) :
    db.limitValues env user limitType = some l.toLimitValues := by
  rw [limitValues, h]

section

variable (h : LimitCreated env db db')
include h

theorem LimitCreated.limitValues (user : UserId) (limitType : LimitType) :
    db'.limitValues env user limitType = db.limitValues env user limitType := by
  cases hf : db.userLimitByUserAndLimitType user limitType.id with
  | some l => rw [limitValues_of_find hf, limitValues_of_find (h.find hf)]
  | none =>
      cases h with
      | same => rfl
      | created l' userLimits _ hvalues hins _ =>
          have hfind : userLimits.rows.find?
              (fun l => decide (l.user = user ∧ l.limitType = limitType.id))
              = [l'].find? fun l => decide (l.user = user ∧ l.limitType = limitType.id) := by
            rw [(Table.insert?_eq_some hins).2, List.find?_append]
            change (db.userLimitByUserAndLimitType user limitType.id).or _ = _
            rw [hf, Option.none_or]
          rw [Db.limitValues, Db.limitValues, hf, userLimitByUserAndLimitType, hfind]
          by_cases e : l'.user = user ∧ l'.limitType = limitType.id
          · obtain ⟨g, limitType', hid, hg, hl'⟩ := hvalues
            rw [Env.globalLimitByLimitType, hid, e.2] at hg
            rw [Env.globalLimitByLimitType, hg]
            simp [e, hl']
          · simp [e]

theorem LimitCreated.operations : db'.operations = db.operations := by
  cases h <;> rfl

theorem LimitCreated.userLimitTrackers : db'.userLimitTrackers = db.userLimitTrackers := by
  cases h <;> rfl

theorem LimitCreated.walletAccounts : db'.walletAccounts = db.walletAccounts := by
  cases h <;> rfl

theorem LimitCreated.wallets : db'.wallets = db.wallets := by
  cases h <;> rfl

end

end Db

namespace CreateOperationUseCase

variable (env : Env) (now : ℤ)

/-- A tracker that is not stored, and that nothing stored refers to. -/
structure NewTracker (limitType : LimitType) (db : Db) (c : TrackedLimit) : Prop where
  userLimit : c.tracker.userLimit = c.userLimit.id
  periodStart : c.tracker.periodStart = limitType.periodStart
  used : ∀ u, c.tracker.used u = 0
  usedNightlyLimit : c.tracker.usedNightlyLimit = 0
  no_tracker : ∀ t ∈ db.userLimitTrackers.rows, t.userLimit ≠ c.userLimit.id ∧ t.id ≠ c.tracker.id
  no_operation : ∀ o ∈ db.operations.rows, o.userLimitTracker ≠ some c.tracker.id

/-- The tracker of the limit, up to date: the stored one restarted, or a new one. -/
inductive UpToDate (limitType : LimitType) (db : Db) (c : TrackedLimit) : Prop
  | stored (t : UserLimitTracker) (ht : db.userLimitTrackerByUserLimit c.userLimit = some t)
      (hc : c.tracker = restartUserLimitTracker env now c.userLimit t)
  | new (h : NewTracker limitType db c)

/-- A value may be charged for a participant: it is not limited, or the limit has room. -/
def Charging (transactionType : TransactionType) (db : Db) (p : LoadedParticipant) (value : ℤ) :
    Option TrackedLimit → Prop
  | none => limitTypeOf env p.walletAccount transactionType = none
  | some c => ∃ limitType, limitTypeOf env p.walletAccount transactionType = some limitType ∧
      db.userLimitByUserAndLimitType p.wallet.user limitType.id = some c.userLimit ∧
      UpToDate env now limitType db c ∧
      ∀ u, value + c.tracker.used u ≤ c.userLimit.periodLimit u

variable {env now} {transactionType : TransactionType} {limitType : LimitType} {db db' : Db}
  {p : LoadedParticipant} {value : ℤ} {drawn : ℕ} {user : UserId} {l : UserLimit}
  {c : TrackedLimit} {flag : Bool} {w w' : World}

/-! ### The limit check -/

theorem newTracker_new (h : ∀ t ∈ db.userLimitTrackers.rows, t.userLimit ≠ l.id) :
    NewTracker limitType db ⟨l, newTracker now drawn l limitType db⟩ where
  userLimit := rfl
  periodStart := rfl
  used u := by cases u <;> rfl
  usedNightlyLimit := rfl
  no_tracker t ht := by
    refine ⟨h t ht, Db.uuidV4_ne ?_⟩
    simp only [Db.uuids, List.mem_append]
    exact Or.inl (Or.inl (Or.inr (List.mem_map_of_mem ht)))
  no_operation o ho e := by
    have hmem : db.uuidV4 drawn ∈ db.uuids := by
      simp only [Db.uuids, List.mem_append]
      exact Or.inl (Or.inl (Or.inl (Or.inl (Or.inr (List.mem_filterMap.mpr ⟨o, ho, e⟩)))))
    exact Db.uuidV4_ne hmem rfl

theorem LimitFound.created_or (h : LimitFound env now drawn user limitType db db' c flag) :
    db.LimitCreated env db' := by
  cases h with
  | tracked | untracked => exact .same
  | created g T _ hl hg hins hdb =>
      subst hdb
      exact .created _ T hl ⟨g, limitType, rfl, hg, rfl⟩ hins rfl

/-- The limit that was found or created is the one that is found from then on. -/
theorem LimitFound.find (h : LimitFound env now drawn user limitType db db' c flag) :
    db'.userLimitByUserAndLimitType user limitType.id = some c.userLimit := by
  cases h with
  | tracked l t hl | untracked l hl => exact hl
  | created g T _ hl hg hins hdb =>
      subst hdb
      change T.rows.find? _ = _
      rw [(Table.insert?_eq_some hins).2, List.find?_append]
      change ((db.userLimitByUserAndLimitType user limitType.id).or _) = _
      rw [hl]
      simp [newUserLimit]

/-- A limit that was checked against the stored operations gets a new tracker. -/
theorem LimitFound.new (h : LimitFound env now drawn user limitType db db' c true) :
    NewTracker limitType db' c := by
  cases h with
  | untracked l hl ht =>
      refine newTracker_new fun t hmem e => ?_
      have := List.find?_eq_none.mp ht t hmem
      simp [e] at this
  | created g T _ hl hg hins hdb =>
      subst hdb
      refine newTracker_new fun t hmem => Db.uuidV4_ne ?_
      simp only [Db.uuids, List.mem_append]
      exact Or.inl (Or.inr (List.mem_map_of_mem hmem))

theorem LimitFound.upToDate (h : LimitFound env now drawn user limitType db db' c flag) :
    UpToDate env now limitType db' c := by
  cases flag with
  | true => exact .new h.new
  | false =>
      cases h with
      | tracked l t hl ht => exact .stored t ht rfl

/-- Whether the used limits are looked up, a new tracker has used nothing. -/
theorem LimitFound.used (h : LimitFound env now drawn user limitType db db' c flag)
    (hflag : flag = true) (u : MomentUnit) : c.tracker.used u = 0 := by
  cases h with
  | tracked => cases hflag
  | untracked | created => cases u <;> rfl

variable (env now) in
/-- How the limit that a participant is charged for was found. -/
def Found (drawn : ℕ) (transactionType : TransactionType) (p : LoadedParticipant) (db db' : Db)
    (r : Option TrackedLimit) : Prop :=
  ∀ c, r = some c → ∃ limitType flag, limitTypeOf env p.walletAccount transactionType
    = some limitType ∧ LimitFound env now drawn p.wallet.user limitType db db' c flag

/-- **A limit check that passed** found or created a limit with room for the value. -/
theorem checkUserLimits_charging {r : Option TrackedLimit}
    (h : checkUserLimits env now drawn p.wallet.user p.walletAccount transactionType value w
      = .ok r w') :
    ∃ db', w' = { w with db := db' } ∧ w.db.LimitCreated env db' ∧
      Found env now drawn transactionType p w.db db' r ∧
      Charging env now transactionType db' p value r := by
  rcases checkUserLimits_ok h with ⟨rfl, hnone, rfl⟩ |
    ⟨limitType, c, flag, db', rfl, hlt, hfound, rfl, hlimits, hused⟩
  · exact ⟨w'.db, rfl, .same, fun c hc => (by cases hc), hnone⟩
  · refine ⟨db', rfl, hfound.created_or, fun c' hc' => ?_, limitType, hlt, hfound.find,
      hfound.upToDate, fun u => ?_⟩
    · cases hc'
      exact ⟨limitType, flag, hlt, hfound⟩
    cases hflag : flag with
    | true =>
        rw [hfound.used hflag, add_zero]
        exact le_periodLimit hlimits u
    | false =>
        have := add_used_le_periodLimit (not_exceedsPeriods hused) u
        rwa [usedOf, hflag, if_neg Bool.false_ne_true, UserLimitTracker.usedLimit_period] at this

/-- `db'` has every limit and tracker that `db` has, and its operations refer to no others. -/
structure Extends (db db' : Db) : Prop where
  find : ∀ user limitType l, db.userLimitByUserAndLimitType user limitType = some l →
    db'.userLimitByUserAndLimitType user limitType = some l
  trackers : db'.userLimitTrackers = db.userLimitTrackers
  refers : ∀ o ∈ db'.operations.rows, ∀ id, o.userLimitTracker = some id →
    ∃ o' ∈ db.operations.rows, o'.userLimitTracker = some id

theorem Extends.refl (db : Db) : Extends db db := ⟨fun _ _ _ h => h, rfl, fun o ho _ e => ⟨o, ho, e⟩⟩

theorem Extends.trans {db db' db'' : Db} (h : Extends db db') (h' : Extends db' db'') :
    Extends db db'' where
  find user limitType l hl := h'.find _ _ _ (h.find _ _ _ hl)
  trackers := h'.trackers.trans h.trackers
  refers o ho id e := by
    obtain ⟨o', ho', e'⟩ := h'.refers o ho id e
    exact h.refers o' ho' id e'

theorem limitCreated_extends (h : db.LimitCreated env db') : Extends db db' where
  find _ _ _ := h.find
  trackers := h.userLimitTrackers
  refers o ho id e := ⟨o, by rwa [h.operations] at ho, e⟩

theorem NewTracker.extend (h : NewTracker limitType db c) (hx : Extends db db') :
    NewTracker limitType db' c := by
  refine ⟨h.userLimit, h.periodStart, h.used, h.usedNightlyLimit, ?_, fun o ho e => ?_⟩
  · rw [hx.trackers]
    exact h.no_tracker
  · obtain ⟨o', ho', e'⟩ := hx.refers o ho _ e
    exact h.no_operation o' ho' e'

theorem UpToDate.extend (h : UpToDate env now limitType db c) (hx : Extends db db') :
    UpToDate env now limitType db' c := by
  cases h with
  | stored t ht hc =>
      refine .stored t ?_ hc
      rw [Db.userLimitTrackerByUserLimit, hx.trackers]
      exact ht
  | new h => exact .new (h.extend hx)

/-- What may be charged may be charged later, and so may less. -/
theorem Charging.extend {v : ℤ} {r : Option TrackedLimit}
    (h : Charging env now transactionType db p value r) (hx : Extends db db') (hv : v ≤ value) :
    Charging env now transactionType db' p v r := by
  cases r with
  | none => exact h
  | some c =>
      obtain ⟨limitType, hlt, hl, hc, hfits⟩ := h
      exact ⟨limitType, hlt, hx.find _ _ _ hl, hc.extend hx, fun u =>
        (add_le_add hv (le_refl _)).trans (hfits u)⟩

/-- With two currencies, at most one side is limited. -/
theorem Charging.owner_none {q : LoadedParticipant} {v v' : ℤ}
    {r : Option TrackedLimit} (hp : Charging env now transactionType db p v r)
    (hq : Charging env now transactionType db' q v' (some c))
    (hne : p.walletAccount.currency.id ≠ q.walletAccount.currency.id) : r = none := by
  cases r with
  | none => rfl
  | some c' =>
      obtain ⟨l, hl, -⟩ := hp
      obtain ⟨l', hl', -⟩ := hq
      rw [limitTypeOf, Option.filter_eq_some_iff, decide_eq_true_eq] at hl hl'
      have e : l = l' := Option.some.inj (hl.1.symm.trans hl'.1)
      rw [e] at hl
      exact absurd (Option.some.inj (hl.2.symm.trans hl'.2)) hne

/-! ### The two sides -/

/-- A participant as it was loaded. -/
structure Loaded (env : Env) (db : Db) (p : LoadedParticipant) : Prop where
  wallet : db.wallets.get? p.info.wallet = some p.wallet
  walletActive : p.wallet.isActive
  walletAccount : db.walletAccounts.get? p.walletAccount.id = some p.walletAccount
  walletAccountActive : p.walletAccount.isActive
  ofWallet : p.walletAccount.wallet = p.wallet.uuid
  currency : ∃ c, env.currencyByTag p.info.currency = some c ∧ c.isActive ∧
    db.walletAccountByWalletAndCurrency p.wallet c = some p.walletAccount

theorem loadParticipant_loaded {i : Participant}
    (h : loadParticipant env i w = .ok p w') : p.info = i ∧ w' = w ∧ Loaded env w.db p := by
  simp only [loadParticipant, bind_ok, orThrow_ok, throwIf_ok, readDb_ok, pure_ok] at h
  obtain ⟨c, _, ⟨hc, rfl⟩, _, _, ⟨hcActive, rfl⟩, _, _, ⟨rfl, rfl⟩, wallet, _, ⟨hw, rfl⟩,
    _, _, ⟨hwActive, rfl⟩, _, _, ⟨rfl, rfl⟩, a, _, ⟨ha, rfl⟩, _, _, ⟨haActive, rfl⟩, rfl, rfl⟩ := h
  have found := List.find?_some ha
  simp only [decide_eq_true_eq] at found
  exact ⟨rfl, rfl, hw, not_not.mp hwActive, Table.get?_of_mem (List.mem_of_find?_eq_some ha),
    not_not.mp haActive, found.1, c, hc, not_not.mp hcActive, ha⟩

theorem walletAccountLiability_world {cache : List PendingWalletAccountTransaction}
    {a : WalletAccount} {x : ℤ} (h : walletAccountLiability env now cache a w = .ok x w') :
    w' = w := by
  simp only [walletAccountLiability] at h
  split at h
  · split at h
    · exact (pure_ok.mp h).2
    · simp only [bind_ok, orThrow_ok, pure_ok] at h
      obtain ⟨_, _, ⟨-, rfl⟩, -, rfl⟩ := h
      rfl
  · exact (pure_ok.mp h).2

theorem liability_world {cache : List PendingWalletAccountTransaction}
    {as : List WalletAccount} {x : ℤ} (h : liability env now cache as w = .ok x w') : w' = w := by
  induction as generalizing x with
  | nil => exact (pure_ok.mp h).2
  | cons a as ih =>
      simp only [liability, bind_ok, pure_ok] at h
      obtain ⟨x, w₁, hx, y, w₂, hy, -, rfl⟩ := h
      obtain rfl := walletAccountLiability_world hx
      exact ih hy

theorem checkCreditBalance_world {wallet : Wallet} {credit : ℕ} {b : Bool}
    (h : checkCreditBalance env now wallet credit w = .ok b w') : w' = w := by
  simp only [checkCreditBalance, bind_ok, readDb_ok, throwIf_ok, get_ok, pure_ok] at h
  obtain ⟨_, _, ⟨rfl, rfl⟩, _, _, ⟨-, rfl⟩, _, _, ⟨rfl, rfl⟩, _, _, hl, -, rfl⟩ := h
  exact liability_world hl

theorem hasCreditBalance_ok {wallet : Wallet} {credit : ℕ} {b : Bool}
    (h : hasCreditBalance env now wallet credit w = .ok b w') :
    w' = w ∧ (b = true → 0 < credit ∧ checkCreditBalance env now wallet credit w = .ok true w) := by
  rw [hasCreditBalance] at h
  split at h
  · rename_i hpos
    obtain rfl := checkCreditBalance_world h
    exact ⟨rfl, fun hb => ⟨hpos, hb ▸ h⟩⟩
  · obtain ⟨rfl, rfl⟩ := pure_ok.mp h
    exact ⟨rfl, fun hb => absurd hb Bool.false_ne_true⟩

variable (env now) in
/-- The owner may spend more than its balance: it has credit, and its accounts owe less. -/
def Credit (transactionType : TransactionType) (w : World) (wallet : Wallet) : Prop :=
  0 < getUserCreditBalance env transactionType wallet.user w.db ∧
    checkCreditBalance env now wallet
      (getUserCreditBalance env transactionType wallet.user w.db) w = .ok true w

variable (env now) in
/-- What the checks of the owner, made in `w`, found; `db` is the database they left. -/
structure OwnerChecked (transactionType : TransactionType) (w : World) (db : Db)
    (o : OwnerSide) : Prop where
  amount : o.amount = availableAmount o.info o.walletAccount.balance
  funds : o.amount.value ≤ o.walletAccount.balance ∨ Credit env now transactionType w o.wallet
  found : Found env now 0 transactionType o.toLoadedParticipant w.db db o.userLimitTracker
  limit : Charging env now transactionType db o.toLoadedParticipant o.amount.value
    o.userLimitTracker

theorem checkOwner_checked {o : OwnerSide} (h : checkOwner env now transactionType p w = .ok o w') :
    o.toLoadedParticipant = p ∧ ∃ db', w' = { w with db := db' } ∧ w.db.LimitCreated env db' ∧
      OwnerChecked env now transactionType w db' o := by
  simp only [checkOwner, bind_ok, readDb_ok, throwIf_ok, pure_ok] at h
  obtain ⟨_, _, ⟨rfl, rfl⟩, b, w₁, hb, _, w₂, ⟨hfunds, e⟩, r, w₃, hcheck, rfl, rfl⟩ := h
  subst e
  obtain ⟨rfl, hcredit⟩ := hasCreditBalance_ok hb
  obtain ⟨db', rfl, hcreated, hfound, hcharging⟩ := checkUserLimits_charging hcheck
  refine ⟨rfl, db', rfl, hcreated, rfl, ?_, hfound, hcharging⟩
  by_cases hbal : p.walletAccount.balance < (availableAmount p.info p.walletAccount.balance).value
  · right
    exact hcredit (by_contra fun hb' => hfunds ⟨hbal, hb'⟩)
  · left
    exact not_lt.mp hbal

theorem checkBeneficiary_checked {b : BeneficiarySide}
    (h : checkBeneficiary env now transactionType p w = .ok b w') :
    b.toLoadedParticipant = p ∧ ∃ db', w' = { w with db := db' } ∧ w.db.LimitCreated env db' ∧
      Found env now 1 transactionType b.toLoadedParticipant w.db db' b.userLimitTracker ∧
      Charging env now transactionType db' b.toLoadedParticipant b.info.rawValue
        b.userLimitTracker := by
  simp only [checkBeneficiary, bind_ok, pure_ok] at h
  obtain ⟨r, w₁, hcheck, rfl, rfl⟩ := h
  obtain ⟨db', rfl, hcreated, hcharging⟩ := checkUserLimits_charging hcheck
  exact ⟨rfl, db', rfl, hcreated, hcharging⟩

end CreateOperationUseCase

/-! ### What is stored -/

namespace OperationInfo

open CreateOperationUseCase

variable (env : Env) (now : ℤ) (transactionType : TransactionType)

/-- The participant whose info is used, with its wallet account. -/
def charged : OperationInfo → LoadedParticipant
  | owner o | shared o _ => o.toLoadedParticipant
  | beneficiary b => b.toLoadedParticipant

/-- The operation as it is stored. -/
def operation (i : OperationInfo) : Operation :=
  match i.userLimitTracker with
  | some c => (updateUserLimitTrackerAndOperation env now c (i.newOperation now transactionType)).2
  | none => i.newOperation now transactionType

/-- The trackers after the operation was charged. -/
def userLimitTrackers (i : OperationInfo) (t : Table UserLimitTracker) : Table UserLimitTracker :=
  match i.userLimitTracker with
  | some c => t.upsert { chargeTracker env now c.userLimit c.tracker i.value with updatedAt := now }
  | none => t

/-- The wallet accounts after the owner's balance was blocked. -/
def walletAccounts (i : OperationInfo) (t : Table WalletAccount) : Table WalletAccount :=
  match i.ownerSide with
  | some o => t.set (blocked i.value o.walletAccount)
  | none => t

/-- The database after the operation was stored, with its table of operations. -/
def store (i : OperationInfo) (operations : Table Operation) (db : Db) : Db :=
  { db with
    operations
    userLimitTrackers := i.userLimitTrackers env now db.userLimitTrackers
    walletAccounts := i.walletAccounts db.walletAccounts }

variable {env now transactionType} {i : OperationInfo}

@[simp] theorem operation_id : (i.operation env now transactionType).id = i.info.operation := by
  rw [operation]
  cases i.userLimitTracker <;> rfl

@[simp] theorem operation_state : (i.operation env now transactionType).state = .PENDING := by
  rw [operation]
  cases i.userLimitTracker <;> rfl

@[simp] theorem operation_owner :
    (i.operation env now transactionType).owner = i.ownerSide.map (·.party) := by
  rw [operation]
  cases i.userLimitTracker <;> rfl

@[simp] theorem operation_beneficiary :
    (i.operation env now transactionType).beneficiary = i.beneficiarySide.map (·.party) := by
  rw [operation]
  cases i.userLimitTracker <;> rfl

@[simp] theorem operation_value : (i.operation env now transactionType).value = i.value := by
  rw [operation]
  cases i.userLimitTracker <;> rfl

@[simp] theorem operation_rawValue :
    (i.operation env now transactionType).rawValue = i.rawValue := by
  rw [operation]
  cases i.userLimitTracker <;> rfl

@[simp] theorem operation_fee : (i.operation env now transactionType).fee = |i.fee| := by
  rw [operation]
  cases i.userLimitTracker <;> rfl

@[simp] theorem operation_createdAt : (i.operation env now transactionType).createdAt = now := by
  rw [operation]
  cases i.userLimitTracker <;> rfl

@[simp] theorem operation_transactionType :
    (i.operation env now transactionType).transactionType = transactionType := by
  rw [operation]
  cases i.userLimitTracker <;> rfl

@[simp] theorem operation_currency :
    (i.operation env now transactionType).currency = i.currency := by
  rw [operation]
  cases i.userLimitTracker <;> rfl

@[simp] theorem operation_userLimitTracker :
    (i.operation env now transactionType).userLimitTracker
      = i.userLimitTracker.map (·.tracker.id) := by
  rw [operation]
  cases i.userLimitTracker <;> rfl

@[simp] theorem operation_analysisTags :
    (i.operation env now transactionType).analysisTags
      = (i.userLimitTracker.map fun c => limitIncludedTags c.tracker.periodStart).getD [] := by
  rw [operation]
  cases i.userLimitTracker <;> rfl

end OperationInfo

namespace CreateOperationUseCase

variable {env : Env} {now : ℤ} {transactionType : TransactionType} {w w' : World}
  {pending : List PendingWalletAccountTransaction}

theorem chargeOperation_ok {i : OperationInfo} {o : Operation}
    (h : chargeOperation env now i (i.newOperation now transactionType) w = .ok o w') :
    o = i.operation env now transactionType ∧ w' = { w with db := { w.db with
      userLimitTrackers := i.userLimitTrackers env now w.db.userLimitTrackers } } := by
  rw [chargeOperation] at h
  rw [OperationInfo.operation, OperationInfo.userLimitTrackers]
  cases hc : i.userLimitTracker with
  | none =>
      rw [hc] at h
      exact pure_ok.mp h
  | some c =>
      rw [hc] at h
      simp only [bind_ok, UserLimitTrackerRepository.createOrUpdate_ok, pure_ok] at h
      obtain ⟨_, _, rfl, rfl, rfl⟩ := h
      exact ⟨rfl, rfl⟩

theorem blockOwnerBalance_ok {i : OperationInfo} {t : Unit} (h : blockOwnerBalance i w = .ok t w') :
    w' = { w with db := { w.db with
      walletAccounts := i.walletAccounts w.db.walletAccounts } } := by
  rw [blockOwnerBalance] at h
  rw [OperationInfo.walletAccounts]
  cases ho : i.ownerSide with
  | none =>
      rw [ho] at h
      exact (pure_ok.mp h).2
  | some o =>
      rw [ho] at h
      simp only [blockWalletAccountBalance, WalletAccountRepository.update_ok] at h
      exact h

/-- **What storing an operation does to the database.** -/
theorem createOperation_stored {i : OperationInfo} {o : Operation}
    (h : createOperation env now pending transactionType i w = .ok o w') :
    o = i.operation env now transactionType ∧ ∃ t,
      w.db.operations.insert? (i.operation env now transactionType) = some t ∧
        w'.db = i.store env now t w.db := by
  simp only [createOperation, bind_ok, pure_ok, removePendingWalletAccountTransaction,
    PendingWalletAccountTransactionRepository.createOrUpdate_ok] at h
  obtain ⟨o₁, w₁, hcharge, o₂, w₂, hcreate, _, _, rfl, _, w₄, hblock, rfl, rfl⟩ := h
  obtain ⟨rfl, rfl⟩ := chargeOperation_ok hcharge
  obtain ⟨stored, t, hins, rfl⟩ := OperationRepository.create_ok hcreate
  obtain rfl := blockOwnerBalance_ok hblock
  exact ⟨stored, t, hins, rfl⟩

/-- An operation that refers to another. -/
def linked (o : Operation) (other : Uuid) : Operation := { o with operationRef := some other }

variable (env now transactionType) in
/-- What is stored for the two sides: one operation, or one for each currency. -/
inductive Stored : Option OwnerSide → Option BeneficiarySide → Db → Db → CreatedOperation → Prop
  | single (i : OperationInfo) (db : Db) (t : Table Operation)
      (hcurrency : ∀ o b, i = .shared o b →
        o.walletAccount.currency.id = b.walletAccount.currency.id)
      (hins : db.operations.insert? (i.operation env now transactionType) = some t) :
      Stored i.ownerSide i.beneficiarySide db (i.store env now t db)
        ⟨i.ownerSide.map fun _ => i.operation env now transactionType,
          i.beneficiarySide.map fun _ => i.operation env now transactionType⟩
  | independent (o : OwnerSide) (b : BeneficiarySide) (db db₁ db₂ : Db) (t₁ t₂ : Table Operation)
      (o₁ o₂ : Operation)
      (hcurrency : o.walletAccount.currency.id ≠ b.walletAccount.currency.id)
      (ho₁ : o₁ = (OperationInfo.owner o).operation env now transactionType)
      (ho₂ : o₂ = (OperationInfo.beneficiary b).operation env now transactionType)
      (hins₁ : db.operations.insert? o₁ = some t₁)
      (hdb₁ : db₁ = (OperationInfo.owner o).store env now t₁ db)
      (hins₂ : db₁.operations.insert? o₂ = some t₂)
      (hdb₂ : db₂ = (OperationInfo.beneficiary b).store env now t₂ db₁) :
      Stored (some o) (some b) db
        { db₂ with operations :=
            (db₂.operations.set (linked o₁ o₂.id)).set (linked o₂ o₁.id) }
        ⟨some (linked o₁ o₂.id), some (linked o₂ o₁.id)⟩

theorem createOperations_stored {owner : Option OwnerSide} {beneficiary : Option BeneficiarySide}
    {r : CreatedOperation}
    (h : createOperations env now pending transactionType owner beneficiary w = .ok r w') :
    Stored env now transactionType owner beneficiary w.db w'.db r := by
  cases owner with
  | some o =>
      cases beneficiary with
      | some b =>
          rw [createOperations] at h
          split at h
          · rename_i hne
            simp only [createIndependentOperations, bind_ok, OperationRepository.update_ok,
              pure_ok] at h
            obtain ⟨o₁, w₁, h₁, o₂, w₂, h₂, _, _, rfl, _, _, rfl, rfl, rfl⟩ := h
            obtain ⟨rfl, t₁, hins₁, hdb₁⟩ := createOperation_stored h₁
            obtain ⟨rfl, t₂, hins₂, hdb₂⟩ := createOperation_stored h₂
            exact .independent o b w.db w₁.db w₂.db t₁ t₂ _ _ hne rfl rfl hins₁ hdb₁ hins₂ hdb₂
          · rename_i heq
            simp only [bind_ok, pure_ok] at h
            obtain ⟨o', w₁, h₁, rfl, rfl⟩ := h
            obtain ⟨rfl, t, hins, hdb⟩ := createOperation_stored h₁
            rw [hdb]
            refine .single (.shared o b) w.db t (fun o' b' e => ?_) hins
            cases e
            exact not_not.mp heq
      | none =>
          simp only [createOperations, bind_ok, pure_ok] at h
          obtain ⟨o', w₁, h₁, rfl, rfl⟩ := h
          obtain ⟨rfl, t, hins, hdb⟩ := createOperation_stored h₁
          rw [hdb]
          exact .single (.owner o) w.db t (fun o' b' e => by cases e) hins
  | none =>
      cases beneficiary with
      | some b =>
          simp only [createOperations, bind_ok, pure_ok] at h
          obtain ⟨o', w₁, h₁, rfl, rfl⟩ := h
          obtain ⟨rfl, t, hins, hdb⟩ := createOperation_stored h₁
          rw [hdb]
          exact .single (.beneficiary b) w.db t (fun o' b' e => by cases e) hins
      | none => exact absurd h throw_ok

/-! ### The whole execution -/

/-- The checked participant has the fields of the request. -/
structure Requested (p : CreateOperationParticipant) (i : Participant) : Prop where
  operation : p.operation = some i.operation
  wallet : p.wallet = some i.wallet
  currency : p.currency = some i.currency
  rawValue : p.rawValue = some i.rawValue
  fee : p.fee = some i.fee
  allow : p.ownerAllowAvailableRawValue = i.ownerAllowAvailableRawValue

theorem checkInputData_requested {p : CreateOperationParticipant} {i : Participant}
    (h : checkInputData p w = .ok i w') : w' = w ∧ Requested p i := by
  simp only [checkInputData, bind_ok, orThrow_ok] at h
  obtain ⟨_, _, ⟨ho, rfl⟩, _, _, ⟨hw, rfl⟩, _, _, ⟨hc, rfl⟩, _, _, ⟨hd, rfl⟩, _, _, ⟨hr, rfl⟩,
    _, _, ⟨hf, rfl⟩, h⟩ := h
  split at h
  · exact absurd h throw_ok
  · split at h
    · exact absurd h throw_ok
    · obtain ⟨rfl, rfl⟩ := pure_ok.mp h
      exact ⟨rfl, ho, hw, (Option.filter_eq_some_iff.mp hc).1,
        (Option.filter_eq_some_iff.mp hr).1, hf, rfl⟩

theorem checkTransactionType_ok {tag : String} {hasOwner hasBeneficiary : Bool}
    (h : checkTransactionType env tag hasOwner hasBeneficiary w = .ok transactionType w') :
    w' = w ∧ env.transactionTypeByTag tag = some transactionType := by
  simp only [checkTransactionType, bind_ok, orThrow_ok, throwIf_ok, pure_ok] at h
  obtain ⟨t, _, ⟨ht, rfl⟩, _, _, ⟨-, rfl⟩, _, _, ⟨-, rfl⟩, _, _, ⟨-, rfl⟩, _, _, ⟨-, rfl⟩,
    _, _, ⟨-, rfl⟩, rfl, rfl⟩ := h
  exact ⟨rfl, ht⟩

/-- The cache once the pending entries of the two sides are written. -/
def pendingCache (owner beneficiary : Option LoadedParticipant)
    (cache : List PendingWalletAccountTransaction) : List PendingWalletAccountTransaction :=
  (beneficiary.map pendingBeneficiary).toList.foldl PendingWalletAccountTransactionRepository.put
    ((owner.map pendingOwner).toList.foldl PendingWalletAccountTransactionRepository.put cache)

variable (env now) in
/-- An execution of `CreateOperationUseCase` that returned: the sides it checked, and the
databases after the limit checks (`db₁`, `db₂`) and after the operations were stored (`db₃`). -/
structure Execution (tag : String)
    (ownerInfo beneficiaryInfo : Option CreateOperationParticipant) (w w' : World)
    (r : CreatedOperation) (tt : TransactionType) (owner : Option OwnerSide)
    (beneficiary : Option BeneficiarySide) (db₁ db₂ db₃ : Db) : Prop where
  transactionType : env.transactionTypeByTag tag = some tt
  ownerRequested : Option.Rel Requested ownerInfo (owner.map (·.info))
  beneficiaryRequested : Option.Rel Requested beneficiaryInfo (beneficiary.map (·.info))
  ownerLoaded : ∀ o, owner = some o → Loaded env w.db o.toLoadedParticipant
  beneficiaryLoaded : ∀ b, beneficiary = some b → Loaded env w.db b.toLoadedParticipant
  ownerLimit : w.db.LimitCreated env db₁
  ownerChecked : ∀ o, owner = some o → OwnerChecked env now tt
    ⟨w.db, pendingCache (owner.map (·.toLoadedParticipant))
      (beneficiary.map (·.toLoadedParticipant)) w.cache⟩ db₁ o
  beneficiaryLimit : db₁.LimitCreated env db₂
  beneficiaryFound : ∀ b, beneficiary = some b →
    Found env now 1 tt b.toLoadedParticipant db₁ db₂ b.userLimitTracker
  beneficiaryChecked : ∀ b, beneficiary = some b →
    Charging env now tt db₂ b.toLoadedParticipant b.info.rawValue b.userLimitTracker
  stored : Stored env now tt owner beneficiary db₂ db₃ r
  event : ∃ e, OperationEventEmitter.About e r.ownerOperation r.beneficiaryOperation ∧
    w'.db = { db₃ with events := db₃.events ++ [.operation .PENDING e] }

theorem load_loaded {i : Option Participant} {r : Option LoadedParticipant}
    (h : forSome i (loadParticipant env) w = .ok r w') :
    i = r.map (·.info) ∧ w' = w ∧ ∀ p, r = some p → Loaded env w.db p := by
  rcases forSome_ok.mp h with ⟨rfl, rfl, rfl⟩ | ⟨i, p, rfl, rfl, hp⟩
  · exact ⟨rfl, rfl, fun p hp => by cases hp⟩
  · obtain ⟨rfl, rfl, hl⟩ := loadParticipant_loaded hp
    exact ⟨rfl, rfl, fun p hp => by cases hp; exact hl⟩

theorem input_requested {p : Option CreateOperationParticipant} {i : Option Participant}
    (h : forSome p checkInputData w = .ok i w') : w' = w ∧ Option.Rel Requested p i := by
  rcases forSome_ok.mp h with ⟨rfl, rfl, rfl⟩ | ⟨p, i, rfl, rfl, hp⟩
  · exact ⟨rfl, .none⟩
  · obtain ⟨rfl, hr⟩ := checkInputData_requested hp
    exact ⟨rfl, .some hr⟩

theorem owner_checked {p : Option LoadedParticipant} {o : Option OwnerSide}
    (h : forSome p (checkOwner env now transactionType) w = .ok o w') :
    p = o.map (·.toLoadedParticipant) ∧ ∃ db', w' = { w with db := db' } ∧
      w.db.LimitCreated env db' ∧ ∀ s, o = some s → OwnerChecked env now transactionType w db' s := by
  rcases forSome_ok.mp h with ⟨rfl, rfl, rfl⟩ | ⟨p, s, rfl, rfl, hs⟩
  · exact ⟨rfl, w'.db, rfl, .same, fun s hs => by cases hs⟩
  · obtain ⟨rfl, db', rfl, hc, ho⟩ := checkOwner_checked hs
    exact ⟨rfl, db', rfl, hc, fun s hs => by cases hs; exact ho⟩

theorem beneficiary_checked {p : Option LoadedParticipant} {b : Option BeneficiarySide}
    (h : forSome p (checkBeneficiary env now transactionType) w = .ok b w') :
    p = b.map (·.toLoadedParticipant) ∧ ∃ db', w' = { w with db := db' } ∧
      w.db.LimitCreated env db' ∧ ∀ s, b = some s →
        Found env now 1 transactionType s.toLoadedParticipant w.db db' s.userLimitTracker ∧
        Charging env now transactionType db' s.toLoadedParticipant s.info.rawValue
          s.userLimitTracker := by
  rcases forSome_ok.mp h with ⟨rfl, rfl, rfl⟩ | ⟨p, s, rfl, rfl, hs⟩
  · exact ⟨rfl, w'.db, rfl, .same, fun s hs => by cases hs⟩
  · obtain ⟨rfl, db', rfl, hc, hfound, hb⟩ := checkBeneficiary_checked hs
    exact ⟨rfl, db', rfl, hc, fun s hs => by cases hs; exact ⟨hfound, hb⟩⟩

/-- **Everything an execution that returned went through.** -/
theorem execute_ok {tag : String} {ownerInfo beneficiaryInfo : Option CreateOperationParticipant}
    {r : CreatedOperation} (h : execute env now tag ownerInfo beneficiaryInfo w = .ok r w') :
    ∃ tt owner beneficiary db₁ db₂ db₃,
      Execution env now tag ownerInfo beneficiaryInfo w w' r tt owner beneficiary
        db₁ db₂ db₃ := by
  simp only [execute, bind_ok, throwIf_ok, onThrow_ok,
    PendingWalletAccountTransactionRepository.createOrUpdate_ok] at h
  obtain ⟨_, _, ⟨-, rfl⟩, _, _, ⟨-, rfl⟩, io, _, hio, ib, _, hib, tt, _, htt, po, _, hpo,
    _, _, rfl, pb, _, hpb, _, _, rfl, h⟩ := h
  obtain ⟨rfl, ro⟩ := input_requested hio
  obtain ⟨rfl, rb⟩ := input_requested hib
  obtain ⟨rfl, found⟩ := checkTransactionType_ok htt
  obtain ⟨rfl, rfl, lo⟩ := load_loaded hpo
  obtain ⟨rfl, rfl, lb⟩ := load_loaded hpb
  simp only [checkAndCreate, bind_ok, pure_ok] at h
  obtain ⟨o, _, ho, b, _, hb, r', w₅, hr, _, w₆, he, rfl, rfl⟩ := h
  obtain ⟨rfl, db₁, rfl, hc₁, co⟩ := owner_checked ho
  obtain ⟨rfl, db₂, rfl, hc₂, cb⟩ := beneficiary_checked hb
  obtain ⟨e, about, rfl⟩ := OperationEventEmitter.emitOperationEvent_ok he
  refine ⟨tt, o, b, db₁, db₂, w₅.db, found, ?_, ?_, ?_, ?_, hc₁, co, hc₂,
    fun s hs => (cb s hs).1, fun s hs => (cb s hs).2, createOperations_stored hr, e, about, rfl⟩
  · rwa [Option.map_map] at ro
  · rwa [Option.map_map] at rb
  · intro s hs
    exact lo _ (congrArg (Option.map _) hs)
  · intro s hs
    exact lb _ (congrArg (Option.map _) hs)

end CreateOperationUseCase

end ZroServices
