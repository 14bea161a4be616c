import ZroServices.Operations.FirstCheck

/-!
# Operations — usage is recorded for the sides that count

A limit type says which sides of an operation count (`LimitTypeCheck`).  A limit without a tracker
is checked so: against the operations that have the user's wallet account on such a side
(`getUsedLimit`).  A tracker is charged otherwise: with the operation of the owner, and with that of
the beneficiary when there is no owner, whatever the limit type says.

The two agree on a day that starts without operations and trackers (`UsageRecorded`) when every
request enters the account it charges, and no other, into the histories (`Even`): `run_recorded`.
In between stands the sum over the operations of the values that count for an account
(`Db.history`), which `getUsedLimit` computes on such a day (`getUsedLimit_eq_history`).
-/

namespace ZroServices

open Foundation
open CreateOperationUseCase

/-! ### The history of an account -/

/-- The number of sides that the account takes, of those that the limit type looks at. -/
def Operation.sides (o : Operation) (limitType : LimitType) (a : WalletAccountId) : ℤ :=
  (if (limitType.check = .BOTH ∨ limitType.check = .OWNER) ∧
      o.owner.map (·.walletAccount) = some a then 1 else 0)
    + if (limitType.check = .BOTH ∨ limitType.check = .BENEFICIARY) ∧
      o.beneficiary.map (·.walletAccount) = some a then 1 else 0

/-- What an operation adds to the history of an account. -/
def Operation.share (env : Env) (limitType : LimitType) (a : WalletAccountId) (o : Operation) : ℤ :=
  if o.limitType env = some limitType then o.sides limitType a * o.value else 0

/-- The sum of the values that count for an account. -/
def Db.history (env : Env) (limitType : LimitType) (a : WalletAccountId) (db : Db) : ℤ :=
  db.operations.total (·.share env limitType a)

/-- A wallet account of a user, in the currency of the limit type. -/
structure AccountOf (db : Db) (limitType : LimitType) (user : UserId) (a : WalletAccount) :
    Prop where
  stored : db.walletAccounts.get? a.id = some a
  currency : limitType.currency = some a.currency.id
  user : ∃ w, db.wallets.get? a.wallet = some w ∧ w.user = user

/-- Nobody has two wallet accounts in the currency of the limit type. -/
def OneAccount (db : Db) (limitType : LimitType) : Prop :=
  ∀ user a a', AccountOf db limitType user a → AccountOf db limitType user a' → a.id = a'.id

/-- The user has a tracker for the limit type. -/
def Db.Tracked (db : Db) (limitType : LimitType) (user : UserId) : Prop :=
  ∃ t ∈ db.userLimitTrackers.rows, ∃ l, db.userLimits.get? t.userLimit = some l ∧
    l.user = user ∧ l.limitType = limitType.id

/-- The trackers of the limit type have used what `getUsedLimit` computes, and whoever has a
history has a tracker. -/
structure UsageRecorded (env : Env) (limitType : LimitType) (now : ℤ) (db : Db) : Prop where
  used : ∀ t ∈ db.userLimitTrackers.rows, ∀ l, db.userLimits.get? t.userLimit = some l →
    l.limitType = limitType.id → ∀ a, AccountOf db limitType l.user a →
    ∀ u, t.used u = (getUsedLimit env now a l limitType db).period u
  tracked : ∀ user a, AccountOf db limitType user a →
    (∃ o ∈ db.operations.rows, o.Counted env now limitType a .year) → db.Tracked limitType user

/-! ### The condition -/

/-- A side of a request that the limit type limits, as it is loaded. -/
def LimitedSide (env : Env) (db : Db) (limitType : LimitType) (tag : String)
    (side : Option CreateOperationParticipant) (q : LoadedParticipant) : Prop :=
  ∃ tt, Names env db tag side tt q ∧ limitTypeOf env q.walletAccount tt = some limitType

/-- What an owner pays, fee included. -/
def LoadedParticipant.pays (q : LoadedParticipant) : ℤ :=
  (availableAmount q.info q.walletAccount.balance).value

/-- What a beneficiary is credited with. -/
def LoadedParticipant.receives (q : LoadedParticipant) : ℤ := q.info.rawValue - q.info.fee

/-- A request, at an instant after the day's first, enters the account whose tracker it charges into
the histories, and no other; or its value is nothing, and whom it enters has a tracker. -/
structure Even (env : Env) (limitType : LimitType) (db : Db) (now : ℤ) (tag : String)
    (ownerInfo beneficiaryInfo : Option CreateOperationParticipant) : Prop where
  owner : ∀ o, LimitedSide env db limitType tag ownerInfo o →
    (∀ b, ¬ LimitedSide env db limitType tag beneficiaryInfo b) →
    o.pays = 0 ∨ startOf .day now < now ∧ limitType.check ≠ .BENEFICIARY
  beneficiary : ∀ b, (∀ o, ¬ LimitedSide env db limitType tag ownerInfo o) →
    LimitedSide env db limitType tag beneficiaryInfo b →
    b.receives = 0 ∨ startOf .day now < now ∧ limitType.check ≠ .OWNER
  shared : ∀ o b, LimitedSide env db limitType tag ownerInfo o →
    LimitedSide env db limitType tag beneficiaryInfo b →
    o.pays = 0 ∧ (limitType.check = .OWNER ∨ b.walletAccount.id = o.walletAccount.id ∨
        db.Tracked limitType b.wallet.user) ∨
      startOf .day now < now ∧ (limitType.check = .OWNER ∨
        limitType.check = .BENEFICIARY ∧ b.walletAccount.id = o.walletAccount.id)

/-- A create of a day whose request is even. -/
def Recorded (env : Env) (limitType : LimitType) (day : ℤ) (s : State) (l : ℤ × Command) : Prop :=
  MomentUnit.day.period.Same l.1 day ∧ match l.2 with
    | .create tag ownerInfo beneficiaryInfo =>
        Even env limitType s.world.db l.1 tag ownerInfo beneficiaryInfo
    | _ => False

/-! ### One day -/

section
variable {t t' day now : ℤ}

/-- A day is of one month and of one year. -/
theorem same_of_day (h : MomentUnit.day.period.Same t t') (u : MomentUnit) :
    u.period.Same t t' := by
  rw [Period.same_iff_index] at h ⊢
  have hday : localDay t = localDay t' := h
  change u.calendar.index (localDay t) = u.calendar.index (localDay t')
  rw [hday]

/-- A day starts in its month and in its year. -/
theorem startOf_le_startOf_day (u : MomentUnit) (t : ℤ) : startOf u t ≤ startOf .day t := by
  have hday : MomentUnit.day.period.Same (startOf .day t) t := by
    rw [Period.same_iff_index]
    exact Period.index_eq _ (Int.le_refl _) (Period.start_lt_succ _ _)
  rw [startOf, ← same_of_day hday u]
  exact Period.start_index_le _ _

theorem dateOnly_le (t : ℤ) : dateOnly t ≤ t := by
  rw [dateOnly, localDay, msPerDay, midnight]
  omega

/-- An instant of a day is after the start of its month and its year. -/
theorem startOf_le_of_day (h : MomentUnit.day.period.Same t t') (u : MomentUnit) :
    startOf u t' ≤ t := by
  rw [startOf, ← same_of_day h u]
  exact Period.start_index_le _ _

end

/-! ### What a check without a tracker computes -/

section
variable {env : Env} {limitType : LimitType} {day now at' : ℤ} {db : Db} {user : UserId}
  {a : WalletAccount} {o : Operation} {l : UserLimit}

theorem Operation.onSide_iff : o.OnSide limitType a ↔ o.sides limitType a.id ≠ 0 := by
  rw [Operation.OnSide, Operation.sides]
  by_cases hown : (limitType.check = .BOTH ∨ limitType.check = .OWNER) ∧
      o.owner.map (·.walletAccount) = some a.id
  · rw [if_pos hown]
    refine iff_of_true (.inl hown) ?_
    split <;> decide
  · rw [if_neg hown]
    by_cases hben : (limitType.check = .BOTH ∨ limitType.check = .BENEFICIARY) ∧
        o.beneficiary.map (·.walletAccount) = some a.id
    · rw [if_pos hben]
      exact iff_of_true (.inr hben) (by decide)
    · rw [if_neg hben]
      exact iff_of_false (fun h => h.elim hown hben) (by decide)

/-- The operations of a limit type, in the currency of an account that takes part in them. -/
theorem Known.limitType_iff (h : Known env db o) (hlt : env.limitTypeById limitType.id = some limitType)
    (ha : AccountOf db limitType user a) (hside : o.OnSide limitType a) :
    o.transactionType.id ∈ (env.transactionTypesOf limitType).map (·.id) ↔
      o.limitType env = some limitType := by
  have hcurrency : limitType.currency = some o.currency := by
    have hparty : ∀ p : Party, p.Known db o.currency → p.walletAccount = a.id →
        limitType.currency = some o.currency := by
      rintro p ⟨a', w, ha', hc, -⟩ hp
      rw [hp, ha.stored] at ha'
      obtain rfl := Option.some.inj ha'
      rw [ha.currency, hc]
    rcases hside with ⟨-, hown⟩ | ⟨-, hben⟩
    · obtain ⟨p, hp, hid⟩ := Option.map_eq_some_iff.mp hown
      exact hparty p (h.owner p hp) hid
    · obtain ⟨p, hp, hid⟩ := Option.map_eq_some_iff.mp hben
      exact hparty p (h.beneficiary p hp) hid
  rw [Operation.limitType, Option.filter_eq_some_iff, decide_eq_true_eq, Option.bind_eq_some_iff]
  constructor
  · intro hmem
    obtain ⟨tt, htt, hid⟩ := List.mem_map.mp hmem
    obtain ⟨hof, hltid⟩ := List.mem_filter.mp htt
    obtain rfl := Env.transactionType_eq hof h.ofType hid
    exact ⟨⟨limitType.id, of_decide_eq_true hltid, hlt⟩, hcurrency⟩
  · rintro ⟨⟨id, hid, hfind⟩, -⟩
    refine List.mem_map.mpr ⟨_, List.mem_filter.mpr ⟨h.ofType, ?_⟩, rfl⟩
    rw [limitTypeById_id hfind]
    exact decide_eq_true hid

/-- The sum over the rows that a query selects, as a sum over all. -/
theorem sum_getValueAndCreatedAt (side : Operation → Option Party) (p : Prop) [Decidable p]
    (date : ℤ) (f : Operation → ℤ) :
    ((if p then getValueAndCreatedAt side a date (env.transactionTypesOf limitType) db
        else []).map f).sum =
      db.operations.total fun o => if p ∧ (side o).map (·.walletAccount) = some a.id ∧
        date ≤ o.createdAt ∧ o.transactionType.id ∈ (env.transactionTypesOf limitType).map (·.id) ∧
        o.state ∈ getOperationLimitCheckStates then f o else 0 := by
  by_cases hp : p
  · simp only [hp, if_true, true_and]
    rw [getValueAndCreatedAt, Table.total, List.sum_map_ite]
    simp
  · simp only [hp, if_false, false_and]
    simp [Table.total]

theorem period_getUsedLimit (u : MomentUnit) :
    (getUsedLimit env at' a l limitType db).period u =
      (((if limitType.check = .BOTH ∨ limitType.check = .OWNER then
          getValueAndCreatedAt (·.owner) a (dateOnly (periodStartOf at' limitType .year))
            (env.transactionTypesOf limitType) db else [])
        ++ (if limitType.check = .BOTH ∨ limitType.check = .BENEFICIARY then
          getValueAndCreatedAt (·.beneficiary) a (dateOnly (periodStartOf at' limitType .year))
            (env.transactionTypesOf limitType) db else [])).map fun o =>
        if o.Since at' limitType u then o.value else 0).sum := by
  cases u with
  | day => rfl
  | month => rfl
  | year => exact congrArg List.sum (List.map_congr_left fun o _ => (if_pos trivial).symm)

end

/-- The operations and the trackers of a day, before and after each execution. -/
structure DayBook (env : Env) (limitType : LimitType) (day : ℤ) (db : Db) : Prop where
  booked : Booked env db
  known : ∀ o ∈ db.operations.rows, Known env db o
  one : OneAccount db limitType
  counts : ∀ o ∈ db.operations.rows, o.Counts
  ofDay : ∀ o ∈ db.operations.rows, MomentUnit.day.period.Same o.createdAt day
  late : ∀ o ∈ db.operations.rows, o.limitType env = some limitType →
    o.value = 0 ∨ startOf .day o.createdAt < o.createdAt
  updated : ∀ t ∈ db.userLimitTrackers.rows, MomentUnit.day.period.Same t.updatedAt day
  used : ∀ t ∈ db.userLimitTrackers.rows, ∀ l, db.userLimits.get? t.userLimit = some l →
    l.limitType = limitType.id → ∀ a, AccountOf db limitType l.user a →
    ∀ u, t.used u = db.history env limitType a.id
  tracked : ∀ user a, AccountOf db limitType user a → ∀ o ∈ db.operations.rows,
    o.limitType env = some limitType → o.sides limitType a.id ≠ 0 → db.Tracked limitType user

section
variable {env : Env} {limitType : LimitType} {day now at' : ℤ} {db : Db} {user : UserId}
  {a : WalletAccount} {o : Operation} {l : UserLimit}

/-- An operation of a day that is not its first instant is of the day, the month and the year. -/
theorem DayBook.since (h : DayBook env limitType day db) (hdate : limitType.periodStart = .DATE)
    (hat : MomentUnit.day.period.Same at' day) (ho : o ∈ db.operations.rows)
    (hlate : startOf .day o.createdAt < o.createdAt) (u : MomentUnit) :
    o.Since at' limitType u := by
  have hday := (h.ofDay o ho).trans hat.symm
  have hstart : ∀ u, periodStartOf at' limitType u < o.createdAt := by
    intro u
    rw [periodStartOf, hdate]
    refine Int.lt_of_le_of_lt (startOf_le_startOf_day u at') ?_
    rw [startOf, ← hday]
    exact hlate
  cases u with
  | day => exact hstart .day
  | month => exact hstart .month
  | year => trivial

theorem DayBook.year_le (h : DayBook env limitType day db) (hdate : limitType.periodStart = .DATE)
    (hat : MomentUnit.day.period.Same at' day) (ho : o ∈ db.operations.rows) :
    dateOnly (periodStartOf at' limitType .year) ≤ o.createdAt := by
  rw [periodStartOf, hdate]
  exact (dateOnly_le _).trans (startOf_le_of_day ((h.ofDay o ho).trans hat.symm) .year)

theorem Operation.Counts.mem (h : o.Counts) : o.state ∈ getOperationLimitCheckStates := by
  rcases h with h | h <;> rw [h] <;> decide

/-- **On a day of late operations, `getUsedLimit` computes the history of the account.** -/
theorem DayBook.getUsedLimit_eq_history (h : DayBook env limitType day db)
    (hlt : env.limitTypeById limitType.id = some limitType)
    (hdate : limitType.periodStart = .DATE) (hat : MomentUnit.day.period.Same at' day)
    (ha : AccountOf db limitType user a) (l : UserLimit) (u : MomentUnit) :
    (getUsedLimit env at' a l limitType db).period u = db.history env limitType a.id := by
  rw [period_getUsedLimit, List.map_append, List.sum_append, sum_getValueAndCreatedAt,
    sum_getValueAndCreatedAt, Db.history, Table.total, Table.total, ← List.sum_map_add]
  refine congrArg List.sum (List.map_congr_left fun o ho => ?_)
  have hyear := h.year_le hdate hat ho
  have hstate := (h.counts o ho).mem
  rw [Operation.share]
  by_cases hside : o.OnSide limitType a
  · have htype := (h.known o ho).limitType_iff hlt ha hside
    by_cases hof : o.limitType env = some limitType
    · have hvalue : (if o.Since at' limitType u then o.value else 0) = o.value := by
        rcases h.late o ho hof with hzero | hlate
        · rw [hzero, ite_self]
        · exact if_pos (h.since hdate hat ho hlate u)
      simp only [hvalue, hyear, hstate, htype, hof, and_true, if_true, Operation.sides]
      split <;> split <;> omega
    · simp only [htype, hof, false_and, and_false, if_false, add_zero]
  · have hnone := not_not.mp fun hne => hside (Operation.onSide_iff.mpr hne)
    obtain ⟨hown, hben⟩ := not_or.mp hside
    rw [hnone, zero_mul, ite_self, if_neg fun q => hown ⟨q.1, q.2.1⟩,
      if_neg fun q => hben ⟨q.1, q.2.1⟩, add_zero]

/-- What the bookkeeping says of the trackers and the histories. -/
theorem DayBook.usageRecorded (h : DayBook env limitType day db)
    (hlt : env.limitTypeById limitType.id = some limitType)
    (hdate : limitType.periodStart = .DATE) (hat : MomentUnit.day.period.Same at' day) :
    UsageRecorded env limitType at' db where
  used t ht l hl hid a ha u := by
    rw [h.getUsedLimit_eq_history hlt hdate hat ha l u]
    exact h.used t ht l hl hid a ha u
  tracked user a ha := by
    rintro ⟨o, ho, hc⟩
    have hof := ((h.known o ho).limitType_iff hlt ha hc.onSide).mp hc.ofType
    exact h.tracked user a ha o ho hof (Operation.onSide_iff.mp hc.onSide)

end

/-! ### Changes that enter nothing into the histories -/

/-- The operation without its reference to another. -/
def Operation.unlinked (o : Operation) : Operation := { o with operationRef := none }

section
variable {env : Env} {limitType : LimitType} {day now : ℤ} {db db' : Db} {user user' : UserId}
  {a a' : WalletAccount} {o : Operation} {l : UserLimit}

theorem AccountOf.of_eq (h : AccountOf db' limitType user a)
    (ha : db'.walletAccounts = db.walletAccounts) (hw : db'.wallets = db.wallets) :
    AccountOf db limitType user a := by
  obtain ⟨hstored, hcurrency, huser⟩ := h
  rw [ha] at hstored
  rw [hw] at huser
  exact ⟨hstored, hcurrency, huser⟩

/-- A wallet account has one user. -/
theorem AccountOf.user_eq (h : AccountOf db limitType user a)
    (h' : AccountOf db limitType user' a') (hid : a.id = a'.id) : user = user' := by
  obtain ⟨hstored, -, w, hw, rfl⟩ := h
  obtain ⟨hstored', -, w', hw', rfl⟩ := h'
  rw [hid, hstored'] at hstored
  obtain rfl := Option.some.inj hstored
  rw [hw] at hw'
  rw [Option.some.inj hw']

theorem Operation.sameCharge_of_unlinked {x : Operation} (h : x.unlinked = o.unlinked) :
    Operation.SameCharge x o ∧ o.state = x.state := by
  simp only [Operation.unlinked, Operation.mk.injEq] at h
  obtain ⟨hid, hstate, howner, hben, htype, hcurrency, -, -, hvalue, -, -, -, -, htags, htracker,
    hcreated, -⟩ := h
  exact ⟨⟨hid.symm, howner.symm, hben.symm, htype.symm, hcurrency.symm, hvalue.symm, hcreated.symm,
    htags.symm, htracker.symm⟩, hstate.symm⟩

theorem history_unlinked
    (h : db'.operations.rows.map (·.unlinked) = db.operations.rows.map (·.unlinked))
    (a : WalletAccountId) : db'.history env limitType a = db.history env limitType a := by
  have hshare : ∀ rows : List Operation,
      rows.map (·.share env limitType a) = (rows.map (·.unlinked)).map (·.share env limitType a) :=
    fun rows => (List.map_map (g := Operation.share env limitType a) (f := Operation.unlinked)).symm
  rw [Db.history, Db.history, Table.total, Table.total, hshare db'.operations.rows, h, ← hshare]

section

variable (h : DayBook env limitType day db)
include h

/-- References and new limits leave the bookkeeping as it is. -/
theorem DayBook.of_unlinked (hb : Booked env db') (hk : ∀ o ∈ db'.operations.rows, Known env db' o)
    (ha : db'.walletAccounts = db.walletAccounts) (hw : db'.wallets = db.wallets)
    (ht : db'.userLimitTrackers = db.userLimitTrackers)
    (hl : ∀ id l, db.userLimits.get? id = some l → db'.userLimits.get? id = some l)
    (hops : db'.operations.rows.map (·.unlinked) = db.operations.rows.map (·.unlinked)) :
    DayBook env limitType day db' := by
  have hrow : ∀ o ∈ db'.operations.rows, ∃ x ∈ db.operations.rows,
      Operation.SameCharge x o ∧ o.state = x.state := by
    intro o ho
    have hmem := List.mem_map_of_mem (f := Operation.unlinked) ho
    rw [hops] at hmem
    obtain ⟨x, hx, hxo⟩ := List.mem_map.mp hmem
    exact ⟨x, hx, Operation.sameCharge_of_unlinked hxo⟩
  have hlimit : ∀ t ∈ db.userLimitTrackers.rows, ∀ l, db'.userLimits.get? t.userLimit = some l →
      db.userLimits.get? t.userLimit = some l := by
    intro t hmem l hget
    obtain ⟨l', -, hget', -⟩ := h.booked.limit t hmem
    rw [hl _ _ hget'] at hget
    rw [hget', Option.some.inj hget]
  refine ⟨hb, hk, fun user a a' hacc hacc' => ?_, fun o ho => ?_, fun o ho => ?_,
    fun o ho hof => ?_, fun t hmem => ?_, fun t hmem l hget hid a hacc u => ?_,
    fun user a hacc o ho hof hside => ?_⟩
  · exact h.one user a a' (hacc.of_eq ha hw) (hacc'.of_eq ha hw)
  · obtain ⟨x, hx, -, hstate⟩ := hrow o ho
    rw [Operation.Counts, hstate]
    exact h.counts x hx
  · obtain ⟨x, hx, hs, -⟩ := hrow o ho
    rw [hs.createdAt]
    exact h.ofDay x hx
  · obtain ⟨x, hx, hs, -⟩ := hrow o ho
    rw [hs.createdAt, hs.value]
    exact h.late x hx (hs.limitType env ▸ hof)
  · rw [ht] at hmem
    exact h.updated t hmem
  · rw [ht] at hmem
    rw [history_unlinked hops]
    exact h.used t hmem l (hlimit t hmem l hget) hid a (hacc.of_eq ha hw) u
  · obtain ⟨x, hx, hs, -⟩ := hrow o ho
    rw [Operation.sides, hs.owner, hs.beneficiary] at hside
    obtain ⟨t, hmem, l, hget, huser, hid⟩ := h.tracked user a (hacc.of_eq ha hw) x hx
      (hs.limitType env ▸ hof) hside
    exact ⟨t, ht ▸ hmem, l, hl _ _ hget, huser, hid⟩

theorem DayBook.limitCreated (hc : db.LimitCreated env db') : DayBook env limitType day db' := by
  refine h.of_unlinked (h.booked.limitCreated hc) ?_ hc.walletAccounts hc.wallets
    hc.userLimitTrackers (fun _ _ => ?_) (by rw [hc.operations])
  · exact (Change.limitCreated hc : Change env day db db').known h.known
  · exact (Change.limitCreated hc : Change env day db db').userLimits

theorem DayBook.linked (other : Uuid) (hget : db.operations.get? o.id = some o) :
    DayBook env limitType day
      { db with operations := db.operations.set (CreateOperationUseCase.linked o other) } := by
  have hsame : SameOperations db
      { db with operations := db.operations.set (CreateOperationUseCase.linked o other) } :=
    sameOperations_set hget (Operation.sameCharge_linked o other) id rfl
  refine h.of_unlinked (h.booked.of_eq hsame rfl rfl) ?_ rfl rfl rfl (fun _ _ => id) ?_
  · exact (Change.linked o other hget : Change env day db _).known h.known
  · refine Table.map_set fun x hx hkey => ?_
    obtain rfl := Table.eq_of_key hx (Table.mem_of_get? hget) hkey
    rfl

theorem DayBook.sent (e : OperationControllerEvent) :
    DayBook env limitType day { db with events := db.events ++ [.operation .PENDING e] } := by
  have hsame : SameOperations db { db with events := db.events ++ [.operation .PENDING e] } :=
    sameOperations_of_eq rfl
  refine h.of_unlinked (h.booked.of_eq hsame rfl rfl) ?_ rfl rfl rfl (fun _ _ => id) rfl
  exact (Change.sent e : Change env day db _).known h.known

end

end

/-! ### Operations that are stored -/

/-- What is stored enters the account whose tracker it charges into the histories, and no other. -/
structure Fair (env : Env) (limitType : LimitType) (db : Db) (now : ℤ) (tt : TransactionType)
    (i : OperationInfo) : Prop where
  counted : ∀ a, (i.operation env now tt).sides limitType a * i.value
    = if i.charged.walletAccount.id = a then i.value else 0
  tracked : ∀ user a, AccountOf db limitType user a →
    (i.operation env now tt).sides limitType a.id ≠ 0 →
    a.id = i.charged.walletAccount.id ∨ db.Tracked limitType user
  late : i.value = 0 ∨ startOf .day now < now

section
variable {env : Env} {limitType : LimitType} {day now : ℤ} {db : Db} {user : UserId}
  {a : WalletAccount} {i : OperationInfo} {tt : TransactionType} {t : Table Operation}
  {c : TrackedLimit}

/-- A wallet account after an operation was stored is one from before, with other amounts. -/
theorem AccountOf.of_store (h : AccountOf (i.store env now t db) limitType user a)
    (hopen : Opening env now tt db i) : ∃ a', AccountOf db limitType user a' ∧ a'.id = a.id := by
  obtain ⟨hstored, hcurrency, huser⟩ := h
  change (i.walletAccounts db.walletAccounts).get? a.id = some a at hstored
  rw [OperationInfo.walletAccounts] at hstored
  cases ho : i.ownerSide with
  | none =>
      rw [ho] at hstored
      exact ⟨a, ⟨hstored, hcurrency, huser⟩, rfl⟩
  | some o =>
      rw [ho] at hstored
      have hget := (hopen.owner o ho).1
      by_cases hid : o.walletAccount.id = a.id
      · rw [Table.get?_set_self (hid ▸ hget) hid] at hstored
        obtain rfl := Option.some.inj hstored
        exact ⟨o.walletAccount, ⟨hget, hcurrency, huser⟩, rfl⟩
      · rw [Table.get?_set_ne hid] at hstored
        exact ⟨a, ⟨hstored, hcurrency, huser⟩, rfl⟩

/-- The wallet account of the side whose tracker is charged. -/
theorem Opening.accountOf (h : Opening env now tt db i)
    (hlt : limitTypeOf env i.charged.walletAccount tt = some limitType) :
    ∃ a, AccountOf db limitType i.charged.wallet.user a ∧ a.id = i.charged.walletAccount.id := by
  have hcurrency : limitType.currency = some i.charged.walletAccount.currency.id :=
    of_decide_eq_true (Option.filter_eq_some_iff.mp hlt).2
  have howner : ∀ o, i.ownerSide = some o → i.charged = o.toLoadedParticipant →
      ∃ a, AccountOf db limitType i.charged.wallet.user a ∧
        a.id = i.charged.walletAccount.id := by
    intro o ho hcharged
    obtain ⟨ha, hw⟩ := h.owner o ho
    rw [hcharged] at hcurrency ⊢
    exact ⟨o.walletAccount, ⟨ha, hcurrency, o.wallet, hw, rfl⟩, rfl⟩
  cases i with
  | owner o => exact howner o rfl rfl
  | shared o b => exact howner o rfl rfl
  | beneficiary b =>
      obtain ⟨a, ha, hc, hw⟩ := h.beneficiary b rfl
      have hid : a.id = b.walletAccount.id := Table.key_of_get? ha
      refine ⟨a, ⟨hid.symm ▸ ha, ?_, b.wallet, hw, rfl⟩, hid⟩
      rw [hc]
      exact hcurrency

/-- A user who has a tracker keeps it. -/
theorem Db.Tracked.store (h : db.Tracked limitType user) (hopen : Opening env now tt db i) :
    (i.store env now t db).Tracked limitType user := by
  obtain ⟨x, hx, l, hl, huser, hid⟩ := h
  cases hc : i.userLimitTracker with
  | none =>
      refine ⟨x, ?_, l, hl, huser, hid⟩
      change x ∈ (i.userLimitTrackers env now db.userLimitTrackers).rows
      rw [OperationInfo.userLimitTrackers, hc]
      exact hx
  | some c =>
      by_cases hne : x.id = c.tracker.id
      · obtain ⟨limitType', hcharged⟩ := hopen.charged hc
        refine ⟨c.charged env now i.value, (mem_chargedTrackers hc).mpr (.inr rfl), l, ?_, huser,
          hid⟩
        change db.userLimits.get? c.tracker.userLimit = some l
        cases hcharged.tracker with
        | stored t₀ ht₀ hc₀ =>
            rw [hc₀, restart_id] at hne
            obtain rfl := Table.eq_of_key hx (Db.userLimitTracker_of_find ht₀).1 hne
            rw [hc₀, restart_userLimit]
            exact hl
        | new hnew => exact absurd hne (hnew.no_tracker x hx).2
      · exact ⟨x, (mem_chargedTrackers hc).mpr (.inl ⟨hx, hne⟩), l, hl, huser, hid⟩

/-- What an operation that is stored adds to the history of an account. -/
theorem history_store (hins : db.operations.insert? (i.operation env now tt) = some t)
    (a : WalletAccountId) :
    (i.store env now t db).history env limitType a
      = db.history env limitType a + (i.operation env now tt).share env limitType a :=
  Table.total_insert? hins _

/-- Who has no tracker has no history. -/
theorem DayBook.history_eq_zero (h : DayBook env limitType day db)
    (ha : AccountOf db limitType user a) (hnone : ¬ db.Tracked limitType user) :
    db.history env limitType a.id = 0 := by
  refine List.sum_eq_zero fun v hv => ?_
  obtain ⟨o, ho, rfl⟩ := List.mem_map.mp hv
  rw [Operation.share]
  split
  · next hof =>
    by_cases hside : o.sides limitType a.id = 0
    · rw [hside, zero_mul]
    · exact absurd (h.tracked user a ha o ho hof hside) hnone
  · rfl

/-- The tracker that is charged has used the history of the charged account. -/
theorem DayBook.used_charged (h : DayBook env limitType day db)
    (hdate : limitType.periodStart = .DATE) (hday : MomentUnit.day.period.Same now day)
    (hc : Charged env now db i tt c limitType)
    (ha : AccountOf db limitType i.charged.wallet.user a) (u : MomentUnit) :
    c.tracker.used u = db.history env limitType a.id := by
  obtain ⟨-, huser, hid⟩ := Db.userLimit_of_find hc.find
  cases hc.tracker with
  | stored t₀ ht₀ hc₀ =>
      obtain ⟨hmem, ht₀l⟩ := Db.userLimitTracker_of_find ht₀
      have hperiod : t₀.periodStart = .DATE := by
        have := (hc.of_userLimit h.booked).2.1
        rw [hc₀, restart_periodStart] at this
        exact this.trans hdate
      have hsame := same_of_day (hday.trans (h.updated t₀ hmem).symm) u
      rw [hc₀]
      rw [used_restart hperiod, Counter.restart, if_neg fun q => q.2 hsame]
      refine h.used t₀ hmem c.userLimit ?_ hid a (huser.symm ▸ ha) u
      rw [ht₀l]
      exact (Db.userLimit_find hc.find).1
  | new hnew =>
      rw [hnew.used u, h.history_eq_zero ha]
      rintro ⟨x, hx, l, hl, hluser, hlid⟩
      obtain ⟨l', -, hl', hfind, -⟩ := h.booked.limit x hx
      rw [hl'] at hl
      obtain rfl := Option.some.inj hl
      rw [hluser, hlid, hc.find] at hfind
      obtain rfl := Option.some.inj hfind
      exact (hnew.no_tracker x hx).1 (Table.key_of_get? hl').symm

/-- An operation that the limit type does not limit adds nothing to a history. -/
theorem share_of_ne (hne : limitTypeOf env i.charged.walletAccount tt ≠ some limitType)
    (a : WalletAccountId) : (i.operation env now tt).share env limitType a = 0 := by
  rw [Operation.share, OperationInfo.operation_limitType, if_neg hne]

/-- What an operation adds to the histories when it is fair. -/
theorem Fair.share (h : Fair env limitType db now tt i)
    (hlt : limitTypeOf env i.charged.walletAccount tt = some limitType) (a : WalletAccountId) :
    (i.operation env now tt).share env limitType a
      = if i.charged.walletAccount.id = a then i.value else 0 := by
  rw [Operation.share, OperationInfo.operation_limitType, if_pos hlt, OperationInfo.operation_value]
  exact h.counted a

/-- **What a tracker has used after an operation was stored.** -/
theorem DayBook.used_store (h : DayBook env limitType day db)
    (hlt : env.limitTypeById limitType.id = some limitType)
    (hdate : limitType.periodStart = .DATE) (hday : MomentUnit.day.period.Same now day)
    (hopen : Opening env now tt db i)
    (hfair : limitTypeOf env i.charged.walletAccount tt = some limitType →
      Fair env limitType db now tt i)
    {x : UserLimitTracker} (hx : x ∈ (i.store env now t db).userLimitTrackers.rows) {l : UserLimit}
    (hl : db.userLimits.get? x.userLimit = some l) (hid : l.limitType = limitType.id)
    (ha : AccountOf db limitType l.user a) (u : MomentUnit) :
    x.used u = db.history env limitType a.id + (i.operation env now tt).share env limitType a.id := by
  cases hc : i.userLimitTracker with
  | none =>
      have hfree := hopen.charging
      rw [hc] at hfree
      change x ∈ (i.userLimitTrackers env now db.userLimitTrackers).rows at hx
      rw [OperationInfo.userLimitTrackers, hc] at hx
      rw [share_of_ne (fun e => by cases hfree.symm.trans e), add_zero]
      exact h.used x hx l hl hid a ha u
  | some c =>
      obtain ⟨limitType', hcharged⟩ := hopen.charged hc
      obtain ⟨hlimit, -, honly⟩ := hcharged.of_userLimit h.booked
      obtain ⟨hget, -⟩ := Db.userLimit_find hcharged.find
      obtain ⟨-, huser, hltid⟩ := Db.userLimit_of_find hcharged.find
      -- A limit of the limit type is charged only when the limit type limits the operation.
      have htype : limitType'.id = limitType.id → limitType' = limitType := fun e =>
        Option.some.inj ((limitTypeOf_find hcharged.ofType).symm.trans (e ▸ hlt))
      rcases (mem_chargedTrackers hc).mp hx with ⟨hx, hne⟩ | rfl
      · rw [h.used x hx l hl hid a ha u]
        by_cases hsame : limitType' = limitType
        · subst hsame
          have hother : i.charged.walletAccount.id ≠ a.id := by
            intro e
            obtain ⟨a', ha', hid'⟩ := hopen.accountOf hcharged.ofType
            obtain ⟨l', -, hl', hfind, -⟩ := h.booked.limit x hx
            rw [hl'] at hl
            obtain rfl := Option.some.inj hl
            rw [ha.user_eq ha' (e.symm.trans hid'.symm), hid, hcharged.find] at hfind
            obtain rfl := Option.some.inj hfind
            exact hne (honly x hx (Table.key_of_get? hl').symm)
          rw [(hfair hcharged.ofType).share hcharged.ofType, if_neg hother, add_zero]
        · rw [share_of_ne (fun e => hsame (Option.some.inj (hcharged.ofType.symm.trans e))), add_zero]
      · change db.userLimits.get? c.tracker.userLimit = some l at hl
        rw [hlimit, hget] at hl
        obtain rfl := Option.some.inj hl
        obtain rfl := htype (hltid.symm.trans hid)
        rw [huser] at ha
        obtain ⟨a', ha', hid'⟩ := hopen.accountOf hcharged.ofType
        have hself : i.charged.walletAccount.id = a.id := hid'.symm.trans (h.one _ _ _ ha' ha)
        rw [(hfair hcharged.ofType).share hcharged.ofType, if_pos hself,
          ← h.used_charged hdate hday hcharged ha u]
        change (chargeTracker env now c.userLimit c.tracker i.value).used u = _
        exact used_charge

/-- **Storing a fair operation keeps the bookkeeping.** -/
theorem DayBook.opened (h : DayBook env limitType day db)
    (hlt : env.limitTypeById limitType.id = some limitType)
    (hdate : limitType.periodStart = .DATE) (hday : MomentUnit.day.period.Same now day)
    (hopen : Opening env now tt db i)
    (hins : db.operations.insert? (i.operation env now tt) = some t)
    (hfair : limitTypeOf env i.charged.walletAccount tt = some limitType →
      Fair env limitType db now tt i) : DayBook env limitType day (i.store env now t db) := by
  have hrow : ∀ {o}, o ∈ (i.store env now t db).operations.rows →
      o ∈ db.operations.rows ∨ o = i.operation env now tt := (Table.mem_insert? hins).mp
  refine ⟨h.booked.opened hopen hins, (Change.opened tt i t hopen hins).known h.known,
    fun user a a' ha ha' => ?_, fun o ho => ?_, fun o ho => ?_, fun o ho hof => ?_, fun x hx => ?_,
    fun x hx l hl hid a ha u => ?_, fun user a ha o ho hof hside => ?_⟩
  · obtain ⟨b, hb, hid⟩ := ha.of_store hopen
    obtain ⟨b', hb', hid'⟩ := ha'.of_store hopen
    exact hid.symm.trans ((h.one user b b' hb hb').trans hid')
  · rcases hrow ho with ho | rfl
    · exact h.counts o ho
    · exact .inl OperationInfo.operation_state
  · rcases hrow ho with ho | rfl
    · exact h.ofDay o ho
    · rwa [OperationInfo.operation_createdAt]
  · rcases hrow ho with ho | rfl
    · exact h.late o ho hof
    · rw [OperationInfo.operation_limitType] at hof
      rw [OperationInfo.operation_value, OperationInfo.operation_createdAt]
      exact (hfair hof).late
  · change x ∈ (i.userLimitTrackers env now db.userLimitTrackers).rows at hx
    rw [OperationInfo.userLimitTrackers] at hx
    split at hx
    · rcases Table.mem_upsert.mp hx with ⟨hx, -⟩ | rfl
      · exact h.updated x hx
      · exact hday
    · exact h.updated x hx
  · obtain ⟨b, hb, hbid⟩ := ha.of_store hopen
    rw [history_store hins, ← hbid]
    exact h.used_store hlt hdate hday hopen hfair hx hl hid hb u
  · obtain ⟨b, hb, hbid⟩ := ha.of_store hopen
    rw [← hbid] at hside
    rcases hrow ho with ho | rfl
    · exact (h.tracked user b hb o ho hof hside).store hopen
    · rw [OperationInfo.operation_limitType] at hof
      rcases (hfair hof).tracked user b hb hside with hself | htracked
      · -- The charged user has the tracker that was charged.
        obtain ⟨b', hb', hid'⟩ := hopen.accountOf hof
        cases hc : i.userLimitTracker with
        | none =>
            have hfree := hopen.charging
            rw [hc] at hfree
            cases hfree.symm.trans hof
        | some c =>
            obtain ⟨limitType', hcharged⟩ := hopen.charged hc
            obtain rfl := Option.some.inj (hcharged.ofType.symm.trans hof)
            obtain ⟨hget, -⟩ := Db.userLimit_find hcharged.find
            obtain ⟨-, huser, hltid⟩ := Db.userLimit_of_find hcharged.find
            refine ⟨_, (mem_chargedTrackers hc).mpr (.inr rfl), c.userLimit, ?_, ?_, hltid⟩
            · change db.userLimits.get? c.tracker.userLimit = _
              rw [(hcharged.of_userLimit h.booked).1]
              exact hget
            · exact huser.trans (hb'.user_eq hb (hid'.trans hself.symm))
      · exact htracked.store hopen

end

/-! ### Requests -/

section
variable {env : Env} {limitType : LimitType} {day now : ℤ} {db : Db} {tag : String}
  {ownerInfo beneficiaryInfo : Option CreateOperationParticipant} {w w' : World}
  {r : CreatedOperation} {tt : TransactionType} {owner : Option OwnerSide}
  {beneficiary : Option BeneficiarySide} {db₁ db₂ db₃ : Db} {i : OperationInfo}
  {side : Option CreateOperationParticipant} {q q' : LoadedParticipant}
variable {o : OwnerSide} {b : BeneficiarySide}

/-- A side of a request is loaded in one way. -/
theorem CreateOperationUseCase.Names.walletAccount_eq (h : Names env db tag side tt q)
    (h' : Names env db tag side tt q') : q.walletAccount = q'.walletAccount := by
  obtain ⟨-, ⟨p, hp, hr⟩, hq⟩ := h
  obtain ⟨-, ⟨p', hp', hr'⟩, hq'⟩ := h'
  obtain rfl := Option.some.inj (hp.symm.trans hp')
  have hwallet := Option.some.inj (hr.wallet.symm.trans hr'.wallet)
  have hcurrency := Option.some.inj (hr.currency.symm.trans hr'.currency)
  have hw := hq.wallet
  rw [hwallet, hq'.wallet] at hw
  obtain ⟨c, hc, -, ha⟩ := hq.currency
  obtain ⟨c', hc', -, ha'⟩ := hq'.currency
  rw [hcurrency, hc'] at hc
  rw [← Option.some.inj hc, ← Option.some.inj hw, ha'] at ha
  exact (Option.some.inj ha).symm

section

variable (h : Execution env now tag ownerInfo beneficiaryInfo w w' r tt owner beneficiary db₁ db₂ db₃)
include h

theorem CreateOperationUseCase.Execution.ownerNames (ho : owner = some o) :
    Names env w.db tag ownerInfo tt o.toLoadedParticipant := by
  subst ho
  refine ⟨h.transactionType, ?_, h.ownerLoaded o rfl⟩
  cases h.ownerRequested with
  | some hr => exact ⟨_, rfl, hr⟩

theorem CreateOperationUseCase.Execution.beneficiaryNames (hb : beneficiary = some b) :
    Names env w.db tag beneficiaryInfo tt b.toLoadedParticipant := by
  subst hb
  refine ⟨h.transactionType, ?_, h.beneficiaryLoaded b rfl⟩
  cases h.beneficiaryRequested with
  | some hr => exact ⟨_, rfl, hr⟩

end

/-- The sides of what is stored that an account takes. -/
theorem OperationInfo.operation_sides (i : OperationInfo) (limitType : LimitType)
    (a : WalletAccountId) : (i.operation env now tt).sides limitType a =
      (if (limitType.check = .BOTH ∨ limitType.check = .OWNER) ∧
          i.ownerSide.map (·.walletAccount.id) = some a then 1 else 0)
        + if (limitType.check = .BOTH ∨ limitType.check = .BENEFICIARY) ∧
          i.beneficiarySide.map (·.walletAccount.id) = some a then 1 else 0 := by
  rw [Operation.sides, OperationInfo.operation_owner, OperationInfo.operation_beneficiary,
    Option.map_map, Option.map_map]
  rfl

theorem fair_of_sides {n : ℤ} (hsides : ∀ a, (i.operation env now tt).sides limitType a =
      if i.charged.walletAccount.id = a then n else 0)
    (h : i.value = 0 ∨ startOf .day now < now ∧ n = 1) : Fair env limitType db now tt i where
  counted a := by
    rw [hsides]
    rcases h with hzero | ⟨-, rfl⟩
    · rw [hzero, mul_zero, ite_self]
    · simp
  tracked user a _ hside := by
    rw [hsides] at hside
    exact .inl (of_not_not fun hne => hside (if_neg (Ne.symm hne)))
  late := h.imp id And.left

theorem fair_owner (h : (OperationInfo.owner o).value = 0 ∨
      startOf .day now < now ∧ limitType.check ≠ .BENEFICIARY) :
    Fair env limitType db now tt (.owner o) := by
  refine fair_of_sides (n := if limitType.check = .BOTH ∨ limitType.check = .OWNER then 1 else 0)
    (fun a => ?_) (h.imp_right fun ⟨hlate, hcheck⟩ => ⟨hlate, if_pos ?_⟩)
  · by_cases hid : o.walletAccount.id = a <;> simp [OperationInfo.operation_sides,
      OperationInfo.ownerSide, OperationInfo.beneficiarySide, OperationInfo.charged, hid]
  · cases hc : limitType.check <;> simp_all

theorem fair_beneficiary (h : (OperationInfo.beneficiary b).value = 0 ∨
      startOf .day now < now ∧ limitType.check ≠ .OWNER) :
    Fair env limitType db now tt (.beneficiary b) := by
  refine fair_of_sides (n := if limitType.check = .BOTH ∨ limitType.check = .BENEFICIARY then 1 else 0)
    (fun a => ?_) (h.imp_right fun ⟨hlate, hcheck⟩ => ⟨hlate, if_pos ?_⟩)
  · by_cases hid : b.walletAccount.id = a <;> simp [OperationInfo.operation_sides,
      OperationInfo.ownerSide, OperationInfo.beneficiarySide, OperationInfo.charged, hid]
  · cases hc : limitType.check <;> simp_all

/-- The beneficiary of an operation that is stored has a wallet account in its currency. -/
theorem Opening.accountOf_beneficiary (h : Opening env now tt db (.shared o b))
    (hlt : limitTypeOf env o.walletAccount tt = some limitType) :
    ∃ a, AccountOf db limitType b.wallet.user a ∧ a.id = b.walletAccount.id := by
  obtain ⟨a, ha, hc, hw⟩ := h.beneficiary b rfl
  have hid : a.id = b.walletAccount.id := Table.key_of_get? ha
  have hcurrency : limitType.currency = some o.walletAccount.currency.id :=
    of_decide_eq_true (Option.filter_eq_some_iff.mp hlt).2
  refine ⟨a, ⟨hid.symm ▸ ha, ?_, b.wallet, hw, rfl⟩, hid⟩
  rw [hc, ← h.currency o b rfl]
  exact hcurrency

theorem fair_shared (hopen : Opening env now tt db (.shared o b))
    (hlt : limitTypeOf env o.walletAccount tt = some limitType)
    (h : (OperationInfo.shared o b).value = 0 ∧ (limitType.check = .OWNER ∨
        b.walletAccount.id = o.walletAccount.id ∨ db.Tracked limitType b.wallet.user) ∨
      startOf .day now < now ∧ (limitType.check = .OWNER ∨
        limitType.check = .BENEFICIARY ∧ b.walletAccount.id = o.walletAccount.id)) :
    Fair env limitType db now tt (.shared o b) where
  counted a := by
    rcases h with ⟨hzero, -⟩ | ⟨-, hcheck | ⟨hcheck, hsame⟩⟩
    · rw [hzero, mul_zero, ite_self]
    · by_cases hid : o.walletAccount.id = a <;>
        simp [OperationInfo.operation_sides, OperationInfo.ownerSide,
          OperationInfo.beneficiarySide, OperationInfo.charged, hcheck, hid]
    · by_cases hid : o.walletAccount.id = a <;>
        simp [OperationInfo.operation_sides, OperationInfo.ownerSide,
          OperationInfo.beneficiarySide, OperationInfo.charged, hcheck, hsame, hid]
  tracked user a ha hside := by
    have hwho : a.id = o.walletAccount.id ∨
        limitType.check ≠ .OWNER ∧ a.id = b.walletAccount.id := by
      by_contra hnone
      obtain ⟨howner, hben⟩ := not_or.mp hnone
      rw [OperationInfo.operation_sides, if_neg, if_neg] at hside
      · exact hside rfl
      · rintro ⟨hcheck, hb⟩
        refine hben ⟨fun e => ?_, (Option.some.inj hb).symm⟩
        rw [e] at hcheck
        rcases hcheck with hcheck | hcheck <;> cases hcheck
      · rintro ⟨-, ho⟩
        exact howner (Option.some.inj ho).symm
    rcases hwho with howner | ⟨hcheck, hben⟩
    · exact .inl howner
    · have hsame : b.walletAccount.id = o.walletAccount.id ∨
          db.Tracked limitType b.wallet.user := by
        rcases h with ⟨-, h | h⟩ | ⟨-, h | ⟨-, h⟩⟩
        · exact absurd h hcheck
        · exact h
        · exact absurd h hcheck
        · exact .inl h
      rcases hsame with hsame | htracked
      · exact .inl (hben.trans hsame)
      · obtain ⟨a', ha', hid'⟩ := hopen.accountOf_beneficiary hlt
        rw [ha.user_eq ha' (hben.trans hid'.symm)]
        exact .inr htracked
  late := h.imp And.left And.left

/-- A side of a request whose wallet account the limit type does not limit. -/
theorem CreateOperationUseCase.Names.not_limitedSide (h : Names env db tag side tt q)
    (hne : limitTypeOf env q.walletAccount tt ≠ some limitType) (q' : LoadedParticipant) :
    ¬ LimitedSide env db limitType tag side q' := by
  rintro ⟨tt', hnames, hlt⟩
  obtain rfl := Option.some.inj (h.transactionType.symm.trans hnames.transactionType)
  rw [← h.walletAccount_eq hnames] at hlt
  exact hne hlt

theorem not_limitedSide_none (q : LoadedParticipant) :
    ¬ LimitedSide env db limitType tag none q := by
  rintro ⟨tt, hnames, -⟩
  obtain ⟨p, hp, -⟩ := hnames.requested
  cases hp

/-- Two wallet accounts that one limit type limits have one currency. -/
theorem limitTypeOf_currency {a a' : WalletAccount}
    (h : limitTypeOf env a tt = some limitType) (h' : limitTypeOf env a' tt = some limitType) :
    a.currency.id = a'.currency.id := by
  have hc : limitType.currency = some a.currency.id :=
    of_decide_eq_true (Option.filter_eq_some_iff.mp h).2
  have hc' : limitType.currency = some a'.currency.id :=
    of_decide_eq_true (Option.filter_eq_some_iff.mp h').2
  exact Option.some.inj (hc.symm.trans hc')

/-- **What an even request stores is fair.** -/
theorem CreateOperationUseCase.Execution.fair
    (h : Execution env now tag ownerInfo beneficiaryInfo w w' r tt owner beneficiary db₁ db₂ db₃)
    (heven : Even env limitType w.db now tag ownerInfo beneficiaryInfo)
    (hi : Stores owner beneficiary i) (hopen : Opening env now tt db i)
    (htracked : ∀ user, w.db.Tracked limitType user → db.Tracked limitType user)
    (hlt : limitTypeOf env i.charged.walletAccount tt = some limitType) :
    Fair env limitType db now tt i := by
  have hpays : ∀ o, owner = some o →
      o.toLoadedParticipant.pays = (OperationInfo.owner o).value := by
    intro o ho
    rw [LoadedParticipant.pays, ← (h.ownerChecked o ho).amount]
    rfl
  have hreceives : ∀ b : BeneficiarySide,
      b.toLoadedParticipant.receives = (OperationInfo.beneficiary b).value := fun b => by
    change b.info.rawValue - b.info.fee = -b.info.fee + b.info.rawValue
    omega
  have hownerAlone : ∀ o, owner = some o → limitTypeOf env o.walletAccount tt = some limitType →
      (∀ q, ¬ LimitedSide env w.db limitType tag beneficiaryInfo q) →
      Fair env limitType db now tt (.owner o) := by
    intro o ho hlimit hnone
    have hcase := heven.owner o.toLoadedParticipant ⟨tt, h.ownerNames ho, hlimit⟩ hnone
    rw [hpays o ho] at hcase
    exact fair_owner hcase
  have hbeneficiaryAlone : ∀ b, beneficiary = some b →
      limitTypeOf env b.walletAccount tt = some limitType →
      (∀ q, ¬ LimitedSide env w.db limitType tag ownerInfo q) →
      Fair env limitType db now tt (.beneficiary b) := by
    intro b hb hlimit hnone
    have hcase := heven.beneficiary b.toLoadedParticipant hnone
      ⟨tt, h.beneficiaryNames hb, hlimit⟩
    rw [hreceives b] at hcase
    exact fair_beneficiary hcase
  cases hi with
  | single i ho hb =>
      cases i with
      | owner o =>
          refine hownerAlone o ho.symm hlt ?_
          obtain rfl : beneficiary = none := hb.symm
          cases h.beneficiaryRequested
          exact not_limitedSide_none
      | beneficiary b =>
          refine hbeneficiaryAlone b hb.symm hlt ?_
          obtain rfl : owner = none := ho.symm
          cases h.ownerRequested
          exact not_limitedSide_none
      | shared o b =>
          have hlt' : limitTypeOf env b.walletAccount tt = some limitType := by
            rw [limitTypeOf, ← hopen.currency o b rfl]
            exact hlt
          have hcase := heven.shared o.toLoadedParticipant b.toLoadedParticipant
            ⟨tt, h.ownerNames ho.symm, hlt⟩ ⟨tt, h.beneficiaryNames hb.symm, hlt'⟩
          rw [hpays o ho.symm] at hcase
          refine fair_shared hopen hlt (hcase.imp ?_ id)
          exact And.imp_right (Or.imp_right (Or.imp_right (htracked _)))
  | owner o b ho hb hne =>
      refine hownerAlone o ho hlt ((h.beneficiaryNames hb).not_limitedSide fun hlt' => ?_)
      exact hne (limitTypeOf_currency hlt hlt')
  | beneficiary o b ho hb hne =>
      refine hbeneficiaryAlone b hb hlt ((h.ownerNames ho).not_limitedSide fun hlt' => ?_)
      exact hne (limitTypeOf_currency hlt' hlt)

end

/-! ### Runs -/

section
variable {env : Env} {limitType : LimitType} {day : ℤ} {s : State} {db : Db}

/-- **An even request keeps the bookkeeping.** -/
theorem DayBook.step {l : ℤ × Command} (h : DayBook env limitType day s.world.db)
    (hlt : env.limitTypeById limitType.id = some limitType)
    (hdate : limitType.periodStart = .DATE) (hl : Recorded env limitType day s l) :
    DayBook env limitType day (ZroServices.step env s l).world.db := by
  obtain ⟨now, command⟩ := l
  obtain ⟨hday, heven⟩ := hl
  cases command with
  | accept | revert | deliver => exact heven.elim
  | create tag ownerInfo beneficiaryInfo =>
      change DayBook env limitType day (execCommand env now s.world _).db
      rcases create_exec tag ownerInfo beneficiaryInfo s.world with
        hnone | ⟨r, tt, owner, beneficiary, db₁, db₂, db₃, hexec⟩
      · rwa [hnone]
      · -- Who had a tracker before the execution has one in between.
        refine (hexec.invariant (I := fun db => DayBook env limitType day db ∧
          ∀ user, s.world.db.Tracked limitType user → db.Tracked limitType user)
          ?_ ?_ ?_ ?_ ⟨h, fun _ => id⟩).1
        · rintro db db' hc ⟨hI, htracked⟩
          refine ⟨hI.limitCreated hc, fun user hu => ?_⟩
          obtain ⟨t, ht, l, hget, huser⟩ := htracked user hu
          have hlimits := (Change.limitCreated hc : Change env now db db').userLimits hget
          exact ⟨t, hc.userLimitTrackers ▸ ht, l, hlimits, huser⟩
        · rintro db i t hi hopen hins ⟨hI, htracked⟩
          refine ⟨hI.opened hlt hdate hday hopen hins (hexec.fair heven hi hopen htracked), ?_⟩
          exact fun user hu => (htracked user hu).store hopen
        · rintro db o other hget ⟨hI, htracked⟩
          exact ⟨hI.linked other hget, htracked⟩
        · rintro db e ⟨hI, htracked⟩
          exact ⟨hI.sent e, htracked⟩

/-- A day starts without operations and trackers. -/
theorem dayBook_start (hops : db.operations.rows = []) (htrackers : db.userLimitTrackers.rows = [])
    (hone : OneAccount db limitType) : DayBook env limitType day db where
  booked := {
    nonneg := by rw [hops]; exact fun _ h => absurd h List.not_mem_nil
    one_tracker := by rw [htrackers]; exact fun _ h => absurd h List.not_mem_nil
    limit := by rw [htrackers]; exact fun _ h => absurd h List.not_mem_nil
    booking := by rw [hops]; exact fun _ h => absurd h List.not_mem_nil
    carried := by rw [hops]; exact fun _ h => absurd h List.not_mem_nil
    tagged := by rw [hops]; exact fun _ h => absurd h List.not_mem_nil }
  known := by rw [hops]; exact fun _ h => absurd h List.not_mem_nil
  one := hone
  counts := by rw [hops]; exact fun _ h => absurd h List.not_mem_nil
  ofDay := by rw [hops]; exact fun _ h => absurd h List.not_mem_nil
  late := by rw [hops]; exact fun _ h => absurd h List.not_mem_nil
  updated := by rw [htrackers]; exact fun _ h => absurd h List.not_mem_nil
  used := by rw [htrackers]; exact fun _ h => absurd h List.not_mem_nil
  tracked := by rw [hops]; exact fun _ _ _ _ h => absurd h List.not_mem_nil

/-- **Usage is recorded for the sides that count.**  In every run of creates in one day, which
starts without operations and trackers and whose users have one wallet account in the currency of a
DATE limit type: when every request is even, the trackers of the limit type have used after it what
`getUsedLimit` computes of the history, and whoever has a history has a tracker. -/
theorem usageRecorded_of_even (env : Env) {s : State} {ls : List (ℤ × Command)}
    {limitType : LimitType} (hlt : env.limitTypeById limitType.id = some limitType)
    (hdate : limitType.periodStart = .DATE) (hops : s.world.db.operations.rows = [])
    (htrackers : s.world.db.userLimitTrackers.rows = []) (hone : OneAccount s.world.db limitType)
    {day : ℤ} (h : Along (step env) (Recorded env limitType day) s ls) {now : ℤ}
    (hnow : MomentUnit.day.period.Same now day) :
    UsageRecorded env limitType now (run (step env) s ls).world.db := by
  have hbook : DayBook env limitType day (run (step env) s ls).world.db :=
    h.invariant (I := fun s => DayBook env limitType day s.world.db)
      (fun _ _ hI hl => hI.step hlt hdate hl) (dayBook_start hops htrackers hone)
  exact hbook.usageRecorded hlt hdate hnow

end

/-! ### Two users -/

namespace Sample

def limitTypeOf (check : LimitTypeCheck) : LimitType := { limitType .DATE with check }

/-- The small service, with a limit type that looks at the given sides. -/
def checking (check : LimitTypeCheck) : Env := { env .DATE with limitTypes := [limitTypeOf check] }

/-- The second user receives. -/
def receive (operation : Uuid) (rawValue : ℤ) : Command :=
  .create "PIXREC" none (some (request operation 2 rawValue))

theorem oneAccount_start (check : LimitTypeCheck) :
    OneAccount (start 3000 0).world.db (limitTypeOf check) := by
  have howner : ∀ user a, AccountOf (start 3000 0).world.db (limitTypeOf check) user a →
      a = account 1 1 3000 ∧ user = 1 ∨ a = account 2 2 0 ∧ user = 2 := by
    rintro user a ⟨hstored, -, w, hw, rfl⟩
    have hmem : a ∈ [account 1 1 3000, account 2 2 0] := Table.mem_of_get? hstored
    simp only [List.mem_cons, List.not_mem_nil, or_false] at hmem
    rcases hmem with rfl | rfl
    · exact .inl ⟨rfl, by cases hw; rfl⟩
    · exact .inr ⟨rfl, by cases hw; rfl⟩
  intro user a a' ha ha'
  rcases howner user a ha with ⟨rfl, rfl⟩ | ⟨rfl, rfl⟩
  · rcases howner _ a' ha' with ⟨rfl, -⟩ | ⟨-, h⟩
    · rfl
    · exact absurd h (by decide)
  · rcases howner _ a' ha' with ⟨-, h⟩ | ⟨rfl, -⟩
    · exact absurd h (by decide)
    · rfl

end Sample

/-- A limit type that looks at both sides; the first user sends, the second receives. -/
theorem usageRecorded_sendReceive :
    UsageRecorded (Sample.checking .BOTH) (Sample.limitTypeOf .BOTH) Sample.noon
      (run (step (Sample.checking .BOTH)) (Sample.start 3000 0)
        [(Sample.noon, Sample.send 10 300), (Sample.noon, Sample.receive 11 500),
          (Sample.noon + Sample.hour, Sample.send 12 100)]).world.db := by
  have heven : Along (step (Sample.checking .BOTH))
      (Recorded (Sample.checking .BOTH) (Sample.limitTypeOf .BOTH) Sample.noon)
      (Sample.start 3000 0) [(Sample.noon, Sample.send 10 300),
        (Sample.noon, Sample.receive 11 500), (Sample.noon + Sample.hour, Sample.send 12 100)] := by
    refine ⟨⟨by decide, ?_⟩, ⟨by decide, ?_⟩, ⟨by decide, ?_⟩, trivial⟩
    · exact ⟨fun _ _ _ => .inr (by decide), fun _ _ h => absurd h (not_limitedSide_none _),
        fun _ _ _ h => absurd h (not_limitedSide_none _)⟩
    · exact ⟨fun _ h => absurd h (not_limitedSide_none _), fun _ _ _ => .inr (by decide),
        fun _ _ h => absurd h (not_limitedSide_none _)⟩
    · exact ⟨fun _ _ _ => .inr (by decide), fun _ _ h => absurd h (not_limitedSide_none _),
        fun _ _ _ h => absurd h (not_limitedSide_none _)⟩
  exact usageRecorded_of_even (Sample.checking .BOTH) (by decide) rfl rfl rfl
    (Sample.oneAccount_start .BOTH) heven rfl

/-- A limit type that looks at beneficiaries; the first user transfers 300 to the second.  The first
has used 300, without a history, and the second has a history and no tracker. -/
theorem not_usageRecorded :
    let env := Sample.checking .BENEFICIARY
    let limitType := Sample.limitTypeOf .BENEFICIARY
    let start := Sample.start 3000 0
    let db := (run (step env) start [(Sample.noon, Sample.transfer 10 300)]).world.db
    env.limitTypeById limitType.id = some limitType ∧ limitType.periodStart = .DATE ∧
      start.world.db.operations.rows = [] ∧ start.world.db.userLimitTrackers.rows = [] ∧
      OneAccount start.world.db limitType ∧ db.operations.rows.length = 1 ∧
      ¬ UsageRecorded env limitType Sample.noon db := by
  refine ⟨by decide, rfl, rfl, rfl, Sample.oneAccount_start .BENEFICIARY, by decide +kernel, ?_⟩
  intro h
  have hused : ∃ t ∈ (run (step (Sample.checking .BENEFICIARY)) (Sample.start 3000 0)
      [(Sample.noon, Sample.transfer 10 300)]).world.db.userLimitTrackers.rows,
    ∃ l ∈ (run (step (Sample.checking .BENEFICIARY)) (Sample.start 3000 0)
      [(Sample.noon, Sample.transfer 10 300)]).world.db.userLimits.get? t.userLimit,
    ∃ a ∈ (run (step (Sample.checking .BENEFICIARY)) (Sample.start 3000 0)
      [(Sample.noon, Sample.transfer 10 300)]).world.db.walletAccounts.get? 1,
    ∃ w ∈ (run (step (Sample.checking .BENEFICIARY)) (Sample.start 3000 0)
      [(Sample.noon, Sample.transfer 10 300)]).world.db.wallets.get? a.wallet,
      l.limitType = 1 ∧ w.user = l.user ∧ a.id = 1 ∧ a.currency.id = 1 ∧
        t.used .day ≠ (getUsedLimit (Sample.checking .BENEFICIARY) Sample.noon a l
          (Sample.limitTypeOf .BENEFICIARY) (run (step (Sample.checking .BENEFICIARY))
            (Sample.start 3000 0) [(Sample.noon, Sample.transfer 10 300)]).world.db).period .day := by
    decide +kernel
  obtain ⟨t, ht, l, hl, a, ha, w, hw, hid, huser, haid, hcurrency, hne⟩ := hused
  refine hne (h.used t ht l hl hid a ⟨?_, ?_, w, hw, huser⟩ .day)
  · rw [haid]
    exact ha
  · rw [hcurrency]
    rfl

end ZroServices
