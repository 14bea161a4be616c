import ZroServices.Operations.System

/-!
# Operations — the charges that stand on a tracker

A tracker keeps amounts only.  What it was charged with is found on the operations: an operation
refers to the tracker it was charged to, and has tags until its value is given back
(`Db.standing`).

`Booked`: limits, trackers and operations fit together.  A limit has one tracker, an operation of a
limited owner refers to the tracker of the owner's limit, and what is PENDING or ACCEPTED stands
on it.  Storing an operation keeps that, charged or not (`Booked.opened`), and so does giving back
a reverted one (`Booked.given`).
-/

namespace ZroServices

open Foundation
open CreateOperationUseCase AcceptOperationUseCase RevertOperationUseCase
open HandleRevertedOperationEventUseCase HandleRevertedOperationEventController

namespace Operation

/-- The limit type that limits an operation: that of its transaction type, in its currency. -/
def limitType (env : Env) (o : Operation) : Option LimitType :=
  (o.transactionType.limitType.bind env.limitTypeById).filter fun limitType =>
    decide (limitType.currency = some o.currency)

/-- The side whose limit is charged: the owner, if there is one. -/
def limited (o : Operation) : Option Party := o.owner.or o.beneficiary

/-- The operation as a charge. -/
def charge (o : Operation) : Charge ℤ := ⟨o.createdAt, o.value⟩

/-- The operation counts in the limit checks. -/
def Counts (o : Operation) : Prop := o.state = .PENDING ∨ o.state = .ACCEPTED

instance (o : Operation) : Decidable o.Counts := inferInstanceAs (Decidable (_ ∨ _))

/-- The operation stands on the tracker: it was charged to it and is not given back. -/
def Stands (o : Operation) (tracker : Uuid) : Prop :=
  o.userLimitTracker = some tracker ∧ o.analysisTags ≠ []

instance (o : Operation) (tracker : Uuid) : Decidable (o.Stands tracker) :=
  inferInstanceAs (Decidable (_ ∧ _))

/-- Two operations that agree on everything the limits look at, but the state. -/
structure SameCharge (o o' : Operation) : Prop where
  id : o'.id = o.id
  owner : o'.owner = o.owner
  beneficiary : o'.beneficiary = o.beneficiary
  transactionType : o'.transactionType = o.transactionType
  currency : o'.currency = o.currency
  value : o'.value = o.value
  createdAt : o'.createdAt = o.createdAt
  analysisTags : o'.analysisTags = o.analysisTags
  userLimitTracker : o'.userLimitTracker = o.userLimitTracker

variable {o o' : Operation}

theorem SameCharge.limitType (h : SameCharge o o') (env : Env) :
    o'.limitType env = o.limitType env := by
  rw [Operation.limitType, Operation.limitType, h.transactionType, h.currency]

theorem SameCharge.limited (h : SameCharge o o') : o'.limited = o.limited := by
  rw [Operation.limited, Operation.limited, h.owner, h.beneficiary]

theorem SameCharge.charge (h : SameCharge o o') : o'.charge = o.charge := by
  rw [Operation.charge, Operation.charge, h.createdAt, h.value]

theorem SameCharge.stands (h : SameCharge o o') {tracker : Uuid} :
    o'.Stands tracker ↔ o.Stands tracker := by
  rw [Stands, Stands, h.userLimitTracker, h.analysisTags]

theorem sameCharge_linked (o : Operation) (other : Uuid) : SameCharge o (linked o other) :=
  ⟨rfl, rfl, rfl, rfl, rfl, rfl, rfl, rfl, rfl⟩

theorem sameCharge_accepted (o : Operation) : SameCharge o (accepted o) :=
  ⟨rfl, rfl, rfl, rfl, rfl, rfl, rfl, rfl, rfl⟩

theorem sameCharge_reverted (now : ℤ) (o : Operation) : SameCharge o (reverted now o) :=
  ⟨rfl, rfl, rfl, rfl, rfl, rfl, rfl, rfl, rfl⟩

end Operation

namespace Db

/-- The operations that stand on a tracker, oldest first. -/
def standing (db : Db) (tracker : Uuid) : List Operation :=
  db.operations.rows.filter fun o => decide (o.Stands tracker)

/-- The charges that stand on a tracker. -/
def charges (db : Db) (tracker : Uuid) : List (Charge ℤ) := (db.standing tracker).map (·.charge)

variable {db : Db} {o : Operation} {tracker : Uuid}

theorem mem_standing : o ∈ db.standing tracker ↔ o ∈ db.operations.rows ∧ o.Stands tracker := by
  rw [standing, List.mem_filter, decide_eq_true_eq]

/-- A limit that is found is found again by what it is for. -/
theorem userLimit_find {user : UserId} {limitType : LimitTypeId} {l : UserLimit}
    (h : db.userLimitByUserAndLimitType user limitType = some l) :
    db.userLimits.get? l.id = some l ∧
      db.userLimitByUserAndLimitType l.user l.limitType = some l := by
  obtain ⟨hmem, hu, ht⟩ := userLimit_of_find h
  exact ⟨Table.get?_of_mem hmem, by rw [hu, ht]; exact h⟩

theorem userLimitTracker_of_find {l : UserLimit} {t : UserLimitTracker}
    (h : db.userLimitTrackerByUserLimit l = some t) :
    t ∈ db.userLimitTrackers.rows ∧ t.userLimit = l.id := by
  have := List.find?_some h
  exact ⟨List.mem_of_find?_eq_some h, of_decide_eq_true this⟩

end Db

/-! ### The invariant -/

/-- The tracker and the limit that an operation was charged to. -/
structure Booking (env : Env) (db : Db) (o : Operation) (t : UserLimitTracker) (l : UserLimit) :
    Prop where
  userLimit : db.userLimits.get? t.userLimit = some l
  limitType : (o.limitType env).map (·.id) = some l.limitType
  user : o.limited.map (·.user) = some l.user
  tags : o.analysisTags = [] ∨ o.analysisTags = limitIncludedTags t.periodStart

/-- Limits, trackers and operations fit together. -/
structure Booked (env : Env) (db : Db) : Prop where
  nonneg : ∀ o ∈ db.operations.rows, 0 ≤ o.value
  one_tracker : ∀ t ∈ db.userLimitTrackers.rows, ∀ t' ∈ db.userLimitTrackers.rows,
    t.userLimit = t'.userLimit → t = t'
  limit : ∀ t ∈ db.userLimitTrackers.rows, ∃ l limitType,
    db.userLimits.get? t.userLimit = some l ∧
      db.userLimitByUserAndLimitType l.user l.limitType = some l ∧
      env.limitTypeById l.limitType = some limitType ∧ t.periodStart = limitType.periodStart
  booking : ∀ o ∈ db.operations.rows, ∀ tracker, o.userLimitTracker = some tracker →
    ∃ t l, db.userLimitTrackers.get? tracker = some t ∧ Booking env db o t l
  carried : ∀ o ∈ db.operations.rows, o.owner ≠ none → o.limitType env ≠ none →
    o.userLimitTracker ≠ none
  tagged : ∀ o ∈ db.operations.rows, o.userLimitTracker ≠ none → o.Counts → o.analysisTags ≠ []

/-! ### Changes that charge nothing -/

section
variable {env : Env} {now : ℤ} {db db' : Db} {o o' : Operation}

theorem Operation.SameCharge.refl (o : Operation) : Operation.SameCharge o o :=
  ⟨rfl, rfl, rfl, rfl, rfl, rfl, rfl, rfl, rfl⟩

theorem Booking.of_sameCharge {t : UserLimitTracker} {l : UserLimit} (h : Booking env db o t l)
    (hs : Operation.SameCharge o o') (hl : db'.userLimits.get? t.userLimit = some l) :
    Booking env db' o' t l where
  userLimit := hl
  limitType := by rw [hs.limitType]; exact h.limitType
  user := by rw [hs.limited]; exact h.user
  tags := by rw [hs.analysisTags]; exact h.tags

/-- The operations of `db'` are those of `db`, as far as the limits look at them. -/
def SameOperations (db db' : Db) : Prop :=
  ∀ x ∈ db'.operations.rows, ∃ y ∈ db.operations.rows,
    Operation.SameCharge y x ∧ (x.Counts → y.Counts)

theorem sameOperations_of_eq (h : db'.operations = db.operations) : SameOperations db db' := by
  intro x hx
  rw [h] at hx
  exact ⟨x, hx, .refl x, id⟩

theorem sameOperations_set (ho : db.operations.get? o.id = some o)
    (hs : Operation.SameCharge o o') (hc : o'.Counts → o.Counts)
    (hops : db'.operations = db.operations.set o') : SameOperations db db' := by
  intro x hx
  rw [hops] at hx
  rcases Table.mem_set.mp hx with ⟨hx, -⟩ | ⟨rfl, -⟩
  · exact ⟨x, hx, .refl x, id⟩
  · exact ⟨o, Table.mem_of_get? ho, hs, hc⟩

/-- Limits that are added leave everything booked. -/
theorem Booked.of_sameOperations (h : Booked env db) (hops : SameOperations db db')
    (ht : db'.userLimitTrackers = db.userLimitTrackers)
    (hget : ∀ id l, db.userLimits.get? id = some l → db'.userLimits.get? id = some l)
    (hfind : ∀ user limitType l, db.userLimitByUserAndLimitType user limitType = some l →
      db'.userLimitByUserAndLimitType user limitType = some l) : Booked env db' where
  nonneg x hx := by
    obtain ⟨y, hy, hs, -⟩ := hops x hx
    rw [hs.value]
    exact h.nonneg y hy
  one_tracker := by
    rw [ht]
    exact h.one_tracker
  limit t hmem := by
    rw [ht] at hmem
    obtain ⟨l, limitType, hl, hf, hlt, hp⟩ := h.limit t hmem
    exact ⟨l, limitType, hget _ _ hl, hfind _ _ _ hf, hlt, hp⟩
  booking x hx tracker hid := by
    obtain ⟨y, hy, hs, -⟩ := hops x hx
    rw [hs.userLimitTracker] at hid
    obtain ⟨t, l, hmem, hb⟩ := h.booking y hy tracker hid
    exact ⟨t, l, by rw [ht]; exact hmem, hb.of_sameCharge hs (hget _ _ hb.userLimit)⟩
  carried x hx howner hlimit := by
    obtain ⟨y, hy, hs, -⟩ := hops x hx
    rw [hs.owner] at howner
    rw [hs.limitType] at hlimit
    rw [hs.userLimitTracker]
    exact h.carried y hy howner hlimit
  tagged x hx htracker hc := by
    obtain ⟨y, hy, hs, hcounts⟩ := hops x hx
    rw [hs.userLimitTracker] at htracker
    rw [hs.analysisTags]
    exact h.tagged y hy htracker (hcounts hc)

theorem Booked.of_eq (h : Booked env db) (hops : SameOperations db db')
    (ht : db'.userLimitTrackers = db.userLimitTrackers) (hl : db'.userLimits = db.userLimits) :
    Booked env db' := by
  refine h.of_sameOperations hops ht (fun id l hid => by rw [hl]; exact hid) ?_
  intro user limitType l hf
  rw [Db.userLimitByUserAndLimitType, hl]
  exact hf

theorem Booked.limitCreated (h : Booked env db) (hc : db.LimitCreated env db') : Booked env db' := by
  refine h.of_sameOperations (sameOperations_of_eq hc.operations) hc.userLimitTrackers ?_
    fun _ _ _ => hc.find
  intro id l hid
  cases hc with
  | same => exact hid
  | created l' userLimits _ _ hins _ => exact Table.get?_insert?_of_some hins hid

/-! ### Storing a charged operation -/

/-- The tracker a value was charged to, as it is stored. -/
def TrackedLimit.charged (env : Env) (now : ℤ) (c : TrackedLimit) (value : ℤ) :
    UserLimitTracker :=
  { chargeTracker env now c.userLimit c.tracker value with updatedAt := now }

variable {tt : TransactionType} {i : OperationInfo} {c : TrackedLimit} {t : Table Operation}

theorem OperationInfo.operation_limitType :
    (i.operation env now tt).limitType env = limitTypeOf env i.charged.walletAccount tt := by
  rw [Operation.limitType, limitTypeOf, OperationInfo.operation_transactionType,
    OperationInfo.operation_currency]
  cases i <;> rfl

theorem OperationInfo.operation_limited :
    (i.operation env now tt).limited = some i.charged.party := by
  rw [Operation.limited, OperationInfo.operation_owner, OperationInfo.operation_beneficiary]
  cases i <;> rfl

theorem limitTypeOf_find {a : WalletAccount} {limitType : LimitType}
    (h : limitTypeOf env a tt = some limitType) :
    env.limitTypeById limitType.id = some limitType := by
  obtain ⟨h, -⟩ := Option.filter_eq_some_iff.mp h
  obtain ⟨id, -, h⟩ := Option.bind_eq_some_iff.mp h
  have := List.find?_some h
  rw [of_decide_eq_true this]
  exact h

/-- The tracker of a limit that an operation may be charged to, and what it was before. -/
structure Charged (env : Env) (now : ℤ) (db : Db) (i : OperationInfo) (tt : TransactionType)
    (c : TrackedLimit) (limitType : LimitType) : Prop where
  ofType : limitTypeOf env i.charged.walletAccount tt = some limitType
  find : db.userLimitByUserAndLimitType i.charged.wallet.user limitType.id = some c.userLimit
  tracker : UpToDate env now limitType db c
  fits : ∀ u, i.value + c.tracker.used u ≤ c.userLimit.periodLimit u

theorem Opening.charged (h : Opening env now tt db i) (hc : i.userLimitTracker = some c) :
    ∃ limitType, Charged env now db i tt c limitType := by
  have := h.charging
  rw [hc] at this
  obtain ⟨limitType, hlt, hf, hu, hfits⟩ := this
  exact ⟨limitType, hlt, hf, hu, hfits⟩

variable {limitType : LimitType}

section

variable (h : Charged env now db i tt c limitType)
include h

/-- The tracker that is charged belongs to the limit, and no other tracker does. -/
theorem Charged.of_userLimit (hb : Booked env db) :
    c.tracker.userLimit = c.userLimit.id ∧ c.tracker.periodStart = limitType.periodStart ∧
      ∀ t ∈ db.userLimitTrackers.rows, t.userLimit = c.userLimit.id → t.id = c.tracker.id := by
  cases h.tracker with
  | stored t ht hc =>
      obtain ⟨hmem, hid⟩ := Db.userLimitTracker_of_find ht
      obtain ⟨l, lt, hl, -, hlt, hp⟩ := hb.limit t hmem
      obtain ⟨hget, -⟩ := Db.userLimit_find h.find
      obtain ⟨-, -, hltid⟩ := Db.userLimit_of_find h.find
      rw [hid, hget] at hl
      obtain rfl := Option.some.inj hl
      rw [hltid, limitTypeOf_find h.ofType] at hlt
      obtain rfl := Option.some.inj hlt
      rw [hc, restart_userLimit, restart_periodStart, restart_id]
      exact ⟨hid, hp, fun t' ht' hid' =>
        congrArg _ (hb.one_tracker t' ht' t hmem (hid'.trans hid.symm))⟩
  | new hnew =>
      exact ⟨hnew.userLimit, hnew.periodStart, fun t' ht' hid' =>
        absurd hid' (hnew.no_tracker t' ht').1⟩

/-- What an operation that refers to the charged tracker was charged to before. -/
theorem Charged.booking (hb : Booked env db)
    (ho : o ∈ db.operations.rows) (hid : o.userLimitTracker = some c.tracker.id) :
    Booking env db o (c.charged env now i.value) c.userLimit := by
  obtain ⟨t, l, ht, hbooking⟩ := hb.booking o ho _ hid
  cases h.tracker with
  | stored t' ht' hc =>
      obtain ⟨hmem', hid'⟩ := Db.userLimitTracker_of_find ht'
      have found := Table.get?_of_mem hmem'
      have hid : c.tracker.id = t'.id := by rw [hc, restart_id]
      rw [UserLimitTracker.key_eq, ← hid, ht] at found
      obtain rfl := Option.some.inj found
      have hl := hbooking.userLimit
      rw [hid', (Db.userLimit_find h.find).1] at hl
      obtain rfl := Option.some.inj hl
      obtain ⟨hu, hp, -⟩ := h.of_userLimit hb
      refine ⟨?_, hbooking.limitType, hbooking.user, ?_⟩
      · change db.userLimits.get? c.tracker.userLimit = _
        rw [hu, ← hid']
        exact hbooking.userLimit
      · change _ ∨ _ = limitIncludedTags c.tracker.periodStart
        rw [hc, restart_periodStart]
        exact hbooking.tags
  | new hnew => exact absurd hid (hnew.no_operation o ho)

/-- The operation that is stored, charged to a tracker. -/
theorem Charged.booking_new (hb : Booked env db) (hc : i.userLimitTracker = some c) :
    Booking env db (i.operation env now tt) (c.charged env now i.value) c.userLimit where
  userLimit := by
    change db.userLimits.get? c.tracker.userLimit = _
    rw [(h.of_userLimit hb).1]
    exact (Db.userLimit_find h.find).1
  limitType := by
    rw [OperationInfo.operation_limitType, h.ofType]
    exact congrArg some (Db.userLimit_of_find h.find).2.2.symm
  user := by
    rw [OperationInfo.operation_limited]
    exact congrArg some (Db.userLimit_of_find h.find).2.1.symm
  tags := by
    rw [OperationInfo.operation_analysisTags, hc]
    exact Or.inr rfl

end

/-- The trackers after an operation was charged to one. -/
theorem mem_chargedTrackers (hc : i.userLimitTracker = some c) {x : UserLimitTracker} :
    x ∈ (i.store env now t db).userLimitTrackers.rows ↔
      (x ∈ db.userLimitTrackers.rows ∧ x.id ≠ c.tracker.id) ∨ x = c.charged env now i.value := by
  change x ∈ (i.userLimitTrackers env now db.userLimitTrackers).rows ↔ _
  rw [OperationInfo.userLimitTrackers, hc]
  exact Table.mem_upsert

theorem get?_chargedTracker (hc : i.userLimitTracker = some c) :
    (i.store env now t db).userLimitTrackers.get? c.tracker.id
      = some (c.charged env now i.value) := by
  change (i.userLimitTrackers env now db.userLimitTrackers).get? _ = _
  rw [OperationInfo.userLimitTrackers, hc]
  exact Table.get?_upsert_self (r := c.charged env now i.value)

theorem get?_chargedTracker_ne (hc : i.userLimitTracker = some c) {id : Uuid}
    (hid : id ≠ c.tracker.id) :
    (i.store env now t db).userLimitTrackers.get? id = db.userLimitTrackers.get? id := by
  change (i.userLimitTrackers env now db.userLimitTrackers).get? _ = _
  rw [OperationInfo.userLimitTrackers, hc]
  exact Table.get?_upsert_ne (r := c.charged env now i.value) hid.symm

/-- An operation that is stored without a charge. -/
theorem Booked.opened_free (h : Booked env db) (ho : Opening env now tt db i)
    (hins : db.operations.insert? (i.operation env now tt) = some t)
    (hc : i.userLimitTracker = none) : Booked env (i.store env now t db) := by
  have trackers : (i.store env now t db).userLimitTrackers = db.userLimitTrackers := by
    change i.userLimitTrackers env now _ = _
    rw [OperationInfo.userLimitTrackers, hc]
  have tracker : (i.operation env now tt).userLimitTracker = none := by
    rw [OperationInfo.operation_userLimitTracker, hc]
    rfl
  have free : (i.operation env now tt).limitType env = none := by
    have := ho.charging
    rw [hc] at this
    exact OperationInfo.operation_limitType.trans this
  refine ⟨fun x hx => ?_, ?_, ?_, fun x hx id hid => ?_, fun x hx hown hlim => ?_,
    fun x hx hid => ?_⟩
  · rcases (Table.mem_insert? hins).mp hx with hx | rfl
    · exact h.nonneg x hx
    · rw [OperationInfo.operation_value]
      exact ho.value_nonneg
  · rw [trackers]
    exact h.one_tracker
  · rw [trackers]
    exact h.limit
  · rw [trackers]
    rcases (Table.mem_insert? hins).mp hx with hx | rfl
    · obtain ⟨t', l, ht', hb⟩ := h.booking x hx id hid
      exact ⟨t', l, ht', hb.of_sameCharge (.refl x) hb.userLimit⟩
    · rw [tracker] at hid
      cases hid
  · rcases (Table.mem_insert? hins).mp hx with hx | rfl
    · exact h.carried x hx hown hlim
    · exact absurd free hlim
  · rcases (Table.mem_insert? hins).mp hx with hx | rfl
    · exact h.tagged x hx hid
    · exact absurd tracker hid

/-- An operation that is stored and charged to a tracker. -/
theorem Booked.opened_charged (h : Booked env db) (ho : Opening env now tt db i)
    (hins : db.operations.insert? (i.operation env now tt) = some t)
    (hc : i.userLimitTracker = some c) : Booked env (i.store env now t db) := by
  obtain ⟨limitType, hcharged⟩ := ho.charged hc
  obtain ⟨huser, hperiod, honly⟩ := hcharged.of_userLimit h
  have tracker : (i.operation env now tt).userLimitTracker = some c.tracker.id := by
    rw [OperationInfo.operation_userLimitTracker, hc]
    rfl
  refine ⟨fun x hx => ?_, fun x hx y hy hxy => ?_, fun x hx => ?_, fun x hx id hid => ?_,
    fun x hx hown hlim => ?_, fun x hx hid hcounts => ?_⟩
  · rcases (Table.mem_insert? hins).mp hx with hx | rfl
    · exact h.nonneg x hx
    · rw [OperationInfo.operation_value]
      exact ho.value_nonneg
  · rcases (mem_chargedTrackers hc).mp hx with ⟨hx, hx'⟩ | rfl
    · rcases (mem_chargedTrackers hc).mp hy with ⟨hy, -⟩ | rfl
      · exact h.one_tracker x hx y hy hxy
      · exact absurd (honly x hx (hxy.trans huser)) hx'
    · rcases (mem_chargedTrackers hc).mp hy with ⟨hy, hy'⟩ | rfl
      · exact absurd (honly y hy (hxy.symm.trans huser)) hy'
      · rfl
  · rcases (mem_chargedTrackers hc).mp hx with ⟨hx, -⟩ | rfl
    · exact h.limit x hx
    · obtain ⟨hget, hfind⟩ := Db.userLimit_find hcharged.find
      refine ⟨c.userLimit, limitType, ?_, hfind, ?_, hperiod⟩
      · exact (hcharged.booking_new h hc).userLimit
      · rw [(Db.userLimit_of_find hcharged.find).2.2]
        exact limitTypeOf_find hcharged.ofType
  · rcases (Table.mem_insert? hins).mp hx with hx | rfl
    · by_cases hne : id = c.tracker.id
      · subst hne
        have hb := hcharged.booking h hx hid
        exact ⟨_, _, get?_chargedTracker hc, hb.of_sameCharge (.refl x) hb.userLimit⟩
      · obtain ⟨t', l, ht', hb⟩ := h.booking x hx id hid
        refine ⟨t', l, ?_, hb.of_sameCharge (.refl x) hb.userLimit⟩
        rw [get?_chargedTracker_ne hc hne]
        exact ht'
    · rw [tracker] at hid
      obtain rfl := Option.some.inj hid
      have hb := hcharged.booking_new h hc
      exact ⟨_, _, get?_chargedTracker hc, hb.of_sameCharge (.refl _) hb.userLimit⟩
  · rcases (Table.mem_insert? hins).mp hx with hx | rfl
    · exact h.carried x hx hown hlim
    · rw [tracker]
      simp
  · rcases (Table.mem_insert? hins).mp hx with hx | rfl
    · exact h.tagged x hx hid hcounts
    · rw [OperationInfo.operation_analysisTags, hc]
      exact limitIncludedTags_ne_nil _

theorem Booked.opened (h : Booked env db) (ho : Opening env now tt db i)
    (hins : db.operations.insert? (i.operation env now tt) = some t) :
    Booked env (i.store env now t db) := by
  cases hc : i.userLimitTracker with
  | none => exact h.opened_free ho hins hc
  | some c => exact h.opened_charged ho hins hc

/-! ### Giving back -/

@[simp] theorem revert_id (l : UserLimit) (item : OperationItem) (t : UserLimitTracker) :
    (revertUserLimitTracker env now l item t).id = t.id := by
  simp only [revertUserLimitTracker, revertNightly]
  split_ifs <;> rfl

@[simp] theorem revert_userLimit (l : UserLimit) (item : OperationItem) (t : UserLimitTracker) :
    (revertUserLimitTracker env now l item t).userLimit = t.userLimit := by
  simp only [revertUserLimitTracker, revertNightly]
  split_ifs <;> rfl

@[simp] theorem revert_periodStart (l : UserLimit) (item : OperationItem) (t : UserLimitTracker) :
    (revertUserLimitTracker env now l item t).periodStart = t.periodStart := by
  simp only [revertUserLimitTracker, revertNightly]
  split_ifs <;> rfl

/-- The operation once its value was given back. -/
def Operation.given (o : Operation) : Operation := { o with analysisTags := [] }

/-- The tracker an operation was given back to, as it is stored. -/
def givenTracker (env : Env) (now : ℤ) (item : OperationItem) (c : TrackedLimit) :
    UserLimitTracker :=
  { revertUserLimitTracker env now c.userLimit item c.tracker with updatedAt := now }

variable {item : OperationItem} {x : Operation} {tracker : Uuid}

theorem operations_givenBack (hx : db.operations.get? item.id = some x) :
    (givenBack env now item c db).operations = db.operations.set x.given := by
  change OperationRepository.withAnalysisTags _ _ _ = _
  rw [OperationRepository.withAnalysisTags, hx]
  rfl

theorem userLimitTrackers_givenBack :
    (givenBack env now item c db).userLimitTrackers
      = db.userLimitTrackers.set (givenTracker env now item c) := rfl

@[simp] theorem givenTracker_id : (givenTracker env now item c).id = c.tracker.id :=
  revert_id c.userLimit item c.tracker

@[simp] theorem givenTracker_userLimit :
    (givenTracker env now item c).userLimit = c.tracker.userLimit :=
  revert_userLimit c.userLimit item c.tracker

@[simp] theorem givenTracker_periodStart :
    (givenTracker env now item c).periodStart = c.tracker.periodStart :=
  revert_periodStart c.userLimit item c.tracker

/-- A tracker after a release was one before. -/
theorem mem_givenTrackers (hc : db.userLimitTrackers.get? tracker = some c.tracker)
    {y : UserLimitTracker}
    (hy : y ∈ (givenBack env now item c db).userLimitTrackers.rows) :
    ∃ y' ∈ db.userLimitTrackers.rows,
      y.id = y'.id ∧ y.userLimit = y'.userLimit ∧ y.periodStart = y'.periodStart := by
  rcases Table.mem_set.mp hy with ⟨hy, -⟩ | ⟨rfl, -⟩
  · exact ⟨y, hy, rfl, rfl, rfl⟩
  · exact ⟨c.tracker, Table.mem_of_get? hc, givenTracker_id, givenTracker_userLimit,
      givenTracker_periodStart⟩

variable (env now item) in
/-- A tracker before a release is one after. -/
theorem get?_givenTracker (hc : db.userLimitTrackers.get? tracker = some c.tracker) {id : Uuid}
    {y : UserLimitTracker} (hy : db.userLimitTrackers.get? id = some y) :
    ∃ y', (givenBack env now item c db).userLimitTrackers.get? id = some y' ∧
      y'.userLimit = y.userLimit ∧ y'.periodStart = y.periodStart := by
  have hid : c.tracker.id = tracker := Table.key_of_get? hc
  rw [userLimitTrackers_givenBack]
  by_cases e : id = tracker
  · subst e
    rw [hc] at hy
    obtain rfl := Option.some.inj hy
    exact ⟨_, Table.get?_set_self hc (givenTracker_id.trans hid), givenTracker_userLimit,
      givenTracker_periodStart⟩
  · refine ⟨y, ?_, rfl, rfl⟩
    rw [Table.get?_set_ne]
    · exact hy
    · rw [UserLimitTracker.key_eq, givenTracker_id, hid]
      exact fun e' => e e'.symm

/-- A reverted operation that is given back leaves everything booked. -/
theorem Booked.given (h : Booked env db) (hx : db.operations.get? item.id = some x)
    (hstate : x.state = .REVERTED) (hc : db.userLimitTrackers.get? tracker = some c.tracker) :
    Booked env (givenBack env now item c db) := by
  have operation : ∀ o' ∈ (givenBack env now item c db).operations.rows,
      o' ∈ db.operations.rows ∨ o' = x.given := by
    intro o' ho'
    rw [operations_givenBack hx] at ho'
    rcases Table.mem_set.mp ho' with ⟨ho', -⟩ | ⟨rfl, -⟩
    · exact Or.inl ho'
    · exact Or.inr rfl
  have hmem := Table.mem_of_get? hx
  refine ⟨fun o' ho' => ?_, fun y hy z hz hyz => ?_, fun y hy => ?_, fun o' ho' id hid => ?_,
    fun o' ho' hown hlim => ?_, fun o' ho' hid hcounts => ?_⟩
  · rcases operation o' ho' with ho' | rfl
    · exact h.nonneg o' ho'
    · exact h.nonneg x hmem
  · obtain ⟨y', hy', hyid, hyl, -⟩ := mem_givenTrackers hc hy
    obtain ⟨z', hz', hzid, hzl, -⟩ := mem_givenTrackers hc hz
    have e := h.one_tracker y' hy' z' hz' (hyl.symm.trans (hyz.trans hzl))
    exact Table.eq_of_key hy hz (hyid.trans ((congrArg _ e).trans hzid.symm))
  · obtain ⟨y', hy', -, hyl, hyp⟩ := mem_givenTrackers hc hy
    obtain ⟨l, lt, hl, hf, hlt, hp⟩ := h.limit y' hy'
    exact ⟨l, lt, hyl ▸ hl, hf, hlt, hyp.trans hp⟩
  · have booked : ∃ t l, db.userLimitTrackers.get? id = some t ∧ Booking env db o' t l := by
      rcases operation o' ho' with ho' | rfl
      · exact h.booking o' ho' id hid
      · obtain ⟨t, l, ht, hb⟩ := h.booking x hmem id hid
        exact ⟨t, l, ht, hb.userLimit, hb.limitType, hb.user, Or.inl rfl⟩
    obtain ⟨t, l, ht, hb⟩ := booked
    obtain ⟨t', ht', hl', hp'⟩ := get?_givenTracker env now item hc ht
    exact ⟨t', l, ht', hl' ▸ hb.userLimit, hb.limitType, hb.user, hp' ▸ hb.tags⟩
  · rcases operation o' ho' with ho' | rfl
    · exact h.carried o' ho' hown hlim
    · exact h.carried x hmem hown hlim
  · rcases operation o' ho' with ho' | rfl
    · exact h.tagged o' ho' hid hcounts
    · have : x.Counts := hcounts
      rw [Operation.Counts, hstate] at this
      rcases this with e | e <;> cases e

end

end ZroServices
