import ZroServices.Operations.Queue

/-!
# Operations — what a command does to a tracker and its charges

A tracker is read together with the charges that stand on it.  `Update` is everything that a
command can do to the two (`step_update`): nothing; charge a value to a tracker that was brought
up to date, or to a new one; or give the charge of a reverted operation back.

An invariant of a tracker and its charges is shown to be kept by an update, and `run_tracked`
carries it over runs.
-/

namespace ZroServices

open Foundation
open CreateOperationUseCase AcceptOperationUseCase RevertOperationUseCase
open HandleRevertedOperationEventUseCase HandleRevertedOperationEventController

section
variable {env : Env} {now : ℤ} {db db' : Db} {o o' x : Operation} {tt : TransactionType}
  {i : OperationInfo} {c : TrackedLimit} {t : Table Operation} {tracker : Uuid}

/-! ### Charges -/

theorem charges_eq (h : db'.operations = db.operations) : db'.charges tracker = db.charges tracker := by
  rw [Db.charges, Db.charges, Db.standing, Db.standing, h]

/-- Replacing an operation by one of the same charge. -/
theorem charges_set (ho : db.operations.get? o.id = some o) (hs : Operation.SameCharge o o')
    (hops : db'.operations = db.operations.set o') :
    db'.charges tracker = db.charges tracker := by
  obtain ⟨pre, post, e, hset⟩ := Table.set_split ho
  rw [Db.charges, Db.charges, Db.standing, Db.standing, hops, hset o' hs.id, e]
  simp only [List.filter_append, List.filter_cons, hs.stands]
  split
  · simp only [List.map_append, List.map_cons, hs.charge]
  · rfl

/-- Storing an operation adds its charge to the tracker it was charged to. -/
theorem charges_store (hins : db.operations.insert? (i.operation env now tt) = some t) :
    (i.store env now t db).charges tracker = db.charges tracker
      ++ if i.userLimitTracker.map (·.tracker.id) = some tracker then [⟨now, i.value⟩] else [] := by
  have stands : (i.operation env now tt).Stands tracker ↔
      i.userLimitTracker.map (·.tracker.id) = some tracker := by
    rw [Operation.Stands, OperationInfo.operation_userLimitTracker,
      OperationInfo.operation_analysisTags]
    refine and_iff_left_of_imp fun h => ?_
    obtain ⟨c, hc, -⟩ := Option.map_eq_some_iff.mp h
    rw [hc]
    exact limitIncludedTags_ne_nil _
  rw [Db.charges, Db.standing]
  change List.map _ (t.rows.filter _) = _
  rw [(Table.insert?_eq_some hins).2, List.filter_append, List.map_append]
  congr 1
  rw [List.filter_singleton]
  by_cases h : i.userLimitTracker.map (·.tracker.id) = some tracker
  · rw [if_pos h, decide_eq_true (stands.mpr h)]
    simp [Operation.charge]
  · rw [if_neg h, decide_eq_false (fun q => h (stands.mp q))]
    rfl

/-- Giving an operation back takes its charge away. -/
theorem charges_given (hx : db.operations.get? x.id = some x) (hstands : x.Stands tracker)
    (hops : db'.operations = db.operations.set x.given) :
    (∃ pre post, db.charges tracker = pre ++ x.charge :: post ∧
      db'.charges tracker = pre ++ post) ∧
    ∀ tracker', tracker' ≠ tracker → db'.charges tracker' = db.charges tracker' := by
  obtain ⟨pre, post, e, hset⟩ := Table.set_split hx
  have given : ∀ tracker', ¬ x.given.Stands tracker' := fun _ h => h.2 rfl
  refine ⟨⟨(pre.filter fun o => decide (o.Stands tracker)).map (·.charge),
    (post.filter fun o => decide (o.Stands tracker)).map (·.charge), ?_, ?_⟩,
    fun tracker' hne => ?_⟩
  · rw [Db.charges, Db.standing, e]
    simp [List.filter_append, hstands]
  · rw [Db.charges, Db.standing, hops, hset x.given rfl]
    simp [List.filter_append, given]
  · have other : ¬ x.Stands tracker' := by
      rintro ⟨h, -⟩
      exact hne (Option.some.inj (h.symm.trans hstands.1))
    rw [Db.charges, Db.charges, Db.standing, Db.standing, hops, hset x.given rfl, e]
    simp [List.filter_append, given, other]

/-- Nothing refers to the tracker. -/
theorem charges_eq_nil (h : ∀ o ∈ db.operations.rows, o.userLimitTracker ≠ some tracker) :
    db.charges tracker = [] := by
  rw [Db.charges, List.map_eq_nil_iff, Db.standing, List.filter_eq_nil_iff]
  intro o ho
  rw [decide_eq_true_eq]
  exact fun hs => h o ho hs.1

/-- No tracker is touched, and no charge. -/
structure Quiet (db db' : Db) : Prop where
  trackers : db'.userLimitTrackers = db.userLimitTrackers
  charges : ∀ tracker, db'.charges tracker = db.charges tracker

theorem Quiet.trans {db₁ db₂ db₃ : Db} (h : Quiet db₁ db₂) (h' : Quiet db₂ db₃) :
    Quiet db₁ db₃ where
  trackers := h'.trackers.trans h.trackers
  charges tracker := (h'.charges tracker).trans (h.charges tracker)

theorem quiet_of_eq (ht : db'.userLimitTrackers = db.userLimitTrackers)
    (ho : db'.operations = db.operations) : Quiet db db' :=
  ⟨ht, fun _ => charges_eq ho⟩

theorem quiet_set (ht : db'.userLimitTrackers = db.userLimitTrackers)
    (ho : db.operations.get? o.id = some o) (hs : Operation.SameCharge o o')
    (hops : db'.operations = db.operations.set o') : Quiet db db' :=
  ⟨ht, fun _ => charges_set ho hs hops⟩

theorem quiet_linked (ho : db.operations.get? o.id = some o) (other : Uuid) :
    Quiet db { db with operations := db.operations.set (linked o other) } :=
  quiet_set rfl ho (Operation.sameCharge_linked o other) rfl

/-- Storing an operation that is charged to no tracker. -/
theorem quiet_store (hins : db.operations.insert? (i.operation env now tt) = some t)
    (hc : i.userLimitTracker = none) : Quiet db (i.store env now t db) where
  trackers := by
    change i.userLimitTrackers env now _ = _
    rw [OperationInfo.userLimitTrackers, hc]
  charges tracker := by
    rw [charges_store hins, hc]
    exact List.append_nil _

end

/-! ### Who is limited -/

/-- The user and the limit type that limit what a participant does. -/
def CreateOperationParticipant.limited (env : Env) (db : Db) (transactionType : TransactionType)
    (p : CreateOperationParticipant) : Option (UserId × LimitType) := do
  let wallet ← db.wallets.get? (← p.wallet)
  let currency ← env.currencyByTag (← p.currency)
  let walletAccount ← db.walletAccountByWalletAndCurrency wallet currency
  let limitType ← limitTypeOf env walletAccount transactionType
  return (wallet.user, limitType)

/-- The user and the limit type that limit a side of a request. -/
def sideLimited (env : Env) (db : Db) (tag : String) (side : Option CreateOperationParticipant) :
    Option (UserId × LimitType) := do
  let transactionType ← env.transactionTypeByTag tag
  let p ← side
  p.limited env db transactionType

/-- The user and the limit type that a command charges: the owner's, or else the beneficiary's. -/
def Command.limited (env : Env) (db : Db) : Command → Option (UserId × LimitType)
  | .create tag ownerInfo beneficiaryInfo =>
      (sideLimited env db tag ownerInfo).or (sideLimited env db tag beneficiaryInfo)
  | _ => none

namespace CreateOperationUseCase

section
variable {env : Env} {now : ℤ} {tag : String}
  {ownerInfo beneficiaryInfo : Option CreateOperationParticipant} {w w' : World}
  {r : CreatedOperation} {tt : TransactionType} {owner : Option OwnerSide}
  {beneficiary : Option BeneficiarySide} {db db₁ db₂ db₃ : Db} {i : OperationInfo}
  {limitType : LimitType}

/-- What limits a participant that was loaded. -/
def LoadedParticipant.limited (env : Env) (tt : TransactionType) (p : LoadedParticipant) :
    Option (UserId × LimitType) :=
  (limitTypeOf env p.walletAccount tt).map fun limitType => (p.wallet.user, limitType)

theorem Loaded.limited {p : CreateOperationParticipant} {q : LoadedParticipant}
    (hr : Requested p q.info) (hl : Loaded env db q) :
    p.limited env db tt = LoadedParticipant.limited env tt q := by
  obtain ⟨c, hc, -, ha⟩ := hl.currency
  rw [CreateOperationParticipant.limited, hr.wallet, hr.currency]
  simp only [bind, Option.bind, hl.wallet, hc, ha]
  rw [LoadedParticipant.limited]
  cases limitTypeOf env q.walletAccount tt <;> rfl

theorem sideLimited_of_loaded {p : CreateOperationParticipant} {q : LoadedParticipant}
    (htt : env.transactionTypeByTag tag = some tt) (hr : Requested p q.info)
    (hl : Loaded env db q) :
    sideLimited env db tag (some p) = LoadedParticipant.limited env tt q := by
  rw [sideLimited, htt]
  exact Loaded.limited hr hl

section

variable (h : Execution env now tag ownerInfo beneficiaryInfo w w' r tt owner beneficiary db₁ db₂ db₃)
include h

theorem Execution.owner_limited :
    sideLimited env w.db tag ownerInfo
      = owner.bind fun o => LoadedParticipant.limited env tt o.toLoadedParticipant := by
  have requested := h.ownerRequested
  cases owner with
  | none =>
      cases requested
      rw [sideLimited, h.transactionType]
      rfl
  | some o =>
      cases requested with
      | some hr => exact sideLimited_of_loaded h.transactionType hr (h.ownerLoaded o rfl)

theorem Execution.beneficiary_limited :
    sideLimited env w.db tag beneficiaryInfo
      = beneficiary.bind fun b => LoadedParticipant.limited env tt b.toLoadedParticipant := by
  have requested := h.beneficiaryRequested
  cases beneficiary with
  | none =>
      cases requested
      rw [sideLimited, h.transactionType]
      rfl
  | some b =>
      cases requested with
      | some hr => exact sideLimited_of_loaded h.transactionType hr (h.beneficiaryLoaded b rfl)

/-- The command charges the participant that is charged, unless the owner is limited as well. -/
theorem Execution.limited
    (hi : (∃ o, owner = some o ∧ i.charged = o.toLoadedParticipant) ∨
      (∃ b, beneficiary = some b ∧ i.charged = b.toLoadedParticipant) ∧
        ∀ o, owner = some o → limitTypeOf env o.walletAccount tt = none)
    (hlt : limitTypeOf env i.charged.walletAccount tt = some limitType) :
    (Command.create tag ownerInfo beneficiaryInfo).limited env w.db
      = some (i.charged.wallet.user, limitType) := by
  rw [Command.limited, h.owner_limited, h.beneficiary_limited]
  rcases hi with ⟨o, rfl, e⟩ | ⟨⟨b, rfl, e⟩, hnone⟩
  · rw [e] at hlt ⊢
    rw [Option.bind_some, LoadedParticipant.limited, hlt]
    rfl
  · rw [e] at hlt ⊢
    have none : (owner.bind fun o => LoadedParticipant.limited env tt o.toLoadedParticipant)
        = none := by
      cases owner with
      | none => rfl
      | some o =>
          rw [Option.bind_some, LoadedParticipant.limited, hnone o rfl]
          rfl
    rw [none, Option.none_or, Option.bind_some, LoadedParticipant.limited, hlt]
    rfl

end

end

end CreateOperationUseCase

/-! ### Updates -/

/-- What the `n`-th event of the queue gives back, and the tracker and limit it is given back
to. -/
def Db.delivered (db : Db) (n : ℕ) : Option (OperationItem × TrackedLimit) :=
  match db.events[n]? with
  | some (.operation .REVERTED ⟨some j, b⟩) =>
      if j.item.analysisTags = [] then none
      else do
        let t ← (attachedTracker j b).bind db.userLimitTrackers.get?
        let l ← db.userLimits.get? t.userLimit
        return (j.item, ⟨l, t⟩)
  | _ => none

theorem Db.delivered_of_finds {db : Db} {n : ℕ} {j : OperationEventItem}
    {b : Option OperationEventItem} {c : TrackedLimit}
    (he : db.events[n]? = some (.operation .REVERTED ⟨some j, b⟩))
    (htags : j.item.analysisTags ≠ []) (hc : Finds db (attachedTracker j b) c) :
    db.delivered n = some (j.item, c) := by
  obtain ⟨tracker, hid, hct, hcl⟩ := hc
  rw [Db.delivered, he]
  simp only [if_neg htags]
  rw [hid, Option.bind_some, hct]
  simp only [bind, Option.bind_some]
  rw [hcl]
  rfl

section
variable (env : Env) (now : ℤ)

/-- What a command may have done to a tracker, with the charges that stand on it after;
`userLimits` are the limits after. -/
inductive Update (db : Db) (command : Command) (userLimits : Table UserLimit) :
    UserLimitTracker → List (Charge ℤ) → Prop
  | kept (t : UserLimitTracker) (ht : t ∈ db.userLimitTrackers.rows) :
      Update db command userLimits t (db.charges t.id)
  | charged (l : UserLimit) (t : UserLimitTracker) (limitType : LimitType) (v : ℤ)
      (hcommand : command.limited env db = some (l.user, limitType))
      (hl : db.userLimitByUserAndLimitType l.user limitType.id = some l)
      (ht : db.userLimitTrackerByUserLimit l = some t) (hget : userLimits.get? l.id = some l)
      (hv : 0 ≤ v)
      (hfits : ∀ u, v + (restartUserLimitTracker env now l t).used u ≤ l.periodLimit u) :
      Update db command userLimits
        ((TrackedLimit.mk l (restartUserLimitTracker env now l t)).charged env now v)
        (db.charges t.id ++ [⟨now, v⟩])
  | started (c : TrackedLimit) (limitType : LimitType) (v : ℤ)
      (hcommand : command.limited env db = some (c.userLimit.user, limitType))
      (hvalues : db.limitValues env c.userLimit.user limitType = some c.userLimit.toLimitValues)
      (hc : NewTracker limitType db c) (hget : userLimits.get? c.userLimit.id = some c.userLimit)
      (hv : 0 ≤ v) (hfits : ∀ u, v + c.tracker.used u ≤ c.userLimit.periodLimit u) :
      Update db command userLimits (c.charged env now v) [⟨now, v⟩]
  | given (n : ℕ) (j : OperationEventItem) (b : Option OperationEventItem) (c : TrackedLimit)
      (pre post : List (Charge ℤ)) (hcommand : command = .deliver n)
      (he : db.events[n]? = some (.operation .REVERTED ⟨some j, b⟩))
      (hc : Finds db (attachedTracker j b) c)
      (hH : db.charges c.tracker.id = pre ++ ⟨j.item.createdAt, j.item.value⟩ :: post)
      (htags : j.item.analysisTags = limitIncludedTags c.tracker.periodStart) :
      Update db command userLimits (givenTracker env now j.item c) (pre ++ post)

end

section
variable {env : Env} {now : ℤ} {db db₁ db' : Db} {command : Command} {i : OperationInfo}
  {tt : TransactionType} {t : Table Operation} {c : TrackedLimit} {limitType : LimitType}

theorem Update.of_eq {userLimits : Table UserLimit} {y : UserLimitTracker} {H : List (Charge ℤ)}
    (h : Update env now db command userLimits y H) {H' : List (Charge ℤ)} (e : H' = H) :
    Update env now db command userLimits y H' := e ▸ h

/-- Every tracker of `db'`, with its charges, is an update. -/
def Updates (env : Env) (now : ℤ) (db : Db) (command : Command) (db' : Db) : Prop :=
  ∀ y ∈ db'.userLimitTrackers.rows,
    Update env now db command db'.userLimits y (db'.charges y.id)

theorem Quiet.updates (hq : Quiet db db') : Updates env now db command db' := by
  intro y hy
  rw [hq.trackers] at hy
  exact (Update.kept y hy).of_eq (hq.charges y.id)

theorem Updates.quiet (h : Updates env now db command db₁) (hq : Quiet db₁ db')
    (hl : db'.userLimits = db₁.userLimits) : Updates env now db command db' := by
  intro y hy
  rw [hq.trackers] at hy
  rw [hl]
  exact (h y hy).of_eq (hq.charges y.id)

/-- The charge that was checked in `db₁`, where limits were created, is a charge in `db`. -/
theorem Charged.update (h : Charged env now db₁ i tt c limitType) (hb : Booked env db)
    (hx : Extends db db₁) (hops : db₁.operations = db.operations)
    (hvalues : ∀ user limitType, db₁.limitValues env user limitType
      = db.limitValues env user limitType)
    (hcommand : command.limited env db = some (i.charged.wallet.user, limitType))
    (hv : 0 ≤ i.value) :
    Update env now db command db₁.userLimits (c.charged env now i.value)
      (db.charges c.tracker.id ++ [⟨now, i.value⟩]) := by
  obtain ⟨hmem, huser, -⟩ := Db.userLimit_of_find h.find
  have hget := (Db.userLimit_find h.find).1
  have values : db₁.limitValues env i.charged.wallet.user limitType = some c.userLimit.toLimitValues :=
    Db.limitValues_of_find h.find
  rw [hvalues, ← huser] at values
  have htracker := h.tracker
  have hfits := h.fits
  rw [← huser] at hcommand
  obtain ⟨l, ct⟩ := c
  dsimp only at hmem huser hcommand hfits htracker hget values
  cases htracker with
  | new hnew =>
      have hops' : ∀ o ∈ db.operations.rows, o.userLimitTracker ≠ some ct.id := fun o ho =>
        hnew.no_operation o (hops ▸ ho)
      refine (Update.started ⟨l, ct⟩ limitType i.value hcommand values ?_ hget hv
        hfits).of_eq ?_
      · exact ⟨hnew.userLimit, hnew.periodStart, hnew.used, hnew.usedNightlyLimit,
          hx.trackers ▸ hnew.no_tracker, hops'⟩
      · rw [charges_eq_nil hops', List.nil_append]
  | stored t ht hc =>
      dsimp only at ht hc
      subst hc
      have ht' : db.userLimitTrackerByUserLimit l = some t := by
        rw [Db.userLimitTrackerByUserLimit, ← hx.trackers]
        exact ht
      -- A limit that has a tracker is not new.
      obtain ⟨htmem, hid⟩ := Db.userLimitTracker_of_find ht'
      obtain ⟨l', -, hget, hfind, -⟩ := hb.limit t htmem
      have hfind' := hx.find _ _ _ hfind
      obtain ⟨hmem', -⟩ := Db.userLimit_of_find hfind'
      have hl' : l' = l := Table.eq_of_key hmem' hmem ((Table.key_of_get? hget).trans hid)
      subst hl'
      have hltid := (Db.userLimit_of_find h.find).2.2
      dsimp only at hltid
      refine (Update.charged l' t limitType i.value hcommand (hltid ▸ hfind) ht' hget hv
        hfits).of_eq ?_
      rw [restart_id]

/-- Storing an operation is an update of the trackers. -/
theorem Updates.store (hq : Quiet db db₁)
    (hins : db₁.operations.insert? (i.operation env now tt) = some t)
    (hc : ∀ c, i.userLimitTracker = some c →
      Update env now db command db₁.userLimits (c.charged env now i.value)
        (db.charges c.tracker.id ++ [⟨now, i.value⟩])) :
    Updates env now db command (i.store env now t db₁) := by
  cases h : i.userLimitTracker with
  | none => exact (hq.trans (quiet_store hins h)).updates
  | some c =>
      intro y hy
      rw [charges_store hins, h, hq.charges]
      rcases (mem_chargedTrackers h).mp hy with ⟨hy, hne⟩ | rfl
      · rw [hq.trackers] at hy
        refine (Update.kept y hy).of_eq ?_
        rw [if_neg, List.append_nil]
        intro e
        exact hne (Option.some.inj e).symm
      · exact (hc c h).of_eq (congrArg _ (if_pos rfl))

namespace CreateOperationUseCase

variable {tag : String} {ownerInfo beneficiaryInfo : Option CreateOperationParticipant}
  {w w' : World} {r : CreatedOperation} {owner : Option OwnerSide}
  {beneficiary : Option BeneficiarySide} {db₂ db₃ : Db}

section

variable (h : Execution env now tag ownerInfo beneficiaryInfo w w' r tt owner beneficiary db₁ db₂ db₃)
include h

/-- What the charged side was checked for is what the command does to its tracker. -/
theorem Execution.update (hb : Booked env w.db) (ho : ∀ o, i.ownerSide = some o → owner = some o)
    (hbs : ∀ b, i.beneficiarySide = some b → beneficiary = some b)
    (hi : (∃ o, owner = some o ∧ i.charged = o.toLoadedParticipant) ∨
      (∃ b, beneficiary = some b ∧ i.charged = b.toLoadedParticipant) ∧
        ∀ o, owner = some o → limitTypeOf env o.walletAccount tt = none)
    (hv : 0 ≤ i.value) (hc : i.userLimitTracker = some c) :
    Update env now w.db (.create tag ownerInfo beneficiaryInfo) db₂.userLimits
      (c.charged env now i.value) (w.db.charges c.tracker.id ++ [⟨now, i.value⟩]) := by
  have hcharging := h.charging ho hbs (Extends.refl db₂)
  rw [hc] at hcharging
  obtain ⟨limitType, hlt, hf, hu, hfits⟩ := hcharging
  refine Charged.update ⟨hlt, hf, hu, hfits⟩ hb ?_ ?_ (fun user limitType => ?_)
    (h.limited hi hlt) hv
  · exact (limitCreated_extends h.ownerLimit).trans (limitCreated_extends h.beneficiaryLimit)
  · exact h.beneficiaryLimit.operations.trans h.ownerLimit.operations
  · exact (h.beneficiaryLimit.limitValues user limitType).trans
      (h.ownerLimit.limitValues user limitType)

theorem Execution.updates (hb : Booked env w.db) :
    Updates env now w.db (.create tag ownerInfo beneficiaryInfo) w'.db := by
  have created : Quiet w.db db₂ :=
    (quiet_of_eq h.ownerLimit.userLimitTrackers h.ownerLimit.operations).trans
      (quiet_of_eq h.beneficiaryLimit.userLimitTrackers h.beneficiaryLimit.operations)
  obtain ⟨e, about, hw'⟩ := h.event
  rw [hw']
  suffices stored : Updates env now w.db (.create tag ownerInfo beneficiaryInfo) db₃ from
    stored.quiet (quiet_of_eq rfl rfl) rfl
  cases hstored : h.stored with
  | single i _ t _ hins =>
      refine Updates.store created hins fun c hc => ?_
      refine h.update hb (fun _ e => e) (fun _ e => e) ?_ (value_nonneg about) hc
      cases i with
      | owner o => exact Or.inl ⟨o, rfl, rfl⟩
      | shared o b => exact Or.inl ⟨o, rfl, rfl⟩
      | beneficiary b => exact Or.inr ⟨⟨b, rfl, rfl⟩, fun _ e => by cases e⟩
  | independent o b _ db₁' db₂' t₁ t₂ o₁ o₂ hne ho₁ ho₂ hins₁ hdb₁ hins₂ hdb₂ =>
      subst ho₁ ho₂ hdb₁ hdb₂
      obtain ⟨hv₁, hv₂⟩ := values_nonneg about
      obtain ⟨get₁, get₂⟩ := get?_independent hins₁ hins₂
        ((OperationInfo.beneficiary b).operation env now tt).id
      suffices both : Updates env now w.db (.create tag ownerInfo beneficiaryInfo)
          ((OperationInfo.beneficiary b).store env now t₂
            ((OperationInfo.owner o).store env now t₁ db₂)) by
        exact (both.quiet (quiet_linked get₁ _) rfl).quiet (quiet_linked get₂ _) rfl
      -- With two currencies, one of the two is not limited.
      have ownerLimit := (h.ownerChecked o rfl).limit
      have beneficiaryLimit := h.beneficiaryChecked b rfl
      cases hb' : b.userLimitTracker with
      | none =>
          refine Updates.quiet ?_ (quiet_store hins₂ hb') rfl
          refine Updates.store created hins₁ fun c hc => ?_
          exact h.update hb (fun _ e => e) (fun _ e => by cases e) (Or.inl ⟨o, rfl, rfl⟩) hv₁ hc
      | some c =>
          rw [hb'] at beneficiaryLimit
          have ho := ownerLimit.owner_none beneficiaryLimit hne
          rw [ho] at ownerLimit
          refine Updates.store (created.trans (quiet_store hins₁ ho)) hins₂ fun c hc => ?_
          refine h.update hb (fun _ e => by cases e) (fun _ e => e) (Or.inr ⟨⟨b, rfl, rfl⟩, ?_⟩)
            hv₂ hc
          intro o' ho'
          cases ho'
          exact ownerLimit

/-- What an execution returns is stored. -/
theorem Execution.returned {x : Operation}
    (hx : r.ownerOperation = some x ∨ r.beneficiaryOperation = some x) :
    w'.db.operations.get? x.id = some x ∧
      ∃ i : OperationInfo, Operation.SameCharge (i.operation env now tt) x := by
  obtain ⟨e, -, hw'⟩ := h.event
  rw [hw']
  cases hstored : h.stored with
  | single i _ t hcurrency hins =>
      have hi : i.operation env now tt = x := by
        rcases hx with hx | hx
        · obtain ⟨_, -, hi⟩ := Option.map_eq_some_iff.mp hx
          exact hi
        · obtain ⟨_, -, hi⟩ := Option.map_eq_some_iff.mp hx
          exact hi
      subst hi
      exact ⟨Table.get?_insert?_self hins, i, .refl _⟩
  | independent o b _ db₁' db₂' t₁ t₂ o₁ o₂ hne ho₁ ho₂ hins₁ hdb₁ hins₂ hdb₂ =>
      subst ho₁ ho₂ hdb₁ hdb₂
      obtain ⟨get₁, get₂⟩ := get?_independent hins₁ hins₂
        ((OperationInfo.beneficiary b).operation env now tt).id
      rcases hx with hx | hx
      · obtain rfl := Option.some.inj hx
        refine ⟨?_, _, Operation.sameCharge_linked _ _⟩
        refine (Table.get?_set_ne ?_).trans (Table.get?_set_self get₁ rfl)
        exact (ids_independent hins₁ hins₂).symm
      · obtain rfl := Option.some.inj hx
        refine ⟨?_, _, Operation.sameCharge_linked _ _⟩
        exact Table.get?_set_self get₂ rfl

end

end CreateOperationUseCase

/-- Delivering an event is an update of the trackers. -/
theorem Delivered.updates {n : ℕ} (h : Delivered env now db n db') (hb : Books env db) :
    Updates env now db (.deliver n) db' := by
  cases h with
  | dropped e he hstop =>
      refine Quiet.updates ?_
      exact quiet_of_eq rfl rfl
  | given j b c he htags hc =>
      obtain ⟨x, hx, -, ht, ha⟩ := hb.tells j b (List.mem_of_getElem? he)
      obtain ⟨tracker, hid, hct, -⟩ := id hc
      have hcid : c.tracker.id = tracker := Table.key_of_get? hct
      have hxid : x.id = j.item.id := Table.key_of_get? hx
      have htracker : x.userLimitTracker = some c.tracker.id := by rw [← ha, hid, hcid]
      have htags' : x.analysisTags ≠ [] := ht.analysisTags ▸ htags
      obtain ⟨t', l, ht', hbooking⟩ := hb.booking x (Table.mem_of_get? hx) _ htracker
      rw [hcid, hct] at ht'
      obtain rfl := Option.some.inj ht'
      have ops : (givenBack env now j.item c (db.consume n)).operations
          = db.operations.set x.given := operations_givenBack hx
      obtain ⟨⟨pre, post, hpre, hpost⟩, hother⟩ :=
        charges_given (hxid ▸ hx) ⟨htracker, htags'⟩ ops
      intro y hy
      rcases Table.mem_set.mp hy with ⟨hy, hne⟩ | ⟨rfl, -⟩
      · have hmem : y ∈ db.userLimitTrackers.rows := hy
        refine (Update.kept y hmem).of_eq (hother y.id fun e => hne ?_)
        exact e.trans (revert_id c.userLimit j.item c.tracker).symm
      · refine (Update.given n j b c pre post rfl he hc ?_ ?_).of_eq ?_
        · rw [hpre, Operation.charge, ht.createdAt, ht.value]
        · rw [ht.analysisTags]
          exact hbooking.tags.resolve_left htags'
        · exact (congrArg _ (revert_id c.userLimit j.item c.tracker)).trans hpost

/-- **What a command does to a tracker and the charges on it.** -/
theorem step_update (s : State) (l : ℤ × Command) (hb : Books env s.world.db) :
    Updates env l.1 s.world.db l.2 (step env s l).world.db := by
  obtain ⟨now, command⟩ := l
  change Updates env now s.world.db command (execCommand env now s.world command).db
  cases command with
  | create tag ownerInfo beneficiaryInfo =>
      rcases create_exec tag ownerInfo beneficiaryInfo s.world with h | ⟨r, _, _, _, _, _, _, h⟩
      · rw [h]
        exact (quiet_of_eq rfl rfl).updates
      · exact h.updates hb.toBooked
  | accept id =>
      rcases accept_exec id s.world with h | ⟨o, h⟩
      · rw [h]
        exact (quiet_of_eq rfl rfl).updates
      · obtain ⟨t, t', ts, es, -, -, -, hdb⟩ := h.written
        rw [hdb]
        refine Quiet.updates ?_
        exact quiet_set rfl h.found (Operation.sameCharge_accepted o) rfl
  | revert id =>
      rcases revert_exec id s.world with h | ⟨o, h⟩
      · rw [h]
        exact (quiet_of_eq rfl rfl).updates
      · obtain ⟨t, event, -, -, hdb⟩ := h.written
        rw [hdb]
        refine Quiet.updates ?_
        exact quiet_set rfl h.found (Operation.sameCharge_reverted now o) rfl
  | deliver n =>
      rcases deliver_exec n s.world with h | h
      · rw [h]
        exact (quiet_of_eq rfl rfl).updates
      · exact h.updates hb

/-! ### Runs -/

/-- **An invariant of a tracker and its charges.**  What every update keeps, when it is made by
a step that meets `ok`, holds after every run along `ok`. -/
theorem run_tracked {ok : State → ℤ × Command → Prop}
    {I : State → UserLimitTracker → List (Charge ℤ) → Prop}
    (hI : ∀ s l, Books env s.world.db → ok s l →
      (∀ t ∈ s.world.db.userLimitTrackers.rows, I s t (s.world.db.charges t.id)) →
      ∀ y H, Update env l.1 s.world.db l.2 (step env s l).world.db.userLimits y H →
        I (step env s l) y H)
    {s : State} {ls : List (ℤ × Command)} (h : Along (step env) ok s ls)
    (hb : Books env s.world.db)
    (h₀ : ∀ t ∈ s.world.db.userLimitTrackers.rows, I s t (s.world.db.charges t.id)) :
    Books env (run (step env) s ls).world.db ∧
      ∀ t ∈ (run (step env) s ls).world.db.userLimitTrackers.rows,
        I (run (step env) s ls) t ((run (step env) s ls).world.db.charges t.id) := by
  refine h.invariant (I := fun s => Books env s.world.db ∧
    ∀ t ∈ s.world.db.userLimitTrackers.rows, I s t (s.world.db.charges t.id)) ?_ ⟨hb, h₀⟩
  rintro s l ⟨hb, ht⟩ hok
  exact ⟨step_books s l hb, fun y hy => hI s l hb hok ht y _ (step_update s l hb y hy)⟩

end

end ZroServices
