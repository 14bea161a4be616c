import ZroServices.Foundation.View
import ZroServices.PixKeys.Claims

/-!
# PIX keys — who a claim is settled between

The use cases of claims find a row by its key value.  `ActsAlone ids key x db` says that the code
`x` does what it does without the other rows of the key value (`Database.keep`): it ends in the
same way, makes the same changes of the rows `ids`, and changes no other row.

* `notice_reaches_iff`: a notice of DICT acts on a row alone, whatever the PSP answers, if and only
  if the query returns this row first.
* `settled_iff`: a claim inside the bank is settled between its two parties if and only if the
  handler is the one for their two states, and the query returns the other party before any other
  row.
-/

namespace ZroServices.PixKeys

open Foundation

/-! ### The rows of the parties -/

namespace Database

variable {db : Database} {ids : List Uuid} {key : Option String} {p : PixKey}

/-- The database without the other rows of the key value. -/
def keep (ids : List Uuid) (key : Option String) (db : Database) : Database :=
  { db with pixKeys := db.pixKeys.filter fun r => r.id ∈ ids ∨ r.key ≠ key }

theorem mem_keep {r : PixKey} :
    r ∈ (db.keep ids key).pixKeys.rows ↔ r ∈ db.pixKeys.rows ∧ (r.id ∈ ids ∨ r.key ≠ key) :=
  Table.mem_filter

end Database

/-- An execution in its transaction. -/
def execute {α : Type} (x : App α) : App α := transaction (fun before _ => before) x

/-- The code does what it does without the other rows of the key value, and leaves them alone. -/
structure ActsAlone {α : Type} (ids : List Uuid) (key : Option String) (x : App α)
    (db : Database) : Prop where
  same : x (db.keep ids key) = mapState (Database.keep ids key) (x db)
  others : ∀ id ∉ ids, (left x db).pixKeys.get? id = db.pixKeys.get? id

section

variable {ids : List Uuid} {key : Option String} {p : PixKey} {id : Uuid}

theorem through_updatePixKey (h : p.id ∈ ids) :
    Through (Database.keep ids key) (updatePixKey p) := by
  refine through_modify fun db => ?_
  have hset : (db.pixKeys.set p).filter (fun r => r.id ∈ ids ∨ r.key ≠ key) =
      (db.pixKeys.filter fun r => r.id ∈ ids ∨ r.key ≠ key).set p := by
    refine Table.set_filter fun x hx => .inl ?_
    rw [show x.id = p.id from hx]
    exact h
  rw [Database.keep, Database.keep, hset]

theorem through_emit {kind : EventKind} {reason : Option ClaimReasonType} :
    Through (Database.keep ids key) (emit kind p reason) :=
  through_modify fun _ => rfl

theorem through_dateClaim {date : PixKeyClaim → PixKeyClaim} :
    Through (Database.keep ids key) (dateClaim date p) := by
  refine through_orThrow.bind fun claim => through_modify fun db => ?_
  rw [show (db.keep ids key).claims = db.claims from rfl]
  cases db.claims.get? claim <;> rfl

theorem through_finishClaim {env : Env} : Through (Database.keep ids key) (finishClaim env p) :=
  through_orThrow.bind fun _ => through_call

theorem through_nothing : Through (Database.keep ids key) (nothing p) := through_pure ()

theorem keeps_updatePixKey (h : p.id ≠ id) :
    Keeps (fun db : Database => db.pixKeys.get? id) (updatePixKey p) :=
  keeps_modify fun _ => Table.get?_set_ne h

theorem keeps_emit {kind : EventKind} {reason : Option ClaimReasonType} :
    Keeps (fun db : Database => db.pixKeys.get? id) (emit kind p reason) :=
  keeps_modify fun _ => rfl

theorem keeps_dateClaim {date : PixKeyClaim → PixKeyClaim} :
    Keeps (fun db : Database => db.pixKeys.get? id) (dateClaim date p) := by
  refine keeps_orThrow.bind fun claim => keeps_modify fun db => ?_
  dsimp only
  cases db.claims.get? claim <;> rfl

end

/-! ### A notice of DICT -/

section

variable {env : Env} {done next : KeyState} {accepted : List KeyState}
  {before after : PixKey → App Unit} {event : EventKind} {p : PixKey}

theorem through_moveKey {ids : List Uuid} {key : Option String} (h : p.id ∈ ids)
    (hbefore : Through (Database.keep ids key) (before p))
    (hafter : Through (Database.keep ids key) (after p)) :
    Through (Database.keep ids key) (moveKey done accepted before next after event p) := by
  rw [moveKey]
  split
  · exact through_pure p
  refine through_throwIf.bind fun _ => hbefore.bind fun _ => ?_
  have hupdate : Through (Database.keep ids key) (updatePixKey { p with state := next }) :=
    through_updatePixKey h
  refine hupdate.bind fun _ => hafter.bind fun _ => ?_
  exact through_emit.bind fun _ => through_pure _

theorem keeps_moveKey {id : Uuid} (h : p.id ≠ id)
    (hbefore : Keeps (fun db : Database => db.pixKeys.get? id) (before p))
    (hafter : Keeps (fun db : Database => db.pixKeys.get? id) (after p)) :
    Keeps (fun db : Database => db.pixKeys.get? id)
      (moveKey done accepted before next after event p) := by
  rw [moveKey]
  split
  · exact keeps_pure p
  refine keeps_throwIf.bind fun _ => hbefore.bind fun _ => ?_
  have hupdate := keeps_updatePixKey (p := { p with state := next }) h
  refine hupdate.bind fun _ => hafter.bind fun _ => ?_
  exact keeps_emit.bind fun _ => keeps_pure _

/-- The code returns the row, or throws the row, or complains that the row has no claim. -/
def Tells (p : PixKey) (x : App PixKey) : Prop :=
  (∀ s p' s', x s = .ok p' s' → p'.id = p.id) ∧
    Throws (fun e => e = .pixKeyInvalidState p ∨
      p.claim = none ∧ ∀ q, e ≠ .pixKeyInvalidState q) x

theorem tells_moveKey
    (hbefore : Throws (fun e => p.claim = none ∧ ∀ q, e ≠ Exception.pixKeyInvalidState q)
      (before p))
    (hafter : Throws (fun e => p.claim = none ∧ ∀ q, e ≠ Exception.pixKeyInvalidState q)
      (after p)) : Tells p (moveKey done accepted before next after event p) := by
  have weaken : ∀ {x : App Unit},
      Throws (fun e => p.claim = none ∧ ∀ q, e ≠ Exception.pixKeyInvalidState q) x →
      Throws (fun e => e = .pixKeyInvalidState p ∨
        p.claim = none ∧ ∀ q, e ≠ .pixKeyInvalidState q) x :=
    fun h s e s' he => .inr (h s e s' he)
  rw [moveKey]
  split
  · exact ⟨fun s p' s' h => by rw [(pure_ok.mp h).1], throws_pure p⟩
  refine ⟨fun s p' s' h => ?_, ?_⟩
  · obtain ⟨-, h⟩ := throwIf_bind_ok.mp h
    obtain ⟨_, s₁, -, h⟩ := bind_ok.mp h
    obtain ⟨_, s₂, -, h⟩ := bind_ok.mp h
    obtain ⟨_, s₃, -, h⟩ := bind_ok.mp h
    obtain ⟨_, s₄, -, h⟩ := bind_ok.mp h
    rw [(pure_ok.mp h).1]
  · refine (throws_throwIf (.inl rfl)).bind fun _ => (weaken hbefore).bind fun _ => ?_
    refine (throws_modify _).bind fun _ => (weaken hafter).bind fun _ => ?_
    exact (throws_modify _).bind fun _ => throws_pure _

theorem throws_dateClaim {date : PixKeyClaim → PixKeyClaim} :
    Throws (fun e => p.claim = none ∧ ∀ q, e ≠ Exception.pixKeyInvalidState q)
      (dateClaim date p) := by
  intro s e s' h
  obtain h | ⟨_, _, -, h⟩ := bind_error.mp h
  · obtain ⟨hclaim, rfl, -⟩ := orThrow_error.mp h
    exact ⟨hclaim, fun q => by simp⟩
  · exact absurd h modify_error

/-- The PSP takes every request. -/
def PixKeyGateway.accepting : PixKeyGateway where
  finishClaimPixKey _ := .ok ()
  deletePixKey _ := .ok ()
  createPixKey r := .ok r.key
  closingClaim _ := .ok ()
  deniedClaim _ := .ok ()

theorem throws_finishClaim (hpsp : ∀ r, env.gateway.finishClaimPixKey r = .ok ()) :
    Throws (fun e => p.claim = none ∧ ∀ q, e ≠ Exception.pixKeyInvalidState q)
      (finishClaim env p) := by
  intro s e s' h
  obtain h | ⟨_, _, -, h⟩ := bind_error.mp h
  · obtain ⟨hclaim, rfl, -⟩ := orThrow_error.mp h
    exact ⟨hclaim, fun q => by simp⟩
  · rw [hpsp] at h
    exact absurd h pure_error

theorem throws_nothing {E : Exception → Prop} : Throws E (nothing p) := throws_pure ()

end

namespace ClaimProcess

variable {env : Env} {p : PixKey}

theorem through_act (process : ClaimProcess) {ids : List Uuid} {key : Option String}
    (h : p.id ∈ ids) : Through (Database.keep ids key) (process.act env p) := by
  cases process with
  | waitOwnership => exact through_moveKey h through_nothing through_dateClaim
  | confirmOwnership => exact through_moveKey h through_finishClaim through_nothing
  | completeOwnership => exact through_moveKey h through_nothing through_dateClaim
  | cancelOwnership => exact through_moveKey h through_nothing through_dateClaim
  | readyOwnership => exact through_moveKey h through_nothing through_dateClaim
  | completeClosing => exact through_moveKey h through_nothing through_nothing

theorem keeps_act (process : ClaimProcess) {id : Uuid} (h : p.id ≠ id) :
    Keeps (fun db : Database => db.pixKeys.get? id) (process.act env p) := by
  have hnothing : Keeps (fun db : Database => db.pixKeys.get? id) (nothing p) := keeps_pure ()
  have hfinish : Keeps (fun db : Database => db.pixKeys.get? id) (finishClaim env p) :=
    keeps_orThrow.bind fun _ => keeps_call
  cases process with
  | waitOwnership => exact keeps_moveKey h hnothing keeps_dateClaim
  | confirmOwnership => exact keeps_moveKey h hfinish hnothing
  | completeOwnership => exact keeps_moveKey h hnothing keeps_dateClaim
  | cancelOwnership => exact keeps_moveKey h hnothing keeps_dateClaim
  | readyOwnership => exact keeps_moveKey h hnothing keeps_dateClaim
  | completeClosing => exact keeps_moveKey h hnothing hnothing

theorem tells_act (process : ClaimProcess) (hpsp : env.gateway = .accepting) :
    Tells p (process.act env p) := by
  have hfinish : ∀ r, env.gateway.finishClaimPixKey r = .ok () := by
    rw [hpsp]
    exact fun _ => rfl
  cases process with
  | waitOwnership => exact tells_moveKey throws_nothing throws_dateClaim
  | confirmOwnership => exact tells_moveKey (throws_finishClaim hfinish) throws_nothing
  | completeOwnership => exact tells_moveKey throws_nothing throws_dateClaim
  | cancelOwnership => exact tells_moveKey throws_nothing throws_dateClaim
  | readyOwnership => exact tells_moveKey throws_nothing throws_dateClaim
  | completeClosing => exact tells_moveKey throws_nothing throws_nothing

end ClaimProcess

section

variable {env : Env} {key : String} {db : Database} {r b : PixKey}

/-- The rows that a notice of the key may be about. -/
def Database.rowsOfKey (db : Database) (key : Option String) : List PixKey :=
  db.notCanceled fun r => r.key = key

theorem Database.mem_rowsOfKey {key : Option String} :
    r ∈ db.rowsOfKey key ↔ r ∈ db.pixKeys.rows ∧ r.key = key ∧ r.state ≠ .CANCELED :=
  Database.mem_notCanceled

theorem execute_first (env : Env) (process : ClaimProcess) (hkey : key ≠ "")
    (hfirst : (env.order (db.rowsOfKey (some key))).head? = some r) :
    process.execute env key db = process.act env r db := by
  have hget : (db.getByKeyAndStateIsNotCanceled env (some key)).head? = some r := hfirst
  have hrow : firstOfKey env key db = .ok r db := by
    rw [firstOfKey, throwIf_bind_apply, if_neg hkey, get_bind_apply, hget]
    rfl
  exact bind_of_ok hrow

/-- Two codes that do the same on a database do the same in a transaction. -/
theorem execute_congr {α : Type} {x y : App α} (h : x db = y db) : execute x db = execute y db := by
  rw [execute, execute, transaction, transaction, h]

theorem head?_eq_of_forall {l : List PixKey} (hr : r ∈ l) (h : ∀ x ∈ l, x = r) :
    l.head? = some r := by
  cases l with
  | nil => cases hr
  | cons x l => rw [List.head?_cons, h x List.mem_cons_self]

/-- Without the other rows, every order returns the row first. -/
theorem first_keep (horder : ∀ l, (env.order l).Perm l) (hr : r ∈ db.rowsOfKey (some key)) :
    (env.order ((db.keep [r.id] (some key)).rowsOfKey (some key))).head? = some r := by
  obtain ⟨hmem, hkey, hstate⟩ := Database.mem_rowsOfKey.mp hr
  refine head?_eq_of_forall ((horder _).mem_iff.mpr ?_) fun x hx => ?_
  · refine Database.mem_rowsOfKey.mpr ⟨Database.mem_keep.mpr ⟨hmem, .inl ?_⟩, hkey, hstate⟩
    exact List.mem_singleton.mpr rfl
  · obtain ⟨hx, hxkey, -⟩ := Database.mem_rowsOfKey.mp ((horder _).mem_iff.mp hx)
    obtain ⟨hx, hid⟩ := Database.mem_keep.mp hx
    refine Table.eq_of_key hx hmem ?_
    exact List.mem_singleton.mp (hid.resolve_right fun hne => hne hxkey)

/-- What two different rows tell is told apart. -/
theorem Tells.ne {x y : App PixKey} (hx : Tells r x) (hy : Tells b y) (hclaim : r.claim.isSome)
    (hid : b.id ≠ r.id) {db' : Database} (f : Database → Database) :
    execute x db' ≠ mapState f (execute y db) := by
  intro h
  rw [execute, execute, transaction, transaction] at h
  cases ex : x db' with
  | ok p s =>
      cases ey : y db with
      | ok q t =>
          rw [ex, ey] at h
          injection h with hpq
          exact hid ((hy.1 _ _ _ ey).symm.trans (hpq ▸ hx.1 _ _ _ ex))
      | error e t =>
          rw [ex, ey] at h
          cases h
  | error e s =>
      cases ey : y db with
      | ok q t =>
          rw [ex, ey] at h
          cases h
      | error e' t =>
          rw [ex, ey] at h
          injection h with he
          subst he
          obtain rfl | ⟨hnone, -⟩ := hx.2 _ _ _ ex
          · obtain heq | ⟨-, hne⟩ := hy.2 _ _ _ ey
            · injection heq with heq
              exact hid (congrArg PixKey.id heq.symm)
            · exact hne r rfl
          · rw [hnone] at hclaim
            cases hclaim

end

/-- A notice of DICT acts on the row that takes part in its claim as if the row were the only one
of its key value, whatever the PSP answers, if and only if the query returns this row first. -/
theorem notice_reaches_iff (process : ClaimProcess) (order : List PixKey → List PixKey)
    (horder : ∀ l, (order l).Perm l) (key : String) (hkey : key ≠ "") (db : Database) (r : PixKey)
    (hr : r ∈ db.rowsOfKey (some key)) (hclaim : r.claim.isSome) :
    (∀ now ispb gateway, ActsAlone [r.id] (some key)
      (execute (process.execute ⟨order, now, ispb, gateway⟩ key)) db) ↔
      (order (db.rowsOfKey (some key))).head? = some r := by
  constructor
  · intro h
    cases hfirst : (order (db.rowsOfKey (some key))).head? with
    | none =>
        have hmem : r ∈ order (db.rowsOfKey (some key)) := (horder _).mem_iff.mpr hr
        rw [List.head?_eq_none_iff.mp hfirst] at hmem
        cases hmem
    | some b =>
        by_cases hbr : b = r
        · rw [hbr]
        have hb : b ∈ db.rowsOfKey (some key) :=
          (horder _).mem_iff.mp (List.mem_of_mem_head? hfirst)
        have hid : b.id ≠ r.id := fun e => hbr (Table.eq_of_key (Database.mem_rowsOfKey.mp hb).1
          (Database.mem_rowsOfKey.mp hr).1 e)
        let env : Env := ⟨order, 0, "", .accepting⟩
        have hsame := (h 0 "" .accepting).same
        rw [execute_congr (execute_first env process hkey (first_keep horder hr)),
          execute_congr (execute_first env process hkey hfirst)] at hsame
        exact absurd hsame ((process.tells_act rfl).ne (process.tells_act rfl) hclaim hid _)
  · intro hfirst now ispb gateway
    let env : Env := ⟨order, now, ispb, gateway⟩
    have halone := execute_first env process hkey (first_keep horder hr)
    have hhere := execute_first env process hkey hfirst
    constructor
    · rw [execute_congr halone, execute_congr hhere]
      exact (process.through_act (List.mem_singleton.mpr rfl)).transaction db
    · intro id hid
      rw [left, execute_congr hhere, ← left]
      exact (process.keeps_act fun e => hid (List.mem_singleton.mpr e.symm)).transaction db

/-! A notice of a claim for a key that another user is about to register, too. -/

def sampleKey : PixKey where
  id := 1
  type := .EMAIL
  key := some "ana@mail.com"
  personType := .NATURAL_PERSON
  document := "12345678909"
  name := "Ana"
  tradeName := none
  user := 7
  accountNumber := "1"
  branch := "1"
  state := .PENDING
  accountOpeningDate := 0
  code := some "12345"
  claim := none

/-- The row of user 7 is being verified, and user 8 claims the key from another bank. -/
def claimedKey : PixKey :=
  { sampleKey with id := 2, user := 8, state := .OWNERSHIP_STARTED, claim := some 5 }

def claimedAlone : Database := { Database.empty with pixKeys := ⟨[claimedKey], by decide⟩ }

def claimedBeside : Database :=
  { Database.empty with pixKeys := ⟨[sampleKey, claimedKey], by decide⟩ }

theorem claimed_alone_reached :
    (∀ now ispb gateway, ActsAlone [claimedKey.id] (some "ana@mail.com")
      (execute (ClaimProcess.waitOwnership.execute ⟨id, now, ispb, gateway⟩ "ana@mail.com"))
        claimedAlone) ↔
      (id (claimedAlone.rowsOfKey (some "ana@mail.com"))).head? = some claimedKey :=
  notice_reaches_iff .waitOwnership id (fun _ => .refl _) "ana@mail.com" (by decide) claimedAlone
    claimedKey (by decide) (by decide)

/-- The code returned. -/
def succeeds {ε σ α : Type} : EStateM.Result ε σ α → Bool
  | .ok _ _ => true
  | .error _ _ => false

/-- The notice finds the other row first, and fails. -/
theorem notice_finds_bystander :
    ¬ ∀ (process : ClaimProcess) (order : List PixKey → List PixKey), (∀ l, (order l).Perm l) →
      ∀ key, key ≠ "" → ∀ db r, r ∈ db.rowsOfKey (some key) → r.claim.isSome →
      r.state ∈ [KeyState.OWNERSHIP_STARTED, .OWNERSHIP_WAITING, .OWNERSHIP_CONFIRMED,
        .CLAIM_CLOSING] ++ pixKeyReadyStates →
      ∀ now ispb gateway, ActsAlone [r.id] (some key)
        (execute (process.execute ⟨order, now, ispb, gateway⟩ key)) db := by
  intro h
  have hsame := (h .waitOwnership id (fun _ => .refl _) "ana@mail.com" (by decide) claimedBeside
    claimedKey (by decide) (by decide) (by decide) 0 "" .accepting).same
  exact absurd (congrArg succeeds hsame) (by decide)

/-! ### A claim inside the bank -/

section

variable {env : Env} {h : Settlement} {inside : PixKey → PixKey → App Unit}
  {outside : ClaimReasonType → PixKey → App Unit} {reason : ClaimReasonType} {db db' : Database}
  {own other p : PixKey} {key : Option String}

/-- The row that a handler takes for the other party: the first that is not its own. -/
def Database.otherRow (env : Env) (db : Database) (key : Option String) (id : Uuid) :
    Option PixKey :=
  (env.order (db.rowsOfKey key)).find? fun r => r.id ≠ id

/-- The row of the handler, looked up by its id. -/
theorem getById_of_mem {key : Option String} (hown : own ∈ db.rowsOfKey key) :
    db.getByIdAndStateIsNotCanceled own.id = some own := by
  obtain ⟨hmem, -, hstate⟩ := Database.mem_rowsOfKey.mp hown
  refine head?_eq_of_forall (Database.mem_notCanceled.mpr ⟨hmem, rfl, hstate⟩) fun x hx => ?_
  obtain ⟨hx, hid, -⟩ := Database.mem_notCanceled.mp hx
  exact Table.eq_of_key hx hmem hid

/-- The handler on a row of its own state, when the other row is found. -/
theorem settleClaim_found (hown : own ∈ db.rowsOfKey key) (hstate : own.state = h.own)
    (hdone : h.own ≠ h.done)
    (hfind : db.otherRow env key own.id = some other) :
    settleClaim env h inside outside own.id (some reason) db =
      (settleBetween h inside own other >>= fun _ => settleOwn h own) db := by
  have hkey : own.key = key := (Database.mem_rowsOfKey.mp hown).2.1
  have hnotdone : own.state ≠ h.done := fun e => hdone (hstate.symm.trans e)
  rw [settleClaim, some_bind_apply, get_bind_apply, getById_of_mem hown, some_bind_apply,
    if_neg hnotdone, throwIf_bind_apply, if_neg (not_not_intro hstate), hkey]
  have hother : (db.getByKeyAndStateIsNotCanceled env key).find? (fun r => decide (r.id ≠ own.id))
      = some other := hfind
  dsimp only
  rw [hother]

/-- What the handler found when it returned a row that was not done. -/
theorem settleClaim_returned {id : Uuid} (hown : own ∈ db.rowsOfKey key) (hid : own.id = id)
    (hdone : own.state ≠ h.done) (hother : other ∈ db.rowsOfKey key) (hne : other.id ≠ id)
    (horder : ∀ l, (env.order l).Perm l)
    (hok : settleClaim env h inside outside id (some reason) db = .ok p db') :
    own.state = h.own ∧ ∃ third, third.state = h.other ∧ third.id ≠ id ∧
      db.otherRow env key id = some third := by
  subst hid
  have hkey : own.key = key := (Database.mem_rowsOfKey.mp hown).2.1
  rw [settleClaim, some_bind_apply, get_bind_apply, getById_of_mem hown, some_bind_apply,
    if_neg hdone] at hok
  obtain ⟨hstate, hok⟩ := throwIf_bind_ok.mp hok
  refine ⟨of_not_not hstate, ?_⟩
  rw [hkey] at hok
  dsimp only at hok
  cases hfind : db.otherRow env key own.id with
  | none =>
      have hmem : other ∈ env.order (db.rowsOfKey key) := (horder _).mem_iff.mpr hother
      exact absurd (List.find?_eq_none.mp hfind other hmem) (by simpa using hne)
  | some third =>
      have hfound : (db.getByKeyAndStateIsNotCanceled env key).find?
          (fun r => decide (r.id ≠ own.id)) = some third := hfind
      rw [hfound] at hok
      obtain ⟨_, _, hbetween, -⟩ := bind_ok.mp hok
      obtain ⟨hthird, -⟩ := throwIf_bind_ok.mp hbetween
      exact ⟨third, of_not_not hthird, by simpa using List.find?_some hfind, rfl⟩

/-- The database after the handler settled the claim between two rows. -/
def Database.settled (h : Settlement) (own other : PixKey) (db : Database) : Database :=
  { db with
    pixKeys := (db.pixKeys.set { other with state := h.otherNext }).set
      { own with state := h.next }
    events := db.events ++ [⟨h.otherEvent, { other with state := h.otherNext }, none⟩] ++
      [⟨h.event, { own with state := h.next }, none⟩] }

theorem settle_apply (hinside : ∀ q s, inside own q s = .ok () s) (hother : other.state = h.other) :
    (settleBetween h inside own other >>= fun _ => settleOwn h own) db =
      .ok { own with state := h.next } (db.settled h own other) := by
  have hbetween : settleBetween h inside own other db = .ok ()
      { db with
        pixKeys := db.pixKeys.set { other with state := h.otherNext }
        events := db.events ++ [⟨h.otherEvent, { other with state := h.otherNext }, none⟩] } := by
    rw [settleBetween, throwIf_bind_apply, if_neg (not_not_intro hother),
      bind_of_ok (hinside other db)]
    rfl
  rw [bind_of_ok hbetween]
  rfl

theorem get?_settled_own (hown : own ∈ db.pixKeys.rows) :
    (db.settled h own other).pixKeys.get? own.id = some { own with state := h.next } := by
  have hget : db.pixKeys.get? own.id = some own := Table.get?_of_mem hown
  by_cases e : other.id = own.id
  · exact Table.get?_set_self (Table.get?_set_self hget e) rfl
  · exact Table.get?_set_self ((Table.get?_set_ne e).trans hget) rfl

theorem get?_settled_other (hother : other ∈ db.pixKeys.rows) (hne : own.id ≠ other.id) :
    (db.settled h own other).pixKeys.get? other.id = some { other with state := h.otherNext } := by
  have hget : db.pixKeys.get? other.id = some other := Table.get?_of_mem hother
  exact (Table.get?_set_ne hne).trans (Table.get?_set_self hget rfl)

theorem get?_settled_ne {id : Uuid} (hid : id ∉ [own.id, other.id]) :
    (db.settled h own other).pixKeys.get? id = db.pixKeys.get? id := by
  have hown : own.id ≠ id := fun e => hid (e ▸ List.mem_cons_self)
  have hother : other.id ≠ id := fun e => hid (e ▸ List.mem_cons_of_mem _ List.mem_cons_self)
  exact (Table.get?_set_ne hown).trans (Table.get?_set_ne hother)

theorem keep_settled :
    (db.settled h own other).keep [own.id, other.id] key =
      (db.keep [own.id, other.id] key).settled h own other := by
  have selected : ∀ (t : Table PixKey) (r : PixKey), r.id ∈ [own.id, other.id] →
      (t.set r).filter (fun x => x.id ∈ [own.id, other.id] ∨ x.key ≠ key) =
        (t.filter fun x => x.id ∈ [own.id, other.id] ∨ x.key ≠ key).set r := by
    refine fun t r hr => Table.set_filter fun x hx => .inl ?_
    rw [show x.id = r.id from hx]
    exact hr
  have hown := selected (db.pixKeys.set { other with state := h.otherNext })
    { own with state := h.next } List.mem_cons_self
  have hother := selected db.pixKeys { other with state := h.otherNext }
    (List.mem_cons_of_mem _ List.mem_cons_self)
  rw [Database.keep, Database.settled]
  dsimp only
  rw [hown, hother]
  rfl

/-- The claim is settled between the two rows, as if the other rows of the key did not exist. -/
structure Settled (h : Settlement) (own other : PixKey) (key : Option String) (x : App PixKey)
    (db : Database) : Prop where
  alone : ActsAlone [own.id, other.id] key x db
  succeeds : ∃ db', x db = .ok { own with state := h.next } db' ∧
    db'.pixKeys.get? own.id = some { own with state := h.next } ∧
    db'.pixKeys.get? other.id = some { other with state := h.otherNext }

/-- Without the other rows, every order returns the two rows. -/
theorem otherRow_keep (horder : ∀ l, (env.order l).Perm l) (hown : own ∈ db.rowsOfKey key)
    (hother : other ∈ db.rowsOfKey key) (hne : other.id ≠ own.id) :
    own ∈ (db.keep [own.id, other.id] key).rowsOfKey key ∧
      (db.keep [own.id, other.id] key).otherRow env key own.id = some other := by
  have kept : ∀ r ∈ db.rowsOfKey key, r.id ∈ [own.id, other.id] →
      r ∈ (db.keep [own.id, other.id] key).rowsOfKey key := by
    intro r hr hid
    obtain ⟨hmem, hkey, hstate⟩ := Database.mem_rowsOfKey.mp hr
    exact Database.mem_rowsOfKey.mpr ⟨Database.mem_keep.mpr ⟨hmem, .inl hid⟩, hkey, hstate⟩
  refine ⟨kept own hown List.mem_cons_self, ?_⟩
  have hmem := kept other hother (List.mem_cons_of_mem _ List.mem_cons_self)
  refine find?_eq_some_of_forall ((horder _).mem_iff.mpr hmem) (by simpa using hne) ?_
  intro r hr hrid
  obtain ⟨hr, hrkey, -⟩ := Database.mem_rowsOfKey.mp ((horder _).mem_iff.mp hr)
  obtain ⟨hr, hkept⟩ := Database.mem_keep.mp hr
  have hid := hkept.resolve_right fun hk => hk hrkey
  simp only [List.mem_cons, List.not_mem_nil, or_false] at hid
  have hrown : r.id ≠ own.id := by simpa using hrid
  exact Table.eq_of_key hr (Database.mem_rowsOfKey.mp hother).1 (hid.resolve_left hrown)

theorem settleClaim_settled_iff (horder : ∀ l, (env.order l).Perm l)
    (hinside : ∀ q s, inside own q s = .ok () s) (hdone : own.state ≠ h.done)
    (hnotdone : h.own ≠ h.done) (hnext : h.otherNext ≠ h.other) (hown : own ∈ db.rowsOfKey key)
    (hother : other ∈ db.rowsOfKey key) (hne : other.id ≠ own.id) :
    Settled h own other key (execute (settleClaim env h inside outside own.id (some reason))) db ↔
      own.state = h.own ∧ other.state = h.other ∧ db.otherRow env key own.id = some other := by
  have ends : ∀ db third, own ∈ Database.rowsOfKey db key → own.state = h.own →
      third.state = h.other → db.otherRow env key own.id = some third →
      execute (settleClaim env h inside outside own.id (some reason)) db =
        .ok { own with state := h.next } (db.settled h own third) := by
    intro db third hown hstate hthird hfind
    rw [execute, transaction, settleClaim_found hown hstate hnotdone hfind,
      settle_apply hinside hthird]
  constructor
  · rintro ⟨⟨-, hothers⟩, db', hok, -, -⟩
    obtain ⟨hstate, third, hthird, hthirdne, hfind⟩ :=
      settleClaim_returned hown rfl hdone hother hne horder (transaction_ok.mp hok)
    have hmem := (horder _).mem_iff.mp (List.mem_of_find?_eq_some hfind)
    have hrow := (Database.mem_rowsOfKey.mp hmem).1
    by_cases heq : third = other
    · rw [heq] at hthird hfind
      exact ⟨hstate, hthird, hfind⟩
    have hthirdother : third.id ≠ other.id := fun e =>
      heq (Table.eq_of_key hrow (Database.mem_rowsOfKey.mp hother).1 e)
    have hkept := hothers third.id (by simp [hthirdne, hthirdother])
    have hget : db.pixKeys.get? third.id = some third := Table.get?_of_mem hrow
    rw [left_ok (ends db third hown hstate hthird hfind), get?_settled_other hrow hthirdne.symm,
      hget] at hkept
    have hsame : h.otherNext = third.state := congrArg PixKey.state (Option.some.inj hkept)
    exact absurd (hsame.trans hthird) hnext
  · rintro ⟨hstate, hothers, hfind⟩
    obtain ⟨hownkept, hfindkept⟩ := otherRow_keep horder hown hother hne
    have hhere := ends db other hown hstate hothers hfind
    refine ⟨⟨?_, fun id hid => ?_⟩, _, hhere, ?_, ?_⟩
    · rw [hhere, ends _ other hownkept hstate hothers hfindkept, mapState_ok, keep_settled]
    · rw [left_ok hhere]
      exact get?_settled_ne hid
    · exact get?_settled_own (Database.mem_rowsOfKey.mp hown).1
    · exact get?_settled_other (Database.mem_rowsOfKey.mp hother).1 hne.symm

end

/-- A claim between two rows of the bank is settled between them, as if the other rows of the key
did not exist, if and only if the handler is the one for the states of the two, and the query
returns the other party before every other row. -/
theorem settled_iff (handler : ClaimHandler) (env : Env) (horder : ∀ l, (env.order l).Perm l)
    (hdelete : ∀ r, env.gateway.deletePixKey r = .ok ())
    (hcreate : ∀ r, env.gateway.createPixKey r = .ok r.key) (db : Database) (key : Option String)
    (claimer donor : PixKey) (hclaimer : claimer ∈ db.rowsOfKey key)
    (hclaimerState : claimer.state ∈ [KeyState.OWNERSHIP_WAITING, .OWNERSHIP_CANCELING])
    (hdonor : donor ∈ db.rowsOfKey key)
    (hdonorState : donor.state ∈ [KeyState.CLAIM_PENDING, .CLAIM_CLOSING, .CLAIM_DENIED])
    (reason : ClaimReasonType) :
    Settled handler.settlement (handler.own claimer donor) (handler.other claimer donor) key
        (execute (handler.handle env (handler.own claimer donor).id (some reason))) db ↔
      (handler.own claimer donor).state = handler.settlement.own ∧
        (handler.other claimer donor).state = handler.settlement.other ∧
        db.otherRow env key (handler.own claimer donor).id =
          some (handler.other claimer donor) := by
  have hne : claimer.id ≠ donor.id := by
    intro e
    have heq : claimer = donor := Table.eq_of_key (Database.mem_rowsOfKey.mp hclaimer).1
      (Database.mem_rowsOfKey.mp hdonor).1 e
    rw [heq] at hclaimerState
    simp only [List.mem_cons, List.not_mem_nil, or_false] at hclaimerState hdonorState
    rcases hclaimerState with hs | hs <;> rw [hs] at hdonorState <;> simp at hdonorState
  have hinside : ∀ p q s, transferKey env p q s = .ok () s := by
    intro p q s
    rw [transferKey, hdelete, hcreate]
    rfl
  have hclaimerDone : claimer.state ≠ .OWNERSHIP_CANCELED := by
    intro e
    rw [e] at hclaimerState
    simp at hclaimerState
  have hdonorDone : donor.state ≠ .CLAIM_CLOSED ∧ donor.state ≠ .READY := by
    refine ⟨fun e => ?_, fun e => ?_⟩ <;> rw [e] at hdonorState <;> simp at hdonorState
  cases handler with
  | claimClosing =>
      exact settleClaim_settled_iff horder (fun q s => hinside donor q s) hdonorDone.1 (by decide)
        (by decide) hdonor hclaimer hne
  | claimDenied =>
      exact settleClaim_settled_iff horder (fun _ _ => rfl) hdonorDone.2 (by decide)
        (by decide) hdonor hclaimer hne
  | ownershipCanceling =>
      exact settleClaim_settled_iff horder (fun _ _ => rfl) hclaimerDone (by decide)
        (by decide) hclaimer hdonor hne.symm

/-! A claim of user 8 for the key of user 7, and the row of a user whose code was not verified. -/

def donorKey : PixKey := { sampleKey with state := .CLAIM_CLOSING }

def claimerKey : PixKey := { sampleKey with id := 2, user := 8, state := .OWNERSHIP_WAITING }

def unconfirmedKey : PixKey := { sampleKey with id := 3, user := 9, state := .NOT_CONFIRMED }

def twoParties : Database :=
  { Database.empty with pixKeys := ⟨[donorKey, claimerKey], by decide⟩ }

def threeRows : Database :=
  { Database.empty with pixKeys := ⟨[unconfirmedKey, donorKey, claimerKey], by decide⟩ }

def sampleEnv : Env := ⟨id, 0, "", .accepting⟩

theorem two_parties_settled :
    Settled claimClosing donorKey claimerKey (some "ana@mail.com")
        (execute (handleClaimClosing sampleEnv donorKey.id (some .USER_REQUESTED))) twoParties ↔
      donorKey.state = claimClosing.own ∧ claimerKey.state = claimClosing.other ∧
        twoParties.otherRow sampleEnv (some "ana@mail.com") donorKey.id = some claimerKey :=
  settled_iff .claimClosing sampleEnv (fun _ => .refl _) (fun _ => rfl) (fun _ => rfl) twoParties
    (some "ana@mail.com") claimerKey donorKey (by decide) (by decide) (by decide) (by decide)
    .USER_REQUESTED

/-- The handler of the donor finds the row that is not confirmed, and throws. -/
theorem claim_meets_bystander :
    ¬ ∀ (handler : ClaimHandler) (env : Env), (∀ l, (env.order l).Perm l) →
      (∀ r, env.gateway.deletePixKey r = .ok ()) →
      (∀ r, env.gateway.createPixKey r = .ok r.key) → ∀ db key claimer donor,
      claimer ∈ db.rowsOfKey key → donor ∈ db.rowsOfKey key →
      (handler.own claimer donor).state = handler.settlement.own →
      (handler.other claimer donor).state = handler.settlement.other → ∀ reason,
      Settled handler.settlement (handler.own claimer donor) (handler.other claimer donor) key
        (execute (handler.handle env (handler.own claimer donor).id (some reason))) db := by
  intro h
  obtain ⟨-, db', hok, -⟩ := h .claimClosing sampleEnv (fun _ => .refl _) (fun _ => rfl)
    (fun _ => rfl) threeRows (some "ana@mail.com") claimerKey donorKey (by decide) (by decide)
    (by decide) (by decide) .USER_REQUESTED
  have hsucceeds : succeeds (execute (handleClaimClosing sampleEnv donorKey.id
      (some .USER_REQUESTED)) threeRows) = true := congrArg succeeds hok
  exact absurd hsucceeds (by decide)

end ZroServices.PixKeys
