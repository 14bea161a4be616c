import Mathlib.Algebra.Order.BigOperators.Group.List
import Mathlib.Tactic.Linarith
import ZroServices.PixKeys.Domain

/-!
# PIX keys — guessing the code of a key

Who registers an e-mail address or a telephone number has to repeat a code that was sent to it.
`VerifyCodePixKeyUseCase` counts the tries of the key, compares, and stores the try and the key;
`SendCodePixKeyUseCase` deletes the tries, and stores and sends a new code.  Each runs in a
transaction, but the deletion is not part of it: it stays when the notification fails and the new
code is rolled back.

The machine steps from one access of the database to the next: a read sees the committed rows, a
write of the key waits while another transaction has written it, and the writes are seen when the
transaction commits.

`guesses_le`: no code is compared more than `numberOfRetries` times along a run in which the tries
are counted for the code that is compared (`Counted`).
-/

namespace ZroServices.PixKeys

open Foundation

/-! ### The two use cases, between their accesses -/

structure VerifyRequest where
  user : Uuid
  id : Uuid
  code : String
  reason : Option ClaimReasonType

/-- With the code that the execution draws and what the notification service answers. -/
structure SendRequest where
  user : Uuid
  id : Uuid
  randomCode : String
  notification : Except Exception Unit

/-- The key is in one of the states, and the caller's. -/
def findPixKey (db : Database) (user id : Uuid) (inState : PixKey → Bool) :
    Except Exception PixKey :=
  match db.getByUserAndIdAndStateIsNotCanceled user id with
  | none => .error (.pixKeyNotFound id)
  | some pixKey => if inState pixKey then .ok pixKey else .error (.pixKeyInvalidState pixKey)

/-- `VerifyCodePixKeyUseCase` up to the read of the key. -/
def VerifyRequest.find (r : VerifyRequest) (db : Database) : Except Exception PixKey :=
  if r.code = "" then
    .error (.missingData (["code"] ++ if r.reason.isNone then ["reason"] else []))
  else findPixKey db r.user r.id PixKey.isVerifiedCodeState

/-- `SendCodePixKeyUseCase` up to the deletion. -/
def SendRequest.find (r : SendRequest) (db : Database) : Except Exception PixKey := do
  let pixKey ← findPixKey db r.user r.id PixKey.isSendCodeState
  if ¬ pixKey.isSendCodeType then throw (.pixKeyInvalidType pixKey)
  if pixKey.key.getD "" = "" ∨ pixKey.code.getD "" = "" then
    throw (.nullPointer s!"PixKey (id={pixKey.id}) does not have a valid key or code.")
  return pixKey

/-- The state of the key after a try, when `pastRetries` were made before. -/
def verifiedState (numberOfRetries : ℕ) (pixKey : PixKey) (pastRetries : ℕ) (code : String) :
    KeyState :=
  if ¬ pixKey.isVerifiedCodeValue code then
    if (pastRetries : ℤ) = numberOfRetries - 1 then
      match pixKey.state with
      | .PENDING => .NOT_CONFIRMED
      | .CLAIM_PENDING => .CLAIM_NOT_CONFIRMED
      | state => state
    else pixKey.state
  else
    match pixKey.state with
    | .PENDING => .CONFIRMED
    | .CLAIM_PENDING => .CLAIM_DENIED
    | state => state

/-- What a try compares and is going to store. -/
structure Attempt where
  pixKey : PixKey
  verification : PixKeyVerification
  verification_pixKey : verification.pixKey = pixKey.id

/-- The key after the try, and the try, unless too many were made. -/
def VerifyRequest.attempt (r : VerifyRequest) (numberOfRetries : ℕ) (pixKey : PixKey)
    (pastRetries : ℕ) : Except Exception Attempt :=
  if numberOfRetries ≤ pastRetries then
    .error (.pixKeyVerificationOverflow pixKey pastRetries)
  else
    .ok { pixKey :=
            { pixKey with state := verifiedState numberOfRetries pixKey pastRetries r.code }
          verification :=
            ⟨pixKey.id, r.code, if pixKey.isVerifiedCodeValue r.code then .OK else .FAILED⟩
          verification_pixKey := rfl }

/-- The event of a try. -/
def attemptEvents (pixKey : PixKey) (reason : Option ClaimReasonType) : List PixKeyEvent :=
  match pixKey.state with
  | .NOT_CONFIRMED => [⟨.notConfirmed, pixKey, none⟩]
  | .CLAIM_DENIED => [⟨.claimDenied, pixKey, reason⟩]
  | .CONFIRMED => [⟨.confirmed, pixKey, none⟩]
  | .CLAIM_NOT_CONFIRMED => [⟨.claimNotConfirmed, pixKey, none⟩]
  | _ => []

/-- What a try leaves when it commits. -/
def Database.storeAttempt (db : Database) (a : Attempt) (reason : Option ClaimReasonType) :
    Database :=
  { db with
    pixKeys := db.pixKeys.set a.pixKey
    verifications := db.verifications ++ [a.verification]
    events := db.events ++ attemptEvents a.pixKey reason }

/-- `deleteByPixKey`, which is given no transaction. -/
def Database.deleteByPixKey (db : Database) (pixKey : PixKey) : Database :=
  { db with verifications := db.verifications.filter fun v => v.pixKey ≠ pixKey.id }

/-! ### Executions side by side -/

/-- How an execution ended; a database may roll back without an exception. -/
inductive Outcome where
  | committed
  | rolledBack (exception : Option Exception)

/-- Where an execution is: which access comes next. -/
inductive Progress where
  | verify (r : VerifyRequest)
  | counting (r : VerifyRequest) (pixKey : PixKey)
  | storing (r : VerifyRequest) (a : Attempt)
  | stored (r : VerifyRequest) (a : Attempt)
  | send (r : SendRequest)
  | deleting (r : SendRequest) (pixKey : PixKey)
  | sending (r : SendRequest) (pixKey : PixKey)
  | sent (r : SendRequest) (pixKey : PixKey)
  | ended (outcome : Outcome)

/-- The execution compared a guess for the key, and has not ended. -/
def Progress.Guessing (id : Uuid) : Progress → Prop
  | .storing _ a | .stored _ a => a.pixKey.id = id
  | _ => False

/-- The execution deleted the tries of the key, and has not ended. -/
def Progress.Resetting (id : Uuid) : Progress → Prop
  | .sending _ p | .sent _ p => p.id = id
  | _ => False

/-- The execution has written the key, and holds its row. -/
def Progress.Holds (id : Uuid) : Progress → Prop
  | .stored _ a => a.pixKey.id = id
  | .sent _ p => p.id = id
  | _ => False

/-- The execution compared a guess or deleted tries, and has not ended. -/
def Progress.InDoubt : Progress → Prop
  | .storing _ _ | .stored _ _ | .sending _ _ | .sent _ _ => True
  | _ => False

instance (id : Uuid) : DecidablePred (Progress.Guessing id) := fun p => by
  cases p <;> unfold Progress.Guessing <;> infer_instance

instance (id : Uuid) : DecidablePred (Progress.Resetting id) := fun p => by
  cases p <;> unfold Progress.Resetting <;> infer_instance

instance (id : Uuid) : DecidablePred (Progress.Holds id) := fun p => by
  cases p <;> unfold Progress.Holds <;> infer_instance

instance : DecidablePred Progress.InDoubt := fun p => by
  cases p <;> unfold Progress.InDoubt <;> infer_instance

structure Execution where
  number : ℕ
  progress : Progress

instance : Keyed Execution ℕ := ⟨Execution.number⟩

/-- The committed rows, the executions, and the comparisons that were made: of which key, with
which code. -/
structure CodeWorld where
  db : Database
  executions : Table Execution
  compared : List (Uuid × Option String)

def CodeWorld.start (db : Database) : CodeWorld := ⟨db, Table.empty, []⟩

inductive CodeAction where
  | call (number : ℕ) (r : VerifyRequest ⊕ SendRequest)
  | next (number : ℕ)
  | abort (number : ℕ)

namespace CodeWorld

variable (w : CodeWorld)

/-- An execution goes on to its next access. -/
def goto (number : ℕ) (progress : Progress) : CodeWorld :=
  { w with executions := w.executions.set ⟨number, progress⟩ }

/-- No other execution holds the row of the key. -/
def Free (number : ℕ) (id : Uuid) : Prop :=
  ∀ e ∈ w.executions.rows, e.number ≠ number → ¬ e.progress.Holds id

instance (number : ℕ) (id : Uuid) : Decidable (w.Free number id) :=
  inferInstanceAs (Decidable (∀ _ ∈ _, _ → _))

/-- The next access of an execution. -/
def access (numberOfRetries : ℕ) (number : ℕ) : Progress → CodeWorld
  | .verify r =>
      match r.find w.db with
      | .error e => w.goto number (.ended (.rolledBack e))
      | .ok pixKey => w.goto number (.counting r pixKey)
  | .counting r pixKey =>
      match r.attempt numberOfRetries pixKey (w.db.countByPixKey pixKey.id) with
      | .error e => w.goto number (.ended (.rolledBack e))
      | .ok a =>
          { w.goto number (.storing r a) with
            compared := w.compared ++ [(pixKey.id, pixKey.code)] }
  | .storing r a => if w.Free number a.pixKey.id then w.goto number (.stored r a) else w
  | .stored r a =>
      { w.goto number (.ended .committed) with db := w.db.storeAttempt a r.reason }
  | .send r =>
      match r.find w.db with
      | .error e => w.goto number (.ended (.rolledBack e))
      | .ok pixKey => w.goto number (.deleting r pixKey)
  | .deleting r pixKey =>
      { w.goto number (.sending r { pixKey with code := some r.randomCode }) with
        db := w.db.deleteByPixKey pixKey }
  | .sending r pixKey => if w.Free number pixKey.id then w.goto number (.sent r pixKey) else w
  | .sent r pixKey =>
      match r.notification with
      | .error e => w.goto number (.ended (.rolledBack e))
      | .ok () =>
          { w.goto number (.ended .committed) with
            db := { w.db with pixKeys := w.db.pixKeys.set pixKey } }
  | .ended outcome => w.goto number (.ended outcome)

/-- One action.  A number that is taken begins no execution, and an execution that has ended is
not rolled back. -/
def act (numberOfRetries : ℕ) : CodeAction → CodeWorld
  | .call number r =>
      if (w.executions.get? number).isSome then w
      else
        { w with
          executions := w.executions.upsert ⟨number, r.elim Progress.verify Progress.send⟩ }
  | .next number =>
      match w.executions.get? number with
      | none => w
      | some e => w.access numberOfRetries number e.progress
  | .abort number =>
      match w.executions.get? number with
      | none => w
      | some ⟨_, .ended _⟩ => w
      | some _ => w.goto number (.ended (.rolledBack none))

/-- How often a guess was compared with a code of the key. -/
def guesses (id : Uuid) (code : String) : ℕ := w.compared.count (id, some code)

/-- The committed code of the key. -/
def code (id : Uuid) : Option String := (w.db.pixKeys.get? id).bind PixKey.code

/-- The number of executions that compared a guess for the key and have not ended. -/
def guessing (id : Uuid) : ℤ :=
  w.executions.total fun e => if e.progress.Guessing id then 1 else 0

/-- An execution deleted the tries of the key, and has not ended. -/
def Resetting (id : Uuid) : Prop := ∃ e ∈ w.executions.rows, e.progress.Resetting id

instance (id : Uuid) : Decidable (w.Resetting id) :=
  inferInstanceAs (Decidable (∃ _ ∈ _, _))

/-- The tries that are counted are those of the code that is compared.  A guess is compared with
the committed code, no execution is about to replace it, and the tries under way fit in too.  A try
that was compared is stored, on the code that it was compared with, and the execution that deleted
the tries stores and sends its code, which no guess was compared with. -/
def AccessCounted (numberOfRetries : ℕ) : Progress → Prop
  | .counting _ pixKey =>
      w.db.countByPixKey pixKey.id < numberOfRetries →
        w.code pixKey.id = pixKey.code ∧ ¬ w.Resetting pixKey.id ∧
          w.db.countByPixKey pixKey.id + w.guessing pixKey.id < numberOfRetries
  | .stored _ a => w.code a.pixKey.id = a.pixKey.code
  | .sent r pixKey => r.notification.isOk ∧ (pixKey.id, pixKey.code) ∉ w.compared
  | _ => True

instance (numberOfRetries : ℕ) (p : Progress) : Decidable (w.AccessCounted numberOfRetries p) := by
  cases p <;> unfold AccessCounted <;> infer_instance

/-- No execution is rolled back between its comparison or deletion and its end. -/
def Counted (numberOfRetries : ℕ) : CodeAction → Prop
  | .call _ _ => True
  | .next number =>
      ∀ e ∈ w.executions.get? number, w.AccessCounted numberOfRetries e.progress
  | .abort number => ∀ e ∈ w.executions.get? number, ¬ e.progress.InDoubt

instance (numberOfRetries : ℕ) (a : CodeAction) : Decidable (w.Counted numberOfRetries a) := by
  cases a <;> unfold Counted <;> infer_instance

/-- No code was compared too often, and the tries that are stored or under way are at least the
comparisons with the committed code, unless an execution is about to replace it. -/
structure Sound (numberOfRetries : ℕ) : Prop where
  bounded : ∀ id code, w.guesses id code ≤ numberOfRetries
  counted : ∀ id code, w.code id = some code → ¬ w.Resetting id →
    (w.guesses id code : ℤ) ≤ w.db.countByPixKey id + w.guessing id

/-! ### One step -/

variable {w} {numberOfRetries number : ℕ} {e : Execution} {p : Progress} {id : Uuid}
variable {r : VerifyRequest} {pixKey : PixKey}

theorem guessing_nonneg : 0 ≤ w.guessing id := by
  rw [guessing, Table.total]
  refine List.sum_nonneg fun x hx => ?_
  obtain ⟨e, -, rfl⟩ := List.mem_map.mp hx
  split <;> decide

theorem guessing_goto (p : Progress) (id : Uuid) (he : w.executions.get? number = some e) :
    (w.goto number p).guessing id =
      w.guessing id - (if e.progress.Guessing id then 1 else 0) +
        if p.Guessing id then 1 else 0 :=
  Table.total_set (r := Execution.mk number p) he rfl
    fun e => if e.progress.Guessing id then (1 : ℤ) else 0

/-- An execution that goes on resets no key less, unless it did itself. -/
theorem Resetting.goto (h : w.Resetting id) (he : w.executions.get? number = some e)
    (hkeep : e.progress.Resetting id → p.Resetting id) : (w.goto number p).Resetting id := by
  obtain ⟨e', hmem, hreset⟩ := h
  by_cases hnum : e'.number = number
  · have hget : w.executions.get? number = some e' := hnum ▸ Table.get?_of_mem hmem
    obtain rfl := Option.some.inj (he.symm.trans hget)
    exact ⟨⟨number, p⟩, Table.mem_set.mpr (.inr ⟨rfl, e, hmem, hnum⟩), hkeep hreset⟩
  · exact ⟨e', Table.mem_set.mpr (.inl ⟨hmem, hnum⟩), hreset⟩

/-- Other rows and comparisons change nothing about who resets what. -/
theorem resetting_congr {w' : CodeWorld} (h : w'.executions = w.executions) :
    w'.Resetting id ↔ w.Resetting id := by
  rw [Resetting, Resetting, h]

/-- An execution goes on, and no committed row changes. -/
theorem Sound.goto (h : w.Sound numberOfRetries) (he : w.executions.get? number = some e)
    (hguessing : ∀ id, e.progress.Guessing id → p.Guessing id)
    (hresetting : ∀ id, e.progress.Resetting id → p.Resetting id) :
    (w.goto number p).Sound numberOfRetries where
  bounded := h.bounded
  counted id code hcode hreset := by
    have hold : ¬ w.Resetting id := fun hr => hreset (hr.goto he (hresetting id))
    have hbound := h.counted id code hcode hold
    have hmore : (if e.progress.Guessing id then (1 : ℤ) else 0) ≤
        if p.Guessing id then 1 else 0 := by
      by_cases hg : e.progress.Guessing id
      · rw [if_pos hg, if_pos (hguessing id hg)]
      · rw [if_neg hg]
        split <;> decide
    have hgoto := guessing_goto p id he
    change (w.guesses id code : ℤ) ≤ w.db.countByPixKey id + (w.goto number p).guessing id
    linarith

theorem VerifyRequest.attempt_ok {pastRetries : ℕ}
    {a : Attempt} (h : r.attempt numberOfRetries pixKey pastRetries = .ok a) :
    pastRetries < numberOfRetries ∧ a.pixKey.id = pixKey.id ∧ a.pixKey.code = pixKey.code := by
  rw [VerifyRequest.attempt] at h
  split at h
  · cases h
  · rename_i hless
    cases h
    exact ⟨not_le.mp hless, rfl, rfl⟩

section

variable (h : w.Sound numberOfRetries)
include h

section

variable (he : w.executions.get? number = some e)
include he

/-- A guess is compared. -/
theorem Sound.compare (hprogress : e.progress = .counting r pixKey) {a : Attempt}
    (hattempt : r.attempt numberOfRetries pixKey (w.db.countByPixKey pixKey.id) = .ok a)
    (hcounted : w.AccessCounted numberOfRetries (.counting r pixKey)) :
    ({ w.goto number (.storing r a) with
        compared := w.compared ++ [(pixKey.id, pixKey.code)] } : CodeWorld).Sound
      numberOfRetries := by
  obtain ⟨hless, hid, -⟩ := VerifyRequest.attempt_ok hattempt
  obtain ⟨hcode, hreset, hfits⟩ := hcounted hless
  have hguesses : ∀ id code, ({ w.goto number (.storing r a) with
        compared := w.compared ++ [(pixKey.id, pixKey.code)] } : CodeWorld).guesses id code =
      w.guesses id code + if (pixKey.id, pixKey.code) = (id, some code) then 1 else 0 := by
    intro id code
    rw [guesses, List.count_append, List.count_singleton]
    simp [guesses]
  have hguessing : ∀ id, (w.goto number (.storing r a)).guessing id =
      w.guessing id + if pixKey.id = id then 1 else 0 := by
    intro id
    rw [guessing_goto _ _ he, hprogress]
    simp [Progress.Guessing, hid]
  constructor
  · intro id code
    rw [hguesses]
    by_cases hsame : (pixKey.id, pixKey.code) = (id, some code)
    · obtain ⟨rfl, hsome⟩ := Prod.mk.inj hsame
      have hbound := h.counted pixKey.id code (hcode.trans hsome) hreset
      rw [if_pos hsame]
      omega
    · rw [if_neg hsame]
      exact h.bounded id code
  · intro id code hc hr
    have hold : ¬ w.Resetting id := fun hold => hr
      ((resetting_congr rfl).mpr (hold.goto he (by rw [hprogress]; exact False.elim)))
    have hbound := h.counted id code hc hold
    rw [hguesses]
    change _ ≤ (w.db.countByPixKey id : ℤ) + (w.goto number (.storing r a)).guessing id
    rw [hguessing]
    by_cases hsame : (pixKey.id, pixKey.code) = (id, some code)
    · obtain ⟨rfl, -⟩ := Prod.mk.inj hsame
      rw [if_pos hsame, if_pos rfl]
      push_cast
      linarith
    · rw [if_neg hsame]
      split <;> push_cast <;> linarith

/-- A try is stored, on the code that it was compared with. -/
theorem Sound.store {a : Attempt} (hprogress : e.progress = .stored r a)
    (hcode : w.code a.pixKey.id = a.pixKey.code) :
    ({ w.goto number (.ended .committed) with db := w.db.storeAttempt a r.reason } :
      CodeWorld).Sound numberOfRetries where
  bounded := h.bounded
  counted id code hc hr := by
    have hsame : ({ w.goto number (.ended .committed) with
        db := w.db.storeAttempt a r.reason } : CodeWorld).code id = w.code id := by
      change ((w.db.pixKeys.set a.pixKey).get? id).bind PixKey.code = _
      rw [Table.get?_set]
      split
      · rename_i hk
        obtain rfl : a.pixKey.id = id := hk
        rw [CodeWorld.code] at hcode ⊢
        cases hrow : w.db.pixKeys.get? a.pixKey.id with
        | none => rfl
        | some p =>
            rw [hrow] at hcode
            exact hcode.symm
      · rfl
    have hold : ¬ w.Resetting id := fun hold => hr
      ((resetting_congr rfl).mpr (hold.goto he (by rw [hprogress]; exact False.elim)))
    have hbound := h.counted id code (hsame ▸ hc) hold
    have hcount : ((w.db.storeAttempt a r.reason).countByPixKey id : ℤ) =
        w.db.countByPixKey id + if a.pixKey.id = id then 1 else 0 := by
      rw [Database.countByPixKey, Database.storeAttempt, List.filter_append, List.length_append]
      by_cases hk : a.pixKey.id = id <;>
        simp [Database.countByPixKey, a.verification_pixKey, hk]
    have hguessing : (w.goto number (.ended .committed)).guessing id =
        w.guessing id - if a.pixKey.id = id then 1 else 0 := by
      rw [guessing_goto _ _ he, hprogress]
      simp [Progress.Guessing]
    change (w.guesses id code : ℤ) ≤ (w.db.storeAttempt a r.reason).countByPixKey id +
      (w.goto number (.ended .committed)).guessing id
    rw [hcount, hguessing]
    linarith

/-- The tries are deleted. -/
theorem Sound.delete {r : SendRequest} (hprogress : e.progress = .deleting r pixKey) :
    ({ w.goto number (.sending r { pixKey with code := some r.randomCode }) with
        db := w.db.deleteByPixKey pixKey } : CodeWorld).Sound numberOfRetries where
  bounded := h.bounded
  counted id code hc hr := by
    have hgoto : ¬ (w.goto number
        (.sending r { pixKey with code := some r.randomCode })).Resetting id :=
      fun hold => hr ((resetting_congr rfl).mpr hold)
    have hother : pixKey.id ≠ id := fun hk =>
      hgoto ⟨⟨number, _⟩, Table.mem_set.mpr (.inr ⟨rfl, e, Table.mem_of_get? he,
        Table.key_of_get? he⟩), hk⟩
    have hold : ¬ w.Resetting id := fun hold =>
      hgoto (hold.goto he (by rw [hprogress]; exact False.elim))
    have hbound := h.counted id code hc hold
    have hcount : (w.db.deleteByPixKey pixKey).countByPixKey id = w.db.countByPixKey id := by
      rw [Database.countByPixKey, Database.deleteByPixKey, List.filter_filter]
      congr 1
      refine List.filter_congr fun v _ => ?_
      by_cases hv : v.pixKey = id
      · simp [hv, hother.symm]
      · simp [hv]
    have hguessing : (w.goto number
        (.sending r { pixKey with code := some r.randomCode })).guessing id = w.guessing id := by
      rw [guessing_goto _ _ he, hprogress]
      simp [Progress.Guessing]
    change (w.guesses id code : ℤ) ≤ (w.db.deleteByPixKey pixKey).countByPixKey id +
      (w.goto number (.sending r { pixKey with code := some r.randomCode })).guessing id
    rw [hcount, hguessing]
    exact hbound

/-- A code is stored that no guess was compared with. -/
theorem Sound.replace {r : SendRequest} (hprogress : e.progress = .sent r pixKey)
    (hfresh : (pixKey.id, pixKey.code) ∉ w.compared) :
    ({ w.goto number (.ended .committed) with
        db := { w.db with pixKeys := w.db.pixKeys.set pixKey } } : CodeWorld).Sound
      numberOfRetries where
  bounded := h.bounded
  counted id code hc hr := by
    have hguessing : (w.goto number (.ended .committed)).guessing id = w.guessing id := by
      rw [guessing_goto _ _ he, hprogress]
      simp [Progress.Guessing]
    change (w.guesses id code : ℤ) ≤ w.db.countByPixKey id +
      (w.goto number (.ended .committed)).guessing id
    rw [hguessing]
    change ((w.db.pixKeys.set pixKey).get? id).bind PixKey.code = some code at hc
    rw [Table.get?_set] at hc
    split at hc
    · rename_i hk
      obtain rfl : pixKey.id = id := hk
      have hnone : w.guesses pixKey.id code = 0 := by
        cases hrow : w.db.pixKeys.get? pixKey.id with
        | none =>
            rw [hrow] at hc
            cases hc
        | some p =>
            rw [hrow] at hc
            exact List.count_eq_zero.mpr (hc ▸ hfresh)
      rw [hnone]
      exact add_nonneg (Int.natCast_nonneg _) guessing_nonneg
    · rename_i hk
      have hold : ¬ w.Resetting id := fun hold => hr
        ((resetting_congr rfl).mpr (hold.goto he (by rw [hprogress]; exact fun e => hk e)))
      exact h.counted id code hc hold

/-- An access for which the tries are counted. -/
theorem Sound.access (hcounted : w.AccessCounted numberOfRetries e.progress) :
    (w.access numberOfRetries number e.progress).Sound numberOfRetries := by
  cases hp : e.progress with
  | verify r =>
      rw [CodeWorld.access]
      split <;> exact h.goto he (by rw [hp]; exact fun _ => False.elim)
        (by rw [hp]; exact fun _ => False.elim)
  | counting r pixKey =>
      rw [hp] at hcounted
      rw [CodeWorld.access]
      split
      · exact h.goto he (by rw [hp]; exact fun _ => False.elim)
          (by rw [hp]; exact fun _ => False.elim)
      · rename_i a hattempt
        exact h.compare he hp hattempt hcounted
  | storing r a =>
      rw [CodeWorld.access]
      split
      · exact h.goto he (by rw [hp]; exact fun _ => id) (by rw [hp]; exact fun _ => False.elim)
      · exact h
  | stored r a =>
      rw [hp] at hcounted
      exact h.store he hp hcounted
  | send r =>
      rw [CodeWorld.access]
      split <;> exact h.goto he (by rw [hp]; exact fun _ => False.elim)
        (by rw [hp]; exact fun _ => False.elim)
  | deleting r pixKey => exact h.delete he hp
  | sending r pixKey =>
      rw [CodeWorld.access]
      split
      · exact h.goto he (by rw [hp]; exact fun _ => False.elim) (by rw [hp]; exact fun _ => id)
      · exact h
  | sent r pixKey =>
      rw [hp] at hcounted
      obtain ⟨hsent, hfresh⟩ := hcounted
      rw [CodeWorld.access]
      split
      · rename_i x hx
        rw [hx] at hsent
        cases hsent
      · exact h.replace he hp hfresh
  | ended outcome =>
      exact h.goto he (by rw [hp]; exact fun _ => False.elim) (by rw [hp]; exact fun _ => False.elim)

end

/-- An execution begins. -/
theorem Sound.call (hfree : w.executions.get? number = none) (r : VerifyRequest ⊕ SendRequest) :
    ({ w with
        executions := w.executions.upsert ⟨number, r.elim Progress.verify Progress.send⟩ } :
      CodeWorld).Sound numberOfRetries where
  bounded := h.bounded
  counted id code hc hr := by
    have hrows : (w.executions.upsert
        ⟨number, r.elim Progress.verify Progress.send⟩).rows =
        w.executions.rows ++ [⟨number, r.elim Progress.verify Progress.send⟩] :=
      Table.rows_upsert_of_fresh hfree
    have hold : ¬ w.Resetting id := by
      rintro ⟨e, he, hreset⟩
      exact hr ⟨e, hrows ▸ List.mem_append_left _ he, hreset⟩
    have hbound := h.counted id code hc hold
    have hquiet : ¬ (r.elim Progress.verify Progress.send).Guessing id := by
      cases r <;> exact not_false
    have hguessing : ({ w with
        executions := w.executions.upsert ⟨number, r.elim Progress.verify Progress.send⟩ } :
        CodeWorld).guessing id = w.guessing id := by
      rw [guessing, Table.total, hrows]
      simp [guessing, Table.total, hquiet]
    rw [hguessing]
    exact hbound

/-- One action for which the tries are counted. -/
theorem Sound.act (a : CodeAction)
    (hcounted : w.Counted numberOfRetries a) : (w.act numberOfRetries a).Sound numberOfRetries := by
  cases a with
  | call number r =>
      rw [CodeWorld.act]
      split
      · exact h
      · rename_i hfree
        exact h.call (Option.not_isSome_iff_eq_none.mp hfree) r
  | next number =>
      rw [CodeWorld.act]
      cases he : w.executions.get? number with
      | none => exact h
      | some e => exact h.access he (hcounted e he)
  | abort number =>
      rw [CodeWorld.act]
      cases he : w.executions.get? number with
      | none => exact h
      | some e =>
          have hquiet := hcounted e he
          obtain ⟨n, p⟩ := e
          cases p with
          | ended outcome => exact h
          | storing | stored | sending | sent => exact absurd trivial hquiet
          | verify | counting | send | deleting =>
              exact h.goto he (fun _ => False.elim) fun _ => False.elim

end

theorem sound_start (db : Database) (numberOfRetries : ℕ) : (start db).Sound numberOfRetries where
  bounded _ _ := Nat.zero_le _
  counted _ _ _ _ := add_nonneg (Int.natCast_nonneg _) guessing_nonneg

end CodeWorld

/-- Along a run in which the tries are counted, no code is compared more than `numberOfRetries`
times. -/
theorem guesses_le (numberOfRetries : ℕ) (db : Database) (as : List CodeAction)
    (hcounted : Along (CodeWorld.act · numberOfRetries) (CodeWorld.Counted · numberOfRetries)
      (CodeWorld.start db) as) :
    ∀ bs, bs <+: as → ∀ id code,
      (run (CodeWorld.act · numberOfRetries) (CodeWorld.start db) bs).guesses id code ≤
        numberOfRetries := by
  rintro bs ⟨cs, rfl⟩ id code
  have hbs := (along_append.mp hcounted).1
  have h := Along.invariant (I := fun w : CodeWorld => w.Sound numberOfRetries)
    (fun w a h ha => h.act a ha) (CodeWorld.sound_start db numberOfRetries) hbs
  exact h.bounded id code

/-! A key of which a user guesses the code twice, then asks for another one, then guesses again. -/

def guessedKey : PixKey where
  id := 1
  type := .EMAIL
  key := some "ana@mail.com"
  personType := .NATURAL_PERSON
  document := "12345678909"
  name := "Ana"
  tradeName := none
  user := 7
  accountNumber := "1"
  branch := "1"
  state := .PENDING
  accountOpeningDate := 0
  code := some "12345"
  claim := none

def guessedDatabase : Database := { Database.empty with pixKeys := Table.empty.upsert guessedKey }

/-- A wrong guess, from its call to its commit. -/
def wrongGuess (number : ℕ) : List CodeAction :=
  [.call number (.inl ⟨7, 1, "00000", none⟩), .next number, .next number, .next number,
    .next number]

/-- A new code is asked for. -/
def newCode (number : ℕ) (notification : Except Exception Unit) : List CodeAction :=
  [.call number (.inr ⟨7, 1, "54321", notification⟩), .next number, .next number, .next number,
    .next number]

theorem guesses_le_new_code :
    (run (CodeWorld.act · 3) (CodeWorld.start guessedDatabase) (wrongGuess 0 ++ wrongGuess 1 ++
      newCode 2 (.ok ()) ++ wrongGuess 3 ++ wrongGuess 4)).guesses 1 "12345" ≤ 3 :=
  guesses_le 3 guessedDatabase _ (by decide +kernel) _ List.prefix_rfl 1 "12345"

/-- The notification fails: the old code stays, and its tries are forgotten. -/
theorem guesses_forgotten :
    ¬ ∀ (numberOfRetries : ℕ) (db : Database) (as : List CodeAction) (id : Uuid) (code : String),
      (run (CodeWorld.act · numberOfRetries) (CodeWorld.start db) as).guesses id code ≤
        numberOfRetries := by
  intro h
  have hguesses := h 3 guessedDatabase (wrongGuess 0 ++ wrongGuess 1 ++
    newCode 2 (.error .notification) ++ wrongGuess 3 ++ wrongGuess 4) 1 "12345"
  have hfour : (run (CodeWorld.act · 3) (CodeWorld.start guessedDatabase)
      (wrongGuess 0 ++ wrongGuess 1 ++ newCode 2 (.error .notification) ++ wrongGuess 3 ++
        wrongGuess 4)).guesses 1 "12345" = 4 := by
    decide +kernel
  rw [hfour] at hguesses
  exact absurd hguesses (by decide)

end ZroServices.PixKeys
