import Mathlib.Data.List.Count
import ZroServices.Users.ForgotPassword

/-!
# Users — how often a code is guessed

An execution that has compared a guess holds the request as it will store it.  Where no two of them
hold one request, none is rolled back, and nobody else stores the request meanwhile (`Apart`), the
stored request counts the guesses, and a closed request stays closed (`guarded_of_apart`).

The code sees to none of this: it reads the request without a lock and stores the object as it was
read.
-/

namespace ZroServices.Users.ForgotPassword

open Foundation

variable {config : Config} {w : World} {id : Uuid} {i : ℕ} {x : Execution}

/-! ### Guesses in hand -/

def Call.IsUpdate : Call → Prop
  | .update .. => True
  | _ => False

/-- The request as an execution will store it. -/
def Stage.object : Stage → Option UserForgotPassword
  | .getUser q | .updateUser _ q | .update _ q | .commit _ [q] _ => some q
  | _ => none

/-- The execution has compared a guess, and will store `q`. -/
def Execution.Guesses (x : Execution) (q : UserForgotPassword) : Prop :=
  x.call.IsUpdate ∧ x.stage.object = some q ∧ q.state ≠ .EXPIRED

/-- Execution `i` has compared a guess with the request's code, and will store `q`. -/
def World.InHand (w : World) (id : Uuid) (i : ℕ) (q : UserForgotPassword) : Prop :=
  ∃ x, w.executions[i]? = some x ∧ x.Guesses q ∧ q.id = id

/-- The next statement of `x` reads the request and compares a guess. -/
def World.Compares (w : World) (config : Config) (x : Execution) (id : Uuid) : Prop :=
  x.stage = .begun ∧
    match x.call with
    | .update id' _ _ now => id' = id ∧ ∃ q ∈ w.requests.get? id, q.state = .PENDING ∧
        ¬ q.isExpired config.expirationSeconds now
    | _ => False

/-- The requests that the commit to come stores. -/
def Stage.storing : Stage → List Uuid
  | .commit _ requests _ => requests.map UserForgotPassword.id
  | _ => []

/-- The request whose user is about to be read. -/
def Stage.confirming : Stage → Option UserForgotPassword
  | .getUser q => some q
  | _ => none

/-- The step leaves the guesses of a request alone: a guess is compared only while no other one is
in hand, the request is stored only by the execution that has one, and that is not rolled back. -/
def Apart (config : Config) (id : Uuid) (w : World) : Step → Prop
  | .call _ => True
  | .go i => ∀ x ∈ w.executions[i]?,
      (w.Compares config x id → ∀ j q, ¬ w.InHand id j q) ∧
      (id ∈ x.stage.storing → ∀ j q, w.InHand id j q → j = i) ∧
      (∀ q ∈ x.stage.confirming, w.InHand id i q → (w.users.get? q.user).isSome)
  | .abort i => ∀ q, ¬ w.InHand id i q

/-! The condition can be computed. -/

instance : DecidablePred Call.IsUpdate := fun call => by
  cases call <;> unfold Call.IsUpdate <;> infer_instance

/-- The request that an execution will store after its guess. -/
def Execution.holding (x : Execution) : Option UserForgotPassword :=
  if x.call.IsUpdate then x.stage.object.filter fun q => q.state ≠ .EXPIRED else none

theorem Execution.guesses_iff {q : UserForgotPassword} : x.Guesses q ↔ q ∈ x.holding := by
  rw [Guesses, holding, Option.mem_def]
  split
  · next hcall => simp [hcall, Option.filter_eq_some_iff]
  · next hcall => simp [hcall]

theorem World.inHand_iff {q : UserForgotPassword} :
    w.InHand id i q ↔ ∃ x ∈ w.executions[i]?, q ∈ x.holding ∧ q.id = id := by
  simp only [InHand, Execution.guesses_iff, Option.mem_def]

instance (w : World) (id : Uuid) : Decidable (∀ j q, ¬ w.InHand id j q) :=
  decidable_of_iff (∀ x ∈ w.executions, ∀ q ∈ x.holding, q.id ≠ id) <| by
    constructor
    · rintro h j q hq
      obtain ⟨x, hx, hq, hid⟩ := World.inHand_iff.mp hq
      exact h x (List.mem_of_getElem? hx) q hq hid
    · intro h x hx q hq hid
      obtain ⟨j, hj⟩ := List.mem_iff_getElem?.mp hx
      exact h j q (World.inHand_iff.mpr ⟨x, hj, hq, hid⟩)

instance (w : World) (id : Uuid) (i : ℕ) : Decidable (∀ j q, w.InHand id j q → j = i) :=
  decidable_of_iff (∀ j < w.executions.length, j ≠ i → ∀ x ∈ w.executions[j]?, ∀ q ∈ x.holding,
      q.id ≠ id) <| by
    constructor
    · intro h j q hq
      obtain ⟨x, hx, hq, hid⟩ := World.inHand_iff.mp hq
      by_contra hj
      exact h j (List.getElem?_eq_some_iff.mp hx).1 hj x hx q hq hid
    · intro h j _ hj x hx q hq hid
      exact hj (h j q (World.inHand_iff.mpr ⟨x, hx, hq, hid⟩))

instance (w : World) (id : Uuid) (i : ℕ) : Decidable (∀ q, ¬ w.InHand id i q) :=
  decidable_of_iff (∀ x ∈ w.executions[i]?, ∀ q ∈ x.holding, q.id ≠ id) <| by
    simp only [World.inHand_iff, not_exists, not_and]
    exact ⟨fun h q x hx hq => h x hx q hq, fun h x hx q hq => h q x hx hq⟩

instance (w : World) (id : Uuid) (i : ℕ) (q : UserForgotPassword) : Decidable (w.InHand id i q) :=
  decidable_of_iff _ World.inHand_iff.symm

instance (w : World) (config : Config) (x : Execution) (id : Uuid) :
    Decidable (w.Compares config x id) := by
  unfold World.Compares
  cases x.call <;> infer_instance

instance (config : Config) (id : Uuid) (w : World) (l : Step) : Decidable (Apart config id w l) := by
  cases l <;> unfold Apart <;> infer_instance

/-- No more guesses are compared than are allowed, and the password is changed once at most. -/
def World.Guarded (w : World) (config : Config) (id : Uuid) : Prop :=
  (w.compared.count id : ℤ) ≤ config.maxAttempts ∧ w.changed.count id ≤ 1

/-- The request was declined, or has expired. -/
def UserForgotPassword.Closed (q : UserForgotPassword) : Prop :=
  q.state = .DECLINED ∨ q.state = .EXPIRED

def World.Closed (w : World) (id : Uuid) : Prop := ∃ q, w.requests.get? id = some q ∧ q.Closed

/-- In every state of the run the guesses are within their number and the password was changed once
at most, and a closed request stays closed and changes no password. -/
def Safe (config : Config) (users : Table User) (ls : List Step) (id : Uuid) : Prop :=
  (∀ ms, ms <+: ls → (run (step config) (start users) ms).Guarded config id) ∧
    ∀ ms ms', ms ++ ms' <+: ls → (run (step config) (start users) ms).Closed id →
      (run (step config) (start users) (ms ++ ms')).Closed id ∧
      (run (step config) (start users) (ms ++ ms')).changed.count id =
        (run (step config) (start users) ms).changed.count id

/-! ### What an execution is about to do -/

/-- What an execution may hold at its stage. -/
def Execution.Fits (x : Execution) : Prop :=
  match x.stage with
  | .getUser q | .updateUser _ q => x.call.IsUpdate ∧ q.state = .CONFIRMED
  | .update user q =>
      (q.state = .EXPIRED ∧ user = none) ∨
        (x.call.IsUpdate ∧ q.state ≠ .EXPIRED ∧ (user.isSome → q.state = .CONFIRMED))
  | .decline _ q => q.state = .DECLINED
  | .create _ declined => ∀ q ∈ declined, q.state = .DECLINED
  | .commit user requests created =>
      (∃ written : Option UserForgotPassword, requests = written.toList ∧
        (∀ q ∈ written, q.Closed ∨ x.Guesses q) ∧
        (user.isSome → ∃ q ∈ written, x.Guesses q ∧ q.state = .CONFIRMED)) ∧
      ∀ q ∈ created, ¬ x.call.IsUpdate ∧ q.state = .PENDING ∧ q.attempts = 0
  | _ => True

/-- What is known of a request: what its row and the guesses in hand say of the counts. -/
structure Counted (config : Config) (id : Uuid) (w : World) : Prop where
  bound : w.Guarded config id
  single : ∀ i j q r, w.InHand id i q → w.InHand id j r → i = j
  inHand : ∀ i q, w.InHand id i q → ∃ row, w.requests.get? id = some row ∧
    row.state = .PENDING ∧ q.attempts = row.attempts + 1 ∧ w.compared.count id = q.attempts ∧
    (q.state = .PENDING → (q.attempts : ℤ) < config.maxAttempts)
  pending : ∀ row, w.requests.get? id = some row → row.state = .PENDING →
    (row.attempts : ℤ) < config.maxAttempts ∧ w.changed.count id = 0 ∧
    ((∀ i q, ¬ w.InHand id i q) → w.compared.count id = row.attempts)
  absent : w.requests.get? id = none → w.compared.count id = 0 ∧ w.changed.count id = 0

structure Sound (config : Config) (id : Uuid) (w : World) : Prop where
  fits : ∀ x ∈ w.executions, x.Fits
  counted : Counted config id w

theorem sound_start (h : 1 ≤ config.maxAttempts) (users : Table User) :
    Sound config id (start users) where
  fits _ hx := absurd hx List.not_mem_nil
  counted := by
    have hnone (i : ℕ) (q : UserForgotPassword) : ¬ (start users).InHand id i q :=
      fun ⟨_, hx, _⟩ => (Option.some_ne_none _ hx.symm).elim
    refine ⟨⟨?_, Nat.zero_le 1⟩, fun i j q r hi => absurd hi (hnone i q),
      fun i q hi => absurd hi (hnone i q), fun _ hrow => ?_, fun _ => ⟨rfl, rfl⟩⟩
    · change (0 : ℤ) ≤ config.maxAttempts
      omega
    · exact (Option.some_ne_none _ hrow.symm).elim

/-- The counts depend on the row, the guesses in hand and the records alone. -/
theorem Counted.same (h : Counted config id w) {w' : World}
    (hrow : w'.requests.get? id = w.requests.get? id)
    (hinHand : ∀ j q, w'.InHand id j q ↔ w.InHand id j q)
    (hcompared : w'.compared.count id = w.compared.count id)
    (hchanged : w'.changed.count id = w.changed.count id) : Counted config id w' where
  bound := by
    rw [World.Guarded, hcompared, hchanged]
    exact h.bound
  single i j q r hi hj := h.single i j q r ((hinHand i q).mp hi) ((hinHand j r).mp hj)
  inHand i q hi := by
    rw [hrow, hcompared]
    exact h.inHand i q ((hinHand i q).mp hi)
  pending row hget hp := by
    rw [hrow] at hget
    obtain ⟨hlt, hzero, hcount⟩ := h.pending row hget hp
    rw [hcompared, hchanged]
    exact ⟨hlt, hzero, fun hnone => hcount fun i q hi => hnone i q ((hinHand i q).mpr hi)⟩
  absent hget := by
    rw [hcompared, hchanged]
    exact h.absent (hrow.symm.trans hget)

/-! ### A statement that stores nothing -/

section
variable {stage : Stage}

/-- The guesses in hand after an execution went on. -/
theorem inHand_goes (hx : w.executions[i]? = some x) {j : ℕ} {q : UserForgotPassword} :
    (w.goes i x stage).InHand id j q ↔
      (j = i ∧ ({ x with stage := stage } : Execution).Guesses q ∧ q.id = id) ∨
        (j ≠ i ∧ w.InHand id j q) := by
  obtain ⟨hlt, -⟩ := List.getElem?_eq_some_iff.mp hx
  rw [World.InHand, World.goes]
  by_cases hj : j = i
  · subst hj
    rw [List.getElem?_set_self hlt]
    simp
  · rw [List.getElem?_set_ne (Ne.symm hj)]
    simp [hj, World.InHand]

theorem fits_goes (h : ∀ y ∈ w.executions, y.Fits)
    (hfits : ({ x with stage := stage } : Execution).Fits) :
    ∀ y ∈ (w.goes i x stage).executions, y.Fits := fun y hy =>
  (List.mem_or_eq_of_mem_set hy).elim (h y) fun hy => hy ▸ hfits

/-- An execution goes on with the guess that it has, or with none. -/
theorem Sound.goes (h : Sound config id w) (hx : w.executions[i]? = some x)
    (hfits : ({ x with stage := stage } : Execution).Fits)
    (hguess : ∀ q, q.id = id →
      (({ x with stage := stage } : Execution).Guesses q ↔ x.Guesses q)) :
    Sound config id (w.goes i x stage) where
  fits := fits_goes h.fits hfits
  counted := by
    refine h.counted.same rfl (fun j q => ?_) rfl rfl
    rw [inHand_goes hx]
    by_cases hj : j = i
    · subst hj
      simp only [true_and, ne_eq, not_true_eq_false, false_and, or_false]
      constructor
      · rintro ⟨hq, hid⟩
        exact ⟨x, hx, (hguess q hid).mp hq, hid⟩
      · rintro ⟨y, hy, hq, hid⟩
        obtain rfl := Option.some_inj.mp (hx.symm.trans hy)
        exact ⟨(hguess q hid).mpr hq, hid⟩
    · simp [hj]

/-- An execution goes on that has no guess, and takes none. -/
theorem Sound.goes_without (h : Sound config id w) (hx : w.executions[i]? = some x)
    (hfits : ({ x with stage := stage } : Execution).Fits) (hold : ∀ q, q.id = id → ¬ x.Guesses q)
    (hnew : ∀ q, ¬ ({ x with stage := stage } : Execution).Guesses q) :
    Sound config id (w.goes i x stage) :=
  h.goes hx hfits fun q hid => iff_of_false (hnew q) (hold q hid)

end

theorem not_guesses_of_none {stage : Stage} (h : stage.object = none) (call : Call)
    (q : UserForgotPassword) : ¬ (⟨call, stage⟩ : Execution).Guesses q := by
  rintro ⟨-, hobject, -⟩
  exact (Option.some_ne_none _ (hobject.symm.trans h)).elim

theorem not_guesses_of_expired {stage : Stage} {r : UserForgotPassword}
    (h : stage.object = some r) (hr : r.state = .EXPIRED) (call : Call) (q : UserForgotPassword) :
    ¬ (⟨call, stage⟩ : Execution).Guesses q := by
  rintro ⟨-, hobject, hstate⟩
  obtain rfl := Option.some_inj.mp (h.symm.trans hobject)
  exact hstate hr

/-! ### A guess -/

theorem guessed_id (q : UserForgotPassword) (config : Config) (code : String) :
    (q.guessed config code).id = q.id := by
  rw [UserForgotPassword.guessed]
  split
  · rfl
  split
  · rfl
  · rfl

theorem guessed_attempts (q : UserForgotPassword) (config : Config) (code : String) :
    (q.guessed config code).attempts = q.attempts + 1 := by
  rw [UserForgotPassword.guessed]
  split
  · rfl
  split
  · rfl
  · rfl

/-- A request that is still pending after a guess was guessed wrong, and not for the last time. -/
theorem lt_of_guessed {q : UserForgotPassword} {code : String}
    (h : (q.guessed config code).state = .PENDING) :
    ((q.guessed config code).attempts : ℤ) < config.maxAttempts := by
  rw [guessed_attempts]
  rw [UserForgotPassword.guessed] at h
  split at h
  · cases h
  · next hlast =>
    split at h
    · next hwrong => exact Int.not_le.mp fun hle => hlast ⟨hwrong, hle⟩
    · cases h

theorem guessed_right {q : UserForgotPassword} {code : String} (h : q.code = code) :
    (q.guessed config code).state = .CONFIRMED := by
  rw [UserForgotPassword.guessed, if_neg fun hw => hw.1 h, if_neg fun hw => hw h]

theorem guessed_ne_expired {q : UserForgotPassword} {code : String} (hp : q.state = .PENDING) :
    (q.guessed config code).state ≠ .EXPIRED := by
  rw [UserForgotPassword.guessed]
  split
  · exact fun h => UserForgotPasswordState.noConfusion h
  split
  · rw [hp]
    exact fun h => UserForgotPasswordState.noConfusion h
  · exact fun h => UserForgotPasswordState.noConfusion h

/-- The execution that compares a guess takes it in hand. -/
theorem Counted.compare (h : Counted config id w) {call : Call} (hcall : call.IsUpdate)
    (hx : w.executions[i]? = some ⟨call, .begun⟩) {q : UserForgotPassword}
    (hq : w.requests.get? id = some q) (hp : q.state = .PENDING) {code : String}
    (hnone : ∀ j r, ¬ w.InHand id j r) {stage : Stage}
    (hstage : stage.object = some (q.guessed config code)) :
    Counted config id { w.goes i ⟨call, .begun⟩ stage with compared := w.compared ++ [id] } := by
  obtain ⟨hlt, hchanged, hcount⟩ := h.pending q hq hp
  have hnew (j : ℕ) (r : UserForgotPassword) :
      (w.goes i ⟨call, .begun⟩ stage).InHand id j r ↔ j = i ∧ r = q.guessed config code := by
    rw [inHand_goes hx]
    constructor
    · rintro (⟨rfl, ⟨-, hobject, -⟩, -⟩ | ⟨-, hr⟩)
      · exact ⟨rfl, (Option.some_inj.mp (hstage.symm.trans hobject)).symm⟩
      · exact absurd hr (hnone j r)
    · rintro ⟨rfl, rfl⟩
      exact .inl ⟨rfl, ⟨hcall, hstage, guessed_ne_expired hp⟩,
        (guessed_id q config code).trans (Table.key_of_get? hq)⟩
  have hcompared : (w.compared ++ [id]).count id = q.attempts + 1 := by
    rw [List.count_append, hcount hnone, List.count_singleton_self]
  have hbound : ((w.compared ++ [id]).count id : ℤ) ≤ config.maxAttempts := by
    rw [hcompared]
    omega
  refine ⟨⟨hbound, h.bound.2⟩, fun j k r r' hj hk => ?_, fun j r hj => ?_, fun row hrow hpending => ?_,
    fun habsent => ?_⟩
  · exact ((hnew j r).mp hj).1.trans ((hnew k r').mp hk).1.symm
  · obtain ⟨-, rfl⟩ := (hnew j r).mp hj
    exact ⟨q, hq, hp, guessed_attempts q config code,
      hcompared.trans (guessed_attempts q config code).symm, lt_of_guessed⟩
  · obtain rfl := Option.some_inj.mp (hq.symm.trans hrow)
    exact ⟨hlt, hchanged, fun hfree => absurd ((hnew i _).mpr ⟨rfl, rfl⟩) (hfree i _)⟩
  · exact (Option.some_ne_none _ (hq.symm.trans habsent)).elim

theorem Sound.guess (h : Sound config id w) {id' : Uuid} {code newPassword : String} {now : ℤ}
    (hx : w.executions[i]? = some ⟨.update id' code newPassword now, .begun⟩)
    (hapart : w.Compares config ⟨.update id' code newPassword now, .begun⟩ id →
      ∀ j q, ¬ w.InHand id j q) :
    Sound config id
      (w.guess config i ⟨.update id' code newPassword now, .begun⟩ id' code newPassword now) := by
  have hbegun (q : UserForgotPassword) :
      ¬ (⟨.update id' code newPassword now, .begun⟩ : Execution).Guesses q :=
    not_guesses_of_none rfl _ q
  have hback (e : Exception) : Sound config id
      (w.goes i ⟨.update id' code newPassword now, .begun⟩ (.rolledBack e)) :=
    h.goes_without hx trivial (fun q _ => hbegun q) fun q => not_guesses_of_none rfl _ q
  rw [World.guess]
  split
  · exact hback _
  cases hq : w.requests.get? id' with
  | none => exact hback _
  | some q =>
  dsimp only
  by_cases hdeclined : q.state = .DECLINED
  · rw [if_pos hdeclined]
    exact hback _
  rw [if_neg hdeclined]
  by_cases hexpired : q.state = .EXPIRED
  · rw [if_pos hexpired]
    exact hback _
  rw [if_neg hexpired]
  by_cases hp : q.state = .PENDING
  swap
  · rw [if_pos hp]
    exact hback _
  rw [if_neg (not_not_intro hp)]
  by_cases hlate : q.isExpired config.expirationSeconds now
  · rw [if_pos hlate]
    exact h.goes_without hx (.inl ⟨rfl, rfl⟩) (fun q _ => hbegun q)
      fun r => not_guesses_of_expired (r := q.expire now) rfl rfl _ r
  rw [if_neg hlate]
  have hne : (q.guessed config code).state ≠ .EXPIRED := guessed_ne_expired hp
  generalize hstage : (if q.code = code then Stage.getUser (q.guessed config code)
    else Stage.update none (q.guessed config code)) = stage
  have hobject : stage.object = some (q.guessed config code) := by
    rw [← hstage]
    split
    · rfl
    · rfl
  have hfits : (⟨.update id' code newPassword now, stage⟩ : Execution).Fits := by
    rw [← hstage]
    split
    · next hright => exact ⟨trivial, guessed_right hright⟩
    · exact .inr ⟨trivial, hne, fun huser => absurd huser Bool.false_ne_true⟩
  refine ⟨fits_goes h.fits hfits, ?_⟩
  by_cases hid : id' = id
  · subst hid
    have hcall : (Call.update id' code newPassword now).IsUpdate := trivial
    exact h.counted.compare hcall hx hq hp (hapart ⟨rfl, rfl, q, hq, hp, hlate⟩)
      hobject
  · have hother (r : UserForgotPassword) (hr : r.id = id) :
        ¬ (⟨.update id' code newPassword now, stage⟩ : Execution).Guesses r := by
      rintro ⟨-, hr', -⟩
      obtain rfl := Option.some_inj.mp (hobject.symm.trans hr')
      exact hid ((Table.key_of_get? hq).symm.trans ((guessed_id q config code).symm.trans hr))
    have hgoes : Sound config id (w.goes i ⟨.update id' code newPassword now, .begun⟩ stage) :=
      h.goes hx hfits fun r hr => iff_of_false (hother r hr) (hbegun r)
    refine hgoes.counted.same rfl (fun _ _ => Iff.rfl) ?_ rfl
    change (w.compared ++ [id']).count id = w.compared.count id
    rw [List.count_append, List.count_singleton, beq_false_of_ne hid]
    rfl

/-! ### The other statements -/

theorem Sound.sync (h : Sound config id w) {id' : Uuid} {now : ℤ}
    (hx : w.executions[i]? = some ⟨.sync id' now, .begun⟩) :
    Sound config id (w.sync config i ⟨.sync id' now, .begun⟩ id' now) := by
  have hdone : Sound config id (w.goes i ⟨.sync id' now, .begun⟩ .committed) :=
    h.goes_without hx trivial (fun q _ => not_guesses_of_none rfl _ q)
      fun q => not_guesses_of_none rfl _ q
  rw [World.sync]
  cases w.requests.get? id' with
  | none => exact hdone
  | some q =>
  dsimp only
  split
  · exact h.goes_without hx (.inl ⟨rfl, rfl⟩) (fun q _ => not_guesses_of_none rfl _ q)
      fun r => not_guesses_of_expired (r := q.expire now) rfl rfl _ r
  · exact hdone

/-- An execution that holds no request goes to a stage at which it holds none. -/
theorem Sound.goes_none (h : Sound config id w) (hx : w.executions[i]? = some x)
    (hold : x.stage.object = none) {stage : Stage} (hnew : stage.object = none)
    (hfits : ({ x with stage := stage } : Execution).Fits) : Sound config id (w.goes i x stage) :=
  h.goes_without hx hfits (fun q _ => not_guesses_of_none hold x.call q)
    fun q => not_guesses_of_none hnew x.call q

/-- An execution goes on with the object that it holds. -/
theorem Sound.goes_object (h : Sound config id w) (hx : w.executions[i]? = some x) {stage : Stage}
    (hsame : stage.object = x.stage.object)
    (hfits : ({ x with stage := stage } : Execution).Fits) : Sound config id (w.goes i x stage) := by
  refine h.goes hx hfits fun q _ => ?_
  rw [Execution.Guesses, Execution.Guesses, hsame]

/-! ### A commit -/

/-- The requests after a commit. -/
def stored (requests : Table UserForgotPassword) (written created : Option UserForgotPassword) :
    Table UserForgotPassword :=
  created.elim (requests.setAll written.toList) (requests.setAll written.toList).upsert

section
variable {requests : Table UserForgotPassword} {written created : Option UserForgotPassword}

theorem get?_setAll_toList (hw : ∀ q ∈ written, q.id ≠ id) :
    (requests.setAll written.toList).get? id = requests.get? id :=
  Table.get?_setAll_of_ne fun q hq => hw q (Option.mem_toList.mp hq)

theorem get?_stored_of_ne (hc : ∀ q ∈ created, q.id ≠ id) :
    (stored requests written created).get? id = (requests.setAll written.toList).get? id := by
  cases created with
  | none => rfl
  | some c => exact Table.get?_upsert_ne (hc c rfl)

theorem get?_stored_created {c : UserForgotPassword} (hc : c.id = id) :
    (stored requests written (some c)).get? id = some c := by
  subst hc
  exact Table.get?_upsert_self

theorem get?_stored_absent (hrow : requests.get? id = none) :
    (stored requests written created).get? id = created.filter fun q => q.id = id := by
  have hset : (requests.setAll written.toList).get? id = none := by
    rw [Table.get?_eq_none] at hrow ⊢
    intro q hq hid
    have hkey : id ∈ requests.rows.map Keyed.key := by
      rw [← Table.map_key_setAll requests written.toList]
      exact List.mem_map.mpr ⟨q, hq, hid⟩
    obtain ⟨r, hr, hrid⟩ := List.mem_map.mp hkey
    exact hrow r hr hrid
  cases created with
  | none => exact hset
  | some c =>
      by_cases hc : c.id = id
      · rw [get?_stored_created hc, Option.filter_some, if_pos (by simpa using hc)]
      · rw [get?_stored_of_ne (fun q hq => Option.some_inj.mp hq ▸ hc), hset, Option.filter_some,
          if_neg (by simpa using hc)]

theorem get?_stored_written {q row : UserForgotPassword} (hrow : requests.get? id = some row)
    (hq : q.id = id) (hc : ∀ q ∈ created, q.id ≠ id) :
    (stored requests (some q) created).get? id = some q := by
  rw [get?_stored_of_ne hc]
  exact Table.get?_set_self hrow hq

end

/-- The guesses in hand after an execution has ended. -/
theorem inHand_ended (hx : w.executions[i]? = some x) {stage : Stage} (hnone : stage.object = none)
    {j : ℕ} {q : UserForgotPassword} :
    (w.goes i x stage).InHand id j q ↔ j ≠ i ∧ w.InHand id j q := by
  rw [inHand_goes hx]
  exact or_iff_right fun h => not_guesses_of_none hnone x.call q h.2.1

/-- The password is changed with the request that is stored. -/
theorem count_changed {user : Option User} {written : Option UserForgotPassword}
    (h : user.isSome → ∀ q ∈ written, q.id ≠ id) :
    (w.changed ++ if user.isSome then written.toList.map UserForgotPassword.id else []).count id =
      w.changed.count id := by
  rw [List.count_append]
  split
  · next huser =>
    cases written with
    | none => rfl
    | some q =>
        change _ + [q.id].count id = _
        rw [List.count_singleton, beq_false_of_ne (h huser q rfl)]
        rfl
  · rfl

/-- What a commit makes of the counts of a request that is not there: it may create it. -/
theorem Counted.commit_absent (h : Counted config id w) (hmax : 1 ≤ config.maxAttempts) {w' : World}
    {created : Option UserForgotPassword} (hrow : w.requests.get? id = none)
    (hcreated : ∀ q ∈ created, q.state = .PENDING ∧ q.attempts = 0)
    (hrow' : w'.requests.get? id = created.filter fun q => q.id = id)
    (hinHand : ∀ j q, w'.InHand id j q → w.InHand id j q) (hcompared : w'.compared = w.compared)
    (hchanged : w'.changed.count id = w.changed.count id) : Counted config id w' := by
  obtain ⟨hcompared₀, hchanged₀⟩ := h.absent hrow
  have hno (j : ℕ) (q : UserForgotPassword) : ¬ w'.InHand id j q := fun hq => by
    obtain ⟨row, hsome, -⟩ := h.inHand j q (hinHand j q hq)
    exact (Option.some_ne_none _ (hsome.symm.trans hrow)).elim
  rw [hchanged₀] at hchanged
  rw [← hcompared] at hcompared₀
  refine ⟨⟨?_, ?_⟩, fun j _ q _ hj => absurd hj (hno j q), fun j q hj => absurd hj (hno j q),
    fun row hsome _ => ?_, fun _ => ⟨hcompared₀, hchanged⟩⟩
  · rw [hcompared₀]
    omega
  · rw [hchanged]
    omega
  · rw [hrow'] at hsome
    obtain ⟨-, hattempts⟩ := hcreated row (Option.filter_eq_some_iff.mp hsome).1
    rw [hattempts]
    exact ⟨by omega, hchanged, fun _ => hcompared₀⟩

/-- What a commit makes of the counts of a request that it writes: it closes the request, or it
stores a guess. -/
theorem Counted.commit_written (h : Counted config id w) {w' : World} {row q : UserForgotPassword}
    (hrow : w.requests.get? id = some row) (hrow' : w'.requests.get? id = some q)
    (hno : ∀ j r, ¬ w'.InHand id j r) (hcompared : w'.compared = w.compared)
    (hkind : (q.Closed ∧ w'.changed.count id = w.changed.count id) ∨
      (w.InHand id i q ∧ w'.changed.count id ≤ w.changed.count id + 1 ∧
        (q.state = .PENDING → w'.changed.count id = w.changed.count id))) :
    Counted config id w' := by
  have habsent (hnone : w'.requests.get? id = none) : False :=
    (Option.some_ne_none _ (hrow'.symm.trans hnone)).elim
  rcases hkind with ⟨hclosed, hchanged⟩ | ⟨hin, hchanged, hsame⟩
  · refine ⟨?_, fun j _ r _ hj => absurd hj (hno j r), fun j r hj => absurd hj (hno j r),
      fun row' hsome hp => ?_, fun hnone => (habsent hnone).elim⟩
    · rw [World.Guarded, hcompared, hchanged]
      exact h.bound
    · obtain rfl := Option.some_inj.mp (hrow'.symm.trans hsome)
      rcases hclosed with hq | hq
      · rw [hq] at hp
        cases hp
      · rw [hq] at hp
        cases hp
  · obtain ⟨row₀, hrow₀, hp₀, -, hcount, hlt⟩ := h.inHand i q hin
    obtain rfl := Option.some_inj.mp (hrow.symm.trans hrow₀)
    obtain ⟨-, hzero, -⟩ := h.pending row hrow hp₀
    refine ⟨⟨?_, ?_⟩, fun j _ r _ hj => absurd hj (hno j r), fun j r hj => absurd hj (hno j r),
      fun row' hsome hp => ?_, fun hnone => (habsent hnone).elim⟩
    · rw [hcompared]
      exact h.bound.1
    · omega
    · obtain rfl := Option.some_inj.mp (hrow'.symm.trans hsome)
      rw [hsame hp, hcompared]
      exact ⟨hlt hp, hzero, fun _ => hcount⟩

theorem Sound.commit (h : Sound config id w) (hmax : 1 ≤ config.maxAttempts)
    (hx : w.executions[i]? = some x) {user : Option User} {requests : List UserForgotPassword}
    {created : Option UserForgotPassword} (hstage : x.stage = .commit user requests created)
    (hapart : id ∈ requests.map UserForgotPassword.id → ∀ j q, w.InHand id j q → j = i) :
    Sound config id (w.commit i x user requests created) := by
  have hf := h.fits x (List.mem_of_getElem? hx)
  rw [Execution.Fits, hstage] at hf
  obtain ⟨⟨written, rfl, hwritten, huser⟩, hcreated⟩ := hf
  have hguess {q : UserForgotPassword} (hq : x.Guesses q) : created = none ∧ written = some q := by
    obtain ⟨hcall, hobject, -⟩ := hq
    refine ⟨Option.eq_none_iff_forall_not_mem.mpr fun c hc => (hcreated c hc).1 hcall, ?_⟩
    rw [hstage] at hobject
    cases written with
    | none => exact (Option.some_ne_none _ hobject.symm).elim
    | some q' => exact hobject
  rw [World.commit]
  split
  · next htaken =>
    refine h.goes_without hx trivial (fun q _ hq => ?_) fun q => not_guesses_of_none rfl _ q
    obtain ⟨c, hc, -⟩ := htaken
    rw [(hguess hq).1] at hc
    cases hc
  next hfree =>
  refine ⟨fits_goes h.fits trivial, ?_⟩
  have hnew (j : ℕ) (q : UserForgotPassword) :
      (w.goes i x .committed).InHand id j q ↔ j ≠ i ∧ w.InHand id j q := inHand_ended hx rfl
  -- the request that was read with the right guess is the one that is stored
  have hinHand {q : UserForgotPassword} (hq : x.Guesses q) (hid : q.id = id) : w.InHand id i q :=
    ⟨x, hx, hq, hid⟩
  by_cases hwrites : ∃ row q, w.requests.get? id = some row ∧ written = some q ∧ q.id = id
  · obtain ⟨row, q, hrow, rfl, hid⟩ := hwrites
    have hother : ∀ c ∈ created, c.id ≠ id := fun c hc hcid => by
      refine hfree ⟨c, hc, ?_⟩
      rw [hcid, hrow]
      rfl
    refine h.counted.commit_written (i := i) hrow (get?_stored_written hrow hid hother)
      (fun j r hr => ?_) rfl ?_
    · obtain ⟨hne, hr⟩ := (hnew j r).mp hr
      exact hne (hapart (List.mem_map.mpr ⟨q, List.mem_singleton_self q, hid⟩) j r hr)
    · by_cases hg : x.Guesses q
      · refine .inr ⟨hinHand hg hid, ?_, fun hp => count_changed fun hsome => ?_⟩
        · change (w.changed ++ _).count id ≤ _
          rw [List.count_append]
          refine Nat.add_le_add_left ?_ _
          split
          · exact List.count_le_length
          · exact Nat.zero_le 1
        · obtain ⟨q', hq', -, hconfirmed⟩ := huser hsome
          obtain rfl := Option.some_inj.mp hq'
          rw [hp] at hconfirmed
          cases hconfirmed
      · refine .inl ⟨(hwritten q rfl).resolve_right hg, count_changed fun hsome => ?_⟩
        obtain ⟨q', hq', hg', -⟩ := huser hsome
        obtain rfl := Option.some_inj.mp hq'
        exact absurd hg' hg
  -- nothing is stored of the request, but it may be created
  have hnothing {q : UserForgotPassword} (hq : q ∈ written) (hg : x.Guesses q) : q.id ≠ id := by
    intro hid
    obtain ⟨row, hrow, -⟩ := h.counted.inHand i q (hinHand hg hid)
    exact hwrites ⟨row, q, hrow, hq, hid⟩
  have hchanged : (w.changed ++ if user.isSome then written.toList.map UserForgotPassword.id
      else []).count id = w.changed.count id := by
    refine count_changed fun hsome q hq => ?_
    obtain ⟨q', hq', hg', -⟩ := huser hsome
    obtain rfl := Option.some_inj.mp (Eq.trans hq'.symm hq)
    exact hnothing hq' hg'
  cases hrow : w.requests.get? id with
  | none =>
      refine h.counted.commit_absent hmax hrow (fun c hc => (hcreated c hc).2)
        (get?_stored_absent hrow) (fun j q hq => ((hnew j q).mp hq).2) rfl hchanged
  | some row =>
      have hwritten_ne : ∀ q ∈ written, q.id ≠ id := fun q hq hid => hwrites ⟨row, q, hrow, hq, hid⟩
      have hcreated_ne : ∀ c ∈ created, c.id ≠ id := fun c hc hcid => by
        refine hfree ⟨c, hc, ?_⟩
        rw [hcid, hrow]
        rfl
      refine h.counted.same ((get?_stored_of_ne hcreated_ne).trans (get?_setAll_toList hwritten_ne))
        (fun j q => (hnew j q).trans (and_iff_right_of_imp fun hq => ?_)) rfl hchanged
      rintro rfl
      obtain ⟨y, hy, hg, hid⟩ := hq
      obtain rfl := Option.some_inj.mp (hx.symm.trans hy)
      exact hnothing (hguess hg).2 hg hid

/-! ### Runs -/

theorem Sound.statement (h : Sound config id w) (hmax : 1 ≤ config.maxAttempts)
    (hx : w.executions[i]? = some x) (hapart : Apart config id w (.go i)) :
    Sound config id (w.statement config i x) := by
  obtain ⟨hcompares, hcommit, huser⟩ := hapart x hx
  have hfits := h.fits x (List.mem_of_getElem? hx)
  obtain ⟨call, stage⟩ := x
  cases stage with
  | begun =>
      cases call with
      | update id' code newPassword now => exact h.guess hx hcompares
      | sync id' now => exact h.sync hx
      | createByEmail email id' code pick now =>
          rw [World.statement]
          dsimp only
          split
          · exact h.goes_none hx rfl rfl trivial
          split
          · exact h.goes_none hx rfl rfl trivial
          · exact h.goes_none hx rfl rfl trivial
  | getUser confirmed =>
      cases call with
      | update id' code newPassword now =>
          rw [World.statement]
          dsimp only
          split
          · next hnone =>
            have hne : confirmed.state ≠ .EXPIRED := by
              rw [hfits.2]
              exact fun h => UserForgotPasswordState.noConfusion h
            refine h.goes_without hx trivial (fun q hid hq => ?_) fun q => not_guesses_of_none rfl _ q
            obtain rfl := Option.some_inj.mp hq.2.1
            have hsome := huser confirmed rfl ⟨_, hx, ⟨trivial, rfl, hne⟩, hid⟩
            rw [hnone] at hsome
            cases hsome
          · exact h.goes_object hx rfl hfits
      | sync | createByEmail => exact h
  | updateUser user confirmed =>
      rw [World.statement]
      dsimp only
      split
      · refine h.goes_object hx rfl (.inr ⟨hfits.1, ?_, fun _ => hfits.2⟩)
        rw [hfits.2]
        exact fun h => UserForgotPasswordState.noConfusion h
      · exact h
  | update user request =>
      rw [World.statement]
      dsimp only
      split
      · refine h.goes_object hx rfl ⟨⟨some request, rfl, ?_, ?_⟩, fun _ hc => ?_⟩
        · rintro q hq
          obtain rfl := Option.some_inj.mp hq
          exact hfits.imp (fun hexpired => .inr hexpired.1) fun hg => ⟨hg.1, rfl, hg.2.1⟩
        · intro hsome
          rcases hfits with ⟨-, hnone⟩ | ⟨hcall, hne, hconfirmed⟩
          · rw [hnone] at hsome
            cases hsome
          · exact ⟨request, rfl, ⟨hcall, rfl, hne⟩, hconfirmed hsome⟩
        · exact (Option.some_ne_none _ hc.symm).elim
      · exact h
  | getById user =>
      cases call with
      | createByEmail email id' code pick now =>
          rw [World.statement]
          dsimp only
          split
          · exact h.goes_none hx rfl rfl trivial
          · exact h.goes_none hx rfl rfl trivial
      | update | sync => exact h
  | getByUserAndState user =>
      cases call with
      | createByEmail email id' code pick now =>
          rw [World.statement]
          dsimp only
          split
          · exact h.goes_none hx rfl rfl rfl
          · exact h.goes_none hx rfl rfl fun q hq => (Option.some_ne_none _ hq.symm).elim
      | update | sync => exact h
  | decline user declined =>
      rw [World.statement]
      dsimp only
      split
      · refine h.goes_none hx rfl rfl fun q hq => ?_
        obtain rfl := Option.some_inj.mp hq
        exact hfits
      · exact h
  | create user declined =>
      cases call with
      | createByEmail email id' code pick now =>
          rw [World.statement]
          dsimp only
          split
          · exact h.goes_none hx rfl rfl trivial
          · refine h.goes_without hx ⟨⟨declined, rfl, fun q hq => .inl (.inl (hfits q hq)),
              fun hsome => absurd hsome Bool.false_ne_true⟩, fun c hc => ?_⟩
              (fun q _ => not_guesses_of_none rfl _ q) fun q hq => hq.1
            obtain rfl := Option.some_inj.mp hc
            exact ⟨fun hcall => hcall, rfl, rfl⟩
      | update | sync => exact h
  | commit user requests created =>
      exact h.commit hmax hx rfl hcommit
  | committed => exact h
  | rolledBack exception => exact h

theorem Sound.call (h : Sound config id w) (call : Call) :
    Sound config id { w with executions := w.executions ++ [⟨call, .begun⟩] } where
  fits x hx := by
    rcases List.mem_append.mp hx with hx | hx
    · exact h.fits x hx
    · rw [List.mem_singleton.mp hx]
      trivial
  counted := by
    refine h.counted.same rfl (fun j q => exists_congr fun x => ?_) rfl rfl
    dsimp only
    by_cases hj : j < w.executions.length
    · rw [List.getElem?_append_left hj]
    · rw [List.getElem?_append_right (Nat.not_lt.mp hj)]
      refine iff_of_false ?_ ?_
      · rintro ⟨hx, hq, -⟩
        rw [List.mem_singleton.mp (List.mem_of_getElem? hx)] at hq
        exact not_guesses_of_none rfl call q hq
      · rintro ⟨hx, -⟩
        exact hj (List.getElem?_eq_some_iff.mp hx).1

theorem Sound.step (h : Sound config id w) (hmax : 1 ≤ config.maxAttempts) (l : Step)
    (hapart : Apart config id w l) : Sound config id (step config w l) := by
  cases l with
  | call call => exact h.call call
  | go i =>
      rw [ForgotPassword.step]
      split
      · next x hx => exact h.statement hmax hx hapart
      · exact h
  | abort i =>
      rw [ForgotPassword.step]
      split
      · next x hx =>
        split
        · exact h
        · exact h.goes_without hx trivial (fun q hid hq => hapart q ⟨x, hx, hq, hid⟩)
            fun q => not_guesses_of_none rfl x.call q
      · exact h

/-! ### A closed request -/

/-- Only a commit stores anything. -/
theorem statement_stores (w : World) (config : Config) (i : ℕ) (x : Execution)
    (h : ∀ user requests created, x.stage ≠ .commit user requests created) :
    (w.statement config i x).requests = w.requests ∧
      (w.statement config i x).changed = w.changed := by
  rw [World.statement]
  split
  case h_11 user requests created hstage => exact absurd hstage (h user requests created)
  case h_1 id code newPassword now _ _ =>
    rw [World.guess]
    repeat' split
    all_goals exact ⟨rfl, rfl⟩
  case h_2 id now _ _ =>
    rw [World.sync]
    repeat' split
    all_goals exact ⟨rfl, rfl⟩
  all_goals
    repeat' split
    all_goals exact ⟨rfl, rfl⟩

theorem Counted.not_inHand_of_closed (h : Counted config id w) (hclosed : w.Closed id) (j : ℕ)
    (q : UserForgotPassword) : ¬ w.InHand id j q := by
  intro hq
  obtain ⟨row, hrow, hp, -⟩ := h.inHand j q hq
  obtain ⟨row', hrow', hstate⟩ := hclosed
  obtain rfl := Option.some_inj.mp (hrow.symm.trans hrow')
  rcases hstate with hstate | hstate
  · rw [hp] at hstate
    cases hstate
  · rw [hp] at hstate
    cases hstate

theorem Sound.closed_commit (h : Sound config id w) (hclosed : w.Closed id)
    (hx : w.executions[i]? = some x) {user : Option User} {requests : List UserForgotPassword}
    {created : Option UserForgotPassword} (hstage : x.stage = .commit user requests created) :
    (w.commit i x user requests created).Closed id ∧
      (w.commit i x user requests created).changed.count id = w.changed.count id := by
  have hf := h.fits x (List.mem_of_getElem? hx)
  rw [Execution.Fits, hstage] at hf
  obtain ⟨⟨written, rfl, hwritten, huser⟩, -⟩ := hf
  have hnot (q : UserForgotPassword) (hq : x.Guesses q) : q.id ≠ id := fun hid =>
    h.counted.not_inHand_of_closed hclosed i q ⟨x, hx, hq, hid⟩
  obtain ⟨row, hrow, hstate⟩ := hclosed
  rw [World.commit]
  split
  · exact ⟨⟨row, hrow, hstate⟩, rfl⟩
  next hfree =>
  have hother : ∀ c ∈ created, c.id ≠ id := fun c hc hcid => by
    refine hfree ⟨c, hc, ?_⟩
    rw [hcid, hrow]
    rfl
  refine ⟨?_, count_changed fun hsome q hq => ?_⟩
  · by_cases hw : ∃ q, written = some q ∧ q.id = id
    · obtain ⟨q, rfl, hid⟩ := hw
      refine ⟨q, get?_stored_written hrow hid hother, ?_⟩
      exact (hwritten q rfl).resolve_right fun hg => hnot q hg hid
    · refine ⟨row, (get?_stored_of_ne hother).trans ?_, hstate⟩
      rw [get?_setAll_toList fun q hq hid => hw ⟨q, hq, hid⟩]
      exact hrow
  · obtain ⟨q', hq', hg, -⟩ := huser hsome
    obtain rfl := Option.some_inj.mp (Eq.trans hq'.symm hq)
    exact hnot _ hg

/-- A closed request stays closed, and changes no password. -/
theorem Sound.closed_step (h : Sound config id w) (hclosed : w.Closed id) (l : Step) :
    (ForgotPassword.step config w l).Closed id ∧
      (ForgotPassword.step config w l).changed.count id = w.changed.count id := by
  cases l with
  | call call => exact ⟨hclosed, rfl⟩
  | go i =>
      rw [ForgotPassword.step]
      split
      · next x hx =>
        by_cases hcommit : ∃ user requests created, x.stage = .commit user requests created
        · obtain ⟨user, requests, created, hstage⟩ := hcommit
          have hstatement : w.statement config i x = w.commit i x user requests created := by
            rw [World.statement, hstage]
          rw [hstatement]
          exact h.closed_commit hclosed hx hstage
        · obtain ⟨hrequests, hchanged⟩ := statement_stores w config i x
            fun user requests created hstage => hcommit ⟨user, requests, created, hstage⟩
          rw [World.Closed, hrequests, hchanged]
          exact ⟨hclosed, rfl⟩
      · exact ⟨hclosed, rfl⟩
  | abort i =>
      rw [ForgotPassword.step]
      split
      · split
        · exact ⟨hclosed, rfl⟩
        · exact ⟨hclosed, rfl⟩
      · exact ⟨hclosed, rfl⟩

theorem sound_run (hmax : 1 ≤ config.maxAttempts) (users : Table User) {ls : List Step}
    (h : Along (step config) (Apart config id) (start users) ls) :
    Sound config id (run (step config) (start users) ls) :=
  h.invariant (fun _ l hs hl => hs.step hmax l hl) (sound_start hmax users)

/-- What is closed stays closed in the rest of the run. -/
theorem Sound.closed_run (h : Sound config id w) (hmax : 1 ≤ config.maxAttempts)
    (hclosed : w.Closed id) {ls : List Step}
    (hapart : Along (ForgotPassword.step config) (Apart config id) w ls) :
    (run (ForgotPassword.step config) w ls).Closed id ∧
      (run (ForgotPassword.step config) w ls).changed.count id = w.changed.count id :=
  (hapart.invariant (I := fun w' => Sound config id w' ∧ w'.Closed id ∧
      w'.changed.count id = w.changed.count id)
    (fun w' l ⟨hs, hc, hcount⟩ hl => by
      obtain ⟨hc', hcount'⟩ := hs.closed_step hc l
      exact ⟨hs.step hmax l hl, hc', hcount'.trans hcount⟩) ⟨h, hclosed, rfl⟩).2

/-- In a run in which the executions leave each other's guesses alone, a code is guessed
`maxAttempts` times at most and used once at most, and a closed request stays closed. -/
theorem guarded_of_apart (config : Config) (users : Table User) (ls : List Step) (id : Uuid)
    (hmax : 1 ≤ config.maxAttempts)
    (h : Along (step config) (Apart config id) (start users) ls) : Safe config users ls id := by
  constructor
  · rintro ms ⟨ms', rfl⟩
    exact (sound_run hmax users (along_append.mp h).1).counted.bound
  · rintro ms ms' ⟨rest, rfl⟩ hclosed
    obtain ⟨hms, hms'⟩ := along_append.mp (along_append.mp h).1
    rw [run_append]
    exact (sound_run hmax users hms).closed_run hmax hclosed hms'

namespace Sample

def limits : Config := ⟨3, 600, 600⟩

def users : Table User := ⟨[⟨1, "a@b.c", some "5511", "old"⟩], by decide⟩

/-- Request 9, whose code is 12345. -/
def created : List Step :=
  .call (.createByEmail "a@b.c" 9 "12345" 0 0) :: List.replicate 5 (.go 0)

/-- Execution `i` guesses alone. -/
def guessAlone (i : ℕ) (code : String) : List Step :=
  .call (.update 9 code "new" 1000) :: List.replicate 5 (.go i)

/-- Three wrong guesses and the right one, all compared before one of them is stored. -/
def guessTogether : List Step :=
  created ++ ["00000", "00001", "00002", "12345"].map (fun code => .call (.update 9 code "new" 1000))
    ++ [.go 1, .go 2, .go 3, .go 4]

end Sample

open Sample in
theorem guarded_oneByOne :
    Safe limits users (created ++ guessAlone 1 "00000" ++ guessAlone 2 "12345") 9 :=
  guarded_of_apart limits users _ 9 (by decide) (by decide +kernel)

open Sample in
example : (run (step limits) (start users)
    (created ++ guessAlone 1 "00000" ++ guessAlone 2 "12345")).changed = [9] := by decide +kernel

open Sample in
theorem not_safe : ¬ Safe limits users guessTogether 9 := by
  rintro ⟨hguarded, -⟩
  have hmany : ¬ ((run (step limits) (start users) guessTogether).compared.count 9 : ℤ) ≤
      limits.maxAttempts := by decide +kernel
  exact hmany (hguarded guessTogether (List.prefix_refl _)).1

end ZroServices.Users.ForgotPassword
