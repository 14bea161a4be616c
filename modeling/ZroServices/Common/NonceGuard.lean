import ZroServices.Common.ReplayGuard

/-!
# Common — nonces

`NonceGuard` lets a nonce through once: under a mutex of the nonce it looks the nonce up in the
cache, throws when it is there, and stores it otherwise.  A request without a nonce passes.  The
entries outlive the requests, which interleave as those of `ReplayGuard` do.
-/

namespace ZroServices.NonceGuard

open Foundation ReplayGuard

structure Config (ι : Type) where
  nonceTtl : ℕ
  isUUID : String → Bool
  headers : ι → Fields

inductive Command (ι : Type) where
  /-- Up to `semaphore`. -/
  | canActivate (i : ι)
  | acquire (i : ι)
  | timeOut (i : ι)
  | get (i : ι)
  | set (i : ι)
  | release (i : ι)

variable {ι : Type} [DecidableEq ι] (cfg : Config ι) (s : State ι) (i : ι)

def nonce : Option String := (cfg.headers i).truthy "nonce"

def hashKey : String := "nonce-" ++ (nonce cfg i).getD ""

/-- Whether the request goes on to `semaphore`. -/
def Locks : Prop := cfg.nonceTtl ≠ 0 ∧ (nonce cfg i).any cfg.isUUID

instance : Decidable (Locks cfg i) := inferInstanceAs (Decidable (_ ∧ _))

/-- One command of one request; a command that is not the request's next does nothing. -/
def step : Command ι → State ι
  | .canActivate i =>
      if s.stage i = .arrived ∧ ¬ Locks cfg i then
        s.move i (if cfg.nonceTtl = 0 ∨ nonce cfg i = none then .admitted else .refused)
      else s
  | .acquire i =>
      if s.stage i = .arrived ∧ Locks cfg i ∧ s.mutex (hashKey cfg i) = none then
        { s.move i .acquired with mutex := Function.update s.mutex (hashKey cfg i) (some i) }
      else s
  | .timeOut i => if s.stage i = .arrived ∧ Locks cfg i then s.move i .refused else s
  | .get i =>
      if s.stage i = .acquired then
        s.move i (if (s.cache (hashKey cfg i)).any (· ≠ "") then .replayed else .missed)
      else s
  | .set i =>
      if s.stage i = .missed then
        { s.move i .stored with cache := Function.update s.cache (hashKey cfg i) (nonce cfg i) }
      else s
  | .release i =>
      if s.stage i = .stored ∨ s.stage i = .replayed then
        { s.move i (if s.stage i = .stored then .admitted else .refused) with
          mutex := if s.mutex (hashKey cfg i) = some i then
            Function.update s.mutex (hashKey cfg i) none else s.mutex }
      else s

/-- The nonce under the key is the request's. -/
def Holds : Prop :=
  Locks cfg i ∧ (s.stage i = .stored ∨ s.stage i = .admitted)

/-- A nonce passes once, and is refused only where it has passed or is about to. -/
structure Once : Prop where
  once : ∀ i j, hashKey cfg i = hashKey cfg j → Holds cfg s i → Holds cfg s j → i = j
  replayed : ∀ i, s.stage i = .replayed → ∃ j, hashKey cfg j = hashKey cfg i ∧ Holds cfg s j

structure PassesOnce : Prop extends Once cfg s where
  /-- A request that finds its nonce free, and no other in the guard, passes. -/
  fresh : ∀ i, s.stage i = .arrived → Locks cfg i → s.mutex (hashKey cfg i) = none →
    s.cache (hashKey cfg i) = none →
    (run (step cfg) s [.acquire i, .get i, .set i, .release i]).stage i = .admitted

structure Inv : Prop extends Once cfg s where
  locked : ∀ i, (s.stage i).InSection → Locks cfg i ∧ s.mutex (hashKey cfg i) = some i
  entry : ∀ i, (s.cache (hashKey cfg i)).any (· ≠ "") ↔
    ∃ j, hashKey cfg j = hashKey cfg i ∧ Holds cfg s j
  missed : ∀ i, s.stage i = .missed → ¬ (s.cache (hashKey cfg i)).any (· ≠ "")

variable {cfg s}

omit [DecidableEq ι] in
theorem Locks.nonce_ne (h : Locks cfg i) : (nonce cfg i).any (· ≠ "") := by
  obtain ⟨nonce, hnonce, -⟩ := (Option.any_eq_true ..).mp h.2
  rw [hnonce]
  exact (Option.filter_eq_some_iff.mp hnonce).2

/-- A request goes on without storing its nonce. -/
theorem Inv.move {stage : Stage} {mutex : String → Option ι} (h : Inv cfg s)
    (hlocked : ∀ j, (Function.update s.stage i stage j).InSection →
      Locks cfg j ∧ mutex (hashKey cfg j) = some j)
    (hholds : Locks cfg i →
      (stage = .stored ∨ stage = .admitted ↔ s.stage i = .stored ∨ s.stage i = .admitted))
    (hreplayed : stage = .replayed → (s.cache (hashKey cfg i)).any (· ≠ ""))
    (hmissed : stage = .missed → ¬ (s.cache (hashKey cfg i)).any (· ≠ "")) :
    Inv cfg ⟨s.cache, mutex, Function.update s.stage i stage⟩ := by
  have hsame : Holds cfg s = Holds cfg ⟨s.cache, mutex, Function.update s.stage i stage⟩ := by
    funext j
    simp only [Holds]
    grind
  obtain ⟨⟨once, replayed⟩, locked, entry, missed⟩ := h
  rw [hsame] at *
  refine ⟨⟨once, fun j hj => ?_⟩, hlocked, entry, fun j hj => ?_⟩ <;>
    simp only [Function.update_apply] at hj <;> split_ifs at hj with hji
  · exact hji ▸ (entry i).mp (hreplayed hj)
  · exact replayed j hj
  · exact hji ▸ hmissed hj
  · exact missed j hj

theorem Inv.step (h : Inv cfg s) (l : Command ι) : Inv cfg (step cfg s l) := by
  obtain ⟨⟨once, replayed⟩, locked, entry, missed⟩ := id h
  cases l with
  | canActivate i | acquire i | timeOut i | get i | release i =>
      rw [NonceGuard.step]
      split_ifs <;> first
        | exact h
        | apply h.move i <;> simp only [Stage.InSection] at * <;> grind
  | set i =>
      have hnonce : Locks cfg i → _ := Locks.nonce_ne i
      rw [NonceGuard.step]
      split
      next =>
        -- the mutex keeps another request of the key from storing it between `get` and `set`
        refine ⟨⟨?_, ?_⟩, ?_, ?_, ?_⟩ <;>
          simp only [State.move, Stage.InSection, Holds] at * <;> grind
      next => exact h

/-- **A nonce passes once**, however the requests interleave. -/
theorem passes_once (cfg : Config ι) (ls : List (Command ι)) :
    PassesOnce cfg (run (NonceGuard.step cfg) initial ls) :=
  { toOnce := (run_invariant (I := Inv cfg) (fun _ l h => h.step l)
      (by refine ⟨⟨?_, ?_⟩, ?_, ?_, ?_⟩ <;> simp [initial, Holds]) ls).toOnce
    fresh i hi hlocks hmutex hcache := by
      simp [NonceGuard.step, State.move, hi, hlocks, hmutex, hcache] }

end ZroServices.NonceGuard
