import ZroServices.Foundation.Run

/-!
# Common — replay protection

`ReplayGuard` lets one of several identical requests through: under a mutex of the request's key
it looks the key up in the cache, throws when there is an entry, and stores one otherwise.
`ReplayInterceptor` removes the entry when the handler of a request that was let through fails.

A request is identical to another when both give the same key (`hashKey`).  Each request takes one
redis command at a time, and the requests interleave as they like (`step`).  The mutex is a redis
set-if-absent, and entries do not expire while the requests run.

`admits_once`: in every state that is reached, each request of a key that reached the handler has
failed but one, none that is about to reach it finds one that has not failed, and the key is free
again when a request has failed.
-/

namespace ZroServices.ReplayGuard

open Foundation

/-! ### The key of a request -/

/-- An object of strings, as it was sent. -/
abbrev Fields := List (String × String)

/-- The value of a field, unless it is missing or empty. -/
def Fields.truthy (o : Fields) (name : String) : Option String :=
  (o.lookup name).filter (· ≠ "")

def Fields.delete (o : Fields) (name : String) : Fields := o.filter (·.1 ≠ name)

structure User where
  uuid : Option String
  id : Option String
  phoneNumber : Option String
  deriving DecidableEq, Repr

structure HttpRequest where
  /-- Given to each request by `RequestIdMiddleware`. -/
  id : String
  id_ne : id ≠ ""
  method : String
  path : String
  params : Fields
  query : Fields
  body : String
  headers : Fields
  user : User

/-- What identical requests have in common. -/
structure ReplayPayload where
  method : String
  params : Fields
  path : String
  query : Fields
  body : String
  userId : Option String
  transactionId : Option String
  nonce : Option String
  deriving DecidableEq, Repr

/-- A header that is missing is taken from the query. -/
def fromQuery (name : String) (headers query : Fields) : Fields × Fields :=
  match headers.truthy name, query.truthy name with
  | none, some value => ((name, value) :: headers.delete name, query.delete name)
  | _, _ => (headers, query)

/-- `path.includes`. -/
def includes (path part : String) : Bool :=
  (path.toList.tails.any fun rest => part.toList.isPrefixOf rest)

/-- What the guard hashes; a transaction id goes before the nonce. -/
def payload (useNonce : Bool) (req : HttpRequest) : ReplayPayload :=
  let (headers, query) := fromQuery "x-transaction-uuid" req.headers req.query
  let (headers, query) := fromQuery "nonce" headers query
  let transactionId := (headers.truthy "transaction_uuid").or (headers.truthy "x-transaction-uuid")
  let transfer := transactionId.isSome && includes req.path "p2p-transfers"
  { method := req.method
    params := req.params
    path := req.path
    query := query
    body := req.body
    userId := req.user.uuid.or (req.user.id.or req.user.phoneNumber)
    transactionId := if transfer then transactionId else none
    nonce := if !transfer && useNonce then headers.truthy "nonce" else none }

/-- The requests, and the digest that keys are made with. -/
structure Config (ι : Type) where
  useNonce : Bool
  digest : ReplayPayload → String
  request : ι → HttpRequest

variable {ι : Type}

def hashKey (cfg : Config ι) (i : ι) : String :=
  "replay-guard-" ++ cfg.digest (payload cfg.useNonce (cfg.request i))

/-! ### Steps -/

/-- Where a request is, by the command that it takes next. -/
inductive Stage where
  /-- At `mutex.acquire`. -/
  | arrived
  /-- Holds the mutex, at `cache.get`. -/
  | acquired
  /-- Found no entry, at `cache.set`. -/
  | missed
  /-- Stored its entry, at `mutex.release`. -/
  | stored
  /-- Found an entry, at `mutex.release`. -/
  | replayed
  /-- Passed the guard. -/
  | admitted
  /-- In the handler. -/
  | handling
  | succeeded
  /-- The handler failed; at `cache.del`. -/
  | failing
  | failed
  /-- Did not pass the guard. -/
  | refused
  /-- Passed the guard, and was refused by another before the handler. -/
  | rejected
  deriving DecidableEq, Repr

structure State (ι : Type) where
  cache : String → Option String
  mutex : String → Option ι
  stage : ι → Stage

inductive Command (ι : Type) where
  /-- Set the mutex if it is absent. -/
  | acquire (i : ι)
  /-- The mutex was not acquired in time. -/
  | timeOut (i : ι)
  | get (i : ι)
  | set (i : ι)
  | release (i : ι)
  | reject (i : ι)
  /-- The request reaches the handler. -/
  | handle (i : ι)
  | succeed (i : ι)
  | fail (i : ι)
  | del (i : ι)

variable [DecidableEq ι]

/-- The request goes on to a stage. -/
def State.move (s : State ι) (i : ι) (stage : Stage) : State ι :=
  { s with stage := Function.update s.stage i stage }

/-- The mutex of the request is released, if it holds it. -/
def State.unlock (cfg : Config ι) (s : State ι) (i : ι) : State ι :=
  if s.mutex (hashKey cfg i) = some i then
    { s with mutex := Function.update s.mutex (hashKey cfg i) none }
  else s

/-- One command of one request; a command that is not the request's next does nothing. -/
def step (cfg : Config ι) (s : State ι) : Command ι → State ι
  | .acquire i =>
      if s.stage i = .arrived ∧ s.mutex (hashKey cfg i) = none then
        { s.move i .acquired with mutex := Function.update s.mutex (hashKey cfg i) (some i) }
      else s
  | .timeOut i => if s.stage i = .arrived then s.move i .refused else s
  | .get i =>
      if s.stage i = .acquired then
        match (s.cache (hashKey cfg i)).filter (· ≠ "") with
        | some _ => s.move i .replayed
        | none => s.move i .missed
      else s
  | .set i =>
      if s.stage i = .missed then
        { s.move i .stored with
          cache := Function.update s.cache (hashKey cfg i) (some (cfg.request i).id) }
      else s
  | .release i =>
      match s.stage i with
      | .stored => (s.unlock cfg i).move i .admitted
      | .replayed => (s.unlock cfg i).move i .refused
      | _ => s
  | .reject i => if s.stage i = .admitted then s.move i .rejected else s
  | .handle i => if s.stage i = .admitted then s.move i .handling else s
  | .succeed i => if s.stage i = .handling then s.move i .succeeded else s
  | .fail i => if s.stage i = .handling then s.move i .failing else s
  | .del i =>
      if s.stage i = .failing then
        { s.move i .failed with cache := Function.update s.cache (hashKey cfg i) none }
      else s

/-- Before the first request. -/
def initial : State ι := ⟨fun _ => none, fun _ => none, fun _ => .arrived⟩

/-! ### What is guaranteed -/

/-- The request reached the handler. -/
@[simp] def Stage.Reached (stage : Stage) : Prop :=
  stage = .handling ∨ stage = .succeeded ∨ stage = .failing ∨ stage = .failed

/-- The entry under the key is the request's. -/
@[simp] def Stage.Holds (stage : Stage) : Prop :=
  stage = .stored ∨ stage = .admitted ∨ stage = .rejected ∨ stage = .handling ∨
    stage = .succeeded ∨ stage = .failing

/-- The request is between the mutex's acquisition and its release. -/
@[simp] def Stage.InSection (stage : Stage) : Prop :=
  stage = .acquired ∨ stage = .missed ∨ stage = .stored ∨ stage = .replayed

/-- A key admits one request, until that one fails. -/
structure AdmitsOnce (cfg : Config ι) (s : State ι) : Prop where
  /-- Of two requests that reached the handler one has failed. -/
  once : ∀ i j, i ≠ j → hashKey cfg i = hashKey cfg j → (s.stage i).Reached →
    (s.stage j).Reached → s.stage i = .failed ∨ s.stage j = .failed
  /-- A request is let through after those that reached the handler before it have failed. -/
  earlier : ∀ i j, i ≠ j → hashKey cfg i = hashKey cfg j → (s.stage i).Reached →
    s.stage j = .admitted → s.stage i = .failed
  /-- A request whose handler failed removes its own entry. -/
  frees : ∀ i, s.stage i = .failing → s.cache (hashKey cfg i) = some (cfg.request i).id ∧
    (step cfg s (.del i)).stage i = .failed ∧ (step cfg s (.del i)).cache (hashKey cfg i) = none
  /-- The key is free until another request is let through. -/
  free : ∀ k, (∀ i, hashKey cfg i = k → ¬ (s.stage i).Holds) → s.cache k = none
  /-- A request that finds the key free, and no other in the guard, reaches the handler. -/
  retry : ∀ i, s.stage i = .arrived → s.mutex (hashKey cfg i) = none →
    s.cache (hashKey cfg i) = none →
    (run (step cfg) s [.acquire i, .get i, .set i, .release i, .handle i]).stage i = .handling

/-! ### The mutex -/

variable {cfg : Config ι} {cache : String → Option String} {mutex : String → Option ι}
  {stages : ι → Stage} {s : State ι} {i j : ι} {stage : Stage}

/-- The mutex of a key is held by the request of that key that is between its acquisition and its
release. -/
def Exclusive (cfg : Config ι) (mutex : String → Option ι) (stages : ι → Stage) : Prop :=
  ∀ i k, mutex k = some i ↔ (stages i).InSection ∧ hashKey cfg i = k

omit [DecidableEq ι] in
theorem Exclusive.eq (h : Exclusive cfg mutex stages) (hi : (stages i).InSection)
    (hj : (stages j).InSection) (hkey : hashKey cfg i = hashKey cfg j) : i = j := by
  have hmi := (h i (hashKey cfg j)).mpr ⟨hi, hkey⟩
  rw [(h j (hashKey cfg j)).mpr ⟨hj, rfl⟩] at hmi
  exact (Option.some.inj hmi).symm

theorem Exclusive.keep (h : Exclusive cfg mutex stages)
    (hsection : stage.InSection ↔ (stages i).InSection) :
    Exclusive cfg mutex (Function.update stages i stage) := by
  intro j k
  refine (h j k).trans (and_congr_left fun _ => ?_)
  by_cases hj : j = i
  · rw [hj, Function.update_self, hsection]
  · rw [Function.update_of_ne hj]

theorem Exclusive.enter (h : Exclusive cfg mutex stages) (hfree : mutex (hashKey cfg i) = none)
    (hsection : stage.InSection) :
    Exclusive cfg (Function.update mutex (hashKey cfg i) (some i))
      (Function.update stages i stage) := by
  intro j k
  by_cases hj : j = i
  · subst hj
    rw [Function.update_self]
    by_cases hk : k = hashKey cfg j
    · rw [hk, Function.update_self]
      exact iff_of_true rfl ⟨hsection, rfl⟩
    · rw [Function.update_of_ne hk, h j k]
      -- the request was not between acquisition and release before
      refine iff_of_false (fun hin => hk hin.2.symm) fun hin => hk hin.2.symm
  · rw [Function.update_of_ne hj]
    by_cases hk : k = hashKey cfg i
    · rw [hk, Function.update_self]
      refine iff_of_false (fun e => hj (Option.some.inj e).symm) fun hin => ?_
      rw [(h j (hashKey cfg i)).mpr hin] at hfree
      cases hfree
    · rw [Function.update_of_ne hk, h j k]

theorem Exclusive.leave (h : Exclusive cfg mutex stages) (hin : (stages i).InSection)
    (hsection : ¬ stage.InSection) :
    Exclusive cfg (Function.update mutex (hashKey cfg i) none)
      (Function.update stages i stage) := by
  intro j k
  by_cases hj : j = i
  · subst hj
    rw [Function.update_self]
    refine iff_of_false (fun e => ?_) fun hin => hsection hin.1
    by_cases hk : k = hashKey cfg j
    · rw [hk, Function.update_self] at e
      cases e
    · rw [Function.update_of_ne hk] at e
      exact hk ((h j k).mp e).2.symm
  · rw [Function.update_of_ne hj]
    by_cases hk : k = hashKey cfg i
    · rw [hk, Function.update_self]
      exact iff_of_false (fun e => by cases e) fun hjn => hj (h.eq hjn.1 hin hjn.2)
    · rw [Function.update_of_ne hk, h j k]

/-! ### The entries -/

/-- An entry is that of the one request of its key that holds it. -/
structure Entries (cfg : Config ι) (cache : String → Option String) (stages : ι → Stage) :
    Prop where
  entry : ∀ i, (stages i).Holds → cache (hashKey cfg i) = some (cfg.request i).id
  free : ∀ k, (∀ i, hashKey cfg i = k → ¬ (stages i).Holds) → cache k = none
  eq : ∀ i j, hashKey cfg i = hashKey cfg j → (stages i).Holds → (stages j).Holds → i = j
  missed : ∀ i, stages i = .missed → cache (hashKey cfg i) = none

theorem Entries.keep (h : Entries cfg cache stages) (hholds : stage.Holds ↔ (stages i).Holds)
    (hmissed : stage = .missed → cache (hashKey cfg i) = none) :
    Entries cfg cache (Function.update stages i stage) := by
  have hsame : ∀ j, (Function.update stages i stage j).Holds ↔ (stages j).Holds := by
    intro j
    by_cases hj : j = i
    · rw [hj, Function.update_self, hholds]
    · rw [Function.update_of_ne hj]
  refine ⟨fun j hj => h.entry j ((hsame j).mp hj),
    fun k hk => h.free k fun j hj hh => hk j hj ((hsame j).mpr hh),
    fun j l hkey hj hl => h.eq j l hkey ((hsame j).mp hj) ((hsame l).mp hl), fun j hj => ?_⟩
  by_cases hji : j = i
  · rw [hji, Function.update_self] at hj
    rw [hji]
    exact hmissed hj
  · rw [Function.update_of_ne hji] at hj
    exact h.missed j hj

/-- A free key is taken by a request while no other is about to take it. -/
theorem Entries.store (h : Entries cfg cache stages) (hfree : cache (hashKey cfg i) = none)
    (hothers : ∀ j, hashKey cfg j = hashKey cfg i → stages j = .missed → j = i)
    (hholds : stage.Holds) :
    Entries cfg (Function.update cache (hashKey cfg i) (some (cfg.request i).id))
      (Function.update stages i stage) := by
  have hnone : ∀ j, hashKey cfg j = hashKey cfg i → ¬ (stages j).Holds := by
    intro j hkey hj
    rw [← hkey, h.entry j hj] at hfree
    cases hfree
  have hself : ∀ j, hashKey cfg j = hashKey cfg i →
      (Function.update stages i stage j).Holds → j = i := by
    intro j hkey hj
    by_contra hne
    rw [Function.update_of_ne hne] at hj
    exact hnone j hkey hj
  refine ⟨fun j hj => ?_, fun k hk => ?_, fun j l hkey hj hl => ?_, fun j hj => ?_⟩
  · by_cases hkey : hashKey cfg j = hashKey cfg i
    · rw [hself j hkey hj, Function.update_self]
    · have hne : j ≠ i := fun e => hkey (e ▸ rfl)
      rw [Function.update_of_ne hne] at hj
      rw [Function.update_of_ne hkey]
      exact h.entry j hj
  · have hki : k ≠ hashKey cfg i := by
      rintro rfl
      exact hk i rfl (by rw [Function.update_self]; exact hholds)
    rw [Function.update_of_ne hki]
    refine h.free k fun j hj hh => hk j hj ?_
    rwa [Function.update_of_ne fun e : j = i => hki (e ▸ hj.symm)]
  · by_cases hkl : hashKey cfg l = hashKey cfg i
    · exact (hself j (hkey.trans hkl) hj).trans (hself l hkl hl).symm
    · have hl' : l ≠ i := fun e => hkl (e ▸ rfl)
      have hj' : j ≠ i := fun e => hkl (hkey.symm.trans (e ▸ rfl))
      rw [Function.update_of_ne hj'] at hj
      rw [Function.update_of_ne hl'] at hl
      exact h.eq j l hkey hj hl
  · by_cases hji : j = i
    · rw [hji, Function.update_self] at hj
      rw [hj] at hholds
      simp at hholds
    · rw [Function.update_of_ne hji] at hj
      rw [Function.update_of_ne fun hkey => hji (hothers j hkey hj)]
      exact h.missed j hj

/-- The request that holds a key frees it. -/
theorem Entries.remove (h : Entries cfg cache stages) (hi : (stages i).Holds)
    (hholds : ¬ stage.Holds) :
    Entries cfg (Function.update cache (hashKey cfg i) none) (Function.update stages i stage) := by
  have hbefore : ∀ j, (Function.update stages i stage j).Holds → j ≠ i ∧ (stages j).Holds := by
    intro j hj
    have hji : j ≠ i := by
      rintro rfl
      rw [Function.update_self] at hj
      exact hholds hj
    rw [Function.update_of_ne hji] at hj
    exact ⟨hji, hj⟩
  refine ⟨fun j hj => ?_, fun k hk => ?_, fun j l hkey hj hl =>
    h.eq j l hkey (hbefore j hj).2 (hbefore l hl).2, fun j hj => ?_⟩
  · obtain ⟨hji, hj⟩ := hbefore j hj
    rw [Function.update_of_ne fun hkey => hji (h.eq j i hkey hj hi)]
    exact h.entry j hj
  · by_cases hki : k = hashKey cfg i
    · rw [hki, Function.update_self]
    · rw [Function.update_of_ne hki]
      refine h.free k fun j hj hh => hk j hj ?_
      rwa [Function.update_of_ne fun e : j = i => hki (e ▸ hj.symm)]
  · by_cases hkey : hashKey cfg j = hashKey cfg i
    · rw [hkey, Function.update_self]
    · rw [Function.update_of_ne hkey]
      have hji : j ≠ i := fun e => hkey (e ▸ rfl)
      rw [Function.update_of_ne hji] at hj
      exact h.missed j hj

/-! ### Runs -/

structure Inv (cfg : Config ι) (s : State ι) : Prop where
  exclusive : Exclusive cfg s.mutex s.stage
  entries : Entries cfg s.cache s.stage

/-- A step that takes or gives neither the mutex nor the entry. -/
theorem Inv.move {old : Stage} (h : Inv cfg s) (hi : s.stage i = old)
    (hsection : stage.InSection ↔ old.InSection) (hholds : stage.Holds ↔ old.Holds)
    (hmissed : stage = .missed → s.cache (hashKey cfg i) = none) : Inv cfg (s.move i stage) := by
  subst hi
  exact ⟨h.exclusive.keep hsection, h.entries.keep hholds hmissed⟩

/-- A step that releases the mutex. -/
theorem Inv.unlock {old : Stage} (h : Inv cfg s) (hi : s.stage i = old) (hin : old.InSection)
    (hsection : ¬ stage.InSection) (hholds : stage.Holds ↔ old.Holds) (hmissed : stage ≠ .missed) :
    Inv cfg ((s.unlock cfg i).move i stage) := by
  subst hi
  rw [State.unlock, if_pos ((h.exclusive i _).mpr ⟨hin, rfl⟩)]
  exact ⟨h.exclusive.leave hin hsection, h.entries.keep hholds fun e => absurd e hmissed⟩

omit [DecidableEq ι] in
theorem inv_initial (cfg : Config ι) : Inv cfg initial := by
  have hsection : ¬ Stage.arrived.InSection := by simp
  have hholds : ¬ Stage.arrived.Holds := by simp
  refine ⟨fun i k => ?_, fun i hi => ?_, fun _ _ => rfl, fun i _ _ hi => ?_, fun i hi => ?_⟩
  · exact iff_of_false (fun e => by cases e) fun hin => hsection hin.1
  · exact absurd hi hholds
  · exact absurd hi hholds
  · cases hi

theorem Inv.step (h : Inv cfg s) (c : Command ι) : Inv cfg (step cfg s c) := by
  cases c with
  | acquire i =>
      rw [ReplayGuard.step]
      split
      · rename_i hi
        exact ⟨h.exclusive.enter hi.2 (by simp), h.entries.keep (by simp [hi.1]) (by simp)⟩
      · exact h
  | timeOut i =>
      rw [ReplayGuard.step]
      split
      · rename_i hi
        exact h.move hi (by simp) (by simp) (by simp)
      · exact h
  | get i =>
      rw [ReplayGuard.step]
      split
      · rename_i hi
        split
        · exact h.move hi (by simp) (by simp) (by simp)
        · rename_i hnone
          refine h.move hi (by simp) (by simp) fun _ => ?_
          -- an entry is the id of a request, and no id is empty
          by_contra hsome
          have hheld : ∃ j, hashKey cfg j = hashKey cfg i ∧ (s.stage j).Holds := by
            by_contra hno
            push Not at hno
            exact hsome (h.entries.free _ hno)
          obtain ⟨j, hkey, hj⟩ := hheld
          rw [← hkey, h.entries.entry j hj, Option.filter_some_pos] at hnone
          · cases hnone
          · simpa using (cfg.request j).id_ne
      · exact h
  | set i =>
      rw [ReplayGuard.step]
      split
      · rename_i hi
        refine ⟨h.exclusive.keep (by simp [hi]),
          h.entries.store (h.entries.missed i hi) (fun j hkey hj => ?_) (by simp)⟩
        exact h.exclusive.eq (by simp [hj]) (by simp [hi]) hkey
      · exact h
  | release i =>
      rw [ReplayGuard.step]
      split
      · rename_i hi
        exact h.unlock hi (by simp) (by simp) (by simp) (by simp)
      · rename_i hi
        exact h.unlock hi (by simp) (by simp) (by simp) (by simp)
      · exact h
  | reject i =>
      rw [ReplayGuard.step]
      split
      · rename_i hi
        exact h.move hi (by simp) (by simp) (by simp)
      · exact h
  | handle i =>
      rw [ReplayGuard.step]
      split
      · rename_i hi
        exact h.move hi (by simp) (by simp) (by simp)
      · exact h
  | succeed i =>
      rw [ReplayGuard.step]
      split
      · rename_i hi
        exact h.move hi (by simp) (by simp) (by simp)
      · exact h
  | fail i =>
      rw [ReplayGuard.step]
      split
      · rename_i hi
        exact h.move hi (by simp) (by simp) (by simp)
      · exact h
  | del i =>
      rw [ReplayGuard.step]
      split
      · rename_i hi
        exact ⟨h.exclusive.keep (by simp [hi]), h.entries.remove (by simp [hi]) (by simp)⟩
      · exact h

/-- A request that reached the handler and has not failed holds its key. -/
theorem Stage.Reached.holds (h : stage.Reached) : stage = .failed ∨ stage.Holds := by
  rcases h with rfl | rfl | rfl | rfl <;> simp

theorem Inv.admitsOnce (h : Inv cfg s) : AdmitsOnce cfg s := by
  have held : ∀ i j, i ≠ j → hashKey cfg i = hashKey cfg j → (s.stage j).Holds →
      (s.stage i).Reached → s.stage i = .failed := by
    intro i j hne hkey hj hi
    rcases hi.holds with hfailed | hi
    · exact hfailed
    · exact absurd (h.entries.eq i j hkey hi hj) hne
  refine ⟨fun i j hne hkey hi hj => ?_, fun i j hne hkey hi hj => ?_, fun i hi => ?_,
    h.entries.free, fun i hi hmutex hcache => ?_⟩
  · rcases hj.holds with hfailed | hj
    · exact .inr hfailed
    · exact .inl (held i j hne hkey hj hi)
  · exact held i j hne hkey (by simp [hj]) hi
  · refine ⟨h.entries.entry i (by simp [hi]), ?_⟩
    rw [ReplayGuard.step, if_pos hi]
    exact ⟨Function.update_self .., Function.update_self ..⟩
  · simp [ReplayGuard.step, State.move, State.unlock, hi, hmutex, hcache]

/-- **The replay guard admits a request once**, for any requests and any order of their steps. -/
theorem admits_once (cfg : Config ι) (cs : List (Command ι)) :
    AdmitsOnce cfg (run (step cfg) initial cs) :=
  (run_invariant (I := Inv cfg) (fun _ c h => h.step c) (inv_initial cfg) cs).admitsOnce

end ZroServices.ReplayGuard
