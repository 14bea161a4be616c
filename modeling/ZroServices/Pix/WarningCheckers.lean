import ZroServices.Foundation.Run
import ZroServices.Pix.Domain

/-!
# PIX — the warning checkers of a deposit

A received deposit waits in redis, and seven checkers look at it, each for an event of its own.  A
checker records its result in the deposit under a mutex; then it reads the deposit again, and when
there are seven results it fires the waiting event.  The handler of that event takes no mutex: it
credits the deposit when the results are all true.

The model is of one deposit, whose account is not in the skip list and whose entry in redis lives
throughout.  An execution goes on from one call to the next, and the others go on in between; the
checker that has the mutex is `inside`.  The duplicate checker looks for a deposit with the same
fingerprint, and keeps the fingerprint of this one: other deposits may keep the same one, and it is
forgotten after a day.

`run_checked`: as long as the duplicate checker, when it looks again, finds what it recorded, no
result changes, a deposit that is credited has seven results that are true, and the waiting event is
fired when every checker has run.
-/

namespace ZroServices.Pix.WarningCheckers

open Foundation

/-- The use cases `HandleWarningPixDeposit…EventUseCase`. -/
inductive Checker where
  | IsCef
  | IsDuplicated
  | IsOverWarningIncome
  | IsReceitaFederal
  | IsSantanderCnpj
  | IsSuspectBank
  | IsSuspectCpf
  deriving DecidableEq, Repr

/-- The classes with `@WarningDepositCheck`. -/
def checkers : List Checker :=
  [.IsCef, .IsDuplicated, .IsOverWarningIncome, .IsReceitaFederal, .IsSantanderCnpj, .IsSuspectBank,
    .IsSuspectCpf]

theorem mem_checkers (c : Checker) : c ∈ checkers := by
  cases c <;> decide

/-- What of the deposit does not change. -/
structure Deposit where
  user : Uuid
  amount : ℕ
  thirdPartIspb : Ispb
  thirdPartDocument : String

structure Config where
  pixPaymentCEFIspb : Ispb
  pixPaymentSantanderIspb : Ispb
  pixPaymentReceitaFederalCnpj : String
  warningPixDepositSantanderCnpj : String
  warningPixDepositMinAmount : ℕ
  warningPixDepositMaxOccupationIncome : ℕ
  warningPixDepositMinAmountToWarningIncome : ℕ
  isCnpj : String → Bool

/-- The users and the block lists. -/
structure Lists where
  /-- The occupation income in the onboarding of a user. -/
  onboarding : Uuid → Option ℕ
  blockedCpfs : List String
  blockedBanks : List String

/-- What a checker other than the duplicate checker says, or that it throws. -/
def verdict (config : Config) (lists : Lists) (deposit : Deposit) : Checker → Option Bool
  | .IsCef => some !(config.warningPixDepositMinAmount < deposit.amount &&
      deposit.thirdPartIspb == config.pixPaymentCEFIspb)
  | .IsDuplicated => some true
  | .IsOverWarningIncome => (lists.onboarding deposit.user).map fun occupationIncome =>
      !(occupationIncome ≤ config.warningPixDepositMaxOccupationIncome &&
        config.warningPixDepositMinAmountToWarningIncome ≤ deposit.amount)
  | .IsReceitaFederal => some !(deposit.thirdPartDocument == config.pixPaymentReceitaFederalCnpj)
  | .IsSantanderCnpj => some !(config.warningPixDepositMinAmount < deposit.amount &&
      deposit.thirdPartIspb == config.pixPaymentSantanderIspb &&
      deposit.thirdPartDocument == config.warningPixDepositSantanderCnpj)
  | .IsSuspectBank => some !(config.isCnpj deposit.thirdPartDocument &&
      lists.blockedBanks.contains deposit.thirdPartDocument)
  | .IsSuspectCpf => some !(lists.blockedCpfs.contains deposit.thirdPartDocument)

/-- The duplicate checker looks for a fingerprint of amounts over the minimum only. -/
def looksUp (config : Config) (deposit : Deposit) (c : Checker) : Bool :=
  c = .IsDuplicated ∧ config.warningPixDepositMinAmount < deposit.amount

/-- What of the deposit changes: its state, and the results by checker. -/
structure Entry where
  state : PixDepositState
  check : Checker → Option Bool

/-- `Object.keys(check).length === WarningDepositChecker.checkers`. -/
def Entry.complete (e : Entry) : Bool :=
  (checkers.filter fun c => (e.check c).isSome).length = checkers.length

/-- `acceptDeposit`. -/
def Entry.accepted (e : Entry) : Bool := checkers.all fun c => (e.check c).getD true

/-- A checker that has the mutex, with its copy of the entry. -/
inductive Inside where
  | entered (c : Checker) (copy : Entry)
  /-- The entry is `WAITING`. -/
  | waiting (c : Checker) (copy : Entry)
  /-- There is no such fingerprint. -/
  | unique (c : Checker) (copy : Entry)
  | examined (c : Checker) (copy : Entry) (result : Bool)

/-- An execution for a waiting event, with its copy of the entry. -/
inductive Handler where
  | read (copy : Entry)
  /-- A result is false.  The calls after the deposit is stored are left out. -/
  | held (copy : Entry)
  /-- All results of the copy are true. -/
  | accepted (copy : Entry)
  | received (copy : Entry)
  | created (copy : Entry)

structure State where
  entry : Entry
  /-- Some deposit has kept the fingerprint. -/
  fingerprint : Bool
  inside : Option Inside
  /-- The checkers of the executions that have recorded a result, and are to read the entry. -/
  released : List Checker
  /-- The checkers of the executions that are over. -/
  finished : List Checker
  fired : ℕ
  handlers : List Handler
  /-- The deposit is in the database. -/
  stored : Bool
  credited : Bool
  /-- The results that were recorded first. -/
  first : Checker → Option Bool

/-- A deposit in redis that nobody has looked at. -/
def State.initial (fingerprint : Bool) : State where
  entry := ⟨.NEW, fun _ => none⟩
  fingerprint := fingerprint
  inside := none
  released := []
  finished := []
  fired := 0
  handlers := []
  stored := false
  credited := false
  first _ := none

inductive Label where
  | enter (c : Checker)
  | mark
  | examine
  | createHash
  | record
  /-- The checker that has the mutex throws, and releases it. -/
  | throws
  | answer (i : ℕ)
  | deliver
  /-- The next call of an execution for a waiting event. -/
  | handle (i : ℕ)
  /-- That execution throws. -/
  | handlerThrows (i : ℕ)
  /-- Another deposit keeps the fingerprint, or it expires. -/
  | others (fingerprint : Bool)

namespace State

variable (config : Config) (lists : Lists) (deposit : Deposit) (s : State)

def enter (c : Checker) : State :=
  match s.inside with
  | none => { s with inside := some (.entered c s.entry) }
  | some _ => s

/-- What every `check` begins with. -/
def mark : State :=
  match s.inside with
  | some (.entered c copy) =>
      match copy.state with
      | .NEW =>
          let marked : Entry := { copy with state := .WAITING }
          { s with entry := marked, inside := some (.waiting c marked) }
      | .WAITING => { s with inside := some (.waiting c copy) }
      | _ => { s with inside := none }
  | _ => s

def examine : State :=
  match s.inside with
  | some (.waiting c copy) =>
      match looksUp config deposit c, s.fingerprint with
      | true, true => { s with inside := some (.examined c copy false) }
      | true, false => { s with inside := some (.unique c copy) }
      | false, _ =>
          match verdict config lists deposit c with
          | some result => { s with inside := some (.examined c copy result) }
          | none => { s with inside := none }
  | _ => s

def createHash : State :=
  match s.inside with
  | some (.unique c copy) =>
      { s with fingerprint := true, inside := some (.examined c copy true) }
  | _ => s

/-- The result is written, and the mutex is released. -/
def record : State :=
  match s.inside with
  | some (.examined c copy result) =>
      { s with
        entry := { copy with check := Function.update copy.check c (some result) }
        inside := none
        released := s.released ++ [c]
        first := if (s.first c).isSome then s.first else Function.update s.first c (some result) }
  | _ => s

def answer (i : ℕ) : State :=
  match s.released[i]? with
  | none => s
  | some c =>
      { s with
        released := s.released.eraseIdx i
        finished := c :: s.finished
        fired := if s.entry.complete then s.fired + 1 else s.fired }

def deliver : State :=
  if s.fired = 0 ∨ s.entry.state = .RECEIVED then s
  else { s with handlers := s.handlers ++ [.read s.entry] }

def drop (i : ℕ) : State := { s with handlers := s.handlers.eraseIdx i }

/-- `HandleWaitingPixDepositEventUseCase`, from its read of the database. -/
def handle (i : ℕ) : State :=
  match s.handlers[i]? with
  | none => s
  | some (.read copy) =>
      if s.stored then s.drop i
      else if copy.accepted then { s with handlers := s.handlers.set i (.accepted copy) }
      else { s with handlers := s.handlers.set i (.held copy) }
  | some (.held _) => { s.drop i with stored := true }
  | some (.accepted copy) =>
      { s with
        entry := { copy with state := .RECEIVED }
        handlers := s.handlers.set i (.received copy) }
  | some (.received copy) =>
      if s.stored then s.drop i
      else { s with stored := true, handlers := s.handlers.set i (.created copy) }
  | some (.created _) => { s.drop i with credited := true }

end State

/-- A step of an execution that there is not, or that waits for the mutex, does nothing. -/
def step (config : Config) (lists : Lists) (deposit : Deposit) (s : State) : Label → State
  | .enter c => s.enter c
  | .mark => s.mark
  | .examine => s.examine config lists deposit
  | .createHash => s.createHash
  | .record => s.record
  | .throws => { s with inside := none }
  | .answer i => s.answer i
  | .deliver => s.deliver
  | .handle i => s.handle i
  | .handlerThrows i => s.drop i
  | .others fingerprint => { s with fingerprint }

/-- When the duplicate checker looks up a fingerprint again, it finds what it recorded: one after
`false`, and none after `true`. -/
def Label.Sound (config : Config) (deposit : Deposit) (s : State) : Label → Prop
  | .examine => ∀ c copy, s.inside = some (.waiting c copy) → looksUp config deposit c →
      ∀ r ∈ s.entry.check c, r = !s.fingerprint
  | _ => True

/-- The results are those recorded first; a credited deposit has a result of every checker, and each
is true; and when every checker has run, the waiting event was fired. -/
structure Checked (s : State) : Prop where
  kept : s.entry.check = s.first
  credited : s.credited → ∀ c, s.entry.check c = some true
  fired : (∀ c, c ∈ s.finished) → 0 < s.fired

/-! ### The invariant -/

section

variable (config : Config) (lists : Lists) (deposit : Deposit)

/-- The copy of a checker has the results of the entry, and its result is what it recorded. -/
def Inside.Fits (check : Checker → Option Bool) : Inside → Prop
  | .entered _ copy => copy.check = check
  | .waiting _ copy => copy.check = check
  | .unique c copy => copy.check = check ∧ looksUp config deposit c ∧ ∀ r ∈ check c, r = true
  | .examined c copy result => copy.check = check ∧ (∀ r ∈ check c, r = result) ∧
      (looksUp config deposit c = false → verdict config lists deposit c = some result)

/-- The copy of a handler has the results of the entry, all true once they were looked at. -/
def Handler.Fits (check : Checker → Option Bool) : Handler → Prop
  | .read copy => copy.check = check
  | .held copy => copy.check = check
  | .accepted copy => copy.check = check ∧ ∀ c, check c = some true
  | .received copy => copy.check = check ∧ ∀ c, check c = some true
  | .created copy => copy.check = check ∧ ∀ c, check c = some true

structure Inv (s : State) : Prop where
  checked : Checked s
  verdicts : ∀ c, looksUp config deposit c = false → ∀ r ∈ s.entry.check c,
    verdict config lists deposit c = some r
  inside : ∀ i ∈ s.inside, i.Fits config lists deposit s.entry.check
  released : ∀ c ∈ s.released, (s.entry.check c).isSome
  finished : ∀ c ∈ s.finished, (s.entry.check c).isSome
  complete : 0 < s.fired → ∀ c, (s.entry.check c).isSome
  handlers : ∀ h ∈ s.handlers, 0 < s.fired ∧ h.Fits s.entry.check

end

section

variable {config : Config} {lists : Lists} {deposit : Deposit} {s : State}

theorem entry_complete_iff {e : Entry} : e.complete = true ↔ ∀ c, (e.check c).isSome := by
  rw [Entry.complete, decide_eq_true_eq, List.length_filter_eq_length_iff]
  exact ⟨fun h c => h c (mem_checkers c), fun h c _ => h c⟩

theorem accepted_eq {e : Entry} (hcomplete : ∀ c, (e.check c).isSome) (h : e.accepted)
    (c : Checker) : e.check c = some true := by
  have hc : (e.check c).getD true = true := List.all_eq_true.mp h c (mem_checkers c)
  obtain ⟨r, hr⟩ := Option.isSome_iff_exists.mp (hcomplete c)
  rw [hr] at hc ⊢
  rw [show r = true from hc]

theorem inv_initial (fingerprint : Bool) :
    Inv config lists deposit (State.initial fingerprint) where
  checked := ⟨rfl, fun h => (by cases h), fun h => absurd (h .IsCef) List.not_mem_nil⟩
  verdicts _ _ _ h := by cases h
  inside _ h := by cases h
  released _ h := absurd h List.not_mem_nil
  finished _ h := absurd h List.not_mem_nil
  complete h := absurd h (Nat.lt_irrefl 0)
  handlers _ h := absurd h List.not_mem_nil

section
variable (h : Inv config lists deposit s)
include h

/-- What a step must see to of what it changes. -/
theorem Inv.update {entry : Entry} {inside : Option Inside} {handlers : List Handler}
    {fingerprint stored credited : Bool} (hcheck : entry.check = s.entry.check)
    (hinside : ∀ i ∈ inside, i.Fits config lists deposit s.entry.check)
    (hhandlers : ∀ x ∈ handlers, 0 < s.fired ∧ x.Fits s.entry.check)
    (hcredited : credited → ∀ c, s.entry.check c = some true) :
    Inv config lists deposit
      { s with entry, inside, handlers, fingerprint, stored, credited } where
  checked := ⟨hcheck.trans h.checked.kept, fun htrue => by
    rw [hcheck]
    exact hcredited htrue, h.checked.fired⟩
  verdicts := by rw [hcheck]; exact h.verdicts
  inside := by rw [hcheck]; exact hinside
  released := by rw [hcheck]; exact h.released
  finished := by rw [hcheck]; exact h.finished
  complete := by rw [hcheck]; exact h.complete
  handlers := by rw [hcheck]; exact hhandlers

/-- A step of the checker that has the mutex, before it records its result. -/
theorem Inv.setInside {entry : Entry} {inside : Option Inside} {fingerprint : Bool}
    (hcheck : entry.check = s.entry.check)
    (hinside : ∀ i ∈ inside, i.Fits config lists deposit s.entry.check) :
    Inv config lists deposit { s with entry, inside, fingerprint } :=
  h.update hcheck hinside h.handlers h.checked.credited

/-- A step of an execution for a waiting event. -/
theorem Inv.setHandlers {entry : Entry} {handlers : List Handler} {stored credited : Bool}
    (hcheck : entry.check = s.entry.check)
    (hhandlers : ∀ x ∈ handlers, 0 < s.fired ∧ x.Fits s.entry.check)
    (hcredited : credited → ∀ c, s.entry.check c = some true) :
    Inv config lists deposit { s with entry, handlers, stored, credited } :=
  h.update hcheck h.inside hhandlers hcredited

/-! ### The checkers -/

theorem Inv.leave (fingerprint : Bool) :
    Inv config lists deposit { s with inside := none, fingerprint } :=
  h.setInside rfl fun i hi => by cases hi

theorem Inv.enter (c : Checker) : Inv config lists deposit (s.enter c) := by
  rw [State.enter]
  split
  · refine h.setInside rfl fun i hi => ?_
    rw [← Option.some_inj.mp hi]
    rfl
  · exact h

theorem Inv.mark : Inv config lists deposit s.mark := by
  rw [State.mark]
  split
  · rename_i c copy hinside
    have hcopy : copy.check = s.entry.check := h.inside _ hinside
    split
    · refine h.setInside hcopy fun i hi => ?_
      rw [← Option.some_inj.mp hi]
      exact hcopy
    · refine h.setInside rfl fun i hi => ?_
      rw [← Option.some_inj.mp hi]
      exact hcopy
    · exact h.leave _
  · exact h

theorem Inv.examine (hsound : Label.examine.Sound config deposit s) :
    Inv config lists deposit (s.examine config lists deposit) := by
  rw [State.examine]
  split
  · rename_i c copy hinside
    have hcopy : copy.check = s.entry.check := h.inside _ hinside
    split
    · rename_i hlooks hkept
      refine h.setInside rfl fun i hi => ?_
      rw [← Option.some_inj.mp hi]
      refine ⟨hcopy, fun r hr => ?_, fun hno => ?_⟩
      · rw [hsound c copy hinside hlooks r hr, hkept]
        rfl
      · rw [hlooks] at hno
        cases hno
    · rename_i hlooks hkept
      refine h.setInside rfl fun i hi => ?_
      rw [← Option.some_inj.mp hi]
      refine ⟨hcopy, hlooks, fun r hr => ?_⟩
      rw [hsound c copy hinside hlooks r hr, hkept]
      rfl
    · rename_i hlooks
      split
      · rename_i result hverdict
        refine h.setInside rfl fun i hi => ?_
        rw [← Option.some_inj.mp hi]
        refine ⟨hcopy, fun r hr => ?_, fun _ => hverdict⟩
        exact Option.some_inj.mp ((h.verdicts c hlooks r hr).symm.trans hverdict)
      · exact h.leave _
  · exact h

theorem Inv.createHash : Inv config lists deposit s.createHash := by
  rw [State.createHash]
  split
  · rename_i c copy hinside
    obtain ⟨hcopy, hlooks, htrue⟩ := h.inside _ hinside
    refine h.setInside rfl fun i hi => ?_
    rw [← Option.some_inj.mp hi]
    refine ⟨hcopy, htrue, fun hno => ?_⟩
    rw [hlooks] at hno
    cases hno
  · exact h

/-- A result is recorded for the first time, or again. -/
theorem Inv.record : Inv config lists deposit s.record := by
  rw [State.record]
  split
  · rename_i c copy result hinside
    obtain ⟨hcopy, hagrees, hverdict⟩ := h.inside _ hinside
    have hfirst : s.first = s.entry.check := h.checked.kept.symm
    cases hrecorded : s.entry.check c with
    | some r =>
        have hsame : Function.update copy.check c (some result) = s.entry.check := by
          rw [hcopy, ← hagrees r hrecorded, ← hrecorded, Function.update_eq_self]
        have hkept : (if (s.first c).isSome then s.first
            else Function.update s.first c (some result)) = s.first :=
          if_pos (by rw [hfirst, hrecorded]; rfl)
        rw [hsame, hkept]
        refine ⟨⟨h.checked.kept, h.checked.credited, h.checked.fired⟩, h.verdicts,
          (fun i hi => by cases hi), fun c' hc' => ?_, h.finished, h.complete, h.handlers⟩
        rcases List.mem_append.mp hc' with hc' | hc'
        · exact h.released c' hc'
        · rw [List.mem_singleton.mp hc']
          exact Option.isSome_iff_exists.mpr ⟨r, hrecorded⟩
    | none =>
        -- a checker has not run: the waiting event was not fired
        have hfired : ¬ 0 < s.fired := fun hpos => by
          have hsome := h.complete hpos c
          rw [hrecorded] at hsome
          cases hsome
        have hmono : ∀ c', (s.entry.check c').isSome →
            (Function.update copy.check c (some result) c').isSome := by
          intro c' hsome
          by_cases heq : c' = c
          · rw [heq, Function.update_self]
            rfl
          · rwa [Function.update_of_ne heq, hcopy]
        refine ⟨⟨?_, fun hcredited => ?_, h.checked.fired⟩, fun c' hno r hr => ?_, ?_,
          fun c' hc' => ?_, fun c' hc' => hmono c' (h.finished c' hc'), fun hpos => ?_,
          fun x hx => ?_⟩
        · rw [if_neg (by rw [hfirst, hrecorded]; exact Bool.false_ne_true), hfirst, ← hcopy]
        · have htrue := h.checked.credited hcredited c
          rw [hrecorded] at htrue
          cases htrue
        · have hr' : Function.update copy.check c (some result) c' = some r := hr
          by_cases heq : c' = c
          · rw [heq, Function.update_self] at hr'
            rw [heq] at hno ⊢
            rw [hverdict hno, hr']
          · rw [Function.update_of_ne heq, hcopy] at hr'
            exact h.verdicts c' hno r hr'
        · exact fun i hi => by cases hi
        · rcases List.mem_append.mp hc' with hc' | hc'
          · exact hmono c' (h.released c' hc')
          · rw [List.mem_singleton.mp hc']
            exact Option.isSome_iff_exists.mpr ⟨result, Function.update_self ..⟩
        · exact absurd hpos hfired
        · exact absurd (h.handlers x hx).1 hfired
  · exact h

/-- The last of the checkers finds all results. -/
theorem Inv.answer (i : ℕ) : Inv config lists deposit (s.answer i) := by
  rw [State.answer]
  split
  · exact h
  · rename_i c hc
    have hsome : (s.entry.check c).isSome := h.released c (List.mem_of_getElem? hc)
    have hfinished : ∀ c' ∈ c :: s.finished, (s.entry.check c').isSome :=
      List.forall_mem_cons.mpr ⟨hsome, h.finished⟩
    have hle : s.fired ≤ if s.entry.complete then s.fired + 1 else s.fired := by
      split
      · exact Nat.le_succ _
      · exact le_rfl
    refine ⟨⟨h.checked.kept, h.checked.credited, fun hall => ?_⟩, h.verdicts, h.inside,
      fun c' hc' => h.released c' (List.mem_of_mem_eraseIdx hc'), hfinished, fun hpos => ?_,
      fun x hx => ⟨(h.handlers x hx).1.trans_le hle, (h.handlers x hx).2⟩⟩
    · have hcomplete : s.entry.complete = true :=
        entry_complete_iff.mpr fun c' => hfinished c' (hall c')
      change 0 < if s.entry.complete then s.fired + 1 else s.fired
      rw [if_pos hcomplete]
      exact Nat.succ_pos _
    · by_cases hcomplete : s.entry.complete
      · exact entry_complete_iff.mp hcomplete
      · have hpos' : 0 < if s.entry.complete then s.fired + 1 else s.fired := hpos
        rw [if_neg hcomplete] at hpos'
        exact h.complete hpos'

/-! ### The handler of the waiting event -/

theorem Inv.drop (i : ℕ) {stored credited : Bool}
    (hcredited : credited → ∀ c, s.entry.check c = some true) :
    Inv config lists deposit
      { s with handlers := s.handlers.eraseIdx i, stored, credited } :=
  h.setHandlers rfl (fun x hx => h.handlers x (List.mem_of_mem_eraseIdx hx)) hcredited

/-- An execution goes on. -/
theorem Inv.setHandler {i : ℕ} {x : Handler}
    (hi : s.handlers[i]? = some x) {y : Handler} {entry : Entry} {stored : Bool}
    (hcheck : entry.check = s.entry.check) (hy : y.Fits s.entry.check) :
    Inv config lists deposit { s with entry, handlers := s.handlers.set i y, stored } := by
  have hfired : 0 < s.fired := (h.handlers x (List.mem_of_getElem? hi)).1
  refine h.setHandlers hcheck (fun z hz => ?_) h.checked.credited
  rcases List.mem_or_eq_of_mem_set hz with hz | rfl
  · exact h.handlers z hz
  · exact ⟨hfired, hy⟩

theorem Inv.deliver : Inv config lists deposit s.deliver := by
  rw [State.deliver]
  split
  · exact h
  · rename_i hnot
    refine h.setHandlers rfl (fun x hx => ?_) h.checked.credited
    rcases List.mem_append.mp hx with hx | hx
    · exact h.handlers x hx
    · rw [List.mem_singleton.mp hx]
      exact ⟨Nat.pos_of_ne_zero fun hzero => hnot (.inl hzero), rfl⟩

theorem Inv.handle (i : ℕ) : Inv config lists deposit (s.handle i) := by
  rw [State.handle]
  split
  · exact h
  · rename_i copy hi
    obtain ⟨hfired, hcopy⟩ := h.handlers _ (List.mem_of_getElem? hi)
    have hcopy' : copy.check = s.entry.check := hcopy
    split
    · exact h.drop i h.checked.credited
    · split
      · rename_i haccepted
        refine h.setHandler hi rfl ⟨hcopy, fun c => ?_⟩
        rw [← hcopy']
        refine accepted_eq (fun c => ?_) haccepted c
        rw [hcopy']
        exact h.complete hfired c
      · exact h.setHandler hi rfl hcopy
  · exact h.drop i h.checked.credited
  · rename_i copy hi
    obtain ⟨-, hcopy⟩ := h.handlers _ (List.mem_of_getElem? hi)
    exact h.setHandler hi hcopy.1 hcopy
  · rename_i copy hi
    obtain ⟨-, hcopy⟩ := h.handlers _ (List.mem_of_getElem? hi)
    split
    · exact h.drop i h.checked.credited
    · exact h.setHandler hi rfl hcopy
  · rename_i copy hi
    obtain ⟨-, hcopy⟩ := h.handlers _ (List.mem_of_getElem? hi)
    exact h.drop i fun _ => hcopy.2

theorem step_inv {l : Label} (hsound : l.Sound config deposit s) :
    Inv config lists deposit (step config lists deposit s l) := by
  cases l with
  | enter c => exact h.enter c
  | mark => exact h.mark
  | examine => exact h.examine hsound
  | createHash => exact h.createHash
  | record => exact h.record
  | throws => exact h.leave s.fingerprint
  | answer i => exact h.answer i
  | deliver => exact h.deliver
  | handle i => exact h.handle i
  | handlerThrows i => exact h.drop i h.checked.credited
  | others fingerprint => exact h.setInside rfl h.inside

end

/-- A run in which the duplicate checker finds what it recorded. -/
theorem run_checked (config : Config) (lists : Lists) (deposit : Deposit) (fingerprint : Bool)
    (ls : List Label) (h : Along (step config lists deposit)
      (fun s l => l.Sound config deposit s) (State.initial fingerprint) ls) :
    Checked (run (step config lists deposit) (State.initial fingerprint) ls) :=
  (h.invariant (I := Inv config lists deposit) (fun _ _ => (step_inv ·))
    (inv_initial fingerprint)).checked

end

/-! ### The duplicate checker runs twice -/

namespace Sample

def config : Config where
  pixPaymentCEFIspb := "00360305"
  pixPaymentSantanderIspb := "90400888"
  pixPaymentReceitaFederalCnpj := "00394460000141"
  warningPixDepositSantanderCnpj := "90400888000142"
  warningPixDepositMinAmount := 100
  warningPixDepositMaxOccupationIncome := 1000
  warningPixDepositMinAmountToWarningIncome := 1000
  isCnpj _ := false

def lists : Lists := ⟨fun _ => some 5000, [], []⟩

def deposit : Deposit := ⟨1, 500, "00000000", "1"⟩

/-- An execution of the duplicate checker that finds no fingerprint, or one. -/
def first : List Label := [.enter .IsDuplicated, .mark, .examine, .createHash, .record, .answer 0]

def again : List Label := [.enter .IsDuplicated, .mark, .examine, .record, .answer 0]

end Sample

open Sample in
theorem run_checked_first :
    Checked (run (step config lists deposit) (State.initial false) first) := by
  refine run_checked config lists deposit false first
    ⟨trivial, trivial, ?_, trivial, trivial, trivial, trivial⟩
  intro c copy hinside hlooks r hr
  cases hinside
  cases hr

open Sample in
/-- The event is delivered again, and the checker finds the fingerprint of the deposit itself. -/
theorem found_itself : ¬ ∀ config lists deposit fingerprint ls,
    Checked (run (step config lists deposit) (State.initial fingerprint) ls) := by
  intro h
  have hkept := (h config lists deposit false (first ++ again)).kept
  have hfirst : (run (step config lists deposit) (State.initial false) (first ++ again)).first
      .IsDuplicated = some true := by decide
  have hlast : (run (step config lists deposit) (State.initial false)
      (first ++ again)).entry.check .IsDuplicated = some false := by decide
  rw [hkept, hfirst] at hlast
  cases hlast

end ZroServices.Pix.WarningCheckers
