import ZroServices.Pix.CreditValidation

/-!
# PIX — a QR code that is paid once

The mark of a QR code is read by one call and written by a later one.  A request that finds no mark
has passed: it will be answered that the credit is valid.  So the QR code is accepted once where every
request that reads after another one has passed finds the mark, and where all requests are answered,
only there (`acceptedOnce_iff`).
-/

namespace ZroServices.Pix.CreditValidation

/-- A mark was looked for, and none was found. -/
def Stage.Passed : Stage → Prop
  | .measure .. | .create .. => True
  | .answered response _ => response.resultType = .VALID
  | .getByTxId .. | .getByHash | .createHash _ => False

namespace SideBySide

open Foundation

variable {config : Config} {services : Services} {s : State} {txId : TxId} {x y : Execution} {i : ℕ}

/-! ### What is promised -/

/-- The request carries the QR code and was answered that the credit is valid. -/
def Accepted (txId : TxId) (x : Execution) : Prop :=
  x.payload.clientConciliationId = txId ∧
    ∃ response event, x.stage = .answered response event ∧ response.resultType = .VALID

/-- The due date was tested before it had come. -/
def Early (config : Config) (txId : TxId) (x : Execution) : Prop :=
  ∀ t ∈ txId.getDueDate config.parseDate, x.begunAt < t

/-- The QR code is accepted once at most, and not after the due date. -/
structure AcceptedOnce (config : Config) (txId : TxId) (s : State) : Prop where
  once : ∀ (i j : ℕ) (x y : Execution), s.executions[i]? = some x → s.executions[j]? = some y →
    Accepted txId x → Accepted txId y → i = j
  early : ∀ x ∈ s.executions, Accepted txId x → Early config txId x

/-- The request carries the QR code and has found no mark. -/
def Passed (txId : TxId) (x : Execution) : Prop :=
  x.payload.clientConciliationId = txId ∧ x.stage.Passed

/-- A request that reads the mark after another one has passed finds it: that one has written the
mark, before the due date, and the due date has not passed since. -/
def InTurn (txId : TxId) (s : State) : Step → Prop
  | .go i => ∀ x ∈ s.executions[i]?, x.payload.clientConciliationId = txId →
      (∃ dueDate, x.stage = .getByTxId txId dueDate) → (∃ y ∈ s.executions, Passed txId y) →
        (s.world.getByTxId txId).isSome
  | _ => True

/-- Every request was answered. -/
def Finished (s : State) : Prop :=
  ∀ x ∈ s.executions, ∃ response event, x.stage = .answered response event

instance : DecidablePred Stage.Passed
  | .measure .. | .create .. => inferInstanceAs (Decidable True)
  | .answered .. => inferInstanceAs (Decidable (_ = _))
  | .getByTxId .. | .getByHash | .createHash _ => inferInstanceAs (Decidable False)

instance (txId : TxId) (x : Execution) : Decidable (Passed txId x) :=
  inferInstanceAs (Decidable (_ ∧ _))

instance (txId : TxId) : (stage : Stage) →
    Decidable (∃ dueDate, stage = .getByTxId txId dueDate)
  | .getByTxId t dueDate =>
      decidable_of_iff (t = txId) ⟨fun h => ⟨dueDate, h ▸ rfl⟩, fun ⟨_, h⟩ => (Stage.getByTxId.inj h).1⟩
  | .measure .. | .create .. | .getByHash | .createHash _ | .answered .. =>
      .isFalse fun ⟨_, h⟩ => Stage.noConfusion h

instance (txId : TxId) (s : State) (l : Step) : Decidable (InTurn txId s l) :=
  match l with
  | .go _ => inferInstanceAs (Decidable (∀ x ∈ _, _))
  | .request _ | .expire _ | .tick _ => inferInstanceAs (Decidable True)

/-! ### A request that carries the QR code -/

/-- What the stage of an execution says of its request. -/
def Fits (config : Config) (txId : TxId) (x : Execution) : Prop :=
  x.payload.clientConciliationId = txId →
    match x.stage with
    | .getByTxId t _ | .measure t _ | .create t _ => t = txId ∧ Early config txId x
    | .getByHash | .createHash _ => False
    | .answered response _ => response.resultType = .VALID → Early config txId x

/-- A QR code in the fast format that has a due date, and is not payable many times. -/
structure Single (txId : TxId) : Prop where
  isFastFormat : txId.isFastFormat
  hasDueDate : txId.hasDueDate
  isPayableManyTimes : ¬ txId.isPayableManyTimes

theorem begin_single (config : Config) (h : Single txId) {payload : NotifyCreditValidation}
    (hpayload : payload.clientConciliationId = txId) (now : ℤ) :
    (∃ code, payload.begin config now = payload.refuse code) ∨
      payload.begin config now = .getByTxId txId (txId.getDueDate config.parseDate) ∧
        ∀ t ∈ txId.getDueDate config.parseDate, now < t := by
  have hne : txId ≠ [] := by
    rintro rfl
    exact Bool.noConfusion h.isFastFormat
  rw [NotifyCreditValidation.begin, hpayload]
  split
  · exact .inl ⟨_, rfl⟩
  split
  · exact .inl ⟨_, rfl⟩
  rw [if_pos ⟨hne, h.isFastFormat⟩]
  split
  · exact .inl ⟨_, rfl⟩
  split
  · exact .inl ⟨_, rfl⟩
  rw [if_pos h.hasDueDate, NotifyCreditValidation.checkQrCodeStaticWithDueDate, hpayload]
  split
  · exact .inl ⟨_, rfl⟩
  · next hearly =>
    rw [if_neg h.isPayableManyTimes]
    exact .inr ⟨rfl, fun t ht => Int.not_le.mp fun hle => hearly ⟨t, ht, hle⟩⟩

theorem Fits.begin (h : Single txId) (payload : NotifyCreditValidation) (now : ℤ) :
    Fits config txId ⟨payload, payload.begin config now, now⟩ := by
  intro hpayload
  rcases begin_single config h hpayload now with ⟨code, hbegin⟩ | ⟨hbegin, hearly⟩
  · simp only [hbegin, NotifyCreditValidation.refuse, NotifyCreditValidation.answer]
    exact fun hvalid => ResultType.noConfusion hvalid
  · simp only [hbegin]
    exact ⟨trivial, hearly⟩

theorem not_passed_begin (h : Single txId) (payload : NotifyCreditValidation) (now : ℤ) :
    ¬ Passed txId ⟨payload, payload.begin config now, now⟩ := by
  rintro ⟨hpayload, hpassed⟩
  rcases begin_single config h hpayload now with ⟨code, hbegin⟩ | ⟨hbegin, -⟩
  · simp only [hbegin, NotifyCreditValidation.refuse, NotifyCreditValidation.answer] at hpassed
    exact ResultType.noConfusion hpassed
  · simp only [hbegin] at hpassed
    exact hpassed

/-- The execution after it went on in `w`. -/
def goes (config : Config) (services : Services) (w : World) (x : Execution) : Execution :=
  { x with stage := (w.go config services x.payload x.stage).2 }

theorem Passed.goes (h : Passed txId x) (w : World) : Passed txId (goes config services w x) := by
  obtain ⟨hpayload, hpassed⟩ := h
  refine ⟨hpayload, ?_⟩
  rw [SideBySide.goes]
  cases hstage : x.stage with
  | measure t dueDate => trivial
  | create t ttl => rfl
  | answered response event =>
      simp only [hstage] at hpassed
      exact hpassed
  | getByTxId t dueDate =>
      rw [hstage] at hpassed
      exact hpassed.elim
  | getByHash =>
      rw [hstage] at hpassed
      exact hpassed.elim
  | createHash response =>
      rw [hstage] at hpassed
      exact hpassed.elim

/-- Only finding no mark makes a request pass. -/
theorem passed_of_goes (hfits : Fits config txId x) {w : World}
    (h : Passed txId (goes config services w x)) :
    Passed txId x ∨ (∃ dueDate, x.stage = .getByTxId txId dueDate) ∧ w.getByTxId txId = none := by
  obtain ⟨hpayload, hpassed⟩ := h
  have hpayload : x.payload.clientConciliationId = txId := hpayload
  have hfits := hfits hpayload
  rw [SideBySide.goes] at hpassed
  cases hstage : x.stage with
  | getByTxId t dueDate =>
      simp only [hstage] at hfits hpassed
      obtain rfl : t = txId := hfits.1
      refine .inr ⟨⟨dueDate, rfl⟩, ?_⟩
      cases hmark : w.getByTxId t with
      | none => rfl
      | some mark =>
          simp only [World.go, hmark] at hpassed
          exact ResultType.noConfusion hpassed
  | measure t dueDate => exact .inl ⟨hpayload, by rw [hstage]; trivial⟩
  | create t ttl => exact .inl ⟨hpayload, by rw [hstage]; trivial⟩
  | answered response event =>
      simp only [hstage, World.go] at hpassed
      exact .inl ⟨hpayload, by rw [hstage]; exact hpassed⟩
  | getByHash => simp only [hstage] at hfits
  | createHash response => simp only [hstage] at hfits

theorem Fits.goes (h : Fits config txId x) (w : World) :
    Fits config txId (goes config services w x) := by
  intro hpayload
  have h := h hpayload
  rw [SideBySide.goes]
  cases hstage : x.stage with
  | getByTxId t dueDate =>
      simp only [hstage] at h
      cases hmark : w.getByTxId t with
      | none =>
          simp only [World.go, hmark]
          exact h
      | some mark =>
          simp only [World.go, hmark]
          exact fun hvalid => ResultType.noConfusion hvalid
  | measure t dueDate =>
      simp only [hstage] at h
      exact h
  | create t ttl =>
      simp only [hstage] at h
      exact fun _ => h.2
  | getByHash => simp only [hstage] at h
  | createHash response => simp only [hstage] at h
  | answered response event =>
      simp only [hstage] at h
      exact h

/-! ### A run -/

/-- What a step does to the executions. -/
theorem step_executions (config : Config) (services : Services) (s : State) (l : Step) :
    (step config services s l).executions = s.executions ∨
      (∃ payload, l = .request payload ∧ (step config services s l).executions =
        s.executions ++ [⟨payload, payload.begin config s.world.now, s.world.now⟩]) ∨
      ∃ i x, l = .go i ∧ s.executions[i]? = some x ∧ (step config services s l).executions =
        s.executions.set i (goes config services s.world x) := by
  cases l with
  | request payload => exact .inr (.inl ⟨payload, rfl, rfl⟩)
  | go i =>
      cases hi : s.executions[i]? with
      | none => exact .inl (by simp only [step, hi])
      | some x => exact .inr (.inr ⟨i, x, rfl, hi, by simp only [step, hi]; rfl⟩)
  | expire hash => exact .inl rfl
  | tick ms => exact .inl rfl

/-- Every request of the QR code keeps to its stages, and one at most has passed. -/
structure Sound (config : Config) (txId : TxId) (s : State) : Prop where
  fits : ∀ x ∈ s.executions, Fits config txId x
  once : ∀ (i j : ℕ) (x y : Execution), s.executions[i]? = some x → s.executions[j]? = some y →
    Passed txId x → Passed txId y → i = j

theorem fits_step (h : Single txId) (hfits : ∀ x ∈ s.executions, Fits config txId x) (l : Step) :
    ∀ x ∈ (step config services s l).executions, Fits config txId x := by
  rcases step_executions config services s l with hsame | ⟨payload, -, hnew⟩ | ⟨i, x, -, hx, hset⟩
  · rwa [hsame]
  · rw [hnew]
    intro x hx
    rcases List.mem_append.mp hx with hx | hx
    · exact hfits x hx
    · rw [List.mem_singleton.mp hx]
      exact Fits.begin h payload _
  · rw [hset]
    intro y hy
    rcases List.mem_or_eq_of_mem_set hy with hy | rfl
    · exact hfits y hy
    · exact (hfits x (List.mem_of_getElem? hx)).goes _

/-- What has passed after a step had passed before, or has just found no mark. -/
theorem passed_of_step (h : Single txId) (hfits : ∀ x ∈ s.executions, Fits config txId x) {l : Step}
    (hy : (step config services s l).executions[i]? = some y) (hpassed : Passed txId y) :
    (∃ x, s.executions[i]? = some x ∧ Passed txId x) ∨
      l = .go i ∧ ∃ x, s.executions[i]? = some x ∧ x.payload.clientConciliationId = txId ∧
        (∃ dueDate, x.stage = .getByTxId txId dueDate) ∧ s.world.getByTxId txId = none := by
  rcases step_executions config services s l with hsame | ⟨payload, -, hnew⟩ | ⟨k, x, hl, hx, hset⟩
  · exact .inl ⟨y, hsame ▸ hy, hpassed⟩
  · rw [hnew] at hy
    rcases Nat.lt_or_ge i s.executions.length with hlt | hge
    · rw [List.getElem?_append_left hlt] at hy
      exact .inl ⟨y, hy, hpassed⟩
    · rw [List.getElem?_append_right hge] at hy
      obtain rfl := List.mem_singleton.mp (List.mem_of_getElem? hy)
      exact absurd hpassed (not_passed_begin h payload _)
  · rw [hset] at hy
    by_cases hki : k = i
    · subst hki
      rw [List.getElem?_set_self (List.getElem?_eq_some_iff.mp hx).1] at hy
      obtain rfl := Option.some.inj hy
      rcases passed_of_goes (hfits x (List.mem_of_getElem? hx)) hpassed with hold | ⟨hstage, hnone⟩
      · exact .inl ⟨x, hx, hold⟩
      · exact .inr ⟨hl, x, hx, hpassed.1, hstage, hnone⟩
    · rw [List.getElem?_set_ne hki] at hy
      exact .inl ⟨y, hy, hpassed⟩

theorem Sound.step (h : Single txId) (hs : Sound config txId s) {l : Step} (hl : InTurn txId s l) :
    Sound config txId (SideBySide.step config services s l) := by
  refine ⟨fits_step h hs.fits l, fun i j x y hx hy hxp hyp => ?_⟩
  have hfound {i j : ℕ} {v z : Execution} (hv : s.executions[i]? = some v)
      (hvp : Passed txId v) (hlj : l = .go j) (hz : s.executions[j]? = some z)
      (hpayload : z.payload.clientConciliationId = txId)
      (hstage : ∃ dueDate, z.stage = .getByTxId txId dueDate)
      (hnone : s.world.getByTxId txId = none) : i = j := by
    subst hlj
    have hsome := hl z hz hpayload hstage ⟨v, List.mem_of_getElem? hv, hvp⟩
    rw [hnone] at hsome
    exact Bool.noConfusion hsome
  rcases passed_of_step h hs.fits hx hxp with ⟨x', hx', hxp'⟩ | ⟨hli, z, hz, hzt, hzs, hnone⟩
  · rcases passed_of_step h hs.fits hy hyp with ⟨y', hy', hyp'⟩ | ⟨hlj, z, hz, hzt, hzs, hnone⟩
    · exact hs.once i j x' y' hx' hy' hxp' hyp'
    · exact hfound hx' hxp' hlj hz hzt hzs hnone
  · rcases passed_of_step h hs.fits hy hyp with ⟨y', hy', hyp'⟩ | ⟨hlj, -⟩
    · exact (hfound hy' hyp' hli hz hzt hzs hnone).symm
    · exact Step.go.inj (hli.symm.trans hlj)

theorem Accepted.passed (h : Accepted txId x) : Passed txId x := by
  obtain ⟨hpayload, response, event, hstage, hvalid⟩ := h
  exact ⟨hpayload, by rw [hstage]; exact hvalid⟩

theorem Sound.acceptedOnce (hs : Sound config txId s) : AcceptedOnce config txId s where
  once i j x y hx hy hxa hya := hs.once i j x y hx hy hxa.passed hya.passed
  early x hx hxa := by
    obtain ⟨hpayload, response, event, hstage, hvalid⟩ := hxa
    have hfits := hs.fits x hx hpayload
    simp only [hstage] at hfits
    exact hfits hvalid

theorem sound_start (config : Config) (txId : TxId) (now : ℤ) : Sound config txId (start now) where
  fits _ hx := absurd hx List.not_mem_nil
  once i j x y hx := by
    rw [start, List.getElem?_nil] at hx
    cases hx

/-- Two requests have passed. -/
def Twice (txId : TxId) (s : State) : Prop :=
  ∃ (i j : ℕ) (x y : Execution), s.executions[i]? = some x ∧ s.executions[j]? = some y ∧
    Passed txId x ∧ Passed txId y ∧ i ≠ j

theorem Passed.step (config : Config) (services : Services) (h : Passed txId x)
    (hx : s.executions[i]? = some x) (l : Step) :
    ∃ y, (step config services s l).executions[i]? = some y ∧ Passed txId y := by
  have hlt := (List.getElem?_eq_some_iff.mp hx).1
  rcases step_executions config services s l with hsame | ⟨payload, -, hnew⟩ | ⟨k, z, -, hz, hset⟩
  · exact ⟨x, hsame ▸ hx, h⟩
  · exact ⟨x, by rw [hnew, List.getElem?_append_left hlt, hx], h⟩
  · by_cases hki : k = i
    · subst hki
      obtain rfl : z = x := Option.some.inj (hz.symm.trans hx)
      exact ⟨_, by rw [hset, List.getElem?_set_self hlt], h.goes _⟩
    · exact ⟨x, by rw [hset, List.getElem?_set_ne hki, hx], h⟩

theorem Twice.step (h : Twice txId s) (l : Step) : Twice txId (step config services s l) := by
  obtain ⟨i, j, x, y, hx, hy, hxp, hyp, hne⟩ := h
  obtain ⟨x', hx', hxp'⟩ := hxp.step config services hx l
  obtain ⟨y', hy', hyp'⟩ := hyp.step config services hy l
  exact ⟨i, j, x', y', hx', hy', hxp', hyp', hne⟩

/-- A request that passes out of turn is the second one. -/
theorem twice_of_not_inTurn {l : Step} (h : ¬ InTurn txId s l) :
    Twice txId (step config services s l) := by
  cases l with
  | request payload => exact absurd trivial h
  | expire hash => exact absurd trivial h
  | tick ms => exact absurd trivial h
  | go i =>
      simp only [InTurn, not_forall, Option.mem_def] at h
      obtain ⟨x, hx, hpayload, ⟨dueDate, hstage⟩, ⟨y, hy, hyp⟩, hnone⟩ := h
      have hmark : s.world.getByTxId txId = none := Option.not_isSome_iff_eq_none.mp hnone
      obtain ⟨j, hj⟩ := List.getElem?_of_mem hy
      have hne : i ≠ j := by
        rintro rfl
        obtain rfl : x = y := Option.some.inj (hx.symm.trans hj)
        have hpassed := hyp.2
        rw [hstage] at hpassed
        exact hpassed
      have hlt := (List.getElem?_eq_some_iff.mp hx).1
      have hset : (step config services s (.go i)).executions =
          s.executions.set i (SideBySide.goes config services s.world x) := by
        simp only [SideBySide.step, hx]
        rfl
      obtain ⟨y', hy', hyp'⟩ := hyp.step config services hj (.go i)
      refine ⟨i, j, SideBySide.goes config services s.world x, y', ?_, hy', ⟨hpayload, ?_⟩, hyp', hne⟩
      · rw [hset, List.getElem?_set_self hlt]
      · simp only [SideBySide.goes, hstage, World.go, hmark]
        trivial

theorem Finished.accepted (h : Finished s) (hx : s.executions[i]? = some x)
    (hpassed : Passed txId x) : Accepted txId x := by
  obtain ⟨response, event, hstage⟩ := h x (List.mem_of_getElem? hx)
  have hvalid := hpassed.2
  simp only [hstage] at hvalid
  exact ⟨hpassed.1, response, event, hstage, hvalid⟩

/-- The QR code is accepted once, and not after the due date, in every run in which a request that
reads the mark after another one has passed finds it; and only in these where every request was
answered. -/
theorem acceptedOnce_iff (config : Config) (services : Services) (txId : TxId) (now : ℤ)
    (ls : List Step) (h : Single txId) :
    (Along (step config services) (InTurn txId) (start now) ls →
      ∀ ms, ms <+: ls → AcceptedOnce config txId (run (step config services) (start now) ms)) ∧
    (Finished (run (step config services) (start now) ls) →
      AcceptedOnce config txId (run (step config services) (start now) ls) →
        Along (step config services) (InTurn txId) (start now) ls) := by
  constructor
  · rintro hturn ms ⟨rest, rfl⟩
    exact ((along_append.mp hturn).1.invariant (I := Sound config txId) (fun _ _ hs hl => Sound.step h hs hl)
      (sound_start config txId now)).acceptedOnce
  · intro hfinished honce
    have htwice : ¬ Twice txId (run (step config services) (start now) ls) := by
      rintro ⟨i, j, x, y, hx, hy, hxp, hyp, hne⟩
      exact hne (honce.once i j x y hx hy (hfinished.accepted hx hxp) (hfinished.accepted hy hyp))
    generalize start now = s at htwice
    clear hfinished honce
    induction ls generalizing s with
    | nil => trivial
    | cons l ls ih =>
        refine ⟨by_contra fun hl => htwice ?_, ih _ htwice⟩
        exact run_invariant (fun _ m ht => ht.step m) (twice_of_not_inTurn hl) ls

namespace Sample

/-- A QR code to be paid once, at the instant 7000. -/
def qrCode : TxId := "Xiepu51s00abcdefghabcdef6".toList.map Char.toNat

def bank : Config :=
  ⟨"26264220", fun account => account, fun date => if date = "20300101120000" then some 7000 else none⟩

def nobody : Services := ⟨fun _ => none, fun _ => none, fun _ => none⟩

def credit : NotifyCreditValidation := ⟨"26264220", "A", .CACC, "1001", 100, qrCode, "", ""⟩

/-- The second request begins when the first one was answered. -/
def inTurn : List Step :=
  [.request credit, .go 0, .go 0, .go 0, .tick 5000, .request credit, .go 1, .tick 5000,
    .request credit]

/-- The second request reads before the first one has written. -/
def together : List Step :=
  [.request credit, .request credit, .go 0, .go 1, .go 0, .go 0, .go 1, .go 1]

theorem qrCode_single : Single qrCode := by
  constructor <;> decide +kernel

end Sample

open Sample in
theorem acceptedOnce_inTurn :
    AcceptedOnce bank qrCode (run (step bank nobody) (start 0) inTurn) :=
  (acceptedOnce_iff bank nobody qrCode 0 inTurn qrCode_single).1 (by decide +kernel) inTurn
    List.prefix_rfl

open Sample in
theorem not_acceptedOnce :
    ¬ AcceptedOnce bank qrCode (run (step bank nobody) (start 0) together) := by
  intro h
  have hzero : (run (step bank nobody) (start 0) together).executions[0]? =
      some ⟨credit, .answered .valid .readyCreditValidation, 0⟩ := by decide +kernel
  have hone : (run (step bank nobody) (start 0) together).executions[1]? =
      some ⟨credit, .answered .valid .readyCreditValidation, 0⟩ := by decide +kernel
  exact absurd (h.once 0 1 _ _ hzero hone ⟨rfl, _, _, rfl, rfl⟩ ⟨rfl, _, _, rfl, rfl⟩) (by decide)

end SideBySide

end ZroServices.Pix.CreditValidation
