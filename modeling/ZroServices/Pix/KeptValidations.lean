import ZroServices.Pix.CreditValidation

/-!
# PIX — a validation that is kept

A validation is kept for an account, but it is made of the document, the amount and the payment that
is given back, too.  A request that finds one is answered as it would be without it exactly when
those agree with the ones that it was made of (`transparent_iff`).
-/

namespace ZroServices.Pix.CreditValidation

open Foundation

variable {config : Config} {services : Services} {w : World} {payload : NotifyCreditValidation}

/-! ### What is promised -/

/-- The response to a request that nothing goes on beside. -/
def World.response (w : World) (config : Config) (services : Services)
    (payload : NotifyCreditValidation) : Option Response :=
  match (w.execute config services payload).2 with
  | .answered response _ => some response
  | _ => none

/-- No validation is kept. -/
def World.forgotten (w : World) : World := { w with validations := Table.empty }

/-- A request is answered as it would be if no validation were kept. -/
def SameResponse (config : Config) (services : Services) (w : World) : Serial.Step → Prop
  | .request payload =>
      w.response config services payload = w.forgotten.response config services payload
  | _ => True

/-- Every request of a run in which no validation is kept at first is answered as it would be if
none were kept. -/
def Transparent (config : Config) (services : Services) (w : World) (ls : List Serial.Step) : Prop :=
  Along (Serial.step config services) (SameResponse config services) w.forgotten ls

def Services.getUser (services : Services) (account : String) : Option User :=
  (services.getOnboarding account).bind services.getUserByUuid

/-- Two requests for an account agree on whether the document is that of its user, and if it is, and
the user is active, on what is wrong with the payment that is given back. -/
def Agrees (services : Services) (p q : NotifyCreditValidation) : Prop :=
  ∀ user ∈ services.getUser q.clientAccountNumber,
    (user.document = p.clientDocument ↔ user.document = q.clientDocument) ∧
      (user.document = q.clientDocument → user.active →
        p.originalRefusal services = q.originalRefusal services)

/-- A request that finds a validation agrees with the request that it was made for. -/
def KeptAgrees (config : Config) (services : Services) (w : World) : Serial.Step → Prop
  | .request payload => payload.begin config w.now = .getByHash →
      ∀ kept ∈ w.validations.get? (config.hash payload.clientAccountNumber),
        Agrees services kept.payload payload
  | _ => True

instance (l : Serial.Step) : Decidable (SameResponse config services w l) :=
  match l with
  | .request _ => inferInstanceAs (Decidable (_ = _))
  | .expire _ | .tick _ => inferInstanceAs (Decidable True)

instance (p q : NotifyCreditValidation) : Decidable (Agrees services p q) :=
  inferInstanceAs (Decidable (∀ user ∈ _, _))

instance (l : Serial.Step) : Decidable (KeptAgrees config services w l) :=
  match l with
  | .request _ => inferInstanceAs (Decidable (_ → ∀ kept ∈ _, _))
  | .expire _ | .tick _ => inferInstanceAs (Decidable True)

instance (ls : List Serial.Step) : Decidable (Transparent config services w ls) :=
  Along.decidable _ _ _ _

/-! ### A request -/

/-- The response of a validation that is kept, as it is read. -/
def Response.read (response : Response) : Response :=
  if response.resultType = .VALID then .valid else .invalid response.devolutionCode

theorem Response.read_validate : (payload.validate services).read = payload.validate services := by
  rw [NotifyCreditValidation.validate]
  split
  · rfl
  split
  · rfl
  split
  · rfl
  split
  · rfl
  split <;> rfl

/-- The execution has nothing more to do with the validations that are kept. -/
def Stage.Apart : Stage → Prop
  | .getByHash | .createHash _ => False
  | _ => True

theorem go_apart (config : Config) (services : Services) (payload : NotifyCreditValidation)
    (w : World) {stage : Stage} (h : stage.Apart) :
    (w.go config services payload stage).2.Apart ∧
      (w.go config services payload stage).1.validations = w.validations ∧
      w.forgotten.go config services payload stage =
        ((w.go config services payload stage).1.forgotten,
          (w.go config services payload stage).2) := by
  cases stage with
  | getByTxId txId dueDate =>
      have hsame : w.forgotten.getByTxId txId = w.getByTxId txId := rfl
      simp only [World.go, hsame]
      split
      · exact ⟨trivial, rfl, rfl⟩
      · exact ⟨trivial, rfl, rfl⟩
  | measure txId dueDate => exact ⟨trivial, rfl, rfl⟩
  | create txId ttl =>
      refine ⟨trivial, ?_⟩
      simp only [World.go, World.create]
      split
      · exact ⟨rfl, rfl⟩
      split
      · exact ⟨rfl, rfl⟩
      split
      · exact ⟨rfl, rfl⟩
      · exact ⟨rfl, rfl⟩
  | getByHash => exact h.elim
  | createHash response => exact h.elim
  | answered response event => exact ⟨trivial, rfl, rfl⟩

theorem begin_cases (payload : NotifyCreditValidation) (config : Config) (now : ℤ) :
    payload.begin config now = .getByHash ∨ (payload.begin config now).Apart := by
  rw [NotifyCreditValidation.begin]
  split
  · exact .inr trivial
  split
  · exact .inr trivial
  split
  · split
    · exact .inr trivial
    split
    · exact .inr trivial
    split
    · rw [NotifyCreditValidation.checkQrCodeStaticWithDueDate]
      split
      · exact .inr trivial
      split <;> exact .inr trivial
    · exact .inl rfl
  · exact .inl rfl

/-- A request that has nothing to do with the validations that are kept. -/
theorem execute_apart (h : (payload.begin config w.now).Apart) :
    (w.execute config services payload).1.validations = w.validations ∧
      (w.forgotten.execute config services payload).2 =
        (w.execute config services payload).2 := by
  have hone := go_apart config services payload w h
  have htwo := go_apart config services payload
    (w.go config services payload (payload.begin config w.now)).1 hone.1
  have hthree := go_apart config services payload
    ((w.go config services payload (payload.begin config w.now)).1.go config services payload
      (w.go config services payload (payload.begin config w.now)).2).1 htwo.1
  rw [World.execute, World.execute, show w.forgotten.now = w.now from rfl]
  simp only [hone.2.2, htwo.2.2, hthree.2.2]
  exact ⟨hthree.2.1.trans (htwo.2.1.trans hone.2.1), trivial⟩

/-- A request that finds a validation, or is checked. -/
theorem execute_getByHash (h : payload.begin config w.now = .getByHash) :
    w.execute config services payload =
      match w.validations.get? (config.hash payload.clientAccountNumber) with
      | some kept => (w, payload.answer kept.response.read)
      | none =>
          ({ w with
            validations := w.validations.upsert ⟨config.hash payload.clientAccountNumber, payload,
              payload.validate services⟩ }, payload.answer (payload.validate services)) := by
  rw [World.execute, h]
  simp only [World.go]
  cases w.validations.get? (config.hash payload.clientAccountNumber) with
  | none => rfl
  | some kept => rfl

theorem response_getByHash (h : payload.begin config w.now = .getByHash) :
    w.response config services payload =
      some (((w.validations.get? (config.hash payload.clientAccountNumber)).map
        fun kept => kept.response.read).getD (payload.validate services)) := by
  rw [World.response, execute_getByHash h]
  cases w.validations.get? (config.hash payload.clientAccountNumber) with
  | none => rfl
  | some kept => rfl

/-- The checks that are made of a user. -/
theorem validate_of_user {user : User}
    (h : services.getUser payload.clientAccountNumber = some user) :
    payload.validate services =
      if user.document ≠ payload.clientDocument then .invalid (some .BE01)
      else if ¬ user.active then .invalid (some .AC07)
      else if payload.originalRefusal services = none then .valid
      else .invalid (payload.originalRefusal services) := by
  obtain ⟨uuid, honboarding, huser⟩ := Option.bind_eq_some_iff.mp h
  rw [NotifyCreditValidation.validate, honboarding]
  dsimp only
  rw [huser]
  dsimp only
  cases payload.originalRefusal services <;> rfl

/-- Without a user, the account alone is to blame. -/
theorem validate_of_no_user {p q : NotifyCreditValidation}
    (haccount : p.clientAccountNumber = q.clientAccountNumber)
    (h : services.getUser q.clientAccountNumber = none) :
    p.validate services = q.validate services := by
  rw [NotifyCreditValidation.validate, NotifyCreditValidation.validate, haccount]
  rw [Services.getUser] at h
  cases honboarding : services.getOnboarding q.clientAccountNumber with
  | none => rfl
  | some uuid =>
      rw [honboarding, Option.bind_some] at h
      dsimp only
      rw [h]

theorem originalRefusal_ne : payload.originalRefusal services ≠ some .BE01 := by
  rw [NotifyCreditValidation.originalRefusal]
  split
  · exact (Option.some_ne_none _).symm
  split
  · decide
  split
  · decide
  · decide

/-- Only a document that is not the user's is refused for that. -/
theorem document_of_validate {user : User}
    (h : services.getUser payload.clientAccountNumber = some user) :
    payload.validate services = .invalid (some .BE01) ↔ user.document ≠ payload.clientDocument := by
  rw [validate_of_user h]
  split
  · next hne => exact iff_of_true rfl hne
  refine iff_of_false (fun heq => ?_) ‹_›
  split at heq
  · exact absurd heq (by decide)
  split at heq
  · exact absurd heq (by decide)
  · exact originalRefusal_ne (congrArg Response.devolutionCode heq)

/-- The validations of two requests for an account are the same when they agree. -/
theorem validate_eq_iff {p q : NotifyCreditValidation}
    (haccount : p.clientAccountNumber = q.clientAccountNumber) :
    p.validate services = q.validate services ↔ Agrees services p q := by
  cases huser : services.getUser q.clientAccountNumber with
  | none =>
      refine iff_of_true (validate_of_no_user haccount huser) fun user hmem => ?_
      rw [huser] at hmem
      cases hmem
  | some user =>
      have hp : services.getUser p.clientAccountNumber = some user := haccount ▸ huser
      constructor
      · intro heq u hu
        obtain rfl : user = u := Option.some.inj (huser.symm.trans hu)
        have hdocument : user.document = p.clientDocument ↔ user.document = q.clientDocument := by
          rw [← not_iff_not, ← ne_eq, ← ne_eq, ← document_of_validate hp,
            ← document_of_validate huser, heq]
        refine ⟨hdocument, fun hq hactive => ?_⟩
        rw [validate_of_user hp, validate_of_user huser, if_neg (not_not.mpr (hdocument.mpr hq)),
          if_neg (not_not.mpr hq), if_neg (not_not.mpr hactive), if_neg (not_not.mpr hactive)] at heq
        split at heq
        · split at heq
          · simp [*]
          · exact ResultType.noConfusion (show ResultType.VALID = .INVALID from
              congrArg Response.resultType heq)
        · split at heq
          · exact ResultType.noConfusion (show ResultType.INVALID = .VALID from
              congrArg Response.resultType heq)
          · exact congrArg Response.devolutionCode heq
      · intro hagrees
        obtain ⟨hdocument, horiginal⟩ := hagrees user huser
        rw [validate_of_user hp, validate_of_user huser]
        refine ite_congr (congrArg Not (propext hdocument)) (fun _ => rfl) fun hq => ?_
        refine ite_congr rfl (fun _ => rfl) fun hactive => ?_
        rw [horiginal (not_not.mp hq) (not_not.mp hactive)]

/-! ### A run -/

/-- What is kept was answered to a request of the run, for its account. -/
structure Kept (config : Config) (services : Services) (ls : List Serial.Step)
    (kept : CachedValidation) : Prop where
  requested : .request kept.payload ∈ ls
  hash : kept.hash = config.hash kept.payload.clientAccountNumber
  response : kept.response = kept.payload.validate services

theorem kept_step {ls : List Serial.Step} {l : Serial.Step} (hl : l ∈ ls)
    (h : ∀ kept ∈ w.validations.rows, Kept config services ls kept) :
    ∀ kept ∈ (Serial.step config services w l).validations.rows,
      Kept config services ls kept := by
  cases l with
  | request payload =>
      change ∀ kept ∈ (w.execute config services payload).1.validations.rows, _
      rcases begin_cases payload config w.now with hbegin | hapart
      · rw [execute_getByHash hbegin]
        split
        · exact h
        · intro kept hkept
          rcases Table.mem_upsert.mp hkept with ⟨hkept, -⟩ | rfl
          · exact h kept hkept
          · exact ⟨hl, rfl, rfl⟩
      · rw [(execute_apart hapart).1]
        exact h
  | expire hash => exact fun kept hkept => h kept (Table.mem_filter.mp hkept).1
  | tick ms => exact h

/-- Every request of the run is answered as if no validation were kept exactly when each of those
that find one agrees with the request that it was made for. -/
theorem transparent_iff (config : Config) (services : Services) (w : World) (ls : List Serial.Step)
    (hhash : ∀ p q, .request p ∈ ls → .request q ∈ ls →
      config.hash p.clientAccountNumber = config.hash q.clientAccountNumber →
      p.clientAccountNumber = q.clientAccountNumber) :
    Transparent config services w ls ↔
      Along (Serial.step config services) (KeptAgrees config services) w.forgotten ls := by
  refine along_congr
    (I := fun w => ∀ kept ∈ w.validations.rows, Kept config services ls kept) (Q := fun l => l ∈ ls)
    (fun w l h hl => kept_step hl h) (fun w l h hl => ?_)
    (fun kept hkept => absurd hkept List.not_mem_nil) fun l hl => hl
  cases l with
  | expire hash => exact Iff.rfl
  | tick ms => exact Iff.rfl
  | request payload =>
      rw [SameResponse, KeptAgrees]
      rcases begin_cases payload config w.now with hbegin | hapart
      · rw [response_getByHash hbegin, response_getByHash (w := w.forgotten) hbegin,
          show w.forgotten.validations.get? _ = none from rfl]
        cases hget : w.validations.get? (config.hash payload.clientAccountNumber) with
        | none => exact iff_of_true rfl fun _ _ hkept => by cases hkept
        | some kept =>
            obtain ⟨hrequested, hkey, hresponse⟩ := h kept (Table.mem_of_get? hget)
            have haccount := hhash _ _ hrequested hl (hkey.symm.trans (Table.key_of_get? hget))
            simp only [Option.map_some, Option.map_none, Option.getD_some, Option.getD_none,
              Option.some.injEq, Option.mem_def, forall_eq', hresponse, Response.read_validate]
            exact (validate_eq_iff haccount).trans ⟨fun hagrees _ => hagrees, fun hk => hk hbegin⟩
      · refine iff_of_true ?_ fun hbegin => ?_
        · rw [World.response, World.response, (execute_apart hapart).2]
        · rw [hbegin] at hapart
          exact hapart.elim

namespace Sample

def bank : Config := ⟨"26264220", fun account => account, fun _ => none⟩

/-- Account 1001 is that of a user with the document A. -/
def users : Services where
  getOnboarding account := if account = "1001" then some 1 else none
  getUserByUuid _ := some ⟨"A", true⟩
  getPaymentByEndToEndId _ := some 500

/-- A credit for account 1001 that is no devolution. -/
def credit (document : String) : NotifyCreditValidation :=
  ⟨"26264220", document, .CACC, "1001", 100, [], "", ""⟩

/-- A devolution to account 1001 of a payment of 500. -/
def devolution (amount : ℤ) : NotifyCreditValidation :=
  ⟨"26264220", "A", .CACC, "1001", amount, [], "E500", ""⟩

end Sample

open Sample in
theorem transparent_devolutions :
    Transparent bank users (start 0) [.request (credit "A"), .request (devolution 500),
      .expire "1001", .request (devolution 501)] :=
  (transparent_iff bank users (start 0) _ fun _ _ _ _ h => h).mpr (by decide +kernel)

open Sample in
/-- The document of the second request is not that of the user. -/
theorem not_transparent :
    ¬ Transparent bank users (start 0) [.request (credit "A"), .request (credit "B")] := by
  decide +kernel

end ZroServices.Pix.CreditValidation
