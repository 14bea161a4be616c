import ZroServices.Foundation.Course
import ZroServices.PixKeys.Domain

/-!
# PIX keys — registering keys side by side

`CreatePixKeyUseCase` as a transaction program.  It counts the keys of the user, looks for a row
of the same key value, and inserts; the two queries take no lock, and the table has no constraint
but its primary key.

`ruled_iff`: along a schedule no user has more keys than allowed, or two rows of one key value, if
and only if the two queries of every execution, asked again when it commits, would let it pass.
-/

namespace ZroServices.PixKeys

open Foundation

/-- What the use case reads and writes: rows, and three queries. -/
inductive Row where
  | pixKey (id : Uuid)
  | notCanceled (id : Uuid)
  | keyCount (user : Uuid)
  | ofUserAndKey (user : Uuid) (key : Option String)
  deriving DecidableEq, Repr

/-- The type of what is read. -/
abbrev Row.Val : Row → Type
  | .keyCount _ => ℕ
  | .pixKey _ | .notCanceled _ | .ofUserAndKey _ _ => PixKey

instance : RowStore Database Row Row.Val PixKeyEvent where
  get db
    | .pixKey id => db.pixKeys.get? id
    | .notCanceled id => db.getByIdAndStateIsNotCanceled id
    | .keyCount user => some (db.countByUserAndStateIsNotCanceled user)
    | .ofUserAndKey user key => db.getByUserAndKeyAndStateIsNotCanceled user key
  put db
    | .pixKey id, p => { db with pixKeys := db.pixKeys.upsert { p with id } }
    | .notCanceled _, _ | .keyCount _, _ | .ofUserAndKey _ _, _ => db
  output db event := { db with events := db.events ++ [event] }

theorem get_pixKey {db : Database} {id : Uuid} :
    RowStore.get db (Row.pixKey id) = db.pixKeys.get? id := rfl

/-- The row of a key depends on no other row. -/
theorem stable_pixKey (id : Uuid) : Stable Database (Row.pixKey id) where
  put db k v hk := by
    cases k with
    | pixKey id' => exact Table.get?_upsert_ne fun e => hk (congrArg Row.pixKey e)
    | notCanceled | keyCount | ofUserAndKey => rfl
  output _ _ := rfl

abbrev Program := Prog Row Row.Val PixKeyEvent Exception PixKey

/-! ### The use case -/

structure UserFound where
  document : Option String
  fullName : Option String
  deriving DecidableEq, Repr

structure Onboarding where
  accountNumber : Option String
  branch : Option String
  updatedAt : ℤ
  deriving DecidableEq, Repr

/-- What the user service and the validation packages answer to one execution, and the code that
it draws. -/
structure UserServices where
  isEmail : Option String → Except Exception Bool
  isCpf : Option String → Except Exception Bool
  getUserByUuid : Uuid → Except Exception (Option UserFound)
  getOnboardingByUserAndStatusIsFinished : Uuid → Except Exception (Option Onboarding)
  randomCode : String

/-- The bounds, and the person type of every user. -/
structure KeyConfig where
  naturalPersonMaxNumberOfKeys : ℕ
  legalPersonMaxNumberOfKeys : ℕ
  personType : Uuid → PersonType

/-- The maximum for the person type of the user. -/
def KeyConfig.maxNumberOfKeys (config : KeyConfig) (user : Uuid) : ℕ :=
  match config.personType user with
  | .NATURAL_PERSON => config.naturalPersonMaxNumberOfKeys
  | .LEGAL_PERSON => config.legalPersonMaxNumberOfKeys

/-- A plus sign and thirteen digits. -/
def isMobilePhone (phone : Option String) : Bool :=
  match phone.map String.toList with
  | some ('+' :: digits) => digits.length = 13 && digits.all Char.isDigit
  | _ => false

/-- `document.replace(/\D/g, '')`. -/
def onlyDigits (document : String) : String := String.ofList (document.toList.filter Char.isDigit)

def newPixKey (config : KeyConfig) (services : UserServices) (id user : Uuid) (type : KeyType)
    (key : Option String) (document fullName accountNumber branch : String) (updatedAt : ℤ) :
    PixKey where
  id
  type
  key :=
    match type with
    | .PHONE | .EMAIL => key
    | .CPF => some (onlyDigits document)
    | .CNPJ | .EVP => none
  personType := config.personType user
  document := onlyDigits document
  name := fullName
  tradeName := none
  user
  accountNumber
  branch
  state :=
    match type with
    | .PHONE | .EMAIL => .PENDING
    | .CPF | .CNPJ | .EVP => .CONFIRMED
  accountOpeningDate := updatedAt
  code :=
    match type with
    | .PHONE | .EMAIL => some services.randomCode
    | .CPF | .CNPJ | .EVP => none
  claim := none

/-- `create`, and the event of the new key: a second row of one id waits for the transaction that
inserts the first. -/
def insertProgram (pixKey : PixKey) : Program :=
  .readForUpdate (.pixKey pixKey.id) fun
    | some _ => .throw (.uniqueConstraint pixKey.id)
    | none =>
        .update (.pixKey pixKey.id) pixKey <|
        .output ⟨if pixKey.state = .CONFIRMED then .confirmed else .pending, pixKey, none⟩ <|
        .done pixKey

/-- The user is not trying to add the same key again. -/
def newKeyProgram (pixKey : PixKey) : Program :=
  if pixKey.type = .EVP then insertProgram pixKey
  else .read (.ofUserAndKey pixKey.user pixKey.key) fun
    | some foundKey => .throw (.pixKeyAlreadyCreated foundKey.id)
    | none => insertProgram pixKey

/-- The user has not the maximum of keys. -/
def numberOfKeysProgram (config : KeyConfig) (pixKey : PixKey) : Program :=
  .read (.keyCount pixKey.user) fun numberOfKeys =>
    Prog.check (config.personType pixKey.user = .NATURAL_PERSON ∧
        config.naturalPersonMaxNumberOfKeys ≤ numberOfKeys.getD 0)
      (.maxNumberOfPixKeysReached config.naturalPersonMaxNumberOfKeys) <|
    Prog.check (config.legalPersonMaxNumberOfKeys ≤ numberOfKeys.getD 0)
      (.maxNumberOfPixKeysReached config.legalPersonMaxNumberOfKeys) <|
    newKeyProgram pixKey

/-- The names of the texts that are absent or empty. -/
def missing (fields : List (String × Option String)) : List String :=
  (fields.filter fun f => f.2.getD "" = "").map (·.1)

/-- `CreatePixKeyUseCase`. -/
def createProgram (config : KeyConfig) (services : UserServices) (id user : Uuid) (type : KeyType)
    (key : Option String) : Program :=
  Prog.check (type = .CNPJ) .pixKeyUnsupportedCnpjType <|
  Prog.call (if type = .EMAIL then services.isEmail key else .ok true) fun isEmail =>
  Prog.check (¬ isEmail) (.invalidEmailFormat key) <|
  Prog.check (type = .PHONE ∧ ¬ isMobilePhone key) (.invalidPhoneNumberFormat key) <|
  .read (.notCanceled id) fun
    | some checkPixKey => Prog.check (checkPixKey.user ≠ user) .forbidden (.done checkPixKey)
    | none => Prog.call (services.getUserByUuid user) fun
      | none => .throw (.userNotFound user)
      | some userFound =>
          Prog.check (missing [("Document", userFound.document),
              ("FullName", userFound.fullName)] ≠ [])
            (.missingData (missing [("Document", userFound.document),
              ("FullName", userFound.fullName)])) <|
          Prog.call (services.getOnboardingByUserAndStatusIsFinished user) fun
            | none => .throw (.onboardingNotFound user)
            | some onboarding =>
                Prog.check (missing [("AccountNumber", onboarding.accountNumber),
                    ("Branch", onboarding.branch)] ≠ [])
                  (.missingData (missing [("AccountNumber", onboarding.accountNumber),
                    ("Branch", onboarding.branch)])) <|
                Prog.call (if type = .CPF then services.isCpf key else .ok true) fun isCpf =>
                Prog.check (¬ isCpf) (.invalidDocumentFormat key) <|
                numberOfKeysProgram config <|
                  newPixKey config services id user type key (userFound.document.getD "")
                    (userFound.fullName.getD "") (onboarding.accountNumber.getD "")
                    (onboarding.branch.getD "") onboarding.updatedAt

/-! ### What an execution writes -/

/-- The insertion of a row, and the event of it. -/
def insertion (p : PixKey) : List (Write Row Row.Val PixKeyEvent) :=
  [.row (.pixKey p.id) p,
    .output ⟨if p.state = .CONFIRMED then .confirmed else .pending, p, none⟩]

section

variable {seen : Database → Prop} {now : Database} {log : List (Write Row Row.Val PixKeyEvent)}
  {p r : PixKey} {config : KeyConfig}

theorem mayReturn_insert (h : (insertProgram p).MayReturn seen now [] r log) :
    now.pixKeys.get? p.id = none ∧ log = insertion p := by
  obtain ⟨db, -, hnow, h⟩ := h
  rw [replay_nil, hnow (stable_pixKey p.id), get_pixKey] at h
  cases hp : now.pixKeys.get? p.id with
  | some q =>
      rw [hp] at h
      exact h.elim
  | none =>
      rw [hp] at h
      exact ⟨rfl, h.2⟩

theorem mayReturn_newKey (h : (newKeyProgram p).MayReturn seen now [] r log) :
    now.pixKeys.get? p.id = none ∧ log = insertion p := by
  rw [newKeyProgram] at h
  split at h
  · exact mayReturn_insert h
  · obtain ⟨db, -, h⟩ := h
    cases hq : RowStore.get (replay db []) (Row.ofUserAndKey p.user p.key) with
    | some q =>
        rw [hq] at h
        exact h.elim
    | none =>
        rw [hq] at h
        exact mayReturn_insert h

theorem mayReturn_numberOfKeys (h : (numberOfKeysProgram config p).MayReturn seen now [] r log) :
    now.pixKeys.get? p.id = none ∧ log = insertion p := by
  obtain ⟨db, -, h⟩ := h
  obtain ⟨-, h⟩ := Prog.mayReturn_check.mp h
  exact mayReturn_newKey (Prog.mayReturn_check.mp h).2

end

/-- An execution writes nothing, or one row of a new id that is not canceled. -/
theorem createProgram_writes {config : KeyConfig} {services : UserServices} {id user : Uuid}
    {type : KeyType} {key : Option String} {seen : Database → Prop} {now : Database} {r : PixKey}
    {log : List (Write Row Row.Val PixKeyEvent)}
    (h : (createProgram config services id user type key).MayReturn seen now [] r log) :
    log = [] ∨
      ∃ p, log = insertion p ∧ p.state ≠ .CANCELED ∧ now.pixKeys.get? p.id = none := by
  obtain ⟨-, h⟩ := Prog.mayReturn_check.mp h
  obtain ⟨isEmail, -, h⟩ := Prog.mayReturn_call.mp h
  obtain ⟨-, h⟩ := Prog.mayReturn_check.mp h
  obtain ⟨-, db, -, h⟩ := Prog.mayReturn_check.mp h
  cases hcheck : RowStore.get (replay db []) (Row.notCanceled id) with
  | some checkPixKey =>
      rw [hcheck] at h
      exact .inl (Prog.mayReturn_check.mp h).2.2
  | none =>
      rw [hcheck] at h
      obtain ⟨userFound, -, h⟩ := Prog.mayReturn_call.mp h
      cases userFound with
      | none => exact h.elim
      | some userFound =>
          obtain ⟨-, h⟩ := Prog.mayReturn_check.mp h
          obtain ⟨onboarding, -, h⟩ := Prog.mayReturn_call.mp h
          cases onboarding with
          | none => exact h.elim
          | some onboarding =>
              obtain ⟨-, h⟩ := Prog.mayReturn_check.mp h
              obtain ⟨isCpf, -, h⟩ := Prog.mayReturn_call.mp h
              obtain ⟨-, h⟩ := Prog.mayReturn_check.mp h
              obtain ⟨hfresh, hlog⟩ := mayReturn_numberOfKeys h
              refine .inr ⟨_, hlog, ?_, hfresh⟩
              cases type <;> simp [newPixKey]

/-! ### The two rules -/

namespace Database

/-- No user has more keys than allowed, or two rows of one key value. -/
structure Ruled (config : KeyConfig) (db : Database) : Prop where
  count : ∀ user, db.countByUserAndStateIsNotCanceled user ≤ config.maxNumberOfKeys user
  unique : ∀ p ∈ db.pixKeys.rows, ∀ q ∈ db.pixKeys.rows, p.state ≠ .CANCELED →
    q.state ≠ .CANCELED → p.user = q.user → p.key = q.key → p.key ≠ none → p = q

/-- The two queries of an execution that adds the row let it pass. -/
def Admits (config : KeyConfig) (db : Database) (p : PixKey) : Prop :=
  db.countByUserAndStateIsNotCanceled p.user < config.maxNumberOfKeys p.user ∧
    (p.key ≠ none → db.getByUserAndKeyAndStateIsNotCanceled p.user p.key = none)

variable {config : KeyConfig} {db : Database} {p : PixKey}

theorem head?_eq_none {α : Type} {l : List α} : l.head? = none ↔ ∀ x, x ∉ l := by
  rw [List.head?_eq_none_iff, List.eq_nil_iff_forall_not_mem]

theorem rows_insertion (hfresh : db.pixKeys.get? p.id = none) :
    (replay db (insertion p)).pixKeys.rows = db.pixKeys.rows ++ [p] :=
  Table.rows_upsert_of_fresh hfresh

theorem count_insertion (hfresh : db.pixKeys.get? p.id = none) (hstate : p.state ≠ .CANCELED)
    (user : Uuid) :
    (replay db (insertion p)).countByUserAndStateIsNotCanceled user =
      db.countByUserAndStateIsNotCanceled user + if p.user = user then 1 else 0 := by
  rw [countByUserAndStateIsNotCanceled, notCanceled, rows_insertion hfresh, List.filter_append,
    List.length_append]
  by_cases huser : p.user = user <;>
    simp [countByUserAndStateIsNotCanceled, notCanceled, huser, hstate]

/-- A new row keeps the two rules if and only if the two queries let it pass. -/
theorem ruled_insertion_iff (h : db.Ruled config) (hfresh : db.pixKeys.get? p.id = none)
    (hstate : p.state ≠ .CANCELED) :
    (replay db (insertion p)).Ruled config ↔ db.Admits config p := by
  have hrows := rows_insertion hfresh
  constructor
  · intro h'
    refine ⟨?_, fun hkey => head?_eq_none.mpr fun q hq => ?_⟩
    · have hcount := h'.count p.user
      rw [count_insertion hfresh hstate, if_pos rfl] at hcount
      exact hcount
    · obtain ⟨hq, ⟨huser, hsame⟩, hqstate⟩ := mem_notCanceled.mp hq
      have hmem : ∀ r, r ∈ db.pixKeys.rows ∨ r = p →
          r ∈ (replay db (insertion p)).pixKeys.rows := by
        intro r hr
        rw [hrows, List.mem_append, List.mem_singleton]
        exact hr
      have heq : q = p := h'.unique q (hmem q (.inl hq)) p (hmem p (.inr rfl)) hqstate hstate
        huser hsame (hsame ▸ hkey)
      exact Table.get?_eq_none.mp hfresh q hq (congrArg PixKey.id heq)
  · rintro ⟨hcount, hnew⟩
    have apart : ∀ q ∈ db.pixKeys.rows, q.state ≠ .CANCELED → q.user = p.user → q.key = p.key →
        q.key ≠ none → False := by
      intro q hq hqstate huser hsame hkey
      refine head?_eq_none.mp (hnew (hsame ▸ hkey)) q ?_
      exact mem_notCanceled.mpr ⟨hq, ⟨huser, hsame⟩, hqstate⟩
    constructor
    · intro user
      rw [count_insertion hfresh hstate]
      by_cases huser : p.user = user
      · rw [if_pos huser, ← huser]
        exact hcount
      · rw [if_neg huser]
        exact h.count user
    · intro q hq r hr hqs hrs huser hsame hkey
      rw [hrows, List.mem_append, List.mem_singleton] at hq hr
      rcases hq with hq | rfl
      · rcases hr with hr | rfl
        · exact h.unique q hq r hr hqs hrs huser hsame hkey
        · exact (apart q hq hqs huser hsame hkey).elim
      · rcases hr with hr | rfl
        · exact (apart r hr hrs huser.symm hsame.symm (hsame ▸ hkey)).elim
        · rfl

end Database

/-! ### Side by side -/

/-- An execution of the use case. -/
structure CreateRequest where
  services : UserServices
  id : Uuid
  user : Uuid
  type : KeyType
  key : Option String

def CreateRequest.program (config : KeyConfig) (r : CreateRequest) : Program :=
  createProgram config r.services r.id r.user r.type r.key

/-- A system of executions. -/
abbrev Creations (n : ℕ) := Sys Database Row Row.Val PixKeyEvent Exception PixKey n

/-- What an execution adds is let pass by the committed rows. -/
def AdmitsInsertion (config : KeyConfig) (db : Database) :
    List (Write Row Row.Val PixKeyEvent) → Prop
  | .row (.pixKey _) p :: _ => db.Admits config p
  | _ => True

/-- The two queries of an execution that commits, asked again, would let it pass. -/
def StillAdmitted (config : KeyConfig) {n : ℕ} (s : Creations n) : Action n → Prop
  | .step i => s.Open i → (s.tx i).prog.Returns → AdmitsInsertion config s.db (s.tx i).log
  | .abort _ => True

section

variable {n : ℕ} {config : KeyConfig} {requests : Fin n → CreateRequest} {s : Creations n}
  {i : Fin n}

/-- The transactions of the requests are on their courses. -/
abbrev Creating (config : KeyConfig) (requests : Fin n → CreateRequest) (s : Creations n) : Prop :=
  s.Followed (fun _ _ => True) fun i => (requests i).program config

theorem commit_ruled_iff (h : Creating config requests s) (hr : s.db.Ruled config)
    (hopen : s.Open i) (hret : (s.tx i).prog.Returns) :
    (s.commit i).db.Ruled config ↔ AdmitsInsertion config s.db (s.tx i).log := by
  obtain ⟨r, hdone⟩ := hret.exists_done
  change (replay s.db (s.tx i).log).Ruled config ↔ _
  obtain hlog | ⟨p, hlog, hstate, hfresh⟩ := createProgram_writes (h.mayReturn hopen hdone)
  · rw [hlog]
    exact iff_of_true hr trivial
  · rw [hlog]
    exact Database.ruled_insertion_iff hr hfresh hstate

theorem act_ruled_iff (h : Creating config requests s) (hr : s.db.Ruled config) (a : Action n) :
    (s.act a).db.Ruled config ↔ StillAdmitted config s a :=
  Sys.act_iff hr (fun _ hopen hret => commit_ruled_iff h hr hopen hret) a

end

/-- In every state of a schedule no user has more keys than allowed, or two rows of one key value,
if and only if every execution commits while its two queries would still let it pass. -/
theorem ruled_iff {n : ℕ} (config : KeyConfig) (requests : Fin n → CreateRequest) (db : Database)
    (hr : db.Ruled config) (as : List (Action n)) :
    (∀ bs, bs <+: as →
      (run Sys.act (Sys.init db fun i => (requests i).program config) bs).db.Ruled config) ↔
        Along Sys.act (StillAdmitted config) (Sys.init db fun i => (requests i).program config)
          as := by
  refine along_iff (I := fun s : Creations n => Creating config requests s ∧ s.db.Ruled config)
    (fun _ h => h.2) ?_ ?_ ⟨Sys.followed_init db, hr⟩ as
  · rintro s a ⟨h, hr⟩
    exact act_ruled_iff h hr a
  · rintro s a ⟨h, hr⟩ hpass
    refine ⟨Sys.Followed.act (fun _ => trivial) (fun _ _ _ _ _ => trivial) h
      (fun _ _ _ _ => trivial) a, (act_ruled_iff h hr a).mpr hpass⟩

/-! A user who may have one key, and registers one e-mail address twice at once. -/

def oneKey : KeyConfig := ⟨1, 1, fun _ => .NATURAL_PERSON⟩

def sampleUserServices : UserServices where
  isEmail _ := .ok true
  isCpf _ := .ok true
  getUserByUuid _ := .ok (some ⟨some "12345678909", some "Ana"⟩)
  getOnboardingByUserAndStatusIsFinished _ := .ok (some ⟨some "1", some "1", 0⟩)
  randomCode := "12345"

def twoCreations : Fin 2 → CreateRequest
  | 0 => ⟨sampleUserServices, 1, 7, .EMAIL, some "ana@mail.com"⟩
  | 1 => ⟨sampleUserServices, 2, 7, .EMAIL, some "ana@mail.com"⟩

/-- Both make their three queries, then one goes on to its end, then the other. -/
def bothQueryFirst : List (Action 2) :=
  [.step 0, .step 0, .step 0, .step 1, .step 1, .step 1, .step 0, .step 0, .step 0, .step 0,
    .step 1, .step 1, .step 1, .step 1]

theorem empty_ruled (config : KeyConfig) : Database.empty.Ruled config where
  count _ := Nat.zero_le _
  unique _ hp := absurd hp List.not_mem_nil

theorem one_key_ruled_iff :
    (∀ bs, bs <+: bothQueryFirst →
      (run Sys.act (Sys.init Database.empty fun i => (twoCreations i).program oneKey)
        bs).db.Ruled oneKey) ↔
      Along Sys.act (StillAdmitted oneKey)
        (Sys.init Database.empty fun i => (twoCreations i).program oneKey) bothQueryFirst :=
  ruled_iff oneKey twoCreations Database.empty (empty_ruled oneKey) bothQueryFirst

/-- The user has two keys, both of the same address. -/
theorem both_keys_registered :
    ¬ ∀ (n : ℕ) (config : KeyConfig) (requests : Fin n → CreateRequest) (db : Database),
      (∀ i j, (requests i).id = (requests j).id → i = j) → db.Ruled config →
      ∀ as : List (Action n), (run Sys.act
        (Sys.init db fun i => (requests i).program config) as).db.Ruled config := by
  intro h
  have hdistinct : ∀ i j, (twoCreations i).id = (twoCreations j).id → i = j := by decide
  have hr := h 2 oneKey twoCreations Database.empty hdistinct (empty_ruled oneKey) bothQueryFirst
  have held : (run Sys.act (Sys.init Database.empty fun i => (twoCreations i).program oneKey)
      bothQueryFirst).db.countByUserAndStateIsNotCanceled 7 = 2 := by
    decide +kernel
  have hcount := hr.count 7
  rw [held] at hcount
  exact absurd hcount (by decide)

end ZroServices.PixKeys
