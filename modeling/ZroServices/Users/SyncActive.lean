import Mathlib.Data.List.Count
import Mathlib.Data.List.Sort
import ZroServices.Foundation.Outcome
import ZroServices.Foundation.Table

/-!
# Users — the report of the active users

`SyncUserActiveUseCase` goes through the pages of the active users, and sends a report of each.  One
user that fails does not stop the others.

The request of a later page is `{ page, ...pagination }`: the page that was written first is written
over by that of the first request.  So every page is the first one.

Users created at the same time may come in another order with each query.  Whatever these orders
are, every user that can be reported is reported once exactly when all users are on one page, or no
user can be reported (`reported_iff`).
-/

namespace ZroServices.Users.SyncActive

open Foundation

abbrev Uuid := ℕ

inductive UserState where
  | PENDING
  | ACTIVE
  | EXPIRED
  deriving DecidableEq, Repr

inductive BankOnboardingState where
  | INCOMPLETE
  | COMPLETE
  deriving DecidableEq, Repr

inductive PersonType where
  | NATURAL_PERSON
  | LEGAL_PERSON
  deriving DecidableEq, Repr

inductive RepresentorType where
  | PARTNER
  | ATTORNEY
  | ADMINISTRATOR
  | OTHER
  deriving DecidableEq, Repr

structure User where
  id : ℕ
  uuid : Uuid
  fullName : Option String
  name : String
  phoneNumber : String
  document : String
  deletedAt : Option ℤ
  createdAt : ℤ
  updatedAt : ℤ
  state : UserState
  bankOnboardingState : Option BankOnboardingState
  email : Option String
  type : PersonType
  motherName : Option String
  birthDate : Option ℤ
  genre : Option String
  deriving DecidableEq, Repr

instance : Keyed User Uuid := ⟨User.uuid⟩

structure Address where
  street : String
  number : ℕ
  city : String
  federativeUnit : String
  country : String
  zipCode : String
  complement : Option String

structure Onboarding where
  updatedAt : ℤ
  reviewAssignee : Option ℕ
  pepSince : Option String
  occupationCbo : Option ℕ

structure UserLegalAdditionalInfo where
  cnae : Option String
  constitutionDesc : Option String
  employeeQty : Option ℕ
  overseasBranchesQty : Option ℕ
  isThirdPartyRelationship : Option Bool
  isCreditCardAdmin : Option Bool
  isPatrimonyTrust : Option Bool
  isPaymentFacilitator : Option Bool
  isRegulatedPld : Option Bool
  legalNaturityCode : Option String

structure UserLegalRepresentor where
  id : Uuid
  address : Option Address
  personType : PersonType
  document : String
  name : String
  birthDate : ℤ
  type : RepresentorType
  isPublicServer : Bool
  createdAt : ℤ
  updatedAt : ℤ

structure CreateReportUser where
  id : Uuid
  uuid : Uuid
  fullName : String
  phoneNumber : String
  document : String
  deletedAt : Option ℤ
  updatedAt : ℤ
  state : UserState
  email : Option String
  type : PersonType
  motherName : Option String
  birthDate : Option ℤ
  genre : Option String
  address : Address
  onboardingUpdatedAt : ℤ
  onboardingReviewAssignee : Option ℕ
  onboardingPepSince : Option String
  occupationName : Option String
  userLegalAdditionalInfo : Option UserLegalAdditionalInfo

/-- The fields of the representor, with a new id and the user. -/
structure CreateReportUserLegalRepresentor where
  representor : UserLegalRepresentor
  id : Uuid
  user : Uuid
  userLegalRepresentorId : Uuid

inductive Exception where
  | addressNotFound (user : Uuid)
  | onboardingNotFound (user : Uuid)
  /-- Of a repository or of the report service. -/
  | raised (message : String)
  deriving DecidableEq, Repr

/-- What the repositories and the report service answer: by the user, by the code of an occupation,
or by the representor. -/
structure Calls where
  getAddressByUser : ℕ → Except Exception (Option Address)
  getByUserAndStatusIsFinished : Uuid → Except Exception (Option Onboarding)
  /-- The name of an occupation. -/
  getByCodCbo : ℕ → Except Exception (Option String)
  getAdditionalInfoByUser : Uuid → Except Exception (Option UserLegalAdditionalInfo)
  getAllByUser : Uuid → Except Exception (List UserLegalRepresentor)
  createReportUser : Uuid → Except Exception Unit
  createReportUserLegalRepresentor : Uuid → Except Exception Unit

/-- The reports that were sent. -/
structure World where
  users : List CreateReportUser
  representors : List CreateReportUserLegalRepresentor

abbrev App := EStateM Exception World

def World.uuidV4 (w : World) : Uuid :=
  fresh (w.users.map CreateReportUser.id ++
    w.representors.map CreateReportUserLegalRepresentor.id)

/-! ### The reports of a user -/

/-- One round of the loop of `sendLegalUserReport`. -/
def sendRepresentorReport (calls : Calls) (user : User) (r : UserLegalRepresentor) : App Unit := do
  let w ← get
  let data : CreateReportUserLegalRepresentor := ⟨r, w.uuidV4, user.uuid, r.id⟩
  call (calls.createReportUserLegalRepresentor r.id)
  modify fun w => { w with representors := w.representors ++ [data] }

def sendLegalUserReport (calls : Calls) (user : User) : App Unit := do
  let usersLegalRepresentors ← call (calls.getAllByUser user.uuid)
  usersLegalRepresentors.forM (sendRepresentorReport calls user)

/-- `user.fullName || user.name`. -/
def User.reportName (user : User) : String :=
  match user.fullName with
  | some fullName => if fullName = "" then user.name else fullName
  | none => user.name

/-- The name of the occupation of an onboarding, when it has one. -/
def occupationName (calls : Calls) (onboarding : Onboarding) : Except Exception (Option String) :=
  match onboarding.occupationCbo with
  | some (occupationCbo + 1) => calls.getByCodCbo (occupationCbo + 1)
  | _ => .ok none

/-- The data of a report. -/
def User.report (user : User) (id : Uuid) (address : Address) (onboarding : Onboarding)
    (occupationName : Option String) (info : Option UserLegalAdditionalInfo) :
    CreateReportUser where
  id := id
  uuid := user.uuid
  fullName := user.reportName
  phoneNumber := user.phoneNumber
  document := user.document
  deletedAt := user.deletedAt
  updatedAt := user.updatedAt
  state := user.state
  email := user.email
  type := user.type
  motherName := user.motherName
  birthDate := user.birthDate
  genre := user.genre
  address := address
  onboardingUpdatedAt := onboarding.updatedAt
  onboardingReviewAssignee := onboarding.reviewAssignee
  onboardingPepSince := onboarding.pepSince
  occupationName := occupationName
  userLegalAdditionalInfo := info

def sendUserReport (calls : Calls) (user : User) : App Unit := do
  let address ← call (calls.getAddressByUser user.id)
  let address ← orThrow address (.addressNotFound user.uuid)
  let onboarding ← call (calls.getByUserAndStatusIsFinished user.uuid)
  let onboarding ← orThrow onboarding (.onboardingNotFound user.uuid)
  let w ← get
  let id := w.uuidV4
  let occupationName ← call (occupationName calls onboarding)
  let info ← call (calls.getAdditionalInfoByUser user.uuid)
  call (calls.createReportUser user.uuid)
  modify fun w =>
    { w with users := w.users ++ [user.report id address onboarding occupationName info] }

/-- What is tried for a user. -/
def sendReports (calls : Calls) (user : User) : App Unit := do
  if user.type = .LEGAL_PERSON then
    sendLegalUserReport calls user
  sendUserReport calls user

/-- One round of the loop over the users: what is thrown is logged. -/
def syncUser (calls : Calls) (w : World) (user : User) : World := left (sendReports calls user) w

/-! ### The pages -/

/-- The users are sorted by their creation, those created first before the others. -/
structure Pagination where
  page : ℕ
  pageSize : ℕ

structure TPaginationResponse where
  data : List User
  pageTotal : ℕ

def Active (user : User) : Prop :=
  user.state = .ACTIVE ∧ user.bankOnboardingState = some .COMPLETE

instance : DecidablePred Active := fun _ => inferInstanceAs (Decidable (_ ∧ _))

def active (users : Table User) : List User := users.rows.filter Active

/-- A page of the active users in an order of the database. -/
def getAllActiveAndBankOnboardingStateIsCompleteUsers (order : List User)
    (pagination : Pagination) : TPaginationResponse where
  data := (order.drop ((pagination.page - 1) * pagination.pageSize)).take pagination.pageSize
  pageTotal := (order.length + pagination.pageSize - 1) / pagination.pageSize

/-- `{ page, ...pagination }`: of a field that is written twice, the last counts. -/
def spread (page : ℕ) (pagination : Pagination) : Pagination :=
  let written : Pagination := ⟨page, 0⟩
  { written with
    page := pagination.page
    pageSize := pagination.pageSize }

def firstPagination : Pagination := ⟨1, 100⟩

/-- The `while` loop, for as many rounds as there is fuel.  The database orders the users in
`orders n` for the query of page `n + 1`. -/
def syncPages (calls : Calls) (orders : ℕ → List User) :
    ℕ → ℕ → TPaginationResponse → World → Option World
  | 0, _, _, _ => none
  | fuel + 1, page, activeUsersPaginated, w =>
      if page ≤ activeUsersPaginated.pageTotal then
        let w := activeUsersPaginated.data.foldl (syncUser calls) w
        let activeUsersPaginated :=
          if page + 1 ≤ activeUsersPaginated.pageTotal then
            getAllActiveAndBankOnboardingStateIsCompleteUsers (orders page)
              (spread (page + 1) firstPagination)
          else activeUsersPaginated
        syncPages calls orders fuel (page + 1) activeUsersPaginated w
      else some w

/-- `SyncUserActiveUseCase.execute`. -/
def execute (calls : Calls) (orders : ℕ → List User) (fuel : ℕ) : Option World :=
  syncPages calls orders fuel 1
    (getAllActiveAndBankOnboardingStateIsCompleteUsers (orders 0) firstPagination) ⟨[], []⟩

/-! ### What is to be reported -/

/-- A call returned. -/
def Returned {α : Type} (x : Except Exception α) : Prop := ∃ a, x = .ok a

/-- No call for the reports of the representors raises. -/
def RepresentorsReportable (calls : Calls) (user : User) : Prop :=
  ∃ rs, calls.getAllByUser user.uuid = .ok rs ∧
    ∀ r ∈ rs, Returned (calls.createReportUserLegalRepresentor r.id)

/-- A user has an address and a finished onboarding, and no call for its reports raises. -/
structure Reportable (calls : Calls) (user : User) : Prop where
  representors : user.type = .LEGAL_PERSON → RepresentorsReportable calls user
  address : ∃ address, calls.getAddressByUser user.id = .ok (some address)
  onboarding : ∃ onboarding, calls.getByUserAndStatusIsFinished user.uuid = .ok (some onboarding) ∧
    Returned (occupationName calls onboarding)
  info : Returned (calls.getAdditionalInfoByUser user.uuid)
  report : Returned (calls.createReportUser user.uuid)

/-- An order of the active users: by their creation. -/
structure Order (users : Table User) (order : List User) : Prop where
  perm : order.Perm (active users)
  sorted : order.Pairwise fun u v => u.createdAt ≤ v.createdAt

/-- The users of the reports that were sent. -/
def World.reported (w : World) : List Uuid := w.users.map CreateReportUser.uuid

/-- Each active user that can be reported is reported once. -/
def EachOnce (calls : Calls) (users : Table User) (w : World) : Prop :=
  ∀ user ∈ active users, Reportable calls user → w.reported.count user.uuid = 1

variable {calls : Calls} {users : Table User} {user : User} {orders : ℕ → List User}
  {order : List User}

/-! ### What is sent for a user -/

theorem not_returned {α : Type} {x : Except Exception α} {e : Exception} (h : x = .error e) :
    ¬ Returned x := by
  rintro ⟨a, ha⟩
  rw [h] at ha
  cases ha

theorem outcome_representors (calls : Calls) (user : User) (rs : List UserLegalRepresentor)
    (w : World) :
    Outcome (rs.forM (sendRepresentorReport calls user)) w
      (fun _ w' => (∀ r ∈ rs, Returned (calls.createReportUserLegalRepresentor r.id)) ∧
        w'.users = w.users)
      fun _ w' => (¬ ∀ r ∈ rs, Returned (calls.createReportUserLegalRepresentor r.id)) ∧
        w'.users = w.users := by
  refine (outcome_forM (p := World.users) (g := fun w r =>
    { w with representors := w.representors ++ [⟨r, w.uuidV4, user.uuid, r.id⟩] }) ?_
    (fun _ _ => rfl) rs w).mono (fun _ _ h => ⟨h.1, h.2.2⟩) fun _ _ h => h
  intro r w
  rw [sendRepresentorReport, outcome_bind, outcome_get, outcome_bind, outcome_call]
  exact ⟨fun e he => ⟨not_returned he, rfl⟩, fun sent hsent => ⟨⟨sent, hsent⟩, rfl⟩⟩

theorem outcome_sendLegalUserReport (calls : Calls) (user : User) (w : World) :
    Outcome (sendLegalUserReport calls user) w
      (fun _ w' => RepresentorsReportable calls user ∧ w'.users = w.users)
      fun _ w' => ¬ RepresentorsReportable calls user ∧ w'.users = w.users := by
  rw [sendLegalUserReport, outcome_bind, outcome_call]
  refine ⟨fun e he => ⟨?_, rfl⟩, fun rs hrs => ?_⟩
  · rintro ⟨rs, hrs, -⟩
    rw [he] at hrs
    cases hrs
  · refine (outcome_representors calls user rs w).mono ?_ ?_
    · rintro _ w' ⟨hall, hw'⟩
      exact ⟨⟨rs, hrs, hall⟩, hw'⟩
    · rintro _ w' ⟨hall, hw'⟩
      refine ⟨?_, hw'⟩
      rintro ⟨rs', hrs', hall'⟩
      obtain rfl := Except.ok.inj (hrs.symm.trans hrs')
      exact hall hall'

/-- A user is reported when it can be, and nothing is reported otherwise. -/
theorem outcome_sendUserReport (w : World)
    (hrepresentors : user.type = .LEGAL_PERSON → RepresentorsReportable calls user) :
    Outcome (sendUserReport calls user) w
      (fun _ w' => Reportable calls user ∧ w'.reported = w.reported ++ [user.uuid])
      fun _ w' => ¬ Reportable calls user ∧ w'.reported = w.reported := by
  simp only [sendUserReport, outcome_bind, outcome_call, outcome_orThrow, outcome_get,
    outcome_modify, and_true]
  constructor
  · rintro e he ⟨-, ⟨address, haddress⟩, -, -, -⟩
    cases he.symm.trans haddress
  · rintro _ haddress
    constructor
    · rintro rfl ⟨-, ⟨address, haddress'⟩, -, -, -⟩
      cases haddress.symm.trans haddress'
    · rintro address rfl
      constructor
      · rintro e he ⟨-, -, ⟨onboarding, honboarding, -⟩, -, -⟩
        cases he.symm.trans honboarding
      · rintro _ honboarding
        constructor
        · rintro rfl ⟨-, -, ⟨onboarding, honboarding', -⟩, -, -⟩
          cases honboarding.symm.trans honboarding'
        · rintro onboarding rfl
          constructor
          · rintro e he ⟨-, -, ⟨onboarding', honboarding', hname⟩, -, -⟩
            cases honboarding.symm.trans honboarding'
            exact not_returned he hname
          · intro name hname
            exact ⟨fun e he h => not_returned he h.info, fun info hinfo =>
              ⟨fun e he h => not_returned he h.report, fun sent hsent =>
                ⟨⟨hrepresentors, ⟨address, haddress⟩, ⟨onboarding, honboarding, name, hname⟩,
                  ⟨info, hinfo⟩, ⟨sent, hsent⟩⟩, List.map_append⟩⟩⟩

theorem outcome_sendReports (calls : Calls) (user : User) (w : World) :
    Outcome (sendReports calls user) w
      (fun _ w' => Reportable calls user ∧ w'.reported = w.reported ++ [user.uuid])
      fun _ w' => ¬ Reportable calls user ∧ w'.reported = w.reported := by
  rw [sendReports]
  split_ifs with htype
  · rw [outcome_bind]
    refine (outcome_sendLegalUserReport calls user w).mono ?_ ?_
    · rintro _ w₁ ⟨hrepresentors, hw₁⟩
      have hreported : w₁.reported = w.reported := congrArg (List.map CreateReportUser.uuid) hw₁
      rw [← hreported]
      exact outcome_sendUserReport w₁ fun _ => hrepresentors
    · rintro _ w₁ ⟨hrepresentors, hw₁⟩
      exact ⟨fun h => hrepresentors (h.representors htype),
        congrArg (List.map CreateReportUser.uuid) hw₁⟩
  · exact outcome_sendUserReport w fun h => absurd h htype

theorem count_syncUser_self (h : Reportable calls user) (w : World) :
    (syncUser calls w user).reported.count user.uuid = w.reported.count user.uuid + 1 := by
  refine (left_iff (P := fun w' : World => w'.reported.count user.uuid = _)).mpr
    ((outcome_sendReports calls user w).mono ?_ ?_)
  · rintro _ w' ⟨-, hw'⟩
    rw [hw', List.count_append, List.count_singleton_self]
  · rintro _ w' ⟨hnot, -⟩
    exact absurd h hnot

theorem count_syncUser_ne {uuid : Uuid} (h : user.uuid ≠ uuid) (w : World) :
    (syncUser calls w user).reported.count uuid = w.reported.count uuid := by
  refine (left_iff (P := fun w' : World => w'.reported.count uuid = _)).mpr
    ((outcome_sendReports calls user w).mono ?_ ?_)
  · rintro _ w' ⟨-, hw'⟩
    rw [hw', List.count_append, List.count_singleton, if_neg (by simpa using h), add_zero]
  · rintro _ w' ⟨-, hw'⟩
    rw [hw']

/-- A user is reported as often as it is among those that the loop tries. -/
theorem count_foldl (hunique : ∀ u ∈ order, u.uuid = user.uuid → u = user)
    (hreportable : Reportable calls user) (w : World) :
    (order.foldl (syncUser calls) w).reported.count user.uuid =
      w.reported.count user.uuid + order.count user := by
  induction order generalizing w with
  | nil => rfl
  | cons u order ih =>
      obtain ⟨hu, hrest⟩ := List.forall_mem_cons.mp hunique
      rw [List.foldl_cons, ih hrest, List.count_cons]
      by_cases hsame : u = user
      · subst hsame
        rw [count_syncUser_self hreportable, if_pos (beq_self_eq_true u)]
        omega
      · rw [count_syncUser_ne fun h => hsame (hu h), if_neg (by simpa using hsame), add_zero]

/-! ### The loop -/

/-- The users that one round tries after another: the first page of each query. -/
def tried (orders : ℕ → List User) (first rounds : ℕ) : List User :=
  (List.range' first rounds).flatMap fun i => (orders i).take 100

def pageTotal (n : ℕ) : ℕ := (n + 100 - 1) / 100

/-- Every query answers with its first page. -/
theorem firstPage (order : List User) (page : ℕ) :
    getAllActiveAndBankOnboardingStateIsCompleteUsers order (spread page firstPagination) =
      ⟨order.take 100, pageTotal order.length⟩ := rfl

/-- The loop makes as many rounds as there are pages left. -/
theorem syncPages_eq {n : ℕ} (hlength : ∀ i, (orders i).length = n) (rounds fuel first : ℕ)
    (hrounds : first + rounds = pageTotal n) (w : World) :
    syncPages calls orders fuel (first + 1) ⟨(orders first).take 100, pageTotal n⟩ w =
      if rounds < fuel then some ((tried orders first rounds).foldl (syncUser calls) w)
      else none := by
  induction rounds generalizing fuel first w with
  | zero =>
      cases fuel with
      | zero => rfl
      | succ fuel =>
          rw [syncPages, if_neg (by dsimp only; omega), if_pos (Nat.succ_pos fuel)]
          rfl
  | succ rounds ih =>
      cases fuel with
      | zero => rfl
      | succ fuel =>
          rw [syncPages, if_pos (by dsimp only; omega), tried, List.range'_succ, List.flatMap_cons,
            List.foldl_append]
          cases rounds with
          | zero =>
              -- the page after the last is not asked for
              cases fuel with
              | zero => rfl
              | succ fuel =>
                  dsimp only
                  rw [if_neg (by omega), syncPages, if_neg (by dsimp only; omega),
                    if_pos (by omega)]
                  rfl
          | succ rounds =>
              dsimp only
              rw [if_pos (by omega), firstPage, hlength, ih fuel (first + 1) (by omega)]
              simp only [Nat.add_lt_add_iff_right, tried]

/-- Every run ends, and tries the first page of every query. -/
theorem execute_eq_some {n fuel : ℕ} {w' : World} (hlength : ∀ i, (orders i).length = n) :
    execute calls orders fuel = some w' ↔
      pageTotal n < fuel ∧ (tried orders 0 (pageTotal n)).foldl (syncUser calls) ⟨[], []⟩ = w' := by
  have hfirst : getAllActiveAndBankOnboardingStateIsCompleteUsers (orders 0) firstPagination =
      ⟨(orders 0).take 100, pageTotal n⟩ := by rw [← hlength 0]; rfl
  rw [execute, hfirst, syncPages_eq hlength (pageTotal n) fuel 0 (Nat.zero_add _)]
  split_ifs with hfuel
  · simp only [Option.some.injEq, hfuel, true_and]
  · simp only [hfuel, false_and]

theorem count_tried_const (order : List User) (user : User) (first rounds : ℕ) :
    (tried (fun _ => order) first rounds).count user = rounds * (order.take 100).count user := by
  induction rounds generalizing first with
  | zero => rw [Nat.zero_mul]; rfl
  | succ rounds ih =>
      rw [tried, List.range'_succ, List.flatMap_cons, List.count_append, ← tried, ih]
      rw [Nat.succ_mul, Nat.add_comm]

/-- There is an order of the users. -/
theorem exists_order (users : Table User) : ∃ order, Order users order := by
  refine ⟨(active users).mergeSort fun u v => u.createdAt ≤ v.createdAt,
    List.mergeSort_perm _ _, ?_⟩
  refine (List.pairwise_mergeSort ?_ ?_ (active users)).imp fun h => of_decide_eq_true h
  · intro a b c hab hbc
    exact decide_eq_true ((of_decide_eq_true hab).trans (of_decide_eq_true hbc))
  · intro a b
    rw [Bool.or_eq_true, decide_eq_true_eq, decide_eq_true_eq]
    exact le_total a.createdAt b.createdAt

theorem count_reported (horders : ∀ i, Order users (orders i)) (hreportable : Reportable calls user)
    (huser : user ∈ active users) (rounds : ℕ) :
    ((tried orders 0 rounds).foldl (syncUser calls) ⟨[], []⟩).reported.count user.uuid =
      (tried orders 0 rounds).count user := by
  rw [count_foldl ?_ hreportable]
  · exact Nat.zero_add _
  · intro u hu hsame
    obtain ⟨i, -, hi⟩ := List.mem_flatMap.mp hu
    have hactive : u ∈ active users := (horders i).perm.mem_iff.mp (List.mem_of_mem_take hi)
    exact users.eq_of_key (List.mem_of_mem_filter hactive) (List.mem_of_mem_filter huser) hsame

/-- Where one user is reported once in the same order for every query, there is one page. -/
theorem pageTotal_of_once
    (hall : ∀ orders, (∀ i, Order users (orders i)) →
      ∃ fuel w', execute calls orders fuel = some w' ∧ EachOnce calls users w')
    (huser : user ∈ active users) (hreportable : Reportable calls user) :
    pageTotal (active users).length = 1 := by
  obtain ⟨order, horder⟩ := exists_order users
  obtain ⟨fuel, w', hrun, honce⟩ := hall (fun _ => order) fun _ => horder
  obtain ⟨-, rfl⟩ := (execute_eq_some fun _ => horder.perm.length_eq).mp hrun
  have hcount := honce user huser hreportable
  rw [count_reported (fun _ => horder) hreportable huser, count_tried_const] at hcount
  exact Nat.eq_one_of_mul_eq_one_right hcount

/-- Whatever the orders of the database are, every user that can be reported is reported once when
there is one page, or no user that can be reported. -/
theorem reported_iff :
    (∀ orders, (∀ i, Order users (orders i)) →
        ∃ fuel w', execute calls orders fuel = some w' ∧ EachOnce calls users w') ↔
      (active users).length ≤ 100 ∨ ∀ user ∈ active users, ¬ Reportable calls user := by
  constructor
  · intro hall
    by_contra hnot
    obtain ⟨hmany, hsome⟩ := not_or.mp hnot
    obtain ⟨user, huser, hreportable⟩ : ∃ user ∈ active users, Reportable calls user := by
      simpa using hsome
    have hpages := pageTotal_of_once hall huser hreportable
    rw [pageTotal] at hpages
    omega
  · intro hcond orders horders
    have hlength : ∀ i, (orders i).length = (active users).length := fun i =>
      (horders i).perm.length_eq
    refine ⟨_, _, (execute_eq_some hlength).mpr ⟨Nat.lt_succ_self _, rfl⟩, ?_⟩
    intro user huser hreportable
    rcases hcond with hone | hnone
    · have hpos : 0 < (active users).length := List.length_pos_of_mem huser
      have hpages : pageTotal (active users).length = 1 := by rw [pageTotal]; omega
      have htried : tried orders 0 1 = orders 0 := by
        have hall : (orders 0).take 100 = orders 0 := List.take_of_length_le (hlength 0 ▸ hone)
        simp [tried, hall]
      have hnodup : (active users).Nodup := (List.Nodup.of_map _ users.nodup).filter _
      rw [hpages, count_reported horders hreportable huser, htried, (horders 0).perm.count_eq]
      exact List.count_eq_one_of_mem hnodup huser
    · exact absurd hreportable (hnone user huser)

/-! ### Two pages -/

namespace Sample

/-- Every call returns, and no user is a company. -/
def calm : Calls where
  getAddressByUser _ := .ok (some ⟨"street", 1, "city", "PE", "BR", "1", none⟩)
  getByUserAndStatusIsFinished _ := .ok (some ⟨0, none, none, none⟩)
  getByCodCbo _ := .ok none
  getAdditionalInfoByUser _ := .ok none
  getAllByUser _ := .ok []
  createReportUser _ := .ok ()
  createReportUserLegalRepresentor _ := .ok ()

def member (i : ℕ) : User :=
  ⟨i, i, none, "name", "phone", "document", none, 0, 0, .ACTIVE, some .COMPLETE, none,
    .NATURAL_PERSON, none, none, none⟩

theorem nodup_members (n : ℕ) : (((List.range n).map member).map Keyed.key).Nodup := by
  rw [List.map_map]
  exact (List.map_id (List.range n)).symm ▸ List.nodup_range

/-- One user more than a page has. -/
def many : Table User := ⟨(List.range 101).map member, nodup_members 101⟩

theorem active_many : active many = (List.range 101).map member := by
  refine List.filter_eq_self.mpr fun user huser => ?_
  obtain ⟨i, -, rfl⟩ := List.mem_map.mp huser
  rfl

theorem reportable_member (i : ℕ) : Reportable calm (member i) where
  representors h := by cases h
  address := ⟨_, rfl⟩
  onboarding := ⟨_, rfl, none, rfl⟩
  info := ⟨none, rfl⟩
  report := ⟨(), rfl⟩

end Sample

open Sample

theorem not_reported : ¬ ∀ orders, (∀ i, Order many (orders i)) →
    ∃ fuel w', execute calm orders fuel = some w' ∧ EachOnce calm many w' := by
  intro hall
  have hmember : member 0 ∈ active many := by
    rw [active_many]
    exact List.mem_map_of_mem (List.mem_range.mpr (by decide))
  have hpages := pageTotal_of_once hall hmember (reportable_member 0)
  rw [active_many, List.length_map, List.length_range] at hpages
  revert hpages
  decide

end ZroServices.Users.SyncActive
