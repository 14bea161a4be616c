import ZroServices.Operations.Created
import ZroServices.Operations.RevertedEvent
import ZroServices.Operations.Settle

/-!
# Operations — the service over time

The service is a state and the commands that reach it, one after the other, each at its own
instant: create, accept and revert an operation, each in a transaction of its own, and deliver an
event to the handler of reverted operations.  `Db.events` is the queue: an event enters it at
commit and leaves it when it is delivered, so it is handled at most once, at any later time.

A step is taken apart into *changes* of the database (`Change`), each with everything that was
found and checked for it.  `step_changes` is the only place where the code of a use case and an
invariant meet: an invariant is proved for a change (`Change`), and holds after every run
(`Change.invariant`).
-/

namespace ZroServices

open Foundation

/-- The service, and the instant of the last command. -/
structure State where
  world : World
  clock : ℤ

inductive Command where
  | create (transactionTypeTag : String)
      (ownerInfo beneficiaryInfo : Option CreateOperationParticipant)
  | accept (id : Uuid)
  | revert (id : Uuid)
  | deliver (n : ℕ)

/-- Deliver the `n`-th event of the queue to the handler, if it is of a reverted operation. -/
def deliver (env : Env) (now : ℤ) (n : ℕ) (w : World) : World :=
  match w.db.events[n]? with
  | some (.operation .REVERTED e) =>
      (HandleRevertedOperationEventController.execute env now e).exec
        { w with db := w.db.consume n }
  | _ => w

/-- The world after a command. -/
def execCommand (env : Env) (now : ℤ) (w : World) : Command → World
  | .create tag ownerInfo beneficiaryInfo =>
      (atomic (CreateOperationUseCase.execute env now tag ownerInfo beneficiaryInfo)).exec w
  | .accept id => (atomic (App.ofProg (AcceptOperationUseCase.execute id))).exec w
  | .revert id => (atomic (App.ofProg (RevertOperationUseCase.execute now id))).exec w
  | .deliver n => deliver env now n w

/-- One command, at an instant. -/
def step (env : Env) (s : State) (l : ℤ × Command) : State :=
  ⟨execCommand env l.1 s.world l.2, l.1⟩

/-- Time does not go back. -/
def Forward (s : State) (l : ℤ × Command) : Prop := s.clock ≤ l.1

instance (s : State) (l : ℤ × Command) : Decidable (Forward s l) :=
  inferInstanceAs (Decidable (_ ≤ _))

/-! ### Changes -/

open CreateOperationUseCase AcceptOperationUseCase RevertOperationUseCase
open HandleRevertedOperationEventUseCase HandleRevertedOperationEventController

/-- What is known of an operation when it is stored. -/
structure Opening (env : Env) (now : ℤ) (transactionType : TransactionType) (db : Db)
    (i : OperationInfo) : Prop where
  ofType : transactionType ∈ env.transactionTypes
  owner : ∀ o, i.ownerSide = some o →
    db.walletAccounts.get? o.walletAccount.id = some o.walletAccount ∧
    db.wallets.get? o.walletAccount.wallet = some o.wallet
  beneficiary : ∀ b, i.beneficiarySide = some b →
    ∃ a, db.walletAccounts.get? b.walletAccount.id = some a ∧
      a.currency = b.walletAccount.currency ∧ db.wallets.get? a.wallet = some b.wallet
  currency : ∀ o b, i = .shared o b →
    o.walletAccount.currency.id = b.walletAccount.currency.id
  charging : Charging env now transactionType db i.charged i.value i.userLimitTracker
  value_nonneg : 0 ≤ i.value

/-- What delivering the `n`-th event does to the database. -/
inductive Delivered (env : Env) (now : ℤ) (db : Db) (n : ℕ) : Db → Prop
  | dropped (e : OperationControllerEvent) (he : db.events[n]? = some (.operation .REVERTED e))
      (h : ∀ o c, e.ownerOperation = some o →
        Finds db (attachedTracker o e.beneficiaryOperation) c → o.item.analysisTags = []) :
      Delivered env now db n (db.consume n)
  | given (o : OperationEventItem) (b : Option OperationEventItem) (c : TrackedLimit)
      (he : db.events[n]? = some (.operation .REVERTED ⟨some o, b⟩))
      (htags : o.item.analysisTags ≠ []) (h : Finds db (attachedTracker o b) c) :
      Delivered env now db n (givenBack env now o.item c (db.consume n))

/-- The pieces of which the commands' effects on the database are made. -/
inductive Change (env : Env) (now : ℤ) : Db → Db → Prop
  | limitCreated {db db' : Db} (h : db.LimitCreated env db') : Change env now db db'
  | opened {db : Db} (transactionType : TransactionType) (i : OperationInfo)
      (t : Table Operation) (h : Opening env now transactionType db i)
      (hins : db.operations.insert? (i.operation env now transactionType) = some t) :
      Change env now db (i.store env now t db)
  | linked {db : Db} (o : Operation) (other : Uuid) (h : db.operations.get? o.id = some o) :
      Change env now db { db with operations := db.operations.set (linked o other) }
  | sent {db : Db} (e : OperationControllerEvent) :
      Change env now db { db with events := db.events ++ [.operation .PENDING e] }
  | accepted {db db' : Db} (o : Operation) (h : Accepted db o db') : Change env now db db'
  | reverted {db db' : Db} (o : Operation) (h : Reverted now db o db') : Change env now db db'
  | delivered {db db' : Db} (n : ℕ) (h : Delivered env now db n db') : Change env now db db'

/-- Any number of changes. -/
abbrev Changes (env : Env) (now : ℤ) : Db → Db → Prop := Relation.ReflTransGen (Change env now)

section
variable {env : Env} {now : ℤ} {w w' : World}

theorem atomic_exec_db {α : Type} {x : App α} {w : World} :
    ((atomic x).exec w).db = w.db ∨ ∃ a w', x w = .ok a w' ∧ (atomic x).exec w = w' := by
  rw [App.exec]
  cases h : atomic x w with
  | ok a w' => exact Or.inr ⟨a, w', atomic_ok.mp h, rfl⟩
  | error e w' => exact Or.inl (atomic_error h).1

/-- An accept takes effect, or leaves the database as it was. -/
theorem accept_exec (id : Uuid) (w : World) :
    (execCommand env now w (.accept id)).db = w.db ∨
      ∃ o, Accepted w.db o (execCommand env now w (.accept id)).db := by
  rw [execCommand]
  rcases atomic_exec_db (x := App.ofProg (AcceptOperationUseCase.execute id)) (w := w) with
    h | ⟨r, w', h, hw⟩
  · exact Or.inl h
  · obtain ⟨db, hrun, rfl⟩ := ofProg_ok.mp h
    obtain ⟨o, -, ha⟩ := accept_ok hrun
    rw [hw]
    exact Or.inr ⟨o, ha⟩

/-- A revert takes effect, or leaves the database as it was. -/
theorem revert_exec (id : Uuid) (w : World) :
    (execCommand env now w (.revert id)).db = w.db ∨
      ∃ o, Reverted now w.db o (execCommand env now w (.revert id)).db := by
  rw [execCommand]
  rcases atomic_exec_db (x := App.ofProg (RevertOperationUseCase.execute now id)) (w := w) with
    h | ⟨r, w', h, hw⟩
  · exact Or.inl h
  · obtain ⟨db, hrun, rfl⟩ := ofProg_ok.mp h
    rw [hw]
    obtain ⟨o, -, -, ⟨-, rfl⟩ | hr⟩ := revert_ok hrun
    · exact Or.inl rfl
    · exact Or.inr ⟨o, hr⟩

/-- A delivery finds no event of a reverted operation, or handles it. -/
theorem deliver_exec (n : ℕ) (w : World) :
    (execCommand env now w (.deliver n)).db = w.db ∨
      Delivered env now w.db n (execCommand env now w (.deliver n)).db := by
  rw [execCommand, deliver]
  split
  · rename_i e he
    right
    by_cases hgiven : ∃ o c, e.ownerOperation = some o ∧
        Finds w.db (attachedTracker o e.beneficiaryOperation) c ∧ o.item.analysisTags ≠ []
    · obtain ⟨o, c, ho, hfinds, htags⟩ := hgiven
      obtain ⟨o', b⟩ := e
      cases ho
      rw [exec_given (w := { w with db := w.db.consume n }) o b htags (c := c) hfinds]
      exact .given o b c he htags hfinds
    · have stop : ∀ o c, e.ownerOperation = some o →
          Finds w.db (attachedTracker o e.beneficiaryOperation) c → o.item.analysisTags = [] :=
        fun o c ho hc => not_not.mp fun ht => hgiven ⟨o, c, ho, hc, ht⟩
      rw [exec_stop (w := { w with db := w.db.consume n }) e stop]
      exact .dropped e he stop
  · exact Or.inl rfl

/-- A create takes effect, or leaves the database as it was. -/
theorem create_exec (tag : String) (ownerInfo beneficiaryInfo : Option CreateOperationParticipant)
    (w : World) :
    (execCommand env now w (.create tag ownerInfo beneficiaryInfo)).db = w.db ∨
      ∃ r tt owner beneficiary db₁ db₂ db₃,
        Execution env now tag ownerInfo beneficiaryInfo w
          (execCommand env now w (.create tag ownerInfo beneficiaryInfo)) r tt owner beneficiary
          db₁ db₂ db₃ := by
  rw [execCommand]
  rcases atomic_exec_db
      (x := CreateOperationUseCase.execute env now tag ownerInfo beneficiaryInfo) (w := w) with
    h | ⟨r, w', h, hw⟩
  · exact Or.inl h
  · rw [hw]
    exact Or.inr ⟨r, execute_ok h⟩

/-! ### The changes of a created operation -/

namespace CreateOperationUseCase

section
variable {tag : String} {ownerInfo beneficiaryInfo : Option CreateOperationParticipant}
  {r : CreatedOperation} {tt : TransactionType} {owner : Option OwnerSide}
  {beneficiary : Option BeneficiarySide} {db db₁ db₂ db₃ : Db} {i : OperationInfo}
  {o : OwnerSide} {b : BeneficiarySide}

section

variable (h : Execution env now tag ownerInfo beneficiaryInfo w w' r tt owner beneficiary db₁ db₂ db₃)
include h

/-- What is charged for the stored operation was checked before. -/
theorem Execution.charging (ho : ∀ o, i.ownerSide = some o → owner = some o)
    (hb : ∀ b, i.beneficiarySide = some b → beneficiary = some b) (hx : Extends db₂ db) :
    Charging env now tt db i.charged i.value i.userLimitTracker := by
  have grown := (limitCreated_extends h.beneficiaryLimit).trans hx
  cases i with
  | owner o => exact (h.ownerChecked o (ho o rfl)).limit.extend grown (le_refl _)
  | shared o b => exact (h.ownerChecked o (ho o rfl)).limit.extend grown (le_refl _)
  | beneficiary b =>
      refine (h.beneficiaryChecked b (hb b rfl)).extend hx ?_
      change -b.info.fee + b.info.rawValue ≤ b.info.rawValue
      have := b.info.fee_nonneg
      omega

theorem Execution.opening (ho : ∀ o, i.ownerSide = some o → owner = some o)
    (hb : ∀ b, i.beneficiarySide = some b → beneficiary = some b)
    (hcurrency : ∀ o b, i = .shared o b →
      o.walletAccount.currency.id = b.walletAccount.currency.id)
    (hv : 0 ≤ i.value) : Opening env now tt db₂ i where
  ofType := List.mem_of_find?_eq_some h.transactionType
  owner o e := by
    have loaded := h.ownerLoaded o (ho o e)
    rw [h.beneficiaryLimit.walletAccounts, h.ownerLimit.walletAccounts,
      h.beneficiaryLimit.wallets, h.ownerLimit.wallets, loaded.ofWallet]
    have wallet := loaded.wallet
    rw [← Table.key_of_get? wallet] at wallet
    exact ⟨loaded.walletAccount, wallet⟩
  beneficiary b e := by
    have loaded := h.beneficiaryLoaded b (hb b e)
    rw [h.beneficiaryLimit.walletAccounts, h.ownerLimit.walletAccounts,
      h.beneficiaryLimit.wallets, h.ownerLimit.wallets]
    have wallet := loaded.wallet
    rw [← Table.key_of_get? wallet] at wallet
    exact ⟨_, loaded.walletAccount, rfl, loaded.ofWallet ▸ wallet⟩
  currency := hcurrency
  charging := h.charging ho hb (Extends.refl db₂)
  value_nonneg := hv

end

theorem Loaded.ne_of_currency {p q : LoadedParticipant} (hp : Loaded env db p)
    (hq : Loaded env db q) (hne : p.walletAccount.currency.id ≠ q.walletAccount.currency.id) :
    p.walletAccount.id ≠ q.walletAccount.id := by
  intro e
  have := hp.walletAccount
  rw [e, hq.walletAccount, Option.some_inj] at this
  exact hne (congrArg (·.currency.id) this.symm)

/-- Storing an operation that is charged to no tracker leaves limits and trackers as they are. -/
theorem extends_store {t : Table Operation} (hi : i.userLimitTracker = none)
    (hins : db.operations.insert? (i.operation env now tt) = some t) :
    Extends db (i.store env now t db) where
  find _ _ _ h := h
  trackers := by
    change i.userLimitTrackers env now db.userLimitTrackers = _
    rw [OperationInfo.userLimitTrackers, hi]
  refers o ho id e := by
    rcases (Table.mem_insert? hins).mp ho with ho | rfl
    · exact ⟨o, ho, e⟩
    · rw [OperationInfo.operation_userLimitTracker, hi] at e
      cases e

/-- The beneficiary's operation of two, stored after the owner's. -/
theorem Execution.opening_second {t : Table Operation}
    (h : Execution env now tag ownerInfo beneficiaryInfo w w' r tt (some o) (some b) db₁ db₂ db₃)
    (hne : o.walletAccount.currency.id ≠ b.walletAccount.currency.id)
    (hins : db₂.operations.insert? ((OperationInfo.owner o).operation env now tt) = some t)
    (hv : 0 ≤ (OperationInfo.beneficiary b).value) :
    Opening env now tt ((OperationInfo.owner o).store env now t db₂) (.beneficiary b) := by
  have isOwner : ∀ s, (OperationInfo.beneficiary b).ownerSide = some s → some o = some s :=
    fun s e => by cases e
  have isBeneficiary : ∀ s, (OperationInfo.beneficiary b).beneficiarySide = some s →
      some b = some s := fun s e => e
  have first := h.opening isOwner isBeneficiary (fun _ _ e => by cases e) hv
  have checked := h.beneficiaryChecked b rfl
  refine ⟨first.ofType, fun s e => (by cases e), fun s e => ?_, fun _ _ e => (by cases e), ?_, hv⟩
  · obtain ⟨a, ha, hc, hw⟩ := first.beneficiary s e
    cases e
    have := (h.ownerLoaded o rfl).ne_of_currency (h.beneficiaryLoaded b rfl) hne
    exact ⟨a, (Table.get?_set_ne this).trans ha, hc, hw⟩
  · cases hb : b.userLimitTracker with
    | none =>
        change Charging env now tt _ b.toLoadedParticipant _ b.userLimitTracker
        rw [hb] at checked ⊢
        exact checked
    | some c =>
        -- The owner is not limited, so storing its operation charged no tracker.
        rw [hb] at checked
        have ho := (h.ownerChecked o rfl).limit.owner_none checked hne
        exact h.charging isOwner isBeneficiary (extends_store ho hins)

/-- The event does not take a negative value: one operation for the sides there are. -/
theorem value_nonneg {e : OperationControllerEvent}
    (about : OperationEventEmitter.About e (i.ownerSide.map fun _ => i.operation env now tt)
      (i.beneficiarySide.map fun _ => i.operation env now tt)) : 0 ≤ i.value := by
  have : 0 ≤ (i.operation env now tt).value := by
    cases i with
    | owner o => exact (about.nonneg (Or.inl rfl)).1
    | beneficiary b => exact (about.nonneg (Or.inr rfl)).1
    | shared o b => exact (about.nonneg (Or.inl rfl)).1
  rwa [OperationInfo.operation_value] at this

/-- The event does not take a negative value: an operation for each of the two sides. -/
theorem values_nonneg {e : OperationControllerEvent} {other other' : Uuid}
    (about : OperationEventEmitter.About e
      (some (linked ((OperationInfo.owner o).operation env now tt) other))
      (some (linked ((OperationInfo.beneficiary b).operation env now tt) other'))) :
    0 ≤ (OperationInfo.owner o).value ∧ 0 ≤ (OperationInfo.beneficiary b).value := by
  have hv₁ := (about.nonneg (Or.inl rfl)).1
  have hv₂ := (about.nonneg (Or.inr rfl)).1
  change 0 ≤ ((OperationInfo.owner o).operation env now tt).value at hv₁
  change 0 ≤ ((OperationInfo.beneficiary b).operation env now tt).value at hv₂
  rw [OperationInfo.operation_value] at hv₁ hv₂
  exact ⟨hv₁, hv₂⟩

/-- Two operations, stored one after the other, have two ids. -/
theorem ids_independent {t₁ t₂ : Table Operation}
    (hins₁ : db.operations.insert? ((OperationInfo.owner o).operation env now tt) = some t₁)
    (hins₂ : t₁.insert? ((OperationInfo.beneficiary b).operation env now tt) = some t₂) :
    ((OperationInfo.owner o).operation env now tt).id
      ≠ ((OperationInfo.beneficiary b).operation env now tt).id := by
  intro e
  have fresh := (Table.insert?_eq_some hins₂).1
  have stored := Table.get?_insert?_self hins₁
  rw [Operation.key_eq, e] at stored
  exact absurd (fresh.symm.trans stored) (by simp)

/-- Two operations, stored one after the other. -/
theorem get?_independent {t₁ t₂ : Table Operation}
    (hins₁ : db.operations.insert? ((OperationInfo.owner o).operation env now tt) = some t₁)
    (hins₂ : t₁.insert? ((OperationInfo.beneficiary b).operation env now tt) = some t₂)
    (other : Uuid) :
    t₂.get? ((OperationInfo.owner o).operation env now tt).id
        = some ((OperationInfo.owner o).operation env now tt) ∧
      (t₂.set (linked ((OperationInfo.owner o).operation env now tt) other)).get?
          ((OperationInfo.beneficiary b).operation env now tt).id
        = some ((OperationInfo.beneficiary b).operation env now tt) := by
  have get₁ := Table.get?_insert?_of_some hins₂ (Table.get?_insert?_self hins₁)
  have get₂ := Table.get?_insert?_self hins₂
  refine ⟨get₁, ?_⟩
  rw [Table.get?_set_ne]
  · exact get₂
  · exact ids_independent hins₁ hins₂

/-- What is stored for the sides of a request: one operation for all of them, or, with two
currencies, one of two. -/
inductive Stores (owner : Option OwnerSide) (beneficiary : Option BeneficiarySide) :
    OperationInfo → Prop
  | single (i : OperationInfo) (ho : i.ownerSide = owner) (hb : i.beneficiarySide = beneficiary) :
      Stores owner beneficiary i
  | owner (o : OwnerSide) (b : BeneficiarySide) (ho : owner = some o) (hb : beneficiary = some b)
      (hne : o.walletAccount.currency.id ≠ b.walletAccount.currency.id) :
      Stores owner beneficiary (.owner o)
  | beneficiary (o : OwnerSide) (b : BeneficiarySide) (ho : owner = some o)
      (hb : beneficiary = some b)
      (hne : o.walletAccount.currency.id ≠ b.walletAccount.currency.id) :
      Stores owner beneficiary (.beneficiary b)

section

variable (h : Execution env now tag ownerInfo beneficiaryInfo w w' r tt owner beneficiary db₁ db₂ db₃)
include h

/-- What an execution that returned keeps: what its limit checks, its operations, their references
to each other and its event keep. -/
theorem Execution.invariant {I : Db → Prop}
    (hcreated : ∀ db db', db.LimitCreated env db' → I db → I db')
    (hopened : ∀ db i t, Stores owner beneficiary i → Opening env now tt db i →
      db.operations.insert? (i.operation env now tt) = some t → I db → I (i.store env now t db))
    (hlinked : ∀ db o other, db.operations.get? o.id = some o → I db →
      I { db with operations := db.operations.set (linked o other) })
    (hsent : ∀ db e, I db → I { db with events := db.events ++ [.operation .PENDING e] })
    (h₀ : I w.db) : I w'.db := by
  have hlimits := hcreated _ _ h.beneficiaryLimit (hcreated _ _ h.ownerLimit h₀)
  obtain ⟨e, about, hw'⟩ := h.event
  rw [hw']
  refine hsent _ e ?_
  cases hstored : h.stored with
  | single i _ t hcurrency hins =>
      refine hopened _ i t (.single i rfl rfl) ?_ hins hlimits
      exact h.opening (fun _ e => e) (fun _ e => e) hcurrency (value_nonneg about)
  | independent o b _ db₁' db₂' t₁ t₂ o₁ o₂ hne ho₁ ho₂ hins₁ hdb₁ hins₂ hdb₂ =>
      subst ho₁ ho₂ hdb₁ hdb₂
      obtain ⟨hv₁, hv₂⟩ := values_nonneg about
      have opening₁ : Opening env now tt db₂ (.owner o) :=
        h.opening (fun _ e => e) (fun _ e => by cases e) (fun _ _ e => by cases e) hv₁
      have opening₂ := h.opening_second hne hins₁ hv₂
      -- Both operations are there, under different ids, when the references are written.
      obtain ⟨get₁, get₂⟩ := get?_independent hins₁ hins₂
        ((OperationInfo.beneficiary b).operation env now tt).id
      have hfirst := hopened _ _ t₁ (.owner o b rfl rfl hne) opening₁ hins₁ hlimits
      have hsecond := hopened _ _ t₂ (.beneficiary o b rfl rfl hne) opening₂ hins₂ hfirst
      exact hlinked _ _ _ get₂ (hlinked _ _ _ get₁ hsecond)

/-- **A created operation is made of changes.** -/
theorem execution_changes : Changes env now w.db w'.db :=
  h.invariant (I := Changes env now w.db) (fun _ _ hc hI => hI.tail (.limitCreated hc))
    (fun _ i t _ hopen hins hI => hI.tail (.opened tt i t hopen hins))
    (fun _ o other hget hI => hI.tail (.linked o other hget)) (fun _ e hI => hI.tail (.sent e)) .refl

end

end

end CreateOperationUseCase

/-- **Every command is made of changes.** -/
theorem step_changes (s : State) (l : ℤ × Command) :
    Changes env l.1 s.world.db (step env s l).world.db := by
  obtain ⟨now, c⟩ := l
  change Changes env now s.world.db (execCommand env now s.world c).db
  cases c with
  | create tag ownerInfo beneficiaryInfo =>
      rcases create_exec tag ownerInfo beneficiaryInfo s.world with h | ⟨r, _, _, _, _, _, _, h⟩
      · rw [h]
      · exact execution_changes h
  | accept id =>
      rcases accept_exec id s.world with h | ⟨o, h⟩
      · rw [h]
      · exact .single (.accepted o h)
  | revert id =>
      rcases revert_exec id s.world with h | ⟨o, h⟩
      · rw [h]
      · exact .single (.reverted o h)
  | deliver n =>
      rcases deliver_exec n s.world with h | h
      · rw [h]
      · exact .single (.delivered n h)

/-- What every change keeps, a command keeps. -/
theorem Changes.invariant {I : Db → Prop} (hI : ∀ db db', Change env now db db' → I db → I db')
    {db db' : Db} (h : Changes env now db db') (h₀ : I db) : I db' := by
  induction h with
  | refl => exact h₀
  | tail _ hc ih => exact hI _ _ hc ih

end

/-! ### A small service

Two users with one wallet each, and one limit type for all transaction types.  What the results
about runs say is seen on runs of it. -/

namespace Sample

def brl : Currency := ⟨1, "R$", "REAL", 2, .active⟩

/-- Noon of 31 March 2024, at UTC−3. -/
def noon : ℤ := 19813 * msPerDay + midnight + 43200000

def hour : ℤ := 3600000

def pix (id : TransactionTypeId) (tag : String) (participants : TransactionTypeParticipants) :
    TransactionType := ⟨id, tag, participants, .active, some 1⟩

def limits : LimitValues ℕ where
  nightlyLimit := some 1000
  dailyLimit := 1000
  monthlyLimit := 5000
  yearlyLimit := 10000
  maxAmount := none
  minAmount := none
  maxAmountNightly := none
  minAmountNightly := none
  userMaxAmount := none
  userMinAmount := none
  userMaxAmountNightly := none
  userMinAmountNightly := none
  userNightlyLimit := none
  userDailyLimit := none
  userMonthlyLimit := none
  userYearlyLimit := none
  nighttimeStart := some "20:00"
  nighttimeEnd := some "6:00"

def limitType (periodStart : LimitTypePeriodStart) : LimitType :=
  ⟨1, "PIX", some 1, periodStart, .OWNER⟩

def env (periodStart : LimitTypePeriodStart) : Env where
  currencies := [brl]
  transactionTypes := [pix 1 "PIXSEND" .OWNER, pix 2 "PIXREC" .BENEFICIARY, pix 3 "PIXP2P" .BOTH]
  transactionTypes_nodup := by simp [pix]
  limitTypes := [limitType periodStart]
  globalLimits := [{ limits with limitType := 1 }]
  quotations := []
  operationSymbolCurrencyReal := "R$"
  pendingWalletAccountTransactionTTL := 10000
  serverOffset := 0
  ZROWalletId := 99
  creditTransactionTypeTag := "GWCRED"
  debitTransactionTypeTag := "GWDEB"
  p2pTransactionTypeTag := "PIXP2P"

def userLimit (creditBalance : ℕ) : UserLimit :=
  { limits with id := 1, user := 1, limitType := 1, creditBalance }

def account (id : WalletAccountId) (wallet : Uuid) (balance : ℤ) : WalletAccount :=
  ⟨id, wallet, brl, balance, 0, .active⟩

/-- The service at noon: the first user has a balance, and a limit with credit. -/
def start (balance : ℤ) (creditBalance : ℕ) : State where
  clock := noon
  world :=
    { cache := []
      db :=
        { wallets := ⟨[⟨1, 1, true, .active⟩, ⟨2, 2, true, .active⟩], by decide⟩
          walletAccounts := ⟨[account 1 1 balance, account 2 2 0], by simp [account]⟩
          operations := .empty
          userLimits := ⟨[userLimit creditBalance], List.nodup_singleton _⟩
          userLimitTrackers := .empty
          walletAccountTransactions := []
          p2pTransfers := .empty
          userWallets := [(1, 1), (2, 2)]
          events := [] } }

/-- A request for a side of an operation, on the user's wallet. -/
def request (operation wallet : Uuid) (rawValue : ℤ) : CreateOperationParticipant where
  operation := some operation
  wallet := some wallet
  currency := some "REAL"
  rawValue := some rawValue
  fee := some 0
  description := some "PIX"
  ownerAllowAvailableRawValue := false
  ownerRequestedRawValue := none
  ownerRequestedFee := none

/-- The first user sends. -/
def send (operation : Uuid) (rawValue : ℤ) : Command :=
  .create "PIXSEND" (some (request operation 1 rawValue)) none

/-- The first user transfers to the second. -/
def transfer (operation : Uuid) (rawValue : ℤ) : Command :=
  .create "PIXP2P" (some (request operation 1 rawValue)) (some (request operation 2 rawValue))

end Sample

end ZroServices
