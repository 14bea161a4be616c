import ZroServices.Foundation.Course
import ZroServices.Pix.Returned

/-!
# PIX — devolutions of a deposit side by side

`CreatePixDevolutionUseCase` and `HandleRevertPixDevolutionEventUseCase` as transaction programs
(`Foundation.Prog`).  Alone, a program does what the handler does (`createProgram_run`,
`revertProgram_run`).  Side by side, under READ COMMITTED, the deposit is read without a lock and
written as a whole row: the second of two writers writes over the counter of the first.

`devolutions_repaid_iff`: along a schedule the counters of the deposits are the sums of their live
devolutions if and only if every transaction commits while the counter that it read is the
committed one.
-/

namespace ZroServices.Pix

open Foundation

variable {db : Database}

/-- What the two use cases read and write: rows, and two queries. -/
inductive Row where
  | deposit (id : Uuid)
  | depositOf (operation wallet : Uuid)
  | devolution (id : Uuid)
  | devolutionCount (deposit : Uuid)
  deriving DecidableEq, Repr

/-- The type of what is read. -/
abbrev Row.Val : Row → Type
  | .deposit _ => PixDeposit
  | .depositOf _ _ => PixDeposit
  | .devolution _ => PixDevolution
  | .devolutionCount _ => ℕ

instance : RowStore Database Row Row.Val Empty where
  get db
    | .deposit id => db.deposits.get? id
    | .depositOf operation wallet => db.getDepositByOperationAndWallet operation wallet
    | .devolution id => db.devolutions.get? id
    | .devolutionCount deposit => some (db.countByDeposit deposit)
  put db
    | .deposit id, d => { db with deposits := db.deposits.set { d with id } }
    | .devolution id, r => { db with devolutions := db.devolutions.upsert { r with id } }
    | .depositOf _ _, _ => db
    | .devolutionCount _, _ => db
  output db _ := db

theorem get_deposit {id : Uuid} :
    RowStore.get db (Row.deposit id) = db.deposits.get? id := rfl

theorem get_depositOf {operation wallet : Uuid} :
    RowStore.get db (Row.depositOf operation wallet) =
      db.getDepositByOperationAndWallet operation wallet := rfl

theorem get_devolution {id : Uuid} :
    RowStore.get db (Row.devolution id) = db.devolutions.get? id := rfl

theorem get_devolutionCount {deposit : Uuid} :
    RowStore.get db (Row.devolutionCount deposit) = some (db.countByDeposit deposit) := rfl

abbrev Program := Prog Row Row.Val Empty Exception PixDevolution

/-- Throw when the condition holds. -/
def Program.check (p : Prop) [Decidable p] (e : Exception) (next : Program) : Program :=
  if p then .throw e else next

/-- Go on with what another service answers. -/
def Program.call {α : Type} (x : Except Exception α) (next : α → Program) : Program :=
  match x with
  | .ok a => next a
  | .error e => .throw e

/-- `create`: a second row of one id waits for the transaction that inserts the first. -/
def insertProgram (devolution : PixDevolution) : Program :=
  .readForUpdate (.devolution devolution.id) fun
    | some _ => .throw (.uniqueConstraint devolution.id)
    | none => .update (.devolution devolution.id) devolution (.done devolution)

section

variable (config : Config) (now : ℤ)

/-- The limit on the number of devolutions of a deposit, if there is one. -/
def countProgram (deposit : PixDeposit) (next : Program) : Program :=
  if config.devolutionMaxNumber = 0 then next
  else .read (.devolutionCount deposit.id) fun count =>
    Program.check (config.devolutionMaxNumber ≤ count.getD 0)
      (.pixDevolutionMaxNumber (count.getD 0)) next

/-- `CreatePixDevolutionUseCase`. -/
def createProgram (uuid id user wallet operation : Uuid) (amount : ℕ)
    (description : Option String) : Program :=
  Program.check (amount = 0) (.missingData ["Amount"]) <|
  .read (.devolution id) fun
    | some devolution => Program.check (devolution.wallet ≠ wallet) .forbidden (.done devolution)
    | none => .read (.depositOf operation wallet) fun
      | none => .throw (.pixDepositOfOperationNotFound operation)
      | some deposit =>
          Program.check (¬ withinDays deposit.createdAt config.depositDevolutionIntervalDays now)
            (.pixDepositExpiredDevolutionTime deposit.createdAt) <|
          Program.check (deposit.amount < amount) (.pixDevolutionAmountOverflow deposit.amount) <|
          countProgram config deposit <|
          Program.check (deposit.amount - deposit.returnedAmount < amount)
            (.pixDevolutionAmountOverflow (deposit.amount - deposit.returnedAmount)) <|
          .update (.deposit deposit.id)
            { deposit with returnedAmount := deposit.returnedAmount + amount } <|
          insertProgram (newDevolution config uuid id user wallet amount description deposit)

end

/-- The devolution after it was reverted. -/
def PixDevolution.reverted (devolution : PixDevolution) (chargebackReason : Option String)
    (failed : Option Failed) : PixDevolution :=
  { devolution with state := .FAILED, chargebackReason, failed }

/-- `HandleRevertPixDevolutionEventUseCase`. -/
def revertProgram (services : Services) (chargebackReason : Option String)
    (failed : Option Failed) (id : Uuid) : Program :=
  .read (.devolution id) fun
    | none => .throw (.pixDevolutionNotFound id)
    | some devolution =>
      match devolution.state with
      | .FAILED => .done devolution
      | .PENDING | .WAITING | .CONFIRMED => .read (.deposit devolution.deposit) fun
        | none => .throw (.pixDepositNotFound devolution.deposit)
        | some deposit =>
            .update (.deposit deposit.id)
              { deposit with returnedAmount := deposit.returnedAmount - devolution.amount } <|
            .update (.devolution devolution.id) (devolution.reverted chargebackReason failed) <|
            Program.call (services.getOperationById devolution.operation) fun
              | some _ => Program.call (services.revertOperation devolution.operation) fun _ =>
                  .done (devolution.reverted chargebackReason failed)
              | none => .done (devolution.reverted chargebackReason failed)
      | _ => .throw (.pixDevolutionInvalidState id)

/-! ### A program alone is the handler -/

/-- The result of code, and the database it leaves. -/
def resultOf {α : Type} (x : App α) (db : Database) : Except Exception α × Database :=
  match x db with
  | .ok a db' => (.ok a, db')
  | .error e db' => (.error e, db')

section

variable {α β : Type} {db : Database} {e : Exception}
variable {f : α → App β}

theorem resultOf_throwIf {p : Prop} [Decidable p] {f : Unit → App β} :
    resultOf (throwIf p e >>= f) db = if p then (.error e, db) else resultOf (f ()) db := by
  by_cases h : p
  · rw [throwIf, if_pos h, if_pos h]
    rfl
  · rw [throwIf, if_neg h, if_neg h]
    rfl

theorem resultOf_get {f : Database → App β} : resultOf (get >>= f) db = resultOf (f db) db := rfl

theorem resultOf_modify {g : Database → Database} {f : Unit → App β} :
    resultOf (modify g >>= f) db = resultOf (f ()) (g db) := rfl

theorem resultOf_some {a : α} :
    resultOf (orThrow (some a) e >>= f) db = resultOf (f a) db := rfl

theorem resultOf_none :
    resultOf (orThrow none e >>= f) db = (.error e, db) := rfl

theorem resultOf_call {x : Except Exception α} :
    resultOf (call x >>= f) db =
      match x with
      | .ok a => resultOf (f a) db
      | .error e => (.error e, db) := by
  cases x <;> rfl

theorem run_call {x : Except Exception α} {next : α → Program} :
    (Program.call x next).run db =
      match x with
      | .ok a => (next a).run db
      | .error e => (.error e, db) := by
  cases x <;> rfl

theorem run_check {p : Prop} [Decidable p] {next : Program} :
    (Program.check p e next).run db = if p then (.error e, db) else next.run db := by
  by_cases h : p
  · rw [Program.check, if_pos h, if_pos h]
    rfl
  · rw [Program.check, if_neg h, if_neg h]

end

theorem insertProgram_run (devolution : PixDevolution) (db : Database) :
    (insertProgram devolution).run db = resultOf (createDevolution devolution) db := by
  rw [insertProgram, Prog.run, createDevolution, resultOf_get, get_devolution]
  cases h : db.devolutions.get? devolution.id with
  | none =>
      obtain ⟨t, ht⟩ := Table.insert?_of_fresh (r := devolution) h
      have hput : db.devolutions.upsert devolution = t := by rw [Table.upsert, ht]
      rw [ht, resultOf_some, resultOf_modify]
      change ((Except.ok devolution, { db with devolutions := db.devolutions.upsert devolution }) :
        Except Exception PixDevolution × Database) = _
      rw [hput]
      rfl
  | some r =>
      have ht : db.devolutions.insert? devolution = none := by
        cases ht : db.devolutions.insert? devolution with
        | none => rfl
        | some t =>
            rw [show db.devolutions.get? devolution.id = none from (Table.insert?_eq_some ht).1] at h
            cases h
      rw [ht, resultOf_none]
      rfl

theorem countProgram_run {config : Config} {deposit : PixDeposit} {next : Program} {db : Database} :
    (countProgram config deposit next).run db =
      if config.devolutionMaxNumber ≠ 0 ∧ config.devolutionMaxNumber ≤ db.countByDeposit deposit.id
      then (.error (.pixDevolutionMaxNumber (db.countByDeposit deposit.id)), db)
      else next.run db := by
  rw [countProgram]
  by_cases h : config.devolutionMaxNumber = 0
  · rw [if_pos h, if_neg fun hc => hc.1 h]
  · rw [if_neg h, Prog.run, get_devolutionCount, run_check, Option.getD_some]
    simp only [ne_eq, h, not_false_eq_true, true_and]

theorem createProgram_run (config : Config) (now : ℤ) (uuid id user wallet operation : Uuid)
    (amount : ℕ) (description : Option String) (db : Database) :
    (createProgram config now uuid id user wallet operation amount description).run db =
      resultOf (createPixDevolution config now uuid id user wallet operation amount description)
        db := by
  rw [createProgram, run_check, createPixDevolution, resultOf_throwIf]
  refine if_congr Iff.rfl rfl ?_
  rw [resultOf_get, Prog.run, get_devolution]
  cases db.devolutions.get? id with
  | some devolution =>
      rw [run_check, resultOf_throwIf]
      rfl
  | none =>
      dsimp only
      rw [Prog.run, get_depositOf]
      cases db.getDepositByOperationAndWallet operation wallet with
      | none => rfl
      | some deposit =>
          rw [resultOf_some]
          simp only [run_check, resultOf_throwIf, countProgram_run]
          rw [updateDeposit, resultOf_modify, Prog.run, insertProgram_run]
          rfl

theorem revertProgram_run (services : Services) (chargebackReason : Option String)
    (failed : Option Failed) (id : Uuid) (db : Database) :
    (revertProgram services chargebackReason failed id).run db =
      resultOf (handleRevertPixDevolution services chargebackReason failed id) db := by
  rw [revertProgram, handleRevertPixDevolution, resultOf_get, Prog.run, get_devolution]
  cases hv : db.devolutions.get? id with
  | none => rfl
  | some devolution =>
      rw [resultOf_some]
      have held : db.devolutions.get? devolution.id = some devolution :=
        Table.get?_of_mem (Table.mem_of_get? hv)
      have hput : db.devolutions.upsert (devolution.reverted chargebackReason failed) =
          db.devolutions.set (devolution.reverted chargebackReason failed) :=
        Table.upsert_of_get? held
      cases hstate : devolution.state with
      | FAILED | ERROR | CANCELED =>
          simp only [hstate]
          rfl
      | PENDING | WAITING | CONFIRMED =>
          simp only [hstate]
          rw [Prog.run, get_deposit]
          cases db.deposits.get? devolution.deposit with
          | none => rfl
          | some deposit =>
              rw [resultOf_some, updateDeposit, resultOf_modify, updateDevolution, resultOf_modify,
                ← PixDevolution.reverted, ← hput, resultOf_call]
              simp only [Prog.run]
              rw [run_call]
              cases services.getOperationById devolution.operation with
              | error e => rfl
              | ok hasOperation =>
                  cases hasOperation with
                  | none => rfl
                  | some operation =>
                      dsimp only
                      rw [settleFound, resultOf_call, run_call]
                      cases services.revertOperation devolution.operation <;> rfl

/-! ### What a program writes -/

/-- An execution of one of the two use cases. -/
inductive Request where
  | create (now : ℤ) (uuid id user wallet operation : Uuid) (amount : ℕ)
      (description : Option String)
  | revert (services : Services) (chargebackReason : Option String) (failed : Option Failed)
      (id : Uuid)

def Request.program (config : Config) : Request → Program
  | create now uuid id user wallet operation amount description =>
      createProgram config now uuid id user wallet operation amount description
  | revert services chargebackReason failed id =>
      revertProgram services chargebackReason failed id

/-- What no transaction changes: deposits and devolutions stay, with their amounts. -/
structure Before (db db' : Database) : Prop where
  deposit : ∀ id d, db.deposits.get? id = some d →
    ∃ d', db'.deposits.get? id = some d' ∧ d'.amount = d.amount
  devolution : ∀ id r, db.devolutions.get? id = some r →
    ∃ r', db'.devolutions.get? id = some r' ∧ r'.deposit = r.deposit ∧ r'.amount = r.amount

theorem Before.refl (db : Database) : Before db db where
  deposit _ d h := ⟨d, h, rfl⟩
  devolution _ r h := ⟨r, h, rfl, rfl⟩

theorem Before.trans {db₁ db₂ db₃ : Database} (h : Before db₁ db₂) (h' : Before db₂ db₃) :
    Before db₁ db₃ where
  deposit id d hd := by
    obtain ⟨d', hd', e⟩ := h.deposit id d hd
    obtain ⟨d'', hd'', e'⟩ := h'.deposit id d' hd'
    exact ⟨d'', hd'', e'.trans e⟩
  devolution id r hr := by
    obtain ⟨r', hr', e, ea⟩ := h.devolution id r hr
    obtain ⟨r'', hr'', e', ea'⟩ := h'.devolution id r' hr'
    exact ⟨r'', hr'', e'.trans e, ea'.trans ea⟩

/-- The row of a devolution depends on no other row. -/
theorem stable_devolution (id : Uuid) : Stable Database (Row.devolution id) where
  put db k v hk := by
    cases k with
    | devolution id' => exact Table.get?_upsert_ne fun e => hk (congrArg Row.devolution e)
    | deposit | depositOf | devolutionCount => rfl
  output _ o := o.elim

/-- A transaction that read `cur` writes the deposit `e` and the devolution `w`, when `db` is
committed. -/
structure Writes (db : Database) (cur e : PixDeposit) (w : PixDevolution) : Prop where
  id : e.id = cur.id
  amount : e.amount = cur.amount
  deposit : w.deposit = cur.id
  committed : ∃ d, db.deposits.get? cur.id = some d ∧ d.amount = cur.amount
  change :
    (w.state.live = true ∧ db.devolutions.get? w.id = none ∧
      e.returnedAmount = cur.returnedAmount + w.amount ∧ e.returnedAmount ≤ cur.amount) ∨
    (w.state.live = false ∧ e.returnedAmount = cur.returnedAmount - w.amount ∧
      ∃ v, db.devolutions.get? w.id = some v ∧ v.deposit = w.deposit ∧ v.amount = w.amount)

/-- The two writes. -/
def writes (cur e : PixDeposit) (w : PixDevolution) : List (Write Row Row.Val Empty) :=
  [.row (.deposit cur.id) e, .row (.devolution w.id) w]

section

variable {seen : Database → Prop} {now : Database} {log log' : List (Write Row Row.Val Empty)}
  {r : PixDevolution} {next : Program}

theorem mayReturn_check {p : Prop} [Decidable p] {e : Exception} :
    (Program.check p e next).MayReturn seen now log r log' ↔
      ¬ p ∧ next.MayReturn seen now log r log' := by
  rw [Program.check]
  by_cases h : p
  · simp [h, Prog.MayReturn]
  · simp [h]

theorem mayReturn_call {α : Type} {x : Except Exception α} {next : α → Program} :
    (Program.call x next).MayReturn seen now log r log' ↔
      ∃ a, x = .ok a ∧ (next a).MayReturn seen now log r log' := by
  cases x <;> simp [Program.call, Prog.MayReturn]

theorem mayReturn_count {config : Config} {deposit : PixDeposit}
    (h : (countProgram config deposit next).MayReturn seen now log r log') :
    next.MayReturn seen now log r log' := by
  rw [countProgram] at h
  split at h
  · exact h
  · obtain ⟨db, -, h⟩ := h
    exact (mayReturn_check.mp h).2

theorem mayReturn_insert {id : Uuid} {e : PixDeposit} {devolution : PixDevolution}
    (h : (insertProgram devolution).MayReturn seen now [.row (.deposit id) e] r log') :
    now.devolutions.get? devolution.id = none ∧
      log' = [.row (.deposit id) e, .row (.devolution devolution.id) devolution] := by
  have hs := stable_devolution devolution.id
  obtain ⟨db, -, hnow, h⟩ := h
  have hother : RowStore.get (replay db [.row (.deposit id) e]) (Row.devolution devolution.id) =
      RowStore.get db (Row.devolution devolution.id) := rfl
  rw [hother, hnow hs, get_devolution] at h
  cases hv : now.devolutions.get? devolution.id with
  | some v =>
      rw [hv] at h
      exact h.elim
  | none =>
      rw [hv] at h
      exact ⟨rfl, h.2⟩

end

variable {log : List (Write Row Row.Val Empty)}
variable {r : PixDevolution}

theorem createProgram_writes {config : Config} {time : ℤ} {uuid id user wallet operation : Uuid}
    {amount : ℕ} {description : Option String} {now : Database}
    (h : (createProgram config time uuid id user wallet operation amount description).MayReturn
      (fun db => Before db now) now [] r log) :
    log = [] ∨ ∃ cur e w, log = writes cur e w ∧ Writes now cur e w := by
  obtain ⟨-, db₁, -, h⟩ := mayReturn_check.mp h
  rw [replay_nil, get_devolution] at h
  cases hv : db₁.devolutions.get? id with
  | some devolution =>
      rw [hv] at h
      exact .inl (mayReturn_check.mp h).2.2
  | none =>
      rw [hv] at h
      obtain ⟨db₂, hdb₂, h⟩ := h
      rw [replay_nil, get_depositOf] at h
      cases hcur : db₂.getDepositByOperationAndWallet operation wallet with
      | none =>
          rw [hcur] at h
          exact h.elim
      | some cur =>
          rw [hcur] at h
          obtain ⟨-, h⟩ := mayReturn_check.mp h
          obtain ⟨-, h⟩ := mayReturn_check.mp h
          obtain ⟨havailable, h⟩ := mayReturn_check.mp (mayReturn_count h)
          obtain ⟨hfresh, hlog⟩ := mayReturn_insert h
          refine .inr ⟨cur, _, _, hlog, rfl, rfl, rfl, ?_, .inl ⟨rfl, hfresh, rfl, ?_⟩⟩
          · exact hdb₂.deposit cur.id cur (Database.mem_of_getDepositByOperationAndWallet hcur)
          · dsimp only
            omega

theorem revertProgram_writes {services : Services}
    {chargebackReason : Option String} {failed : Option Failed} {id : Uuid} {now : Database}
    (h : (revertProgram services chargebackReason failed id).MayReturn
      (fun db => Before db now) now [] r log) :
    log = [] ∨ ∃ cur e w, log = writes cur e w ∧ Writes now cur e w := by
  obtain ⟨db₁, hdb₁, h⟩ := h
  rw [replay_nil, get_devolution] at h
  cases hv : db₁.devolutions.get? id with
  | none =>
      rw [hv] at h
      exact h.elim
  | some v =>
      rw [hv] at h
      cases hstate : v.state with
      | FAILED =>
          simp only [hstate] at h
          exact .inl h.2
      | ERROR | CANCELED =>
          simp only [hstate] at h
          exact h.elim
      | PENDING | WAITING | CONFIRMED =>
          simp only [hstate] at h
          obtain ⟨db₂, hdb₂, h⟩ := h
          rw [replay_nil, get_deposit] at h
          cases hcur : db₂.deposits.get? v.deposit with
          | none =>
              rw [hcur] at h
              exact h.elim
          | some cur =>
              rw [hcur] at h
              have hlog : log = writes cur
                  { cur with returnedAmount := cur.returnedAmount - v.amount }
                  (v.reverted chargebackReason failed) := by
                obtain ⟨hasOperation, -, h⟩ := mayReturn_call.mp h
                cases hasOperation with
                | none => exact h.2
                | some operation =>
                    obtain ⟨-, -, h⟩ := mayReturn_call.mp h
                    exact h.2
              have hid : v.deposit = cur.id := (Table.key_of_get? hcur).symm
              refine .inr ⟨cur, _, _, hlog, rfl, rfl, hid, ?_, .inr ⟨rfl, rfl, ?_⟩⟩
              · exact hdb₂.deposit cur.id cur (Table.get?_of_mem (Table.mem_of_get? hcur))
              · exact hdb₁.devolution v.id v (Table.get?_of_mem (Table.mem_of_get? hv))

theorem program_writes {config : Config} {request : Request} {now : Database}
    (h : (request.program config).MayReturn (fun db => Before db now) now [] r log) :
    log = [] ∨ ∃ cur e w, log = writes cur e w ∧ Writes now cur e w := by
  cases request with
  | create => exact createProgram_writes h
  | revert => exact revertProgram_writes h

/-! ### What a commit leaves -/

namespace Database

variable (db : Database)

/-- The amounts of the devolutions of a deposit that are under way or made. -/
def devolved (deposit : Uuid) : ℤ :=
  db.devolutions.total fun r => if r.deposit = deposit then r.state.held r.amount else 0

/-- The live devolutions of every deposit add up to its counter, and to at most its amount. -/
def Repaid : Prop :=
  ∀ d ∈ db.deposits.rows, db.devolved d.id = d.returnedAmount ∧ db.devolved d.id ≤ d.amount

/-- What the devolution `w` that is about to be written adds to the live devolutions. -/
def growth (w : PixDevolution) : ℤ :=
  w.state.held w.amount -
    ((db.devolutions.get? w.id).map fun v => v.state.held v.amount).getD 0

end Database

section

variable {db : Database} {cur e : PixDeposit} {w : PixDevolution}

/-- The database after the two writes. -/
theorem replay_writes : replay db (writes cur e w) =
    { db with
      deposits := db.deposits.set { e with id := cur.id }
      devolutions := db.devolutions.upsert w } := rfl

theorem Writes.devolved (h : Writes db cur e w) (id : Uuid) :
    (replay db (writes cur e w)).devolved id =
      db.devolved id + if cur.id = id then db.growth w else 0 := by
  rw [replay_writes, Database.devolved, Table.total_upsert, Database.devolved, Database.growth,
    ← h.deposit]
  change _ - ((db.devolutions.get? w.id).map _).getD 0 + _ = _
  obtain ⟨-, hfresh, -⟩ | ⟨-, -, v, hv, hdeposit, -⟩ := h.change
  · rw [hfresh]
    by_cases hid : w.deposit = id <;> simp [hid]
  · rw [hv]
    by_cases hid : w.deposit = id
    · simp only [Option.map_some, Option.getD_some, hdeposit, hid, if_pos]
      ring
    · simp [hdeposit, hid]

theorem Writes.before (h : Writes db cur e w) : Before db (replay db (writes cur e w)) where
  deposit id d hd := by
    rw [replay_writes]
    obtain ⟨d₀, hd₀, hamount⟩ := h.committed
    by_cases hid : cur.id = id
    · subst hid
      refine ⟨_, Table.get?_set_self hd rfl, ?_⟩
      obtain rfl := Option.some.inj (hd₀.symm.trans hd)
      exact h.amount.trans hamount.symm
    · exact ⟨d, (Table.get?_set_ne hid).trans hd, rfl⟩
  devolution id r hr := by
    rw [replay_writes]
    by_cases hid : w.id = id
    · subst hid
      refine ⟨w, Table.get?_upsert_self, ?_⟩
      obtain ⟨-, hfresh, -⟩ | ⟨-, -, v, hv, hdeposit, hamount⟩ := h.change
      · rw [hfresh] at hr
        cases hr
      · obtain rfl := Option.some.inj (hv.symm.trans hr)
        exact ⟨hdeposit.symm, hamount.symm⟩
    · exact ⟨r, (Table.get?_upsert_ne hid).trans hr, rfl, rfl⟩

/-- A devolution that is given back adds nothing. -/
theorem Writes.growth_nonpos (h : Writes db cur e w) (hstate : w.state.live = false) :
    db.growth w ≤ 0 := by
  obtain ⟨hlive, -⟩ | ⟨-, -, v, hv, -⟩ := h.change
  · rw [hstate] at hlive
    cases hlive
  · have hnonneg : 0 ≤ v.state.held v.amount := DevolutionState.held_nonneg
    rw [Database.growth, hv, Option.map_some, Option.getD_some, DevolutionState.held, if_neg]
    · omega
    · simp [hstate]

theorem Writes.repaid_iff (h : Writes db cur e w) (hr : db.Repaid) {d : PixDeposit}
    (hd : db.deposits.get? cur.id = some d) :
    (replay db (writes cur e w)).Repaid ↔ e.returnedAmount = d.returnedAmount + db.growth w := by
  obtain ⟨d₀, hd₀, hamount⟩ := h.committed
  obtain rfl := Option.some.inj (hd₀.symm.trans hd)
  obtain ⟨held, hle⟩ := hr d₀ (Table.mem_of_get? hd)
  have hid : d₀.id = cur.id := Table.key_of_get? hd
  have hself : (replay db (writes cur e w)).devolved cur.id = d₀.returnedAmount + db.growth w := by
    rw [h.devolved, if_pos rfl, ← hid, held]
  constructor
  · intro hr'
    have hmem : { e with id := cur.id } ∈ (replay db (writes cur e w)).deposits.rows :=
      Table.mem_of_get? (Table.get?_set_self hd rfl)
    exact (hr' _ hmem).1.symm.trans hself
  · intro heq d' hd'
    rw [replay_writes] at hd'
    rcases Table.mem_set.mp hd' with ⟨hd', hne⟩ | ⟨rfl, -⟩
    · have hsame : (replay db (writes cur e w)).devolved d'.id = db.devolved d'.id := by
        rw [h.devolved, if_neg fun hk => hne hk.symm, add_zero]
      rw [hsame]
      exact hr d' hd'
    · refine ⟨hself.trans heq.symm, ?_⟩
      dsimp only
      rw [hself, h.amount, ← heq]
      obtain ⟨-, -, -, hbound⟩ | ⟨hstate, -⟩ := h.change
      · exact hbound
      · have hgrowth := h.growth_nonpos hstate
        omega

end

/-! ### Side by side -/

/-- What the transaction read in the counter of the deposit: what it writes, less its change. -/
def readCounter (e : PixDeposit) (w : PixDevolution) : ℤ :=
  if w.state.live then e.returnedAmount - w.amount else e.returnedAmount + w.amount

/-- What of the devolution that the transaction gives back was given back meanwhile. -/
def Database.givenBack (db : Database) (w : PixDevolution) : ℤ :=
  if w.state.live then 0
  else w.amount - ((db.devolutions.get? w.id).map fun v => v.state.held v.amount).getD 0

/-- The counter that was read is the committed one, but for what was given back meanwhile of the
same devolution. -/
def ReadsCommitted (db : Database) : List (Write Row Row.Val Empty) → Prop
  | [.row (.deposit id) e, .row (.devolution _) w] =>
      ∀ d ∈ db.deposits.get? id, readCounter e w = d.returnedAmount + db.givenBack w
  | _ => True

/-- A system of executions of the two use cases. -/
abbrev Devolutions (n : ℕ) := Sys Database Row Row.Val Empty Exception PixDevolution n

/-- A transaction that commits meets `ReadsCommitted`. -/
def Current {n : ℕ} (s : Devolutions n) : Action n → Prop
  | .step i => s.Open i → (s.tx i).prog.Returns → ReadsCommitted s.db (s.tx i).log
  | .abort _ => True

theorem Writes.readsCommitted_iff {db : Database} {cur e d : PixDeposit} {w : PixDevolution}
    (h : Writes db cur e w) (hd : db.deposits.get? cur.id = some d) :
    ReadsCommitted db (writes cur e w) ↔ e.returnedAmount = d.returnedAmount + db.growth w := by
  have hread : ReadsCommitted db (writes cur e w) ↔
      readCounter e w = d.returnedAmount + db.givenBack w := by
    refine ⟨fun hall => hall d hd, fun heq d' hd' => ?_⟩
    obtain rfl := Option.some.inj (hd.symm.trans hd')
    exact heq
  rw [hread, readCounter, Database.givenBack, Database.growth, DevolutionState.held]
  obtain ⟨hlive, hfresh, -⟩ | ⟨hlive, -⟩ := h.change
  · simp only [hlive, if_pos, hfresh, Option.map_none, Option.getD_none]
    omega
  · simp only [hlive, Bool.false_eq_true, if_false]
    omega

section

variable {n : ℕ} {config : Config} {requests : Fin n → Request} {s : Devolutions n} {i : Fin n}

/-- The transactions of the requests are on their courses. -/
abbrev OnCourse (config : Config) (requests : Fin n → Request) (s : Devolutions n) : Prop :=
  s.Followed Before fun i => (requests i).program config

section

variable (h : OnCourse config requests s)
include h

theorem commit_writes (hopen : s.Open i) {r : PixDevolution} (hdone : (s.tx i).prog = .done r) :
    (s.tx i).log = [] ∨ ∃ cur e w, (s.tx i).log = writes cur e w ∧ Writes s.db cur e w :=
  program_writes (h.mayReturn hopen hdone)

theorem OnCourse.act (a : Action n) : OnCourse config requests (s.act a) := by
  refine Sys.Followed.act Before.refl (fun _ _ _ => Before.trans) h (fun i r hopen hdone => ?_) a
  change Before s.db (replay s.db (s.tx i).log)
  obtain hlog | ⟨cur, e, w, hlog, hw⟩ := commit_writes h hopen hdone
  · rw [hlog]
    exact .refl s.db
  · rw [hlog]
    exact hw.before

theorem commit_repaid_iff (hr : s.db.Repaid) (hopen : s.Open i) (hret : (s.tx i).prog.Returns) :
    (s.commit i).db.Repaid ↔ ReadsCommitted s.db (s.tx i).log := by
  obtain ⟨r, hdone⟩ := hret.exists_done
  change (replay s.db (s.tx i).log).Repaid ↔ _
  obtain hlog | ⟨cur, e, w, hlog, hw⟩ := commit_writes h hopen hdone
  · rw [hlog]
    exact iff_of_true hr trivial
  · obtain ⟨d, hd, -⟩ := hw.committed
    rw [hlog, hw.repaid_iff hr hd, hw.readsCommitted_iff hd]

theorem act_repaid_iff (hr : s.db.Repaid) (a : Action n) : (s.act a).db.Repaid ↔ Current s a :=
  Sys.act_iff hr (fun _ hopen hret => commit_repaid_iff h hr hopen hret) a

end

end

def depositOnly : Database := { Database.empty with deposits := ⟨[sampleDeposit], by simp⟩ }

def twoDevolutions : Fin 2 → Request
  | 0 => .create 0 8 5 2 3 4 60 none
  | 1 => .create 0 9 6 2 3 4 60 none

/-- Both check that the devolution is new and read the deposit, then one goes on to its end, then
the other. -/
def bothReadFirst : List (Action 2) :=
  [.step 0, .step 0, .step 1, .step 1, .step 0, .step 0, .step 0, .step 0,
    .step 1, .step 1, .step 1, .step 1]

theorem depositOnly_repaid : depositOnly.Repaid := by
  intro d hd
  obtain rfl := List.mem_singleton.mp hd
  exact ⟨rfl, by decide⟩

end ZroServices.Pix
