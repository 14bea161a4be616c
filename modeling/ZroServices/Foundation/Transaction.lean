import Mathlib.Data.Fin.Basic
import Mathlib.Data.List.Nodup
import ZroServices.Foundation.Run

/-!
# Foundation — database transactions

A transaction is a program (`Prog`) over rows: it reads a row without a lock, reads a row with
`SELECT … FOR UPDATE`, overwrites a row, appends an output (a row of an append-only table, an
event sent at commit), and ends by returning or by throwing.  The database is any type `S` whose
rows can be read and written (`RowStore`).

The program has two meanings.

* `Prog.run` executes it alone; `Prog.trace` is the same with the writes kept in a log.
* `Sys.act` is one step of `n` transactions under READ COMMITTED: a read sees the last committed
  row, or the transaction's own write; a locking read and an update wait while another unfinished
  transaction holds the row, and hold it until commit or rollback; commit publishes the writes.
  A step that has to wait leaves the system as it is, so every list of actions is a schedule.
  A transaction may also be rolled back at any moment (a deadlock victim, a lost connection).

A transaction is *applied* when it has committed writes.  READ COMMITTED lets a transaction commit
writes though another was applied since its first step (`Sys.Validated` is that this does not
happen).  `validated_run`: without such a commit, the database is what the applied transactions,
executed alone one after the other, make of it.  `validated_of_single`: with such a commit, two
transactions are applied.
-/

namespace Foundation

universe u

/-- A database whose rows, of type `Val k` at key `k`, are read and overwritten, and which keeps
appended outputs. -/
class RowStore (S : Type u) (K : outParam Type) (Val : outParam (K → Type))
    (Out : outParam Type) where
  get : S → (k : K) → Option (Val k)
  put : S → (k : K) → Val k → S
  output : S → Out → S

/-- What one transaction does, one access after the other. -/
inductive Prog (K : Type) (Val : K → Type) (Out ε ρ : Type) where
  | done (result : ρ)
  | throw (error : ε)
  | read (k : K) (next : Option (Val k) → Prog K Val Out ε ρ)
  | readForUpdate (k : K) (next : Option (Val k) → Prog K Val Out ε ρ)
  | update (k : K) (row : Val k) (next : Prog K Val Out ε ρ)
  | output (o : Out) (next : Prog K Val Out ε ρ)

/-- A write a transaction has made. -/
inductive Write (K : Type) (Val : K → Type) (Out : Type) where
  | row (k : K) (v : Val k)
  | output (o : Out)

section
variable {S : Type u} {K : Type} {Val : K → Type} {Out ε ρ : Type} [RowStore S K Val Out]

/-- The database after one write. -/
def Write.apply (s : S) : Write K Val Out → S
  | .row k v => RowStore.put s k v
  | .output o => RowStore.output s o

/-- The database after the writes of a list. -/
def replay (s : S) (log : List (Write K Val Out)) : S := log.foldl Write.apply s

@[simp] theorem replay_nil (s : S) : replay s ([] : List (Write K Val Out)) = s := rfl

theorem replay_concat (s : S) (log : List (Write K Val Out)) (w : Write K Val Out) :
    replay s (log ++ [w]) = w.apply (replay s log) := by
  simp [replay]

namespace Prog

/-- The program executed alone: its result, and the database it leaves. -/
def run : Prog K Val Out ε ρ → S → Except ε ρ × S
  | .done r, s => (.ok r, s)
  | .throw e, s => (.error e, s)
  | .read k next, s => (next (RowStore.get s k)).run s
  | .readForUpdate k next, s => (next (RowStore.get s k)).run s
  | .update k v next, s => next.run (RowStore.put s k v)
  | .output o next, s => next.run (RowStore.output s o)

/-- The program executed alone on `s`, after the writes `log`: its result and all the writes. -/
def trace (s : S) : Prog K Val Out ε ρ → List (Write K Val Out) →
    Except ε ρ × List (Write K Val Out)
  | .done r, log => (.ok r, log)
  | .throw e, log => (.error e, log)
  | .read k next, log => (next (RowStore.get (replay s log) k)).trace s log
  | .readForUpdate k next, log => (next (RowStore.get (replay s log) k)).trace s log
  | .update k v next, log => next.trace s (log ++ [.row k v])
  | .output o next, log => next.trace s (log ++ [.output o])

/-- The two ways to execute a program alone agree. -/
theorem run_replay (p : Prog K Val Out ε ρ) (s : S) (log : List (Write K Val Out)) :
    p.run (replay s log) = ((p.trace s log).1, replay s (p.trace s log).2) := by
  induction p generalizing log with
  | done | throw => rfl
  | read k next ih | readForUpdate k next ih => exact ih _ log
  | update k v next ih =>
      rw [run, trace, ← ih, replay_concat]
      rfl
  | output o next ih =>
      rw [run, trace, ← ih, replay_concat]
      rfl

theorem run_eq_trace (p : Prog K Val Out ε ρ) (s : S) :
    p.run s = ((p.trace s []).1, replay s (p.trace s []).2) :=
  run_replay p s []

/-- The program with its result translated. -/
def map {ρ' : Type} (f : ρ → ρ') : Prog K Val Out ε ρ → Prog K Val Out ε ρ'
  | .done r => .done (f r)
  | .throw e => .throw e
  | .read k next => .read k fun v => (next v).map f
  | .readForUpdate k next => .readForUpdate k fun v => (next v).map f
  | .update k v next => .update k v (next.map f)
  | .output o next => .output o (next.map f)

theorem trace_map {ρ' : Type} (f : ρ → ρ') (p : Prog K Val Out ε ρ) (s : S)
    (log : List (Write K Val Out)) :
    (p.map f).trace s log = ((p.trace s log).1.map f, (p.trace s log).2) := by
  induction p generalizing log with
  | done | throw => rfl
  | read k next ih | readForUpdate k next ih => exact ih _ log
  | update k v next ih => exact ih _
  | output o next ih => exact ih _

/-- The program returns at once. -/
def Returns : Prog K Val Out ε ρ → Prop
  | .done _ => True
  | _ => False

instance (p : Prog K Val Out ε ρ) : Decidable p.Returns := by
  cases p <;> unfold Returns <;> infer_instance

end Prog

/-! ### Transactions side by side -/

/-- Where a transaction is. -/
inductive Phase where
  | idle
  | running
  | committed
  | rolledBack
  deriving DecidableEq, Repr

/-- One transaction: what is left of its program, the writes nobody else sees yet, the rows it
holds, and how many transactions had been applied at its first step (which no step looks at). -/
structure Tx (K : Type) (Val : K → Type) (Out ε ρ : Type) where
  prog : Prog K Val Out ε ρ
  log : List (Write K Val Out)
  held : List K
  phase : Phase
  snapshot : ℕ

/-- A transaction that has not begun. -/
def Tx.new (p : Prog K Val Out ε ρ) : Tx K Val Out ε ρ := ⟨p, [], [], .idle, 0⟩

/-- `n` transactions on one database, and how many of them are applied. -/
structure Sys (S : Type u) (K : Type) (Val : K → Type) (Out ε ρ : Type) (n : ℕ) where
  db : S
  tx : Fin n → Tx K Val Out ε ρ
  applied : ℕ

/-- The next move: transaction `i` takes its next step, or is rolled back by the database. -/
inductive Action (n : ℕ) where
  | step (i : Fin n)
  | abort (i : Fin n)
  deriving DecidableEq, Repr

namespace Sys

variable {n : ℕ}

/-- The system before anything happened. -/
def init (db : S) (progs : Fin n → Prog K Val Out ε ρ) : Sys S K Val Out ε ρ n :=
  ⟨db, fun i => Tx.new (progs i), 0⟩

/-- No other unfinished transaction holds the row. -/
def Free (s : Sys S K Val Out ε ρ n) (i : Fin n) (k : K) : Prop :=
  ∀ j, j ≠ i → (s.tx j).phase = .running → k ∉ (s.tx j).held

instance [DecidableEq K] (s : Sys S K Val Out ε ρ n) (i : Fin n) (k : K) :
    Decidable (s.Free i k) :=
  inferInstanceAs (Decidable (∀ j, j ≠ i → (s.tx j).phase = .running → k ∉ (s.tx j).held))

/-- Replace one transaction. -/
def setTx (s : Sys S K Val Out ε ρ n) (i : Fin n) (t : Tx K Val Out ε ρ) :
    Sys S K Val Out ε ρ n :=
  { s with tx := Function.update s.tx i t }

/-- Transaction `i` one access later. -/
def next (s : Sys S K Val Out ε ρ n) (i : Fin n) (prog : Prog K Val Out ε ρ)
    (log : List (Write K Val Out)) (held : List K) : Tx K Val Out ε ρ :=
  ⟨prog, log, held, .running, if (s.tx i).phase = .idle then s.applied else (s.tx i).snapshot⟩

/-- What transaction `i` sees at a key: its own last write, or the committed row. -/
def view (s : Sys S K Val Out ε ρ n) (i : Fin n) (k : K) : Option (Val k) :=
  RowStore.get (replay s.db (s.tx i).log) k

/-- Transaction `i` commits. -/
def commit (s : Sys S K Val Out ε ρ n) (i : Fin n) : Sys S K Val Out ε ρ n where
  db := replay s.db (s.tx i).log
  tx := Function.update s.tx i { s.tx i with phase := .committed }
  applied := if (s.tx i).log = [] then s.applied else s.applied + 1

/-- Transaction `i` is rolled back. -/
def rollback (s : Sys S K Val Out ε ρ n) (i : Fin n) : Sys S K Val Out ε ρ n :=
  s.setTx i { s.tx i with phase := .rolledBack }

/-- The next step of transaction `i`; nothing changes when it is finished or has to wait. -/
def step [DecidableEq K] (s : Sys S K Val Out ε ρ n) (i : Fin n) : Sys S K Val Out ε ρ n :=
  let t := s.tx i
  if t.phase = .committed ∨ t.phase = .rolledBack then s
  else match t.prog with
    | .done _ => s.commit i
    | .throw _ => s.rollback i
    | .read k next => s.setTx i (s.next i (next (s.view i k)) t.log t.held)
    | .readForUpdate k next =>
        if s.Free i k then s.setTx i (s.next i (next (s.view i k)) t.log (k :: t.held)) else s
    | .update k v next =>
        if s.Free i k then s.setTx i (s.next i next (t.log ++ [.row k v]) (k :: t.held)) else s
    | .output o next => s.setTx i (s.next i next (t.log ++ [.output o]) t.held)

/-- One action. -/
def act [DecidableEq K] (s : Sys S K Val Out ε ρ n) : Action n → Sys S K Val Out ε ρ n
  | .step i => s.step i
  | .abort i =>
      if (s.tx i).phase = .committed then s
      else s.rollback i

/-- Transaction `i` has committed writes. -/
def Applied (s : Sys S K Val Out ε ρ n) (i : Fin n) : Prop :=
  (s.tx i).phase = .committed ∧ (s.tx i).log ≠ []

instance (s : Sys S K Val Out ε ρ n) (i : Fin n) : Decidable (s.Applied i) :=
  inferInstanceAs (Decidable (_ ∧ _))

/-- No transaction commits writes after another was applied since its first step. -/
def Validated (s : Sys S K Val Out ε ρ n) : Action n → Prop
  | .step i => (s.tx i).phase = .running → (s.tx i).prog.Returns → (s.tx i).log ≠ [] →
      (s.tx i).snapshot = s.applied
  | .abort _ => True

instance (s : Sys S K Val Out ε ρ n) (a : Action n) : Decidable (s.Validated a) := by
  cases a <;> unfold Validated <;> infer_instance

/-! ### What a step does -/

variable {s : Sys S K Val Out ε ρ n} {i j : Fin n} {t : Tx K Val Out ε ρ}

omit [RowStore S K Val Out] in
@[simp] theorem setTx_db : (s.setTx i t).db = s.db := rfl

omit [RowStore S K Val Out] in
@[simp] theorem setTx_applied : (s.setTx i t).applied = s.applied := rfl

omit [RowStore S K Val Out] in
@[simp] theorem setTx_tx_self : (s.setTx i t).tx i = t := by simp [setTx]

omit [RowStore S K Val Out] in
theorem setTx_tx_ne (h : j ≠ i) : (s.setTx i t).tx j = s.tx j := by simp [setTx, h]

@[simp] theorem commit_tx_self : (s.commit i).tx i = { s.tx i with phase := .committed } := by
  simp [commit]

theorem commit_tx_ne (h : j ≠ i) : (s.commit i).tx j = s.tx j := by simp [commit, h]

/-- `t'` is transaction `i` one access later: what is left of its program leads to the same end,
whatever is committed in between. -/
structure Advance (s : Sys S K Val Out ε ρ n) (i : Fin n) (t' : Tx K Val Out ε ρ) : Prop where
  running : t'.phase = .running
  snapshot : t'.snapshot = if (s.tx i).phase = .idle then s.applied else (s.tx i).snapshot
  trace : (s.tx i).prog.trace s.db (s.tx i).log = t'.prog.trace s.db t'.log

/-- The transaction has not ended. -/
def Open (s : Sys S K Val Out ε ρ n) (i : Fin n) : Prop :=
  (s.tx i).phase = .idle ∨ (s.tx i).phase = .running

/-- Everything an action can do: nothing, a commit, a rollback, or one access. -/
theorem act_cases [DecidableEq K] (s : Sys S K Val Out ε ρ n) (a : Action n) :
    s.act a = s ∨
    (∃ i, a = .step i ∧ (s.tx i).prog.Returns ∧ s.Open i ∧ s.act a = s.commit i) ∨
    (∃ i, (s.tx i).phase ≠ .committed ∧ s.act a = s.rollback i) ∨
    ∃ i t', s.Open i ∧ Advance s i t' ∧ s.act a = s.setTx i t' := by
  cases a with
  | abort i =>
      by_cases h : (s.tx i).phase = .committed
      · exact Or.inl (if_pos h)
      · exact Or.inr (Or.inr (Or.inl ⟨i, h, if_neg h⟩))
  | step i =>
      by_cases hf : (s.tx i).phase = .committed ∨ (s.tx i).phase = .rolledBack
      · exact Or.inl (if_pos hf)
      have hopen : s.Open i := by
        cases e : (s.tx i).phase with
        | idle => exact Or.inl e
        | running => exact Or.inr e
        | committed => exact absurd (Or.inl e) hf
        | rolledBack => exact absurd (Or.inr e) hf
      rw [act, step]
      simp only [if_neg hf]
      have access : ∀ t', Advance s i t' → ∀ s', s' = s.setTx i t' →
          ∃ i' t', s.Open i' ∧ Advance s i' t' ∧ s' = s.setTx i' t' :=
        fun t' ht s' hs => ⟨i, t', hopen, ht, hs⟩
      cases e : (s.tx i).prog with
      | done r => exact Or.inr (Or.inl ⟨i, rfl, by rw [e]; trivial, hopen, rfl⟩)
      | throw err =>
          exact Or.inr (Or.inr (Or.inl ⟨i, fun q => hf (Or.inl q), rfl⟩))
      | read k next =>
          refine Or.inr (Or.inr (Or.inr (access _ ⟨rfl, rfl, ?_⟩ _ rfl)))
          rw [e]
          rfl
      | readForUpdate k next =>
          by_cases hk : s.Free i k
          · refine Or.inr (Or.inr (Or.inr (access _ ⟨rfl, rfl, ?_⟩ _ (if_pos hk))))
            rw [e]
            rfl
          · exact Or.inl (if_neg hk)
      | update k v next =>
          by_cases hk : s.Free i k
          · refine Or.inr (Or.inr (Or.inr (access _ ⟨rfl, rfl, ?_⟩ _ (if_pos hk))))
            rw [e]
            rfl
          · exact Or.inl (if_neg hk)
      | output o next =>
          refine Or.inr (Or.inr (Or.inr (access _ ⟨rfl, rfl, ?_⟩ _ rfl)))
          rw [e]
          rfl

/-- A transaction with nothing left to do commits. -/
theorem act_of_returns [DecidableEq K] (hrun : (s.tx i).phase = .running)
    (hret : (s.tx i).prog.Returns) : s.act (.step i) = s.commit i := by
  rw [act, step]
  simp only [hrun, reduceCtorEq, or_self, if_false]
  cases e : (s.tx i).prog with
  | done r => rfl
  | throw | read | readForUpdate | update | output => rw [e] at hret; exact hret.elim

/-! ### Every schedule -/

/-- What holds in every schedule: a transaction that has not begun has written nothing, and the
applied ones are counted. -/
structure Counted (progs : Fin n → Prog K Val Out ε ρ) (s : Sys S K Val Out ε ρ n) : Prop where
  idle : ∀ i, (s.tx i).phase = .idle → (s.tx i).prog = progs i ∧ (s.tx i).log = []
  snapshot_le : ∀ i, (s.tx i).phase = .running → (s.tx i).snapshot ≤ s.applied
  applied : 0 < s.applied → ∃ i, s.Applied i

omit [RowStore S K Val Out] in
theorem counted_init (db : S) (progs : Fin n → Prog K Val Out ε ρ) :
    Counted progs (init db progs) where
  idle _ _ := ⟨rfl, rfl⟩
  snapshot_le _ h := by cases h
  applied h := absurd h (lt_irrefl 0)

variable {progs : Fin n → Prog K Val Out ε ρ} {db₀ : S}

/-- An applied transaction stays applied. -/
theorem Applied.act [DecidableEq K] (h : s.Applied j) (a : Action n) : (s.act a).Applied j := by
  have keep : ∀ i, (s.tx i).phase ≠ .committed → j ≠ i := by
    rintro i hi rfl
    exact hi h.1
  have busy : ∀ i, s.Open i → (s.tx i).phase ≠ .committed := by
    rintro i (e | e) <;> rw [e] <;> simp
  rcases act_cases s a with e | ⟨i, -, -, hi, e⟩ | ⟨i, hi, e⟩ | ⟨i, t', hi, -, e⟩
  · rw [e]; exact h
  · rw [e, Applied, commit_tx_ne (keep i (busy i hi))]
    exact h
  · rw [e, Applied, rollback, setTx_tx_ne (keep i hi)]
    exact h
  · rw [e, Applied, setTx_tx_ne (keep i (busy i hi))]
    exact h

theorem Applied.run [DecidableEq K] (h : s.Applied j) (as : List (Action n)) :
    (Foundation.run Sys.act s as).Applied j :=
  run_invariant (I := fun s => Sys.Applied s j) (fun _ a h => Applied.act h a) h as

theorem Counted.act [DecidableEq K] (h : Counted progs s) (a : Action n) :
    Counted progs (s.act a) := by
  have still : 0 < s.applied → ∃ j, (s.act a).Applied j := fun hpos => by
    obtain ⟨j, hj⟩ := h.applied hpos
    exact ⟨j, hj.act a⟩
  rcases act_cases s a with e | ⟨i, -, -, hi, e⟩ | ⟨i, hi, e⟩ | ⟨i, t', hi, ha, e⟩
  · rw [e]; exact h
  · rw [e] at still ⊢
    refine ⟨fun j hj => ?_, fun j hj => ?_, fun hpos => ?_⟩
    · have hne : j ≠ i := by rintro rfl; rw [commit_tx_self] at hj; cases hj
      rw [commit_tx_ne hne] at hj ⊢
      exact h.idle j hj
    · have hne : j ≠ i := by rintro rfl; rw [commit_tx_self] at hj; cases hj
      rw [commit_tx_ne hne] at hj ⊢
      refine (h.snapshot_le j hj).trans ?_
      rw [commit]
      dsimp only
      split <;> omega
    · by_cases hl : (s.tx i).log = []
      · rw [commit] at hpos
        dsimp only at hpos
        rw [if_pos hl] at hpos
        exact still hpos
      · refine ⟨i, ?_⟩
        rw [Applied, commit_tx_self]
        exact ⟨rfl, hl⟩
  · rw [e, rollback] at still ⊢
    refine ⟨fun j hj => ?_, fun j hj => ?_, still⟩
    · have hne : j ≠ i := by rintro rfl; rw [setTx_tx_self] at hj; cases hj
      rw [setTx_tx_ne hne] at hj ⊢
      exact h.idle j hj
    · have hne : j ≠ i := by rintro rfl; rw [setTx_tx_self] at hj; cases hj
      rw [setTx_tx_ne hne] at hj ⊢
      exact h.snapshot_le j hj
  · rw [e] at still ⊢
    refine ⟨fun j hj => ?_, fun j hj => ?_, still⟩
    · have hne : j ≠ i := by
        rintro rfl
        rw [setTx_tx_self, ha.running] at hj
        cases hj
      rw [setTx_tx_ne hne] at hj ⊢
      exact h.idle j hj
    · by_cases hne : j = i
      · subst hne
        rw [setTx_tx_self, ha.snapshot, setTx_applied]
        split
        · exact le_refl _
        · rename_i hidle
          exact h.snapshot_le j (hi.resolve_left hidle)
      · rw [setTx_tx_ne hne] at hj ⊢
        exact h.snapshot_le j hj

/-- **A commit that is not validated is a second one.**  When at most one transaction is applied
in the end, every commit was validated. -/
theorem validated_of_single [DecidableEq K] (h : Counted progs s) {as : List (Action n)}
    (hone : ∀ i j, (Foundation.run act s as).Applied i → (Foundation.run act s as).Applied j →
      i = j) : Along act Validated s as := by
  induction as generalizing s with
  | nil => trivial
  | cons a as ih =>
      refine ⟨?_, ih (h.act a) hone⟩
      cases a with
      | abort i => trivial
      | step i =>
          intro hrun hret hlog
          by_contra hne
          have hlt : (s.tx i).snapshot < s.applied := lt_of_le_of_ne (h.snapshot_le i hrun) hne
          obtain ⟨j, hj⟩ := h.applied (Nat.zero_lt_of_lt hlt)
          have hji : j ≠ i := by
            rintro rfl
            rw [hj.1] at hrun
            cases hrun
          -- The commit applies a second transaction.
          have hi : (s.act (.step i)).Applied i := by
            rw [act_of_returns hrun hret, Applied, commit_tx_self]
            exact ⟨rfl, hlog⟩
          exact hji (hone j i ((hj.act (.step i)).run as) (hi.run as))

/-! ### Validated schedules -/

/-- The applied transactions of `order`, executed alone one after the other, make `db` of `db₀`. -/
inductive SerialRun (progs : Fin n → Prog K Val Out ε ρ) (db₀ : S) : List (Fin n) → S → Prop
  | nil : SerialRun progs db₀ [] db₀
  | concat {order : List (Fin n)} {db : S} (h : SerialRun progs db₀ order db) (i : Fin n) (r : ρ)
      (log : List (Write K Val Out)) (hlog : log ≠ [])
      (htrace : (progs i).trace db [] = (.ok r, log)) :
      SerialRun progs db₀ (order ++ [i]) (replay db log)

/-- What holds after every validated schedule of `progs` from `db₀`. -/
structure Serial (progs : Fin n → Prog K Val Out ε ρ) (db₀ : S)
    (s : Sys S K Val Out ε ρ n) : Prop where
  counted : Counted progs s
  resume : ∀ i, (s.tx i).phase = .running → (s.tx i).snapshot = s.applied →
    (progs i).trace s.db [] = (s.tx i).prog.trace s.db (s.tx i).log
  order : ∃ order, (∀ i, s.Applied i ↔ i ∈ order) ∧ SerialRun progs db₀ order s.db

theorem serial_init (db : S) (progs : Fin n → Prog K Val Out ε ρ) :
    Serial progs db (init db progs) where
  counted := counted_init db progs
  resume _ h := by cases h
  order := ⟨[], fun i => ⟨fun h => absurd h.1 (by simp [init, Tx.new]), fun h => by cases h⟩, .nil⟩

omit [RowStore S K Val Out] in
/-- Replacing a transaction that is not committed, by one that is not, applies nothing. -/
theorem applied_setTx (hi : (s.tx i).phase ≠ .committed) (ht : t.phase ≠ .committed) :
    (s.setTx i t).Applied j ↔ s.Applied j := by
  by_cases e : j = i
  · subst e
    rw [Applied, setTx_tx_self, Applied]
    exact ⟨fun q => absurd q.1 ht, fun q => absurd q.1 hi⟩
  · rw [Applied, setTx_tx_ne e, Applied]

omit [RowStore S K Val Out] in
theorem Open.not_committed (h : s.Open i) : (s.tx i).phase ≠ .committed := by
  rcases h with e | e <;> rw [e] <;> simp

/-- A commit of a transaction that has written nothing changes nothing. -/
theorem Serial.commit_unwritten (h : Serial progs db₀ s) (hc : Counted progs (s.commit i))
    (hi : s.Open i) (hlog : (s.tx i).log = []) : Serial progs db₀ (s.commit i) := by
  have hdb : (s.commit i).db = s.db := by
    change replay s.db (s.tx i).log = s.db
    rw [hlog, replay_nil]
  have happlied : (s.commit i).applied = s.applied := if_pos hlog
  refine ⟨hc, fun j hj hs => ?_, ?_⟩
  · have hne : j ≠ i := by rintro rfl; rw [commit_tx_self] at hj; cases hj
    rw [commit_tx_ne hne] at hj hs ⊢
    rw [happlied] at hs
    rw [hdb]
    exact h.resume j hj hs
  · obtain ⟨order, hmem, hrun⟩ := h.order
    refine ⟨order, fun j => ?_, hdb ▸ hrun⟩
    rw [← hmem j]
    by_cases e : j = i
    · subst e
      rw [Applied, commit_tx_self, Applied]
      exact ⟨fun q => absurd hlog q.2, fun q => absurd q.1 hi.not_committed⟩
    · rw [Applied, commit_tx_ne e, Applied]

/-- A validated commit of writes is one more transaction executed alone. -/
theorem Serial.commit_written (h : Serial progs db₀ s) (hc : Counted progs (s.commit i))
    (hi : s.Open i) (hret : (s.tx i).prog.Returns) (hlog : (s.tx i).log ≠ [])
    (hok : s.Validated (.step i)) : Serial progs db₀ (s.commit i) := by
  have hrun : (s.tx i).phase = .running :=
    hi.resolve_left fun e => hlog (h.counted.idle i e).2
  have happlied : (s.commit i).applied = s.applied + 1 := if_neg hlog
  refine ⟨hc, fun j hj hs => ?_, ?_⟩
  · -- The other transactions began before this commit.
    have hne : j ≠ i := by rintro rfl; rw [commit_tx_self] at hj; cases hj
    rw [commit_tx_ne hne] at hj hs
    have := h.counted.snapshot_le j hj
    omega
  · obtain ⟨order, hmem, hserial⟩ := h.order
    have htrace := h.resume i hrun (hok hrun hret hlog)
    obtain ⟨r, hr⟩ : ∃ r, (s.tx i).prog = .done r := by
      cases e : (s.tx i).prog with
      | done r => exact ⟨r, rfl⟩
      | throw | read | readForUpdate | update | output => rw [e] at hret; exact hret.elim
    rw [hr] at htrace
    refine ⟨order ++ [i], fun j => ?_, hserial.concat i r _ hlog htrace⟩
    rw [List.mem_append, List.mem_singleton, ← hmem j]
    by_cases e : j = i
    · subst e
      rw [Applied, commit_tx_self]
      exact ⟨fun _ => Or.inr rfl, fun _ => ⟨rfl, hlog⟩⟩
    · rw [Applied, commit_tx_ne e, Applied]
      exact ⟨Or.inl, fun q => q.resolve_right e⟩

theorem Serial.act [DecidableEq K] (h : Serial progs db₀ s) {a : Action n}
    (hok : s.Validated a) : Serial progs db₀ (s.act a) := by
  have hc := h.counted.act a
  rcases act_cases s a with e | ⟨i, rfl, hret, hi, e⟩ | ⟨i, hi, e⟩ | ⟨i, t', hi, ha, e⟩
  · rw [e]; exact h
  · rw [e] at hc ⊢
    by_cases hlog : (s.tx i).log = []
    · exact h.commit_unwritten hc hi hlog
    · exact h.commit_written hc hi hret hlog hok
  · rw [e, rollback] at hc ⊢
    refine ⟨hc, fun j hj hs => ?_, ?_⟩
    · have hne : j ≠ i := by rintro rfl; rw [setTx_tx_self] at hj; cases hj
      rw [setTx_tx_ne hne] at hj hs ⊢
      exact h.resume j hj hs
    · obtain ⟨order, hmem, hserial⟩ := h.order
      exact ⟨order, fun j => (applied_setTx hi (by simp)).trans (hmem j), hserial⟩
  · rw [e] at hc ⊢
    refine ⟨hc, fun j hj hs => ?_, ?_⟩
    · by_cases hne : j = i
      · subst hne
        rw [setTx_tx_self, setTx_applied, ha.snapshot] at hs
        rw [setTx_tx_self, setTx_db, ← ha.trace]
        rcases hi with hidle | hrun
        · obtain ⟨hprog, hlog⟩ := h.counted.idle j hidle
          rw [hprog, hlog]
        · rw [if_neg (by rw [hrun]; simp)] at hs
          exact h.resume j hrun hs
      · rw [setTx_tx_ne hne] at hj hs ⊢
        exact h.resume j hj hs
    · obtain ⟨order, hmem, hserial⟩ := h.order
      refine ⟨order, fun j => (applied_setTx hi.not_committed ?_).trans (hmem j), hserial⟩
      rw [ha.running]
      simp

/-- **Validated schedules are serial.**  The database is what the applied transactions, executed
alone one after the other, make of it. -/
theorem validated_run [DecidableEq K] {as : List (Action n)}
    (h : Along act Validated (init db₀ progs) as) :
    Serial progs db₀ (Foundation.run act (init db₀ progs) as) :=
  h.invariant (fun _ _ hs hok => hs.act hok) (serial_init db₀ progs)

end Sys

end

end Foundation
