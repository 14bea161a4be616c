import Mathlib.Logic.Relation
import Mathlib.Tactic.Common

/-!
# Foundation — requests that are idempotent by a key

Any number of executions share a key.  Each looks a row up under the key without a lock, and
answers with the row, or goes on without one: it runs code on the database and inserts the row at
the end.  Nothing but the primary key keeps two of them from going on.

`Step` is one step of one of the executions, each in a READ COMMITTED transaction of its own.  An
insert waits while another unfinished transaction has inserted, and fails once a row is
committed; a transaction may be rolled back at any moment, which is also what a throw does.  The
code (`Prog.code`) stands for any number of statements, spread over the time since the
transaction's previous step.  While no other transaction has committed writes since this one
began, these statements see the old database and the transaction's own writes, so the code does
what it does alone.  After such a commit they may see rows of before and after, and what the code
does is left open.

`once`: in every schedule at most one execution commits writes, the database is what that one
makes of it alone, and every execution that returned, returned the row that is stored.
-/

namespace Foundation

namespace Idempotence

/-- An execution: what is left of it.  `code` ends with a result and a database that the relation
gives for the database it starts on. -/
inductive Prog (S R ε : Type) where
  | done (r : R)
  | throw (e : ε)
  | lookup (next : Option R → Prog S R ε)
  | code {β : Type} (x : S → β → S → Prop) (next : β → Prog S R ε)
  | insert (r : R) (next : Prog S R ε)

/-- The row under the key, and the insert, which fails when the key is taken. -/
structure Slot (S R : Type) where
  row : S → Option R
  insert? : S → R → Option S

variable {S R ε ι : Type}

namespace Prog

/-- The execution alone: it returns `r` and leaves the second database. -/
inductive Ends (slot : Slot S R) : Prog S R ε → S → R → S → Prop
  | done (r : R) (s : S) : Ends slot (.done r) s r s
  | lookup {next : Option R → Prog S R ε} {s s' : S} {r : R}
      (h : Ends slot (next (slot.row s)) s r s') : Ends slot (.lookup next) s r s'
  | code {β : Type} {x : S → β → S → Prop} {next : β → Prog S R ε} {s s₁ s' : S} {r : R} (b : β)
      (hx : x s b s₁) (h : Ends slot (next b) s₁ r s') : Ends slot (.code x next) s r s'
  | insert {next : Prog S R ε} {s s₁ s' : S} {r r' : R} (hins : slot.insert? s r = some s₁)
      (h : Ends slot next s₁ r' s') : Ends slot (.insert r next) s r' s'

/-- Every way to return goes through the insert of the row that is returned; the code leaves the
row under the key as it is. -/
def Stores (slot : Slot S R) : Prog S R ε → Prop
  | .done _ => False
  | .throw _ => True
  | .lookup next => ∀ o, (next o).Stores slot
  | .code x next => (∀ s b s', x s b s' → slot.row s' = slot.row s) ∧ ∀ b, (next b).Stores slot
  | .insert r next =>
      (∀ s s', slot.insert? s r = some s' → slot.row s = none ∧ slot.row s' = some r) ∧
        next = .done r

/-- An answer with the row, or a throw. -/
def Answers (r : R) (p : Prog S R ε) : Prop := p = .done r ∨ ∃ e, p = .throw e

/-- The execution looks the key up before anything else, or throws. -/
def Guarded (slot : Slot S R) : Prog S R ε → Prop
  | .throw _ => True
  | .lookup next => (next none).Stores slot ∧ ∀ r, (next (some r)).Answers r
  | _ => False

end Prog

/-! ### Executions side by side -/

/-- Where the transaction of an execution is. -/
inductive Phase (R : Type) where
  | idle
  | running
  | committed (r : R)
  | rolledBack

/-- One execution: what is left of it, the database as it sees it, the row it has inserted,
whether it has written, and how many transactions had committed writes when it began (which no
step of it looks at). -/
structure Tx (S R ε : Type) where
  prog : Prog S R ε
  phase : Phase R
  view : S
  inserted : Option R
  wrote : Bool
  snapshot : ℕ

/-- The executions on one database, and how many of them have committed writes. -/
structure Sys (S R ε ι : Type) where
  db : S
  tx : ι → Tx S R ε
  applied : ℕ

namespace Sys

/-- The system before anything happened. -/
def init (db : S) (progs : ι → Prog S R ε) : Sys S R ε ι :=
  ⟨db, fun i => ⟨progs i, .idle, db, none, false, 0⟩, 0⟩

def Running (s : Sys S R ε ι) (i : ι) : Prop := (s.tx i).phase = .running

/-- Nothing was committed since the transaction began. -/
def Undisturbed (s : Sys S R ε ι) (i : ι) : Prop := (s.tx i).snapshot = s.applied

/-- The transaction has committed writes. -/
def Applied (s : Sys S R ε ι) (i : ι) : Prop :=
  (∃ r, (s.tx i).phase = .committed r) ∧ (s.tx i).wrote = true

/-- The row that a transaction finds under the key: its own, or the committed one. -/
def visible (slot : Slot S R) (s : Sys S R ε ι) (i : ι) : Option R :=
  (s.tx i).inserted.or (slot.row s.db)

variable [DecidableEq ι]

/-- Replace one transaction. -/
def setTx (s : Sys S R ε ι) (i : ι) (t : Tx S R ε) : Sys S R ε ι :=
  { s with tx := Function.update s.tx i t }

/-- The system after a commit that makes `db` of the database. -/
def commit (s : Sys S R ε ι) (i : ι) (r : R) (db : S) : Sys S R ε ι where
  db := db
  tx := Function.update s.tx i { s.tx i with phase := .committed r }
  applied := if (s.tx i).wrote then s.applied + 1 else s.applied

/-- One step of one execution. -/
inductive Step (slot : Slot S R) (s : Sys S R ε ι) : Sys S R ε ι → Prop
  | begin (i : ι) (h : (s.tx i).phase = .idle) :
      Step slot s (s.setTx i { s.tx i with
        phase := .running, view := s.db, snapshot := s.applied })
  | lookup (i : ι) (next : Option R → Prog S R ε) (h : s.Running i)
      (hp : (s.tx i).prog = .lookup next) :
      Step slot s (s.setTx i { s.tx i with prog := next (s.visible slot i) })
  | code (i : ι) {β : Type} (x : S → β → S → Prop) (next : β → Prog S R ε) (b : β) (view : S)
      (h : s.Running i) (hp : (s.tx i).prog = .code x next)
      (hx : s.Undisturbed i → x (s.tx i).view b view) :
      Step slot s (s.setTx i { s.tx i with prog := next b, view, wrote := true })
  | insert (i : ι) (r : R) (next : Prog S R ε) (view : S) (h : s.Running i)
      (hp : (s.tx i).prog = .insert r next) (hnew : slot.row s.db = none)
      (hfree : ∀ j, s.Running j → (s.tx j).inserted = none)
      (hview : s.Undisturbed i → slot.insert? (s.tx i).view r = some view) :
      Step slot s (s.setTx i { s.tx i with
        prog := next, view, inserted := some r, wrote := true })
  | commit (i : ι) (r : R) (db : S) (h : s.Running i) (hp : (s.tx i).prog = .done r)
      (hread : (s.tx i).wrote = false → db = s.db)
      (hrow : slot.row db = s.visible slot i)
      (hdb : (s.tx i).wrote = true → s.Undisturbed i → db = (s.tx i).view) :
      Step slot s (s.commit i r db)
  | rollback (i : ι) (h : s.Running i) :
      Step slot s (s.setTx i { s.tx i with phase := .rolledBack })

/-- Any number of steps. -/
abbrev Steps (slot : Slot S R) : Sys S R ε ι → Sys S R ε ι → Prop :=
  Relation.ReflTransGen (Step slot)

/-! ### What every step keeps -/

/-- Where a running execution is between its lookup and its end. -/
inductive Stage (slot : Slot S R) (p₀ : Prog S R ε) (row : Option R) (t : Tx S R ε) : Prop
  | started (hp : t.prog = p₀) (hw : t.wrote = false) (hi : t.inserted = none)
  | answering (r : R) (hp : t.prog.Answers r) (hr : row = some r) (hw : t.wrote = false)
      (hi : t.inserted = none)
  | storing (hp : t.prog.Stores slot) (hi : t.inserted = none)
  | stored (r : R) (hp : t.prog = .done r) (hw : t.wrote = true) (hi : t.inserted = some r)
      (hr : row = none)

/-- A running execution that was not disturbed has gone on as it does alone. -/
structure Alone (slot : Slot S R) (p₀ : Prog S R ε) (db : S) (t : Tx S R ε) : Prop where
  row : slot.row t.view = t.inserted.or (slot.row db)
  ends : ∀ r s', t.prog.Ends slot t.view r s' → p₀.Ends slot db r s'

/-- Whether an execution has committed writes, and what it made of the database. -/
inductive Outcome (slot : Slot S R) (progs : ι → Prog S R ε) (db₀ : S) (s : Sys S R ε ι) : Prop
  | none (happlied : s.applied = 0) (hdb : s.db = db₀) (hnone : ∀ i, ¬ s.Applied i)
  | one (i : ι) (r : R) (happlied : s.applied = 1) (hi : ∀ j, s.Applied j ↔ j = i)
      (hr : (s.tx i).phase = .committed r) (hnew : slot.row db₀ = none)
      (hrow : slot.row s.db = some r) (hends : (progs i).Ends slot db₀ r s.db)

/-- What holds after every schedule. -/
structure Once (slot : Slot S R) (progs : ι → Prog S R ε) (db₀ : S) (s : Sys S R ε ι) : Prop where
  idle : ∀ i, (s.tx i).phase = .idle →
    (s.tx i).prog = progs i ∧ (s.tx i).wrote = false ∧ (s.tx i).inserted = none
  stage : ∀ i, s.Running i → Stage slot (progs i) (slot.row s.db) (s.tx i)
  snapshot_le : ∀ i, s.Running i → (s.tx i).snapshot ≤ s.applied
  alone : ∀ i, s.Running i → s.Undisturbed i → Alone slot (progs i) s.db (s.tx i)
  single : ∀ i j, s.Running i → s.Running j → (s.tx i).inserted ≠ none →
    (s.tx j).inserted ≠ none → i = j
  returned : ∀ i r, (s.tx i).phase = .committed r → slot.row s.db = some r
  outcome : Outcome slot progs db₀ s

variable {slot : Slot S R} {progs : ι → Prog S R ε} {db₀ : S} {s s' : Sys S R ε ι} {i j : ι}
  {t : Tx S R ε} {r : R}

/-- A transaction after one was replaced. -/
theorem setTx_tx (s : Sys S R ε ι) (i j : ι) (t : Tx S R ε) :
    j = i ∧ (s.setTx i t).tx j = t ∨ j ≠ i ∧ (s.setTx i t).tx j = s.tx j := by
  by_cases e : j = i
  · exact Or.inl ⟨e, e ▸ Function.update_self ..⟩
  · exact Or.inr ⟨e, Function.update_of_ne e ..⟩

/-- A transaction after one has committed. -/
theorem commit_tx (s : Sys S R ε ι) (i j : ι) (r : R) (db : S) :
    j = i ∧ (s.commit i r db).tx j = { s.tx i with phase := .committed r } ∨
      j ≠ i ∧ (s.commit i r db).tx j = s.tx j := by
  by_cases e : j = i
  · exact Or.inl ⟨e, e ▸ Function.update_self ..⟩
  · exact Or.inr ⟨e, Function.update_of_ne e ..⟩

/-- Replacing a transaction before it commits, by one that is not committed, applies nothing. -/
theorem applied_setTx (hi : ∀ r, (s.tx i).phase ≠ .committed r)
    (ht : ∀ r, t.phase ≠ .committed r) : (s.setTx i t).Applied j ↔ s.Applied j := by
  rcases setTx_tx s i j t with ⟨rfl, e⟩ | ⟨-, e⟩
  · rw [Applied, e, Applied]
    exact ⟨fun ⟨⟨r, h⟩, _⟩ => absurd h (ht r), fun ⟨⟨r, h⟩, _⟩ => absurd h (hi r)⟩
  · rw [Applied, e, Applied]

/-- Replacing a transaction before it commits leaves the outcome. -/
theorem Outcome.setTx (h : Outcome slot progs db₀ s) (hi : ∀ r, (s.tx i).phase ≠ .committed r)
    (ht : ∀ r, t.phase ≠ .committed r) : Outcome slot progs db₀ (s.setTx i t) := by
  cases h with
  | none happlied hdb hnone =>
      exact .none happlied hdb fun j hj => hnone j ((applied_setTx hi ht).mp hj)
  | one k r happlied hk hr hnew hrow hends =>
      refine .one k r happlied (fun j => (applied_setTx hi ht).trans (hk j)) ?_ hnew hrow hends
      rcases setTx_tx s i k t with ⟨rfl, -⟩ | ⟨-, e⟩
      · exact absurd hr (hi r)
      · rw [e]
        exact hr

/-- What the next state of a running transaction has to meet. -/
structure Fits (slot : Slot S R) (progs : ι → Prog S R ε) (s : Sys S R ε ι) (i : ι)
    (t : Tx S R ε) : Prop where
  stage : Stage slot (progs i) (slot.row s.db) t
  snapshot_le : t.snapshot ≤ s.applied
  alone : t.snapshot = s.applied → Alone slot (progs i) s.db t
  single : t.inserted ≠ none → ∀ j, j ≠ i → s.Running j → (s.tx j).inserted = none

omit [DecidableEq ι] in
/-- What is known of a transaction that runs. -/
theorem Once.fits (h : Once slot progs db₀ s) (hi : s.Running i) :
    Fits slot progs s i (s.tx i) where
  stage := h.stage i hi
  snapshot_le := h.snapshot_le i hi
  alone := h.alone i hi
  single hins j hne hj := by
    by_contra hother
    exact hne (h.single j i hj hi hother hins)

/-- A step of one transaction that commits nothing. -/
theorem Once.setTx (h : Once slot progs db₀ s) (hi : ∀ r, (s.tx i).phase ≠ .committed r)
    (hidle : t.phase ≠ .idle) (ht : ∀ r, t.phase ≠ .committed r)
    (hfits : t.phase = .running → Fits slot progs s i t) : Once slot progs db₀ (s.setTx i t) where
  idle j hj := by
    rcases setTx_tx s i j t with ⟨rfl, e⟩ | ⟨-, e⟩ <;> rw [e] at hj ⊢
    · exact absurd hj hidle
    · exact h.idle j hj
  stage j hj := by
    rcases setTx_tx s i j t with ⟨rfl, e⟩ | ⟨-, e⟩ <;> rw [Running, e] at hj <;> rw [e]
    · exact (hfits hj).stage
    · exact h.stage j hj
  snapshot_le j hj := by
    rcases setTx_tx s i j t with ⟨rfl, e⟩ | ⟨-, e⟩ <;> rw [Running, e] at hj <;> rw [e]
    · exact (hfits hj).snapshot_le
    · exact h.snapshot_le j hj
  alone j hj hu := by
    rcases setTx_tx s i j t with ⟨rfl, e⟩ | ⟨-, e⟩ <;>
      rw [Running, e] at hj <;> rw [Undisturbed, e] at hu <;> rw [e]
    · exact (hfits hj).alone hu
    · exact h.alone j hj hu
  single j k hj hk hij hik := by
    rcases setTx_tx s i j t with ⟨ej, e⟩ | ⟨hne, e⟩ <;>
      rcases setTx_tx s i k t with ⟨ek, e'⟩ | ⟨hne', e'⟩ <;>
      rw [Running, e] at hj <;> rw [Running, e'] at hk <;> rw [e] at hij <;> rw [e'] at hik
    · rw [ej, ek]
    · exact absurd ((hfits hj).single hij k hne' hk) hik
    · exact absurd ((hfits hk).single hik j hne hj) hij
    · exact h.single j k hj hk hij hik
  returned j r hj := by
    rcases setTx_tx s i j t with ⟨rfl, e⟩ | ⟨-, e⟩ <;> rw [e] at hj
    · exact absurd hj (ht r)
    · exact h.returned j r hj
  outcome := h.outcome.setTx hi ht

omit [DecidableEq ι] in
theorem Running.not_committed (h : s.Running i) (r : R) : (s.tx i).phase ≠ .committed r := by
  rw [h]
  exact fun e => by cases e

/-! ### Every step, and every schedule -/

section

variable (h : Once slot progs db₀ s)
include h

/-- A transaction that is running goes on, and stays running. -/
theorem Once.go (hi : s.Running i) (hphase : t.phase = .running)
    (hfits : Fits slot progs s i t) : Once slot progs db₀ (s.setTx i t) :=
  h.setTx hi.not_committed (by rw [hphase]; exact fun e => by cases e)
    (fun r => by rw [hphase]; exact fun e => by cases e) fun _ => hfits

theorem Once.begin (hi : (s.tx i).phase = .idle) :
    Once slot progs db₀ (s.setTx i { s.tx i with
      phase := .running, view := s.db, snapshot := s.applied }) := by
  obtain ⟨hprog, hwrote, hins⟩ := h.idle i hi
  refine h.setTx (fun r => by rw [hi]; exact fun e => by cases e) (fun e => by cases e)
    (fun r e => by cases e) fun _ =>
      ⟨.started hprog hwrote hins, Nat.le_refl _, fun _ => ⟨?_, ?_⟩, ?_⟩
  · change slot.row s.db = (s.tx i).inserted.or (slot.row s.db)
    rw [hins, Option.none_or]
  · intro r s' hends
    rw [← hprog]
    exact hends
  · exact fun hne => absurd hins hne

theorem Once.lookup (hguard : (progs i).Guarded slot)
    {next : Option R → Prog S R ε} (hi : s.Running i) (hp : (s.tx i).prog = .lookup next) :
    Once slot progs db₀ (s.setTx i { s.tx i with prog := next (s.visible slot i) }) := by
  have now := h.fits hi
  refine h.go hi hi ⟨?_, now.snapshot_le, fun hu => ⟨(now.alone hu).row, fun r s' hends => ?_⟩,
    now.single⟩
  · cases now.stage with
    | started hp₀ hw hins =>
        rw [← hp₀, hp] at hguard
        have hvisible : s.visible slot i = slot.row s.db := by
          rw [visible, hins, Option.none_or]
        cases hrow : slot.row s.db with
        | none =>
            refine .storing ?_ hins
            change (next (s.visible slot i)).Stores slot
            rw [hvisible, hrow]
            exact hguard.1
        | some r =>
            refine .answering r ?_ rfl hw hins
            change (next (s.visible slot i)).Answers r
            rw [hvisible, hrow]
            exact hguard.2 r
    | answering r ha =>
        rcases ha with e | ⟨err, e⟩ <;> rw [hp] at e <;> cases e
    | storing hs hins =>
        rw [hp] at hs
        exact .storing (hs _) hins
    | stored r e =>
        rw [hp] at e
        cases e
  · refine (now.alone hu).ends r s' ?_
    rw [hp]
    refine .lookup ?_
    rw [(now.alone hu).row]
    exact hends

theorem Once.code (hguard : (progs i).Guarded slot) {β : Type}
    {x : S → β → S → Prop} {next : β → Prog S R ε} {b : β} {view : S} (hi : s.Running i)
    (hp : (s.tx i).prog = .code x next) (hx : s.Undisturbed i → x (s.tx i).view b view) :
    Once slot progs db₀ (s.setTx i { s.tx i with prog := next b, view, wrote := true }) := by
  have now := h.fits hi
  obtain ⟨⟨hkeeps, hnext⟩, hins⟩ : (Prog.code x next).Stores slot ∧ (s.tx i).inserted = none := by
    cases now.stage with
    | started hp₀ =>
        rw [← hp₀, hp] at hguard
        exact hguard.elim
    | answering r ha => rcases ha with e | ⟨err, e⟩ <;> rw [hp] at e <;> cases e
    | storing hs hins => exact ⟨hp ▸ hs, hins⟩
    | stored r e => rw [hp] at e; cases e
  refine h.go hi hi ⟨.storing (hnext b) hins, now.snapshot_le, fun hu => ⟨?_, fun r s' hends => ?_⟩,
    now.single⟩
  · exact (hkeeps _ _ _ (hx hu)).trans (now.alone hu).row
  · refine (now.alone hu).ends r s' ?_
    rw [hp]
    exact .code b (hx hu) hends

theorem Once.insert (hguard : (progs i).Guarded slot)
    {next : Prog S R ε} {view : S} (hi : s.Running i) (hp : (s.tx i).prog = .insert r next)
    (hnew : slot.row s.db = none) (hfree : ∀ j, s.Running j → (s.tx j).inserted = none)
    (hview : s.Undisturbed i → slot.insert? (s.tx i).view r = some view) :
    Once slot progs db₀ (s.setTx i { s.tx i with
      prog := next, view, inserted := some r, wrote := true }) := by
  have now := h.fits hi
  obtain ⟨hlaw, hnext⟩ : (Prog.insert r next).Stores slot := by
    cases now.stage with
    | started hp₀ =>
        rw [← hp₀, hp] at hguard
        exact hguard.elim
    | answering r ha => rcases ha with e | ⟨err, e⟩ <;> rw [hp] at e <;> cases e
    | storing hs => exact hp ▸ hs
    | stored r e => rw [hp] at e; cases e
  refine h.go hi hi ⟨.stored r hnext rfl rfl hnew, now.snapshot_le,
    fun hu => ⟨(hlaw _ _ (hview hu)).2, fun r' s' hends => ?_⟩, fun _ j _ hj => hfree j hj⟩
  refine (now.alone hu).ends r' s' ?_
  rw [hp]
  exact .insert (hview hu) hends

/-- A commit that has written nothing. -/
theorem Once.commit_read (hi : s.Running i)
    (hrow : slot.row s.db = some r) (hw : (s.tx i).wrote = false) :
    Once slot progs db₀ (s.commit i r s.db) := by
  have happlied : (s.commit i r s.db).applied = s.applied := by
    rw [commit, hw]
    rfl
  have applied_iff : ∀ j, (s.commit i r s.db).Applied j ↔ s.Applied j := by
    intro j
    rcases commit_tx s i j r s.db with ⟨rfl, e⟩ | ⟨-, e⟩
    · rw [Applied, e, Applied]
      simp only [hw, Bool.false_eq_true, and_false]
    · rw [Applied, e, Applied]
  have running : ∀ j, (s.commit i r s.db).Running j →
      s.Running j ∧ (s.commit i r s.db).tx j = s.tx j := by
    intro j hj
    rcases commit_tx s i j r s.db with ⟨rfl, e⟩ | ⟨-, e⟩
    · rw [Running, e] at hj
      cases hj
    · exact ⟨by rwa [Running, e] at hj, e⟩
  refine ⟨fun j hj => ?_, fun j hj => ?_, fun j hj => ?_, fun j hj hu => ?_,
    fun j k hj hk hij hik => ?_, fun j r' hj => ?_, ?_⟩
  · rcases commit_tx s i j r s.db with ⟨rfl, e⟩ | ⟨-, e⟩ <;> rw [e] at hj ⊢
    · cases hj
    · exact h.idle j hj
  · obtain ⟨hj, e⟩ := running j hj
    rw [e]
    exact h.stage j hj
  · obtain ⟨hj, e⟩ := running j hj
    rw [e, happlied]
    exact h.snapshot_le j hj
  · obtain ⟨hj, e⟩ := running j hj
    rw [Undisturbed, e, happlied] at hu
    rw [e]
    exact h.alone j hj hu
  · obtain ⟨hj, e⟩ := running j hj
    obtain ⟨hk, e'⟩ := running k hk
    rw [e] at hij
    rw [e'] at hik
    exact h.single j k hj hk hij hik
  · rcases commit_tx s i j r s.db with ⟨rfl, e⟩ | ⟨-, e⟩ <;> rw [e] at hj
    · cases hj
      exact hrow
    · exact h.returned j r' hj
  · cases h.outcome with
    | none hzero hdb hnone =>
        exact .none (happlied.trans hzero) hdb fun j hj => hnone j ((applied_iff j).mp hj)
    | one k r' hone hk hr hnew hrow' hends =>
        refine .one k r' (happlied.trans hone) (fun j => (applied_iff j).trans (hk j)) ?_ hnew hrow'
          hends
        rcases commit_tx s i k r s.db with ⟨rfl, e⟩ | ⟨-, e⟩
        · rw [hi] at hr
          cases hr
        · rw [e]
          exact hr

/-- A commit that inserts the row: it is the first one. -/
theorem Once.commit_written {db : S} (hi : s.Running i)
    (hp : (s.tx i).prog = .done r) (hw : (s.tx i).wrote = true)
    (hins : (s.tx i).inserted = some r) (hnew : slot.row s.db = none)
    (hrow : slot.row db = s.visible slot i)
    (hdb : (s.tx i).wrote = true → s.Undisturbed i → db = (s.tx i).view) :
    Once slot progs db₀ (s.commit i r db) := by
  have hstored : slot.row db = some r := by rw [hrow, visible, hins, Option.some_or]
  have happlied : (s.commit i r db).applied = s.applied + 1 := by
    rw [commit, hw]
    rfl
  have running : ∀ j, (s.commit i r db).Running j →
      j ≠ i ∧ s.Running j ∧ (s.commit i r db).tx j = s.tx j := by
    intro j hj
    rcases commit_tx s i j r db with ⟨rfl, e⟩ | ⟨hne, e⟩
    · rw [Running, e] at hj
      cases hj
    · exact ⟨hne, by rwa [Running, e] at hj, e⟩
  refine ⟨fun j hj => ?_, fun j hj => ?_, fun j hj => ?_, fun j hj hu => ?_,
    fun j k hj hk hij hik => ?_, fun j r' hj => ?_, ?_⟩
  · rcases commit_tx s i j r db with ⟨rfl, e⟩ | ⟨-, e⟩ <;> rw [e] at hj ⊢
    · cases hj
    · exact h.idle j hj
  · obtain ⟨hne, hj, e⟩ := running j hj
    rw [e]
    cases h.stage j hj with
    | started hp hw hi => exact .started hp hw hi
    | answering r' _ hr => exact absurd (hnew.symm.trans hr) (by simp)
    | storing hp hi => exact .storing hp hi
    | stored r' _ _ hi' =>
        refine absurd (h.single j i hj hi ?_ ?_) hne
        · rw [hi']; simp
        · rw [hins]; simp
  · obtain ⟨-, hj, e⟩ := running j hj
    rw [e, happlied]
    exact Nat.le_succ_of_le (h.snapshot_le j hj)
  · -- Every other running transaction began before this commit.
    obtain ⟨-, hj, e⟩ := running j hj
    rw [Undisturbed, e, happlied] at hu
    have := h.snapshot_le j hj
    omega
  · obtain ⟨-, hj, e⟩ := running j hj
    obtain ⟨-, hk, e'⟩ := running k hk
    rw [e] at hij
    rw [e'] at hik
    exact h.single j k hj hk hij hik
  · rcases commit_tx s i j r db with ⟨rfl, e⟩ | ⟨-, e⟩ <;> rw [e] at hj
    · cases hj
      exact hstored
    · exact absurd (hnew.symm.trans (h.returned j r' hj)) (by simp)
  · cases h.outcome with
    | one k r' _ _ _ _ hrow' => exact absurd (hnew.symm.trans hrow') (by simp)
    | none hzero hdb₀ hnone =>
        have hu : s.Undisturbed i := by
          have := h.snapshot_le i hi
          rw [Undisturbed]
          omega
        obtain rfl := hdb hw hu
        refine .one i r (by rw [happlied, hzero]) (fun j => ?_) ?_ (hdb₀ ▸ hnew) hstored ?_
        · rcases commit_tx s i j r (s.tx i).view with ⟨rfl, e⟩ | ⟨hne, e⟩
          · rw [Applied, e]
            exact iff_of_true ⟨⟨r, rfl⟩, hw⟩ rfl
          · rw [Applied, e]
            exact iff_of_false (hnone j) hne
        · rcases commit_tx s i i r (s.tx i).view with ⟨-, e⟩ | ⟨hne, -⟩
          · rw [e]
          · exact absurd rfl hne
        · have := (h.alone i hi hu).ends r (s.tx i).view (hp ▸ .done r _)
          rwa [hdb₀] at this

/-- **Every step keeps it.** -/
theorem Once.step (hguard : ∀ i, (progs i).Guarded slot)
    (hs : Step slot s s') : Once slot progs db₀ s' := by
  cases hs with
  | begin i hi => exact h.begin hi
  | lookup i next hi hp => exact h.lookup (hguard i) hi hp
  | code i x next b view hi hp hx => exact h.code (hguard i) hi hp hx
  | insert i r next view hi hp hnew hfree hview =>
      exact h.insert (hguard i) hi hp hnew hfree hview
  | rollback i hi =>
      exact h.setTx hi.not_committed (fun e => by cases e) (fun r e => by cases e)
        fun e => by cases e
  | commit i r db hi hp hread hrow hdb =>
      cases h.stage i hi with
      | started hp₀ =>
          have := hguard i
          rw [← hp₀, hp] at this
          exact this.elim
      | answering r' ha hr hw =>
          obtain rfl := hread hw
          rcases ha with e | ⟨err, e⟩ <;> rw [hp] at e <;> cases e
          exact h.commit_read hi hr hw
      | storing hst =>
          rw [hp] at hst
          exact hst.elim
      | stored r' e hw hins hnew =>
          rw [hp] at e
          cases e
          exact h.commit_written hi hp hw hins hnew hrow hdb

end

omit [DecidableEq ι] in
theorem once_init (slot : Slot S R) (progs : ι → Prog S R ε) (db₀ : S) :
    Once slot progs db₀ (init db₀ progs) where
  idle _ _ := ⟨rfl, rfl, rfl⟩
  stage _ h := by cases h
  snapshot_le _ h := by cases h
  alone _ h := by cases h
  single _ _ h := by cases h
  returned _ _ h := by cases h
  outcome := .none rfl rfl fun i h => by obtain ⟨⟨r, h⟩, -⟩ := h; cases h

/-- **Every schedule.**  At most one execution commits writes, the database is what that one makes
of it alone, and what was returned is the row that is stored. -/
theorem once (hguard : ∀ i, (progs i).Guarded slot) (h : Steps slot (init db₀ progs) s) :
    Once slot progs db₀ s := by
  induction h with
  | refl => exact once_init slot progs db₀
  | tail _ hs ih => exact ih.step hguard hs

end Sys

end Idempotence

end Foundation
