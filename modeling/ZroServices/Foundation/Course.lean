import ZroServices.Foundation.Transaction

/-!
# Foundation — what a transaction saw

Under READ COMMITTED each access of a transaction sees the database committed at that moment,
which others may change before the next access.  `Course seen now p` relates the program `p` of a
transaction to what is left of it, its writes and the rows it holds: every access was made on a
committed database that meets `seen`, and a row that was read for update is `now` still what it
was, because nobody else may write it (`Stable` rows depend on no other row).

`Followed` says of a system that every open transaction is on such a course, where every database
it saw is before the present one in an order `le` of the caller's choice: that identifiers stay
taken, that a column is never written, that a counter only grows.  Every action keeps it when the
commits go along with `le` (`Followed.act`).  What a transaction is about to commit is then found
by reading its program from the front (`Prog.MayReturn`, `Followed.mayReturn`), and no schedule has
to be looked at.
-/

namespace Foundation

universe u

section
variable {S : Type u} {K : Type} {Val : K → Type} {Out ε ρ : Type} [RowStore S K Val Out]

/-- What is read at `k` depends on the writes at `k` only. -/
structure Stable (S : Type u) {K : Type} {Val : K → Type} {Out : Type} [RowStore S K Val Out]
    (k : K) : Prop where
  put : ∀ (s : S) (k' : K) (v : Val k'), k' ≠ k →
    RowStore.get (RowStore.put s k' v) k = RowStore.get s k
  output : ∀ (s : S) (o : Out), RowStore.get (RowStore.output s o) k = RowStore.get s k

/-- Writes of other rows leave a stable row. -/
theorem Stable.replay {k : K} (hk : Stable S k) {log : List (Write K Val Out)}
    (h : ∀ k' v, Write.row k' v ∈ log → k' ≠ k) (s : S) :
    RowStore.get (replay s log) k = RowStore.get s k := by
  induction log generalizing s with
  | nil => rfl
  | cons w log ih =>
      have rest := ih (fun k' v hm => h k' v (List.mem_cons_of_mem w hm)) (w.apply s)
      refine Eq.trans rest ?_
      cases w with
      | row k' v => exact hk.put s k' v (h k' v List.mem_cons_self)
      | output o => exact hk.output s o

/-- What may be left of `p`, with the writes made and the rows held, when every access was made
on a database that meets `seen`. -/
inductive Course (seen : S → Prop) (now : S) (p : Prog K Val Out ε ρ) :
    Prog K Val Out ε ρ → List (Write K Val Out) → List K → Prop
  | start : Course seen now p p [] []
  | read {k : K} {next : Option (Val k) → Prog K Val Out ε ρ} {log : List (Write K Val Out)}
      {held : List K} {db : S} (h : Course seen now p (.read k next) log held) (hdb : seen db) :
      Course seen now p (next (RowStore.get (replay db log) k)) log held
  | lock {k : K} {next : Option (Val k) → Prog K Val Out ε ρ} {log : List (Write K Val Out)}
      {held : List K} {db : S} (h : Course seen now p (.readForUpdate k next) log held)
      (hdb : seen db) (hnow : Stable S k → RowStore.get db k = RowStore.get now k) :
      Course seen now p (next (RowStore.get (replay db log) k)) log (k :: held)
  | update {k : K} {v : Val k} {next : Prog K Val Out ε ρ} {log : List (Write K Val Out)}
      {held : List K} (h : Course seen now p (.update k v next) log held) :
      Course seen now p next (log ++ [.row k v]) (k :: held)
  | output {o : Out} {next : Prog K Val Out ε ρ} {log : List (Write K Val Out)}
      {held : List K} (h : Course seen now p (.output o next) log held) :
      Course seen now p next (log ++ [.output o]) held

namespace Course

variable {seen seen' : S → Prop} {now now' : S} {p q : Prog K Val Out ε ρ}
  {log : List (Write K Val Out)} {held : List K}

/-- The rows that were written are held. -/
theorem mem_held (h : Course seen now p q log held) {k : K} {v : Val k}
    (hm : Write.row k v ∈ log) : k ∈ held := by
  induction h with
  | start => cases hm
  | read _ _ ih => exact ih hm
  | lock _ _ _ ih => exact List.mem_cons_of_mem _ (ih hm)
  | update _ ih =>
      rcases List.mem_append.mp hm with hm | hm
      · exact List.mem_cons_of_mem _ (ih hm)
      · cases List.mem_singleton.mp hm
        exact List.mem_cons_self
  | output _ ih =>
      rcases List.mem_append.mp hm with hm | hm
      · exact ih hm
      · cases List.mem_singleton.mp hm

/-- The same course, after others committed: they wrote none of the rows held. -/
theorem mono (h : Course seen now p q log held) (hseen : ∀ db, seen db → seen' db)
    (hnow : ∀ k ∈ held, Stable S k → RowStore.get now k = RowStore.get now' k) :
    Course seen' now' p q log held := by
  induction h with
  | start => exact .start
  | read _ hdb ih => exact .read (ih hnow) (hseen _ hdb)
  | lock _ hdb hk ih =>
      refine .lock (ih fun k hm => hnow k (List.mem_cons_of_mem _ hm)) (hseen _ hdb) fun hs => ?_
      exact (hk hs).trans (hnow _ List.mem_cons_self hs)
  | update _ ih => exact .update (ih fun k hm => hnow k (List.mem_cons_of_mem _ hm))
  | output _ ih => exact .output (ih hnow)

end Course

/-- After the writes `log` the program may return `r` with the writes `log'`, when every access is
made on a database that meets `seen`. -/
def Prog.MayReturn (seen : S → Prop) (now : S) :
    Prog K Val Out ε ρ → List (Write K Val Out) → ρ → List (Write K Val Out) → Prop
  | .done r', log, r, log' => r' = r ∧ log' = log
  | .throw _, _, _, _ => False
  | .read k next, log, r, log' =>
      ∃ db, seen db ∧ (next (RowStore.get (replay db log) k)).MayReturn seen now log r log'
  | .readForUpdate k next, log, r, log' =>
      ∃ db, seen db ∧ (Stable S k → RowStore.get db k = RowStore.get now k) ∧
        (next (RowStore.get (replay db log) k)).MayReturn seen now log r log'
  | .update k v next, log, r, log' => next.MayReturn seen now (log ++ [.row k v]) r log'
  | .output o next, log, r, log' => next.MayReturn seen now (log ++ [.output o]) r log'

/-- What may be left of a program may end as the program may. -/
theorem Course.mayReturn {seen : S → Prop} {now : S} {p q : Prog K Val Out ε ρ}
    {log log' : List (Write K Val Out)} {held : List K} {r : ρ} (h : Course seen now p q log held)
    (hq : q.MayReturn seen now log r log') : p.MayReturn seen now [] r log' := by
  induction h with
  | start => exact hq
  | read _ hdb ih => exact ih ⟨_, hdb, hq⟩
  | lock _ hdb hnow ih => exact ih ⟨_, hdb, hnow, hq⟩
  | update _ ih => exact ih hq
  | output _ ih => exact ih hq

/-- Throw when the condition holds. -/
def Prog.check (c : Prop) [Decidable c] (e : ε) (next : Prog K Val Out ε ρ) :
    Prog K Val Out ε ρ :=
  if c then .throw e else next

/-- Go on with what another service answers. -/
def Prog.call {α : Type} (x : Except ε α) (next : α → Prog K Val Out ε ρ) : Prog K Val Out ε ρ :=
  match x with
  | .ok a => next a
  | .error e => .throw e

section
variable {seen : S → Prop} {now : S} {log log' : List (Write K Val Out)} {r : ρ}

theorem Prog.mayReturn_check {c : Prop} [Decidable c] {e : ε} {next : Prog K Val Out ε ρ} :
    (Prog.check c e next).MayReturn seen now log r log' ↔
      ¬ c ∧ next.MayReturn seen now log r log' := by
  rw [Prog.check]
  by_cases h : c
  · simp [h, Prog.MayReturn]
  · simp [h]

theorem Prog.mayReturn_call {α : Type} {x : Except ε α} {next : α → Prog K Val Out ε ρ} :
    (Prog.call x next).MayReturn seen now log r log' ↔
      ∃ a, x = .ok a ∧ (next a).MayReturn seen now log r log' := by
  cases x <;> simp [Prog.call, Prog.MayReturn]

end

omit [RowStore S K Val Out] in
/-- A program with nothing left to do. -/
theorem Prog.Returns.exists_done {p : Prog K Val Out ε ρ} (h : p.Returns) : ∃ r, p = .done r := by
  cases p with
  | done r => exact ⟨r, rfl⟩
  | throw | read | readForUpdate | update | output => exact h.elim

namespace Sys

variable {n : ℕ} {s : Sys S K Val Out ε ρ n} {i j : Fin n} {t : Tx K Val Out ε ρ}
  {le : S → S → Prop} {progs : Fin n → Prog K Val Out ε ρ}

/-- An open transaction with nothing left to do commits. -/
theorem act_of_open [DecidableEq K] (hopen : s.Open i) (hret : (s.tx i).prog.Returns) :
    s.act (.step i) = s.commit i := by
  obtain ⟨r, hdone⟩ := hret.exists_done
  rw [act, step]
  rcases hopen with h | h <;>
    simp only [h, hdone, reduceCtorEq, or_self, if_false]

/-- Only a commit changes the database. -/
theorem db_act [DecidableEq K] (a : Action n)
    (h : ∀ i, a = .step i → s.Open i → ¬ (s.tx i).prog.Returns) : (s.act a).db = s.db := by
  rcases act_cases s a with e | ⟨i, ha, hret, hopen, -⟩ | ⟨i, -, e⟩ | ⟨i, t, -, -, e⟩
  · rw [e]
  · exact absurd hret (h i ha hopen)
  · rw [e, Sys.rollback, setTx_db]
  · rw [e, setTx_db]

/-- An action keeps a property of the database if and only if its commit does. -/
theorem act_iff [DecidableEq K] {P : S → Prop} {Q : Fin n → Prop} (hs : P s.db)
    (h : ∀ i, s.Open i → (s.tx i).prog.Returns → (P (s.commit i).db ↔ Q i)) (a : Action n) :
    P (s.act a).db ↔
      match a with
      | .step i => s.Open i → (s.tx i).prog.Returns → Q i
      | .abort _ => True := by
  cases a with
  | abort i =>
      rw [db_act (.abort i) fun _ e => by cases e]
      exact iff_of_true hs trivial
  | step i =>
      by_cases hc : s.Open i ∧ (s.tx i).prog.Returns
      · rw [act_of_open hc.1 hc.2, h i hc.1 hc.2]
        exact ⟨fun hq _ _ => hq, fun hq => hq hc.1 hc.2⟩
      · rw [db_act (.step i) fun j e hopen hret => by cases e; exact hc ⟨hopen, hret⟩]
        exact iff_of_true hs fun hopen hret => absurd ⟨hopen, hret⟩ hc

/-- Every open transaction is on a course of its program, on databases before the present one, and
no two hold one row. -/
structure Followed (le : S → S → Prop) (progs : Fin n → Prog K Val Out ε ρ)
    (s : Sys S K Val Out ε ρ n) : Prop where
  idle : ∀ i, (s.tx i).phase = .idle → (s.tx i).log = [] ∧ (s.tx i).held = []
  course : ∀ i, s.Open i →
    Course (fun db => le db s.db) s.db (progs i) (s.tx i).prog (s.tx i).log (s.tx i).held
  exclusive : ∀ i j, i ≠ j → (s.tx i).phase = .running → (s.tx j).phase = .running →
    ∀ k ∈ (s.tx i).held, k ∉ (s.tx j).held

theorem followed_init (db : S) : Followed le progs (init db progs) where
  idle _ _ := ⟨rfl, rfl⟩
  course _ _ := .start
  exclusive _ _ _ h := by cases h

/-- A transaction that is about to commit ends as its program may. -/
theorem Followed.mayReturn (h : Followed le progs s) (hopen : s.Open i) {r : ρ}
    (hdone : (s.tx i).prog = .done r) :
    (progs i).MayReturn (fun db => le db s.db) s.db [] r (s.tx i).log := by
  refine (h.course i hopen).mayReturn ?_
  rw [hdone]
  exact ⟨rfl, rfl⟩

/-- One transaction goes on. -/
theorem Followed.setTx (h : Followed le progs s) (hopen : s.Open i) (hrun : t.phase = .running)
    (hcourse : Course (fun db => le db s.db) s.db (progs i) t.prog t.log t.held)
    (hheld : ∀ k ∈ t.held, k ∈ (s.tx i).held ∨ s.Free i k) : Followed le progs (s.setTx i t) := by
  have apart : ∀ j, j ≠ i → (s.tx j).phase = .running → ∀ k ∈ t.held, k ∉ (s.tx j).held := by
    intro j hj hjr k hk
    rcases hheld k hk with hold | hfree
    · rcases hopen with hidle | hir
      · rw [(h.idle i hidle).2] at hold
        cases hold
      · exact h.exclusive i j hj.symm hir hjr k hold
    · exact hfree j hj hjr
  constructor
  · intro j hj
    by_cases e : j = i
    · subst e
      rw [setTx_tx_self, hrun] at hj
      cases hj
    · rw [setTx_tx_ne e] at hj ⊢
      exact h.idle j hj
  · intro j hj
    by_cases e : j = i
    · subst e
      rw [setTx_tx_self]
      exact hcourse
    · rw [Open, setTx_tx_ne e] at hj
      rw [setTx_tx_ne e]
      exact h.course j hj
  · intro j j' hne hj hj' k hk
    by_cases e : j = i
    · subst e
      rw [setTx_tx_self] at hk
      rw [setTx_tx_ne hne.symm] at hj' ⊢
      exact apart j' hne.symm hj' k hk
    · rw [setTx_tx_ne e] at hj hk
      by_cases e' : j' = i
      · subst e'
        rw [setTx_tx_self]
        exact fun hk' => apart j e hj k hk' hk
      · rw [setTx_tx_ne e'] at hj' ⊢
        exact h.exclusive j j' hne hj hj' k hk

theorem Followed.rollback (h : Followed le progs s) : Followed le progs (s.rollback i) := by
  have other : ∀ j, ((s.rollback i).tx j).phase = .idle ∨ ((s.rollback i).tx j).phase = .running →
      (s.rollback i).tx j = s.tx j := by
    intro j hj
    refine setTx_tx_ne fun e => ?_
    subst e
    rw [Sys.rollback, setTx_tx_self] at hj
    rcases hj with hj | hj <;> cases hj
  constructor
  · intro j hj
    have e := other j (.inl hj)
    rw [e] at hj ⊢
    exact h.idle j hj
  · intro j hj
    have e := other j hj
    rw [Open, e] at hj
    rw [e]
    exact h.course j hj
  · intro j j' hne hj hj'
    have e := other j (.inr hj)
    have e' := other j' (.inr hj')
    rw [e] at hj ⊢
    rw [e'] at hj' ⊢
    exact h.exclusive j j' hne hj hj'

/-- A commit writes no row that another transaction holds. -/
theorem Followed.commit (htrans : ∀ a b c, le a b → le b c → le a c) (h : Followed le progs s)
    (hopen : s.Open i) (hle : le s.db (s.commit i).db) : Followed le progs (s.commit i) := by
  have other : ∀ j, ((s.commit i).tx j).phase = .idle ∨ ((s.commit i).tx j).phase = .running →
      j ≠ i ∧ (s.commit i).tx j = s.tx j := by
    intro j hj
    have e : j ≠ i := by
      rintro rfl
      rw [commit_tx_self] at hj
      rcases hj with hj | hj <;> cases hj
    exact ⟨e, commit_tx_ne e⟩
  constructor
  · intro j hj
    have e := (other j (.inl hj)).2
    rw [e] at hj ⊢
    exact h.idle j hj
  · intro j hj
    obtain ⟨hne, e⟩ := other j hj
    rw [Open, e] at hj
    rw [e]
    refine (h.course j hj).mono (fun db hdb => htrans _ _ _ hdb hle) fun k hk hs => ?_
    refine (hs.replay (fun k' v hm => ?_) s.db).symm
    rintro rfl
    rcases hopen with hidle | hir
    · rw [(h.idle i hidle).1] at hm
      cases hm
    · rcases hj with hidle | hjr
      · rw [(h.idle j hidle).2] at hk
        cases hk
      · exact h.exclusive i j hne.symm hir hjr _ ((h.course i (.inr hir)).mem_held hm) hk
  · intro j j' hne hj hj'
    have e := (other j (.inr hj)).2
    have e' := (other j' (.inr hj')).2
    rw [e] at hj ⊢
    rw [e'] at hj' ⊢
    exact h.exclusive j j' hne hj hj'

/-- Every action keeps the transactions on their courses, when the commits go along with `le`. -/
theorem Followed.act [DecidableEq K] (hrefl : ∀ a, le a a)
    (htrans : ∀ a b c, le a b → le b c → le a c) (h : Followed le progs s)
    (hle : ∀ i r, s.Open i → (s.tx i).prog = .done r → le s.db (s.commit i).db) (a : Action n) :
    Followed le progs (s.act a) := by
  cases a with
  | abort i =>
      rw [Sys.act]
      split
      · exact h
      · exact h.rollback
  | step i =>
      rw [Sys.act, step]
      by_cases hf : (s.tx i).phase = .committed ∨ (s.tx i).phase = .rolledBack
      · simp only [if_pos hf]
        exact h
      have hopen : s.Open i := by
        cases e : (s.tx i).phase with
        | idle => exact .inl e
        | running => exact .inr e
        | committed => exact absurd (.inl e) hf
        | rolledBack => exact absurd (.inr e) hf
      have hcourse := h.course i hopen
      simp only [if_neg hf]
      cases e : (s.tx i).prog with
      | done r => exact h.commit htrans hopen (hle i r hopen e)
      | throw err => exact h.rollback
      | read k next =>
          rw [e] at hcourse
          exact h.setTx hopen rfl (.read hcourse (hrefl s.db)) fun _ hk => .inl hk
      | readForUpdate k next =>
          rw [e] at hcourse
          dsimp only
          split
          · rename_i hfree
            refine h.setTx hopen rfl (.lock hcourse (hrefl s.db) fun _ => rfl) fun k' hk => ?_
            rcases List.mem_cons.mp hk with rfl | hk
            · exact .inr hfree
            · exact .inl hk
          · exact h
      | update k v next =>
          rw [e] at hcourse
          dsimp only
          split
          · rename_i hfree
            refine h.setTx hopen rfl hcourse.update fun k' hk => ?_
            rcases List.mem_cons.mp hk with rfl | hk
            · exact .inr hfree
            · exact .inl hk
          · exact h
      | output o next =>
          rw [e] at hcourse
          exact h.setTx hopen rfl hcourse.output fun _ hk => .inl hk

end Sys

end

end Foundation
