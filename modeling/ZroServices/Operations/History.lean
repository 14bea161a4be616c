import ZroServices.Operations.System

/-!
# Operations — the history of the operations

What a change writes of the operations (`Wrote`): nothing, a new operation, or another state of one.
An operation keeps its sides and its value, leaves PENDING once and for good, and loses its analysis
tags at most (`Operation.Becomes`).  The rows of the statements are the double entry of the
operations: an accepted operation has the debit of its owner, then the credit of its beneficiary,
each once and of its value, and an operation that is not accepted has none (`run_entered`).
-/

namespace ZroServices

open Foundation
open CreateOperationUseCase AcceptOperationUseCase RevertOperationUseCase

/-- A wallet account, how it is moved, and by which value. -/
abbrev Line := WalletAccountId × WalletAccountTransactionType × ℤ

/-- What an operation moves. -/
def Operation.lines (o : Operation) : List Line :=
  if o.state = .ACCEPTED then
    o.owner.toList.map (·.walletAccount, .DEBIT, o.value)
      ++ o.beneficiary.toList.map (·.walletAccount, .CREDIT, o.value)
  else []

/-- What the stored operation with the id moves. -/
def entered (t : Table Operation) (id : Uuid) : List Line := (t.get? id).elim [] Operation.lines

/-- What the rows of an operation move. -/
def linesOf (ts : List WalletAccountTransaction) (id : Uuid) : List Line :=
  (ts.filter (·.operation = id)).map fun t => (t.walletAccount, t.transactionType, t.value)

/-- The rows are the double entry of the stored operations. -/
def Entered (db : Db) : Prop := linesOf db.walletAccountTransactions = entered db.operations

/-- What an operation may be later. -/
structure Operation.Becomes (o o' : Operation) : Prop where
  same : o' = { o with
    state := o'.state
    operationRef := o'.operationRef
    analysisTags := o'.analysisTags
    revertedAt := o'.revertedAt }
  state : (o'.state = o.state ∧ o'.revertedAt = o.revertedAt) ∨
    (o.state = .PENDING ∧ (o'.state = .ACCEPTED ∨ o'.state = .REVERTED))
  analysisTags : o'.analysisTags = o.analysisTags ∨ o'.analysisTags = []

/-- What a change writes of the operations, with the rows that it adds. -/
inductive Wrote (env : Env) (now : ℤ) (db : Db) :
    Table Operation → List WalletAccountTransaction → Prop
  | nothing : Wrote env now db db.operations []
  | opened {t : Table Operation} (tt : TransactionType) (i : OperationInfo)
      (h : Opening env now tt db i)
      (hins : db.operations.insert? (i.operation env now tt) = some t) : Wrote env now db t []
  | updated (o o' : Operation) (ts : List WalletAccountTransaction)
      (ho : db.operations.get? o.id = some o) (hbecomes : o.Becomes o')
      (hts : ∀ id, o.lines ++ linesOf ts id = if o.id = id then o'.lines else o.lines) :
      Wrote env now db (db.operations.set o') ts

section
variable {env : Env} {now : ℤ} {db db' : Db} {t : Table Operation} {o o' o'' : Operation}
  {ts ts' : List WalletAccountTransaction}

theorem linesOf_append (id : Uuid) : linesOf (ts ++ ts') id = linesOf ts id ++ linesOf ts' id := by
  rw [linesOf, List.filter_append, List.map_append]
  rfl

theorem lines_of_pending (h : o.state = .PENDING) : o.lines = [] := by
  rw [Operation.lines, h]
  rfl

/-- The row of one side. -/
theorem linesOf_recorded {f : WalletAccount → WalletAccount} {p : Option Party}
    {row : WalletAccount → WalletAccountTransaction} {type : WalletAccountTransactionType}
    {t t' : Table WalletAccount} (h : Settle.Recorded t f row p t' ts)
    (hrow : ∀ a, (row a).operation = o.id ∧ (row a).walletAccount = a.id ∧
      (row a).transactionType = type ∧ (row a).value = o.value) (id : Uuid) :
    linesOf ts id = if o.id = id then p.toList.map (·.walletAccount, type, o.value) else [] := by
  cases h with
  | none => simp [linesOf]
  | some p a ha _ =>
      obtain ⟨hoperation, haccount, htype, hvalue⟩ := hrow a
      have hid : a.id = p.walletAccount := Table.key_of_get? ha
      by_cases e : o.id = id <;> simp [linesOf, hoperation, haccount, htype, hvalue, hid, e]

/-- An operation is written, and no row. -/
theorem Wrote.update (o' : Operation) (ho : db.operations.get? o.id = some o)
    (hbecomes : o.Becomes o') (hlines : o'.lines = o.lines) :
    Wrote env now db (db.operations.set o') [] :=
  .updated o o' [] ho hbecomes fun id => by simp [linesOf, hlines]

theorem wrote_of_change (h : Change env now db db') :
    ∃ ts, db'.walletAccountTransactions = db.walletAccountTransactions ++ ts ∧
      Wrote env now db db'.operations ts := by
  have quiet {db' : Db} (hrows : db'.walletAccountTransactions = db.walletAccountTransactions)
      (h : Wrote env now db db'.operations []) :
      ∃ ts, db'.walletAccountTransactions = db.walletAccountTransactions ++ ts ∧
        Wrote env now db db'.operations ts :=
    ⟨[], hrows.trans (List.append_nil _).symm, h⟩
  cases h with
  | limitCreated h =>
      refine quiet (by cases h <;> rfl) ?_
      rw [h.operations]
      exact .nothing
  | opened tt i t h hins => exact quiet rfl (.opened tt i h hins)
  | linked o other ho =>
      exact quiet rfl (.update (linked o other) ho ⟨rfl, .inl ⟨rfl, rfl⟩, .inl rfl⟩ rfl)
  | sent => exact quiet rfl .nothing
  | accepted o h =>
      obtain ⟨t, debits, credits, hdebit, hcredit, hrows⟩ := h.recorded
      obtain ⟨_, _, _, _, -, -, -, rfl⟩ := h.written
      refine ⟨_, hrows, .updated o (accepted o) _ h.found ⟨rfl, .inr ⟨h.pending, .inl rfl⟩, .inl rfl⟩ ?_⟩
      intro id
      rw [lines_of_pending h.pending, List.nil_append, linesOf_append,
        linesOf_recorded (o := o) hdebit fun _ => ⟨rfl, rfl, rfl, rfl⟩,
        linesOf_recorded (o := o) hcredit fun _ => ⟨rfl, rfl, rfl, rfl⟩]
      split <;> rfl
  | reverted o h =>
      obtain ⟨t, event, -, -, rfl⟩ := h.written
      exact quiet rfl (.update (reverted now o) h.found ⟨rfl, .inr ⟨h.pending, .inr rfl⟩, .inl rfl⟩
        (lines_of_pending h.pending).symm)
  | delivered n h =>
      cases h with
      | dropped => exact quiet rfl .nothing
      | given x b c =>
          refine quiet rfl ?_
          change Wrote env now db (OperationRepository.withAnalysisTags db.operations x.item.id []) []
          rw [OperationRepository.withAnalysisTags]
          split
          · next o ho =>
            refine .update (o := o) _ ?_ ⟨rfl, .inl ⟨rfl, rfl⟩, .inr rfl⟩ rfl
            rw [show o.id = x.item.id from Table.key_of_get? ho, ho]
          · exact .nothing

/-- What holds of every operation, holds of those that are written. -/
theorem Wrote.all {P : Operation → Prop} (h : Wrote env now db t ts)
    (hold : ∀ o ∈ db.operations.rows, P o)
    (hnew : ∀ tt i, Opening env now tt db i → P (i.operation env now tt))
    (hbecomes : ∀ o o', Operation.Becomes o o' → P o → P o') : ∀ o ∈ t.rows, P o := by
  cases h with
  | nothing => exact hold
  | opened tt i h hins =>
      intro o ho
      rcases (Table.mem_insert? hins).mp ho with ho | rfl
      · exact hold o ho
      · exact hnew tt i h
  | updated x x' ts hx h _ =>
      intro o ho
      rcases Table.mem_set.mp ho with ⟨ho, -⟩ | ⟨rfl, -⟩
      · exact hold o ho
      · exact hbecomes x _ h (hold x (Table.mem_of_get? hx))

/-! ### What is later -/

theorem Operation.Becomes.refl (o : Operation) : o.Becomes o := ⟨rfl, .inl ⟨rfl, rfl⟩, .inl rfl⟩

theorem Operation.Becomes.trans (h : o.Becomes o') (h' : o'.Becomes o'') : o.Becomes o'' where
  same := h'.same.trans (by rw [h.same])
  state := by
    rcases h'.state with ⟨hstate', hat'⟩ | ⟨hpending, hsettled⟩
    · rw [hstate', hat']
      exact h.state
    · rcases h.state with ⟨hstate, -⟩ | ⟨-, hsettled'⟩
      · exact .inr ⟨hstate.symm.trans hpending, hsettled⟩
      · rw [hpending] at hsettled'
        simp at hsettled'
  analysisTags := by
    rcases h'.analysisTags with htags | hnone
    · rw [htags]
      exact h.analysisTags
    · exact .inr hnone

theorem Operation.Becomes.sameId (h : o.Becomes o') : o'.id = o.id := by rw [h.same]

theorem Wrote.becomes (h : Wrote env now db t ts) {id : Uuid} (ho : db.operations.get? id = some o) :
    ∃ o', t.get? id = some o' ∧ o.Becomes o' := by
  cases h with
  | nothing => exact ⟨o, ho, .refl o⟩
  | opened tt i _ hins => exact ⟨o, Table.get?_insert?_of_some hins ho, .refl o⟩
  | updated x x' ts hx hbecomes _ =>
      rw [Table.get?_set, Operation.key_eq, hbecomes.sameId, ho]
      split
      · next e =>
        rw [← e, hx] at ho
        exact ⟨x', rfl, Option.some.inj ho ▸ hbecomes⟩
      · exact ⟨o, rfl, .refl o⟩

/-! ### The double entry -/

/-- The operations move what the rows that are added move. -/
theorem Wrote.entered (h : Wrote env now db t ts) (id : Uuid) :
    ZroServices.entered t id = ZroServices.entered db.operations id ++ linesOf ts id := by
  cases h with
  | nothing => exact (List.append_nil _).symm
  | opened tt i _ hins =>
      refine Eq.trans ?_ (List.append_nil _).symm
      rw [ZroServices.entered, ZroServices.entered]
      by_cases e : Keyed.key (i.operation env now tt) = id
      · rw [← e, Table.get?_insert?_self hins, (Table.insert?_eq_some hins).1]
        exact lines_of_pending (OperationInfo.operation_state ..)
      · rw [Table.get?_insert?_ne hins e]
  | updated o o' ts ho hbecomes hts =>
      rw [ZroServices.entered, ZroServices.entered, Table.get?_set, Operation.key_eq, hbecomes.sameId]
      by_cases e : o.id = id
      · rw [← e, ho, if_pos rfl]
        exact ((hts _).trans (if_pos rfl)).symm
      · have hnone : linesOf ts id = [] := by simpa [e] using hts id
        rw [if_neg e, hnone, List.append_nil]

/-- **The rows are the double entry of the operations**, after every run. -/
theorem run_entered (env : Env) {s : State} (h : Entered s.world.db) (ls : List (ℤ × Command)) :
    Entered (run (step env) s ls).world.db := by
  refine run_invariant (I := fun s : State => Entered s.world.db) (fun s l h => ?_) h ls
  refine (step_changes s l).invariant (fun db db' hc h => ?_) h
  obtain ⟨ts, hrows, hwrote⟩ := wrote_of_change hc
  refine funext fun id => ?_
  rw [hrows, linesOf_append, h, hwrote.entered]

end

namespace Sample

/-- One transfer is accepted, and one is reverted. -/
theorem entered_sample : Entered (run (step (env .DATE)) (start 1000 0)
    [(noon, transfer 1 300), (noon, .accept 1), (noon, transfer 2 200), (noon, .revert 2)]).world.db :=
  run_entered _ (show Entered (start 1000 0).world.db from rfl) _

end Sample

end ZroServices
