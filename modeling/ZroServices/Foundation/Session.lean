import Mathlib.Data.List.Nodup
import ZroServices.Foundation.Run

/-!
# Foundation — sessions that read, and then store

A program reads one piece of the store after the other and ends by storing something, or nothing.
Alone it is a function on the store (`Program.alone`).  Sessions side by side (`Sessions`) take their
reads and their store in any order, and nothing is locked: what a session stores is computed from
what it has read, whatever the others have stored since.

* `Fresh`: a session that stores something would read the same again.
* `Serial.run`: when every session that stores something is fresh, the store is what these sessions,
  executed alone in the order of their stores, make of it.
-/

namespace Foundation

/-- Reads, and then at most one store. -/
inductive Program (σ : Type) : Type 1 where
  | read {α : Type} (get : σ → α) (next : α → Program σ)
  | store (write : σ → σ)
  | done

variable {σ ι : Type}

/-- The store after the program, executed alone. -/
def Program.alone : Program σ → σ → σ
  | .read get next, s => (next (get s)).alone s
  | .store write, s => write s
  | .done, s => s

/-- Sessions on one store. -/
structure Sessions (σ ι : Type) : Type 1 where
  store : σ
  /-- What is left of a session's program. -/
  rest : ι → Program σ
  /-- A session would read what it has read. -/
  seen : ι → σ → Prop
  /-- The sessions that have stored something, in order. -/
  stored : List ι

namespace Sessions

def init (store : σ) (programs : ι → Program σ) : Sessions σ ι :=
  ⟨store, programs, fun _ _ => True, []⟩

variable [DecidableEq ι]

/-- The next step of a session. -/
def step (s : Sessions σ ι) (i : ι) : Sessions σ ι :=
  match s.rest i with
  | .read get next => { s with
      rest := Function.update s.rest i (next (get s.store))
      seen := Function.update s.seen i fun t => s.seen i t ∧ get t = get s.store }
  | .store write => { s with
      store := write s.store
      rest := Function.update s.rest i .done
      stored := s.stored ++ [i] }
  | .done => s

omit [DecidableEq ι] in
/-- A session that stores something now would read the same again. -/
def Fresh (s : Sessions σ ι) (i : ι) : Prop := ∀ write, s.rest i = .store write → s.seen i s.store

/-- What holds when every store was fresh. -/
structure Serial (store : σ) (programs : ι → Program σ) (s : Sessions σ ι) : Prop where
  resume : ∀ i t, s.seen i t → i ∉ s.stored → (programs i).alone t = (s.rest i).alone t
  finished : ∀ i ∈ s.stored, s.rest i = .done
  nodup : s.stored.Nodup
  store : s.store = s.stored.foldl (fun t i => (programs i).alone t) store

variable {store : σ} {programs : ι → Program σ} {s : Sessions σ ι} {i : ι}

omit [DecidableEq ι] in
theorem serial_init : Serial store programs (init store programs) where
  resume _ _ _ _ := rfl
  finished _ hi := absurd hi List.not_mem_nil
  nodup := List.nodup_nil
  store := rfl

/-- A read: the program alone would go on from here, where it reads the same. -/
theorem Serial.read (h : Serial store programs s) {α : Type} {get : σ → α} {next : α → Program σ}
    (hrest : s.rest i = .read get next) : Serial store programs { s with
      rest := Function.update s.rest i (next (get s.store))
      seen := Function.update s.seen i fun t => s.seen i t ∧ get t = get s.store } := by
  have hopen : i ∉ s.stored := by
    intro hi
    rw [h.finished i hi] at hrest
    cases hrest
  refine ⟨fun j t hseen hj => ?_, fun j hj => ?_, h.nodup, h.store⟩
  · by_cases hji : j = i
    · subst hji
      simp only [Function.update_self] at hseen ⊢
      rw [h.resume j t hseen.1 hj, hrest, Program.alone, hseen.2]
    · simp only [Function.update_of_ne hji] at hseen ⊢
      exact h.resume j t hseen hj
  · have hji : j ≠ i := fun hji => hopen (hji ▸ hj)
    simp only [Function.update_of_ne hji]
    exact h.finished j hj

/-- A fresh store: the program alone would store the same. -/
theorem Serial.stores (h : Serial store programs s) {write : σ → σ} (hrest : s.rest i = .store write)
    (hfresh : s.seen i s.store) : Serial store programs { s with
      store := write s.store
      rest := Function.update s.rest i .done
      stored := s.stored ++ [i] } := by
  have hopen : i ∉ s.stored := by
    intro hi
    rw [h.finished i hi] at hrest
    cases hrest
  have halone : (programs i).alone s.store = write s.store := by
    rw [h.resume i s.store hfresh hopen, hrest, Program.alone]
  refine ⟨fun j t hseen hj => ?_, fun j hj => ?_, ?_, ?_⟩
  · obtain ⟨hj, hji⟩ : j ∉ s.stored ∧ j ≠ i := by simpa using hj
    simp only [Function.update_of_ne hji]
    exact h.resume j t hseen hj
  · by_cases hji : j = i
    · subst hji
      exact Function.update_self ..
    · have hstored : j ∈ s.stored :=
        (List.mem_append.mp hj).resolve_right fun hj => hji (List.mem_singleton.mp hj)
      exact (Function.update_of_ne hji _ _).trans (h.finished j hstored)
  · exact h.nodup.append (List.nodup_singleton i) (List.disjoint_singleton.mpr hopen)
  · rw [List.foldl_append, ← h.store]
    exact halone.symm

theorem Serial.step (h : Serial store programs s) (hfresh : s.Fresh i) :
    Serial store programs (s.step i) := by
  rw [Sessions.step]
  split
  · next hrest => exact h.read hrest
  · next hrest => exact h.stores hrest (hfresh _ hrest)
  · exact h

/-- A run whose stores are fresh is serial. -/
theorem Serial.run {is : List ι} (h : Along Sessions.step Fresh (init store programs) is) :
    Serial store programs (run Sessions.step (init store programs) is) :=
  h.invariant (fun _ _ hs hfresh => hs.step hfresh) serial_init

end Sessions

end Foundation
