import Mathlib.Tactic.Common

/-!
# Foundation — observables of one value

An observable notifies its subscriber of a value, or of an error.  Before it does, it may wait for
jobs (`await`), and set off jobs that it does not wait for (`start`).

* `tap` sets off a job when the value comes, and passes the value on at once.
* `catchError` goes on with another observable in place of an error.
* `begun` is what happens before an observable waits, or notifies.

`StartsLast job` says that a value never comes before `job` has been set off, and `Never job` that it
is not set off at all: `Never.tap` and `StartsLast.catchError` are what a pipe of these operators is
read with.
-/

namespace Foundation

/-- Jobs `J` are answered, jobs `K` are only set off. -/
inductive Observable (J : Type) (R : J → Type) (K ε α : Type) where
  | next (value : α)
  | error (e : ε)
  | await (job : J) (k : R job → Observable J R K ε α)
  | start (job : K) (rest : Observable J R K ε α)

namespace Observable

variable {J J' : Type} {R : J → Type} {R' : J' → Type} {K K' ε α : Type}

def tap (f : α → K) : Observable J R K ε α → Observable J R K ε α
  | next value => start (f value) (next value)
  | error e => error e
  | await job k => await job fun r => (k r).tap f
  | start job rest => start job (rest.tap f)

def catchError (f : ε → Observable J R K ε α) : Observable J R K ε α → Observable J R K ε α
  | next value => next value
  | error e => f e
  | await job k => await job fun r => (k r).catchError f
  | start job rest => start job (rest.catchError f)

/-- The same with other names for the jobs. -/
def mapJobs (f : J → J') (g : ∀ job, R' (f job) → R job) (h : K → K') :
    Observable J R K ε α → Observable J' R' K' ε α
  | next value => next value
  | error e => error e
  | await job k => await (f job) fun r => (k (g job r)).mapJobs f g h
  | start job rest => start (h job) (rest.mapJobs f g h)

/-- The jobs that are set off at once, and what is left. -/
def begun : Observable J R K ε α → List K × Observable J R K ε α
  | start job rest => (job :: rest.begun.1, rest.begun.2)
  | next value => ([], next value)
  | error e => ([], error e)
  | await job k => ([], await job k)

/-- The job is never set off. -/
def Never (job : K) : Observable J R K ε α → Prop
  | next _ => True
  | error _ => True
  | await _ k => ∀ r, (k r).Never job
  | start job' rest => job' ≠ job ∧ rest.Never job

/-- The job is set off once, right before the value. -/
def StartsLast (job : K) : Observable J R K ε α → Prop
  | next _ => False
  | error _ => True
  | await _ k => ∀ r, (k r).StartsLast job
  | start job' rest => (job' = job ∧ ∃ value, rest = next value) ∨ (job' ≠ job ∧ rest.StartsLast job)

variable {job : K} {o : Observable J R K ε α}

theorem Never.tap (h : o.Never job) : (o.tap fun _ => job).StartsLast job := by
  induction o with
  | next value => exact .inl ⟨rfl, value, rfl⟩
  | error e => trivial
  | await job' k ih => exact fun r => ih r (h r)
  | start job' rest ih => exact .inr ⟨h.1, ih h.2⟩

theorem StartsLast.catchError (h : o.StartsLast job) {f : ε → Observable J R K ε α}
    (hf : ∀ e, (f e).StartsLast job) : (o.catchError f).StartsLast job := by
  induction o with
  | next value => exact h
  | error e => exact hf e
  | await job' k ih => exact fun r => ih r (h r)
  | start job' rest ih =>
      rcases h with ⟨hjob, value, rfl⟩ | ⟨hjob, hrest⟩
      · exact .inl ⟨hjob, value, rfl⟩
      · exact .inr ⟨hjob, ih hrest⟩

theorem Never.catchError (h : o.Never job) {f : ε → Observable J R K ε α}
    (hf : ∀ e, (f e).Never job) : (o.catchError f).Never job := by
  induction o with
  | next value => trivial
  | error e => exact hf e
  | await job' k ih => exact fun r => ih r (h r)
  | start job' rest ih => exact ⟨h.1, ih h.2⟩

theorem never_mapJobs {f : J → J'} {g : ∀ job, R' (f job) → R job} {h : K → K'} {job' : K'}
    (hne : ∀ job, h job ≠ job') : (o.mapJobs f g h).Never job' := by
  induction o with
  | next value => trivial
  | error e => trivial
  | await job k ih => exact fun r => ih (g job r)
  | start job rest ih => exact ⟨hne job, ih⟩

/-- Until the job is set off there is no value, and after it nothing but the value. -/
theorem StartsLast.begun (h : o.StartsLast job) :
    (job ∉ o.begun.1 ∧ o.begun.2.StartsLast job) ∨
      (∃ jobs, o.begun.1 = jobs ++ [job] ∧ job ∉ jobs) ∧ ∃ value, o.begun.2 = next value := by
  induction o with
  | next value => exact h.elim
  | error e => exact .inl ⟨List.not_mem_nil, trivial⟩
  | await job' k ih => exact .inl ⟨List.not_mem_nil, h⟩
  | start job' rest ih =>
      rcases h with ⟨rfl, value, rfl⟩ | ⟨hne, hrest⟩
      · exact .inr ⟨⟨[], rfl, List.not_mem_nil⟩, value, rfl⟩
      · rcases ih hrest with ⟨hnot, hlast⟩ | ⟨⟨jobs, hjobs, hnot⟩, hvalue⟩
        · exact .inl ⟨List.not_mem_cons_of_ne_of_not_mem hne.symm hnot, hlast⟩
        · refine .inr ⟨⟨job' :: jobs, congrArg (job' :: ·) hjobs, ?_⟩, hvalue⟩
          exact List.not_mem_cons_of_ne_of_not_mem hne.symm hnot

end Observable

end Foundation
