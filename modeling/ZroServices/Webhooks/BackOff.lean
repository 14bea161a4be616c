import Mathlib.Tactic.Linarith
import ZroServices.Webhooks.Events

/-!
# Webhooks — the time between retries

The delay of a retry is to grow by `RETRY_MIN_SECONDS` with each retry of the chain, up to
`RETRY_MAX_SECONDS`.  How many retries there were is not stored: `generateRetryAt` divides what lies
between the time at which an event was to be retried and its creation.  An event is created a while
after that time is computed, so less than the delay lies between the two, and the division loses one
retry each time (`delay_next`).

The delays are as they are to be exactly when there is one retry at most, or no room to grow
(`grows_iff`).
-/

namespace ZroServices.Webhooks

/-- A delivery that fails: when its failure is handled, and how much later its successor, which gets
`id`, is stored. -/
structure Failure where
  id : Uuid
  now : ℤ
  gap : ℤ

variable {config : RetryConfig} {e : WebhookEvent} {failures : List Failure}

namespace WebhookEvent

/-- How long the retry of an event waits whose failure is handled now. -/
def delay (config : RetryConfig) (now : ℤ) (e : WebhookEvent) : ℤ :=
  e.generateRetryAt config now - now

/-- The successor as it is stored. -/
def stored (config : RetryConfig) (f : Failure) (e : WebhookEvent) : WebhookEvent :=
  { e.successor config f.id f.now with createdAt := f.now + f.gap }

/-- The delays of the retries of a chain. -/
def delays (config : RetryConfig) : WebhookEvent → List Failure → List ℤ
  | _, [] => []
  | e, f :: failures => e.delay config f.now :: delays config (e.stored config f) failures

end WebhookEvent

open WebhookEvent

/-- The `n`-th delay is `n` times the shortest, up to the longest. -/
def Grows (config : RetryConfig) (delays : List ℤ) : Prop :=
  ∀ (n : ℕ) (d : ℤ), delays[n]? = some d →
    d = 1000 * min ((n + 1) * config.RETRY_MIN_SECONDS) config.RETRY_MAX_SECONDS

/-- An event is stored later than its retry time was computed, by less than the shortest delay. -/
def Failure.Prompt (config : RetryConfig) (f : Failure) : Prop :=
  0 < f.gap ∧ f.gap < 1000 * config.RETRY_MIN_SECONDS

/-- Less than the shortest delay lies between the creation of an event and its retry. -/
def AtOnce (config : RetryConfig) (e : WebhookEvent) : Prop :=
  ∀ lastRetry ∈ e.lastRetry,
    0 ≤ lastRetry - e.createdAt ∧ lastRetry - e.createdAt < 1000 * config.RETRY_MIN_SECONDS

section

variable (hmax : config.RETRY_MIN_SECONDS ≤ config.RETRY_MAX_SECONDS)
include hmax

theorem delay_of_atOnce (h : AtOnce config e) (now : ℤ) :
    e.delay config now = 1000 * config.RETRY_MIN_SECONDS := by
  rw [delay, generateRetryAt]
  cases hlast : e.lastRetry with
  | none => simp only [add_sub_cancel_left]
  | some lastRetry =>
      obtain ⟨hle, hlt⟩ := h lastRetry hlast
      have hmany : (lastRetry - e.createdAt) / (1000 * config.RETRY_MIN_SECONDS) = 0 :=
        Int.ediv_eq_zero_of_lt hle hlt
      have hbelow : ¬ 1000 * config.RETRY_MAX_SECONDS ≤ lastRetry - e.createdAt := by omega
      simp only [hbelow, if_false, hmany, zero_add, mul_one, add_sub_cancel_left]

/-- Its retry was to be at the shortest delay after it was computed, which is less after it was
stored. -/
theorem atOnce_stored (h : AtOnce config e) {f : Failure}
    (hf : f.Prompt config) : AtOnce config (e.stored config f) := by
  intro lastRetry hlast
  obtain rfl : e.generateRetryAt config f.now = lastRetry := Option.some.inj hlast
  have hdelay : e.generateRetryAt config f.now - f.now = 1000 * config.RETRY_MIN_SECONDS :=
    delay_of_atOnce hmax h f.now
  obtain ⟨hpos, hlt⟩ := hf
  change 0 ≤ _ - (f.now + f.gap) ∧ _ - (f.now + f.gap) < _
  omega

/-- No delay of a chain is longer than the shortest. -/
theorem delays_eq (h : AtOnce config e) (hprompt : ∀ f ∈ failures, f.Prompt config) :
    delays config e failures =
      List.replicate failures.length (1000 * config.RETRY_MIN_SECONDS) := by
  induction failures generalizing e with
  | nil => rfl
  | cons f failures ih =>
      obtain ⟨hf, hrest⟩ := List.forall_mem_cons.mp hprompt
      rw [delays, delay_of_atOnce hmax h, ih (atOnce_stored hmax h hf) hrest,
        List.length_cons, List.replicate_succ]

end

/-- The delays of a chain grow to the longest when there is one at most, or when the longest is the
shortest. -/
theorem grows_iff (hmin : 0 < config.RETRY_MIN_SECONDS)
    (hmax : config.RETRY_MIN_SECONDS ≤ config.RETRY_MAX_SECONDS) (hfirst : e.lastRetry = none)
    (hprompt : ∀ f ∈ failures, f.Prompt config) :
    Grows config (delays config e failures) ↔
      failures.length ≤ 1 ∨ config.RETRY_MIN_SECONDS = config.RETRY_MAX_SECONDS := by
  have hatOnce : AtOnce config e := by
    intro lastRetry hlast
    rw [hfirst] at hlast
    cases hlast
  rw [Grows, delays_eq hmax hatOnce hprompt]
  constructor
  · intro hgrows
    by_contra hnot
    obtain ⟨hlength, hne⟩ := not_or.mp hnot
    have hsecond := hgrows 1 _ (List.getElem?_replicate_of_lt (by omega))
    push_cast at hsecond
    omega
  · intro hcond n d hd
    obtain ⟨hn, rfl⟩ : n < failures.length ∧ 1000 * config.RETRY_MIN_SECONDS = d := by
      simpa [List.getElem?_replicate] using hd
    rcases hcond with hlength | heq
    · obtain rfl : n = 0 := by omega
      rw [Nat.cast_zero, zero_add, one_mul, min_eq_left hmax]
    · have hn' : (0 : ℤ) ≤ n := Int.natCast_nonneg n
      rw [← heq, min_eq_right (by nlinarith)]

/-! ### A chain -/

namespace BackedOff

/-- Retries after a minute, up to an hour. -/
def upToAnHour : RetryConfig := ⟨60, 3600⟩

/-- The first event of a chain. -/
def first : WebhookEvent := firstEvent ⟨1, "url", "key", .DEPOSIT_RECEIVED, "1", "1"⟩
  .DEPOSIT_RECEIVED "data" 1 0

/-- A failure at a time, whose successor is stored ten milliseconds later. -/
def failure (id : Uuid) (now : ℤ) : Failure := ⟨id, now, 10⟩

end BackedOff

open BackedOff

theorem grows_iff_once : Grows upToAnHour (delays upToAnHour first [failure 2 0]) :=
  (grows_iff (by decide) (by decide) rfl (by unfold Failure.Prompt; decide)).mpr
    (.inl (by decide))

/-- The second retry waits for one minute, as the first did. -/
theorem not_grows : ¬Grows upToAnHour (delays upToAnHour first [failure 2 0, failure 3 60000]) := by
  intro hgrows
  have hsecond : (60000 : ℤ) = 120000 := hgrows 1 60000 (by decide +kernel)
  revert hsecond
  decide

end ZroServices.Webhooks
