import Mathlib.Algebra.BigOperators.Ring.List
import ZroServices.Foundation.Rounding
import ZroServices.PixKeys.DecodeLimit

/-!
# PIX keys — the time between events

The bucket of a user gains `temporalIncrementBucket` for every `temporalIncrementBucketInterval`
seconds that pass.  An event credits what was gained since the last one, in whole intervals, and
then moves the date of the bucket to now.  So the rest of the interval is lost with each event.

While the bucket does not fill up, the events of a user credit as much as one event at the end would
have, exactly when the rests of their intervals add up to less than an interval (`credited_iff`).
-/

namespace ZroServices.PixKeys

open Foundation

/-- An event of the user, and when it is handled. -/
structure DecodeEvent where
  state : DecodedPixKeyState
  now : ℤ

section

variable (config : BucketConfig) (type : PersonType)

/-- The bucket after an event. -/
def UserPixKeyDecodeLimit.after (l : UserPixKeyDecodeLimit) (event : DecodeEvent) :
    UserPixKeyDecodeLimit :=
  handleNewDecodedPixKey config type event.state l.user (some l) event.now

/-- What an event credits for the time since the last one. -/
def UserPixKeyDecodeLimit.credit (l : UserPixKeyDecodeLimit) (now : ℤ) : ℤ :=
  handlerLimit config type (some l) now - l.limit

/-- What the events of a user credit. -/
def credited : UserPixKeyDecodeLimit → List DecodeEvent → ℤ
  | _, [] => 0
  | l, event :: events =>
      l.credit config type event.now + credited (l.after config type event) events

/-- No event finds that more was gained than the bucket holds. -/
def BelowCap : UserPixKeyDecodeLimit → List DecodeEvent → Prop
  | _, [] => True
  | l, event :: events =>
      (∀ last ∈ l.lastDecodedCreatedAt,
        l.limit + config.increments (unix event.now - unix last) ≤ config.bucketLimit type) ∧
      BelowCap (l.after config type event) events

end

/-- The seconds before each event, since the one before. -/
def waits : ℤ → List DecodeEvent → List ℤ
  | _, [] => []
  | last, event :: events => (unix event.now - unix last) :: waits event.now events

/-- When the last of the events was handled. -/
def endOf : ℤ → List DecodeEvent → ℤ
  | last, [] => last
  | _, event :: events => endOf event.now events

variable {config : BucketConfig} {type : PersonType} {l : UserPixKeyDecodeLimit} {last : ℤ}
  {events : List DecodeEvent}

theorem sum_waits (last : ℤ) (events : List DecodeEvent) :
    (waits last events).sum = unix (endOf last events) - unix last := by
  induction events generalizing last with
  | nil => simp only [waits, endOf, List.sum_nil, sub_self]
  | cons event events ih =>
      rw [waits, List.sum_cons, ih, endOf]
      omega

theorem credit_eq (hlast : l.lastDecodedCreatedAt = some last) {now : ℤ}
    (hbelow : l.limit + config.increments (unix now - unix last) ≤ config.bucketLimit type) :
    l.credit config type now = config.increments (unix now - unix last) := by
  simp only [UserPixKeyDecodeLimit.credit, handlerLimit, hlast, validateNewLimit_eq]
  rw [min_eq_left hbelow, add_sub_cancel_left]

/-- Below its cap, a bucket gains what each event finds. -/
theorem credited_eq (hlast : l.lastDecodedCreatedAt = some last)
    (hbelow : BelowCap config type l events) :
    credited config type l events = ((waits last events).map config.increments).sum := by
  induction events generalizing l last with
  | nil => rfl
  | cons event events ih =>
      obtain ⟨hfirst, hrest⟩ := hbelow
      rw [credited, credit_eq hlast (hfirst last hlast), ih rfl hrest, waits, List.map_cons,
        List.sum_cons]

theorem sum_increments (terms : List ℤ) :
    (terms.map config.increments).sum =
      (terms.map (· / (config.temporalIncrementBucketInterval : ℤ))).sum *
        config.temporalIncrementBucket := by
  rw [← List.sum_map_mul_right]
  rfl

/-- Below its cap, a bucket gains what it would have gained at once when what the events cut off the
intervals adds up to less than an interval. -/
theorem credited_iff (hlast : l.lastDecodedCreatedAt = some last)
    (hbelow : BelowCap config type l events) :
    credited config type l events = config.increments (unix (endOf last events) - unix last) ↔
      ((waits last events).map (· % (config.temporalIncrementBucketInterval : ℤ))).sum <
        config.temporalIncrementBucketInterval := by
  have hinterval : (0 : ℤ) < config.temporalIncrementBucketInterval :=
    Int.natCast_pos.mpr config.temporalIncrementBucketInterval_pos
  have hincrement : (config.temporalIncrementBucket : ℤ) ≠ 0 :=
    (Int.natCast_pos.mpr config.temporalIncrementBucket_pos).ne'
  rw [credited_eq hlast hbelow, sum_increments, BucketConfig.increments, ← sum_waits,
    mul_left_inj' hincrement, sum_ediv_eq_iff _ hinterval]

/-! ### Two runs -/

namespace Waits

/-- A decoding costs one, and every two seconds give one back. -/
abbrev everyTwo : BucketConfig :=
  { oneEach with
    temporalIncrementBucketInterval := 2
    temporalIncrementBucketInterval_pos := Nat.two_pos }

/-- An empty bucket of the first user. -/
def empty : UserPixKeyDecodeLimit := ⟨1, 0, some 0⟩

/-- The confirmation of a decoding at a time. -/
def confirmed (now : ℤ) : DecodeEvent := ⟨.CONFIRMED, now⟩

end Waits

open Waits

/-- Of three seconds and one the last is lost, and none is after two. -/
theorem credited_iff_everyTwo :
    credited everyTwo .NATURAL_PERSON empty [confirmed 2000, confirmed 3000] =
      everyTwo.increments 3 := by
  have hlast : empty.lastDecodedCreatedAt = some 0 := rfl
  exact (credited_iff hlast (by simp only [BelowCap]; decide +kernel)).mpr (by decide +kernel)

/-- Two events a second apart credit nothing for two seconds. -/
theorem not_credited :
    BelowCap everyTwo .NATURAL_PERSON empty [.mk .PENDING 1000, .mk .PENDING 2000] ∧
      credited everyTwo .NATURAL_PERSON empty [.mk .PENDING 1000, .mk .PENDING 2000] ≠
        everyTwo.increments 2 :=
  ⟨by simp only [BelowCap]; decide +kernel, by decide +kernel⟩

end ZroServices.PixKeys
