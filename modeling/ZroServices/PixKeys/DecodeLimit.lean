import Mathlib.Algebra.Order.BigOperators.Group.List
import Mathlib.Data.Nat.Cast.Order.Field
import Mathlib.Tactic.FieldSimp
import ZroServices.Foundation.Bucket
import ZroServices.PixKeys.Domain

/-!
# PIX keys — the limit on decoding keys

Decoding a key shows whose account it leads to, and a user may decode only so many keys: each user
has a bucket.  `CreateDecodedPixKeyUseCase` refuses a request when the bucket, filled up to now, is
empty; `HandleNewDecodedPixKeyEventUseCase` takes from it when a key was decoded or not found, and
gives back when a payment confirms the decoding.  Both fill the bucket with code of their own, the
first without its maximum.

`decode_limit`: in every run no bucket holds more than its maximum, a request is admitted if and
only if the bucket that the handler would fill is not empty, and in a window of `T` seconds the
decodings that are not confirmed are bounded by the bucket and what it gains, and by the
confirmations in the window of decodings from before it.

Dates are in milliseconds.
-/

namespace ZroServices.PixKeys

open Foundation

/-! ### The bucket of a user -/

/-- The settings.  The observer does not start with a setting of zero, and the maximum for each
type of person is read from the database. -/
structure BucketConfig where
  naturalPersonBucketLimit : ℕ
  legalPersonBucketLimit : ℕ
  temporalIncrementBucket : ℕ
  temporalIncrementBucketInterval : ℕ
  validTryDecrementOrIncrementBucket : ℕ
  invalidTryDecrementBucket : ℕ
  temporalIncrementBucket_pos : 0 < temporalIncrementBucket
  temporalIncrementBucketInterval_pos : 0 < temporalIncrementBucketInterval
  validTryDecrementOrIncrementBucket_pos : 0 < validTryDecrementOrIncrementBucket
  invalidTryDecrementBucket_pos : 0 < invalidTryDecrementBucket

/-- The row of a user's limit.  The table has a unique index on the user. -/
structure UserPixKeyDecodeLimit where
  user : Uuid
  limit : ℤ
  lastDecodedCreatedAt : Option ℤ
  deriving DecidableEq, Repr

instance : Keyed UserPixKeyDecodeLimit Uuid := ⟨UserPixKeyDecodeLimit.user⟩

inductive DecodedPixKeyState where
  | PENDING
  | CONFIRMED
  | ERROR
  deriving DecidableEq, Repr

/-- `getMoment(date).unix()`. -/
def unix (date : ℤ) : ℤ := date / 1000

namespace BucketConfig

variable (config : BucketConfig)

def bucketLimit : PersonType → ℤ
  | .NATURAL_PERSON => config.naturalPersonBucketLimit
  | .LEGAL_PERSON => config.legalPersonBucketLimit

/-- What a bucket gains in so many seconds. -/
def increments (totalSeconds : ℤ) : ℤ :=
  totalSeconds / config.temporalIncrementBucketInterval * config.temporalIncrementBucket

end BucketConfig

section

variable (config : BucketConfig) (type : PersonType)

/-- `CreateDecodedPixKeyUseCase.getUserLimitDecodedPixKey`. -/
def createLimit (userPixKeyDecodeLimit : Option UserPixKeyDecodeLimit) (now : ℤ) : ℤ :=
  match userPixKeyDecodeLimit with
  | none => config.bucketLimit type
  | some l =>
    match l.lastDecodedCreatedAt with
    | none => config.bucketLimit type
    | some last => l.limit + config.increments (unix now - unix last)

/-- `validateNewLimit`. -/
def validateNewLimit (newLimit : ℤ) : ℤ :=
  match type with
  | .NATURAL_PERSON =>
      if config.naturalPersonBucketLimit < newLimit then config.naturalPersonBucketLimit
      else newLimit
  | .LEGAL_PERSON =>
      if config.legalPersonBucketLimit < newLimit then config.legalPersonBucketLimit else newLimit

/-- `HandleNewDecodedPixKeyEventUseCase.getUserLimitDecodedPixKey`. -/
def handlerLimit (userPixKeyDecodeLimit : Option UserPixKeyDecodeLimit) (now : ℤ) : ℤ :=
  match userPixKeyDecodeLimit with
  | none => config.bucketLimit type
  | some l =>
    match l.lastDecodedCreatedAt with
    | none => config.bucketLimit type
    | some last =>
        validateNewLimit config type (l.limit + config.increments (unix now - unix last))

/-- `HandleNewDecodedPixKeyEventUseCase`: the row of the user after an event. -/
def handleNewDecodedPixKey (state : DecodedPixKeyState) (user : Uuid)
    (userPixKeyDecodeLimit : Option UserPixKeyDecodeLimit) (now : ℤ) : UserPixKeyDecodeLimit :=
  let limit := handlerLimit config type userPixKeyDecodeLimit now
  { user
    limit :=
      match state with
      | .ERROR => limit - config.invalidTryDecrementBucket
      | .PENDING => limit - config.validTryDecrementOrIncrementBucket
      | .CONFIRMED =>
          validateNewLimit config type (limit + config.validTryDecrementOrIncrementBucket)
    lastDecodedCreatedAt := some now }

end

/-! ### Runs -/

/-- A decoding, with the instant at which its confirmation was handled. -/
structure DecodedPixKey where
  id : Uuid
  user : Uuid
  state : DecodedPixKeyState
  createdAt : ℤ
  confirmedAt : Option ℤ
  deriving DecidableEq, Repr

instance : Keyed DecodedPixKey Uuid := ⟨DecodedPixKey.id⟩

def DecodedPixKey.pending (id user : Uuid) (now : ℤ) : DecodedPixKey :=
  ⟨id, user, .PENDING, now, none⟩

def DecodedPixKey.confirmed (d : DecodedPixKey) (now : ℤ) : DecodedPixKey :=
  { d with state := .CONFIRMED, confirmedAt := some now }

/-- How a request ends that the limit admits: the key was decoded, DICT does not know it, or
something else failed. -/
inductive Decoding where
  | found
  | notFound
  | failed
  deriving DecidableEq, Repr

structure DecodeWorld where
  limits : Table UserPixKeyDecodeLimit
  decoded : Table DecodedPixKey
  /-- The users of whose requests an error event was sent. -/
  errors : List Uuid
  clock : ℤ

def DecodeWorld.start (now : ℤ) : DecodeWorld := ⟨Table.empty, Table.empty, [], now⟩

/-- What happens, and when.  A request whose key is decoded is handled before anything else
happens; its event may be delivered again, and error events are delivered any number of times. -/
inductive DecodeCommand where
  | request (id user : Uuid) (decoding : Decoding) (requestedAt handledAt : ℤ)
  | pendingAgain (id : Uuid) (handledAt : ℤ)
  | error (user : Uuid) (handledAt : ℤ)
  | confirm (id : Uuid) (handledAt : ℤ)

section

variable (config : BucketConfig) (personType : Uuid → PersonType)

/-- The handler of an event. -/
def DecodeWorld.handle (w : DecodeWorld) (state : DecodedPixKeyState) (user : Uuid) (now : ℤ) :
    DecodeWorld :=
  { w with
    limits := w.limits.upsert
      (handleNewDecodedPixKey config (personType user) state user (w.limits.get? user) now)
    clock := now }

/-- `CreateDecodedPixKeyUseCase` admits a request. -/
def DecodeWorld.Admits (w : DecodeWorld) (user : Uuid) (now : ℤ) : Prop :=
  0 < createLimit config (personType user) (w.limits.get? user) now

instance (w : DecodeWorld) (user : Uuid) (now : ℤ) :
    Decidable (w.Admits config personType user now) :=
  inferInstanceAs (Decidable (_ < _))

/-- What a command does when it is not dated before the last one. -/
def DecodeWorld.command (w : DecodeWorld) : DecodeCommand → DecodeWorld
  | .request id user decoding requestedAt handledAt =>
      if handledAt < requestedAt then w
      else if (w.decoded.get? id).isSome ∨ ¬ w.Admits config personType user requestedAt then
        { w with clock := requestedAt }
      else match decoding with
        | .found =>
            { w with decoded := w.decoded.upsert (.pending id user requestedAt) }.handle
              config personType .PENDING user handledAt
        | .notFound => { w with errors := user :: w.errors, clock := requestedAt }
        | .failed => { w with clock := requestedAt }
  | .pendingAgain id handledAt =>
      match w.decoded.get? id with
      | some d => w.handle config personType .PENDING d.user handledAt
      | none => { w with clock := handledAt }
  | .error user handledAt =>
      if user ∈ w.errors then w.handle config personType .ERROR user handledAt
      else { w with clock := handledAt }
  | .confirm id handledAt =>
      match w.decoded.get? id with
      | some d =>
          if d.state = .PENDING then
            { w with decoded := w.decoded.set (d.confirmed handledAt) }.handle
              config personType .CONFIRMED d.user handledAt
          else { w with clock := handledAt }
      | none => { w with clock := handledAt }

/-- The date of a command. -/
def DecodeCommand.date : DecodeCommand → ℤ
  | .request _ _ _ date _ | .pendingAgain _ date | .error _ date | .confirm _ date => date

/-- Time does not go back. -/
def DecodeWorld.step (w : DecodeWorld) (c : DecodeCommand) : DecodeWorld :=
  if c.date < w.clock then w else w.command config personType c

end

/-! ### The two ways to fill the bucket -/

section

variable {config : BucketConfig} {type : PersonType} {row : Option UserPixKeyDecodeLimit} {now : ℤ}

theorem unix_mono : Monotone unix := fun _ _ h => Int.ediv_le_ediv (by decide) h

theorem refill (config : BucketConfig) : Bucket.Refill unix config.increments where
  mono := unix_mono
  nonneg a ha := by
    have hquot : 0 ≤ a / (config.temporalIncrementBucketInterval : ℤ) :=
      Int.ediv_nonneg ha (Int.natCast_nonneg _)
    exact mul_nonneg hquot (Int.natCast_nonneg _)
  add_le a b _ _ := by
    have hpos : (0 : ℤ) < config.temporalIncrementBucketInterval :=
      Int.natCast_pos.mpr config.temporalIncrementBucketInterval_pos
    have hquot : a / (config.temporalIncrementBucketInterval : ℤ) +
        b / config.temporalIncrementBucketInterval ≤
        (a + b) / config.temporalIncrementBucketInterval := by
      rw [Int.le_ediv_iff_mul_le hpos, add_mul]
      exact add_le_add (Int.ediv_mul_le a hpos.ne') (Int.ediv_mul_le b hpos.ne')
    rw [BucketConfig.increments, BucketConfig.increments, BucketConfig.increments, ← add_mul]
    exact mul_le_mul_of_nonneg_right hquot (Int.natCast_nonneg _)

theorem validateNewLimit_eq (config : BucketConfig) (type : PersonType) (newLimit : ℤ) :
    validateNewLimit config type newLimit = min newLimit (config.bucketLimit type) := by
  cases type <;> simp only [validateNewLimit, BucketConfig.bucketLimit] <;> omega

theorem bucketLimit_nonneg : 0 ≤ config.bucketLimit type := by
  cases type <;> exact Int.natCast_nonneg _

theorem handlerLimit_le : handlerLimit config type row now ≤ config.bucketLimit type := by
  cases row with
  | none => exact le_refl _
  | some l =>
      rw [handlerLimit]
      cases l.lastDecodedCreatedAt with
      | none => exact le_refl _
      | some last =>
          dsimp only
          rw [validateNewLimit_eq]
          exact min_le_right _ _

/-- Both ways gain at most what the time that passed brings. -/
theorem handlerLimit_le_createLimit :
    handlerLimit config type row now ≤ createLimit config type row now := by
  cases row with
  | none => exact le_refl _
  | some l =>
      rw [handlerLimit, createLimit]
      cases l.lastDecodedCreatedAt with
      | none => exact le_refl _
      | some last =>
          dsimp only
          rw [validateNewLimit_eq]
          exact min_le_left _ _

/-- Where the bucket can hold anything, the two ways to fill it tell the same about it. -/
theorem createLimit_pos_iff (hpos : row.isSome → 0 < config.bucketLimit type) :
    0 < createLimit config type row now ↔ 0 < handlerLimit config type row now := by
  cases row with
  | none => exact Iff.rfl
  | some l =>
      rw [createLimit, handlerLimit]
      cases l.lastDecodedCreatedAt with
      | none => exact Iff.rfl
      | some last =>
          dsimp only
          rw [validateNewLimit_eq, lt_min_iff]
          exact ⟨fun h => ⟨h, hpos rfl⟩, fun h => h.1⟩

end

/-! ### Decodings and confirmations of a user -/

namespace DecodeWorld

variable (w : DecodeWorld) (user : Uuid)

/-- The number of decodings that meet `p`. -/
def count (p : DecodedPixKey → Bool) : ℤ := w.decoded.total fun d => if p d then 1 else 0

/-- The accepted decodings of the user in a window. -/
def acceptedIn (start stop : ℤ) : ℤ :=
  w.count fun d => d.user = user ∧ start ≤ d.createdAt ∧ d.createdAt ≤ stop

/-- The accepted decodings of the user in a window that are not confirmed. -/
def unconfirmedIn (start stop : ℤ) : ℤ :=
  w.count fun d =>
    (d.user = user ∧ start ≤ d.createdAt ∧ d.createdAt ≤ stop) ∧ d.confirmedAt = none

/-- The confirmations of the user in a window. -/
def confirmedIn (start stop : ℤ) : ℤ :=
  w.count fun d => d.user = user ∧ d.confirmedAt.any fun c => start ≤ c ∧ c ≤ stop

/-- The confirmations of the user in a window of decodings from before it. -/
def lateIn (start stop : ℤ) : ℤ :=
  w.count fun d =>
    (d.user = user ∧ d.confirmedAt.any fun c => start ≤ c ∧ c ≤ stop) ∧ d.createdAt < start

/-- The accepted decodings of the user since an instant. -/
def acceptedSince (start : ℤ) : ℤ := w.count fun d => d.user = user ∧ start ≤ d.createdAt

/-- The confirmations of the user since an instant. -/
def confirmedSince (start : ℤ) : ℤ :=
  w.count fun d => d.user = user ∧ d.confirmedAt.any fun c => start ≤ c

/-- A decoding is dated before its confirmation, and both in the past; while it is PENDING it has
no confirmation. -/
structure Dated (w : DecodeWorld) : Prop where
  created : ∀ d ∈ w.decoded.rows, d.createdAt ≤ w.clock
  confirmed : ∀ d ∈ w.decoded.rows, ∀ c ∈ d.confirmedAt, d.createdAt ≤ c ∧ c ≤ w.clock
  pending : ∀ d ∈ w.decoded.rows, d.state = .PENDING → d.confirmedAt = none

variable {w user} {start stop : ℤ}
variable {p q : DecodedPixKey → Bool}

theorem count_congr (h : ∀ d ∈ w.decoded.rows, p d = q d) : w.count p = w.count q :=
  Table.total_congr fun d hd => by rw [h d hd]

theorem count_le (h : ∀ d ∈ w.decoded.rows, p d → q d) : w.count p ≤ w.count q := by
  rw [count, count, Table.total, Table.total]
  refine List.sum_le_sum fun d hd => ?_
  by_cases hp : p d
  · rw [if_pos hp, if_pos (h d hd hp)]
  · rw [if_neg hp]
    split <;> decide

theorem count_nonneg : 0 ≤ w.count p := by
  have hle := count_le (w := w) (p := fun _ => false) (q := p) fun _ _ h => by cases h
  simpa [count, Table.total] using hle

theorem count_add_le {r s : DecodedPixKey → Bool}
    (h : ∀ d ∈ w.decoded.rows, (if p d then 1 else 0) + (if q d then 1 else 0) ≤
      (if r d then 1 else 0) + (if s d then (1 : ℤ) else 0)) :
    w.count p + w.count q ≤ w.count r + w.count s := by
  rw [count, count, count, count, Table.total, Table.total, Table.total, Table.total,
    ← List.sum_map_add, ← List.sum_map_add]
  exact List.sum_le_sum h

/-- Decodings that are not confirmed and the confirmations of a window. -/
theorem unconfirmedIn_add_le (h : w.Dated) :
    w.unconfirmedIn user start stop + w.confirmedIn user start stop ≤
      w.acceptedIn user start stop + w.lateIn user start stop := by
  refine count_add_le fun d hd => ?_
  by_cases huser : d.user = user
  · cases hc : d.confirmedAt with
    | none => by_cases hw : start ≤ d.createdAt ∧ d.createdAt ≤ stop <;> simp [huser, hw]
    | some c =>
        have hdate := (h.confirmed d hd c hc).1
        by_cases hw : start ≤ c ∧ c ≤ stop
        · by_cases hlate : d.createdAt < start
          · simp [huser, hw, hlate, hlate.not_ge]
          · have hin : start ≤ d.createdAt ∧ d.createdAt ≤ stop :=
              ⟨not_lt.mp hlate, hdate.trans hw.2⟩
            simp [huser, hw, hlate, hin]
        · have hw' : ¬ (start ≤ c ∧ c ≤ stop) := hw
          simp only [huser, true_and, reduceCtorEq, and_false, decide_false, Bool.false_eq_true,
            if_false, Option.any_some, hw', zero_add]
          split <;> split <;> decide
  · simp [huser]

/-- Up to now, a window has no other end. -/
theorem acceptedIn_eq (h : w.Dated) (hto : w.clock ≤ stop) :
    w.acceptedIn user start stop = w.acceptedSince user start := by
  refine count_congr fun d hd => ?_
  have hdate := (h.created d hd).trans hto
  simp [hdate]

theorem confirmedIn_eq (h : w.Dated) (hto : w.clock ≤ stop) :
    w.confirmedIn user start stop = w.confirmedSince user start := by
  refine count_congr fun d hd => ?_
  cases hc : d.confirmedAt with
  | none => rfl
  | some c =>
      have hdate := (h.confirmed d hd c hc).2.trans hto
      simp [hdate]

end DecodeWorld

/-! ### What holds along a run -/

section

variable (config : BucketConfig) (personType : Uuid → PersonType)

/-- The maximum of the bucket of a user. -/
abbrev bucketOf (user : Uuid) : ℤ := config.bucketLimit (personType user)

/-- What a decoding costs. -/
abbrev BucketConfig.unit : ℤ := config.validTryDecrementOrIncrementBucket

/-- A user without a row has decoded nothing; the row of a user is the level of a bucket. -/
def DecodeWorld.Backed (w : DecodeWorld) (user : Uuid) : Prop :=
  match w.limits.get? user with
  | none => ∀ d ∈ w.decoded.rows, d.user ≠ user
  | some l => ∃ last, l.lastDecodedCreatedAt = some last ∧ last ≤ w.clock ∧
      0 < bucketOf config personType user ∧
      Bucket.Holds unix config.increments (bucketOf config personType user) config.unit l.limit last
        (w.acceptedSince user) (w.confirmedSince user)

/-- What was accepted in a window is bounded by the bucket, what it gained and what was given
back. -/
def DecodeWorld.Windowed (w : DecodeWorld) : Prop :=
  ∀ user start stop, 0 < w.acceptedIn user start stop →
    config.unit * w.acceptedIn user start stop + 1 ≤ bucketOf config personType user +
      config.unit * w.confirmedIn user start stop + config.increments (unix stop - unix start) +
      config.unit

structure DecodeWorld.Sound (w : DecodeWorld) : Prop where
  dated : w.Dated
  backed : ∀ user, w.Backed config personType user
  errors : ∀ user ∈ w.errors, 0 < bucketOf config personType user
  windowed : w.Windowed config personType

end

namespace DecodeWorld

variable {config : BucketConfig} {personType : Uuid → PersonType} {w w' : DecodeWorld}
  {user : Uuid} {now s : ℤ}
variable {state : DecodedPixKeyState}

theorem unit_nonneg : 0 ≤ config.unit := Int.natCast_nonneg _

theorem count_eq_zero {p : DecodedPixKey → Bool} (h : ∀ d ∈ w.decoded.rows, p d = false) :
    w.count p = 0 := by
  rw [count_congr (q := fun _ => false) h]
  simp [count, Table.total]

section

variable (h : w.Backed config personType user)
include h

/-- The level of the bucket of a user; it is full as long as the user has no row. -/
theorem Backed.bucket :
    ∃ level last, last ≤ w.clock ∧
      Bucket.Holds unix config.increments (bucketOf config personType user) config.unit level last
        (w.acceptedSince user) (w.confirmedSince user) ∧
      ∀ s, w.clock ≤ s → createLimit config (personType user) (w.limits.get? user) s ≤
        level + config.increments (unix s - unix last) := by
  rw [Backed] at h
  cases hl : w.limits.get? user with
  | none =>
      rw [hl] at h
      have haccepted : w.acceptedSince user = fun _ => 0 :=
        funext fun t => count_eq_zero fun d hd => by simp [h d hd]
      have hconfirmed : w.confirmedSince user = fun _ => 0 :=
        funext fun t => count_eq_zero fun d hd => by simp [h d hd]
      refine ⟨bucketOf config personType user, w.clock, le_refl _, ?_, fun s hs => ?_⟩
      · rw [haccepted, hconfirmed]
        exact Bucket.holds_full (refill config) w.clock
      · have hgain := (refill config).nonneg (unix s - unix w.clock)
          (sub_nonneg.mpr (unix_mono hs))
        rw [createLimit]
        linarith
  | some l =>
      rw [hl] at h
      obtain ⟨last, hlast, hclock, -, hholds⟩ := h
      refine ⟨l.limit, last, hclock, hholds, fun s _ => ?_⟩
      simp only [createLimit, hlast, le_refl]

theorem Backed.row {l : UserPixKeyDecodeLimit} (hl : w.limits.get? user = some l) :
    ∃ last, l.lastDecodedCreatedAt = some last ∧ last ≤ w.clock ∧
      0 < bucketOf config personType user ∧
      Bucket.Holds unix config.increments (bucketOf config personType user) config.unit l.limit last
        (w.acceptedSince user) (w.confirmedSince user) := by
  rw [Backed, hl] at h
  exact h

/-- The bucket of a user is as it was when neither the row nor the decodings of the user change. -/
theorem Backed.congr (hlimits : w'.limits.get? user = w.limits.get? user)
    (huser : ∀ d ∈ w'.decoded.rows, d.user = user → ∃ d' ∈ w.decoded.rows, d'.user = user)
    (haccepted : w'.acceptedSince user = w.acceptedSince user)
    (hconfirmed : w'.confirmedSince user = w.confirmedSince user) (hclock : w.clock ≤ w'.clock) :
    w'.Backed config personType user := by
  rw [Backed] at h ⊢
  rw [hlimits]
  cases hl : w.limits.get? user with
  | none =>
      rw [hl] at h
      intro d hd hu
      obtain ⟨d', hd', hu'⟩ := huser d hd hu
      exact h d' hd' hu'
  | some l =>
      rw [hl] at h
      obtain ⟨last, hlast, hle, hpos, hholds⟩ := h
      rw [← haccepted, ← hconfirmed] at hholds
      exact ⟨last, hlast, hle.trans hclock, hpos, hholds⟩

end

/-- The handler leaves the bucket of the user as `Holds` says of the level that it writes. -/
theorem backed_handle (hpos : 0 < bucketOf config personType user)
    (hholds : Bucket.Holds unix config.increments (bucketOf config personType user) config.unit
      (handleNewDecodedPixKey config (personType user) state user (w.limits.get? user) now).limit
      now (w.acceptedSince user) (w.confirmedSince user)) :
    (w.handle config personType state user now).Backed config personType user := by
  have hrow : (w.handle config personType state user now).limits.get? user =
      some (handleNewDecodedPixKey config (personType user) state user (w.limits.get? user) now) :=
    Table.get?_upsert_self
  rw [Backed, hrow]
  exact ⟨now, rfl, le_refl _, hpos, hholds⟩

/-- The handler changes the bucket of no other user. -/
theorem get?_handle_ne {v : Uuid} (h : user ≠ v) :
    (w.handle config personType state user now).limits.get? v = w.limits.get? v :=
  Table.get?_upsert_ne h

/-- The same decodings, dated by a later clock. -/
theorem Dated.later (h : w.Dated) (hdecoded : w'.decoded = w.decoded)
    (hclock : w.clock ≤ w'.clock) : w'.Dated := by
  constructor <;> rw [hdecoded]
  · exact fun d hd => (h.created d hd).trans hclock
  · exact fun d hd c hc => ⟨(h.confirmed d hd c hc).1, (h.confirmed d hd c hc).2.trans hclock⟩
  · exact h.pending

theorem Sound.later (h : w.Sound config personType) (hclock : w.clock ≤ now) :
    ({ w with clock := now } : DecodeWorld).Sound config personType where
  dated := h.dated.later rfl hclock
  backed user := (h.backed user).congr rfl (fun d hd hu => ⟨d, hd, hu⟩) rfl rfl hclock
  errors := h.errors
  windowed := h.windowed

/-- What an event leaves, when `t` are the decodings as the code before the handler left them. -/
theorem Sound.handle (h : w.Sound config personType) {t : Table DecodedPixKey}
    (hclock : w.clock ≤ now)
    (hpos : 0 < bucketOf config personType user)
    (hothers : ∀ v, v ≠ user → ∀ p : DecodedPixKey → Bool, (∀ d, p d → d.user = v) →
      ({ w with decoded := t } : DecodeWorld).count p = w.count p)
    (hrows : ∀ d ∈ t.rows, d.user ≠ user → d ∈ w.decoded.rows)
    (hholds : Bucket.Holds unix config.increments (bucketOf config personType user) config.unit
      (handleNewDecodedPixKey config (personType user) state user (w.limits.get? user) now).limit
      now (({ w with decoded := t } : DecodeWorld).acceptedSince user)
      (({ w with decoded := t } : DecodeWorld).confirmedSince user))
    (hdated : ({ w with decoded := t, clock := now } : DecodeWorld).Dated)
    (hwindowed : ({ w with decoded := t } : DecodeWorld).Windowed config personType) :
    (({ w with decoded := t } : DecodeWorld).handle config personType state user now).Sound
      config personType where
  dated := hdated.later rfl (le_refl _)
  errors := h.errors
  windowed := hwindowed
  backed v := by
    by_cases hv : user = v
    · subst hv
      exact backed_handle hpos hholds
    · have same := hothers v (Ne.symm hv)
      have haccepted : ({ w with decoded := t } : DecodeWorld).acceptedSince v =
          w.acceptedSince v := funext fun from' => same _ fun d hd => by simp_all
      have hconfirmed : ({ w with decoded := t } : DecodeWorld).confirmedSince v =
          w.confirmedSince v := funext fun from' => same _ fun d hd => by simp_all
      refine (h.backed v).congr (get?_handle_ne hv) ?_ haccepted hconfirmed hclock
      exact fun d hd hu => ⟨d, hrows d hd fun e => hv (e.symm.trans hu), hu⟩

/-! ### The steps -/

theorem count_upsert {d : DecodedPixKey} (hfresh : w.decoded.get? d.id = none)
    (p : DecodedPixKey → Bool) :
    ({ w with decoded := w.decoded.upsert d } : DecodeWorld).count p =
      w.count p + if p d then 1 else 0 := by
  rw [count, Table.total_upsert, count]
  change _ - ((w.decoded.get? d.id).map _).getD 0 + _ = _
  rw [hfresh]
  simp

section

variable {id : Uuid} {requestedAt : ℤ}

/-- The world with a new decoding. -/
abbrev added (w : DecodeWorld) (id user : Uuid) (requestedAt : ℤ) : DecodeWorld :=
  { w with decoded := w.decoded.upsert (.pending id user requestedAt) }

theorem acceptedSince_added (hfresh : w.decoded.get? id = none) :
    (w.added id user requestedAt).acceptedSince user =
      fun t => w.acceptedSince user t + if t ≤ requestedAt then 1 else 0 := by
  funext t
  rw [acceptedSince, count_upsert hfresh]
  simp [acceptedSince, DecodedPixKey.pending]

theorem confirmedSince_added (hfresh : w.decoded.get? id = none) (v : Uuid) :
    (w.added id user requestedAt).confirmedSince v = w.confirmedSince v := by
  funext t
  rw [confirmedSince, count_upsert hfresh]
  simp [confirmedSince, DecodedPixKey.pending]

theorem Dated.added (h : w.Dated) (hrequested : w.clock ≤ requestedAt) (hnow : requestedAt ≤ now) :
    ({ w.added id user requestedAt with clock := now } : DecodeWorld).Dated := by
  constructor
  · intro d hd
    rcases Table.mem_upsert.mp hd with ⟨hd, -⟩ | rfl
    · exact (h.created d hd).trans (hrequested.trans hnow)
    · exact hnow
  · intro d hd c hc
    rcases Table.mem_upsert.mp hd with ⟨hd, -⟩ | rfl
    · obtain ⟨hcreated, hpast⟩ := h.confirmed d hd c hc
      exact ⟨hcreated, hpast.trans (hrequested.trans hnow)⟩
    · cases hc
  · intro d hd hstate
    rcases Table.mem_upsert.mp hd with ⟨hd, -⟩ | rfl
    · exact h.pending d hd hstate
    · rfl

/-- A decoding is admitted while the bucket is not empty, so that every window keeps its bound. -/
theorem Windowed.added (h : w.Windowed config personType) (hdated : w.Dated) {level last : ℤ}
    (hholds : Bucket.Holds unix config.increments (bucketOf config personType user) config.unit
      level last (w.acceptedSince user) (w.confirmedSince user))
    (hpos : 0 < bucketOf config personType user) (hlast : last ≤ w.clock)
    (hrequested : w.clock ≤ requestedAt) (hfresh : w.decoded.get? id = none)
    (hlevel : 0 < level + config.increments (unix requestedAt - unix last)) :
    (w.added id user requestedAt).Windowed config personType := by
  intro v start stop hpositive
  have hconfirmed : (w.added id user requestedAt).confirmedIn v start stop =
      w.confirmedIn v start stop := by
    rw [confirmedIn, count_upsert hfresh]
    simp [confirmedIn, DecodedPixKey.pending]
  have haccepted : (w.added id user requestedAt).acceptedIn v start stop =
      w.acceptedIn v start stop +
        if user = v ∧ start ≤ requestedAt ∧ requestedAt ≤ stop then 1 else 0 := by
    rw [acceptedIn, count_upsert hfresh]
    exact congrArg _ (if_congr decide_eq_true_iff rfl rfl)
  rw [hconfirmed, haccepted]
  rw [haccepted] at hpositive
  by_cases hin : user = v ∧ start ≤ requestedAt ∧ requestedAt ≤ stop
  · obtain ⟨rfl, hstart, hstop⟩ := hin
    rw [acceptedIn_eq hdated (hrequested.trans hstop),
      confirmedIn_eq hdated (hrequested.trans hstop), if_pos ⟨rfl, hstart, hstop⟩]
    have hadmitted := hholds.admitted (refill config) hpos (hlast.trans hrequested) hlevel hstart
    have hmono := (refill config).gain_mono hstart hstop
    linarith
  · rw [if_neg hin, add_zero] at hpositive ⊢
    exact h v start stop hpositive

/-- A user of whom a request is admitted has a bucket that can hold something. -/
theorem Backed.pos (h : w.Backed config personType user)
    (hadmits : w.Admits config personType user requestedAt) :
    0 < bucketOf config personType user := by
  rw [Backed] at h
  cases hl : w.limits.get? user with
  | none =>
      rw [Admits, hl] at hadmits
      exact hadmits
  | some l =>
      rw [hl] at h
      obtain ⟨_, -, -, hpos, -⟩ := h
      exact hpos

/-- A decoding that the limit admits. -/
theorem Sound.found (h : w.Sound config personType) (hrequested : w.clock ≤ requestedAt)
    (hnow : requestedAt ≤ now) (hfresh : w.decoded.get? id = none)
    (hadmits : w.Admits config personType user requestedAt) :
    ((w.added id user requestedAt).handle config personType .PENDING user now).Sound config
      personType := by
  obtain ⟨level, last, hlast, hholds, hcreate⟩ := (h.backed user).bucket
  have hpos := (h.backed user).pos hadmits
  have hlimit := handlerLimit_le_createLimit.trans (hcreate now (hrequested.trans hnow))
  have hcap : handlerLimit config (personType user) (w.limits.get? user) now ≤
      bucketOf config personType user := handlerLimit_le
  refine h.handle (hrequested.trans hnow) hpos ?_ ?_ ?_ (h.dated.added hrequested hnow) ?_
  · intro v hv p hp
    have hnot : p (.pending id user requestedAt) = false :=
      Bool.eq_false_iff.mpr fun hc => hv (hp _ hc).symm
    rw [count_upsert hfresh, hnot]
    simp
  · intro d hd hu
    rcases Table.mem_upsert.mp hd with ⟨hd, -⟩ | rfl
    · exact hd
    · exact absurd rfl hu
  · rw [acceptedSince_added hfresh, confirmedSince_added hfresh]
    refine hholds.take (refill config) unit_nonneg (hlast.trans hrequested) hnow ?_ ?_
    · exact sub_le_sub_right hlimit config.unit
    · exact sub_le_sub_right hcap config.unit
  · exact h.windowed.added h.dated hholds hpos hlast hrequested hfresh
      (lt_of_lt_of_le hadmits (hcreate requestedAt hrequested))

end

/-- A user who decoded something has a bucket that can hold something. -/
theorem Backed.pos_of_mem (h : w.Backed config personType user) {d : DecodedPixKey}
    (hd : d ∈ w.decoded.rows) (huser : d.user = user) : 0 < bucketOf config personType user := by
  rw [Backed] at h
  cases hl : w.limits.get? user with
  | none =>
      rw [hl] at h
      exact absurd huser (h d hd)
  | some l =>
      rw [hl] at h
      obtain ⟨_, -, -, hpos, -⟩ := h
      exact hpos

/-- An event that takes from the bucket, of no new decoding. -/
theorem Sound.again (h : w.Sound config personType) {state : DecodedPixKeyState}
    (hclock : w.clock ≤ now) (hpos : 0 < bucketOf config personType user)
    (hstate : state ≠ .CONFIRMED) :
    (w.handle config personType state user now).Sound config personType := by
  obtain ⟨level, last, hlast, hholds, hcreate⟩ := (h.backed user).bucket
  have htaken : (handleNewDecodedPixKey config (personType user) state user
      (w.limits.get? user) now).limit ≤
      handlerLimit config (personType user) (w.limits.get? user) now := by
    cases state with
    | CONFIRMED => exact absurd rfl hstate
    | PENDING => exact sub_le_self _ (Int.natCast_nonneg _)
    | ERROR => exact sub_le_self _ (Int.natCast_nonneg _)
  refine h.handle hclock hpos (fun v _ p _ => rfl) (fun d hd _ => hd) ?_ (h.dated.later rfl hclock)
    h.windowed
  exact hholds.drop (refill config) (hlast.trans hclock)
    (htaken.trans (handlerLimit_le_createLimit.trans (hcreate now hclock)))
    (htaken.trans handlerLimit_le)

section

variable {d : DecodedPixKey}

/-- The world with a decoding confirmed. -/
abbrev confirming (w : DecodeWorld) (d : DecodedPixKey) (now : ℤ) : DecodeWorld :=
  { w with decoded := w.decoded.set (d.confirmed now) }

section

variable (hd : w.decoded.get? d.id = some d)
include hd

theorem count_confirming (p : DecodedPixKey → Bool) :
    (w.confirming d now).count p =
      w.count p - (if p d then 1 else 0) + if p (d.confirmed now) then 1 else 0 :=
  Table.total_set (r := d.confirmed now) hd rfl fun d => if p d then 1 else 0

theorem acceptedSince_confirming :
    (w.confirming d now).acceptedSince user = w.acceptedSince user := by
  funext t
  rw [acceptedSince, count_confirming hd]
  exact sub_add_cancel _ _

theorem acceptedIn_confirming (start stop : ℤ) :
    (w.confirming d now).acceptedIn user start stop = w.acceptedIn user start stop := by
  rw [acceptedIn, count_confirming hd]
  exact sub_add_cancel _ _

theorem confirmedSince_confirming (hnone : d.confirmedAt = none) :
    (w.confirming d now).confirmedSince d.user =
      fun t => w.confirmedSince d.user t + if t ≤ now then 1 else 0 := by
  funext t
  rw [confirmedSince, count_confirming hd]
  simp [confirmedSince, DecodedPixKey.confirmed, hnone]

theorem confirmedIn_le_confirming (hnone : d.confirmedAt = none) (start stop : ℤ) :
    w.confirmedIn user start stop ≤ (w.confirming d now).confirmedIn user start stop := by
  rw [confirmedIn, confirmedIn, count_confirming hd]
  simp only [hnone, Option.any_none, Bool.false_eq_true, and_false, decide_false, if_false,
    sub_zero]
  refine le_add_of_nonneg_right ?_
  split <;> decide

end

theorem Dated.confirming (h : w.Dated) (hclock : w.clock ≤ now) (hmem : d ∈ w.decoded.rows) :
    ({ w.confirming d now with clock := now } : DecodeWorld).Dated := by
  constructor
  · intro d' hd'
    rcases Table.mem_set.mp hd' with ⟨hd', -⟩ | ⟨rfl, -⟩
    · exact (h.created d' hd').trans hclock
    · exact (h.created d hmem).trans hclock
  · intro d' hd' c hc
    rcases Table.mem_set.mp hd' with ⟨hd', -⟩ | ⟨rfl, -⟩
    · obtain ⟨hcreated, hpast⟩ := h.confirmed d' hd' c hc
      exact ⟨hcreated, hpast.trans hclock⟩
    · obtain rfl := Option.some.inj hc
      exact ⟨(h.created d hmem).trans hclock, le_refl _⟩
  · intro d' hd' hs
    rcases Table.mem_set.mp hd' with ⟨hd', -⟩ | ⟨rfl, -⟩
    · exact h.pending d' hd' hs
    · cases hs

/-- A decoding is confirmed. -/
theorem Sound.confirm (h : w.Sound config personType) (hclock : w.clock ≤ now)
    (hd : w.decoded.get? d.id = some d) (hstate : d.state = .PENDING) :
    ((w.confirming d now).handle config personType .CONFIRMED d.user now).Sound config
      personType := by
  obtain ⟨level, last, hlast, hholds, hcreate⟩ := (h.backed d.user).bucket
  have hmem := Table.mem_of_get? hd
  have hnone := h.dated.pending d hmem hstate
  have hlimit := handlerLimit_le_createLimit.trans (hcreate now hclock)
  refine h.handle hclock ((h.backed d.user).pos_of_mem hmem rfl) ?_ ?_ ?_
    (h.dated.confirming hclock hmem) ?_
  · intro v hv p hp
    have hnot : ∀ d', d'.user = d.user → p d' = false := fun d' hd' =>
      Bool.eq_false_iff.mpr fun hc => hv ((hp d' hc).symm.trans hd')
    rw [count_confirming hd, hnot d rfl, hnot (d.confirmed now) rfl]
    simp
  · intro d' hd' hu
    rcases Table.mem_set.mp hd' with ⟨hd', -⟩ | ⟨rfl, -⟩
    · exact hd'
    · exact absurd rfl hu
  · rw [acceptedSince_confirming hd, confirmedSince_confirming hd hnone]
    change Bucket.Holds _ _ _ _ (validateNewLimit _ _ _) _ _ _
    rw [validateNewLimit_eq]
    refine hholds.give (refill config) unit_nonneg (hlast.trans hclock) ?_ (min_le_right _ _)
    exact (min_le_left _ _).trans (add_le_add_left hlimit config.unit)
  · intro v start stop hpositive
    rw [acceptedIn_confirming hd] at hpositive ⊢
    have hbound := h.windowed v start stop hpositive
    have hgrown : config.unit * w.confirmedIn v start stop ≤
        config.unit * (w.confirming d now).confirmedIn v start stop :=
      mul_le_mul_of_nonneg_left (confirmedIn_le_confirming hd hnone start stop) unit_nonneg
    linarith

end

/-- Every command keeps what holds. -/
theorem Sound.step (h : w.Sound config personType) (c : DecodeCommand) :
    (w.step config personType c).Sound config personType := by
  rw [DecodeWorld.step]
  split
  · exact h
  rename_i hdate
  have hclock := not_lt.mp hdate
  cases c with
  | request id user decoding requestedAt handledAt =>
      simp only [command]
      split
      · exact h
      rename_i hhandled
      split
      · exact h.later hclock
      rename_i hadmits
      obtain ⟨hfresh, hadmits⟩ := not_or.mp hadmits
      cases decoding with
      | found =>
          exact h.found hclock (not_lt.mp hhandled) (by simpa using hfresh) (not_not.mp hadmits)
      | notFound =>
          have hlater : ({ w with clock := requestedAt } : DecodeWorld).Sound config personType :=
            h.later hclock
          change Sound config personType { w with errors := user :: w.errors, clock := requestedAt }
          refine ⟨hlater.dated.later rfl (le_refl _), hlater.backed, fun u hu => ?_, hlater.windowed⟩
          rcases List.mem_cons.mp hu with rfl | hu
          · exact (h.backed u).pos (not_not.mp hadmits)
          · exact h.errors u hu
      | failed => exact h.later hclock
  | pendingAgain id handledAt =>
      simp only [command]
      cases hd : w.decoded.get? id with
      | none => exact h.later hclock
      | some d =>
          exact h.again hclock ((h.backed d.user).pos_of_mem (Table.mem_of_get? hd) rfl)
            (by decide)
  | error user handledAt =>
      simp only [command]
      split
      · rename_i hu
        exact h.again hclock (h.errors user hu) (by decide)
      · exact h.later hclock
  | confirm id handledAt =>
      simp only [command]
      cases hd : w.decoded.get? id with
      | none => exact h.later hclock
      | some d =>
          dsimp only
          split
          · rename_i hstate
            obtain rfl : d.id = id := Table.key_of_get? hd
            exact h.confirm hclock hd hstate
          · exact h.later hclock

theorem sound_start (config : BucketConfig) (personType : Uuid → PersonType) (now : ℤ) :
    (start now).Sound config personType where
  dated := ⟨fun _ hd => absurd hd List.not_mem_nil, fun _ hd => absurd hd List.not_mem_nil,
    fun _ hd => absurd hd List.not_mem_nil⟩
  backed _ := fun _ hd => absurd hd List.not_mem_nil
  errors _ hu := absurd hu List.not_mem_nil
  windowed _ _ _ h := absurd h (lt_irrefl 0)

/-- What a window of `T` seconds brings. -/
theorem increments_window (config : BucketConfig) (start : ℤ) (T : ℕ) :
    (config.increments (unix (start + 1000 * T) - unix start) : ℚ) ≤
      T / config.temporalIncrementBucketInterval * config.temporalIncrementBucket := by
  have hseconds : unix (start + 1000 * T) - unix start = T := by
    rw [unix, unix, Int.add_mul_ediv_left _ _ (by decide), add_sub_cancel_left]
  rw [hseconds, BucketConfig.increments, Int.cast_mul, Int.cast_natCast]
  refine mul_le_mul_of_nonneg_right ?_ (Nat.cast_nonneg _)
  rw [← Int.natCast_ediv, Int.cast_natCast]
  exact Nat.cast_div_le

/-- What is accepted in a window of `T` seconds and not confirmed. -/
theorem Sound.unconfirmed (h : w.Sound config personType) (user : Uuid) (start : ℤ) (T : ℕ) :
    (w.unconfirmedIn user start (start + 1000 * T) : ℚ) ≤
      (bucketOf config personType user : ℚ) / config.validTryDecrementOrIncrementBucket +
        (1 + (T : ℚ) / config.temporalIncrementBucketInterval) * config.temporalIncrementBucket /
          config.validTryDecrementOrIncrementBucket + 1 +
        w.lateIn user start (start + 1000 * T) := by
  have hunit : (0 : ℚ) < config.validTryDecrementOrIncrementBucket :=
    Nat.cast_pos.mpr config.validTryDecrementOrIncrementBucket_pos
  have hinc : (0 : ℚ) ≤ config.temporalIncrementBucket := Nat.cast_nonneg _
  have hgain := increments_window config start T
  have hlate : (0 : ℤ) ≤ w.lateIn user start (start + 1000 * T) := count_nonneg
  have hadd : w.unconfirmedIn user start (start + 1000 * T) +
      w.confirmedIn user start (start + 1000 * T) ≤
      w.acceptedIn user start (start + 1000 * T) + w.lateIn user start (start + 1000 * T) :=
    unconfirmedIn_add_le h.dated
  have hle : w.unconfirmedIn user start (start + 1000 * T) ≤
      w.acceptedIn user start (start + 1000 * T) :=
    count_le fun d _ hd => by simp_all
  have hbucket : (0 : ℤ) ≤ bucketOf config personType user := bucketLimit_nonneg
  have hbound : config.unit * w.unconfirmedIn user start (start + 1000 * T) ≤
      bucketOf config personType user +
        config.increments (unix (start + 1000 * T) - unix start) + config.unit +
        config.unit * w.lateIn user start (start + 1000 * T) := by
    have hgained : 0 ≤ config.increments (unix (start + 1000 * T) - unix start) :=
      (refill config).nonneg _ (sub_nonneg.mpr (unix_mono (by omega)))
    have hnonneg : 0 ≤ config.unit := unit_nonneg
    have hlateUnit := mul_nonneg hnonneg hlate
    have haddUnit := mul_le_mul_of_nonneg_left hadd hnonneg
    have hleUnit := mul_le_mul_of_nonneg_left hle hnonneg
    rw [mul_add, mul_add] at haddUnit
    rcases lt_or_ge 0 (w.acceptedIn user start (start + 1000 * T)) with hpos | hzero
    · have hwindow := h.windowed user start (start + 1000 * T) hpos
      linarith
    · have hnone := mul_nonpos_of_nonneg_of_nonpos hnonneg hzero
      linarith
  have hcast : (config.unit : ℚ) * w.unconfirmedIn user start (start + 1000 * T) ≤
      bucketOf config personType user +
        config.increments (unix (start + 1000 * T) - unix start) + config.unit +
        config.unit * w.lateIn user start (start + 1000 * T) := by
    exact_mod_cast hbound
  have hsum : (bucketOf config personType user : ℚ) / config.validTryDecrementOrIncrementBucket +
      (1 + (T : ℚ) / config.temporalIncrementBucketInterval) * config.temporalIncrementBucket /
        config.validTryDecrementOrIncrementBucket + 1 +
      w.lateIn user start (start + 1000 * T) =
      (bucketOf config personType user +
        (1 + (T : ℚ) / config.temporalIncrementBucketInterval) * config.temporalIncrementBucket +
        config.validTryDecrementOrIncrementBucket +
        config.validTryDecrementOrIncrementBucket * w.lateIn user start (start + 1000 * T)) /
        config.validTryDecrementOrIncrementBucket := by
    field_simp
  rw [hsum, le_div_iff₀ hunit, mul_comm]
  rw [BucketConfig.unit, Int.cast_natCast] at hcast
  linarith

theorem sound_run (config : BucketConfig) (personType : Uuid → PersonType) (now : ℤ)
    (cmds : List DecodeCommand) :
    (run (step config personType) (start now) cmds).Sound config personType :=
  run_invariant (fun _ c h => h.step c) (sound_start config personType now) cmds

end DecodeWorld

/-- In every run: no bucket holds more than its maximum, a request is admitted if and only if the
bucket that the handler would fill is not empty, and what is accepted in a window and not confirmed
is bounded. -/
theorem decode_limit (config : BucketConfig) (personType : Uuid → PersonType) (began : ℤ)
    (cmds : List DecodeCommand) :
    let w := run (DecodeWorld.step config personType) (DecodeWorld.start began) cmds
    (∀ l ∈ w.limits.rows, l.limit ≤ config.bucketLimit (personType l.user)) ∧
    (∀ user now, w.Admits config personType user now ↔
      0 < handlerLimit config (personType user) (w.limits.get? user) now) ∧
    ∀ user start (T : ℕ), (w.unconfirmedIn user start (start + 1000 * T) : ℚ) ≤
      (config.bucketLimit (personType user) : ℚ) / config.validTryDecrementOrIncrementBucket +
        (1 + (T : ℚ) / config.temporalIncrementBucketInterval) * config.temporalIncrementBucket /
          config.validTryDecrementOrIncrementBucket + 1 +
        w.lateIn user start (start + 1000 * T) := by
  intro w
  have h : w.Sound config personType := DecodeWorld.sound_run config personType began cmds
  refine ⟨fun l hl => ?_, fun user now => ?_, fun user start T => h.unconfirmed user start T⟩
  · have hrow : w.limits.get? l.user = some l := Table.get?_of_mem hl
    obtain ⟨_, -, -, -, hholds⟩ := (h.backed l.user).row hrow
    exact hholds.capped
  · refine createLimit_pos_iff fun hrow => ?_
    obtain ⟨l, hl⟩ := Option.isSome_iff_exists.mp hrow
    obtain ⟨_, -, -, hpos, -⟩ := (h.backed user).row hl
    exact hpos

/-- Settings under which a decoding costs one, and a second gives one back. -/
abbrev oneEach : BucketConfig where
  naturalPersonBucketLimit := 3
  legalPersonBucketLimit := 3
  temporalIncrementBucket := 1
  temporalIncrementBucketInterval := 1
  validTryDecrementOrIncrementBucket := 1
  invalidTryDecrementBucket := 1
  temporalIncrementBucket_pos := Nat.one_pos
  temporalIncrementBucketInterval_pos := Nat.one_pos
  validTryDecrementOrIncrementBucket_pos := Nat.one_pos
  invalidTryDecrementBucket_pos := Nat.one_pos

/-- Three decodings, and a minute later three more; the first three are confirmed, and three more
are accepted. -/
theorem decode_limit_late_confirmations :
    ∃ (config : BucketConfig) (personType : Uuid → PersonType) (began : ℤ)
      (cmds : List DecodeCommand) (user : Uuid) (start : ℤ) (T : ℕ),
      let w := run (DecodeWorld.step config personType) (DecodeWorld.start began) cmds
      ¬ (w.unconfirmedIn user start (start + 1000 * T) : ℚ) ≤
        (config.bucketLimit (personType user) : ℚ) / config.validTryDecrementOrIncrementBucket +
          (1 + (T : ℚ) / config.temporalIncrementBucketInterval) * config.temporalIncrementBucket /
            config.validTryDecrementOrIncrementBucket + 1 := by
  refine ⟨oneEach, fun _ => .NATURAL_PERSON, 0,
    [.request 1 0 .found 0 0, .request 2 0 .found 0 0, .request 3 0 .found 0 0,
      .request 4 0 .found 60000 60000, .request 5 0 .found 60000 60000,
      .request 6 0 .found 60000 60000, .confirm 1 60000, .confirm 2 60000,
      .confirm 3 60000, .request 7 0 .found 60000 60000,
      .request 8 0 .found 60000 60000, .request 9 0 .found 60000 60000],
    0, 60000, 0, ?_⟩
  have hcount : (run (DecodeWorld.step oneEach fun _ => .NATURAL_PERSON) (DecodeWorld.start 0)
    [.request 1 0 .found 0 0, .request 2 0 .found 0 0, .request 3 0 .found 0 0,
      .request 4 0 .found 60000 60000, .request 5 0 .found 60000 60000,
      .request 6 0 .found 60000 60000, .confirm 1 60000, .confirm 2 60000,
      .confirm 3 60000, .request 7 0 .found 60000 60000,
      .request 8 0 .found 60000 60000, .request 9 0 .found 60000 60000]).unconfirmedIn
      0 60000 (60000 + 1000 * (0 : ℕ)) = 6 := by
    decide +kernel
  dsimp only
  rw [hcount]
  norm_num [BucketConfig.bucketLimit]

end ZroServices.PixKeys
