import Mathlib.Data.Int.ConditionallyCompleteOrder
import Mathlib.Tactic.Linarith
import Mathlib.Tactic.Ring

/-!
# Foundation — a bucket that fills with time

A bucket holds at most `cap`.  Taking from it costs `unit`, giving back returns `unit`, and
between two uses it gains what `gain` says of the time that passed, as a clock `u` shows it.  The
bucket may be taken from while its level is positive, so that the level may end below zero.

`Holds` relates the level to the numbers of takings and givings since any instant: what was taken
since then is at most the capacity, what was given back, and the gain.  Each use of the bucket
keeps it (`Holds.take`, `Holds.give`, `Holds.drop`); where a taking is admitted, the takings since
any instant are bounded (`Holds.admitted`).
-/

namespace Foundation.Bucket

variable {u gain : ℤ → ℤ} {cap unit : ℤ}

/-- The clock does not go back, and what is gained in parts is at most what is gained at once. -/
structure Refill (u gain : ℤ → ℤ) : Prop where
  mono : Monotone u
  nonneg : ∀ a, 0 ≤ a → 0 ≤ gain a
  add_le : ∀ a b, 0 ≤ a → 0 ≤ b → gain a + gain b ≤ gain (a + b)

/-- The level of a bucket that was used last at `last`, with the numbers of takings and givings
since every instant. -/
structure Holds (u gain : ℤ → ℤ) (cap unit level last : ℤ) (taken given : ℤ → ℤ) : Prop where
  capped : level ≤ cap
  taken_past : ∀ t, last < t → taken t = 0
  given_past : ∀ t, last < t → given t = 0
  law : ∀ t, level + unit * taken t ≤ cap + unit * given t + gain (max 0 (u last - u t))

variable {level level' last now s : ℤ} {taken given : ℤ → ℤ}

/-- A full bucket from which nothing was taken. -/
theorem holds_full (hr : Refill u gain) (last : ℤ) :
    Holds u gain cap unit cap last (fun _ => 0) fun _ => 0 where
  capped := le_refl cap
  taken_past _ _ := rfl
  given_past _ _ := rfl
  law t := by
    have hgain := hr.nonneg (max 0 (u last - u t)) (le_max_left _ _)
    linarith

/-- The gain since an instant before the last use, up to a later instant. -/
theorem Refill.gain_add (hr : Refill u gain) {t : ℤ} (ht : t ≤ last) (hs : last ≤ s) :
    gain (max 0 (u last - u t)) + gain (u s - u last) ≤ gain (u s - u t) := by
  have hlast := hr.mono ht
  have hnow := hr.mono hs
  rw [max_eq_right (by linarith)]
  have hsum := hr.add_le (u last - u t) (u s - u last) (by linarith) (by linarith)
  rwa [show u last - u t + (u s - u last) = u s - u t by ring] at hsum

/-- A longer time gains no less. -/
theorem Refill.gain_mono (hr : Refill u gain) {t : ℤ} (ht : t ≤ last) (hs : last ≤ s) :
    gain (u last - u t) ≤ gain (u s - u t) := by
  have hsum := hr.gain_add ht hs
  have hgain := hr.nonneg (u s - u last) (sub_nonneg.mpr (hr.mono hs))
  rw [max_eq_right (sub_nonneg.mpr (hr.mono ht))] at hsum
  linarith

section

variable (h : Holds u gain cap unit level last taken given) (hr : Refill u gain)
include h hr

/-- A use of the bucket that adds at most `delta` to it, where `delta` is made up for by the
takings and givings that it adds. -/
theorem Holds.use (hnow : last ≤ now) {taken' given' : ℤ → ℤ} (hcap : level' ≤ cap)
    (htaken : ∀ t, now < t → taken' t = 0) (hgiven : ∀ t, now < t → given' t = 0)
    (hold : ∀ t, t ≤ last → level' + unit * (taken' t - taken t) ≤
      level + gain (u now - u last) + unit * (given' t - given t))
    (hnew : ∀ t, last < t → level' + unit * taken' t ≤ cap + unit * given' t) :
    Holds u gain cap unit level' now taken' given' where
  capped := hcap
  taken_past := htaken
  given_past := hgiven
  law t := by
    rcases le_or_gt t last with ht | ht
    · have hlaw := h.law t
      have hgain := hr.gain_add ht hnow
      have hmono := hr.mono (ht.trans hnow)
      have hadd := hold t ht
      rw [max_eq_right (by linarith)]
      linarith
    · have hgain := hr.nonneg (max 0 (u now - u t)) (le_max_left _ _)
      have hadd := hnew t ht
      linarith

/-- A taking at `s`, which is booked at `now`. -/
theorem Holds.take (hunit : 0 ≤ unit) (hs : last ≤ s) (hnow : s ≤ now)
    (hlevel : level' ≤ level + gain (u now - u last) - unit) (hcap : level' ≤ cap - unit) :
    Holds u gain cap unit level' now (fun t => taken t + if t ≤ s then 1 else 0) given := by
  refine h.use hr (hs.trans hnow) (by linarith) ?_ ?_ ?_ ?_
  · intro t ht
    rw [h.taken_past t (by linarith), if_neg (by linarith), add_zero]
  · exact fun t ht => h.given_past t (by linarith)
  · intro t ht
    rw [if_pos (ht.trans hs)]
    linarith
  · intro t ht
    rw [h.taken_past t ht, h.given_past t ht]
    split <;> linarith

/-- A giving at `now`. -/
theorem Holds.give (hunit : 0 ≤ unit) (hnow : last ≤ now)
    (hlevel : level' ≤ level + gain (u now - u last) + unit) (hcap : level' ≤ cap) :
    Holds u gain cap unit level' now taken fun t => given t + if t ≤ now then 1 else 0 := by
  refine h.use hr hnow hcap ?_ ?_ ?_ ?_
  · exact fun t ht => h.taken_past t (by linarith)
  · intro t ht
    rw [h.given_past t (by linarith), if_neg (by linarith), add_zero]
  · intro t ht
    rw [if_pos (ht.trans hnow)]
    linarith
  · intro t ht
    rw [h.taken_past t ht, h.given_past t ht]
    split <;> linarith

/-- Any other use, which adds nothing. -/
theorem Holds.drop
    (hnow : last ≤ now) (hlevel : level' ≤ level + gain (u now - u last)) (hcap : level' ≤ cap) :
    Holds u gain cap unit level' now taken given := by
  refine h.use hr hnow hcap ?_ ?_ ?_ ?_
  · exact fun t ht => h.taken_past t (by linarith)
  · exact fun t ht => h.given_past t (by linarith)
  · intro t _
    linarith
  · intro t ht
    rw [h.taken_past t ht, h.given_past t ht]
    linarith

/-- When the bucket may be taken from at `s`, the takings since `t` are bounded. -/
theorem Holds.admitted
    (hcap : 0 < cap) (hs : last ≤ s) (hlevel : 0 < level + gain (u s - u last)) {t : ℤ}
    (ht : t ≤ s) :
    unit * taken t + 1 ≤ cap + unit * given t + gain (u s - u t) := by
  rcases le_or_gt t last with hlast | hlast
  · have hlaw := h.law t
    have hgain := hr.gain_add hlast hs
    linarith
  · have hmono := hr.mono ht
    have hgain := hr.nonneg (u s - u t) (by linarith)
    rw [h.taken_past t hlast, h.given_past t hlast]
    linarith

end

end Foundation.Bucket
