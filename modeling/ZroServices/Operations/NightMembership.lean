import ZroServices.Common.TimeOfDay
import ZroServices.Operations.NightlyLimit

/-!
# Operations — which instants are at night

The night of a limit is meant to be the one of the tested instant: the entity speaks of the interval
"by the base moment".  `isInNighttimeInterval` takes the interval from the date of the server, so an
instant of an earlier night, such as the creation of an operation of last week, is never at night.
-/

namespace ZroServices

open Foundation

section
variable {N : Type} {l : LimitValues N} {start stop : ℕ}

/-- What the test knows of a night: its instants, when it began today or yesterday. -/
theorem isInNighttimeInterval_iff_current (offset now base : ℤ)
    (hl : l.nighttime = some (start, stop)) :
    l.isInNighttimeInterval offset now base ↔
      InTimes start stop base ∧ CurrentInterval offset now start base := by
  obtain ⟨hstart, hstop⟩ := LimitValues.nighttime_lt hl
  rw [← in_interval_iff hstart hstop, LimitValues.isInNighttimeInterval, hl, intervalStart,
    intervalStop]
  by_cases h : base < momentOfDay offset now start
  · simp only [if_pos h]
  · simp only [if_neg h, sub_zero]

/-- **Night membership.**  The test is cyclic membership of the time of day just for the instants
by day and those of a night that began on the server's date or the day before. -/
theorem night_membership_iff (offset now base : ℤ) (hl : l.nighttime = some (start, stop)) :
    (l.isInNighttimeInterval offset now base ↔ InTimes start stop base) ↔
      (InTimes start stop base → CurrentInterval offset now start base) := by
  rw [isInNighttimeInterval_iff_current offset now base hl]
  exact and_iff_left_iff_imp

end

/-- Three nights ago at ten in the evening is not taken for night, and three nights ago began before
yesterday. -/
theorem night_membership_three_nights_ago :
    ((Sample.userLimit 0).isInNighttimeInterval 0 Sample.evening
        (Sample.evening - 3 * msPerDay) ↔
      InTimes 1200 360 (Sample.evening - 3 * msPerDay)) ↔
    (InTimes 1200 360 (Sample.evening - 3 * msPerDay) →
      CurrentInterval 0 Sample.evening 1200 (Sample.evening - 3 * msPerDay)) :=
  night_membership_iff (l := (Sample.userLimit 0).toLimitValues) 0 Sample.evening
    (Sample.evening - 3 * msPerDay) rfl

/-- Ten in the evening three days ago is in the night from eight to six, and the test says it is
not. -/
theorem night_forgotten :
    ¬ ∀ (l : LimitValues ℕ) (start stop : ℕ) (offset now base : ℤ),
      l.nighttime = some (start, stop) →
        (l.isInNighttimeInterval offset now base ↔ InTimes start stop base) := by
  intro h
  have night : InTimes 1200 360 (Sample.evening - 3 * msPerDay) := by decide
  have test := (h (Sample.userLimit 0).toLimitValues 1200 360 0 Sample.evening
    (Sample.evening - 3 * msPerDay) rfl).mpr night
  exact absurd test (by decide)

end ZroServices
