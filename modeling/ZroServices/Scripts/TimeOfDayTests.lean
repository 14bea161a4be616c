import ZroServices.Operations.NightMembership
import ZroServices.Quotations.GetQuotation
import ZroServices.Scripts.UpdateUserLimitTracker

/-!
# Scripts — the three tests of the time of day

The market hours of a spread, the night of a limit and the night of the script are one test written
three times.  The two entities answer for the current interval (`CurrentInterval`), the spread
without its first instant.  The script has the guard of the entities the other way round: it
answers no whenever both times are valid, so the three are cyclic membership only by day.
-/

namespace ZroServices.Scripts

open Foundation
open Quotations (Spread)

section
variable {start stop : ℕ} {startTime stopTime : String}

theorem valid_minutes (hstart : hourTime startTime = some start)
    (hstop : hourTime stopTime = some stop) : start < 1440 ∧ stop < 1440 :=
  ⟨hourTime_lt hstart, hourTime_lt hstop⟩

/-- On a weekday a spread is off market inside its current interval. -/
theorem isInOffMarketInterval_iff (offset now base : ℤ) {spread : Spread}
    (hspread : spread.hasOffMarketInterval = some (start, stop))
    (hminutes : start < 1440 ∧ stop < 1440)
    (hweekday : (localDay base + 4) % 7 ∉ ([0, 6] : List ℤ)) :
    spread.isInOffMarketInterval offset now base = true ↔
      (InTimes start stop base ∧ timeOfDay base ≠ start * 60000) ∧
        CurrentInterval offset now start base := by
  rw [← inside_interval_iff hminutes.1 hminutes.2, Spread.isInOffMarketInterval,
    if_neg hweekday, hspread]
  exact decide_eq_true_iff

/-- Two valid times are answered by the guard. -/
theorem script_isInNighttimeInterval (setting : UpdateUserLimitTracker.Setting) (now : ℤ)
    (hstart : hourTime startTime = some start) (hstop : hourTime stopTime = some stop) :
    UpdateUserLimitTracker.isInNighttimeInterval setting now (some startTime) (some stopTime)
      = false := by
  have hvalid : UpdateUserLimitTracker.isValidTime (some startTime) = true ∧
      UpdateUserLimitTracker.isValidTime (some stopTime) = true := by
    simp [UpdateUserLimitTracker.isValidTime, hstart, hstop]
  rw [UpdateUserLimitTracker.isInNighttimeInterval, hvalid.1, hvalid.2]
  rfl

end

/-- The three tests of the current instant, with the same two times. -/
structure TestsOfTimes where
  setting : UpdateUserLimitTracker.Setting
  limit : LimitValues ℕ
  spread : Spread
  startTime : String
  stopTime : String

namespace TestsOfTimes

variable (tests : TestsOfTimes) (now : ℤ)

/-- `spread.isInOffMarketInterval(getMoment())`. -/
def offMarket : Bool :=
  { tests.spread with
    offMarketTimeStart := some tests.startTime
    offMarketTimeEnd := some tests.stopTime }.isInOffMarketInterval
      tests.setting.env.serverOffset now now

/-- `userLimit.isInNighttimeInterval(getMoment())`. -/
def night : Prop :=
  { tests.limit with
    nighttimeStart := some tests.startTime
    nighttimeEnd := some tests.stopTime }.isInNighttimeInterval
      tests.setting.env.serverOffset now now

/-- `isInNighttimeInterval(userLimit)` of the script. -/
def scriptNight : Bool :=
  UpdateUserLimitTracker.isInNighttimeInterval tests.setting now (some tests.startTime)
    (some tests.stopTime)

/-- Each of the three says whether the time of day is in the interval. -/
def AllSay (p : Prop) : Prop :=
  (tests.offMarket now = true ↔ p) ∧ (tests.night now ↔ p) ∧ (tests.scriptNight now = true ↔ p)

variable {tests now} {start stop : ℕ}

section

variable (hstart : hourTime tests.startTime = some start)
  (hstop : hourTime tests.stopTime = some stop)
include hstart hstop

theorem offMarket_iff (hweekday : (localDay now + 4) % 7 ∉ ([0, 6] : List ℤ)) :
    tests.offMarket now = true ↔
      (InTimes start stop now ∧ timeOfDay now ≠ start * 60000) ∧
        CurrentInterval tests.setting.env.serverOffset now start now := by
  refine isInOffMarketInterval_iff _ now now ?_ (valid_minutes hstart hstop) hweekday
  simp [Spread.hasOffMarketInterval, hstart, hstop]

theorem night_iff :
    tests.night now ↔
      InTimes start stop now ∧ CurrentInterval tests.setting.env.serverOffset now start now := by
  refine isInNighttimeInterval_iff_current _ now now ?_
  simp [LimitValues.nighttime, hstart, hstop]

end

/-- **The three tests.**  On a weekday all of them say whether the time of day is in the interval
just when it is not. -/
theorem allSay_iff (tests : TestsOfTimes) (now : ℤ)
    (hstart : hourTime tests.startTime = some start)
    (hstop : hourTime tests.stopTime = some stop)
    (hweekday : (localDay now + 4) % 7 ∉ ([0, 6] : List ℤ)) :
    tests.AllSay now (InTimes start stop now) ↔ ¬ InTimes start stop now := by
  have script : tests.scriptNight now = false :=
    script_isInNighttimeInterval tests.setting now hstart hstop
  rw [AllSay, script, offMarket_iff hstart hstop hweekday, night_iff hstart hstop]
  constructor
  · rintro ⟨-, -, h⟩ hin
    cases h.mpr hin
  · intro hout
    exact ⟨⟨fun h => h.1.1, fun h => absurd h hout⟩, ⟨fun h => h.1, fun h => absurd h hout⟩,
      ⟨fun h => absurd h Bool.false_ne_true, fun h => absurd h hout⟩⟩

end TestsOfTimes

namespace SampleTests

/-- From eight in the evening to six in the morning, on a server at UTC. -/
def eightToSix : TestsOfTimes where
  setting := ⟨ZroServices.Sample.env .DATE, fun _ _ => none⟩
  limit := (ZroServices.Sample.userLimit 0).toLimitValues
  spread := ⟨1, ⟨1, "USD", 2, true⟩, 100, 100, none, none, none, none⟩
  startTime := "20:00"
  stopTime := "06:00"

/-- A Monday at noon. -/
def mondayNoon : ℤ := ZroServices.Sample.noon + msPerDay

end SampleTests

open SampleTests

/-- At noon the three tests say no. -/
theorem allSay_noon :
    eightToSix.AllSay mondayNoon (InTimes 1200 360 mondayNoon) ↔ ¬ InTimes 1200 360 mondayNoon :=
  TestsOfTimes.allSay_iff eightToSix mondayNoon (by decide) (by decide) (by decide)

/-- On a Monday at ten in the evening the script says that it is not between eight and six. -/
theorem script_denies_night :
    ¬ ∀ (tests : TestsOfTimes) (now : ℤ) (start stop : ℕ),
      hourTime tests.startTime = some start → hourTime tests.stopTime = some stop →
        (localDay now + 4) % 7 ∉ ([0, 6] : List ℤ) → now % 60000 = 0 →
          tests.AllSay now (InTimes start stop now) := by
  intro h
  have answers := h eightToSix (ZroServices.Sample.evening + msPerDay) 1200 360 (by decide)
    (by decide) (by decide) (by decide)
  have night : InTimes 1200 360 (ZroServices.Sample.evening + msPerDay) := by decide
  exact absurd (answers.2.2.mpr night) (by decide)

end ZroServices.Scripts
