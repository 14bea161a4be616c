import ZroServices.Common.Moment
import ZroServices.Foundation.Cyclic

/-!
# Common — intervals of the time of day

A night or the hours of a market go from one time of day up to another (`InTimes`), on the circle
of `Foundation.Cyclic`.  The entities test a moment against the two intervals that `getMoment` of
the times names: the one that begins on the server's date, and for an earlier moment the one of the
day before (`intervalStart`, `intervalStop`).  So the tests know the moments of these two alone
(`CurrentInterval`).
-/

namespace ZroServices

open Foundation

/-- The date of a server whose clock is `offset` ahead of UTC, as a number of days. -/
def serverDate (offset now : ℤ) : ℤ := (now + offset) / msPerDay

/-- The time of day at UTC−3, in milliseconds. -/
def timeOfDay (t : ℤ) : ℤ := (t - midnight) % msPerDay

/-- The time of day is in the interval from minute `start` up to minute `stop`. -/
def InTimes (start stop : ℕ) (t : ℤ) : Prop :=
  Between (start * 60000) (stop * 60000) (timeOfDay t)

instance (start stop : ℕ) (t : ℤ) : Decidable (InTimes start stop t) := by
  unfold InTimes
  infer_instance

/-- The day at UTC−3 on which minute `start` was last reached. -/
def begunOn (start : ℕ) (t : ℤ) : ℤ := (t - midnight - start * 60000) / msPerDay

/-- The interval of `t` began on the server's date, or on the day before. -/
def CurrentInterval (offset now : ℤ) (start : ℕ) (t : ℤ) : Prop :=
  begunOn start t = serverDate offset now ∨ begunOn start t = serverDate offset now - 1

instance (offset now : ℤ) (start : ℕ) (t : ℤ) : Decidable (CurrentInterval offset now start t) :=
  inferInstanceAs (Decidable (_ ∨ _))

/-- The start of the interval that `t` is tested against. -/
def intervalStart (offset now : ℤ) (start : ℕ) (t : ℤ) : ℤ :=
  momentOfDay offset now start - if t < momentOfDay offset now start then msPerDay else 0

/-- The end of the interval that `t` is tested against. -/
def intervalStop (offset now : ℤ) (start stop : ℕ) (t : ℤ) : ℤ :=
  (if momentOfDay offset now stop < momentOfDay offset now start then
      momentOfDay offset now stop + msPerDay
    else momentOfDay offset now stop)
    - if t < momentOfDay offset now start then msPerDay else 0

variable {offset now t : ℤ} {start stop : ℕ}

theorem minute_of_day (h : start < 1440) :
    (0 : ℤ) ≤ start * 60000 ∧ (start : ℤ) * 60000 < msPerDay := by
  rw [msPerDay]
  omega

theorem momentOfDay_eq :
    momentOfDay offset now start
      = copyStart msPerDay (start * 60000) (serverDate offset now) + midnight := rfl

/-- The instants of the interval are those of a copy, on the clock of UTC−3. -/
theorem intervalStart_eq :
    intervalStart offset now start t
      = testedStart msPerDay (start * 60000) (serverDate offset now) (t - midnight)
        + midnight := by
  rw [intervalStart, testedStart, momentOfDay_eq]
  split_ifs <;> omega

theorem intervalStop_eq (hstart : start < 1440) (hstop : stop < 1440) :
    intervalStop offset now start stop t
      = intervalStart offset now start t
        + ((stop : ℤ) * 60000 - start * 60000) % msPerDay := by
  have length := copyStop_eq (serverDate offset now) (minute_of_day hstart)
    (minute_of_day hstop)
  have horder : momentOfDay offset now stop < momentOfDay offset now start ↔
      serverDate offset now * msPerDay + stop * 60000
        < serverDate offset now * msPerDay + start * 60000 := by
    rw [momentOfDay_eq, momentOfDay_eq, copyStart, copyStart]
    omega
  have hmoment : ∀ m, momentOfDay offset now m
      = serverDate offset now * msPerDay + m * 60000 + midnight := fun _ => rfl
  rw [copyStop, copyStart] at length
  rw [intervalStop, intervalStart]
  simp only [horder]
  rw [hmoment, hmoment]
  split_ifs at length ⊢ <;> omega

/-- **A moment from the start of its interval on and before its end.** -/
theorem in_interval_iff (hstart : start < 1440) (hstop : stop < 1440) :
    intervalStart offset now start t ≤ t ∧ t < intervalStop offset now start stop t ↔
      InTimes start stop t ∧ CurrentInterval offset now start t := by
  have test := inCopy_iff (serverDate offset now) (t - midnight)
    (minute_of_day hstart) (minute_of_day hstop)
  rw [intervalStop_eq hstart hstop, intervalStart_eq, InTimes, timeOfDay, CurrentInterval,
    begunOn, ← test]
  omega

/-- **A moment after the start of its interval and before its end.** -/
theorem inside_interval_iff (hstart : start < 1440) (hstop : stop < 1440) :
    intervalStart offset now start t < t ∧ t < intervalStop offset now start stop t ↔
      (InTimes start stop t ∧ timeOfDay t ≠ start * 60000) ∧
        CurrentInterval offset now start t := by
  have test := insideCopy_iff (serverDate offset now) (t - midnight)
    (minute_of_day hstart) (minute_of_day hstop)
  rw [intervalStop_eq hstart hstop, intervalStart_eq, InTimes, timeOfDay, CurrentInterval,
    begunOn, ← test]
  omega

end ZroServices
