import ZroServices.Foundation.Period

/-!
# Common — moments

Instants are milliseconds since 1 January 1970 UTC.  `getMoment` puts every moment at the fixed
offset UTC−3, so days, months and years (`startOf`) are those of that offset, and the hour of a
nighttime limit is an hour of it.

`getMoment` of a time of day (`'22:30'`, `'HH:mm'`) takes the *date* from the clock of the server
and then moves the result to UTC−3 keeping its local time: the date of the interval is the
server's date, which for three hours a day is not the date at UTC−3 when the server runs on UTC.
-/

namespace ZroServices

open Foundation

/-- Milliseconds of a day. -/
def msPerDay : ℤ := 86400000

theorem msPerDay_pos : 0 < msPerDay := by decide

/-- Midnight at UTC−3, in milliseconds after midnight UTC. -/
def midnight : ℤ := 10800000

/-- The units `startOf` is called with. -/
inductive MomentUnit where
  | day
  | month
  | year
  deriving DecidableEq, Repr

namespace MomentUnit

/-- The division of the days. -/
def calendar : MomentUnit → Period
  | day => Period.unit
  | month => Period.months
  | year => Period.years

/-- The division of the instants, at UTC−3. -/
def period (u : MomentUnit) : Period := u.calendar.scale msPerDay midnight msPerDay_pos

instance decidableForall (p : MomentUnit → Prop) [∀ u, Decidable (p u)] :
    Decidable (∀ u, p u) :=
  decidable_of_iff (p day ∧ p month ∧ p year)
    ⟨fun ⟨hd, hm, hy⟩ u => by cases u <;> assumption, fun h => ⟨h day, h month, h year⟩⟩

end MomentUnit

/-- `getMoment(t).startOf(unit)`. -/
def startOf (u : MomentUnit) (t : ℤ) : ℤ := u.period.startOf t

/-- The day at UTC−3, numbered from 1 January 1970. -/
def localDay (t : ℤ) : ℤ := (t - midnight) / msPerDay

/-- `getMoment(t).subtract(n, 'month')`: the same day of the month and the same time of day, or
the last day of a shorter month. -/
def subtractMonths (n t : ℤ) : ℤ :=
  let m := Period.monthIndex (localDay t)
  let dayOfMonth := localDay t - Period.monthStart m
  let lastDay := Period.monthStart (m - n + 1) - Period.monthStart (m - n) - 1
  (Period.monthStart (m - n) + min dayOfMonth lastDay) * msPerDay + midnight
    + (t - midnight) % msPerDay

/-- `getMoment(t).subtract(1, unit)`. -/
def subtractOne (u : MomentUnit) (t : ℤ) : ℤ :=
  match u with
  | .day => t - msPerDay
  | .month => subtractMonths 1 t
  | .year => subtractMonths 12 t

/-- `getMoment(t).format('YYYY-MM-DD')` as the database reads it back: midnight UTC of the day at
UTC−3. -/
def dateOnly (t : ℤ) : ℤ := localDay t * msPerDay

-- 31 March 2024 12:00 at UTC−3 is a month after 29 February 2024 12:00.
example : subtractOne .month (19813 * msPerDay + midnight + 43200000)
    = 19782 * msPerDay + midnight + 43200000 := by decide

/-! ### Times of day -/

def digit (c : Char) : Option ℕ := if c.isDigit then some (c.toNat - 48) else none

/-- The minute of the day that `HH:mm` names; none when `validateHourTimeFormat` refuses it. -/
def hourTime (s : String) : Option ℕ :=
  match s.toList with
  | [h, ':', a, b] => do
      let h ← digit h
      let a ← digit a
      let b ← digit b
      if a < 6 then some (h * 60 + a * 10 + b) else none
  | [g, h, ':', a, b] => do
      let g ← digit g
      let h ← digit h
      let a ← digit a
      let b ← digit b
      if g * 10 + h < 24 ∧ a < 6 then some ((g * 10 + h) * 60 + a * 10 + b) else none
  | _ => none

theorem digit_lt {c : Char} {n : ℕ} (h : digit c = some n) : n < 10 := by
  rw [digit] at h
  split at h
  · rename_i hc
    obtain rfl := Option.some.inj h
    have : c.toNat ≤ 57 := by
      simp only [Char.isDigit, Bool.and_eq_true, decide_eq_true_eq] at hc
      exact hc.2
    omega
  · cases h

/-- A time of day is a minute of one day. -/
theorem hourTime_lt {s : String} {n : ℕ} (h : hourTime s = some n) : n < 1440 := by
  rw [hourTime] at h
  split at h
  · rename_i c a b _
    obtain ⟨h', hh, h⟩ := Option.bind_eq_some_iff.mp h
    obtain ⟨a', ha, h⟩ := Option.bind_eq_some_iff.mp h
    obtain ⟨b', hb, h⟩ := Option.bind_eq_some_iff.mp h
    have := digit_lt hh
    have := digit_lt hb
    split at h
    · obtain rfl := Option.some.inj h; omega
    · cases h
  · rename_i c d a b _
    obtain ⟨g', hg, h⟩ := Option.bind_eq_some_iff.mp h
    obtain ⟨h', hh, h⟩ := Option.bind_eq_some_iff.mp h
    obtain ⟨a', ha, h⟩ := Option.bind_eq_some_iff.mp h
    obtain ⟨b', hb, h⟩ := Option.bind_eq_some_iff.mp h
    have := digit_lt hb
    split at h
    · obtain rfl := Option.some.inj h; omega
    · cases h
  · cases h

/-- `getMoment('HH:mm', 'HH:mm')` at minute `m` of the day, on a server whose clock is `offset`
milliseconds ahead of UTC. -/
def momentOfDay (offset now : ℤ) (m : ℕ) : ℤ :=
  (now + offset) / msPerDay * msPerDay + m * 60000 + midnight

end ZroServices
