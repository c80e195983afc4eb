import Mathlib.Data.Rat.Defs
import Mathlib.Tactic.Linarith
import Mathlib.Tactic.NormNum

/-!
# Naive Clocks and Calendar Dates

Instants without a time zone, as microseconds counted from the start of ordinal
day zero, and calendar dates as proleptic Gregorian ordinals. A date and a time
of day are plain integers, the latter in microseconds since midnight. Splitting
an instant into the two is a floor division, so every fact about "the same day"
or "the next day" is linear arithmetic.

A clock in another time zone is the same instant shifted by the zone's offset.
The date on that clock is a different floor division, which is where two clocks
can disagree about what day it is.

## Main definitions

* `DateTime`: An instant, in microseconds.
* `DateTime.date`: The calendar date of an instant.
* `DateTime.timeOfDay`: The microseconds since midnight.
* `DateTime.shift`: An instant moved by a number of microseconds.
* `DateTime.hoursSince`, `DateTime.secondsSince`: The signed difference of two
  instants in hours and in seconds.
* `combine`: The instant of a date and a time of day.
* `weekday`: The day of the week of a date, Monday being zero.
* `ymdToOrdinal`: The date of a year, month and day.
* `fromTimestamp`, `DateTime.timestamp`: Instants and seconds since 1970.

## Theorems

* `date_combine`: A combined instant falls on its date.
* `combine_shift_day`: A day later it falls on the next one.
* `timeOfDay_nonneg`: No time of day is before midnight.
* `timeOfDay_lt`: Every time of day is before the next midnight.
* `hoursSince_le_iff`: Comparing an hour difference with a bound.
-/

namespace OptionsBot

/-- Microseconds in an hour. -/
def microsPerHour : Int := 3600000000

/-- Microseconds in a day. -/
def microsPerDay : Int := 86400000000

/-- The time of day of an hour and a minute. -/
def hourMinute (hour minute : Int) : Int := hour * microsPerHour + minute * 60000000

/-- An instant without a time zone, in microseconds from the start of ordinal
    day zero. -/
structure DateTime where
  micros : Int
  deriving DecidableEq, Repr

/-- The instant of a date and a time of day. -/
def combine (d : Int) (t : Int) : DateTime := ⟨d * microsPerDay + t⟩

namespace DateTime

instance : LT DateTime := ⟨fun a b => a.micros < b.micros⟩

instance : LE DateTime := ⟨fun a b => a.micros ≤ b.micros⟩

instance (a b : DateTime) : Decidable (a < b) := inferInstanceAs (Decidable (a.micros < b.micros))

instance (a b : DateTime) : Decidable (a ≤ b) := inferInstanceAs (Decidable (a.micros ≤ b.micros))

theorem lt_def (a b : DateTime) : a < b ↔ a.micros < b.micros := Iff.rfl

theorem le_def (a b : DateTime) : a ≤ b ↔ a.micros ≤ b.micros := Iff.rfl

instance : LinearOrder DateTime where
  le_refl a := Int.le_refl a.micros
  le_trans _ _ _ hab hbc := Int.le_trans hab hbc
  lt_iff_le_not_ge a b := by
    rw [lt_def, le_def, le_def]
    exact Int.lt_iff_le_and_not_ge
  le_antisymm _ _ hab hba := congrArg DateTime.mk (Int.le_antisymm hab hba)
  le_total a b := Int.le_total a.micros b.micros
  toDecidableLE := inferInstance

/-- The calendar date of an instant. -/
def date (t : DateTime) : Int := t.micros / microsPerDay

/-- The microseconds since midnight. -/
def timeOfDay (t : DateTime) : Int := t.micros % microsPerDay

/-- An instant moved by a number of microseconds. -/
def shift (t : DateTime) (d : Int) : DateTime := ⟨t.micros + d⟩

/-- `(t - u).total_seconds() / 3600`. -/
def hoursSince (t u : DateTime) : ℚ := ((t.micros - u.micros : Int) : ℚ) / 3600000000

/-- `(t - u).total_seconds()`. -/
def secondsSince (t u : DateTime) : ℚ := ((t.micros - u.micros : Int) : ℚ) / 1000000

theorem timeOfDay_nonneg (t : DateTime) : 0 ≤ t.timeOfDay := by
  simp only [timeOfDay, microsPerDay]
  omega

theorem timeOfDay_lt (t : DateTime) : t.timeOfDay < microsPerDay := by
  simp only [timeOfDay, microsPerDay]
  omega

/-- An hour difference against a bound, cleared of the division. -/
theorem hoursSince_le_iff (t u : DateTime) (h : ℚ) :
    t.hoursSince u ≤ h ↔ ((t.micros - u.micros : Int) : ℚ) ≤ h * 3600000000 := by
  rw [hoursSince, div_le_iff₀ (by norm_num)]

end DateTime

theorem date_combine (d : Int) (t : Int) (h0 : 0 ≤ t) (h1 : t < microsPerDay) :
    (combine d t).date = d := by
  simp only [combine, DateTime.date, microsPerDay] at h1 ⊢
  omega

/-- A day later is the same time of the next date. -/
theorem combine_shift_day (date time : Int) :
    (combine date time).shift microsPerDay = combine (date + 1) time := by
  simp only [combine, DateTime.shift, DateTime.mk.injEq]
  rw [Int.add_mul]
  omega

/-- The day of the week of a date, Monday being zero. -/
def weekday (d : Int) : Int := (d + 6) % 7

/-- The Gregorian leap-year rule. -/
def isLeap (year : Nat) : Bool := year % 4 = 0 ∧ (year % 100 ≠ 0 ∨ year % 400 = 0)

/-- The days of a month, January being one. -/
def daysInMonth (year month : Nat) : Nat :=
  if month = 2 then (if isLeap year then 29 else 28)
  else if month = 4 ∨ month = 6 ∨ month = 9 ∨ month = 11 then 30
  else 31

/-- The days before the first of January. -/
def daysBeforeYear (year : Nat) : Int :=
  let y : Int := (year : Int) - 1
  y * 365 + y / 4 - y / 100 + y / 400

/-- The days of a year before the first of a month. -/
def daysBeforeMonth (year month : Nat) : Nat :=
  ((List.range (month - 1)).map (fun m => daysInMonth year (m + 1))).sum

/-- The date of a year, month and day. -/
def ymdToOrdinal (year month day : Nat) : Int :=
  daysBeforeYear year + daysBeforeMonth year month + day

/-- Midnight of 1 January 1970. -/
def unixEpoch : DateTime := combine (ymdToOrdinal 1970 1 1) 0

/-- `fromtimestamp(seconds, tz=UTC)`, without the zone. -/
def fromTimestamp (seconds : Int) : DateTime := unixEpoch.shift (seconds * 1000000)

/-- `t.timestamp()` of an instant without a zone. The host reads it as its own local
    time, which is `offset` seconds ahead of UTC. -/
def DateTime.timestamp (offset : Int) (t : DateTime) : ℚ :=
  t.secondsSince (unixEpoch.shift (offset * 1000000))

-- 12 May 2026, a Tuesday.
example : weekday (ymdToOrdinal 2026 5 12) = 1 := by decide

end OptionsBot
