import OptionsBot.Lib.Clock
import OptionsBot.Lib.Python

/-!
# The Range of a Clock

`DateTime` has no first and no last instant. Python's `datetime` has both, the first
one of the year 1 and the last one of the year 9999, and its arithmetic raises where
a result would be outside. What is outside is told by the date alone, so setting the
time of day never raises.

## Main definitions

* `minDateTime`, `maxDateTime`: The first and the last instant.
* `PyDateTime`: The instants from the one to the other.
* `PyDateTime.ofDateTime`: An instant, or the exception.
* `PyDateTime.add`: Adding a difference.
* `PyDateTime.replaceTime`: Setting the time of day.

## Theorems

* `inRange_iff`: The range, by the date.
* `PyDateTime.ofDateTime_ok_iff`, `PyDateTime.ofDateTime_error`: When an instant is in the range.
-/

namespace OptionsBot

/-- `datetime.min`. -/
def minDateTime : DateTime := combine (ymdToOrdinal 1 1 1) 0

/-- `datetime.max`. -/
def maxDateTime : DateTime := combine (ymdToOrdinal 9999 12 31) (microsPerDay - 1)

/-- An instant is in the range if its date is. -/
theorem inRange_iff (t : DateTime) : minDateTime ≤ t ∧ t ≤ maxDateTime ↔
    ymdToOrdinal 1 1 1 ≤ t.date ∧ t.date ≤ ymdToOrdinal 9999 12 31 := by
  simp only [minDateTime, maxDateTime, combine, DateTime.le_def, DateTime.date, microsPerDay]
  generalize ymdToOrdinal 1 1 1 = first
  generalize ymdToOrdinal 9999 12 31 = last
  omega

/-- An instant that a `datetime` without a zone can hold. -/
abbrev PyDateTime := {t : DateTime // minDateTime ≤ t ∧ t ≤ maxDateTime}

namespace PyDateTime

/-- An instant that is computed, or the exception if it is out of range. -/
def ofDateTime (t : DateTime) : Except PyError PyDateTime :=
  if h : minDateTime ≤ t ∧ t ≤ maxDateTime then .ok ⟨t, h⟩ else .error .overflowError

/-- `t + timedelta(microseconds=d)`. -/
def add (t : PyDateTime) (d : Int) : Except PyError PyDateTime := ofDateTime (t.val.shift d)

/-- `t.replace(hour=..., minute=..., second=0, microsecond=0)`, by the time of day. -/
def replaceTime (t : PyDateTime) (time : Int) (h0 : 0 ≤ time) (h1 : time < microsPerDay) :
    PyDateTime :=
  ⟨combine t.val.date time, by
    rw [inRange_iff, date_combine _ _ h0 h1, ← inRange_iff]
    exact t.property⟩

theorem ofDateTime_ok_iff (t : DateTime) (u : PyDateTime) : ofDateTime t = .ok u ↔ u.val = t := by
  unfold ofDateTime
  constructor
  · intro h
    split_ifs at h with hrange
    rw [Except.ok.injEq] at h
    rw [← h]
  · rintro rfl
    rw [dif_pos u.property]

theorem ofDateTime_error (t : DateTime)
    (h : ¬ (ymdToOrdinal 1 1 1 ≤ t.date ∧ t.date ≤ ymdToOrdinal 9999 12 31)) :
    ofDateTime t = .error .overflowError :=
  dif_neg (fun hrange => h ((inRange_iff t).mp hrange))

/-- An instant that is computed is in the range, or its date is not. -/
theorem ofDateTime_cases (t : DateTime) : (∃ u : PyDateTime, ofDateTime t = .ok u ∧ u.val = t) ∨
    ¬ (ymdToOrdinal 1 1 1 ≤ t.date ∧ t.date ≤ ymdToOrdinal 9999 12 31) := by
  rw [← inRange_iff]
  by_cases h : minDateTime ≤ t ∧ t ≤ maxDateTime
  · exact Or.inl ⟨⟨t, h⟩, dif_pos h, rfl⟩
  · exact Or.inr h

end PyDateTime

end OptionsBot
