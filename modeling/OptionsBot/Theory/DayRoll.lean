import OptionsBot.Theory.Anchors

/-!
# The Roll of the Anchors While the Engine Runs

A running engine keeps the two anchors of the loss caps in memory and moves them at
the first tick of a new date in India. What they are for is said by a second state
beside it: the account value at the first tick of the current day, and at the
first tick of the current week.

The roll finds the new date on India's clock and asks the clock in London for the
day of the week. The two clocks show different dates for the first five and a half
hours of India's day. So a first tick in those hours is taken for one of the day
before: a Monday's does not move the weekly anchor, and a Tuesday's does.

## Main definitions

* `Openings`: What the anchors are for.
* `DayRoll`: The engine's anchors, and what they are for.
* `DailyTick`: The clock does not go back, and no date in India is left out.
* `RollsOnTime`: The tick finds the right day of the week, or nothing to move.

## Theorems

* `utcDate_eq`: The UTC date at an instant, from the date in India.
* `step_openings_iff`: Exactly which tick loses an anchor.
* `run_openings`: Ticks that roll on time keep both anchors.
-/

namespace OptionsBot

/-- The hours of India's day that London counts to the day before are over. -/
def SameUtcDate (t : DateTime) : Prop := hourMinute 5 30 ≤ (utcToIst t).timeOfDay

instance (t : DateTime) : Decidable (SameUtcDate t) :=
  inferInstanceAs (Decidable (hourMinute 5 30 ≤ (utcToIst t).timeOfDay))

theorem utcDate_eq (t : DateTime) :
    t.date = if SameUtcDate t then istDate t else istDate t - 1 := by
  have hoffset : istOffset = hourMinute 5 30 := rfl
  have hnonneg := t.timeOfDay_nonneg
  by_cases hearly : t.timeOfDay < hourMinute 18 30
  · rcases (istClock t).1 hearly with ⟨hdate, htime⟩
    rw [if_pos (by unfold SameUtcDate; omega), istDate, hdate]
  · rcases (istClock t).2 (not_lt.mp hearly) with ⟨hdate, htime⟩
    rw [if_neg (by unfold SameUtcDate; omega), istDate, hdate]
    omega

/-- A date is of another week than the day before just when it is a Monday. -/
theorem weekStart_next (date : Int) :
    weekStart date = weekStart (date + 1) ↔ weekday (date + 1) ≠ 0 := by
  simp only [weekStart, weekday]
  omega

/-- A tick of the main loop, and the account value it finds. -/
structure Tick where
  now : DateTime
  nav : ℚ

/-- The account value at the first tick of the current day in India, and of the
    current week. -/
structure Openings where
  day : ℚ
  week : ℚ

/-- A tick opens the day and the week it is the first tick of. -/
def Openings.tick (o : Openings) (last : DateTime) (t : Tick) : Openings :=
  { day := if istDate last = istDate t.now then o.day else t.nav
    week := if weekStart (istDate last) = weekStart (istDate t.now) then o.week else t.nav }

/-- The engine's account value with its anchors and the date of the last roll, and
    beside it the time of the last tick and what the anchors are for. -/
structure DayRoll where
  nav : NavTracker
  lastIstTradingDate : Int
  now : DateTime
  openings : Openings

namespace DayRoll

/-- The first tick after a start. The anchors the start has loaded stand for its own
    day and week. -/
def start (nav : NavTracker) (now : DateTime) : DayRoll :=
  let rolled := maybeRollIstTradingDay nav now none
  { nav := rolled.1, lastIstTradingDate := rolled.2, now := now
    openings := { day := nav.navOpenToday, week := nav.navOpenWeek } }

def step (s : DayRoll) (t : Tick) : DayRoll :=
  let rolled := maybeRollIstTradingDay { s.nav with navNow := t.nav } t.now
    (some s.lastIstTradingDate)
  { nav := rolled.1, lastIstTradingDate := rolled.2, now := t.now
    openings := s.openings.tick s.now t }

/-- The anchors are what they are for. -/
structure AnchorsHeld (s : DayRoll) : Prop where
  day : s.nav.navOpenToday = s.openings.day
  week : s.nav.navOpenWeek = s.openings.week

end DayRoll

/-- The clock does not go back, and every date in India has a tick. -/
def DailyTick (s : DayRoll) (t : Tick) : Prop :=
  s.now ≤ t.now ∧ istDate t.now ≤ istDate s.now + 1

/-- The first tick of an Indian Monday or Tuesday comes at 05:30 or later, or finds
    the account value of the weekly anchor. -/
def RollsOnTime (s : DayRoll) (t : Tick) : Prop :=
  istDate s.now < istDate t.now → weekday (istDate t.now) = 0 ∨ weekday (istDate t.now) = 1 →
    SameUtcDate t.now ∨ t.nav = s.nav.navOpenWeek

/-- A tick on the same date moves no anchor. -/
theorem step_same_day (s : DayRoll) (t : Tick) (hlast : s.lastIstTradingDate = istDate s.now)
    (hsame : istDate s.now = istDate t.now) :
    (s.step t).nav = { s.nav with navNow := t.nav } ∧ (s.step t).openings = s.openings := by
  have hnot : ¬ s.lastIstTradingDate < (utcToIst t.now).date := by
    rw [hlast, hsame]
    exact lt_irrefl _
  simp only [DayRoll.step, maybeRollIstTradingDay, if_neg hnot, Openings.tick, hsame, if_true,
    and_self]

/-- A tick on the next date moves the daily anchor, and the weekly one on a Monday in
    London. -/
theorem step_next_day (s : DayRoll) (t : Tick) (hlast : s.lastIstTradingDate = istDate s.now)
    (hnext : istDate t.now = istDate s.now + 1) :
    (s.step t).nav.navOpenToday = t.nav ∧ (s.step t).openings.day = t.nav ∧
      (s.step t).nav.navOpenWeek =
        (if weekday t.now.date = 0 then t.nav else s.nav.navOpenWeek) ∧
      (s.step t).openings.week =
        (if weekday (istDate t.now) = 0 then t.nav else s.openings.week) := by
  have hlt : s.lastIstTradingDate < (utcToIst t.now).date := by
    rw [hlast]
    exact (by omega : istDate s.now < istDate t.now)
  have hne : istDate s.now ≠ istDate t.now := by omega
  have hweek := weekStart_next (istDate s.now)
  rw [← hnext] at hweek
  simp only [DayRoll.step, maybeRollIstTradingDay, if_pos hlt, NavTracker.rollDay, Openings.tick,
    if_neg hne, true_and]
  by_cases hmonday : weekday (istDate t.now) = 0
  · rw [if_pos hmonday, if_neg (fun heq => hweek.mp heq hmonday)]
  · rw [if_neg hmonday, if_pos (hweek.mpr hmonday)]

/-- Exactly the ticks that roll on time keep both anchors. -/
theorem step_openings_iff (s : DayRoll) (t : Tick) (hlast : s.lastIstTradingDate = istDate s.now)
    (hdaily : DailyTick s t) (h : s.AnchorsHeld) :
    (s.step t).AnchorsHeld ↔ RollsOnTime s t := by
  have hmono := istDate_mono s.now t.now hdaily.1
  rcases eq_or_lt_of_le hmono with hsame | hlt
  · rcases step_same_day s t hlast hsame with ⟨hnav, hopenings⟩
    refine iff_of_true ?_ (fun hnew => absurd hsame hnew.ne)
    constructor
    · rw [hnav, hopenings]
      exact h.day
    · rw [hnav, hopenings]
      exact h.week
  · have hnext : istDate t.now = istDate s.now + 1 := by
      have := hdaily.2
      omega
    rcases step_next_day s t hlast hnext with ⟨hday, hday', hweek, hweek'⟩
    have hheld : (s.step t).AnchorsHeld ↔
        (s.step t).nav.navOpenWeek = (s.step t).openings.week :=
      ⟨fun hh => hh.week, fun hw => ⟨hday.trans hday'.symm, hw⟩⟩
    -- The daily anchor always moves, so only the weekly one is left to compare.
    rw [hheld, hweek, hweek', ← h.week, utcDate_eq, RollsOnTime]
    simp only [hlt, true_implies]
    by_cases hutc : SameUtcDate t.now
    · -- The two clocks show the same date, and both anchors move alike.
      rw [if_pos hutc]
      exact iff_of_true rfl (fun _ => Or.inl hutc)
    · -- Before 05:30 London is a day behind: its Monday is the Tuesday in India.
      rw [if_neg hutc]
      simp only [hutc, false_or]
      rcases Decidable.em (weekday (istDate t.now) = 0) with hmonday | hmonday
      · have hsunday : weekday (istDate t.now - 1) ≠ 0 := by
          simp only [weekday] at hmonday ⊢
          omega
        rw [if_pos hmonday, if_neg hsunday]
        exact ⟨fun heq _ => heq.symm, fun heq => (heq (Or.inl hmonday)).symm⟩
      · rw [if_neg hmonday]
        by_cases htuesday : weekday (istDate t.now) = 1
        · have hmonday' : weekday (istDate t.now - 1) = 0 := by
            simp only [weekday] at htuesday ⊢
            omega
          rw [if_pos hmonday']
          exact ⟨fun heq _ => heq, fun heq => heq (Or.inr htuesday)⟩
        · have hlater : weekday (istDate t.now - 1) ≠ 0 := by
            simp only [weekday] at hmonday htuesday ⊢
            omega
          rw [if_neg hlater]
          exact iff_of_true rfl (fun hor => absurd hor (by tauto))

/-- Ticks that roll on time keep both anchors what they are for, from any start on. -/
theorem run_openings (nav : NavTracker) (now : DateTime) (s : DayRoll)
    (hrun : Run DayRoll.step (fun a t => DailyTick a t ∧ RollsOnTime a t) (DayRoll.start nav now)
      s) :
    s.AnchorsHeld := by
  have hboth : s.lastIstTradingDate = istDate s.now ∧ s.AnchorsHeld := by
    refine hrun.invariant (fun a => a.lastIstTradingDate = istDate a.now ∧ a.AnchorsHeld)
      (fun a t hg ha => ?_) ⟨rfl, rfl, rfl⟩
    exact ⟨rfl, (step_openings_iff a t ha.1 hg.1 ha.2).mpr hg.2⟩
  exact hboth.2

/-- Sunday noon, on a fresh account of 67000. -/
def sundayStart : DayRoll :=
  DayRoll.start { navNow := 67000, navOpenToday := 67000, navOpenWeek := 67000, peakNav := 67000 }
    (combine (ymdToOrdinal 2026 5 10) (hourMinute 6 30))

/-- A Monday whose first tick comes at six in the morning. -/
theorem run_openings_monday :
    (sundayStart.step
      { now := combine (ymdToOrdinal 2026 5 11) (hourMinute 0 30), nav := 60000 }).AnchorsHeld := by
  refine run_openings _ _ _ (Run.single sundayStart _ ⟨⟨?_, ?_⟩, fun _ _ => Or.inl ?_⟩)
  · decide
  · decide
  · decide

/-- At five past midnight the weekly anchor stays where it was. -/
theorem early_monday_not_rebased : ¬ ∀ (nav : NavTracker) (now : DateTime) (s : DayRoll),
    Run DayRoll.step DailyTick (DayRoll.start nav now) s → s.AnchorsHeld := by
  intro hall
  have hheld := hall _ _ _ (Run.single sundayStart
    { now := combine (ymdToOrdinal 2026 5 10) (hourMinute 18 35), nav := 60000 } (by
      constructor <;> decide))
  exact absurd hheld.week (by decide)

end OptionsBot
