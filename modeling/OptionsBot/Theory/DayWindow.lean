import OptionsBot.Core.Daily
import OptionsBot.Theory.DayRoll

/-!
# The Day a Closed Trade Counts In

The nightly job passes a date in India, and the roll of the daily anchor finds a
date in India for every instant. The report takes the trades with an exit between
two midnights of its date, but compares these with exits on the UTC clock.

The two agree for an exit at or after half past five in the morning in India.
Before that London still has the day before, and the trade is counted in its
report. Every closed trade is counted in one day all the same, some in the wrong
one.

## Main definitions

* `DaysRight`: The reports of some consecutive dates count the trades of each.

## Theorems

* `mem_dayTrades_iff`: Which report counts a trade, by its date in India.
* `daysRight_of_covers`: That each report covers its trades is enough.
* `dayTrades_covers`: Where a report does.
* `daysRight_iff`: When the reports are right.
* `early_exit_miscounted`: A trade that is counted a day too early.
-/

namespace OptionsBot

/-- The reports of the dates from one to another cover exactly the trades that were closed on
    each, by the date in India. So every trade closed on one of them is counted in one report,
    and that is the one of the day the daily anchor is rolled to at its exit. -/
structure DaysRight (trades : List DailyTrade) (first last : Int) : Prop where
  covers : ∀ tradingDate, first ≤ tradingDate → tradingDate ≤ last → ∀ t ∈ trades,
    t ∈ dayTrades trades tradingDate ↔
      t.status = .closed ∧ ∃ exitTs, t.exitTs = some exitTs ∧ istDate exitTs = tradingDate
  once : ∀ t ∈ trades, t.status = .closed → ∀ exitTs, t.exitTs = some exitTs →
    first ≤ istDate exitTs → istDate exitTs ≤ last →
    ∃! tradingDate, (first ≤ tradingDate ∧ tradingDate ≤ last) ∧ t ∈ dayTrades trades tradingDate
  anchored : ∀ tradingDate, first ≤ tradingDate → tradingDate ≤ last →
    ∀ t ∈ dayTrades trades tradingDate, ∀ exitTs, t.exitTs = some exitTs →
    ∀ nav lastIstDate, (maybeRollIstTradingDay nav exitTs lastIstDate).2 = tradingDate

/-- A closed trade is counted on the date of its exit in India, or on the day before that. -/
theorem mem_dayTrades_iff (trades : List DailyTrade) (tradingDate : Int) (t : DailyTrade)
    (ht : t ∈ trades) (hclosed : t.status = .closed) (exitTs : DateTime)
    (hexit : t.exitTs = some exitTs) :
    t ∈ dayTrades trades tradingDate ↔
      (if SameUtcDate exitTs then istDate exitTs else istDate exitTs - 1) = tradingDate := by
  rw [mem_dayTrades, ← utcDate_eq]
  constructor
  · rintro ⟨_, _, other, hother, hdate⟩
    rw [hexit, Option.some.injEq] at hother
    rw [hother]
    exact hdate
  · exact fun hdate => ⟨ht, hclosed, exitTs, hexit, hdate⟩

section Window

variable (trades : List DailyTrade) (first last : Int)

/-- Reports that cover the trades of their dates count each once, on the date of the anchor. -/
theorem daysRight_of_covers
    (hcovers : ∀ tradingDate, first ≤ tradingDate → tradingDate ≤ last → ∀ t ∈ trades,
      t ∈ dayTrades trades tradingDate ↔
        t.status = .closed ∧ ∃ exitTs, t.exitTs = some exitTs ∧ istDate exitTs = tradingDate) :
    DaysRight trades first last := by
  have hdate : ∀ tradingDate, first ≤ tradingDate → tradingDate ≤ last →
      ∀ t ∈ dayTrades trades tradingDate, ∀ exitTs, t.exitTs = some exitTs →
        istDate exitTs = tradingDate := by
    intro tradingDate hfirst hlast t hmem exitTs hexit
    have ht := ((mem_dayTrades trades tradingDate t).mp hmem).1
    rcases ((hcovers tradingDate hfirst hlast t ht).mp hmem).2 with ⟨other, hother, hdate⟩
    rw [hexit, Option.some.injEq] at hother
    rw [hother]
    exact hdate
  refine ⟨hcovers, ?_, ?_⟩
  · intro t ht hclosed exitTs hexit hfirst hlast
    refine ⟨istDate exitTs, ⟨⟨hfirst, hlast⟩, ?_⟩, ?_⟩
    · exact (hcovers _ hfirst hlast t ht).mpr ⟨hclosed, exitTs, hexit, rfl⟩
    · rintro tradingDate ⟨⟨hfirst', hlast'⟩, hmem⟩
      exact (hdate tradingDate hfirst' hlast' t hmem exitTs hexit).symm
  · intro tradingDate hfirst hlast t hmem exitTs hexit nav lastIstDate
    -- The anchor is rolled to the date of the exit in India.
    exact hdate tradingDate hfirst hlast t hmem exitTs hexit

/-- Where the two clocks have the same date for an exit, or neither has the date of the report, the
    report is right about it. -/
theorem dayTrades_covers (tradingDate : Int) (t : DailyTrade) (ht : t ∈ trades)
    (hearly : t.status = .closed → ∀ exitTs, t.exitTs = some exitTs → ¬ SameUtcDate exitTs →
      istDate exitTs ≠ tradingDate ∧ istDate exitTs - 1 ≠ tradingDate) :
    t ∈ dayTrades trades tradingDate ↔
      t.status = .closed ∧ ∃ exitTs, t.exitTs = some exitTs ∧ istDate exitTs = tradingDate := by
  have hagree : ∀ exitTs, t.status = .closed → t.exitTs = some exitTs →
      (t ∈ dayTrades trades tradingDate ↔ istDate exitTs = tradingDate) := by
    intro exitTs hclosed hexit
    rw [mem_dayTrades_iff trades tradingDate t ht hclosed exitTs hexit]
    by_cases hsame : SameUtcDate exitTs
    · rw [if_pos hsame]
    · rcases hearly hclosed exitTs hexit hsame with ⟨hnot, hnot'⟩
      rw [if_neg hsame]
      exact iff_of_false hnot' hnot
  constructor
  · intro hmem
    rcases (mem_dayTrades trades tradingDate t).mp hmem with ⟨_, hclosed, exitTs, hexit, _⟩
    exact ⟨hclosed, exitTs, hexit, (hagree exitTs hclosed hexit).mp hmem⟩
  · rintro ⟨hclosed, exitTs, hexit, hdate⟩
    exact (hagree exitTs hclosed hexit).mpr hdate

/-- The reports of some consecutive dates are right exactly if no trade that was closed before half
    past five in India belongs to one of them by either clock. -/
theorem daysRight_iff (trades : List DailyTrade) (first last : Int) :
    DaysRight trades first last ↔
      ∀ t ∈ trades, t.status = .closed → ∀ exitTs, t.exitTs = some exitTs →
        ¬ SameUtcDate exitTs → ∀ tradingDate, first ≤ tradingDate → tradingDate ≤ last →
          istDate exitTs ≠ tradingDate ∧ istDate exitTs - 1 ≠ tradingDate := by
  constructor
  · intro hright t ht hclosed exitTs hexit hearly tradingDate hfirst hlast
    have hcovers := hright.covers tradingDate hfirst hlast t ht
    rw [mem_dayTrades_iff trades tradingDate t ht hclosed exitTs hexit, if_neg hearly] at hcovers
    constructor
    · -- On its own date it is missing.
      intro hdate
      have hcounted := hcovers.mpr ⟨hclosed, exitTs, hexit, hdate⟩
      omega
    · -- On the day before it is counted.
      intro hdate
      rcases (hcovers.mp hdate).2 with ⟨other, hother, hother'⟩
      rw [hexit, Option.some.injEq] at hother
      rw [← hother] at hother'
      omega
  · intro hearly
    refine daysRight_of_covers trades first last (fun tradingDate hfirst hlast t ht => ?_)
    refine dayTrades_covers trades tradingDate t ht (fun hclosed exitTs hexit hsame => ?_)
    exact hearly t ht hclosed exitTs hexit hsame tradingDate hfirst hlast

end Window

/-- A trade closed at two in the morning of the fourteenth in India. -/
def earlyExit : DailyTrade :=
  { strategyId := "directional", status := .closed
    exitTs := some (combine (ymdToOrdinal 2026 5 13) (hourMinute 20 30))
    realisedPnlInr := some (-400) }

/-- The report of the thirteenth counts it. -/
theorem early_exit_miscounted :
    ¬ ∀ (trades : List DailyTrade) (first last : Int), DaysRight trades first last := by
  intro hall
  have hright := hall [earlyExit] (ymdToOrdinal 2026 5 13) (ymdToOrdinal 2026 5 14)
  have hcounted : earlyExit ∈ dayTrades [earlyExit] (ymdToOrdinal 2026 5 13) :=
    (mem_dayTrades _ _ _).mpr
      ⟨List.mem_singleton.mpr rfl, rfl, _, rfl, by decide⟩
  have hrolled := hright.anchored _ (le_refl _) (by decide) earlyExit hcounted _ rfl
    { navNow := 0, navOpenToday := 0, navOpenWeek := 0, peakNav := 0 } none
  exact absurd hrolled (by decide)

end OptionsBot
