import OptionsBot.Core.Config
import OptionsBot.Lib.ClockRange

/-!
# Trading Window and Session Close

Times of day in India. Storage and models use naive UTC; the window, the day
roll and the session close are read off the IST clock, five and a half hours
ahead. A naive UTC instant and its IST wall clock are kept as the same kind of
value, the second shifted.

## Main definitions

* `utcToIst`: The IST wall clock of a naive UTC instant.
* `istToUtc`: The naive UTC instant of an IST wall clock.
* `sessionClose`: The time of day India's options session closes.
* `indiaOptionsSessionCloseUtc`: The next session close, as naive UTC.
* `PyDateTime.utcToIst`, `PyDateTime.indiaOptionsSessionCloseUtc`: The two within the range of
  `datetime`, where they can raise.
* `TradingWindow`: The hours in which entries are allowed.

## Theorems

* `istToUtc_utcToIst`: The two conversions undo each other.
* `istClock`: What the IST clock reads, by the UTC clock.
* `sessionClose_before`: Earlier than the close, the next close is today's.
* `sessionClose_iff_noon`, `sessionClose_noon`: The close is the next noon on the UTC clock.
-/

namespace OptionsBot

/-- The offset of India Standard Time from UTC. -/
def istOffset : Int := hourMinute 5 30

def utcToIst (now : DateTime) : DateTime := now.shift istOffset

def istToUtc (local' : DateTime) : DateTime := local'.shift (-istOffset)

theorem istToUtc_utcToIst (now : DateTime) : istToUtc (utcToIst now) = now := by
  simp only [istToUtc, utcToIst, DateTime.shift, Int.add_neg_cancel_right]

/-- Until half past six in the evening the date in India is that of UTC, and then it is the next. -/
theorem istClock (t : DateTime) :
    (t.timeOfDay < hourMinute 18 30 → (utcToIst t).date = t.date ∧
      (utcToIst t).timeOfDay = t.timeOfDay + istOffset) ∧
    (hourMinute 18 30 ≤ t.timeOfDay → (utcToIst t).date = t.date + 1 ∧
      (utcToIst t).timeOfDay < istOffset) := by
  simp only [utcToIst, DateTime.shift, DateTime.timeOfDay, DateTime.date, istOffset, hourMinute,
    microsPerHour, microsPerDay]
  omega

/-- 17:30 on the IST clock. -/
def sessionClose : Int := hourMinute 17 30

/-- The next close of India's options session, as naive UTC. -/
def indiaOptionsSessionCloseUtc (nowUtc : DateTime) : DateTime :=
  let local' := utcToIst nowUtc
  let closeLocal := combine local'.date sessionClose
  if local'.timeOfDay ≥ sessionClose then istToUtc (closeLocal.shift microsPerDay)
  else istToUtc closeLocal

theorem sessionClose_before (t : DateTime) (h : (utcToIst t).timeOfDay < sessionClose) :
    indiaOptionsSessionCloseUtc t = istToUtc (combine (utcToIst t).date sessionClose) := by
  simp only [indiaOptionsSessionCloseUtc]
  rw [if_neg (by omega)]

/-- 17:30 on the IST clock is noon on the UTC clock. -/
theorem sessionClose_iff_noon (t : DateTime) :
    (utcToIst t).timeOfDay = sessionClose ↔ t.timeOfDay = hourMinute 12 0 := by
  simp only [utcToIst, DateTime.shift, DateTime.timeOfDay, istOffset, sessionClose, hourMinute,
    microsPerHour, microsPerDay]
  omega

/-- On a date the session closes at noon UTC. -/
theorem istToUtc_close (date : Int) :
    istToUtc (combine date sessionClose) = combine date (hourMinute 12 0) := by
  simp only [istToUtc, combine, DateTime.shift, sessionClose, istOffset, hourMinute,
    microsPerHour, DateTime.mk.injEq]
  omega

/-- The close is the next noon on the UTC clock, today's or tomorrow's. -/
theorem sessionClose_noon (now : DateTime) : indiaOptionsSessionCloseUtc now =
    combine (if now.timeOfDay < hourMinute 12 0 then now.date else now.date + 1)
      (hourMinute 12 0) := by
  have hnoon : sessionClose = hourMinute 12 0 + istOffset := rfl
  have hlate : hourMinute 12 0 ≤ hourMinute 18 30 := by decide
  have hmorning : istOffset ≤ sessionClose := by decide
  unfold indiaOptionsSessionCloseUtc
  simp only [combine_shift_day, istToUtc_close]
  by_cases hearly : now.timeOfDay < hourMinute 18 30
  · rcases (istClock now).1 hearly with ⟨hdate, htime⟩
    -- On one date, the one clock is past the close when the other is past noon.
    rw [hdate, htime]
    by_cases hbefore : now.timeOfDay < hourMinute 12 0
    · rw [if_pos hbefore, if_neg (by omega)]
    · rw [if_neg hbefore, if_pos (by omega)]
  · rcases (istClock now).2 (not_lt.mp hearly) with ⟨hdate, htime⟩
    rw [hdate, if_neg (by omega), if_neg (by omega)]

namespace PyDateTime

/-- `utc_to_ist`, which raises where the IST clock is past the year 9999. -/
def utcToIst (now : PyDateTime) : Except PyError PyDateTime := now.add istOffset

/-- `india_options_session_close_utc`, with the exceptions of its steps. -/
def indiaOptionsSessionCloseUtc (nowUtc : PyDateTime) : Except PyError PyDateTime := do
  let local' ← nowUtc.utcToIst
  let closeLocal := local'.replaceTime sessionClose (by decide) (by decide)
  let closeLocal ←
    if local'.val.timeOfDay ≥ sessionClose then closeLocal.add microsPerDay else .ok closeLocal
  closeLocal.add (-istOffset)

end PyDateTime

/-- Entries are allowed from `start`, inclusive, to `end`, exclusive. -/
structure TradingWindow where
  start : Int
  «end» : Int
  forceClose : Int

namespace TradingWindow

def ofConfig (cfg : TradingWindowConfig) : TradingWindow :=
  { start := cfg.start, «end» := cfg.end, forceClose := cfg.forceClose }

def isOpen (w : TradingWindow) (nowUtc : DateTime) : Bool :=
  let local' := (utcToIst nowUtc).timeOfDay
  w.start ≤ local' ∧ local' < w.end

def isForceCloseTime (w : TradingWindow) (nowUtc : DateTime) : Bool :=
  (utcToIst nowUtc).timeOfDay ≥ w.forceClose

end TradingWindow

end OptionsBot
