import OptionsBot.Core.Daily
import OptionsBot.Core.MainRun
import OptionsBot.Core.Window

/-!
# The Nightly Loop

The task that runs the nightly job, next to the main loop that opens and closes trades. It looks at
the clock once a minute, and once a date, between 22:35 and 23:00 in India, it starts a run.

A run reads the closed trades of the date, writes their rows, writes the account value, and then
the report. Each of these is a session of its own or a file, between any two of them the main loop
makes its writes, and any of them may raise. A run that has raised is followed by another one a
minute later, as long as the hour lasts. A process may end at any point, and the next one does not
know what the last one has done.

## Main definitions

* `DeskRow.daily`: What the report reads of a row.
* `DailyRun`, `NightlyDesk`: A run under way, and both loops with what they work on.
* `NightlyEvent`, `NightlyDesk.step`: What happens, in any order.
-/

namespace OptionsBot

theorem StrategyId.value_ne_globalKey (id : StrategyId) : id.value ≠ globalKey := by
  cases id <;> decide

/-- The columns of a row that the report reads. -/
def DeskRow.daily (row : DeskRow) : DailyTrade :=
  { strategyId := row.record.trade.strategyId.value
    status := row.record.trade.status
    exitTs := row.record.trade.exitTs
    realisedPnlInr := row.record.trade.realisedPnlInr
    feesInr := row.record.feesInr
    deltaPnlInr := row.record.deltaPnlInr
    thetaPnlInr := row.record.thetaPnlInr
    rMultiple := row.record.rMultiple
    slippageBps := row.record.slippageBps
    named := row.record.trade.strategyId.value_ne_globalKey }

/-- What a run has done. -/
inductive DailyStage where
  | begun
  | read (perStrategy : List StrategyDailyStats)
  | rowsWritten
  deriving DecidableEq

/-- `DailyAggregator.run` under way. -/
structure DailyRun where
  args : NavSnapshot
  stage : DailyStage
  deriving DecidableEq

/-- What may go wrong in a step of a run: its session, or the file of the report. -/
inductive DailyFault where
  | session
  | report
  deriving DecidableEq, Repr

/-- The two loops, and the tables of the report. -/
structure NightlyDesk where
  desk : MainLoop
  db : DailyDb
  lastDailyIstDate : Option Int := none
  run : Option DailyRun := none

/-- The main loop makes a step. The nightly loop looks at the clock, with what it would call a run
    with. A run goes on. Another process starts. -/
inductive NightlyEvent where
  | desk (e : DeskEvent)
  | check (nowUtc : DateTime) (navInr peakNavInr : ℚ) (circuitBreakerTripped : Bool)
  | go (fault : Option DailyFault)
  | restart

namespace NightlyDesk

/-- Between 22:35 and 23:00 in India. -/
def InHour (nowUtc : DateTime) : Prop :=
  hourMinute 22 35 ≤ (utcToIst nowUtc).timeOfDay ∧ (utcToIst nowUtc).timeOfDay < hourMinute 23 0

instance (nowUtc : DateTime) : Decidable (InHour nowUtc) :=
  inferInstanceAs (Decidable (_ ∧ _))

/-- The trades as the report reads them. -/
def trades (s : NightlyDesk) : List DailyTrade := s.desk.rows.map DeskRow.daily

/-- A round of `daily_loop`, which does not come around while it waits for a run. -/
def check (nowUtc : DateTime) (navInr peakNavInr : ℚ) (circuitBreakerTripped : Bool)
    (s : NightlyDesk) : NightlyDesk :=
  let todayIst := (utcToIst nowUtc).date
  if s.run = none ∧ InHour nowUtc ∧ s.lastDailyIstDate ≠ some todayIst then
    { s with
      run := some
        { args :=
            { tradingDate := todayIst, navInr := navInr, peakNavInr := max peakNavInr navInr
              circuitBreakerTripped := circuitBreakerTripped }
          stage := .begun } }
  else s

/-- The next step of a run. What raises ends it. -/
def go (fault : Option DailyFault) (s : NightlyDesk) : NightlyDesk :=
  match s.run with
  | none => s
  | some run =>
    let raised : NightlyDesk := { s with run := none }
    match run.stage with
    | .begun =>
      if fault = some .session then raised
      else
        { s with
          run := some { run with
            stage := .read (computePerStrategy s.trades run.args.tradingDate) } }
    | .read perStrategy =>
      if fault = some .session then raised
      else
        match s.db.dailyPnl.persistDailyPnl run.args.tradingDate perStrategy with
        | .error _ => raised
        | .ok dailyPnl =>
          { s with db := { s.db with dailyPnl := dailyPnl }
                   run := some { run with stage := .rowsWritten } }
    | .rowsWritten =>
      if fault = some .session then raised
      else
        match persistNav s.db.navHistory run.args with
        | .error _ => raised
        | .ok (navHistory, _) =>
          let written : NightlyDesk :=
            { s with db := { s.db with navHistory := navHistory }, run := none }
          -- The date counts as done behind the report.
          if fault = some .report then written
          else { written with lastDailyIstDate := some run.args.tradingDate }

def step (s : NightlyDesk) : NightlyEvent → NightlyDesk
  | .desk e => { s with desk := s.desk.step e }
  | .check nowUtc navInr peakNavInr circuitBreakerTripped =>
    s.check nowUtc navInr peakNavInr circuitBreakerTripped
  | .go fault => s.go fault
  | .restart => { s with desk := { rows := s.desk.rows }, lastDailyIstDate := none, run := none }

end NightlyDesk

end OptionsBot
