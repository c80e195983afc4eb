import OptionsBot.Core.EntryLoop
import OptionsBot.Core.Tick
import OptionsBot.Lib.TwoRuns

/-!
# The Modes of Trades

Every trade row is written with the mode of the engine that has opened it, and nothing
that the engine does later asks for it. An engine in live mode loads the open rows, adds
up the closed ones, counts, exits and enters, on a database that may hold rows of both
modes.

What goes to the exchange is recorded as what the executor is asked for, with the mode of
the row it is for. A trade's id is left out: of what the executor sends, it is only part
of the client order ids, and these are salted.

The rows stand in the order of their ids, which is the order they are loaded in. What the
strategies propose at a tick, and how the exchange answers, may depend on everything that
was asked for before in that tick. Whatever either knows of earlier ticks is in the choice
of the tick.

## Main definitions

* `BotMode`, `ModeRow`: The mode of a trade, and its row.
* `Instruction`, `Sent`: What the executor is asked for.
* `ModeTick`: What a tick works with.
* `ModeTick.sendExit`, `ModeTick.sendStop`: What a directive leads to.
* `ModeTick.manageRow`, `ModeTick.exits`: A row of a tick, and all of them.
* `ModeEngine`: The engine and its rows.
* `ModeEngine.enter`, `ModeEngine.tick`: The entries of a tick, and the tick.
* `ModeEngine.boot`, `ModeEngine.step`: A start, and any event.
* `Decisions`, `decisions`: What shows at a moment, and along a run.
-/

namespace OptionsBot

/-- The column `mode` of a trade. -/
inductive BotMode where
  | dry
  | live
  deriving DecidableEq, Repr

/-- The mode an engine runs in. -/
def AppConfig.mode (app : AppConfig) : BotMode := if app.isLive then .live else .dry

/-- A configuration that runs in live mode. -/
abbrev LiveConfig := { app : AppConfig // app.isLive = true }

/-- A row of `trades` with its mode, and the record the exit engine has of it. -/
structure ModeRow where
  mode : BotMode
  track : TradeTrack

namespace ModeRow

def pair (row : ModeRow) : Trade × List Leg := (row.track.trade, row.track.legs)

/-- The row of rows that have no record yet. -/
def ofPair (mode : BotMode) (rows : Trade × List Leg) : ModeRow :=
  { mode := mode, track := { trade := rows.1, legs := rows.2 } }

def isOpen (row : ModeRow) : Bool := row.track.trade.status = .«open»

/-- The view of the row that the exit engine works on. -/
def view (row : ModeRow) (chain : ChainCache) (now : DateTime) : Except PyError PositionState :=
  tradeToPositionState row.track.trade row.track.legs chain now

end ModeRow

/-- What the executor is asked for: the exit of a trade, the move of a stop, an entry. -/
inductive Instruction where
  | exit (strategyId : StrategyId) (underlying : Underlying) (legs : List LegIntent) (lots : Nat)
      (trigger : ExitTrigger)
  | stop (symbol : String) (side : Side) (qty : Int) (newStopPrice : ℚ)
  | entry (strategyId : StrategyId) (underlying : Underlying) (legs : List LegIntent) (lots : Nat)
      (makerTimeoutSeconds : ℚ)
  deriving DecidableEq

/-- What the executor is asked for, and the mode of the trade it is for. -/
structure Sent where
  mode : BotMode
  instruction : Instruction
  deriving DecidableEq

def ExitRequest.instruction (req : ExitRequest) : Instruction :=
  .exit req.strategyId req.underlying req.legs req.lots req.trigger

def EntryRequest.instruction (req : EntryRequest) : Instruction :=
  .entry req.strategyId req.underlying req.legs req.lots req.makerTimeoutSeconds

/-- What the exits of a tick carry: the account value, what was sent, the latest first, and
    whether something has raised. -/
structure ExitPass where
  nav : NavTracker
  sent : List Sent := []
  raised : Bool := false

/-- What a tick works with: the exit engine, the market without the quotes of the open legs, how
    the exchange answers, and what the strategies propose. -/
structure ModeTick where
  engine : ExitEngine
  market : MarketState
  answer : List Sent → Except PyError ExitResult
  bookChain : ChainCache
  attempts : MarketState → List Sent → List EntryAttempt

namespace ModeTick

variable (t : ModeTick)

/-- The market with the quotes of the open legs. -/
def marketOf (rows : List ModeRow) : MarketState :=
  { t.market with
    quoteFor := quoteForOpen t.market.chain ((rows.filter ModeRow.isOpen).map ModeRow.pair) }

variable (market : MarketState)

/-- Send the exit of a row. -/
def sendExit (mode : BotMode) (trigger : ExitTrigger) (track : TradeTrack) (pass : ExitPass) :
    TradeTrack × ExitPass :=
  match exitRequest track.trade track.legs trigger market.now with
  | .error _ => (track, { pass with raised := true })
  | .ok req =>
    -- A row of either mode is handed to the one executor there is.
    let sent := { mode := mode, instruction := req.instruction } :: pass.sent
    match t.answer sent with
    | .error _ => (track, { pass with sent := sent, raised := true })
    | .ok result =>
      match persistExit (fun _ => result) track.trade track.legs trigger pass.nav market.now with
      | .error _ => (track, { pass with sent := sent, raised := true })
      | .ok (trade, legs, nav) =>
        ({ trade := trade, legs := legs, runtime := none }, { pass with nav := nav, sent := sent })

/-- Move the stop of a row, if it has a leg. -/
def sendStop (mode : BotMode) (newStopPrice : ℚ) (track : TradeTrack) (pass : ExitPass) :
    TradeTrack × ExitPass :=
  match track.legs with
  | [] => (track, pass)
  | leg :: _ =>
    let stop := Instruction.stop leg.symbol leg.side track.trade.lots newStopPrice
    let sent := { mode := mode, instruction := stop } :: pass.sent
    match t.answer sent with
    | .error _ => (track, { pass with sent := sent, raised := true })
    | .ok _ =>
      ({ track with trade := persistTrailStop track.trade newStopPrice },
        { pass with sent := sent })

/-- Carry out a directive for a row, unless something has raised. -/
def carryOut (mode : BotMode) (acc : TradeTrack × ExitPass) (d : ExitDirective) :
    TradeTrack × ExitPass :=
  if acc.2.raised then acc
  else
    match d.kind, d.trigger, d.newStopPrice with
    | .close, some trigger, _ => t.sendExit market mode trigger acc.1 acc.2
    | .updateStop, _, some newStopPrice => t.sendStop mode newStopPrice acc.1 acc.2
    | _, _, _ => acc

/-- Manage a row, with the peak to note if it was stepped. A row that is not open is passed
    over. -/
def manageRow (row : ModeRow) (pass : ExitPass) : (ModeRow × Option ℚ) × ExitPass :=
  if pass.raised then ((row, none), pass)
  else if row.isOpen then
    match row.view market.chain market.now with
    | .error _ => ((row, none), { pass with raised := true })
    | .ok position =>
      match t.engine.step (row.track.load position) market with
      | .error _ => ((row, none), { pass with raised := true })
      | .ok (next, directives) =>
        let done := directives.foldl (t.carryOut market row.mode)
          ({ row.track with runtime := some next }, pass)
        (({ row with track := done.1 }, some (TradeTrack.peakOf next)), done.2)
  else ((row, none), pass)

/-- Manage the rows, one after the other. -/
def manageRows : List ModeRow → ExitPass → List (ModeRow × Option ℚ) × ExitPass
  | [], pass => ([], pass)
  | row :: rest, pass =>
    let done := t.manageRow market row pass
    let later := manageRows rest done.2
    (done.1 :: later.1, later.2)

/-- The notes of a row after a tick. -/
def refreshRow (managed : ModeRow × Option ℚ) : ModeRow :=
  match managed.2 with
  | none => managed.1
  | some peak =>
    { managed.1 with
      track :=
        { managed.1.track with
          trade := refreshOpenTradeNotes managed.1.track.trade managed.1.track.legs market.chain
            (some peak) } }

/-- The exits of a tick. The open rows are all viewed before the first is managed, and the notes
    are refreshed if nothing has raised. -/
def exits (rows : List ModeRow) (nav : NavTracker) : List ModeRow × ExitPass :=
  if (rows.filter ModeRow.isOpen).all (fun row => (row.view market.chain market.now).isOk) then
    let done := t.manageRows market rows { nav := nav }
    if done.2.raised then (done.1.map Prod.fst, done.2)
    else (done.1.map (refreshRow market), done.2)
  else (rows, { nav := nav, raised := true })

end ModeTick

/-- The engine in live mode, and the rows of its database. The rows are apart from the account,
    whose own list of trades stays empty. -/
structure ModeEngine where
  account : EngineState
  rows : List ModeRow

/-- What an engine shows: its account value, caps and counts, and of a tick what the gate
    answered and what the executor was asked for. -/
structure Decisions where
  navNow : ℚ
  caps : Except PyError LossCapResult
  accounting : TradeAccountingSnapshot
  gates : List (Except PyError SizingResult) := []
  sent : List Sent := []

/-- What happens outside of ticks, or around them, and reads no trade. -/
inductive AccountEvent where
  | clock (now : DateTime)
  | rollDay
  | sync
  | raisePeak
  | dailyStart
  | dailyWrite
  | shutdown
  | resume (confirm : Bool)

def AccountEvent.engineEvent : AccountEvent → EngineEvent
  | clock now => .clock now
  | rollDay => .rollDay
  | sync => .sync
  | raisePeak => .raisePeak
  | dailyStart => .dailyStart
  | dailyWrite => .dailyWrite
  | shutdown => .shutdown
  | resume confirm => .resume confirm

/-- A tick, something that reads no trade, or a restart in live mode. -/
inductive ModeEvent where
  | tick (t : ModeTick)
  | account (e : AccountEvent)
  | restart (app : LiveConfig)

/-- What the executor is asked for when the gate has answered an intent. -/
def entrySent (mode : BotMode) (makerTimeoutSeconds : ℚ) (a : EntryAttempt) :
    Except PyError SizingResult → Option Sent
  | .error _ => none
  | .ok sizing =>
    if sizing.approved then
      match a.intent.legs, a.outcome with
      | [], _ => none
      | _ :: _, .unwritten => none
      -- An exception after the row is written may come before the orders or after them.
      | _ :: _, _ => some
          { mode := mode
            instruction := (entryRequest 0 a.intent sizing makerTimeoutSeconds).instruction }
    else none

namespace ModeEngine

/-- A start: the account value from the closed rows, and no record of any row. -/
def boot (app : LiveConfig) (rows : List ModeRow) (navHistory : NavTable)
    (runtimeDir : RuntimeDir) (now : DateTime) : ModeEngine :=
  { account :=
      { OptionsBot.boot app.1 (rows.map ModeRow.pair) navHistory runtimeDir now with trades := [] }
    rows := rows.map (fun row => { row with track := row.track.restart }) }

variable (s : ModeEngine)

/-- The account with the trades of the rows. -/
def engine : EngineState := { s.account with trades := s.rows.map ModeRow.pair }

/-- What shows of the engine. -/
def shown (gates : List (Except PyError SizingResult)) (sent : List Sent) : Decisions :=
  { navNow := s.account.nav.navNow
    caps := s.account.risk.evaluateCaps
    accounting := accountingSnapshot (s.rows.map ModeRow.pair)
    gates := gates
    sent := sent }

/-- What the loop over the intents leaves: the rows it has opened, the answers of the gate, and
    the entries it has sent. -/
def entered (attempts : List EntryAttempt) (after : EngineState × List GateCall) :
    ModeEngine × List (Except PyError SizingResult) × List Sent :=
  let opened := (after.1.trades.drop s.rows.length).map (ModeRow.ofPair s.account.app.mode)
  let gates := List.zipWith (fun a input => s.account.risk.gate a.intent input) attempts
    (after.2.map GateCall.input)
  let entries := List.zipWith (entrySent s.account.app.mode
    s.account.app.globalConfig.execution.makerLimitTimeoutSeconds) attempts gates
  ({ s with rows := s.rows ++ opened }, gates, entries.reduceOption)

/-- The entries of a tick. The book is added up from the rows the tick has started with. -/
def enter (t : ModeTick) (market : MarketState) (openRows : List (Trade × List Leg))
    (sent : List Sent) : ModeEngine × List (Except PyError SizingResult) × List Sent :=
  let tick : EntryTick :=
    { market := market, bookChain := t.bookChain, attempts := t.attempts market sent }
  s.entered tick.attempts (EngineState.gateIntents tick openRows
    (s.engine.portfolioBook tick openRows) s.engine (accountingSnapshot s.engine.trades)
    tick.attempts)

/-- A tick. An exception in its exits ends it. -/
def tick (t : ModeTick) : ModeEngine × Decisions :=
  let market := t.marketOf s.rows
  let exited := t.exits market s.rows s.account.nav
  let after : ModeEngine :=
    { account := { s.account with nav := exited.2.nav }, rows := exited.1 }
  if exited.2.raised then (after, after.shown [] exited.2.sent.reverse)
  else
    let entered := after.enter t market ((s.rows.filter ModeRow.isOpen).map ModeRow.pair)
      exited.2.sent
    (entered.1, entered.1.shown entered.2.1 (exited.2.sent.reverse ++ entered.2.2))

/-- An event, and what shows after it. -/
def step : ModeEvent → ModeEngine × Decisions
  | .tick t => s.tick t
  | .account e =>
    let after := { s with account := s.account.step e.engineEvent }
    (after, after.shown [] [])
  | .restart app =>
    let after := boot app s.rows s.account.navHistory s.account.runtimeDir s.account.now
    (after, after.shown [] [])

end ModeEngine

/-- What an engine booted on a database shows: after the start, and along the events after it. -/
def decisions (app : LiveConfig) (rows : List ModeRow) (navHistory : NavTable)
    (runtimeDir : RuntimeDir) (now : DateTime) (events : List ModeEvent) : List Decisions :=
  let start := ModeEngine.boot app rows navHistory runtimeDir now
  start.shown [] [] :: shownAlong ModeEngine.step start events

end OptionsBot
