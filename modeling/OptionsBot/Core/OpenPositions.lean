import OptionsBot.Core.Config
import OptionsBot.Core.Postmortem
import OptionsBot.Core.TradeRecord
import OptionsBot.Lib.Like

/-!
# The Report of Open Positions

What an operator is shown of the positions on the exchange: of each option of the strategy, the
trade it belongs to, how the market stands against the two stops, and which orders were sent for
it. Other positions are listed as skipped.

The trade is looked for by the symbol its signal was for. Without one, a trade on the same
underlying and strike is taken, whatever its type and its date. The stops are those of the
configuration; the prices come from the exchange, and from the features of the signal.

A price comes as a value of any kind. One that does not fit a float raises, and nothing guards
that.

## Main definitions

* `OpenPosition`, `PositionRest`: The positions, and the requests of the report.
* `isBotOptionSymbol`, `optionTypeFromSymbol`: What a symbol says.
* `findTradeForSymbol`: The trade of a position.
* `explainEntryFromFeatures`, `executionNote`: What is remarked on it.
* `OpenPositionRow`, `positionRow`: What is shown of a position.
* `buildOpenPositionsReport`: The report.
-/

namespace OptionsBot

/-- A position as the exchange lists it. -/
structure OpenPosition extends ListedPosition where
  entryPrice : Option ℚ := none
  unrealizedPnl : Option ℚ := none

/-- The requests of the report. One that fails carries the text of its `DeltaRestError`. -/
structure PositionRest where
  getPositions : Except String (List OpenPosition)
  getTicker : (symbol : String) → Except String JsonFields
  getOrders : (state : Option String) → Except String (List ListedOrder)

/-- The requests by which the orders of a trade are listed. -/
def PositionRest.toDeltaRest (rest : PositionRest) : DeltaRest :=
  { getCandles := fun _ _ _ => .ok []
    getPositions := rest.getPositions.map (List.map OpenPosition.toListedPosition)
    getOrders := rest.getOrders }

/-- `symbol.split("-")`. -/
def symbolParts (symbol : String) : List (List Char) := symbol.toList.splitOn '-'

/-- `_is_bot_option_symbol`. -/
def isBotOptionSymbol (symbol : String) : Bool :=
  match symbolParts symbol with
  | lead :: und :: _ :: _ :: _ =>
    (lead = ['C'] ∨ lead = ['P']) ∧ (und = ['B', 'T', 'C'] ∨ und = ['E', 'T', 'H'])
  | _ => false

/-- `_option_type_from_symbol`. -/
def optionTypeFromSymbol (symbol : String) : Option OptionType :=
  if Text.startsWith "C-" symbol then some .call
  else if Text.startsWith "P-" symbol then some .put
  else none

section Trades

/-- `ORDER BY entry_ts DESC LIMIT 1`. Of several rows of one instant it is the first. -/
def latestEntry (rows : List TradeRecord) : Option TradeRecord :=
  (rows.insertionSort (fun a b => b.trade.entryTs ≤ a.trade.entryTs)).head?

/-- The rows of the strategy whose signal was for a symbol of which something holds. -/
def directionalRows (p : String → Bool) (rows : List TradeRecord) : List TradeRecord :=
  rows.filter (fun t => t.trade.strategyId = .directional ∧
    ∃ signal ∈ t.signal, p signal.intendedSymbol = true)

/-- The condition `LIKE '%-und-strike-%'`, in which letters have no case. -/
def onStrike (und strike : List Char) (symbol : String) : Bool :=
  Pattern.like '%' '_' Char.toLower ('%' :: ('-' :: (und ++ '-' :: (strike ++ ['-'])) ++ ['%']))
    symbol.toList

def findTradeForSymbol (rows : List TradeRecord) (symbol : String) : Option TradeRecord :=
  match latestEntry (directionalRows (fun s => s = symbol) rows) with
  | some t => some t
  | none =>
    match symbolParts symbol with
    | _ :: und :: strike :: _ => latestEntry (directionalRows (onStrike und strike) rows)
    | _ => none

end Trades

section Remarks

variable (parse : String → Option ℚ)

/-- `_as_float` of a feature. An instant and a bucket are no numbers. -/
def FeatureValue.asFloat : FeatureValue → Option ℚ
  | .num x => x
  | .flag b => some (if b then 1 else 0)
  | .text s => if s = "" then none else parse s
  | .time _ | .bucket _ => none

/-- `_as_float(fv.get(key))`. -/
def Features.float (fv : Features) (key : String) : Option ℚ :=
  (fv.get key).bind (FeatureValue.asFloat parse)

/-- A feature as a condition, if it is there. -/
def Features.flag? (fv : Features) (key : String) : Option Bool :=
  match fv.get key with
  | none => none
  | some (.num none) => none
  | some (.num (some x)) => some (decide (x ≠ 0))
  | some (.flag b) => some b
  | some (.text s) => some (decide (s ≠ ""))
  | some (.time _) => some true
  | some (.bucket _) => some true

/-- A sentence of the explanation of an entry, with the numbers it quotes. -/
inductive EntryRemark where
  | longBreakout
  | shortBreakout
  | separation (emaSep threshold : ℚ)
  | range (atr : ℚ)
  | levels (close priorHigh priorLow : ℚ)
  | ivPercentile (value : FeatureValue)
  deriving DecidableEq

/-- `_explain_entry_from_features`. Without a sentence, it says that there are no features. -/
def explainEntryFromFeatures (fv : Features) (optionType : Option OptionType) : List EntryRemark :=
  let emaSep := fv.float parse "ema_sep"
  let threshold := fv.float parse "threshold"
  -- The signal's own features do not say which setup it was: the separation does.
  let implied := fun (p : ℚ → ℚ → Bool) => match emaSep, threshold with
    | some sep, some t => p sep t
    | _, _ => false
  let longSetup := (fv.flag? "long_setup").getD (implied (fun sep t => t < sep))
  let shortSetup := (fv.flag? "short_setup").getD (implied (fun sep t => sep < -t))
  let setup := if optionType = some .call ∨ longSetup then [EntryRemark.longBreakout]
    else if optionType = some .put ∨ shortSetup then [EntryRemark.shortBreakout]
    else []
  let separation := match emaSep, threshold with
    | some sep, some t => [EntryRemark.separation sep t]
    | _, _ => []
  let range := ((fv.float parse "atr").map EntryRemark.range).toList
  let levels := match fv.float parse "latest_close", fv.float parse "prior_high",
      fv.float parse "prior_low" with
    | some close, some high, some low => [EntryRemark.levels close high low]
    | _, _, _ => []
  let percentile := match fv.get "iv_percentile" with
    | none => []
    | some (.num none) => []
    | some v => [EntryRemark.ivPercentile v]
  setup ++ separation ++ range ++ levels ++ percentile

end Remarks

/-- What the report says on who looks after a position. -/
inductive ExecutionNote where
  | errored
  | managed
  | untracked
  deriving DecidableEq, Repr

def ExecutionNote.text : ExecutionNote → String
  | errored => "DB trade is **errored** (usually `partial_fill_rolled_back`): bot is **not** " ++
      "running `manage()` stops on this position. You must close on Delta or adopt it manually."
  | managed => "DB trade is **open** — bot should manage stops if the process is healthy."
  | untracked => "No matching DB trade or status is not open — position may be orphan / untracked."

def executionNote (status : Option TradeStatus) : ExecutionNote :=
  match status with
  | some .errored => .errored
  | some .«open» => .managed
  | _ => .untracked

/-- What `_underlying_sl_metrics` returns. -/
structure UnderlyingSl where
  adverse : ℚ
  threshold : ℚ
  room : ℚ
  reached : Bool
  deriving DecidableEq

/-- `_underlying_sl_metrics`. -/
def underlyingSlMetrics (optionType : OptionType) (entrySpot entryAtr spotNow atrMult : ℚ) :
    UnderlyingSl :=
  let threshold := atrMult * entryAtr
  let adverse := if optionType = .call then entrySpot - spotNow else spotNow - entrySpot
  { adverse := adverse, threshold := threshold, room := threshold - adverse
    reached := decide (threshold ≤ adverse) }

/-- The stops that the report measures against. -/
structure ReportStops where
  premiumDdPct : ℚ := 1 / 2
  underlyingAtrMult : ℚ := 1
  deriving DecidableEq

/-- The stops of the first directional strategy that is configured. -/
def reportStops (configs : List StrategyConfig) : ReportStops :=
  (configs.findSome? (fun
    | .directional cfg => some
      { premiumDdPct := cfg.exits.premiumDrawdownPct
        underlyingAtrMult := cfg.exits.underlyingAtrMultStop : ReportStops }
    | _ => none)).getD {}

/-- An `OpenPositionRow`. -/
structure OpenPositionRow where
  productSymbol : String
  size : ℚ
  exchangeEntryPrice : Option ℚ
  unrealizedPnl : Option ℚ
  tradeId : Option Nat
  tradeStatus : Option TradeStatus
  tradeError : Option String
  entryTs : Option DateTime
  underlying : Option String
  optionType : Option OptionType
  signalSpot : Option ℚ
  signalAtr : Option ℚ
  entryReason : List EntryRemark
  executionNote : ExecutionNote
  currentSpot : Option ℚ
  adverseMove : Option ℚ
  underlyingSlAtr : Option ℚ
  underlyingSlRoom : Option ℚ
  atUnderlyingSl : Bool
  optionMark : Option ℚ
  premiumDdPct : Option ℚ
  atPremiumSl : Bool
  exchangeOrders : List ListedOrder

/-- A `SkippedPosition`. -/
structure SkippedPosition where
  productSymbol : String
  size : ℚ
  entryPrice : Option ℚ
  unrealizedPnl : Option ℚ
  deriving DecidableEq

structure OpenPositionsReport where
  rows : List OpenPositionRow := []
  skipped : List SkippedPosition := []
  errors : List String := []

/-- `float(p.get("size") or 0)`. -/
def OpenPosition.lots (p : OpenPosition) : ℚ := orFloat p.size 0

/-- The underlying that a symbol names somewhere. -/
def symbolUnderlying (symbol : String) : Option String :=
  if Text.occursIn "BTC" symbol then some "BTC"
  else if Text.occursIn "ETH" symbol then some "ETH"
  else none

section Report

variable (parse : String → Option ℚ) (rest : PositionRest)

/-- A price of a ticker, if there is one, and the error of a request that failed. -/
def tickerPrice (symbol label first second : String) : Except PyError (Option ℚ × List String) :=
  match rest.getTicker symbol with
  | .error e => .ok (none, [label ++ symbol ++ ": " ++ e])
  | .ok ticker =>
    (((ticker.get first).or (ticker.get second)).asFloat parse).map (fun price => (price, []))

variable (trades : List TradeRecord) (stops : ReportStops)

/-- What is shown of a position, with the errors of its requests. -/
def positionRow (p : OpenPosition) : Except PyError (OpenPositionRow × List String) := do
  let sym := p.productSymbol
  let opt := optionTypeFromSymbol sym
  let und := symbolUnderlying sym
  let trade := if sym = "" then none else findTradeForSymbol trades sym
  let fv : Features := ((trade.bind TradeRecord.signal).map SignalRow.featureVector).getD []
  let signalSpot := fv.float parse "spot"
  let signalAtr := fv.float parse "atr"
  let spot ← match und.bind (fun u => underlyingCandleSymbol.lookup u) with
    | none => .ok (none, [])
    | some uSym => tickerPrice parse rest uSym "ticker " "mark_price" "spot_price"
  let sl := match opt, signalSpot, signalAtr, spot.1 with
    | some kind, some entrySpot, some entryAtr, some spotNow =>
      some (underlyingSlMetrics kind entrySpot entryAtr spotNow stops.underlyingAtrMult)
    | _, _, _, _ => none
  let mark ← if sym = "" then .ok (none, [])
    else tickerPrice parse rest sym "option ticker " "mark_price" "close"
  -- The premium is measured from the exchange's entry price, not from the trade's.
  let priced := match p.entryPrice, mark.1 with
    | some entry, some mark => if 0 < entry then some (entry, mark) else none
    | _, _ => none
  .ok
    ({ productSymbol := sym
       size := p.lots
       exchangeEntryPrice := p.entryPrice
       unrealizedPnl := p.unrealizedPnl
       tradeId := trade.map (fun t => t.trade.id)
       tradeStatus := trade.map (fun t => t.trade.status)
       tradeError := trade.bind (fun t => t.trade.notes.error)
       entryTs := trade.map (fun t => t.trade.entryTs)
       underlying := und
       optionType := opt
       signalSpot := signalSpot
       signalAtr := signalAtr
       entryReason := explainEntryFromFeatures parse fv opt
       executionNote := executionNote (trade.map (fun t => t.trade.status))
       currentSpot := spot.1
       adverseMove := sl.map UnderlyingSl.adverse
       underlyingSlAtr := sl.map UnderlyingSl.threshold
       underlyingSlRoom := sl.map UnderlyingSl.room
       atUnderlyingSl := (sl.map UnderlyingSl.reached).getD false
       optionMark := mark.1
       premiumDdPct := priced.map (fun x => (x.1 - x.2) / x.1 * 100)
       atPremiumSl := (priced.map (fun x =>
         decide (x.2 ≤ x.1 * (1 - stops.premiumDdPct)))).getD false
       exchangeOrders := match trade with
         | none => []
         | some t => fetchDeltaOrdersForTrade rest.toDeltaRest t.trade.id },
      spot.2 ++ mark.2)

/-- A position is skipped. -/
def OpenPosition.skipped (p : OpenPosition) : SkippedPosition :=
  { productSymbol := p.productSymbol, size := p.lots, entryPrice := p.entryPrice
    unrealizedPnl := p.unrealizedPnl }

/-- A position is one that the report is about. -/
def OpenPosition.shown (optionsOnly : Bool) (p : OpenPosition) : Bool :=
  !optionsOnly || isBotOptionSymbol p.productSymbol

/-- `build_open_positions_report`, on the trades of the database. -/
def buildOpenPositionsReport (configs : List StrategyConfig) (optionsOnly : Bool := true) :
    Except PyError OpenPositionsReport :=
  match rest.getPositions with
  | .error e => .ok { errors := ["get_positions: " ++ e] }
  | .ok positions => do
    let openPos := positions.filter (fun p => p.lots ≠ 0)
    let shown ← (openPos.filter (OpenPosition.shown optionsOnly)).mapM
      (positionRow parse rest trades (reportStops configs))
    .ok
      { rows := shown.map Prod.fst
        skipped := (openPos.filter (fun p => !p.shown optionsOnly)).map OpenPosition.skipped
        errors := shown.flatMap Prod.snd }

end Report

end OptionsBot
