import OptionsBot.Core.Postmortem

/-!
# The Optimisation Study

Filled directional trades against the candles of their underlying and of their
option: the return until the exit, the verdict after an hour, the furthest the
premium fell, and the bar at which the underlying's stop was hit.

Trades the database does not have are put together from the orders the exchange
lists. An order's id has the trade in it, and words that say what the order was for.

Candles are kept under a symbol and the two dates of their window, those of the
underlying and those of the option apart. The parser of a time in words enters as a
parameter.

## Main definitions

* `FilledTrade`, `TradePathAnalysis`, `OptimizationReport`: What the study is about.
* `tradeIdFromCoid`, `isEntryCoid`, `isExitCoid`: What an order's id says.
* `loadFilledTradesFromExchange`: The trades of the exchange's orders.
* `analyzeTradePath`: The analysis of a trade.
* `buildOptimizationReport`: The study.
-/

namespace OptionsBot

/-- A `FilledTrade`. An option type that is neither a call nor a put is `none`. -/
structure FilledTrade where
  tradeId : Nat
  entryTs : DateTime
  exitTs : Option DateTime := none
  underlying : String
  mode : String := "live"
  status : String := "closed"
  symbol : String
  optionType : Option OptionType := none
  strike : Option ℚ := none
  lots : Int := 1
  entryPremium : Option ℚ := none
  exitPremium : Option ℚ := none
  realisedPnlInr : Option ℚ := none
  rMultiple : Option ℚ := none
  exitReason : Option String := none
  spotAtEntry : Option ℚ := none
  atrAtEntry : Option ℚ := none
  emaSep : Option ℚ := none
  threshold : Option ℚ := none
  source : String := "db"
  deriving DecidableEq

structure TradePathAnalysis where
  trade : FilledTrade
  holdMinutes : ℚ
  spotRetAtExitPct : Option ℚ
  spotAdverse15m : Option Bool
  spotVerdict60m : Verdict
  premiumDdPctMax : Option ℚ
  premiumDdHitFirstBar : Option Nat
  underlyingSlHitFirstBar : Option Nat
  win : Bool
  deriving DecidableEq

section ExchangeOrders

/-- `^dr-(\d+)-\d+-`, and the first number as an integer. -/
def tradeIdFromCoid (coid : String) : Option Nat :=
  match coid.toList with
  | 'd' :: 'r' :: '-' :: rest =>
    let tid := rest.takeWhile isDecimal
    match rest.dropWhile isDecimal with
    | '-' :: more =>
      let leg := more.takeWhile isDecimal
      match more.dropWhile isDecimal with
      | '-' :: _ => if tid = [] ∨ leg = [] then none else some (digitsValue tid)
      | _ => none
    | _ => none
  | _ => none

/-- The test that makes an order the entry of its trade. -/
def isEntryCoid (coid : String) : Bool :=
  !Text.occursIn "exit" coid && !Text.occursIn "trail" coid &&
    (Text.occursIn "entry" coid || !Text.occursIn "rollback" coid)

/-- The test that makes an order the exit of its trade. -/
def isExitCoid (coid : String) : Bool :=
  Text.occursIn "exit" coid || Text.occursIn "rollback" coid

/-- `created_at or ...`: zero and the empty text are falsy. -/
def Stamp.truthy : Stamp → Bool
  | .number n => n ≠ 0
  | .text s => s ≠ ""

variable (parseTs : String → Except PyError DateTime)

/-- The instant of a stamp. A number beyond `1e12` counts microseconds. -/
def Stamp.instant : Stamp → Except PyError DateTime
  | .number n =>
    .ok (unixEpoch.shift (if (10 : Int) ^ 12 < n then n else n * 1000000))
  | .text s => parseTs s

/-- The instant of a `created_at`, whose absence is parsed as the word for it. -/
def createdInstant (createdAt : Option Stamp) : Except PyError DateTime :=
  match createdAt with
  | some stamp => stamp.instant parseTs
  | none => parseTs "None"

/-- `str(x.get("created_at") or "")`. -/
def ListedOrder.createdText (o : ListedOrder) : String :=
  match o.createdAt with
  | some (.number n) => if n = 0 then "" else toString n
  | some (.text s) => s
  | none => ""

/-- The trade an order counts for, if it does: one of the strategy, since the given
    time, and filled. -/
def filledFor (since : DateTime) (o : ListedOrder) : Except PyError (Option (Nat × ListedOrder)) :=
  match tradeIdFromCoid o.coid with
  | none => .ok none
  | some tid =>
    match (o.createdAt.filter Stamp.truthy).or o.updatedAt with
    | none => .ok none
    | some created => do
      let ts ← created.instant parseTs
      if ts < since ∨ orFloat o.filledSize 0 ≤ 0 then .ok none
      else .ok (some (tid, o))

/-- The orders of one trade as a trade, or none if no order is the entry. -/
def filledTradeOf (tid : Nat) (orders : List ListedOrder) : Except PyError (Option FilledTrade) :=
  match orders.find? (fun o => isEntryCoid o.coid) with
  | none => .ok none
  | some entryO => do
    let exitO := (orders.filter (fun o => isExitCoid o.coid)).getLast?
    let sym := entryO.productSymbol.getD ""
    let entryTs ← createdInstant parseTs entryO.createdAt
    let exitTs ← match exitO with
      | none => .ok none
      | some o => (createdInstant parseTs o.createdAt).map some
    .ok (some
      { tradeId := tid, entryTs := entryTs, exitTs := exitTs,
        underlying := if Text.occursIn "BTC" sym then "BTC"
          else if Text.occursIn "ETH" sym then "ETH" else "?",
        mode := "live", status := if exitO.isSome then "closed" else "open", symbol := sym,
        optionType := if Text.startsWith "C-" sym then some .call
          else if Text.startsWith "P-" sym then some .put else none,
        lots := truncate (orFloat entryO.size 1), entryPremium := entryO.averageFillPrice,
        exitPremium := exitO.bind ListedOrder.averageFillPrice,
        exitReason := some "exchange_only", source := "exchange" })

/-- `load_filled_trades_from_exchange`, with the orders of trades without an entry. -/
def loadFilledTradesFromExchange (rest : DeltaRest) (since : DateTime) :
    Except PyError (List FilledTrade × List ListedOrder) := do
  let listed := [some "closed", some "open"].flatMap (fun state =>
    (rest.getOrders state).toOption.getD [])
  let filled ← listed.mapM (filledFor parseTs since)
  let groups := (Table.group Prod.fst (filled.filterMap id)).insertionSort
    (fun a b => a.1 ≤ b.1)
  let sorted := groups.map (fun g =>
    (g.1, (g.2.map Prod.snd).insertionSort (fun a b => a.createdText ≤ b.createdText)))
  let trades ← sorted.mapM (fun g => (filledTradeOf parseTs g.1 g.2).map (fun t => (t, g.2)))
  .ok (trades.filterMap Prod.fst,
    trades.flatMap (fun t => if t.1.isNone then t.2 else []))

end ExchangeOrders

/-- `_premium_dd_from_candles`: the greatest fall from the close of the entry bar, and
    the first bar with a fall of half of it. -/
def premiumDdFromCandles (candles : List CandleRow) (entryIdx : Nat) (ddThreshold : ℚ := 1 / 2) :
    Option ℚ × Option Nat :=
  match candles[entryIdx]? with
  | none => (none, none)
  | some bar =>
    let entryClose := orFloat bar.close 0
    if entryClose ≤ 0 then (none, none)
    else
      let falls := ((candles.drop (entryIdx + 1)).zipIdx 1).map (fun item =>
        (1 - orFloat item.1.close entryClose / entryClose, item.2))
      (some ((falls.map Prod.fst).foldl max 0 * 100),
        (falls.find? (fun fall => decide (ddThreshold ≤ fall.1))).map Prod.snd)

/-- `_underlying_sl_bar`: the first bar that went against the trade by the range. -/
def underlyingSlBar (candles : List CandleRow) (entryIdx : Nat) (optionType : Option OptionType)
    (entrySpot : ℚ) (atr : Option ℚ) : Option Nat :=
  match atr with
  | none => none
  | some range =>
    if range ≤ 0 then none
    else
      (((candles.drop (entryIdx + 1)).zipIdx 1).find? (fun item =>
        match optionType with
        | some .call => range ≤ entrySpot - orFloat item.1.low 0
        | some .put => range ≤ orFloat item.1.high 0 - entrySpot
        | none => false)).map Prod.snd

section Study

variable (host : DateTime → Int)

/-- The return from the entry price to the close of a bar, if the bar is there. -/
def returnAt (candles : List CandleRow) (entrySpot : ℚ) (idx : Nat) : Option ℚ :=
  candles[idx]?.map (fun c => (orFloat c.close entrySpot - entrySpot) / entrySpot)

def analyzeTradePath (trade : FilledTrade) (underlyingCandles optionCandles : List CandleRow) :
    Option TradePathAnalysis := do
  let uIdx ← nearestCandleIndex host underlyingCandles trade.entryTs
  let entrySpot ← entrySpotOf host trade.spotAtEntry underlyingCandles trade.entryTs
  if entrySpot ≤ 0 then none
  else
    let endTs := trade.exitTs.getD (trade.entryTs.shift (4 * microsPerHour))
    let exitIdx ← if trade.exitTs.isSome then nearestCandleIndex host underlyingCandles endTs
      else some uIdx
    let spotRetExit :=
      if uIdx < exitIdx then returnAt underlyingCandles entrySpot exitIdx else none
    let r15 := returnAt underlyingCandles entrySpot (uIdx + 1)
    let r60 := returnAt underlyingCandles entrySpot (uIdx + 4)
    let prem := match nearestCandleIndex host optionCandles trade.entryTs with
      | some oIdx => premiumDdFromCandles optionCandles oIdx
      | none => (none, none)
    let win := match trade.realisedPnlInr with
      | some pnl => decide (0 < pnl)
      | none =>
        let entryPremium := orFloat trade.entryPremium 0
        let exitPremium := orFloat trade.exitPremium 0
        decide (entryPremium ≠ 0 ∧ exitPremium ≠ 0 ∧ entryPremium < exitPremium)
    some
      { trade := trade, holdMinutes := endTs.secondsSince trade.entryTs / 60,
        spotRetAtExitPct := spotRetExit.map (fun r => r * 100),
        spotAdverse15m := r15.map (fun r => spotFavorable trade.optionType r = .adverse),
        spotVerdict60m := spotFavorable trade.optionType (r60.getD 0),
        premiumDdPctMax := prem.1, premiumDdHitFirstBar := prem.2,
        underlyingSlHitFirstBar :=
          underlyingSlBar underlyingCandles uIdx trade.optionType entrySpot trade.atrAtEntry,
        win := win }

/-- The window of a trade, from one hour before its entry to its exit, or to six hours
    after the entry of an open one. -/
def FilledTrade.window (t : FilledTrade) : DateTime × DateTime :=
  (t.entryTs.shift (-microsPerHour), t.exitTs.getD (t.entryTs.shift (6 * microsPerHour)))

def FilledTrade.cacheKey (t : FilledTrade) (sym : String) : CandleKey :=
  (sym, t.window.1.date, t.window.2.date)

/-- An `OptimizationReport`, and the two caches while it is built. -/
structure OptimizationReport where
  trades : List FilledTrade := []
  paths : List TradePathAnalysis := []
  exchangeOrphans : List ListedOrder := []
  errors : List String := []
  uCache : CandleStore := []
  oCache : CandleStore := []

variable (rest : DeltaRest)

/-- One trade of `build_optimization_report`'s loop. -/
def OptimizationReport.trade (r : OptimizationReport) (t : FilledTrade) : OptimizationReport :=
  match underlyingCandleSymbol.lookup t.underlying with
  | none =>
    { r with errors := r.errors ++ ["trade " ++ toString t.tradeId ++ ": bad underlying"] }
  | some uSym =>
    let uKey := t.cacheKey uSym
    let oKey := t.cacheKey t.symbol
    let uFetched := fetchCandles host rest uSym t.window.1 t.window.2
    let oFetched := fetchCandles host rest t.symbol t.window.1 t.window.2
    let uCache := r.uCache.fetch uKey uFetched
    let oCache := if t.symbol = "" then r.oCache else r.oCache.fetch oKey oFetched
    let oCandles := if t.symbol = "" then [] else oCache.candles oKey
    let oErrors := if t.symbol = "" then []
      else r.oCache.fetchErrors oKey oFetched ("option candles " ++ t.symbol)
    { r with
      uCache := uCache, oCache := oCache
      errors := r.errors ++
        r.uCache.fetchErrors uKey uFetched ("underlying candles " ++ uSym) ++ oErrors
      paths := r.paths ++ (analyzeTradePath host t (uCache.candles uKey) oCandles).toList }

/-- The trades of the study: those loaded, and those the exchange has besides. -/
def studiedTrades (parseTs : String → Except PyError DateTime) (loaded : List FilledTrade)
    (exSince : DateTime) (includeExchange : Bool) :
    Except PyError (List FilledTrade × List ListedOrder) :=
  if includeExchange then do
    let (exTrades, orphans) ← loadFilledTradesFromExchange parseTs rest exSince
    .ok (loaded ++ exTrades.filter (fun et => et.tradeId ∉ loaded.map FilledTrade.tradeId), orphans)
  else .ok (loaded, [])

/-- `build_optimization_report`, on the trades the database has. -/
def buildOptimizationReport (parseTs : String → Except PyError DateTime)
    (loaded : List FilledTrade) (exSince : DateTime) (includeExchange : Bool) :
    Except PyError OptimizationReport := do
  let (trades, orphans) ← studiedTrades rest parseTs loaded exSince includeExchange
  .ok (trades.foldl (OptimizationReport.trade host rest)
    { trades := trades, exchangeOrphans := orphans })

end Study

end OptionsBot
