import OptionsBot.Core.Chain
import OptionsBot.Lib.Clock
import OptionsBot.Lib.Memo
import OptionsBot.Lib.Python
import OptionsBot.Lib.Text

/-!
# The Post-Mortem of Directional Trades

The report holds each attempt against what the underlying did after it: the candle
nearest to the entry, the returns some bars later, and the furthest the price went
for and against the trade within two hours. A verdict reads the return after an
hour.

The candles of an attempt are those of a window around its entry. They are kept
under a key, and an attempt whose key is there already is given the candles kept.
The text of a key is the symbol and two dates of ten characters each, so it is taken
as the three themselves.

The exchange enters as the three requests the report makes of it. The host's clock
enters as its offset from UTC.

## Main definitions

* `CandleRow`, `ListedOrder`, `ListedPosition`, `DeltaRest`: The exchange.
* `TradeAttempt`, `dedupeAttempts`: What is analysed.
* `spotFavorable`: The verdict on a return.
* `nearestCandleIndex`, `analyzeMovement`: The analysis of an attempt.
* `fetchDeltaOrdersForTrade`: The orders of a trade.
* `buildReport`: The report.
-/

namespace OptionsBot

/-- A candle as the exchange sends it. A field that is not there is `none`. -/
structure CandleRow where
  time : Option ℚ := none
  close : Option ℚ := none
  high : Option ℚ := none
  low : Option ℚ := none
  deriving DecidableEq

/-- `_candle_time`. -/
def CandleRow.candleTime (c : CandleRow) : Int :=
  match c.time with
  | some t => truncate t
  | none => 0

/-- A `created_at` or `updated_at`, a number or a text. -/
inductive Stamp where
  | number (n : Int)
  | text (s : String)
  deriving DecidableEq

/-- An order as the exchange lists it. -/
structure ListedOrder where
  clientOrderId : Option String := none
  createdAt : Option Stamp := none
  updatedAt : Option Stamp := none
  filledSize : Option ℚ := none
  size : Option ℚ := none
  averageFillPrice : Option ℚ := none
  productSymbol : Option String := none
  deriving DecidableEq

/-- `str(o.get("client_order_id") or "")`. -/
def ListedOrder.coid (o : ListedOrder) : String := o.clientOrderId.getD ""

/-- A position as the exchange lists it. -/
structure ListedPosition where
  productSymbol : String
  size : Option ℚ := none

/-- The requests the reports make. One that fails carries the text of its
    `DeltaRestError`. -/
structure DeltaRest where
  getCandles : (symbol : String) → (start stop : Int) → Except String (List CandleRow)
  getPositions : Except String (List ListedPosition)
  getOrders : (state : Option String) → Except String (List ListedOrder)

/-- `UNDERLYING_CANDLE_SYMBOL`. -/
def underlyingCandleSymbol : List (String × String) := [("BTC", "BTCUSD"), ("ETH", "ETHUSD")]

/-- `FORWARD_BARS`. -/
def forwardBars : List Nat := [1, 2, 4, 8]

/-- A `TradeAttempt`, as far as the analysis reads it. An option type that is neither
    a call nor a put is `none`. -/
structure TradeAttempt where
  tradeId : Nat
  entryTs : DateTime
  underlying : String
  intendedSymbol : Option String := none
  optionType : Option OptionType := none
  spotAtSignal : Option ℚ := none
  deriving DecidableEq

inductive Verdict where
  | favorable
  | adverse
  | flat
  | unknown
  deriving DecidableEq, Repr

/-- `_spot_favorable`, under the name its first parameter has there. -/
def spotFavorable (optionType : Option OptionType) (retPct : ℚ) (flatBps : ℚ := 5) : Verdict :=
  match optionType with
  | none => .unknown
  | some kind =>
    -- The return is given as a fraction.
    if |retPct| * 100 < flatBps then .flat
    else
      match kind with
      | .call => if 0 < retPct then .favorable else .adverse
      | .put => if retPct < 0 then .favorable else .adverse

/-- A `MovementRow`. The two dictionaries by bars are in the order of the bars. -/
structure MovementRow where
  attempt : TradeAttempt
  entrySpot : ℚ
  spotAtBar : List (Nat × ℚ)
  retPctAtBar : List (Nat × ℚ)
  mfePct : ℚ
  maePct : ℚ
  verdict60m : Verdict
  deriving DecidableEq

section Requests

variable (host : DateTime → Int)

/-- `int(t.timestamp())`. -/
def intTimestamp (t : DateTime) : Int := truncate (t.timestamp (host t))

/-- `dedupe_attempts`: of the attempts on one underlying and symbol in a bucket of
    time, the one with the least id. -/
def dedupeAttempts (attempts : List TradeAttempt) (bucketMinutes : Int := 15) :
    List TradeAttempt :=
  let key := fun a : TradeAttempt =>
    (a.underlying, a.intendedSymbol.getD "", intTimestamp host a.entryTs / (bucketMinutes * 60))
  let seen := attempts.foldl (fun rows a =>
    Table.upsert key (key a) (fun kept =>
      match kept with
      | none => a
      | some b => if a.tradeId < b.tradeId then a else b) rows) []
  seen.insertionSort (fun a b => a.entryTs ≤ b.entryTs)

/-- `_fetch_candles`. -/
def fetchCandles (rest : DeltaRest) (symbol : String) (start stop : DateTime) :
    Except String (List CandleRow) := do
  let candles ← rest.getCandles symbol (intTimestamp host start) (intTimestamp host stop)
  .ok (candles.insertionSort (fun a b => a.candleTime ≤ b.candleTime))

/-- The first candle nearest to a time, with its index and distance, among those that
    follow `seen` candles. -/
def nearestFrom (target : Int) : (seen : Nat) → (best : Nat × Int) → List CandleRow → Nat × Int
  | _, best, [] => best
  | seen, best, c :: rest =>
    -- Of two candles as near, the earlier one stays.
    let d := |c.candleTime - target|
    nearestFrom target (seen + 1) (if d < best.2 then (seen, d) else best) rest

/-- `_nearest_candle_index`. -/
def nearestCandleIndex (candles : List CandleRow) (entryTs : DateTime) : Option Nat :=
  match candles with
  | [] => none
  | first :: _ =>
    let target := intTimestamp host entryTs
    some (nearestFrom target 0 (0, |first.candleTime - target|) candles).1

end Requests

/-- The accumulators of `analyze_movement`'s loop. -/
structure MovementPath where
  spotAtBar : List (Nat × ℚ) := []
  retAtBar : List (Nat × ℚ) := []
  mfe : ℚ := 0
  mae : ℚ := 0

/-- One bar of the loop, `barsFwd` bars after the entry. -/
def MovementPath.bar (optionType : Option OptionType) (entrySpot : ℚ) (path : MovementPath)
    (item : CandleRow × Nat) : MovementPath :=
  let barsFwd := item.2
  let close := orFloat item.1.close entrySpot
  let high := orFloat item.1.high close
  let low := orFloat item.1.low close
  let retHigh := (high - entrySpot) / entrySpot
  let retLow := (low - entrySpot) / entrySpot
  let recorded := barsFwd ∈ forwardBars
  { spotAtBar := if recorded then path.spotAtBar ++ [(barsFwd, close)] else path.spotAtBar
    retAtBar :=
      if recorded then path.retAtBar ++ [(barsFwd, (close - entrySpot) / entrySpot)]
      else path.retAtBar
    mfe := match optionType with
      | some .call => max path.mfe retHigh
      | some .put => max path.mfe (-retLow)
      | none => max (max path.mfe |retHigh|) |retLow|
    mae := match optionType with
      | some .call => min path.mae retLow
      | some .put => min path.mae (-retHigh)
      | none => path.mae }

/-- The bars after the entry bar the loop goes through, with their distance from it. -/
def followingBars (candles : List CandleRow) (idx : Nat) : List (CandleRow × Nat) :=
  ((candles.drop (idx + 1)).take (forwardBars.foldl max 0)).zipIdx 1

/-- The entry price of an attempt: the spot of its signal, or the close nearest to it. -/
def entrySpotOf (host : DateTime → Int) (spotAtSignal : Option ℚ) (candles : List CandleRow)
    (entryTs : DateTime) : Option ℚ :=
  match spotAtSignal with
  | some spot => if spot ≤ 0 then fallback else some spot
  | none => fallback
where
  /-- The close of the nearest candle. -/
  fallback : Option ℚ :=
    (nearestCandleIndex host candles entryTs).bind (fun idx =>
      candles[idx]?.map (fun c => orFloat c.close 0))

def analyzeMovement (host : DateTime → Int) (attempt : TradeAttempt) (candles : List CandleRow) :
    Option MovementRow := do
  let entrySpot ← entrySpotOf host attempt.spotAtSignal candles attempt.entryTs
  if entrySpot ≤ 0 then none
  else
    let idx ← nearestCandleIndex host candles attempt.entryTs
    -- An hour is four bars; without a fourth one the return counts as zero.
    let path := (followingBars candles idx).foldl
      (MovementPath.bar attempt.optionType entrySpot) {}
    some
      { attempt := attempt, entrySpot := entrySpot, spotAtBar := path.spotAtBar,
        retPctAtBar := path.retAtBar, mfePct := path.mfe * 100, maePct := path.mae * 100,
        verdict60m := spotFavorable attempt.optionType ((path.retAtBar.lookup 4).getD 0) }

/-- The test `fetch_delta_orders_for_trade` puts to an order. -/
def isOrderOfTrade (tradeId : Nat) (coid : String) : Bool :=
  Text.startsWith "dr-" coid && Text.occursIn ("-" ++ toString tradeId ++ "-") coid

/-- `fetch_delta_orders_for_trade`: three listings, and one that fails is left out. -/
def fetchDeltaOrdersForTrade (rest : DeltaRest) (tradeId : Nat) : List ListedOrder :=
  [some "open", some "closed", none].flatMap (fun state =>
    match rest.getOrders state with
    | .error _ => []
    | .ok rows => rows.filter (fun o => isOrderOfTrade tradeId o.coid))

/-- The key candles are kept under. -/
abbrev CandleKey := String × Int × Int

abbrev CandleStore := List (CandleKey × List CandleRow)

/-- `if key not in cache: ...`: the candles fetched are kept, and none if the request
    failed. -/
def CandleStore.fetch (cache : CandleStore) (key : CandleKey)
    (fetched : Except String (List CandleRow)) : CandleStore :=
  Memo.keep key (fetched.toOption.getD []) cache

/-- The error of a request that failed, if it was made. -/
def CandleStore.fetchErrors (cache : CandleStore) (key : CandleKey)
    (fetched : Except String (List CandleRow)) (label : String) : List String :=
  match Memo.entry key cache, fetched with
  | none, .error e => [label ++ ": " ++ e]
  | _, _ => []

/-- `cache[key]`. -/
def CandleStore.candles (cache : CandleStore) (key : CandleKey) : List CandleRow :=
  (Memo.entry key cache).getD []

/-- The window of an attempt, from two hours before its entry to three after. -/
def TradeAttempt.window (a : TradeAttempt) : DateTime × DateTime :=
  (a.entryTs.shift (-2 * microsPerHour), a.entryTs.shift (3 * microsPerHour))

def TradeAttempt.cacheKey (a : TradeAttempt) (sym : String) : CandleKey :=
  (sym, a.window.1.date, a.window.2.date)

/-- A `PostmortemReport`, and the cache while it is built. -/
structure PostmortemReport where
  attemptsLoaded : Nat := 0
  movementRows : List MovementRow := []
  exchangeOrders : List (Nat × List ListedOrder) := []
  positions : List ListedPosition := []
  errors : List String := []
  candleCache : CandleStore := []

def PostmortemReport.attemptsAnalyzed (r : PostmortemReport) : Nat := r.movementRows.length

section Report

variable (host : DateTime → Int) (rest : DeltaRest) (fetchExchange : Bool)

/-- One attempt of `build_report`'s loop. Listing the orders of a trade raises
    nothing. -/
def PostmortemReport.attempt (r : PostmortemReport) (a : TradeAttempt) : PostmortemReport :=
  match underlyingCandleSymbol.lookup a.underlying with
  | none =>
    { r with errors := r.errors ++
        ["trade " ++ toString a.tradeId ++ ": unknown underlying " ++ a.underlying] }
  | some sym =>
    -- The key has only the dates of the window's ends.
    let key := a.cacheKey sym
    let fetched := fetchCandles host rest sym a.window.1 a.window.2
    let cache := r.candleCache.fetch key fetched
    let orders :=
      if fetchExchange ∧ 1000 ≤ a.tradeId then fetchDeltaOrdersForTrade rest a.tradeId else []
    { r with
      candleCache := cache
      errors := r.errors ++ r.candleCache.fetchErrors key fetched ("candles " ++ sym)
      movementRows := r.movementRows ++ (analyzeMovement host a (cache.candles key)).toList
      exchangeOrders :=
        if orders.isEmpty then r.exchangeOrders
        else Table.upsert Prod.fst a.tradeId (fun _ => (a.tradeId, orders)) r.exchangeOrders }

/-- The open positions, or the error of the request. -/
def positionsReport : PostmortemReport :=
  if fetchExchange then
    match rest.getPositions with
    | .error e => { errors := ["get_positions: " ++ e] }
    | .ok rows => { positions := rows.filter (fun p => orFloat p.size 0 ≠ 0) }
  else {}

/-- The attempts a report is about, the latest of those loaded. -/
def sampledAttempts (loaded : List TradeAttempt) (dedupe : Bool) (maxSamples : Int) :
    List TradeAttempt :=
  let attempts := if dedupe then dedupeAttempts host loaded else loaded
  if 0 < maxSamples ∧ maxSamples < attempts.length then sliceFrom attempts (-maxSamples)
  else attempts

/-- `build_report`, on the attempts the database has. -/
def buildReport (loaded : List TradeAttempt) (dedupe : Bool := true) (maxSamples : Int := 40) :
    PostmortemReport :=
  let attempts := sampledAttempts host loaded dedupe maxSamples
  attempts.foldl (PostmortemReport.attempt host rest fetchExchange)
    { positionsReport rest fetchExchange with attemptsLoaded := attempts.length }

end Report

end OptionsBot
