import OptionsBot.Core.Strategy

/-!
# Indicators and the Trend Signal

Moving average, average true range, Bollinger width and percentile rank over a
list of candles, and the breakout signal two strategies share. An array of
floats is a list of rationals, and a NaN entry is `none`.

The standard deviation is not rational. It enters as a parameter, and nothing
proved later depends on what it is.

## Main definitions

* `ema`, `atr`, `bollingerWidth`, `percentileRank`: The indicators.
* `minBars`: The history the trend signal needs.
* `trendLevels`: The levels of the trend signal.
* `evaluateTrendBreakout`: The signal with its error reasons.
-/

namespace OptionsBot

/-- The mean of an array, NaN if it is empty. -/
def mean (xs : List ℚ) : Option ℚ := if xs = [] then none else some (xs.sum / xs.length)

/-- `xs.max()`, which raises on an empty array. -/
def maximum (xs : List ℚ) : Except PyError ℚ :=
  match xs with
  | [] => .error (.valueError "zero-size array to reduction operation maximum which has no identity")
  | x :: rest => .ok (rest.foldl max x)

/-- `xs.min()`, which raises on an empty array. -/
def minimum (xs : List ℚ) : Except PyError ℚ :=
  match xs with
  | [] => .error (.valueError "zero-size array to reduction operation minimum which has no identity")
  | x :: rest => .ok (rest.foldl min x)

/-- The averages after one of value `prev`. -/
def emaFrom (alpha prev : ℚ) : List ℚ → List ℚ
  | [] => []
  | v :: rest =>
    let next := alpha * v + (1 - alpha) * prev
    next :: emaFrom alpha next rest

def ema (values : List ℚ) (period : Int) : Except PyError (List ℚ) :=
  if period ≤ 0 then .error (.valueError ("ema period must be > 0, got " ++ toString period))
  else
    match values with
    | [] => .ok []
    | v :: rest => .ok (v :: emaFrom (2 / (period + 1)) v rest)

/-- The true ranges of candles that follow a close, if any. -/
def trueRanges (prevClose : Option ℚ) : List Candle → List ℚ
  | [] => []
  | c :: rest =>
    let range := match prevClose with
      | none => c.high - c.low
      | some p => max (max (c.high - c.low) |c.high - p|) |c.low - p|
    range :: trueRanges (some c.close) rest

/-- Wilder's averages after one of value `prev`. -/
def wilderFrom (period prev : ℚ) : List ℚ → List ℚ
  | [] => []
  | tr :: rest =>
    let next := (prev * (period - 1) + tr) / period
    next :: wilderFrom period next rest

/-- The average true range, NaN for the first `period - 1` bars. -/
def atr (candles : List Candle) (period : Int) : Except PyError (List (Option ℚ)) :=
  if period ≤ 0 then .error (.valueError ("atr period must be > 0, got " ++ toString period))
  else
    let p := period.toNat
    let tr := trueRanges none candles
    if tr.length < p then .ok (List.replicate tr.length none)
    else
      let first := (tr.take p).sum / p
      .ok (List.replicate (p - 1) none ++ some first :: (wilderFrom p first (tr.drop p)).map some)

/-- The width of the Bollinger bands, NaN where the mean is zero and for the
    first `period - 1` values. -/
def bollingerWidth (npStd : List ℚ → ℚ) (values : List ℚ) (period : Int) (std : ℚ) :
    Except PyError (List (Option ℚ)) :=
  if period ≤ 0 then .error (.valueError ("bollinger period must be > 0, got " ++ toString period))
  else
    let p := period.toNat
    .ok ((List.range values.length).map (fun i =>
      if i + 1 < p then none
      else
        let window := (values.take (i + 1)).drop (i + 1 - p)
        let mid := window.sum / p
        if mid = 0 then none else some (2 * std * npStd window / mid)))

/-- The mid-rank percentile of a value, NaN for no history. A NaN value is
    neither below nor equal to anything. -/
def percentileRank (value : Option ℚ) (history : List ℚ) : Option ℚ :=
  if history = [] then none
  else
    match value with
    | none => some 0
    | some v =>
      let less := (history.filter (fun h => decide (h < v))).length
      let equal := (history.filter (fun h => decide (h = v))).length
      some ((less + equal / 2) / history.length)

def DirectionalEntry.minBars (entry : DirectionalEntry) : Int :=
  max entry.emaSlow (max (entry.atrPeriod + 1) (entry.priorBars + 2))

/-- The levels of the trend signal on the latest candle. -/
structure TrendLevels where
  latestClose : ℚ
  emaFast : ℚ
  emaSlow : ℚ
  emaSep : ℚ
  atr : ℚ
  threshold : ℚ
  priorHigh : ℚ
  priorLow : ℚ
  longSetup : Bool
  shortSetup : Bool

/-- The features of the levels, without the two setups. -/
def TrendLevels.features (l : TrendLevels) : Features :=
  [("latest_close", .num (some l.latestClose)), ("ema_fast", .num (some l.emaFast)),
    ("ema_slow", .num (some l.emaSlow)), ("ema_sep", .num (some l.emaSep)),
    ("atr", .num (some l.atr)), ("threshold", .num (some l.threshold)),
    ("prior_high", .num (some l.priorHigh)), ("prior_low", .num (some l.priorLow))]

/-- The levels of a history, `none` while the average true range is NaN. -/
def trendLevels (candles : List Candle) (entry : DirectionalEntry) :
    Except PyError (Option TrendLevels) := do
  let closes := candles.map Candle.close
  let emaFast ← ema closes entry.emaFast
  let emaSlow ← ema closes entry.emaSlow
  let atrSeries ← atr candles entry.atrPeriod
  match ← last atrSeries with
  | none => .ok none
  | some latestAtr =>
    let latestClose ← last closes
    let fast ← last emaFast
    let slow ← last emaSlow
    let threshold := entry.breakoutAtrMult * latestAtr
    let priorHigh ← maximum (slice (candles.map Candle.high) (-(entry.priorBars + 1)) (-1))
    let priorLow ← minimum (slice (candles.map Candle.low) (-(entry.priorBars + 1)) (-1))
    let emaSep := fast - slow
    .ok (some
      { latestClose := latestClose, emaFast := fast, emaSlow := slow, emaSep := emaSep,
        atr := latestAtr, threshold := threshold, priorHigh := priorHigh, priorLow := priorLow,
        longSetup := threshold < emaSep ∧ priorHigh + threshold < latestClose,
        shortSetup := emaSep < -threshold ∧ latestClose < priorLow - threshold })

/-- The outcome of `evaluate_trend_breakout`: an error reason with its features,
    or the levels. -/
inductive TrendSignal where
  | error (reason : StrategyReason) (features : Features)
  | levels (l : TrendLevels)

def evaluateTrendBreakout (candles : List Candle) (entry : DirectionalEntry) :
    Except PyError TrendSignal :=
  if (candles.length : Int) < entry.minBars then
    .ok (.error .insufficientHistory
      [("error", .text "insufficient_history"), ("n_candles", .num (some candles.length))])
  else
    match trendLevels candles entry with
    | .error e => .error e
    | .ok none => .ok (.error .atrNotReady [("error", .text "atr_not_ready")])
    | .ok (some l) => .ok (.levels l)

end OptionsBot
