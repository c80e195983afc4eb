import OptionsBot.Core.Candles

/-!
# The Trend Signal on Arrays

The breakout signal as its own module computes it, on three arrays of closes,
highs and lows, with the true ranges read off them by index. The directional
strategy carries a copy of the same steps on its candles. Over the arrays of some
candles the two compute the same.

## Main definitions

* `trueRange`, `atrArray`: The average true range of three arrays.
* `trendBreakout`: The two setups with their features.

## Theorems

* `atrArray_candles`: Over candles it is the average true range of the candles.
* `trendBreakout_candles`: So is the signal.
-/

namespace OptionsBot

/-- The true range of a bar, which has no close before it in the first one. -/
def trueRange (highs lows closes : List ℚ) (i : Nat) : Except PyError ℚ := do
  let high ← index highs i
  let low ← index lows i
  if i = 0 then .ok (high - low)
  else
    let prev ← index closes (i - 1 : Nat)
    .ok (max (max (high - low) |high - prev|) |low - prev|)

/-- `atr` on the three arrays. -/
def atrArray (highs lows closes : List ℚ) (period : Int) : Except PyError (List (Option ℚ)) :=
  if period ≤ 0 then .error (.valueError ("atr period must be > 0, got " ++ toString period))
  else
    let n := closes.length
    if n = 0 then .ok []
    else
      match (List.range n).mapM (trueRange highs lows closes) with
      | .error e => .error e
      | .ok tr =>
        let p := period.toNat
        if n < p then .ok (List.replicate n none)
        else
          let first := (tr.take p).sum / p
          .ok (List.replicate (p - 1) none ++
            some first :: (wilderFrom p first (tr.drop p)).map some)

/-- `evaluate_trend_breakout`: whether to go long, whether to go short, and the
    features. -/
def trendBreakout (closes highs lows : List ℚ) (entry : DirectionalEntry) :
    Except PyError (Bool × Bool × Features) :=
  if (closes.length : Int) < entry.minBars then
    .ok (false, false,
      [("error", .text "insufficient_history"), ("n_candles", .num (some closes.length))])
  else do
    let emaFast ← ema closes entry.emaFast
    let emaSlow ← ema closes entry.emaSlow
    let atrSeries ← atrArray highs lows closes entry.atrPeriod
    match ← last atrSeries with
    | none => .ok (false, false, [("error", .text "atr_not_ready")])
    | some latestAtr =>
      let latestClose ← last closes
      let fast ← last emaFast
      let slow ← last emaSlow
      let emaSep := fast - slow
      let threshold := entry.breakoutAtrMult * latestAtr
      let priorHigh ← maximum (slice highs (-(entry.priorBars + 1)) (-1))
      let priorLow ← minimum (slice lows (-(entry.priorBars + 1)) (-1))
      let longSetup : Bool := threshold < emaSep ∧ priorHigh + threshold < latestClose
      let shortSetup : Bool := emaSep < -threshold ∧ latestClose < priorLow - threshold
      .ok (longSetup, shortSetup,
        [("latest_close", .num (some latestClose)), ("ema_fast", .num (some fast)),
          ("ema_slow", .num (some slow)), ("ema_sep", .num (some emaSep)),
          ("atr", .num (some latestAtr)), ("threshold", .num (some threshold)),
          ("prior_high", .num (some priorHigh)), ("prior_low", .num (some priorLow)),
          ("long_setup", .flag longSetup), ("short_setup", .flag shortSetup)])

/-- The signal of some candles, as the arrays' signal returns it. -/
def TrendSignal.returned : TrendSignal → Bool × Bool × Features
  | .error _ features => (false, false, features)
  | .levels l => (l.longSetup, l.shortSetup, List.append l.features
      [("long_setup", .flag l.longSetup), ("short_setup", .flag l.shortSetup)])

theorem trueRanges_length (prev : Option ℚ) (candles : List Candle) :
    (trueRanges prev candles).length = candles.length := by
  induction candles generalizing prev with
  | nil => rfl
  | cons c rest ih => simp only [trueRanges, List.length_cons, ih]

/-- The true range of a later bar takes the close before it. -/
theorem trueRanges_succ (prev : Option ℚ) (candles : List Candle) (i : Nat)
    (h : i + 1 < candles.length) :
    (trueRanges prev candles)[i + 1]? =
      some (max (max (candles[i + 1].high - candles[i + 1].low)
        |candles[i + 1].high - candles[i].close|) |candles[i + 1].low - candles[i].close|) := by
  induction candles generalizing prev i with
  | nil => exact absurd h (Nat.not_lt_zero _)
  | cons c rest ih =>
      cases i with
      | zero =>
          cases rest with
          | nil => exact absurd h (lt_irrefl 1)
          | cons d rest => rfl
      | succ j => exact ih (some c.close) j (Nat.lt_of_succ_lt_succ h)

theorem index_map {α β : Type} (f : α → β) (xs : List α) (i : Nat) (h : i < xs.length) :
    index (xs.map f) i = .ok (f xs[i]) := by
  have hlt : i < (xs.map f).length := by
    rw [List.length_map]
    exact h
  unfold index
  rw [if_neg (by omega), Int.toNat_natCast, List.getElem?_eq_getElem hlt, List.getElem_map]

/-- Read off the arrays by index, the true ranges are those of the candles. -/
theorem mapM_trueRange (candles : List Candle) :
    (List.range candles.length).mapM (trueRange (candles.map Candle.high)
      (candles.map Candle.low) (candles.map Candle.close)) = .ok (trueRanges none candles) := by
  rw [mapM_ok_iff, List.forall₂_iff_get]
  -- Bar by bar: the first has no close before it, and the others do.
  refine ⟨by rw [List.length_range, trueRanges_length], fun i hi hr => ?_⟩
  rw [List.length_range] at hi
  rw [List.get_eq_getElem, List.get_eq_getElem, List.getElem_range]
  unfold trueRange
  cases i with
  | zero =>
      rw [index_map Candle.high candles 0 hi, index_map Candle.low candles 0 hi]
      cases candles with
      | nil => exact absurd hi (lt_irrefl 0)
      | cons c rest => rfl
  | succ j =>
      have hrange := trueRanges_succ none candles j hi
      rw [List.getElem?_eq_getElem hr, Option.some.injEq] at hrange
      rw [index_map Candle.high candles (j + 1) hi, index_map Candle.low candles (j + 1) hi,
        hrange]
      simp only [bind, Except.bind, Nat.add_sub_cancel, Nat.succ_ne_zero, if_false]
      rw [index_map Candle.close candles j (Nat.lt_of_succ_lt hi)]

theorem atrArray_candles (candles : List Candle) (period : Int) :
    atrArray (candles.map Candle.high) (candles.map Candle.low) (candles.map Candle.close)
      period = atr candles period := by
  unfold atrArray atr
  simp only [List.length_map, mapM_trueRange, trueRanges_length]
  by_cases hperiod : period ≤ 0
  · rw [if_pos hperiod, if_pos hperiod]
  · rw [if_neg hperiod, if_neg hperiod]
    by_cases hempty : candles.length = 0
    · -- No bar is fewer than the period, and nothing is replicated.
      rw [if_pos hempty, hempty, if_pos (by omega)]
      rfl
    · rw [if_neg hempty]

/-- Over the arrays of some candles, the signal is the one computed on them. -/
theorem trendBreakout_candles (candles : List Candle) (entry : DirectionalEntry) :
    trendBreakout (candles.map Candle.close) (candles.map Candle.high) (candles.map Candle.low)
      entry = (evaluateTrendBreakout candles entry).map TrendSignal.returned := by
  unfold trendBreakout evaluateTrendBreakout
  rw [List.length_map]
  split_ifs with hbars
  · rfl
  · -- The same steps in the same order: each raises in both or in neither.
    unfold trendLevels
    simp only [bind, Except.bind, atrArray_candles]
    rcases ema (candles.map Candle.close) entry.emaFast with e | fastSeries
    · rfl
    rcases ema (candles.map Candle.close) entry.emaSlow with e | slowSeries
    · rfl
    rcases atr candles entry.atrPeriod with e | atrSeries
    · rfl
    simp only
    rcases last atrSeries with e | ⟨_ | latestAtr⟩
    · rfl
    · rfl
    simp only
    rcases last (candles.map Candle.close) with e | latestClose
    · rfl
    rcases last fastSeries with e | fast
    · rfl
    rcases last slowSeries with e | slow
    · rfl
    rcases maximum (slice (candles.map Candle.high) (-(entry.priorBars + 1)) (-1)) with
      e | priorHigh
    · rfl
    rcases minimum (slice (candles.map Candle.low) (-(entry.priorBars + 1)) (-1)) with
      e | priorLow
    · rfl
    rfl

end OptionsBot
