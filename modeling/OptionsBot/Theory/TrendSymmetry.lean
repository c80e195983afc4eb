import Mathlib.Algebra.BigOperators.Ring.List
import Mathlib.Algebra.Order.BigOperators.Group.List
import OptionsBot.Core.Directional
import OptionsBot.Core.TrendSignal
import OptionsBot.Lib.Smoothing
import OptionsBot.Theory.EntryTime

/-!
# The Symmetries of the Trend Signal

The signal compares two running averages with each other and the last close with
the extremes of the bars before it, both against a multiple of the average true
range. Moving all prices by an affine map moves the averages and the extremes
along and scales the true ranges by the size of the factor. So a positive factor
changes nothing, and a reflection makes a breakout upwards one downwards.

Both setups at once would need a negative threshold, and true ranges are not
negative.

## Main definitions

* `Candle.rescale`, `Candle.reflect`: A candle at moved and at mirrored prices.
* `Moves`: What a move of the prices does to a candle.
* `LevelsOf`: The levels of a series, one by one.
* `trendSetups`: The two setups of a series.
* `Inlined`: The directional strategy acts on two setups.

## Theorems

* `ema_move`, `trueRanges_move`, `atr_move`: The indicators of moved candles.
* `latestAtr_ready`: The average true range is there, and not negative.
* `levelsOf_ready`: So are the levels.
* `LevelsOf.rescale`, `LevelsOf.reflect`: The levels of moved candles.
* `LevelsOf.exclusive`: Not both setups at once.
* `trend_symmetries`: The symmetries of the setups.
-/

namespace OptionsBot

-- The sample runs below compute with rationals.
attribute [local semireducible] Rat.add Rat.sub Rat.mul Rat.inv

/-- A candle with its prices multiplied by `k` and raised by `c`. -/
def Candle.rescale (k c : ℚ) (bar : Candle) : Candle :=
  { high := k * bar.high + c, low := k * bar.low + c, close := k * bar.close + c }

/-- A candle with each price `p` replaced by `c - p`: the high becomes the low. -/
def Candle.reflect (c : ℚ) (bar : Candle) : Candle :=
  { high := c - bar.low, low := c - bar.high, close := c - bar.close }

/-- A candle's prices move by `p ↦ a * p + b`: its close does, its range and its
    distances from a price scale by the size of `a`. -/
structure Moves (a b : ℚ) (move : Candle → Candle) : Prop where
  close : ∀ bar, (move bar).close = a * bar.close + b
  range : ∀ bar, (move bar).high - (move bar).low = |a| * (bar.high - bar.low)
  reach : ∀ bar p, max |(move bar).high - (a * p + b)| |(move bar).low - (a * p + b)| =
    |a| * max |bar.high - p| |bar.low - p|

theorem rescale_moves (k c : ℚ) (hk : 0 < k) : Moves k c (Candle.rescale k c) := by
  refine ⟨fun _ => rfl, fun bar => ?_, fun bar p => ?_⟩
  · rw [Candle.rescale, abs_of_pos hk]
    ring
  · have hhigh : k * bar.high + c - (k * p + c) = k * (bar.high - p) := by ring
    have hlow : k * bar.low + c - (k * p + c) = k * (bar.low - p) := by ring
    simp only [Candle.rescale]
    rw [hhigh, hlow, abs_mul, abs_mul, mul_max_of_nonneg _ _ (abs_nonneg k)]

theorem reflect_moves (c : ℚ) : Moves (-1) c (Candle.reflect c) := by
  have hone : |(-1 : ℚ)| = 1 := by norm_num
  refine ⟨fun bar => ?_, fun bar => ?_, fun bar p => ?_⟩
  · rw [Candle.reflect]
    ring
  · rw [Candle.reflect, hone]
    ring
  · -- The reflected high is measured where the low was.
    have hhigh : c - bar.low - (-1 * p + c) = -(bar.low - p) := by ring
    have hlow : c - bar.high - (-1 * p + c) = -(bar.high - p) := by ring
    simp only [Candle.reflect]
    rw [hhigh, hlow, abs_neg, abs_neg, hone, one_mul, max_comm]

theorem emaFrom_eq (alpha prev : ℚ) (values : List ℚ) :
    emaFrom alpha prev values = Smoothing.smooth alpha prev values := by
  induction values generalizing prev with
  | nil => rfl
  | cons v rest ih => rw [emaFrom, Smoothing.smooth, ih]

/-- Wilder's average counts each value for one part in the period. -/
theorem wilderFrom_eq (period prev : ℚ) (values : List ℚ) (h : period ≠ 0) :
    wilderFrom period prev values = Smoothing.smooth (1 / period) prev values := by
  induction values generalizing prev with
  | nil => rfl
  | cons v rest ih =>
      have hnext : (prev * (period - 1) + v) / period =
          1 / period * v + (1 - 1 / period) * prev := by
        field_simp
        ring
      rw [wilderFrom, Smoothing.smooth, hnext, ih]

theorem ema_move (a b : ℚ) (values series : List ℚ) (period : Int)
    (h : ema values period = .ok series) :
    ema (values.map (fun v => a * v + b)) period = .ok (series.map (fun v => a * v + b)) := by
  unfold ema at h ⊢
  split_ifs at h ⊢ with hperiod
  cases values with
  | nil =>
      cases h
      rfl
  | cons v rest =>
      cases h
      rw [List.map_cons, List.map_cons]
      simp only [emaFrom_eq, Smoothing.smooth_affine]

theorem trueRanges_move (a b : ℚ) (move : Candle → Candle) (hmove : Moves a b move)
    (prev : Option ℚ) (candles : List Candle) :
    trueRanges (prev.map (fun p => a * p + b)) (candles.map move) =
      (trueRanges prev candles).map (fun r => |a| * r) := by
  -- The close that the next bar is measured from moves along with the bars.
  induction candles generalizing prev with
  | nil => rfl
  | cons bar rest ih =>
      have htail := ih (some bar.close)
      rw [Option.map_some, ← hmove.close bar] at htail
      simp only [List.map_cons, trueRanges, htail]
      cases prev with
      | none =>
          simp only [Option.map_none, List.cons.injEq, and_true]
          exact hmove.range bar
      | some p =>
          simp only [Option.map_some, List.cons.injEq, and_true]
          rw [max_assoc, max_assoc, hmove.range, hmove.reach,
            ← mul_max_of_nonneg _ _ (abs_nonneg a)]

/-- The average true range scales by the size of the factor. -/
theorem atr_move (a b : ℚ) (move : Candle → Candle) (hmove : Moves a b move)
    (candles : List Candle) (period : Int) (series : List (Option ℚ))
    (h : atr candles period = .ok series) :
    atr (candles.map move) period = .ok (series.map (Option.map (fun r => |a| * r))) := by
  have hranges := trueRanges_move a b move hmove none candles
  rw [Option.map_none] at hranges
  unfold atr at h ⊢
  rw [hranges]
  by_cases hperiod : period ≤ 0
  · rw [if_pos hperiod] at h
    cases h
  · rw [if_neg hperiod] at h ⊢
    simp only [List.length_map] at h ⊢
    have hp : (period.toNat : ℚ) ≠ 0 := by
      have hpos : period.toNat ≠ 0 := by omega
      exact_mod_cast hpos
    by_cases hshort : (trueRanges none candles).length < period.toNat
    · rw [if_pos hshort] at h ⊢
      cases h
      rw [List.map_replicate]
      rfl
    · rw [if_neg hshort] at h ⊢
      cases h
      -- The first average is a mean, and the rest are smoothed from it.
      have hfirst : (((trueRanges none candles).map (fun r => |a| * r)).take period.toNat).sum /
          (period.toNat : ℚ) =
          |a| * (((trueRanges none candles).take period.toNat).sum / (period.toNat : ℚ)) := by
        rw [← List.map_take, List.sum_map_mul_left, List.map_id', mul_div_assoc]
      rw [hfirst, ← List.map_drop, wilderFrom_eq _ _ _ hp, wilderFrom_eq _ _ _ hp,
        Smoothing.smooth_scale, List.map_append, List.map_replicate, List.map_cons, List.map_map,
        List.map_map]
      rfl

theorem trueRanges_nonneg (prev : Option ℚ) (candles : List Candle)
    (h : ∀ bar ∈ candles, bar.low ≤ bar.high) : ∀ r ∈ trueRanges prev candles, 0 ≤ r := by
  induction candles generalizing prev with
  | nil => exact fun r hr => absurd hr List.not_mem_nil
  | cons bar rest ih =>
      have hbar : 0 ≤ bar.high - bar.low := sub_nonneg.mpr (h bar List.mem_cons_self)
      intro r hr
      rcases List.mem_cons.mp hr with heq | hin
      · rw [heq]
        cases prev with
        | none => exact hbar
        | some p => exact hbar.trans ((le_max_left _ _).trans (le_max_left _ _))
      · exact ih _ (fun b hb => h b (List.mem_cons_of_mem bar hb)) r hin

theorem last_map {α β : Type} (f : α → β) (xs : List α) (x : α) (h : last xs = .ok x) :
    last (xs.map f) = .ok (f x) := by
  unfold last at h ⊢
  rw [List.getLast?_map]
  cases hx : xs.getLast? with
  | none =>
      rw [hx] at h
      cases h
  | some y =>
      rw [hx] at h
      cases h
      rfl

theorem slice_map {α β : Type} (f : α → β) (xs : List α) (start stop : Int) :
    slice (xs.map f) start stop = (slice xs start stop).map f := by
  rw [slice, slice, List.length_map, ← List.map_take, ← List.map_drop]

section Extrema

variable {f : ℚ → ℚ} {xs : List ℚ} {x : ℚ}

theorem maximum_monotone (hf : Monotone f) (h : maximum xs = .ok x) :
    maximum (xs.map f) = .ok (f x) := by
  cases xs with
  | nil => cases h
  | cons y rest =>
      cases h
      exact congrArg Except.ok (Smoothing.foldl_max_monotone f hf y rest)

theorem minimum_monotone (hf : Monotone f) (h : minimum xs = .ok x) :
    minimum (xs.map f) = .ok (f x) := by
  cases xs with
  | nil => cases h
  | cons y rest =>
      cases h
      exact congrArg Except.ok (Smoothing.foldl_min_monotone f hf y rest)

theorem maximum_antitone (hf : Antitone f) (h : minimum xs = .ok x) :
    maximum (xs.map f) = .ok (f x) := by
  cases xs with
  | nil => cases h
  | cons y rest =>
      cases h
      exact congrArg Except.ok (Smoothing.foldl_max_antitone f hf y rest)

theorem minimum_antitone (hf : Antitone f) (h : maximum xs = .ok x) :
    minimum (xs.map f) = .ok (f x) := by
  cases xs with
  | nil => cases h
  | cons y rest =>
      cases h
      exact congrArg Except.ok (Smoothing.foldl_min_antitone f hf y rest)

end Extrema

/-- The latest average of the closes, as the signal reads it. -/
def latestEma (candles : List Candle) (period : Int) : Except PyError ℚ :=
  (ema (candles.map Candle.close) period).bind last

/-- The latest average true range, NaN while it is not ready. -/
def latestAtr (candles : List Candle) (period : Int) : Except PyError (Option ℚ) :=
  (atr candles period).bind last

theorem latestEma_move (a b : ℚ) (move : Candle → Candle) (hmove : Moves a b move)
    (candles : List Candle) (period : Int) (x : ℚ) (h : latestEma candles period = .ok x) :
    latestEma (candles.map move) period = .ok (a * x + b) := by
  have hcloses : (candles.map move).map Candle.close =
      (candles.map Candle.close).map (fun v => a * v + b) := by
    rw [List.map_map, List.map_map]
    exact List.map_congr_left (fun bar _ => hmove.close bar)
  unfold latestEma at h ⊢
  cases hema : ema (candles.map Candle.close) period with
  | error e =>
      rw [hema] at h
      cases h
  | ok series =>
      rw [hema] at h
      rw [hcloses, ema_move a b _ series period hema]
      exact last_map _ _ _ h

theorem latestAtr_move (a b : ℚ) (move : Candle → Candle) (hmove : Moves a b move)
    (candles : List Candle) (period : Int) (x : ℚ)
    (h : latestAtr candles period = .ok (some x)) :
    latestAtr (candles.map move) period = .ok (some (|a| * x)) := by
  unfold latestAtr at h ⊢
  cases hatr : atr candles period with
  | error e =>
      rw [hatr] at h
      cases h
  | ok series =>
      rw [hatr] at h
      rw [atr_move a b move hmove candles period series hatr]
      exact last_map _ _ _ h

theorem latestEma_ready (candles : List Candle) (period : Int) (hperiod : 0 < period)
    (h : candles ≠ []) : ∃ x, latestEma candles period = .ok x := by
  cases candles with
  | nil => exact absurd rfl h
  | cons bar rest =>
      unfold latestEma ema
      rw [if_neg (not_le.mpr hperiod)]
      rcases last_ready (bar.close :: emaFrom (2 / (period + 1)) bar.close
        (rest.map Candle.close)) (List.cons_ne_nil _ _) with ⟨x, _, hx⟩
      exact ⟨x, hx⟩

/-- With as many bars as its period, the average true range is there. It is an
    average of true ranges, so it is not negative. -/
theorem latestAtr_ready (candles : List Candle) (period : Int) (hperiod : 0 < period)
    (hlength : period ≤ candles.length) (hbars : ∀ bar ∈ candles, bar.low ≤ bar.high) :
    ∃ x, latestAtr candles period = .ok (some x) ∧ 0 ≤ x := by
  have hranges := trueRanges_nonneg none candles hbars
  have hp : (0 : ℚ) < period.toNat := by
    have hpos : 0 < period.toNat := by omega
    exact_mod_cast hpos
  have hone : (1 : ℚ) ≤ period.toNat := by
    have hpos : 1 ≤ period.toNat := by omega
    exact_mod_cast hpos
  have hlong : ¬ (trueRanges none candles).length < period.toNat := by
    rw [trueRanges_length]
    omega
  have hfirst : 0 ≤ ((trueRanges none candles).take period.toNat).sum / (period.toNat : ℚ) :=
    div_nonneg (List.sum_nonneg (fun r hr => hranges r (List.mem_of_mem_take hr))) hp.le
  unfold latestAtr atr
  rw [if_neg (not_le.mpr hperiod)]
  simp only [if_neg hlong, wilderFrom_eq _ _ _ hp.ne']
  generalize ((trueRanges none candles).take period.toNat).sum / (period.toNat : ℚ) = first
    at hfirst
  -- The last entry is the last average, whatever stands before the averages.
  rcases last_ready (first :: Smoothing.smooth (1 / (period.toNat : ℚ)) first
    ((trueRanges none candles).drop period.toNat)) (List.cons_ne_nil _ _) with ⟨x, hmem, hx⟩
  refine ⟨x, ?_, ?_⟩
  · have hmap := last_map some _ x hx
    rw [Except.bind, last, List.getLast?_append, ← List.map_cons]
    unfold last at hmap
    cases hlast : (List.map some (first :: Smoothing.smooth (1 / (period.toNat : ℚ)) first
        ((trueRanges none candles).drop period.toNat))).getLast? with
    | none =>
        rw [hlast] at hmap
        cases hmap
    | some y =>
        rw [hlast] at hmap
        exact hmap
  · rcases List.mem_cons.mp hmem with heq | hin
    · rw [heq]
      exact hfirst
    · exact Smoothing.smooth_nonneg _ first _ (one_div_nonneg.mpr hp.le)
        (by rw [div_le_one hp]; exact hone) hfirst
        (fun r hr => hranges r (List.mem_of_mem_drop hr)) x hin

theorem maximum_ready (xs : List ℚ) (h : xs ≠ []) : ∃ x, maximum xs = .ok x := by
  cases xs with
  | nil => exact absurd rfl h
  | cons y rest => exact ⟨_, rfl⟩

theorem minimum_ready (xs : List ℚ) (h : xs ≠ []) : ∃ x, minimum xs = .ok x := by
  cases xs with
  | nil => exact absurd rfl h
  | cons y rest => exact ⟨_, rfl⟩

theorem prior_ne_nil {α : Type} (xs : List α) (priorBars : Int) (hprior : 1 ≤ priorBars)
    (hlength : priorBars + 2 ≤ xs.length) : slice xs (-(priorBars + 1)) (-1) ≠ [] := by
  intro hnil
  -- The slice stops one before the end, and starts `priorBars` before that.
  have hlen := congrArg List.length hnil
  rw [slice, List.length_drop, List.length_take, List.length_nil, sliceIndex, sliceIndex] at hlen
  rw [if_pos (by omega), if_pos (by omega)] at hlen
  omega

/-- The levels of the signal, one by one. -/
structure LevelsOf (candles : List Candle) (entry : DirectionalEntry) (l : TrendLevels) :
    Prop where
  emaFast : latestEma candles entry.emaFast = .ok l.emaFast
  emaSlow : latestEma candles entry.emaSlow = .ok l.emaSlow
  atr : latestAtr candles entry.atrPeriod = .ok (some l.atr)
  latestClose : last (candles.map Candle.close) = .ok l.latestClose
  priorHigh : maximum (slice (candles.map Candle.high) (-(entry.priorBars + 1)) (-1)) =
    .ok l.priorHigh
  priorLow : minimum (slice (candles.map Candle.low) (-(entry.priorBars + 1)) (-1)) =
    .ok l.priorLow
  emaSep : l.emaSep = l.emaFast - l.emaSlow
  threshold : l.threshold = entry.breakoutAtrMult * l.atr
  longSetup : l.longSetup = decide (l.threshold < l.emaSep ∧
    l.priorHigh + l.threshold < l.latestClose)
  shortSetup : l.shortSetup = decide (l.emaSep < -l.threshold ∧
    l.latestClose < l.priorLow - l.threshold)

theorem LevelsOf.trendLevels {candles : List Candle} {entry : DirectionalEntry}
    {l : TrendLevels} (h : LevelsOf candles entry l) :
    OptionsBot.trendLevels candles entry = .ok (some l) := by
  have hfast := h.emaFast
  have hslow := h.emaSlow
  have hatr := h.atr
  unfold latestEma at hfast hslow
  unfold latestAtr at hatr
  unfold OptionsBot.trendLevels
  -- A series that raises would not have a last value.
  rcases hf : ema (candles.map Candle.close) entry.emaFast with e | fastSeries
  · rw [hf] at hfast
    cases hfast
  rcases hs : ema (candles.map Candle.close) entry.emaSlow with e | slowSeries
  · rw [hs] at hslow
    cases hslow
  rcases ha : OptionsBot.atr candles entry.atrPeriod with e | atrSeries
  · rw [ha] at hatr
    cases hatr
  rw [hf, Except.bind] at hfast
  rw [hs, Except.bind] at hslow
  rw [ha, Except.bind] at hatr
  simp only [bind, Except.bind, hf, hs, hfast, hslow, hatr, h.latestClose, h.priorHigh, h.priorLow]
  cases l with
  | mk latestClose emaFast emaSlow emaSep atr threshold priorHigh priorLow long short =>
      have hsep : emaSep = emaFast - emaSlow := h.emaSep
      have hthreshold : threshold = entry.breakoutAtrMult * atr := h.threshold
      have hlong : long = decide (threshold < emaSep ∧ priorHigh + threshold < latestClose) :=
        h.longSetup
      have hshort : short = decide (emaSep < -threshold ∧ latestClose < priorLow - threshold) :=
        h.shortSetup
      simp only [hlong, hshort, hsep, hthreshold]

/-- The levels of rescaled candles. -/
def TrendLevels.rescale (k c : ℚ) (l : TrendLevels) : TrendLevels :=
  { latestClose := k * l.latestClose + c, emaFast := k * l.emaFast + c,
    emaSlow := k * l.emaSlow + c, emaSep := k * l.emaSep, atr := k * l.atr,
    threshold := k * l.threshold, priorHigh := k * l.priorHigh + c,
    priorLow := k * l.priorLow + c, longSetup := l.longSetup, shortSetup := l.shortSetup }

/-- The levels of reflected candles: the extremes and the setups change places. -/
def TrendLevels.reflect (c : ℚ) (l : TrendLevels) : TrendLevels :=
  { latestClose := c - l.latestClose, emaFast := c - l.emaFast, emaSlow := c - l.emaSlow,
    emaSep := -l.emaSep, atr := l.atr, threshold := l.threshold, priorHigh := c - l.priorLow,
    priorLow := c - l.priorHigh, longSetup := l.shortSetup, shortSetup := l.longSetup }

section Moved

variable {candles : List Candle} {entry : DirectionalEntry} {l : TrendLevels}

theorem LevelsOf.rescale (h : LevelsOf candles entry l) (k c : ℚ) (hk : 0 < k) :
    LevelsOf (candles.map (Candle.rescale k c)) entry (l.rescale k c) := by
  have hmove := rescale_moves k c hk
  have hmono : Monotone (fun p : ℚ => k * p + c) :=
    fun p q hpq => add_le_add_left (mul_le_mul_of_nonneg_left hpq hk.le) c
  refine ⟨latestEma_move k c _ hmove _ _ _ h.emaFast, latestEma_move k c _ hmove _ _ _ h.emaSlow,
    ?_, ?_, ?_, ?_, ?_, ?_, ?_, ?_⟩
  · have hatr := latestAtr_move k c _ hmove _ _ _ h.atr
    rw [abs_of_pos hk] at hatr
    exact hatr
  · rw [List.map_map]
    have hlast := last_map (fun p => k * p + c) _ _ h.latestClose
    rw [List.map_map] at hlast
    exact hlast
  · have hmax := maximum_monotone hmono h.priorHigh
    rw [← slice_map, List.map_map] at hmax
    rw [List.map_map]
    exact hmax
  · have hmin := minimum_monotone hmono h.priorLow
    rw [← slice_map, List.map_map] at hmin
    rw [List.map_map]
    exact hmin
  · simp only [TrendLevels.rescale, h.emaSep]
    ring
  · simp only [TrendLevels.rescale, h.threshold]
    ring
  · simp only [TrendLevels.rescale, h.longSetup, decide_eq_decide]
    -- Both comparisons are multiplied by the positive factor.
    refine and_congr (mul_lt_mul_iff_right₀ hk).symm ?_
    rw [add_right_comm, ← mul_add, add_lt_add_iff_right, mul_lt_mul_iff_right₀ hk]
  · simp only [TrendLevels.rescale, h.shortSetup, decide_eq_decide]
    refine and_congr ?_ ?_
    · rw [← mul_neg, mul_lt_mul_iff_right₀ hk]
    · rw [add_sub_right_comm, ← mul_sub, add_lt_add_iff_right, mul_lt_mul_iff_right₀ hk]

theorem LevelsOf.reflect (h : LevelsOf candles entry l) (c : ℚ) :
    LevelsOf (candles.map (Candle.reflect c)) entry (l.reflect c) := by
  have hmove := reflect_moves c
  have hanti : Antitone (fun p : ℚ => c - p) := fun p q hpq => sub_le_sub_left hpq c
  have hmirror : ∀ p : ℚ, -1 * p + c = c - p := fun p => by ring
  refine ⟨?_, ?_, ?_, ?_, ?_, ?_, ?_, ?_, ?_, ?_⟩
  · have hfast := latestEma_move (-1) c _ hmove _ _ _ h.emaFast
    rw [hmirror] at hfast
    exact hfast
  · have hslow := latestEma_move (-1) c _ hmove _ _ _ h.emaSlow
    rw [hmirror] at hslow
    exact hslow
  · have hatr := latestAtr_move (-1) c _ hmove _ _ _ h.atr
    rw [abs_neg, abs_one, one_mul] at hatr
    exact hatr
  · have hlast := last_map (fun p => c - p) _ _ h.latestClose
    rw [List.map_map] at hlast
    rw [List.map_map]
    exact hlast
  · -- The reflected highs are the lows, and their greatest was the least.
    have hmax := maximum_antitone hanti h.priorLow
    rw [← slice_map, List.map_map] at hmax
    rw [List.map_map]
    exact hmax
  · have hmin := minimum_antitone hanti h.priorHigh
    rw [← slice_map, List.map_map] at hmin
    rw [List.map_map]
    exact hmin
  · simp only [TrendLevels.reflect, h.emaSep]
    ring
  · exact h.threshold
  · -- A long setup of the mirrored prices is a short setup of the prices.
    simp only [TrendLevels.reflect, h.shortSetup, decide_eq_decide]
    refine and_congr lt_neg ?_
    constructor
    · intro hlt
      linarith
    · intro hlt
      linarith
  · simp only [TrendLevels.reflect, h.longSetup, decide_eq_decide]
    refine and_congr neg_lt_neg_iff.symm ?_
    constructor
    · intro hlt
      linarith
    · intro hlt
      linarith

end Moved

/-- The two setups the signal returns on the arrays of a series, long before short. -/
def trendSetups (candles : List Candle) (entry : DirectionalEntry) :
    Except PyError (Bool × Bool) :=
  (trendBreakout (candles.map Candle.close) (candles.map Candle.high) (candles.map Candle.low)
    entry).map (fun r => (r.1, r.2.1))

/-- The directional strategy's own levels of a series have these setups, and with a
    spot and no cooldown it goes by them. -/
def Inlined (candles : List Candle) (entry : DirectionalEntry) (long short : Bool) : Prop :=
  ∃ l, trendLevels candles entry = .ok (some l) ∧ l.longSetup = long ∧ l.shortSetup = short ∧
    ∀ (self : DirectionalStrategy) (market : MarketState) (underlying : Underlying) (spot : ℚ),
      self.config.entry = entry → market.candles underlying entry.timeframe = candles →
      self.context.isUnderlyingInCooldown underlying market.now = false →
      market.spot underlying = some spot →
      self.evaluateOne market underlying = .ok (
        if long then
          self.enter market underlying spot .call (("spot", .num (some spot)) :: l.features)
        else if short then
          self.enter market underlying spot .put (("spot", .num (some spot)) :: l.features)
        else rejected .directional underlying none .filterFailed
          (("spot", .num (some spot)) :: l.features))

section Setups

variable {candles : List Candle} {entry : DirectionalEntry} {l : TrendLevels}

/-- Past the history check, the setups are those of the levels. -/
theorem LevelsOf.trendSetups (h : LevelsOf candles entry l)
    (hlength : entry.minBars ≤ candles.length) :
    OptionsBot.trendSetups candles entry = .ok (l.longSetup, l.shortSetup) := by
  rw [OptionsBot.trendSetups, trendBreakout_candles, evaluateTrendBreakout,
    if_neg (not_lt.mpr hlength), h.trendLevels]
  rfl

theorem LevelsOf.inlined (h : LevelsOf candles entry l)
    (hlength : entry.minBars ≤ candles.length) :
    Inlined candles entry l.longSetup l.shortSetup := by
  refine ⟨l, h.trendLevels, rfl, rfl, fun self market underlying spot hentry hcandles hcool hspot =>
    ?_⟩
  cases hentry
  cases hcandles
  exact self.evaluateOne_levels market underlying spot l hcool hspot hlength h.trendLevels

/-- With enough sound bars every level is there, and the average true range is not
    negative. -/
theorem levelsOf_ready (hbars : ∀ bar ∈ candles, bar.low ≤ bar.high)
    (hlength : entry.minBars ≤ candles.length) (hfast : 0 < entry.emaFast)
    (hslow : 0 < entry.emaSlow) (hatr : 0 < entry.atrPeriod) (hprior : 1 ≤ entry.priorBars) :
    ∃ l, LevelsOf candles entry l ∧ 0 ≤ l.atr := by
  -- The history check covers the range and the bars before, and leaves one bar at least.
  have hmin : entry.atrPeriod + 1 ≤ candles.length ∧ entry.priorBars + 2 ≤ candles.length :=
    ⟨(le_max_left _ _).trans ((le_max_right _ _).trans hlength),
      (le_max_right _ _).trans ((le_max_right _ _).trans hlength)⟩
  have hne : candles ≠ [] := by
    intro hnil
    rw [hnil, List.length_nil] at hmin
    omega
  rcases latestEma_ready candles entry.emaFast hfast hne with ⟨fast, hfast⟩
  rcases latestEma_ready candles entry.emaSlow hslow hne with ⟨slow, hslow⟩
  rcases latestAtr_ready candles entry.atrPeriod hatr (by omega) hbars with ⟨atr, hatr, hnonneg⟩
  rcases last_ready (candles.map Candle.close) (fun h => hne (List.map_eq_nil_iff.mp h)) with
    ⟨close, _, hclose⟩
  rcases maximum_ready _ (prior_ne_nil (candles.map Candle.high) entry.priorBars hprior
    (by rw [List.length_map]; exact hmin.2)) with ⟨high, hhigh⟩
  rcases minimum_ready _ (prior_ne_nil (candles.map Candle.low) entry.priorBars hprior
    (by rw [List.length_map]; exact hmin.2)) with ⟨low, hlow⟩
  exact ⟨
    { latestClose := close, emaFast := fast, emaSlow := slow, emaSep := fast - slow,
      atr := atr, threshold := entry.breakoutAtrMult * atr, priorHigh := high, priorLow := low,
      longSetup := entry.breakoutAtrMult * atr < fast - slow ∧
        high + entry.breakoutAtrMult * atr < close,
      shortSetup := fast - slow < -(entry.breakoutAtrMult * atr) ∧
        close < low - entry.breakoutAtrMult * atr },
    ⟨hfast, hslow, hatr, hclose, hhigh, hlow, rfl, rfl, rfl, rfl⟩, hnonneg⟩

/-- The averages cannot be apart in both directions by a threshold that is not
    negative. -/
theorem LevelsOf.exclusive (h : LevelsOf candles entry l) (hmult : 0 ≤ entry.breakoutAtrMult)
    (hatr : 0 ≤ l.atr) : ¬ (l.longSetup = true ∧ l.shortSetup = true) := by
  rw [h.longSetup, h.shortSetup, decide_eq_true_iff, decide_eq_true_iff]
  rintro ⟨hlong, hshort⟩
  have hthreshold : 0 ≤ l.threshold := by
    rw [h.threshold]
    exact mul_nonneg hmult hatr
  linarith [hlong.1, hshort.1]

end Setups

/-- On a series with enough sound bars the signal and the directional strategy's copy
    see the same two setups. Mirrored prices exchange the setups, raised and multiplied
    prices leave them, and they are never both there. -/
theorem trend_symmetries (candles : List Candle) (entry : DirectionalEntry)
    (hbars : ∀ bar ∈ candles, bar.low ≤ bar.high)
    (hlength : entry.minBars ≤ candles.length) (hfast : 0 < entry.emaFast)
    (hslow : 0 < entry.emaSlow) (hatr : 0 < entry.atrPeriod) (hprior : 1 ≤ entry.priorBars)
    (hmult : 0 ≤ entry.breakoutAtrMult) :
    ∃ long short, trendSetups candles entry = .ok (long, short) ∧
      Inlined candles entry long short ∧
      (∀ c, trendSetups (candles.map (Candle.reflect c)) entry = .ok (short, long)) ∧
      (∀ k c, 0 < k → trendSetups (candles.map (Candle.rescale k c)) entry = .ok (long, short)) ∧
      ¬ (long = true ∧ short = true) := by
  rcases levelsOf_ready hbars hlength hfast hslow hatr hprior with ⟨l, hl, hnonneg⟩
  have hmoved : ∀ move : Candle → Candle, entry.minBars ≤ (candles.map move).length := by
    intro move
    rw [List.length_map]
    exact hlength
  exact ⟨l.longSetup, l.shortSetup, hl.trendSetups hlength, hl.inlined hlength,
    fun c => (hl.reflect c).trendSetups (hmoved _),
    fun k c hk => (hl.rescale k c hk).trendSetups (hmoved _), hl.exclusive hmult hnonneg⟩

theorem trend_symmetries_breakout : ∃ long short,
    trendSetups (breakCandles .call) shippedDirectionalConfig.entry = .ok (long, short) ∧
      Inlined (breakCandles .call) shippedDirectionalConfig.entry long short ∧
      (∀ c, trendSetups ((breakCandles .call).map (Candle.reflect c))
        shippedDirectionalConfig.entry = .ok (short, long)) ∧
      (∀ k c, 0 < k → trendSetups ((breakCandles .call).map (Candle.rescale k c))
        shippedDirectionalConfig.entry = .ok (long, short)) ∧
      ¬ (long = true ∧ short = true) :=
  trend_symmetries (breakCandles .call) shippedDirectionalConfig.entry (by decide)
    (by decide) (by decide) (by decide) (by decide)
    (by decide) (by decide)

end OptionsBot
