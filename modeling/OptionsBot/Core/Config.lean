import Mathlib.Tactic.NormNum
import OptionsBot.Lib.Clock

/-!
# Configuration Models

The global and per-strategy configuration, with the bounds the validated models
put on each field carried as fields of the structures, so that a configuration
that fails validation cannot be written down. The default of every field is the
model's default; the values shipped in the YAML files are named separately.

Fields that only reports, logging or the promotion gate read are left out.

## Main definitions

* `StrategyId`, `Underlying`, `ExpiryBucket`, `StrikeMode`: The enumerations.
* `GlobalConfig`: Risk caps, trading window, concurrency, execution and desk.
* `BaseStrategyConfig`: What every strategy's configuration has.
* `DirectionalConfig`, `CreditVerticalConfig`, `LongStraddleConfig`: The three
  strategies' own configurations.
* `StrategyConfig`: One of the three.
* `AppConfig`: Everything the engine is started with.
* `shippedConfig` and its relatives: The shipped YAML values.
-/

namespace OptionsBot

inductive StrategyId where
  | directional
  | creditVertical
  | longStraddle
  deriving DecidableEq, Repr

/-- The name a strategy goes by in the database and in client order ids. -/
def StrategyId.value : StrategyId → String
  | directional => "directional"
  | creditVertical => "credit_vertical"
  | longStraddle => "long_straddle"

inductive Underlying where
  | btc
  | eth
  deriving DecidableEq, Repr

inductive Timeframe where
  | m15
  | h1
  | h4
  | d1
  deriving DecidableEq, Repr

inductive ExpiryBucket where
  | d1
  | d2
  | w1
  | w2
  | w3
  deriving DecidableEq, Repr

inductive StrikeMode where
  | atm
  | otmPlusOne
  deriving DecidableEq, Repr

/-- `Field(gt=0)` on an optional float: only a given value is checked. -/
def OptPos (x : Option ℚ) : Prop := ∀ v, x = some v → 0 < v

theorem optPos_none : OptPos none := fun _ h => by cases h

theorem optPos_some (v : ℚ) (h : 0 < v) : OptPos (some v) := fun _ hw => by
  cases hw
  exact h

structure RiskCapsConfig where
  dailyLossPct : ℚ := 3 / 100
  weeklyLossPct : ℚ := 6 / 100
  lifetimeDdPct : ℚ := 15 / 100
  daily_bounds : 0 < dailyLossPct ∧ dailyLossPct < 1 := by norm_num
  weekly_bounds : 0 < weeklyLossPct ∧ weeklyLossPct < 1 := by norm_num
  lifetime_bounds : 0 < lifetimeDdPct ∧ lifetimeDdPct < 1 := by norm_num

/-- The trading window in IST. A parsed `HH:MM` string is a time of day. -/
structure TradingWindowConfig where
  start : Int := hourMinute 9 0
  «end» : Int := hourMinute 22 0
  forceClose : Int := hourMinute 16 45

structure ConcurrencyConfig where
  maxTotal : Nat := 3
  maxPerStrategy : Nat := 1
  maxTotal_pos : 1 ≤ maxTotal := by norm_num
  maxPerStrategy_pos : 1 ≤ maxPerStrategy := by norm_num

structure ExecutionConfig where
  makerLimitTimeoutSeconds : ℚ := 30
  slipBpsDirectional : Nat := 50
  slipBpsStrangle : Nat := 50
  slipBpsCondor : Nat := 100
  trailUpdateThrottleSeconds : ℚ := 5
  timeout_pos : 0 < makerLimitTimeoutSeconds := by norm_num
  throttle_pos : 0 < trailUpdateThrottleSeconds := by norm_num

/-- Desk gates. Off by default. -/
structure DeskConfig where
  enabled : Bool := false
  strict : Bool := false
  minOpenInterest : ℚ := 0
  greeksRequired : Bool := true
  maxAbsNetDeltaInr : Option ℚ := none
  maxAbsNetVegaInr : Option ℚ := none
  maxVegaPerTradeInr : Option ℚ := none
  maxGammaPerTradeInr : Option ℚ := none
  minOpenInterest_nonneg : 0 ≤ minOpenInterest := by norm_num
  delta_pos : OptPos maxAbsNetDeltaInr := by exact optPos_none
  vega_pos : OptPos maxAbsNetVegaInr := by exact optPos_none
  vegaPerTrade_pos : OptPos maxVegaPerTradeInr := by exact optPos_none
  gammaPerTrade_pos : OptPos maxGammaPerTradeInr := by exact optPos_none

structure GlobalConfig where
  navInr : ℚ := 50000
  usdInrRate : ℚ := 85
  riskCaps : RiskCapsConfig := {}
  tradingWindow : TradingWindowConfig := {}
  concurrency : ConcurrencyConfig := {}
  execution : ExecutionConfig := {}
  desk : DeskConfig := {}
  nav_pos : 0 < navInr := by norm_num
  rate_pos : 0 < usdInrRate := by norm_num

structure BaseStrategyConfig where
  enabled : Bool := true
  enabledLive : Bool := false
  riskWeight : ℚ
  riskPerTradePct : ℚ
  maxLotsCap : Int
  tradePremiumCapUsd : Option ℚ := none
  underlyings : List Underlying := [.btc, .eth]
  weight_bounds : 0 < riskWeight ∧ riskWeight ≤ 1
  perTrade_bounds : 0 < riskPerTradePct ∧ riskPerTradePct < 1
  maxLotsCap_pos : 1 ≤ maxLotsCap
  premiumCap_pos : OptPos tradePremiumCapUsd := by exact optPos_none

/-- The indicator periods carry no bound: the indicators themselves reject a
    period that is not positive. -/
structure DirectionalEntry where
  timeframe : Timeframe := .m15
  emaFast : Int := 9
  emaSlow : Int := 21
  atrPeriod : Int := 14
  priorBars : Int := 4
  breakoutAtrMult : ℚ := 1 / 4
  cooldownMinutesAfterUnderlyingStop : ℚ := 45
  cooldown_nonneg : 0 ≤ cooldownMinutesAfterUnderlyingStop := by norm_num

structure DirectionalExpiry where
  prefer : ExpiryBucket := .d1
  fallback : ExpiryBucket := .d2
  minDteHours : ℚ := 2
  d1DteThresholdHours : ℚ := 4
  minDte_pos : 0 < minDteHours := by norm_num
  threshold_pos : 0 < d1DteThresholdHours := by norm_num

structure DirectionalStrike where
  primary : StrikeMode := .atm
  fallback : StrikeMode := .otmPlusOne

structure DirectionalDeskConfig where
  maxIvPercentileLong : Option ℚ := none
  minIvPercentileLong : Option ℚ := none
  preferDeltaStrike : Option ℚ := none
  maxAbsDeltaMove : Option ℚ := none
  maxAbsGammaShock : Option ℚ := none
  maxIv_pos : OptPos maxIvPercentileLong := by exact optPos_none
  minIv_pos : OptPos minIvPercentileLong := by exact optPos_none
  delta_pos : OptPos preferDeltaStrike := by exact optPos_none
  deltaMove_pos : OptPos maxAbsDeltaMove := by exact optPos_none
  gammaShock_pos : OptPos maxAbsGammaShock := by exact optPos_none

/-- Liquidity and greek gates for multi-leg entries. -/
structure StrategyLegDeskConfig where
  minOpenInterest : ℚ := 0
  greeksRequired : Bool := true
  minOpenInterest_nonneg : 0 ≤ minOpenInterest := by norm_num

structure DirectionalExits where
  targetR : ℚ := 2
  premiumDrawdownPct : ℚ := 1 / 2
  underlyingAtrMultStop : ℚ := 1
  trailBreakevenAtR : ℚ := 1
  trailChandelierAtrMult : ℚ := 2
  forceCloseHoursBeforeExpiry : ℚ := 2
  targetR_pos : 0 < targetR := by norm_num
  drawdown_bounds : 0 < premiumDrawdownPct ∧ premiumDrawdownPct < 1 := by norm_num
  underlyingStop_pos : 0 < underlyingAtrMultStop := by norm_num
  breakeven_pos : 0 < trailBreakevenAtR := by norm_num
  chandelier_pos : 0 < trailChandelierAtrMult := by norm_num
  forceClose_pos : 0 < forceCloseHoursBeforeExpiry := by norm_num

structure DirectionalConfig extends BaseStrategyConfig where
  entry : DirectionalEntry := {}
  expiry : DirectionalExpiry := {}
  strike : DirectionalStrike := {}
  desk : DirectionalDeskConfig := {}
  exits : DirectionalExits := {}

structure CreditSpreadWings where
  shortDeltaMin : ℚ := 18 / 100
  shortDeltaMax : ℚ := 28 / 100
  shortDeltaTarget : ℚ := 22 / 100
  longDeltaMin : ℚ := 5 / 100
  longDeltaMax : ℚ := 12 / 100
  longDeltaTarget : ℚ := 8 / 100
  short_bounds : (0 < shortDeltaMin ∧ shortDeltaMin < 1) ∧ (0 < shortDeltaMax ∧ shortDeltaMax < 1) ∧
    0 < shortDeltaTarget ∧ shortDeltaTarget < 1 := by norm_num
  long_bounds : (0 < longDeltaMin ∧ longDeltaMin < 1) ∧ (0 < longDeltaMax ∧ longDeltaMax < 1) ∧
    0 < longDeltaTarget ∧ longDeltaTarget < 1 := by norm_num

structure CreditSpreadCredit where
  minCreditPctOfWidth : ℚ := 1 / 5
  minCredit_bounds : 0 < minCreditPctOfWidth ∧ minCreditPctOfWidth < 1 := by norm_num

structure CreditVerticalExpiry where
  prefer : ExpiryBucket := .d2
  fallback : ExpiryBucket := .w1

structure CreditVerticalExits where
  profitTakePctOfCredit : ℚ := 1 / 2
  stopLossXCredit : ℚ := 2
  forceCloseDaysBeforeExpiry : Int := 2
  profitTake_bounds : 0 < profitTakePctOfCredit ∧ profitTakePctOfCredit < 1 := by norm_num
  stopLoss_pos : 0 < stopLossXCredit := by norm_num
  forceClose_bounds : 0 ≤ forceCloseDaysBeforeExpiry ∧ forceCloseDaysBeforeExpiry ≤ 7 := by norm_num

structure CreditVerticalConfig extends BaseStrategyConfig where
  entry : DirectionalEntry := {}
  expiry : CreditVerticalExpiry := {}
  spread : CreditSpreadWings := {}
  credit : CreditSpreadCredit := {}
  desk : StrategyLegDeskConfig := {}
  exits : CreditVerticalExits := {}

structure LongStraddleSetup where
  timeframeShort : Timeframe := .m15
  timeframeLong : Timeframe := .h1
  atrPeriod : Int := 14
  atrPercentileMax : ℚ := 2 / 5
  atrPercentileLookback : Int := 100
  bbwidthPeriod : Int := 20
  bbwidthStd : ℚ := 2
  bbwidthPercentileMax : ℚ := 2 / 5
  rangeCompressionBars : Int := 8
  rangeCompressionRatio : ℚ := 55 / 100
  rangeCompressionLookbackDays : Int := 14
  requireRangeCompression : Bool := true
  antiRevengeHours : Nat := 12
  atrPercentile_bounds : 0 < atrPercentileMax ∧ atrPercentileMax ≤ 1 := by norm_num
  bbwidthPercentile_bounds : 0 < bbwidthPercentileMax ∧ bbwidthPercentileMax ≤ 1 := by norm_num
  ratio_bounds : 0 < rangeCompressionRatio ∧ rangeCompressionRatio < 1 := by norm_num

structure LongStraddleExpiry where
  prefer : ExpiryBucket := .d1
  fallback : ExpiryBucket := .d2

structure LongStraddleExits where
  profitTakePctOfPremium : ℚ := 2 / 5
  stopLossPctOfPremium : ℚ := 2 / 5
  forceCloseHoursBeforeExpiry : ℚ := 4
  profitTake_bounds : 0 < profitTakePctOfPremium ∧ profitTakePctOfPremium < 1 := by norm_num
  stopLoss_bounds : 0 < stopLossPctOfPremium ∧ stopLossPctOfPremium < 1 := by norm_num
  forceClose_pos : 0 < forceCloseHoursBeforeExpiry := by norm_num

structure LongStraddleConfig extends BaseStrategyConfig where
  setup : LongStraddleSetup := {}
  expiry : LongStraddleExpiry := {}
  desk : StrategyLegDeskConfig := {}
  exits : LongStraddleExits := {}

/-- The configuration of one strategy. -/
inductive StrategyConfig where
  | directional (cfg : DirectionalConfig)
  | creditVertical (cfg : CreditVerticalConfig)
  | longStraddle (cfg : LongStraddleConfig)

namespace StrategyConfig

def id : StrategyConfig → StrategyId
  | directional _ => .directional
  | creditVertical _ => .creditVertical
  | longStraddle _ => .longStraddle

def base : StrategyConfig → BaseStrategyConfig
  | directional cfg => cfg.toBaseStrategyConfig
  | creditVertical cfg => cfg.toBaseStrategyConfig
  | longStraddle cfg => cfg.toBaseStrategyConfig

end StrategyConfig

/-- Everything the configuration files and the environment say, as far as the
    account value and the gate depend on it. Strategy ids are unique, and the
    weights sum to one up to `1e-6`. -/
structure AppConfig where
  isLive : Bool := false
  navInrOverride : Option ℚ := none
  globalConfig : GlobalConfig := {}
  strategies : List StrategyConfig
  unique_ids : (strategies.map StrategyConfig.id).Nodup
  weights_sum : 1 - 1 / 1000000 ≤ (strategies.map (fun s => s.base.riskWeight)).sum ∧
    (strategies.map (fun s => s.base.riskWeight)).sum ≤ 1 + 1 / 1000000

namespace AppConfig

def strategyById (app : AppConfig) (id : StrategyId) : Option StrategyConfig :=
  app.strategies.find? (fun s => s.id = id)

def effectiveNavInr (app : AppConfig) : ℚ := app.navInrOverride.getD app.globalConfig.navInr

end AppConfig

/-- The `expiry` section of `config/strategies/directional.yaml`. -/
def shippedDirectionalExpiry : DirectionalExpiry :=
  { prefer := .d1, fallback := .d2, minDteHours := 2, d1DteThresholdHours := 4 }

/-- The `exits` section of `config/strategies/directional.yaml`. -/
def shippedDirectionalExits : DirectionalExits :=
  { targetR := 3 / 2, premiumDrawdownPct := 1 / 2, underlyingAtrMultStop := 1,
    trailBreakevenAtR := 1, trailChandelierAtrMult := 2, forceCloseHoursBeforeExpiry := 2 }

/-- The `expiry` section of `config/strategies/credit_vertical.yaml`. -/
def shippedCreditVerticalExpiry : CreditVerticalExpiry := { prefer := .d2, fallback := .w1 }

/-- The `exits` section of `config/strategies/credit_vertical.yaml`. -/
def shippedCreditVerticalExits : CreditVerticalExits :=
  { profitTakePctOfCredit := 1 / 2, stopLossXCredit := 2, forceCloseDaysBeforeExpiry := 2 }

/-- The `expiry` section of `config/strategies/long_straddle.yaml`. -/
def shippedLongStraddleExpiry : LongStraddleExpiry := { prefer := .d1, fallback := .d2 }

/-- The `exits` section of `config/strategies/long_straddle.yaml`. -/
def shippedLongStraddleExits : LongStraddleExits :=
  { profitTakePctOfPremium := 2 / 5, stopLossPctOfPremium := 2 / 5,
    forceCloseHoursBeforeExpiry := 4 }

/-- `config/strategies/directional.yaml`. -/
def shippedDirectionalConfig : DirectionalConfig :=
  { enabledLive := true, riskWeight := 3 / 5, riskPerTradePct := 1 / 100
    tradePremiumCapUsd := some 50, maxLotsCap := 20
    weight_bounds := by norm_num, perTrade_bounds := by norm_num, maxLotsCap_pos := by norm_num
    premiumCap_pos := optPos_some 50 (by norm_num)
    entry := { breakoutAtrMult := 35 / 100 }
    expiry := shippedDirectionalExpiry, exits := shippedDirectionalExits }

/-- `config/strategies/credit_vertical.yaml`. -/
def shippedCreditVerticalConfig : CreditVerticalConfig :=
  { riskWeight := 1 / 4, riskPerTradePct := 15 / 1000
    tradePremiumCapUsd := some 25, maxLotsCap := 10
    weight_bounds := by norm_num, perTrade_bounds := by norm_num, maxLotsCap_pos := by norm_num
    premiumCap_pos := optPos_some 25 (by norm_num)
    expiry := shippedCreditVerticalExpiry, exits := shippedCreditVerticalExits }

/-- `config/strategies/long_straddle.yaml`. -/
def shippedLongStraddleConfig : LongStraddleConfig :=
  { riskWeight := 15 / 100, riskPerTradePct := 1 / 100
    tradePremiumCapUsd := some 25, maxLotsCap := 10
    weight_bounds := by norm_num, perTrade_bounds := by norm_num, maxLotsCap_pos := by norm_num
    premiumCap_pos := optPos_some 25 (by norm_num)
    expiry := shippedLongStraddleExpiry, exits := shippedLongStraddleExits }

/-- `config/global.yaml`. -/
def shippedGlobalConfig : GlobalConfig :=
  { navInr := 67000
    desk :=
      { minOpenInterest := 50, maxAbsNetDeltaInr := some 15000, maxAbsNetVegaInr := some 8000
        delta_pos := optPos_some 15000 (by norm_num), vega_pos := optPos_some 8000 (by norm_num) } }

/-- A global file without any setting. -/
def defaultGlobalConfig : GlobalConfig := {}

/-- The shipped files together, with no override. -/
def shippedConfig : AppConfig :=
  { globalConfig := shippedGlobalConfig
    strategies := [.creditVertical shippedCreditVerticalConfig,
      .directional shippedDirectionalConfig, .longStraddle shippedLongStraddleConfig]
    unique_ids := by decide
    weights_sum := by
      simp only [List.map_cons, List.map_nil, List.sum_cons, List.sum_nil, StrategyConfig.base,
        shippedCreditVerticalConfig, shippedDirectionalConfig, shippedLongStraddleConfig]
      norm_num }

end OptionsBot
