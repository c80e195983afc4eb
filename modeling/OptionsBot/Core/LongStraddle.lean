import OptionsBot.Core.Candles
import OptionsBot.Core.Desk

/-!
# Long Straddle Strategy

A bought at-the-money call and put after volatility has compressed: short-term
range low in its own history, long-term band width low in its own, and the
recent bars narrow against the last days.

`manage` looks at the clock, then at the sum of the two middle prices. A sum
that is not known counts as zero, and then nothing is done.

## Main definitions

* `LongStraddleStrategy`: The configuration and the cooldown bookkeeping.
* `Compression`: The indicators of the setup.
* `LongStraddleStrategy.pickLegs`: The call and the put of a bucket.
* `LongStraddleStrategy.evaluateOne`: The decision on one underlying.
* `LongStraddleStrategy.manage`: The action on an open position.

## Theorems

* `evaluateOne_intent`: What an emitted intent looks like.
* `manage_force_iff`: `manage` closes for expiry exactly inside the configured
  hours.
* `manage_unpriced`: Without a known sum, `manage` does nothing outside them.
-/

namespace OptionsBot

structure LongStraddleStrategy where
  config : LongStraddleConfig
  context : StrategyContext := {}

/-- The indicators of the setup. `none` for the range's percentile is a NaN. -/
structure Compression where
  atr : ℚ
  atrPct : Option ℚ
  bbwPct : ℚ
  rangeCompressed : Bool

namespace LongStraddleStrategy

variable (self : LongStraddleStrategy) (npStd : List ℚ → ℚ)

/-- Whether the recent bars are narrow against the last days. A NaN mean is not
    compared. -/
def rangeCompressed (setup : LongStraddleSetup) (candles : List Candle) : Bool :=
  let ranges := candles.map (fun c => c.high - c.low)
  match mean (sliceFrom ranges (-setup.rangeCompressionBars)),
      mean (sliceFrom ranges (-setup.rangeCompressionLookbackDays * 96)) with
  | some recent, some lookback => 0 < lookback ∧ recent ≤ setup.rangeCompressionRatio * lookback
  | _, _ => false

/-- The indicators, or the reason they are not ready. -/
def compression (setup : LongStraddleSetup) (short long : List Candle) :
    Except PyError (StrategyReason ⊕ Compression) := do
  let atrSeries ← OptionsBot.atr short setup.atrPeriod
  match ← last atrSeries with
  | none => .ok (.inl .atrNotReady)
  | some latestAtr =>
    -- The values before the first full period are missing, and are not ranked.
    let window := (sliceFrom atrSeries (-setup.atrPercentileLookback)).filterMap id
    let bbw ← bollingerWidth npStd (long.map Candle.close) setup.bbwidthPeriod setup.bbwidthStd
    let finite := bbw.filterMap id
    if finite = [] then .ok (.inl .bbwidthNotReady)
    else
      let latestBbw ← last bbw
      .ok (.inr
        { atr := latestAtr
          atrPct := percentileRank (some latestAtr) window
          bbwPct := (percentileRank latestBbw finite).getD 0
          rangeCompressed := rangeCompressed setup short })

/-- Every condition of the setup holds. -/
def Compression.passes (c : Compression) (setup : LongStraddleSetup) : Bool :=
  match c.atrPct with
  | none => false
  | some pct =>
    pct ≤ setup.atrPercentileMax ∧ c.bbwPct ≤ setup.bbwidthPercentileMax ∧
      (setup.requireRangeCompression = false ∨ c.rangeCompressed = true)

/-- The at-the-money call and put of a bucket, if both have a middle price. -/
def pickLegs (market : MarketState) (underlying : Underlying) (bucket : ExpiryBucket) (spot : ℚ) :
    Option (StrikeSelection × StrikeSelection) :=
  let pick (optionType : OptionType) :=
    (selectStrike market.chain underlying optionType bucket none none none (some spot) 0
      market.now).filter (fun s => s.quote.mid.isSome)
  match pick .call, pick .put with
  | some call, some put => some (call, put)
  | _, _ => none

/-- The legs of the preferred bucket, else of the fallback, with their bucket. -/
def pickBucketLegs (market : MarketState) (underlying : Underlying) (spot : ℚ) :
    Option (ExpiryBucket × StrikeSelection × StrikeSelection) :=
  let cfg := self.config.expiry
  match pickLegs market underlying cfg.prefer spot with
  | some legs => some (cfg.prefer, legs)
  | none => (pickLegs market underlying cfg.fallback spot).map (fun legs => (cfg.fallback, legs))

def legFor (sel : StrikeSelection) (optionType : OptionType) : LegIntent :=
  { symbol := sel.instrument.symbol, side := .buy, optionType := optionType,
    strike := sel.instrument.strike, expiry := sel.instrument.expiry }

/-- The intent for a selected call and put. -/
def entryIntent (market : MarketState) (underlying : Underlying) (bucket : ExpiryBucket)
    (features : Features) (totalPremium : ℚ) (call put : StrikeSelection) : Intent :=
  { strategyId := .longStraddle
    underlying := underlying
    bucket := bucket
    legs := [legFor call .call, legFor put .put]
    requestedLots := self.config.maxLotsCap
    rationale := "long_straddle_compression"
    featureVector := features
    targetPremiumInr := market.premiumInr (some totalPremium) call.instrument.lotSize }

/-- The decision once the setup has passed. -/
def enter (market : MarketState) (underlying : Underlying) (spot : ℚ) (features : Features) :
    Decision :=
  let cfg := self.config
  let reject := rejected .longStraddle underlying
  match self.pickBucketLegs market underlying spot with
  | none => reject none .noAcceptableStrike features
  | some (bucket, call, put) =>
    match call.quote.mid, put.quote.mid with
    | some callMid, some putMid =>
      let liquidity := checkMultiLegLiquidity [("call", call), ("put", put)]
        cfg.desk.minOpenInterest cfg.desk.greeksRequired
      let features := features.update liquidity.features
      if !liquidity.ok then
        reject liquidity.symbol (liquidity.reason.getD .filterFailed) features
      else
        let totalPremium := callMid + putMid
        let features := features.update
          [("total_premium", .num (some totalPremium)),
            ("call_strike", .num (some call.instrument.strike)),
            ("put_strike", .num (some put.instrument.strike))]
        { strategyId := .longStraddle, underlying := underlying, symbol := none, passed := true,
          reason := .passed, featureVector := features,
          intent := some
            (self.entryIntent market underlying bucket features totalPremium call put) }
    | _, _ => reject none .noAcceptableStrike features

def evaluateOne (market : MarketState) (underlying : Underlying) : Except PyError Decision :=
  let setup := self.config.setup
  let reject := rejected .longStraddle underlying none
  match market.spot underlying with
  | none => .ok (reject .missingSpot [])
  | some spot =>
    let short := market.candles underlying setup.timeframeShort
    let long := market.candles underlying setup.timeframeLong
    if (short.length : Int) < max setup.atrPercentileLookback (setup.rangeCompressionBars + 1) ∨
        (long.length : Int) < setup.bbwidthPeriod + 24 then
      .ok (reject .insufficientHistory
        [("n_15m", .num (some short.length)), ("n_1h", .num (some long.length))])
    -- The history is looked at before the cooldown, other than in the credit strategy.
    else if self.context.isInCooldown market.now then
      .ok (reject .antiRevengeBlock
        (match self.context.cooldownUntil with
        | none => []
        | some u => [("cooldown_until", .time u)]))
    else
      match compression npStd setup short long with
      | .error e => .error e
      | .ok (.inl reason) => .ok (reject reason [])
      | .ok (.inr c) =>
        let features : Features :=
          [("spot", .num (some spot)), ("atr", .num (some c.atr)), ("atr_pct", .num c.atrPct),
            ("bbw_pct", .num (some c.bbwPct)), ("range_compressed", .flag c.rangeCompressed)]
        if Compression.passes c setup then .ok (self.enter market underlying spot features)
        else .ok (reject .filterFailed features)

def evaluate (market : MarketState) : Except PyError (List Intent × List Decision) :=
  evaluateAll (self.evaluateOne npStd market) self.config.underlyings

/-- The sum of the middle prices that `manage` works with. -/
def totalPremium (position : PositionState) : ℚ := orFloat position.notes.currentTotalPremium 0

def manage (position : PositionState) (market : MarketState) : List Action :=
  let cfg := self.config.exits
  if position.expiry.hoursSince market.now ≤ cfg.forceCloseHoursBeforeExpiry then
    [.closeFor .forceCloseExpiry]
  else
    match position.entryPremiumInr with
    | none => [.noOp]
    | some entry =>
      let current := totalPremium position
      -- A sum that was never written reads as zero, and decides nothing.
      if current ≤ 0 then [.noOp]
      else if (1 + cfg.profitTakePctOfPremium) * entry ≤ current then [.closeFor .target]
      else if current ≤ (1 - cfg.stopLossPctOfPremium) * entry then [.closeFor .premiumStop]
      else [.noOp]

theorem pickLegs_mem (market : MarketState) (underlying : Underlying) (bucket : ExpiryBucket)
    (spot : ℚ) (call put : StrikeSelection)
    (h : pickLegs market underlying bucket spot = some (call, put)) :
    call.instrument ∈ market.chain.instrumentsFor underlying .call bucket market.now ∧
      put.instrument ∈ market.chain.instrumentsFor underlying .put bucket market.now := by
  unfold pickLegs at h
  simp only at h
  split at h
  · next c p hc hp =>
    cases h
    rw [Option.filter_eq_some_iff] at hc hp
    exact ⟨selectStrike_mem _ _ _ _ _ _ _ _ _ _ _ hc.1,
      selectStrike_mem _ _ _ _ _ _ _ _ _ _ _ hp.1⟩
  · cases h

theorem enter_intent (market : MarketState) (underlying : Underlying) (spot : ℚ)
    (features : Features) (intent : Intent)
    (h : (self.enter market underlying spot features).intent = some intent) :
    ∃ bucket all call put callMid putMid,
      self.pickBucketLegs market underlying spot = some (bucket, call, put) ∧
      call.quote.mid = some callMid ∧ put.quote.mid = some putMid ∧
      intent = self.entryIntent market underlying bucket all (callMid + putMid) call put := by
  unfold enter at h
  simp only at h
  split at h
  · cases h
  · next bucket call put hpick =>
    split at h
    · next callMid putMid hc hp =>
      split at h
      · cases h
      · simp only [Option.some.injEq] at h
        exact ⟨bucket, _, call, put, callMid, putMid, hpick, hc, hp, h.symm⟩
    · cases h

theorem pickLegs_quote (market : MarketState) (underlying : Underlying) (bucket : ExpiryBucket)
    (spot : ℚ) (call put : StrikeSelection)
    (h : pickLegs market underlying bucket spot = some (call, put)) :
    market.chain.getQuote call.instrument.symbol = some call.quote ∧
      market.chain.getQuote put.instrument.symbol = some put.quote := by
  unfold pickLegs at h
  simp only at h
  split at h
  · next c p hc hp =>
    cases h
    rw [Option.filter_eq_some_iff] at hc hp
    exact ⟨selectStrike_quote _ _ _ _ _ _ _ _ _ _ _ hc.1,
      selectStrike_quote _ _ _ _ _ _ _ _ _ _ _ hp.1⟩
  · cases h

theorem pickBucketLegs_quote (market : MarketState) (underlying : Underlying) (spot : ℚ)
    (bucket : ExpiryBucket) (call put : StrikeSelection)
    (h : self.pickBucketLegs market underlying spot = some (bucket, call, put)) :
    market.chain.getQuote call.instrument.symbol = some call.quote ∧
      market.chain.getQuote put.instrument.symbol = some put.quote := by
  unfold pickBucketLegs at h
  simp only at h
  split at h
  · next legs hlegs =>
    cases h
    exact pickLegs_quote market underlying _ spot call put hlegs
  · rcases Option.map_eq_some_iff.mp h with ⟨legs, hlegs, heq⟩
    cases heq
    exact pickLegs_quote market underlying _ spot call put hlegs

/-- A decision with an intent is one of `enter`. -/
theorem evaluateOne_enter (market : MarketState) (underlying : Underlying) (d : Decision)
    (intent : Intent) (h : self.evaluateOne npStd market underlying = .ok d)
    (hi : d.intent = some intent) :
    self.context.isInCooldown market.now = false ∧
      ∃ spot features, market.spot underlying = some spot ∧
        (self.enter market underlying spot features).intent = some intent := by
  unfold evaluateOne at h
  simp only at h
  split at h
  · cases h
    cases hi
  · next spot hspot =>
    split at h
    · cases h
      cases hi
    · split at h
      · cases h
        cases hi
      · next hcooldown =>
        rw [Bool.not_eq_true] at hcooldown
        refine ⟨hcooldown, ?_⟩
        split at h
        · cases h
        · cases h
          cases hi
        · split at h
          · cases h
            exact ⟨spot, _, hspot, hi⟩
          · cases h
            cases hi

/-- An emitted intent buys the call and the put the bucket choice picked. -/
theorem evaluateOne_intent (market : MarketState) (underlying : Underlying) (d : Decision)
    (intent : Intent) (h : self.evaluateOne npStd market underlying = .ok d)
    (hi : d.intent = some intent) :
    ∃ spot bucket all call put callMid putMid, market.spot underlying = some spot ∧
      self.pickBucketLegs market underlying spot = some (bucket, call, put) ∧
      call.quote.mid = some callMid ∧ put.quote.mid = some putMid ∧
      intent = self.entryIntent market underlying bucket all (callMid + putMid) call put := by
  rcases self.evaluateOne_enter npStd market underlying d intent h hi with
    ⟨_, spot, features, hspot, henter⟩
  rcases self.enter_intent _ _ _ _ _ henter with ⟨bucket, all, call, put, callMid, putMid, hrest⟩
  exact ⟨spot, bucket, all, call, put, callMid, putMid, hspot, hrest⟩

/-- `manage` closes for expiry exactly inside the configured hours. -/
theorem manage_force_iff (position : PositionState) (market : MarketState) :
    Action.closeFor .forceCloseExpiry ∈ self.manage position market ↔
      position.expiry.hoursSince market.now ≤ self.config.exits.forceCloseHoursBeforeExpiry := by
  unfold manage
  simp only
  by_cases h : position.expiry.hoursSince market.now ≤
      self.config.exits.forceCloseHoursBeforeExpiry
  · rw [if_pos h]
    exact ⟨fun _ => h, fun _ => List.mem_singleton.mpr rfl⟩
  · rw [if_neg h]
    refine ⟨fun hmem => absurd ?_ h, fun hle => absurd hle h⟩
    split at hmem
    · exact absurd hmem (by decide)
    · split_ifs at hmem <;> exact absurd hmem (by decide)

/-- Without a known sum, nothing is done outside the hours before expiry. -/
theorem manage_unpriced (position : PositionState) (market : MarketState)
    (hforce : ¬ position.expiry.hoursSince market.now ≤
      self.config.exits.forceCloseHoursBeforeExpiry)
    (h : position.notes.currentTotalPremium = none) :
    self.manage position market = [.noOp] := by
  have hzero : totalPremium position = 0 := by
    rw [totalPremium, h]
    rfl
  unfold manage
  simp only [if_neg hforce]
  split
  · rfl
  · rw [hzero, if_pos (le_refl 0)]

end LongStraddleStrategy

end OptionsBot
