import OptionsBot.Core.Candles
import OptionsBot.Core.Desk

/-!
# Directional Strategy

Long premium on a trend breakout: one leg, a call when the trend is up and a put
when it is down, at the money in the bucket the hours to the session close pick.

`manage` looks at the clock first, then at the option's middle price against the
entry, then at the trailing stop, then at the underlying.

## Main definitions

* `DirectionalStrategy`: The configuration and the cooldown bookkeeping.
* `DirectionalStrategy.pickExpiryBucket`: The bucket of an entry.
* `DirectionalStrategy.evaluateOne`: The decision on one underlying.
* `DirectionalStrategy.manage`: The action on an open position.

## Theorems

* `enter_tested`: What has been tested of an intent's quote.
* `enter_passes`, `evaluateOne_levels`: What the two steps of a decision come to.
* `evaluateOne_enter`: An intent comes from `enter`, outside a cooldown.
* `evaluateOne_intent`: What an emitted intent looks like.
* `manage_force_iff`: `manage` closes for expiry exactly inside the configured
  hours.
* `manage_priced`: Every other action is decided on a price.
* `managePriced_breakeven`, `managePriced_trail`: The trailing stop's close, and
  the stop that is proposed.
* `manage_trail`: A stop is proposed only while there is none.
* `manage_unpriced`: Without a middle price, that is the only close.
-/

namespace OptionsBot

structure DirectionalStrategy where
  config : DirectionalConfig
  context : StrategyContext := {}
  spreadPctMax : ℚ := 8 / 100

namespace DirectionalStrategy

variable (self : DirectionalStrategy)

def pickExpiryBucket (market : MarketState) : ExpiryBucket :=
  let cfg := self.config.expiry
  let hoursToD1Close := (indiaOptionsSessionCloseUtc market.now).hoursSince market.now
  -- Too close to today's session close, the entry falls back to the later bucket.
  if cfg.d1DteThresholdHours ≤ hoursToD1Close then cfg.prefer else cfg.fallback

def strikeForMode (chain : ChainCache) (underlying : Underlying) (optionType : OptionType)
    (bucket : ExpiryBucket) (spot : ℚ) (mode : StrikeMode) (now : DateTime) :
    Option StrikeSelection :=
  match mode with
  | .atm => selectStrike chain underlying optionType bucket none none none (some spot) 0 now
  | .otmPlusOne => selectStrike chain underlying optionType bucket none none none (some spot) 1 now

/-- A selection with a middle price. -/
def usable (sel : Option StrikeSelection) : Option StrikeSelection :=
  sel.filter (fun s => s.quote.mid.isSome)

/-- By delta if configured and available, else the primary strike, else the
    fallback. -/
def pickEntryStrike (market : MarketState) (underlying : Underlying) (optionType : OptionType)
    (bucket : ExpiryBucket) (spot : ℚ) : Option StrikeSelection :=
  let byDelta := match self.config.desk.preferDeltaStrike with
    | none => none
    | some target =>
      usable (selectStrike market.chain underlying optionType bucket (some target) none none none 0
        market.now)
  match byDelta with
  | some sel => some sel
  | none =>
    match usable (strikeForMode market.chain underlying optionType bucket spot
        self.config.strike.primary market.now) with
    | some sel => some sel
    | none =>
      -- The fallback may be without a price. The caller turns it down then.
      strikeForMode market.chain underlying optionType bucket spot self.config.strike.fallback
        market.now

def ivEntryBlocked (desk : DirectionalDeskConfig) (result : Option IvPercentileResult) : Bool :=
  match result with
  | none => false
  | some r =>
    match r.percentile with
    | none => false
    | some pct =>
      r.reason = .ok ∧ ((∃ m ∈ desk.maxIvPercentileLong, m < pct) ∨
        ∃ m ∈ desk.minIvPercentileLong, pct < m)

def quoteGreekFeatures (quote : QuoteSnapshot) : Features :=
  [("leg_iv", .num quote.iv), ("leg_oi", .num quote.openInterest), ("leg_delta", .num quote.delta),
    ("leg_gamma", .num quote.gamma), ("leg_theta", .num quote.theta), ("leg_vega", .num quote.vega)]

/-- The features with the percentile of implied volatility, if there is one. -/
def withIv (features : Features) (iv : Option IvPercentileResult) : Features :=
  match iv with
  | none => features
  | some r =>
    let reason := match r.reason with
      | .ok => "ok"
      | .ivHistoryCold => "iv_history_cold"
      | .missingCurrentIv => "missing_current_iv"
    ((features.set "iv_percentile" (.num r.percentile)).set "iv_percentile_reason"
      (.text reason)).set "iv_percentile_n" (.num (some r.nSamples))

def optionTypeValue : OptionType → String
  | .call => "call"
  | .put => "put"

/-- The intent for a selected strike. -/
def entryIntent (market : MarketState) (underlying : Underlying) (optionType : OptionType)
    (bucket : ExpiryBucket) (features : Features) (sel : StrikeSelection) : Intent :=
  { strategyId := .directional
    underlying := underlying
    bucket := bucket
    legs := [{ symbol := sel.instrument.symbol, side := .buy, optionType := optionType,
               strike := sel.instrument.strike, expiry := sel.instrument.expiry }]
    requestedLots := self.config.maxLotsCap
    rationale := "directional_" ++ optionTypeValue optionType ++ "_atr_breakout"
    featureVector := features
    targetPremiumInr := market.premiumInr sel.quote.mid sel.instrument.lotSize
    spreadPctMax := self.spreadPctMax }

/-- The decision once the trend has set up. -/
def enter (market : MarketState) (underlying : Underlying) (spot : ℚ) (optionType : OptionType)
    (features : Features) : Decision :=
  let bucket := self.pickExpiryBucket market
  let iv := market.ivPercentile underlying bucket
  let features := withIv features iv
  let reject := rejected .directional underlying
  if ivEntryBlocked self.config.desk iv then reject none .ivOutOfRange features
  else
    match usable (self.pickEntryStrike market underlying optionType bucket spot) with
    | none => reject none .noAcceptableStrike features
    | some sel =>
      let spread := sel.quote.spreadPct
      if ∃ s ∈ spread, self.spreadPctMax < s then
        reject (some sel.instrument.symbol) .spreadTooWide
          (features.set "spread_pct" (.num spread))
      else
        let all := ((features.set "spread_pct" (.num spread)).set "mid"
          (.num sel.quote.mid)).update (quoteGreekFeatures sel.quote)
        { strategyId := .directional, underlying := underlying,
          symbol := some sel.instrument.symbol, passed := true, reason := .passed,
          featureVector := all,
          intent := some (self.entryIntent market underlying optionType bucket all sel) }

def evaluateOne (market : MarketState) (underlying : Underlying) : Except PyError Decision :=
  let reject := rejected .directional underlying none
  let cfg := self.config
  if self.context.isUnderlyingInCooldown underlying market.now then
    .ok (reject .cooldownActive
      [("cooldown_underlying", .text (match underlying with | .btc => "BTC" | .eth => "ETH"))])
  else
    match market.spot underlying with
    | none => .ok (reject .missingSpot [])
    | some spot =>
      let candles := market.candles underlying cfg.entry.timeframe
      if (candles.length : Int) < cfg.entry.minBars then
        .ok (reject .insufficientHistory
          [("n_candles", .num (some candles.length)),
            ("min_required", .num (some cfg.entry.minBars))])
      else
        match trendLevels candles cfg.entry with
        | .error e => .error e
        | .ok none => .ok (reject .atrNotReady [])
        | .ok (some levels) =>
          let features : Features := ("spot", .num (some spot)) :: levels.features
          if levels.longSetup then .ok (self.enter market underlying spot .call features)
          else if levels.shortSetup then .ok (self.enter market underlying spot .put features)
          else .ok (reject .filterFailed features)

def evaluate (market : MarketState) : Except PyError (List Intent × List Decision) :=
  evaluateAll (self.evaluateOne market) self.config.underlyings

/-- A greek has moved from its value at entry by the configured bound or more. -/
def greekBreached (bound entry now : Option ℚ) : Bool :=
  match bound, entry, now with
  | some b, some e, some n => b ≤ |n - e|
  | _, _, _ => false

def deskGreekExit (desk : DirectionalDeskConfig) (position : PositionState) (leg : LegState)
    (market : MarketState) : Option ExitTrigger :=
  if desk.maxAbsDeltaMove.isNone ∧ desk.maxAbsGammaShock.isNone then none
  else
    match (market.quoteFor leg.symbol).or (market.chain.getQuote leg.symbol) with
    | none => none
    | some quote =>
      match Table.lookup Prod.fst leg.symbol position.notes.entryGreeks with
      | none => none
      | some row =>
        if greekBreached desk.maxAbsDeltaMove row.2.delta quote.delta then some .deltaBreach
        else if greekBreached desk.maxAbsGammaShock row.2.gamma quote.gamma then some .gammaShock
        else none

/-- The underlying has moved against the position by the configured multiple of
    the range at entry. -/
def underlyingStopped (cfg : DirectionalExits) (position : PositionState) (leg : LegState)
    (market : MarketState) (mid entry : ℚ) : Bool :=
  match position.entryUnderlyingPrice, position.entryAtr, market.spot position.underlying with
  | some entrySpot, some entryAtr, some spotNow =>
    let adverse := if leg.optionType = some .call then entrySpot - spotNow else spotNow - entrySpot
    mid ≤ entry ∧ cfg.underlyingAtrMultStop * entryAtr ≤ adverse
  | _, _, _ => false

/-- The action once a middle price and an entry premium are known. -/
def managePriced (position : PositionState) (market : MarketState) (leg : LegState)
    (mid entry : ℚ) : Action :=
  let cfg := self.config.exits
  -- The order is the source's: greeks, target, drawdown, trailing stop, underlying. A new
  -- stop is proposed only when none of them closes.
  match deskGreekExit self.config.desk position leg market with
  | some trigger => .closeFor trigger
  | none =>
    if (1 + cfg.targetR) * entry ≤ mid then .closeFor .target
    else if mid ≤ (1 - cfg.premiumDrawdownPct) * entry then .closeFor .premiumStop
    else if ∃ stop ∈ position.currentTrailStopPrice, mid ≤ stop then .closeFor .trailBreakeven
    else if underlyingStopped cfg position leg market mid entry then .closeFor .underlyingStop
    else
      let riskPerLot := entry * max position.lots 1
      if (∃ peak ∈ position.peakPnlInr, cfg.trailBreakevenAtR * riskPerLot ≤ peak) ∧
          position.currentTrailStopPrice.isNone then .trailTo entry
      else .noOp

def manage (position : PositionState) (market : MarketState) : List Action :=
  if position.expiry.hoursSince market.now ≤ self.config.exits.forceCloseHoursBeforeExpiry then
    [.closeFor .forceCloseExpiry]
  else
    match position.legStates, position.entryPremiumInr with
    | leg :: _, some entry =>
      -- Without a price there is nothing to decide on.
      match leg.currentMid with
      | none => [.noOp]
      | some mid => [self.managePriced position market leg mid entry]
    | _, _ => [.noOp]

theorem usable_eq_some (sel : Option StrikeSelection) (s : StrikeSelection)
    (h : usable sel = some s) : sel = some s ∧ ∃ mid, s.quote.mid = some mid := by
  rw [usable, Option.filter_eq_some_iff] at h
  exact ⟨h.1, Option.isSome_iff_exists.mp h.2⟩

theorem strikeForMode_mem (chain : ChainCache) (underlying : Underlying) (optionType : OptionType)
    (bucket : ExpiryBucket) (spot : ℚ) (mode : StrikeMode) (now : DateTime) (sel : StrikeSelection)
    (h : strikeForMode chain underlying optionType bucket spot mode now = some sel) :
    sel.instrument ∈ chain.instrumentsFor underlying optionType bucket now := by
  unfold strikeForMode at h
  cases mode with
  | atm => exact selectStrike_mem _ _ _ _ _ _ _ _ _ _ _ h
  | otmPlusOne => exact selectStrike_mem _ _ _ _ _ _ _ _ _ _ _ h

theorem pickEntryStrike_mem (market : MarketState) (underlying : Underlying)
    (optionType : OptionType) (bucket : ExpiryBucket) (spot : ℚ) (sel : StrikeSelection)
    (h : self.pickEntryStrike market underlying optionType bucket spot = some sel) :
    sel.instrument ∈ market.chain.instrumentsFor underlying optionType bucket market.now := by
  unfold pickEntryStrike at h
  simp only at h
  split at h
  · next s hdelta =>
    cases h
    split at hdelta
    · cases hdelta
    · exact selectStrike_mem _ _ _ _ _ _ _ _ _ _ _ (usable_eq_some _ _ hdelta).1
  · split at h
    · next s hprimary =>
      cases h
      exact strikeForMode_mem _ _ _ _ _ _ _ _ (usable_eq_some _ _ hprimary).1
    · exact strikeForMode_mem _ _ _ _ _ _ _ _ h

/-- With no delta to prefer, a primary strike that is priced is picked. -/
theorem pickEntryStrike_primary (market : MarketState) (underlying : Underlying)
    (optionType : OptionType) (bucket : ExpiryBucket) (spot : ℚ) (sel : StrikeSelection)
    (hdelta : self.config.desk.preferDeltaStrike = none)
    (hprimary : usable (strikeForMode market.chain underlying optionType bucket spot
      self.config.strike.primary market.now) = some sel) :
    self.pickEntryStrike market underlying optionType bucket spot = some sel := by
  unfold pickEntryStrike
  simp only [hdelta, hprimary]

theorem enter_intent (market : MarketState) (underlying : Underlying) (spot : ℚ)
    (optionType : OptionType) (features : Features) (intent : Intent)
    (h : (self.enter market underlying spot optionType features).intent = some intent) :
    ∃ all sel mid, sel.instrument ∈ market.chain.instrumentsFor underlying optionType
        (self.pickExpiryBucket market) market.now ∧ sel.quote.mid = some mid ∧
      intent = self.entryIntent market underlying optionType (self.pickExpiryBucket market) all
        sel := by
  unfold enter at h
  simp only at h
  split at h
  · cases h
  · split at h
    · cases h
    · next sel hsel =>
      rcases usable_eq_some _ _ hsel with ⟨hpick, mid, hmid⟩
      split at h
      · cases h
      · simp only [Option.some.injEq] at h
        exact ⟨_, sel, mid, self.pickEntryStrike_mem _ _ _ _ _ _ hpick, hmid, h.symm⟩

theorem strikeForMode_quote (chain : ChainCache) (underlying : Underlying)
    (optionType : OptionType) (bucket : ExpiryBucket) (spot : ℚ) (mode : StrikeMode)
    (now : DateTime) (sel : StrikeSelection)
    (h : strikeForMode chain underlying optionType bucket spot mode now = some sel) :
    chain.getQuote sel.instrument.symbol = some sel.quote := by
  unfold strikeForMode at h
  cases mode with
  | atm => exact selectStrike_quote _ _ _ _ _ _ _ _ _ _ _ h
  | otmPlusOne => exact selectStrike_quote _ _ _ _ _ _ _ _ _ _ _ h

theorem pickEntryStrike_quote (market : MarketState) (underlying : Underlying)
    (optionType : OptionType) (bucket : ExpiryBucket) (spot : ℚ) (sel : StrikeSelection)
    (h : self.pickEntryStrike market underlying optionType bucket spot = some sel) :
    market.chain.getQuote sel.instrument.symbol = some sel.quote := by
  unfold pickEntryStrike at h
  simp only at h
  split at h
  · next s hdelta =>
    cases h
    split at hdelta
    · cases hdelta
    · exact selectStrike_quote _ _ _ _ _ _ _ _ _ _ _ (usable_eq_some _ _ hdelta).1
  · split at h
    · next s hprimary =>
      cases h
      exact strikeForMode_quote _ _ _ _ _ _ _ _ (usable_eq_some _ _ hprimary).1
    · exact strikeForMode_quote _ _ _ _ _ _ _ _ h

/-- An intent carries the one option it was made for, whose spread has been tested if its quote has
    one. -/
theorem enter_tested (market : MarketState) (underlying : Underlying) (spot : ℚ)
    (optionType : OptionType) (features : Features) (intent : Intent)
    (h : (self.enter market underlying spot optionType features).intent = some intent) :
    ∃ all sel, market.chain.getQuote sel.instrument.symbol = some sel.quote ∧
      (∀ s, sel.quote.spreadPct = some s → s ≤ self.spreadPctMax) ∧
      intent = self.entryIntent market underlying optionType (self.pickExpiryBucket market) all
        sel := by
  unfold enter at h
  simp only at h
  split at h
  · cases h
  · split at h
    · cases h
    · next sel hsel =>
      rcases usable_eq_some _ _ hsel with ⟨hpick, _⟩
      split at h
      · cases h
      · next hspread =>
        simp only [Option.some.injEq] at h
        refine ⟨_, sel, self.pickEntryStrike_quote _ _ _ _ _ _ hpick, fun s hs => ?_, h.symm⟩
        exact not_lt.mp (fun hlt => hspread ⟨s, hs, hlt⟩)

/-- A usable selection with an acceptable spread is entered. -/
theorem enter_passes (market : MarketState) (underlying : Underlying) (spot : ℚ)
    (optionType : OptionType) (features : Features) (sel : StrikeSelection)
    (hiv : ivEntryBlocked self.config.desk
      (market.ivPercentile underlying (self.pickExpiryBucket market)) = false)
    (hsel : usable (self.pickEntryStrike market underlying optionType
      (self.pickExpiryBucket market) spot) = some sel)
    (hspread : ∀ s, sel.quote.spreadPct = some s → s ≤ self.spreadPctMax) :
    ∃ all, (self.enter market underlying spot optionType features).passed = true ∧
      (self.enter market underlying spot optionType features).intent =
        some (self.entryIntent market underlying optionType (self.pickExpiryBucket market) all
          sel) := by
  have hfine : ¬ ∃ s ∈ sel.quote.spreadPct, self.spreadPctMax < s := by
    rintro ⟨s, hs, hlt⟩
    exact absurd (hspread s hs) (not_le.mpr hlt)
  unfold enter
  simp only [hiv, Bool.false_eq_true, if_false, hsel, if_neg hfine]
  exact ⟨_, True.intro, rfl⟩

/-- Past the first checks, the decision follows the two setups. -/
theorem evaluateOne_levels (market : MarketState) (underlying : Underlying) (spot : ℚ)
    (levels : TrendLevels)
    (hcool : self.context.isUnderlyingInCooldown underlying market.now = false)
    (hspot : market.spot underlying = some spot)
    (hbars : self.config.entry.minBars ≤
      (market.candles underlying self.config.entry.timeframe).length)
    (hlevels : trendLevels (market.candles underlying self.config.entry.timeframe)
      self.config.entry = .ok (some levels)) :
    self.evaluateOne market underlying = .ok (
      if levels.longSetup then
        self.enter market underlying spot .call (("spot", .num (some spot)) :: levels.features)
      else if levels.shortSetup then
        self.enter market underlying spot .put (("spot", .num (some spot)) :: levels.features)
      else rejected .directional underlying none .filterFailed
        (("spot", .num (some spot)) :: levels.features)) := by
  unfold evaluateOne
  simp only [hcool, Bool.false_eq_true, if_false, hspot, if_neg (not_lt.mpr hbars), hlevels]
  split_ifs <;> rfl

/-- A decision with an intent is one of `enter`. -/
theorem evaluateOne_enter (market : MarketState) (underlying : Underlying) (d : Decision)
    (intent : Intent) (h : self.evaluateOne market underlying = .ok d)
    (hi : d.intent = some intent) :
    self.context.isUnderlyingInCooldown underlying market.now = false ∧
      ∃ spot optionType features,
        (self.enter market underlying spot optionType features).intent = some intent := by
  unfold evaluateOne at h
  simp only at h
  split at h
  · cases h
    cases hi
  · next hcooldown =>
    rw [Bool.not_eq_true] at hcooldown
    refine ⟨hcooldown, ?_⟩
    split at h
    · cases h
      cases hi
    · next spot _ =>
      split at h
      · cases h
        cases hi
      · split at h
        · cases h
        · cases h
          cases hi
        · split at h
          · cases h
            exact ⟨spot, .call, _, hi⟩
          · split at h
            · cases h
              exact ⟨spot, .put, _, hi⟩
            · cases h
              cases hi

/-- An emitted intent buys one listed option of the picked bucket, with a quote
    that has a middle. -/
theorem evaluateOne_intent (market : MarketState) (underlying : Underlying) (d : Decision)
    (intent : Intent) (h : self.evaluateOne market underlying = .ok d)
    (hi : d.intent = some intent) :
    ∃ optionType all sel mid, sel.instrument ∈ market.chain.instrumentsFor underlying optionType
        (self.pickExpiryBucket market) market.now ∧ sel.quote.mid = some mid ∧
      intent = self.entryIntent market underlying optionType (self.pickExpiryBucket market) all
        sel := by
  rcases self.evaluateOne_enter market underlying d intent h hi with
    ⟨_, spot, optionType, features, henter⟩
  exact ⟨optionType, self.enter_intent _ _ _ _ _ _ henter⟩

/-- The two reasons of a greek exit. -/
theorem deskGreekExit_cases (desk : DirectionalDeskConfig) (position : PositionState)
    (leg : LegState) (market : MarketState) :
    deskGreekExit desk position leg market = none ∨
      deskGreekExit desk position leg market = some .deltaBreach ∨
      deskGreekExit desk position leg market = some .gammaShock := by
  unfold deskGreekExit
  split
  · exact Or.inl rfl
  · split
    · exact Or.inl rfl
    · split
      · exact Or.inl rfl
      · split_ifs
        · exact Or.inr (Or.inl rfl)
        · exact Or.inr (Or.inr rfl)
        · exact Or.inl rfl

theorem managePriced_force (position : PositionState) (market : MarketState) (leg : LegState)
    (mid entry : ℚ) :
    (self.managePriced position market leg mid entry).close ≠ some .forceCloseExpiry := by
  unfold managePriced
  simp only
  rcases deskGreekExit_cases self.config.desk position leg market with h | h | h
  · rw [h]
    simp only
    split_ifs <;> exact fun h => by cases h
  · rw [h]
    exact fun h => by cases h
  · rw [h]
    exact fun h => by cases h

/-- A close at the trailing stop has the price at or below the stop. -/
theorem managePriced_breakeven (position : PositionState) (market : MarketState) (leg : LegState)
    (mid entry : ℚ)
    (hclose : self.managePriced position market leg mid entry = .closeFor .trailBreakeven) :
    ∃ stop, position.currentTrailStopPrice = some stop ∧ mid ≤ stop := by
  unfold managePriced at hclose
  simp only at hclose
  rcases deskGreekExit_cases self.config.desk position leg market with h | h | h
  · rw [h] at hclose
    simp only at hclose
    split_ifs at hclose with htarget hdrawdown hstop hunder hpeak
    · cases hclose
    · cases hclose
    · rcases hstop with ⟨stop, hmem, hle⟩
      exact ⟨stop, hmem, hle⟩
    · cases hclose
    · cases hclose
    · cases hclose
  · rw [h] at hclose
    cases hclose
  · rw [h] at hclose
    cases hclose

/-- A proposed stop is the entry premium. -/
theorem managePriced_trail (position : PositionState) (market : MarketState) (leg : LegState)
    (mid entry stop : ℚ)
    (htrail : self.managePriced position market leg mid entry = .trailTo stop) : stop = entry := by
  unfold managePriced at htrail
  simp only at htrail
  split at htrail
  · cases htrail
  · split_ifs at htrail
    · cases htrail
    · cases htrail
    · cases htrail
    · cases htrail
    · cases htrail
      rfl
    · cases htrail

/-- A stop is proposed only while there is none. -/
theorem managePriced_unset (position : PositionState) (market : MarketState) (leg : LegState)
    (mid entry stop : ℚ)
    (htrail : self.managePriced position market leg mid entry = .trailTo stop) :
    position.currentTrailStopPrice = none := by
  unfold managePriced at htrail
  simp only at htrail
  split at htrail
  · cases htrail
  · split_ifs at htrail with htarget hdrawdown hstop hunder hpropose
    · cases htrail
    · cases htrail
    · cases htrail
    · cases htrail
    · exact Option.isNone_iff_eq_none.mp hpropose.2
    · cases htrail

/-- `manage` closes for expiry exactly inside the configured hours. -/
theorem manage_force_iff (position : PositionState) (market : MarketState) :
    Action.closeFor .forceCloseExpiry ∈ self.manage position market ↔
      position.expiry.hoursSince market.now ≤ self.config.exits.forceCloseHoursBeforeExpiry := by
  unfold manage
  split_ifs with h
  · exact ⟨fun _ => h, fun _ => List.mem_singleton.mpr rfl⟩
  · refine ⟨fun hmem => absurd ?_ h, fun hle => absurd hle h⟩
    split at hmem
    · split at hmem
      · rw [List.mem_singleton] at hmem
        exact absurd hmem (by decide)
      · rw [List.mem_singleton] at hmem
        have hclose := congrArg Action.close hmem
        exact absurd hclose.symm (self.managePriced_force _ _ _ _ _)
    · rw [List.mem_singleton] at hmem
      exact absurd hmem (by decide)

/-- Without a middle price of its leg, a position is closed for expiry only. -/
theorem manage_unpriced (position : PositionState) (market : MarketState)
    (h : ∀ leg rest, position.legStates = leg :: rest → leg.currentMid = none)
    (trigger : ExitTrigger) (hmem : Action.closeFor trigger ∈ self.manage position market) :
    trigger = .forceCloseExpiry := by
  unfold manage at hmem
  split at hmem
  · cases List.mem_singleton.mp hmem
    rfl
  · split at hmem
    · next leg rest entry hlegs _ =>
      rw [h leg rest hlegs] at hmem
      cases List.mem_singleton.mp hmem
    · cases List.mem_singleton.mp hmem

/-- An action other than closing for expiry or nothing is decided on a price. -/
theorem manage_priced (position : PositionState) (market : MarketState) (action : Action)
    (hmem : action ∈ self.manage position market) (hforce : action ≠ .closeFor .forceCloseExpiry)
    (hnoOp : action ≠ .noOp) :
    ∃ leg rest mid entry, position.legStates = leg :: rest ∧ leg.currentMid = some mid ∧
      position.entryPremiumInr = some entry ∧
      self.managePriced position market leg mid entry = action := by
  unfold manage at hmem
  split at hmem
  · exact absurd (List.mem_singleton.mp hmem) hforce
  · split at hmem
    · next leg rest entry hlegs hentry =>
      split at hmem
      · exact absurd (List.mem_singleton.mp hmem) hnoOp
      · next mid hmid =>
        exact ⟨leg, rest, mid, entry, hlegs, hmid, hentry, (List.mem_singleton.mp hmem).symm⟩
    · exact absurd (List.mem_singleton.mp hmem) hnoOp

/-- `manage` proposes a stop only while there is none, and then the entry premium. -/
theorem manage_trail (position : PositionState) (market : MarketState) (stop : ℚ)
    (hmem : Action.trailTo stop ∈ self.manage position market) :
    position.currentTrailStopPrice = none ∧ position.entryPremiumInr = some stop := by
  rcases self.manage_priced position market _ hmem (fun h => by cases h) (fun h => by cases h) with
    ⟨leg, rest, mid, entry, _, _, hentry, hpriced⟩
  refine ⟨self.managePriced_unset _ _ _ _ _ _ hpriced, ?_⟩
  rw [hentry, self.managePriced_trail _ _ _ _ _ _ hpriced]

end DirectionalStrategy

end OptionsBot
