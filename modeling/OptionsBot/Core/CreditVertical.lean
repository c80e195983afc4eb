import OptionsBot.Core.Candles
import OptionsBot.Core.Desk

/-!
# Credit Vertical Strategy

A defined-risk credit spread along the trend: a bull put spread when it is up, a
bear call spread when it is down, both legs picked by delta in the preferred
bucket.

`manage` counts calendar days on the IST clock, then compares the cost to unwind
with the credit received. A cost that is not known counts as zero.

## Main definitions

* `CreditVerticalStrategy`: The configuration and the cooldown bookkeeping.
* `CreditVerticalStrategy.evaluateOne`: The decision on one underlying.
* `CreditVerticalStrategy.daysToExpiry`: Calendar days between two IST dates.
* `CreditVerticalStrategy.manage`: The action on an open position.

## Theorems

* `enter_spread`: What an entry is.
* `evaluateOne_intent`: An emitted intent's legs expire in the preferred bucket.
* `manage_force_iff`: `manage` closes for expiry exactly within the configured
  days.
* `manage_close`: The three reasons `manage` closes for.
* `manage_target_iff`, `manage_stop_iff`: Outside them, `manage` decides on the
  cost to unwind.
-/

namespace OptionsBot

structure CreditVerticalStrategy where
  config : CreditVerticalConfig
  context : StrategyContext := {}

namespace CreditVerticalStrategy

variable (self : CreditVerticalStrategy)

def pickExpiryBucket : ExpiryBucket := self.config.expiry.prefer

/-- The short strike and the long strike, by delta. -/
def pickStrikes (market : MarketState) (underlying : Underlying) (optionType : OptionType) :
    Option (StrikeSelection × StrikeSelection) :=
  let wings := self.config.spread
  let pick (target lo hi : ℚ) :=
    (selectStrike market.chain underlying optionType self.pickExpiryBucket (some target) (some lo)
      (some hi) none 0 market.now).filter (fun s => s.quote.mid.isSome)
  match pick wings.shortDeltaTarget wings.shortDeltaMin wings.shortDeltaMax,
      pick wings.longDeltaTarget wings.longDeltaMin wings.longDeltaMax with
  | some short, some long => some (short, long)
  | _, _ => none

def legFor (sel : StrikeSelection) (side : Side) (optionType : OptionType) : LegIntent :=
  { symbol := sel.instrument.symbol, side := side, optionType := optionType,
    strike := sel.instrument.strike, expiry := sel.instrument.expiry }

/-- The legs of a spread, in order of strike. -/
def spreadLegs (optionType : OptionType) (short long : StrikeSelection) : List LegIntent :=
  match optionType with
  | .put => [legFor long .buy .put, legFor short .sell .put]
  | .call => [legFor short .sell .call, legFor long .buy .call]

def spreadKind : OptionType → String
  | .put => "bull_put"
  | .call => "bear_call"

/-- The distance between the strikes, positive for a proper spread. -/
def spreadWidth (optionType : OptionType) (short long : StrikeSelection) : ℚ :=
  match optionType with
  | .put => short.instrument.strike - long.instrument.strike
  | .call => long.instrument.strike - short.instrument.strike

/-- The decision once the trend has set up. -/
def enter (market : MarketState) (underlying : Underlying) (optionType : OptionType)
    (features : Features) : Decision :=
  let cfg := self.config
  let bucket := self.pickExpiryBucket
  let reject := rejected .creditVertical underlying
  match self.pickStrikes market underlying optionType with
  | none => reject none .spreadDeltaUnfillable features
  | some (short, long) =>
    match short.quote.mid, long.quote.mid with
    | some shortMid, some longMid =>
      let width := spreadWidth optionType short long
      -- Both legs are picked by delta, so the strikes can come out in the wrong order.
      if width ≤ 0 then reject none .spreadDeltaUnfillable features
      else
        let credit := shortMid - longMid
        let liquidity := checkMultiLegLiquidity [("long", long), ("short", short)]
          cfg.desk.minOpenInterest cfg.desk.greeksRequired
        let features := features.update liquidity.features
        if !liquidity.ok then
          reject liquidity.symbol (liquidity.reason.getD .filterFailed) features
        else
          let maxLoss := width - credit
          -- The width bounds the loss, less what was received.
          if credit ≤ 0 ∨ maxLoss ≤ 0 ∨ credit < cfg.credit.minCreditPctOfWidth * width then
            reject none .creditTooThin
              (features.update [("credit", .num (some credit)), ("width", .num (some width)),
                ("spread_kind", .text (spreadKind optionType))])
          else
            let features := features.update
              [("spread_kind", .text (spreadKind optionType)), ("credit", .num (some credit)),
                ("width", .num (some width)), ("max_loss", .num (some maxLoss)),
                ("bucket", .bucket bucket)]
            let lotSize := short.instrument.lotSize
            { strategyId := .creditVertical, underlying := underlying, symbol := none,
              passed := true, reason := .passed, featureVector := features,
              intent := some
                { strategyId := .creditVertical
                  underlying := underlying
                  bucket := bucket
                  legs := spreadLegs optionType short long
                  requestedLots := cfg.maxLotsCap
                  rationale := "credit_vertical_" ++ spreadKind optionType
                  featureVector := features
                  targetCreditInr := market.premiumInr (some credit) lotSize
                  targetMaxLossInr := market.premiumInr (some maxLoss) lotSize } }
    | _, _ => reject none .spreadDeltaUnfillable features

def evaluateOne (market : MarketState) (underlying : Underlying) : Except PyError Decision :=
  let reject := rejected .creditVertical underlying none
  if self.context.isInCooldown market.now then .ok (reject .cooldownActive [])
  else
    match market.spot underlying with
    | none => .ok (reject .missingSpot [])
    | some spot =>
      match evaluateTrendBreakout (market.candles underlying self.config.entry.timeframe)
          self.config.entry with
      | .error e => .error e
      | .ok (.error reason features) => .ok (reject reason features)
      | .ok (.levels levels) =>
        let features : Features := ("spot", .num (some spot)) :: levels.features ++
          [("long_setup", .flag levels.longSetup), ("short_setup", .flag levels.shortSetup)]
        -- Up sells puts below the market, down sells calls above it.
        if levels.longSetup then .ok (self.enter market underlying .put features)
        else if levels.shortSetup then .ok (self.enter market underlying .call features)
        else .ok (reject .filterFailed features)

def evaluate (market : MarketState) : Except PyError (List Intent × List Decision) :=
  evaluateAll (self.evaluateOne market) self.config.underlyings

/-- Calendar days to expiry on the IST clock. -/
def daysToExpiry (expiry now : DateTime) : Int := (utcToIst expiry).date - (utcToIst now).date

/-- The cost to unwind that `manage` works with. -/
def unwindCost (position : PositionState) : ℚ := orFloat position.notes.currentUnwindCost 0

def manage (position : PositionState) (market : MarketState) : List Action :=
  let cfg := self.config.exits
  -- The clock comes first, so a position near its expiry needs no price to be closed.
  if daysToExpiry position.expiry market.now ≤ cfg.forceCloseDaysBeforeExpiry then
    [.closeFor .forceCloseExpiry]
  else
    match position.entryCreditInr with
    | none => [.noOp]
    | some entryCredit =>
      let cost := unwindCost position
      if cfg.profitTakePctOfCredit * entryCredit ≤ entryCredit - cost then [.closeFor .target]
      else if cfg.stopLossXCredit * entryCredit ≤ cost then [.closeFor .premiumStop]
      else [.noOp]

theorem pickStrikes_mem (market : MarketState) (underlying : Underlying) (optionType : OptionType)
    (short long : StrikeSelection)
    (h : self.pickStrikes market underlying optionType = some (short, long)) :
    short.instrument ∈ market.chain.instrumentsFor underlying optionType self.pickExpiryBucket
        market.now ∧
      long.instrument ∈ market.chain.instrumentsFor underlying optionType self.pickExpiryBucket
        market.now := by
  unfold pickStrikes at h
  simp only at h
  split at h
  · next s l hs hl =>
    cases h
    rw [Option.filter_eq_some_iff] at hs hl
    exact ⟨selectStrike_mem _ _ _ _ _ _ _ _ _ _ _ hs.1,
      selectStrike_mem _ _ _ _ _ _ _ _ _ _ _ hl.1⟩
  · cases h

theorem pickStrikes_quote (market : MarketState) (underlying : Underlying)
    (optionType : OptionType) (short long : StrikeSelection)
    (h : self.pickStrikes market underlying optionType = some (short, long)) :
    market.chain.getQuote short.instrument.symbol = some short.quote ∧
      market.chain.getQuote long.instrument.symbol = some long.quote := by
  unfold pickStrikes at h
  simp only at h
  split at h
  · next s l hs hl =>
    cases h
    rw [Option.filter_eq_some_iff] at hs hl
    exact ⟨selectStrike_quote _ _ _ _ _ _ _ _ _ _ _ hs.1,
      selectStrike_quote _ _ _ _ _ _ _ _ _ _ _ hl.1⟩
  · cases h

/-- The deltas of the picked strikes are within their bands. -/
theorem pickStrikes_delta (market : MarketState) (underlying : Underlying)
    (optionType : OptionType) (short long : StrikeSelection)
    (h : self.pickStrikes market underlying optionType = some (short, long)) :
    (∃ delta, short.quote.delta = some delta ∧ self.config.spread.shortDeltaMin ≤ |delta| ∧
        |delta| ≤ self.config.spread.shortDeltaMax) ∧
      ∃ delta, long.quote.delta = some delta ∧ self.config.spread.longDeltaMin ≤ |delta| ∧
        |delta| ≤ self.config.spread.longDeltaMax := by
  unfold pickStrikes at h
  simp only at h
  split at h
  · next s l hs hl =>
    cases h
    rw [Option.filter_eq_some_iff] at hs hl
    rcases market.chain.getStrikeByDelta_delta _ _ _ _ _ _ _ _ hs.1 with ⟨ds, hds, hlos, hhis⟩
    rcases market.chain.getStrikeByDelta_delta _ _ _ _ _ _ _ _ hl.1 with ⟨dl, hdl, hlol, hhil⟩
    exact ⟨⟨ds, hds, hlos _ rfl, hhis _ rfl⟩, dl, hdl, hlol _ rfl, hhil _ rfl⟩
  · cases h

/-- What an entry is: the picked strikes in the proper order, their credit within
    the width, and the targets computed from both. -/
theorem enter_spread (market : MarketState) (underlying : Underlying) (optionType : OptionType)
    (features : Features) (intent : Intent)
    (h : (self.enter market underlying optionType features).intent = some intent) :
    ∃ short long shortMid longMid,
      self.pickStrikes market underlying optionType = some (short, long) ∧
      short.quote.mid = some shortMid ∧ long.quote.mid = some longMid ∧
      0 < shortMid - longMid ∧ shortMid - longMid < spreadWidth optionType short long ∧
      intent.strategyId = .creditVertical ∧ intent.underlying = underlying ∧
      intent.legs = spreadLegs optionType short long ∧ intent.spreadPctMax = 8 / 100 ∧
      intent.targetCreditInr =
        market.premiumInr (some (shortMid - longMid)) short.instrument.lotSize ∧
      intent.targetMaxLossInr = market.premiumInr
        (some (spreadWidth optionType short long - (shortMid - longMid)))
        short.instrument.lotSize := by
  unfold enter at h
  simp only at h
  split at h
  · cases h
  · next short long hpick =>
    split at h
    · next shortMid longMid hshort hlong =>
      split at h
      · cases h
      · split at h
        · cases h
        · split at h
          · cases h
          · next hthin =>
            rw [not_or, not_or, not_le, not_le] at hthin
            simp only [Option.some.injEq] at h
            rw [← h]
            exact ⟨short, long, shortMid, longMid, hpick, hshort, hlong, hthin.1,
              sub_pos.mp hthin.2.1, rfl, rfl, rfl, rfl, rfl, rfl⟩
    · cases h

/-- The legs of an entry are listed in the preferred bucket. -/
theorem enter_intent (market : MarketState) (underlying : Underlying) (optionType : OptionType)
    (features : Features) (intent : Intent)
    (h : (self.enter market underlying optionType features).intent = some intent) :
    ∃ short long, intent.legs = spreadLegs optionType short long ∧
      intent.strategyId = .creditVertical ∧
      short.instrument ∈ market.chain.instrumentsFor underlying optionType self.pickExpiryBucket
        market.now ∧
      long.instrument ∈ market.chain.instrumentsFor underlying optionType self.pickExpiryBucket
        market.now := by
  rcases self.enter_spread market underlying optionType features intent h with
    ⟨short, long, _, _, hpick, _, _, _, _, hid, _, hlegs, _⟩
  exact ⟨short, long, hlegs, hid, self.pickStrikes_mem _ _ _ _ _ hpick⟩

/-- The strikes of an entry are those that were picked, and its limit is the default one. -/
theorem enter_picked (market : MarketState) (underlying : Underlying) (optionType : OptionType)
    (features : Features) (intent : Intent)
    (h : (self.enter market underlying optionType features).intent = some intent) :
    ∃ short long, self.pickStrikes market underlying optionType = some (short, long) ∧
      intent.legs = spreadLegs optionType short long ∧ intent.spreadPctMax = 8 / 100 := by
  rcases self.enter_spread market underlying optionType features intent h with
    ⟨short, long, _, _, hpick, _, _, _, _, _, _, hlegs, hlimit, _⟩
  exact ⟨short, long, hpick, hlegs, hlimit⟩

/-- A decision with an intent is one of `enter`. -/
theorem evaluateOne_enter (market : MarketState) (underlying : Underlying) (d : Decision)
    (intent : Intent) (h : self.evaluateOne market underlying = .ok d)
    (hi : d.intent = some intent) :
    ∃ optionType features,
      (self.enter market underlying optionType features).intent = some intent := by
  unfold evaluateOne at h
  simp only at h
  split at h
  · cases h
    cases hi
  · split at h
    · cases h
      cases hi
    · split at h
      · cases h
      · cases h
        cases hi
      · split at h
        · cases h
          exact ⟨.put, _, hi⟩
        · split at h
          · cases h
            exact ⟨.call, _, hi⟩
          · cases h
            cases hi

theorem evaluateOne_intent (market : MarketState) (underlying : Underlying) (d : Decision)
    (intent : Intent) (h : self.evaluateOne market underlying = .ok d)
    (hi : d.intent = some intent) :
    ∃ optionType short long, intent.legs = spreadLegs optionType short long ∧
      intent.strategyId = .creditVertical ∧
      short.instrument ∈ market.chain.instrumentsFor underlying optionType self.pickExpiryBucket
        market.now ∧
      long.instrument ∈ market.chain.instrumentsFor underlying optionType self.pickExpiryBucket
        market.now := by
  rcases self.evaluateOne_enter market underlying d intent h hi with ⟨optionType, _, henter⟩
  exact ⟨optionType, self.enter_intent _ _ _ _ _ henter⟩

/-- `manage` closes for expiry exactly within the configured days. -/
theorem manage_force_iff (position : PositionState) (market : MarketState) :
    Action.closeFor .forceCloseExpiry ∈ self.manage position market ↔
      daysToExpiry position.expiry market.now ≤
        self.config.exits.forceCloseDaysBeforeExpiry := by
  unfold manage
  simp only
  split_ifs with h
  · exact ⟨fun _ => h, fun _ => List.mem_singleton.mpr rfl⟩
  · refine ⟨fun hmem => absurd ?_ h, fun hle => absurd hle h⟩
    split at hmem
    · exact absurd hmem (by decide)
    · split_ifs at hmem <;> exact absurd hmem (by decide)

/-- The three reasons `manage` closes for. -/
theorem manage_close (position : PositionState) (market : MarketState) (trigger : ExitTrigger)
    (hmem : Action.closeFor trigger ∈ self.manage position market) :
    trigger = .forceCloseExpiry ∨ trigger = .target ∨ trigger = .premiumStop := by
  unfold manage at hmem
  simp only at hmem
  split at hmem
  · cases List.mem_singleton.mp hmem
    exact Or.inl rfl
  · split at hmem
    · cases List.mem_singleton.mp hmem
    · split_ifs at hmem
      · cases List.mem_singleton.mp hmem
        exact Or.inr (Or.inl rfl)
      · cases List.mem_singleton.mp hmem
        exact Or.inr (Or.inr rfl)
      · cases List.mem_singleton.mp hmem

/-- `manage` takes the profit exactly outside the days before expiry, once it
    reaches its share of the credit. -/
theorem manage_target_iff (position : PositionState) (market : MarketState) :
    Action.closeFor .target ∈ self.manage position market ↔
      ¬ daysToExpiry position.expiry market.now ≤ self.config.exits.forceCloseDaysBeforeExpiry ∧
        ∃ credit, position.entryCreditInr = some credit ∧
          self.config.exits.profitTakePctOfCredit * credit ≤ credit - unwindCost position := by
  unfold manage
  simp only
  by_cases hforce : daysToExpiry position.expiry market.now ≤
      self.config.exits.forceCloseDaysBeforeExpiry
  · rw [if_pos hforce]
    exact ⟨fun h => absurd h (by decide), fun h => absurd hforce h.1⟩
  · rw [if_neg hforce]
    rcases hcredit : position.entryCreditInr with _ | credit
    · simp only [List.mem_singleton, reduceCtorEq, false_and, exists_false, and_false, iff_false]
      decide
    · simp only [Option.some.injEq, exists_eq_left', hforce, not_false_eq_true, true_and]
      split_ifs with htarget hstop
      · exact ⟨fun _ => htarget, fun _ => List.mem_singleton.mpr rfl⟩
      · exact ⟨fun h => absurd h (by decide), fun h => absurd h htarget⟩
      · exact ⟨fun h => absurd h (by decide), fun h => absurd h htarget⟩

/-- `manage` stops the loss exactly outside the days before expiry, once the cost
    reaches its multiple of the credit and the profit is not taken. -/
theorem manage_stop_iff (position : PositionState) (market : MarketState) :
    Action.closeFor .premiumStop ∈ self.manage position market ↔
      ¬ daysToExpiry position.expiry market.now ≤ self.config.exits.forceCloseDaysBeforeExpiry ∧
        ∃ credit, position.entryCreditInr = some credit ∧
          ¬ self.config.exits.profitTakePctOfCredit * credit ≤ credit - unwindCost position ∧
          self.config.exits.stopLossXCredit * credit ≤ unwindCost position := by
  unfold manage
  simp only
  by_cases hforce : daysToExpiry position.expiry market.now ≤
      self.config.exits.forceCloseDaysBeforeExpiry
  · rw [if_pos hforce]
    exact ⟨fun h => absurd h (by decide), fun h => absurd hforce h.1⟩
  · rw [if_neg hforce]
    rcases hcredit : position.entryCreditInr with _ | credit
    · simp only [List.mem_singleton, reduceCtorEq, false_and, exists_false, and_false, iff_false]
      decide
    · simp only [Option.some.injEq, exists_eq_left', hforce, not_false_eq_true, true_and]
      split_ifs with htarget hstop
      · exact ⟨fun h => absurd h (by decide), fun h => absurd htarget h.1⟩
      · exact ⟨fun _ => ⟨htarget, hstop⟩, fun _ => List.mem_singleton.mpr rfl⟩
      · exact ⟨fun h => absurd h (by decide), fun h => absurd h.2 hstop⟩

end CreditVerticalStrategy

end OptionsBot
