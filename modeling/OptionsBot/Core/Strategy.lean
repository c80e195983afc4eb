import OptionsBot.Core.Chain

/-!
# Strategy Interface

What a strategy proposes (an `Intent`), what it does with an open position (an
`Action`), and the two inputs it decides on: the market as of one tick and the
strategy-agnostic view of an open position.

A feature vector is a dictionary kept in insertion order. The notes of a
position are the entries of `trade.notes` that some decision reads.

## Main definitions

* `Side`, `ExitTrigger`, `ActionType`: The enumerations.
* `LegIntent`, `Intent`: An entry a strategy proposes.
* `Action`: A management decision, `Action.closeFor` and `Action.noOp` being
  the usual ones.
* `PositionState`: A view of an open position.
* `MarketState`: The market as of one tick.
* `StrategyContext`: The cooldown bookkeeping of a strategy.
* `selectStrike`: The delta picker if a target is given, else the ATM picker.

## Theorems

* `selectStrike_mem`: A selected instrument is a listed one of the bucket.
* `premiumInr_eq_some`: The value of a premium that exists.
-/

namespace OptionsBot

/-- The side of a leg or an order. -/
inductive Side where
  | buy
  | sell
  deriving DecidableEq, Repr

namespace Side

def flip : Side → Side
  | buy => sell
  | sell => buy

/-- Plus one for a purchase, minus one for a sale. -/
def sign : Side → ℚ
  | buy => 1
  | sell => -1

@[simp] theorem sign_flip (s : Side) : s.flip.sign = -s.sign := by
  cases s <;> simp [flip, sign]

end Side

/-- A value of a feature vector or a decision record. -/
inductive FeatureValue where
  | num (x : Option ℚ)
  | flag (b : Bool)
  | text (s : String)
  | time (t : DateTime)
  | bucket (b : ExpiryBucket)
  deriving DecidableEq

/-- A dictionary of features, in insertion order. -/
def Features : Type := List (String × FeatureValue)

namespace Features

def get (d : Features) (k : String) : Option FeatureValue :=
  (Table.lookup Prod.fst k d).map Prod.snd

def set (d : Features) (k : String) (v : FeatureValue) : Features :=
  Table.upsert Prod.fst k (fun _ => (k, v)) d

/-- `dict.update`, and `{**d, **e}`. -/
def update (d e : Features) : Features := e.foldl (fun acc kv => set acc kv.1 kv.2) d

end Features

inductive ActionType where
  | close
  | trailStop
  | moveStop
  | noOp
  deriving DecidableEq, Repr

inductive ExitTrigger where
  | target
  | premiumStop
  | underlyingStop
  | trailChandelier
  | trailBreakeven
  | timeStop
  | forceCloseExpiry
  | testedSideCut
  | deltaBreach
  | gammaShock
  deriving DecidableEq, Repr

/-- The name a trigger goes by in the database and in client order ids. -/
def ExitTrigger.value : ExitTrigger → String
  | target => "target"
  | premiumStop => "premium_stop"
  | underlyingStop => "underlying_stop"
  | trailChandelier => "trail_chandelier"
  | trailBreakeven => "trail_breakeven"
  | timeStop => "time_stop"
  | forceCloseExpiry => "force_close_expiry"
  | testedSideCut => "tested_side_cut"
  | deltaBreach => "delta_breach"
  | gammaShock => "gamma_shock"

/-- One leg of an intent. -/
structure LegIntent where
  symbol : String
  side : Side
  optionType : OptionType
  strike : ℚ
  expiry : DateTime
  deriving DecidableEq

/-- An entry a strategy proposes. Risk sizes it, the router places it. -/
structure Intent where
  strategyId : StrategyId
  underlying : Underlying
  bucket : ExpiryBucket
  legs : List LegIntent
  requestedLots : Int
  rationale : String
  featureVector : Features := []
  targetPremiumInr : Option ℚ := none
  targetCreditInr : Option ℚ := none
  targetMaxLossInr : Option ℚ := none
  spreadPctMax : ℚ := 8 / 100

/-- What `manage` returns. The kind says which of the other fields is read. -/
structure Action where
  kind : ActionType
  close : Option ExitTrigger := none
  trail : Option ℚ := none
  deriving DecidableEq

def Action.closeFor (reason : ExitTrigger) : Action := { kind := .close, close := some reason }

def Action.trailTo (newStopPrice : ℚ) : Action := { kind := .trailStop, trail := some newStopPrice }

def Action.noOp : Action := { kind := .noOp }

/-- The greeks of one leg, as captured at entry. -/
structure LegGreeks where
  iv : Option ℚ
  delta : Option ℚ
  gamma : Option ℚ
  theta : Option ℚ
  vega : Option ℚ
  openInterest : Option ℚ
  deriving DecidableEq

/-- The entries of `trade.notes` that some decision reads. -/
structure Notes where
  entryUnderlyingPrice : Option ℚ := none
  entryAtr : Option ℚ := none
  currentStopPrice : Option ℚ := none
  currentTrailStopPrice : Option ℚ := none
  peakPnlInr : Option ℚ := none
  entryGreeks : List (String × LegGreeks) := []
  currentUnwindCost : Option ℚ := none
  currentTotalPremium : Option ℚ := none
  error : Option String := none
  deriving DecidableEq

/-- One leg of an open position. A missing `side` key is `none`. -/
structure LegState where
  symbol : String
  optionType : Option OptionType
  side : Option Side := none
  currentMid : Option ℚ
  deriving DecidableEq

/-- A strategy-agnostic view of an open position. -/
structure PositionState where
  tradeId : Nat
  strategyId : StrategyId
  underlying : Underlying
  expiry : DateTime
  lots : Int
  entryTs : DateTime
  entryPremiumInr : Option ℚ := none
  entryCreditInr : Option ℚ := none
  entryUnderlyingPrice : Option ℚ := none
  entryAtr : Option ℚ := none
  currentStopPrice : Option ℚ := none
  currentTrailStopPrice : Option ℚ := none
  peakPnlInr : Option ℚ := none
  legStates : List LegState := []
  notes : Notes := {}
  deriving DecidableEq

/-- A candle, with the prices the indicators read. -/
structure Candle where
  high : ℚ
  low : ℚ
  close : ℚ

inductive IvPercentileReason where
  | ok
  | ivHistoryCold
  | missingCurrentIv
  deriving DecidableEq, Repr

structure IvPercentileResult where
  percentile : Option ℚ
  reason : IvPercentileReason
  nSamples : Nat := 0

/-- The market as of one tick. -/
structure MarketState where
  now : DateTime
  chain : ChainCache
  candlesByTf : Underlying → Timeframe → List Candle
  underlyingMarks : Underlying → Option ℚ
  quoteFor : String → Option QuoteSnapshot := fun _ => none
  usdInrRate : ℚ := 1
  ivPercentiles : Underlying → ExpiryBucket → Option IvPercentileResult := fun _ _ => none

namespace MarketState

/-- The INR notional of one exchange lot. -/
def premiumInr (market : MarketState) (mid : Option ℚ) (lotSize : ℚ) : Option ℚ :=
  match mid with
  | none => none
  -- The price times the contract size and the rate. Fills are not converted like this.
  | some m => if lotSize ≤ 0 then none else some (m * lotSize * market.usdInrRate)

def candles (market : MarketState) (underlying : Underlying) (timeframe : Timeframe) :
    List Candle :=
  market.candlesByTf underlying timeframe

def spot (market : MarketState) (underlying : Underlying) : Option ℚ :=
  market.underlyingMarks underlying

def ivPercentile (market : MarketState) (underlying : Underlying) (bucket : ExpiryBucket) :
    Option IvPercentileResult :=
  market.ivPercentiles underlying bucket

theorem premiumInr_eq_some (market : MarketState) (mid lotSize premium : ℚ)
    (h : market.premiumInr (some mid) lotSize = some premium) :
    0 < lotSize ∧ premium = mid * lotSize * market.usdInrRate := by
  simp only [premiumInr] at h
  split_ifs at h with hl
  cases h
  exact ⟨not_le.mp hl, rfl⟩

end MarketState

/-- The cooldown bookkeeping of a strategy. -/
structure StrategyContext where
  cooldownUntil : Option DateTime := none
  underlyingCooldownUntil : Underlying → Option DateTime := fun _ => none

namespace StrategyContext

def isInCooldown (ctx : StrategyContext) (now : DateTime) : Bool :=
  match ctx.cooldownUntil with
  | none => false
  | some u => now < u

def isUnderlyingInCooldown (ctx : StrategyContext) (underlying : Underlying) (now : DateTime) :
    Bool :=
  match ctx.underlyingCooldownUntil underlying with
  | none => false
  | some u => now < u

def setUnderlyingCooldown (ctx : StrategyContext) (underlying : Underlying) (u : DateTime) :
    StrategyContext :=
  { ctx with
    underlyingCooldownUntil :=
      fun x => if x = underlying then some u else ctx.underlyingCooldownUntil x }

end StrategyContext

/-- The reason a strategy gives for a decision. -/
inductive StrategyReason where
  | passed
  | cooldownActive
  | missingSpot
  | insufficientHistory
  | atrNotReady
  | bbwidthNotReady
  | filterFailed
  | ivOutOfRange
  | noAcceptableStrike
  | spreadTooWide
  | spreadDeltaUnfillable
  | missingGreeks
  | lowOpenInterest
  | creditTooThin
  | antiRevengeBlock
  deriving DecidableEq, Repr

/-- A row of the per-tick audit trail, with the intent it carries if it passed. -/
structure Decision where
  strategyId : StrategyId
  underlying : Underlying
  symbol : Option String
  passed : Bool
  reason : StrategyReason
  featureVector : Features
  intent : Option Intent := none

/-- `_decision` with `passed=False`. -/
def rejected (id : StrategyId) (underlying : Underlying) (symbol : Option String)
    (reason : StrategyReason) (features : Features) : Decision :=
  { strategyId := id, underlying := underlying, symbol := symbol, passed := false,
    reason := reason, featureVector := features }

/-- `evaluate`: one decision per configured underlying, and the intents of
    those that passed. -/
def evaluateAll (evaluateOne : Underlying → Except PyError Decision)
    (underlyings : List Underlying) : Except PyError (List Intent × List Decision) :=
  match underlyings.mapM evaluateOne with
  | .error e => .error e
  | .ok payloads =>
    .ok (payloads.filterMap (fun p => if p.passed then p.intent else none), payloads)

/-- The delta picker if a target is given, else the ATM picker. -/
def selectStrike (chain : ChainCache) (underlying : Underlying) (optionType : OptionType)
    (bucket : ExpiryBucket) (targetDelta deltaMin deltaMax : Option ℚ) (spotPrice : Option ℚ)
    (atmOffset : Int) (now : DateTime) : Option StrikeSelection :=
  match targetDelta with
  | some target =>
    chain.getStrikeByDelta underlying optionType bucket target deltaMin deltaMax now
  | none =>
    match spotPrice with
    | none => none
    | some spot => chain.getAtmStrike underlying optionType bucket spot atmOffset now

theorem selectStrike_mem (chain : ChainCache) (underlying : Underlying) (optionType : OptionType)
    (bucket : ExpiryBucket) (targetDelta deltaMin deltaMax spotPrice : Option ℚ) (atmOffset : Int)
    (now : DateTime) (sel : StrikeSelection)
    (h : selectStrike chain underlying optionType bucket targetDelta deltaMin deltaMax spotPrice
      atmOffset now = some sel) :
    sel.instrument ∈ chain.instrumentsFor underlying optionType bucket now := by
  unfold selectStrike at h
  split at h
  · exact chain.getStrikeByDelta_mem _ _ _ _ _ _ _ _ h
  · split at h
    · cases h
    · exact chain.getAtmStrike_mem _ _ _ _ _ _ _ h

/-- The quote of a selection is the one its symbol has in the chain. -/
theorem selectStrike_quote (chain : ChainCache) (underlying : Underlying) (optionType : OptionType)
    (bucket : ExpiryBucket) (targetDelta deltaMin deltaMax spotPrice : Option ℚ) (atmOffset : Int)
    (now : DateTime) (sel : StrikeSelection)
    (h : selectStrike chain underlying optionType bucket targetDelta deltaMin deltaMax spotPrice
      atmOffset now = some sel) :
    chain.getQuote sel.instrument.symbol = some sel.quote := by
  unfold selectStrike at h
  split at h
  · exact chain.getStrikeByDelta_quote _ _ _ _ _ _ _ _ h
  · split at h
    · cases h
    · exact chain.getAtmStrike_quote _ _ _ _ _ _ _ h

/-- An intent of `evaluate` comes from the decision on one of the underlyings. -/
theorem mem_evaluateAll (evaluateOne : Underlying → Except PyError Decision)
    (underlyings : List Underlying) (intents : List Intent) (decisions : List Decision)
    (h : evaluateAll evaluateOne underlyings = .ok (intents, decisions)) (intent : Intent)
    (hmem : intent ∈ intents) :
    ∃ u ∈ underlyings, ∃ d, evaluateOne u = .ok d ∧ d.intent = some intent := by
  unfold evaluateAll at h
  split at h
  · cases h
  · next payloads hp =>
    rw [Except.ok.injEq, Prod.mk.injEq] at h
    rw [← h.1] at hmem
    rcases List.mem_filterMap.mp hmem with ⟨d, hd, hint⟩
    rcases mem_mapM_ok evaluateOne underlyings payloads hp d hd with ⟨u, hu, hud⟩
    refine ⟨u, hu, d, hud, ?_⟩
    split_ifs at hint
    exact hint

/-- The intents of `evaluate` are on underlyings of the configuration, in its order. -/
theorem evaluateAll_underlyings (evaluateOne : Underlying → Except PyError Decision)
    (underlyings : List Underlying) (intents : List Intent) (decisions : List Decision)
    (h : evaluateAll evaluateOne underlyings = .ok (intents, decisions))
    (hon : ∀ u d intent, evaluateOne u = .ok d → d.intent = some intent →
      intent.underlying = u) :
    (intents.map Intent.underlying).Sublist underlyings := by
  unfold evaluateAll at h
  split at h
  · cases h
  · next payloads hp =>
    rw [Except.ok.injEq, Prod.mk.injEq] at h
    rw [← h.1]
    have hall := (mapM_ok_iff evaluateOne underlyings payloads).mp hp
    clear hp h
    induction hall with
    | nil => exact List.Sublist.refl []
    | @cons u d us ds hud _ ih =>
        rw [List.filterMap_cons]
        cases hint : (if d.passed then d.intent else none) with
        | none => exact ih.cons u
        | some intent =>
            have hd : d.intent = some intent := by
              split_ifs at hint
              exact hint
            rw [List.map_cons, hon u d intent hud hd]
            exact ih.cons_cons u

end OptionsBot
