import OptionsBot.Core.Tick

/-!
# The Hour of the Last Close

On the day an option expires, whatever is still open is to be closed from a
configured time on, a quarter to five unless it says otherwise, so that nothing
runs into the settlement.

The window object has that time and a test for it. Nothing calls the test. What
closes a position for its expiry is the rule of its own strategy: a number of
calendar days for a spread, which the day of expiry always meets, and a number
of hours for the other two, counted to an expiry that is later than the
configured time. Between the two a position is closed if the prices happen to
say so.

## Main definitions

* `DueForClose`: The day of expiry, at or past the configured time.
* `ClosedWhatever`: A tick closes the trade whatever is quoted.
* `Strategy.ClosesBy`: The strategy's own rule.

## Theorems

* `Strategy.manage_force_iff`: What `manage` closes for expiry.
* `closedWhatever_of_rule`: Inside the rule a tick always closes.
* `idle_outside_rule`: Outside it there are quotes at which none does.
* `forceClosed_iff`: Exactly when the configured time is kept.
* `held_past_force_close`: An option that is held past it.
-/

namespace OptionsBot

/-- On the IST clock it is the day of the expiry, at or past the time of the window. -/
def DueForClose (w : TradingWindow) (expiry now : DateTime) : Prop :=
  (utcToIst now).date = (utcToIst expiry).date ∧ w.isForceCloseTime now = true

/-- Whatever the quotes, marks and candles, and whatever the engine has on record, a tick at this
    time closes the trade. The tick quotes the legs of the open rows, the trade's among them. -/
def ClosedWhatever (engine : ExitEngine) (trade : Trade) (legs : List Leg) (now : DateTime) :
    Prop :=
  ∀ (runtime : Option PositionRuntime) (e : TrackTick) (openRows : List (Trade × List Leg)),
    e.market.now = now → (trade, legs) ∈ openRows →
    e.market.quoteFor = quoteForOpen e.market.chain openRows →
      ∃ d ∈ (TradeTrack.tick { trade := trade, legs := legs, runtime := runtime } engine e).2,
        d.kind = .close

/-- The strategy's own rule for a position near its expiry, on the day of expiry. -/
def Strategy.ClosesBy (expiry now : DateTime) : Strategy → Prop
  | .directional self => expiry.hoursSince now ≤ self.config.exits.forceCloseHoursBeforeExpiry
  | .creditVertical _ => True
  | .longStraddle self => expiry.hoursSince now ≤ self.config.exits.forceCloseHoursBeforeExpiry

section Manage

variable (position : PositionState) (market : MarketState)

/-- On the day of expiry `manage` closes for expiry exactly by the strategy's rule. -/
theorem Strategy.manage_force_iff (s : Strategy)
    (hday : (utcToIst market.now).date = (utcToIst position.expiry).date) :
    Action.closeFor .forceCloseExpiry ∈ s.manage position market ↔
      s.ClosesBy position.expiry market.now := by
  cases s with
  | directional self => exact self.manage_force_iff position market
  | creditVertical self =>
      refine (self.manage_force_iff position market).trans ⟨fun _ => trivial, fun _ => ?_⟩
      -- No calendar day is left, and the configured number is not negative.
      rw [CreditVerticalStrategy.daysToExpiry, hday, sub_self]
      exact self.config.exits.forceClose_bounds.1
  | longStraddle self => exact self.manage_force_iff position market

/-- Outside its hours, a bought position that is not priced, or priced at nothing, is left
    alone. -/
theorem Strategy.manage_idle (s : Strategy) (hrule : ¬ s.ClosesBy position.expiry market.now)
    (hlegs : s.id = .directional →
      ∀ leg rest, position.legStates = leg :: rest → leg.currentMid = none)
    (hsum : s.id = .longStraddle → LongStraddleStrategy.totalPremium position = 0)
    (trigger : ExitTrigger) : Action.closeFor trigger ∉ s.manage position market := by
  intro hmem
  cases s with
  | directional self =>
      have htrigger := self.manage_unpriced position market (hlegs rfl) trigger hmem
      rw [htrigger] at hmem
      exact hrule ((self.manage_force_iff position market).mp hmem)
  | creditVertical self => exact hrule trivial
  | longStraddle self =>
      have hfar : ¬ position.expiry.hoursSince market.now ≤
          self.config.exits.forceCloseHoursBeforeExpiry := hrule
      unfold Strategy.manage LongStraddleStrategy.manage at hmem
      -- A sum of nothing reads as one that was never written.
      simp only [if_neg hfar, hsum rfl, le_refl, if_true] at hmem
      split at hmem
      · cases List.mem_singleton.mp hmem
      · cases List.mem_singleton.mp hmem

end Manage

section Tick

variable (engine : ExitEngine) (s : Strategy)

/-- What a tick tells a trade, in terms of its strategy. -/
theorem tick_closes_iff (t : TradeTrack) (e : TrackTick) (hopen : t.trade.status = .«open»)
    (position : PositionState)
    (hview : tradeToPositionState t.trade t.legs e.market.chain e.market.now = .ok position)
    (hget : engine.registry.get position.strategyId = .ok s) :
    (∃ d ∈ (t.tick engine e).2, d.kind = .close) ↔ ∃ trigger, Action.closeFor trigger ∈
      s.manage (ExitEngine.refreshed s (t.load position) e.market).position e.market := by
  rw [← t.load_position position] at hget
  rcases engine.step_ok (t.load position) e.market s hget with ⟨action, _, _, hstep⟩
  rw [t.tick_of_step engine e hopen position hview _ _ hstep]
  exact engine.step_close_iff _ _ e.market s _ hget hstep

/-- With nothing quoted a directional position keeps its legs as they were rebuilt. -/
theorem refreshed_legs (runtime : PositionRuntime) (market : MarketState)
    (hquote : ∀ symbol, market.quoteMid symbol = none) (hid : s.id = .directional) :
    (ExitEngine.refreshed s runtime market).position.legStates = runtime.position.legStates := by
  cases s with
  | creditVertical self => cases hid
  | longStraddle self => cases hid
  | directional self =>
      exact ExitEngine.refreshed_legStates self runtime market (fun leg _ => hquote leg.symbol)

/-- Legs that are all quoted at nothing add up to nothing. -/
theorem quotedSum_zero (market : MarketState) (weight : LegState → ℚ) (legs : List LegState)
    (hquote : ∀ leg ∈ legs, market.quoteMid leg.symbol = some 0) :
    quotedSum market weight legs = some 0 := by
  induction legs with
  | nil => rfl
  | cons leg rest ih =>
      unfold quotedSum
      rw [hquote leg List.mem_cons_self, ih (fun l hl => hquote l (List.mem_cons_of_mem _ hl))]
      simp only [mul_zero, add_zero, Option.map_some]

/-- A straddle quoted at nothing is refreshed to a sum of nothing. -/
theorem refreshed_sum (runtime : PositionRuntime) (market : MarketState)
    (hquote : ∀ leg ∈ runtime.position.legStates, market.quoteMid leg.symbol = some 0)
    (hid : s.id = .longStraddle) :
    LongStraddleStrategy.totalPremium (ExitEngine.refreshed s runtime market).position = 0 := by
  cases s with
  | directional self => cases hid
  | creditVertical self => cases hid
  | longStraddle self =>
      unfold ExitEngine.refreshed ExitEngine.refreshPositionState
      simp only [quotedSum_zero market (fun _ => 1) _ hquote]
      rfl

end Tick

/-- A tick carries the quote of every leg that is open. -/
theorem quoteForOpen_mem (chain : ChainCache) (openRows : List (Trade × List Leg))
    (row : Trade × List Leg) (hrow : row ∈ openRows) (leg : Leg) (hleg : leg ∈ row.2) :
    quoteForOpen chain openRows leg.symbol = chain.getQuote leg.symbol := by
  unfold quoteForOpen
  exact if_pos (List.any_eq_true.mpr
    ⟨row, hrow, List.any_eq_true.mpr ⟨leg, hleg, decide_eq_true rfl⟩⟩)

section Closed

variable (engine : ExitEngine) (s : Strategy) (trade : Trade) (legs : List Leg)
  (now expiry : DateTime)

/-- The view of a trade at a time, whatever the chain. -/
theorem view_at (hexpiry : tradeExpiry trade legs now = .ok expiry) (chain : ChainCache) :
    ∃ position, tradeToPositionState trade legs chain now = .ok position ∧
      position.expiry = expiry ∧ position.strategyId = trade.strategyId ∧
      position.legStates = legs.map (legState chain) := by
  exact ⟨_, (tradeToPositionState_ok_iff _ _ _ _ _).mpr ⟨expiry, hexpiry, rfl⟩, rfl, rfl, rfl⟩

/-- A tick that has this trade, a chain, and nothing else. -/
def bareTick (chain : ChainCache) : TrackTick :=
  { market :=
      { now := now, chain := chain, candlesByTf := fun _ _ => [], underlyingMarks := fun _ => none
        quoteFor := quoteForOpen chain [(trade, legs)] }
    execute := fun req => { success := false, tradeId := req.tradeId }
    nav := { navNow := 0, navOpenToday := 0, navOpenWeek := 0, peakNav := 0 } }

/-- Every option is marked at nothing. -/
def worthlessChain : ChainCache :=
  { ChainCache.empty with quotes := fun _ => some { markPrice := some 0 } }

/-- The tick closes the trade if it is closed whatever is quoted. -/
theorem bareTick_closes (chain : ChainCache) (h : ClosedWhatever engine trade legs now) :
    ∃ d ∈ (TradeTrack.tick ⟨trade, legs, none⟩ engine (bareTick trade legs now chain)).2,
      d.kind = .close :=
  h none (bareTick trade legs now chain) [(trade, legs)] rfl (List.mem_singleton.mpr rfl) rfl

variable (hopen : trade.status = .«open») (hexpiry : tradeExpiry trade legs now = .ok expiry)
include hopen hexpiry

/-- Without a registered strategy nothing is closed. -/
theorem registered_of_closed (h : ClosedWhatever engine trade legs now) :
    ∃ s, engine.registry.get trade.strategyId = .ok s := by
  rcases view_at trade legs now expiry hexpiry ChainCache.empty with ⟨position, hview, _, hid, _⟩
  rcases bareTick_closes engine trade legs now ChainCache.empty h with ⟨d, hd, _⟩
  cases hget : engine.registry.get trade.strategyId with
  | ok s => exact ⟨s, rfl⟩
  | error err =>
      -- The step raises, and the tick has no directive.
      have hstep : engine.step (TradeTrack.load ⟨trade, legs, none⟩ position)
          (bareTick trade legs now ChainCache.empty).market = .error err := by
        unfold ExitEngine.step
        rw [TradeTrack.load_position, hid, hget]
      unfold TradeTrack.tick at hd
      rw [if_neg (not_not.mpr hopen)] at hd
      simp only [show tradeToPositionState trade legs
        (bareTick trade legs now ChainCache.empty).market.chain
        (bareTick trade legs now ChainCache.empty).market.now = .ok position from hview,
        hstep] at hd
      exact absurd hd List.not_mem_nil

variable (hget : engine.registry.get trade.strategyId = .ok s)
include hget

/-- On the day of expiry, a tick inside the strategy's rule closes the trade. -/
theorem closedWhatever_of_rule (hday : (utcToIst now).date = (utcToIst expiry).date)
    (hrule : s.ClosesBy expiry now) : ClosedWhatever engine trade legs now := by
  rintro runtime e openRows rfl _ _
  rcases view_at trade legs e.market.now expiry hexpiry e.market.chain with
    ⟨position, hview, hposition, hid, _⟩
  refine (tick_closes_iff engine s _ e hopen position hview (by rw [hid]; exact hget)).mpr
    ⟨.forceCloseExpiry, ?_⟩
  have hkept : (ExitEngine.refreshed s (TradeTrack.load ⟨trade, legs, runtime⟩ position)
      e.market).position.expiry = expiry := by
    rw [ExitEngine.refreshed_expiry, TradeTrack.load_position, hposition]
  rw [Strategy.manage_force_iff _ _ s (by rw [hkept]; exact hday), hkept]
  exact hrule

/-- Outside the strategy's rule there are quotes at which no tick closes the trade. -/
theorem idle_outside_rule (hrule : ¬ s.ClosesBy expiry now) :
    ¬ ClosedWhatever engine trade legs now := by
  intro hall
  -- A bought option is held when it has no price. A straddle must have one, of nothing: its
  -- row may carry a sum already, and only a quoted one replaces it.
  obtain ⟨chain, hempty, hworthless⟩ : ∃ chain, (s.id = .directional → chain = ChainCache.empty) ∧
      (s.id = .longStraddle → chain = worthlessChain) := by
    by_cases hid : s.id = .directional
    · exact ⟨ChainCache.empty, fun _ => rfl, fun h => by rw [hid] at h; cases h⟩
    · exact ⟨worthlessChain, fun h => absurd h hid, fun _ => rfl⟩
  rcases view_at trade legs now expiry hexpiry chain with
    ⟨position, hview, hposition, hid, hlegs⟩
  rcases (tick_closes_iff engine s ⟨trade, legs, none⟩ (bareTick trade legs now chain) hopen
    position hview (by rw [hid]; exact hget)).mp
    (bareTick_closes engine trade legs now chain hall) with ⟨trigger, hmem⟩
  refine Strategy.manage_idle _ _ s ?_ ?_ ?_ trigger hmem
  · rw [ExitEngine.refreshed_expiry, TradeTrack.load_position, hposition]
    exact hrule
  · -- Without a quote the refresh leaves the leg as it was rebuilt, without a price.
    intro hid' leg rest hcons
    have hquote : ∀ symbol, (bareTick trade legs now chain).market.quoteMid symbol = none := by
      intro symbol
      rw [hempty hid']
      unfold MarketState.quoteMid bareTick quoteForOpen
      simp only
      split
      · rfl
      · rfl
    rw [refreshed_legs s _ _ hquote hid', TradeTrack.load_position, hlegs] at hcons
    have hleg : leg ∈ legs.map (legState chain) := by rw [hcons]; exact List.mem_cons_self
    rcases List.mem_map.mp hleg with ⟨row, _, rfl⟩
    rw [hempty hid']
    rfl
  · -- The tick quotes the legs of its rows, each of them at nothing.
    intro hid'
    refine refreshed_sum s _ _ ?_ hid'
    intro leg hleg
    rw [TradeTrack.load_position, hlegs] at hleg
    rcases List.mem_map.mp hleg with ⟨row, hrow, rfl⟩
    unfold MarketState.quoteMid
    rw [show (bareTick trade legs now chain).market.quoteFor (legState chain row).symbol =
      chain.getQuote row.symbol from
      quoteForOpen_mem chain _ (trade, legs) (List.mem_singleton.mpr rfl) row hrow, hworthless hid']
    rfl

end Closed

/-- From the configured time on every tick of the day of expiry closes the trade exactly if the
    strategy is registered and its own rule has come by then. -/
theorem forceClosed_iff (engine : ExitEngine) (w : TradingWindow) (trade : Trade)
    (legs : List Leg) (now : DateTime) (hopen : trade.status = .«open») :
    (∀ expiry, tradeExpiry trade legs now = .ok expiry → DueForClose w expiry now →
        ClosedWhatever engine trade legs now) ↔
      ∀ expiry, tradeExpiry trade legs now = .ok expiry → DueForClose w expiry now →
        ∃ s, engine.registry.get trade.strategyId = .ok s ∧ s.ClosesBy expiry now := by
  constructor
  · intro hclosed expiry hexpiry hdue
    have hall := hclosed expiry hexpiry hdue
    rcases registered_of_closed engine trade legs now expiry hopen hexpiry hall with ⟨s, hget⟩
    refine ⟨s, hget, ?_⟩
    by_contra hrule
    exact idle_outside_rule engine s trade legs now expiry hopen hexpiry hget hrule hall
  · intro hrules expiry hexpiry hdue
    rcases hrules expiry hexpiry hdue with ⟨s, hget, hrule⟩
    exact closedWhatever_of_rule engine s trade legs now expiry hopen hexpiry hget hdue.1 hrule

/-- An option bought at 100, that expires on the twelfth. -/
def expiringTrade : Trade :=
  { id := 1, strategyId := .directional, underlying := .btc
    expiry := some (combine (ymdToOrdinal 2026 5 12) (hourMinute 17 30))
    entryTs := combine (ymdToOrdinal 2026 5 12) (hourMinute 5 0), lots := 3
    premiumPaidInr := some 100 }

def expiringLegs : List Leg :=
  [{ tradeId := 1, strategyId := .directional, legIdx := 0, symbol := "C-BTC-97000-120526"
     optionType := some .call, strike := some 97000, side := .buy, lots := 3
     entryPrice := some 100 }]

/-- Five in the afternoon on the IST clock. -/
def pastForceClose : DateTime := combine (ymdToOrdinal 2026 5 12) (hourMinute 11 30)

def shippedDirectionalEngine : ExitEngine :=
  { registry := { strategies := [.directional { config := shippedDirectionalConfig }]
                  distinct := List.nodup_singleton _ } }

/-- Nine in the evening, two hours before the stored expiry. -/
def twoHoursBefore : DateTime := combine (ymdToOrdinal 2026 5 12) (hourMinute 15 30)

/-- By then the strategy's own rule closes the option, whatever is quoted. -/
theorem forceClosed_iff_expiring :
    (∃ expiry, tradeExpiry expiringTrade expiringLegs twoHoursBefore = .ok expiry ∧
      DueForClose (.ofConfig {}) expiry twoHoursBefore) ∧
      ClosedWhatever shippedDirectionalEngine expiringTrade expiringLegs twoHoursBefore := by
  have hdue : DueForClose (.ofConfig {}) (combine (ymdToOrdinal 2026 5 12) (hourMinute 17 30))
      twoHoursBefore := ⟨by decide, by decide⟩
  refine ⟨⟨_, rfl, hdue⟩, (forceClosed_iff shippedDirectionalEngine (.ofConfig {}) expiringTrade
    expiringLegs twoHoursBefore rfl).mpr (fun expiry hexpiry _ => ?_) _ rfl hdue⟩
  cases hexpiry
  refine ⟨.directional { config := shippedDirectionalConfig }, rfl, ?_⟩
  simp only [Strategy.ClosesBy]
  decide +kernel

/-- A quarter of an hour past the configured time, with the option at its entry price, the
    shipped strategy does nothing. -/
theorem held_past_force_close :
    ¬ ∀ (engine : ExitEngine) (w : TradingWindow) (trade : Trade) (legs : List Leg)
      (now expiry : DateTime), trade.status = .«open» → tradeExpiry trade legs now = .ok expiry →
      DueForClose w expiry now → ClosedWhatever engine trade legs now := by
  intro hall
  have hclosed := hall shippedDirectionalEngine (.ofConfig {}) expiringTrade expiringLegs
    pastForceClose _ rfl rfl ⟨by decide, by decide⟩
  rcases bareTick_closes shippedDirectionalEngine expiringTrade expiringLegs pastForceClose
    (ChainCache.empty.upsertQuote "C-BTC-97000-120526" { markPrice := some 100 }) hclosed with
    ⟨d, hd, hkind⟩
  have hkinds : ((TradeTrack.tick ⟨expiringTrade, expiringLegs, none⟩ shippedDirectionalEngine
      (bareTick expiringTrade expiringLegs pastForceClose
        (ChainCache.empty.upsertQuote "C-BTC-97000-120526" { markPrice := some 100 }))).2.map
      ExitDirective.kind) = [.noOp] := by decide +kernel
  have hmem := List.mem_map_of_mem (f := ExitDirective.kind) hd
  rw [hkinds, hkind] at hmem
  exact absurd hmem (by decide)

end OptionsBot
