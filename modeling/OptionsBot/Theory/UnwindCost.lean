import OptionsBot.Core.Engine
import OptionsBot.Core.ExitEngine

/-!
# The Cost to Unwind a Credit Spread

Closing a spread buys back the legs that were sold and sells the ones that were
bought. The exit engine adds up the middle prices with that sign, but the view
it is handed is rebuilt from the rows of the trade without their sides, and a leg
without a side counts as bought. Every price then enters with the same sign.

What the engine works with is therefore right exactly when the sold legs'
prices add up to nothing.

## Main definitions

* `QuotedAt`: The middle price of every leg at a tick.
* `sideSum`: The prices of the legs of one side, added up.
* `UnwindRight`: The cost is right, and the decision follows it.

## Theorems

* `step_unwindCost`: The cost a step works with.
* `step_unwindRight_iff`: When a step is right.
-/

namespace OptionsBot

-- The sample runs below compute with rationals.
attribute [local semireducible] Rat.add Rat.sub Rat.mul Rat.inv

/-- Every leg has a middle price at the tick. -/
def QuotedAt (market : MarketState) (legs : List Leg) (mid : Leg → ℚ) : Prop :=
  ∀ leg ∈ legs, market.quoteMid leg.symbol = some (mid leg)

/-- The middle prices of the legs of one side, added up. -/
def sideSum (mid : Leg → ℚ) (side : Side) (legs : List Leg) : ℚ :=
  ((legs.filter (fun leg => decide (leg.side = side))).map mid).sum

/-- The cost a step works with is the price of the legs sold less that of the
    legs bought; a profit target needs the profit at that cost, and a cost at the
    stop closes. -/
structure UnwindRight (strategy : CreditVerticalStrategy) (credit : Option ℚ) (legs : List Leg)
    (mid : Leg → ℚ) (next : PositionRuntime) (directives : List ExitDirective) : Prop where
  cost : next.position.notes.currentUnwindCost =
    some (sideSum mid .sell legs - sideSum mid .buy legs)
  target : (∃ d ∈ directives, d.trigger = some .target) → ∃ c, credit = some c ∧
    strategy.config.exits.profitTakePctOfCredit * c ≤
      c - (sideSum mid .sell legs - sideSum mid .buy legs)
  stop : ∀ c, credit = some c →
    strategy.config.exits.stopLossXCredit * c ≤ sideSum mid .sell legs - sideSum mid .buy legs →
    ∃ d ∈ directives, d.trigger = some .premiumStop

/-- The two sides partition the legs. -/
theorem sideSum_add (mid : Leg → ℚ) (legs : List Leg) :
    sideSum mid .sell legs + sideSum mid .buy legs = (legs.map mid).sum := by
  induction legs with
  | nil => simp only [sideSum, List.filter_nil, List.map_nil, List.sum_nil, add_zero]
  | cons leg rest ih =>
      simp only [sideSum] at ih ⊢
      rw [List.map_cons, List.sum_cons, ← ih]
      cases hside : leg.side with
      | buy =>
          rw [List.filter_cons_of_neg (by rw [hside]; decide),
            List.filter_cons_of_pos (by rw [hside]; decide), List.map_cons, List.sum_cons]
          ring
      | sell =>
          rw [List.filter_cons_of_pos (by rw [hside]; decide),
            List.filter_cons_of_neg (by rw [hside]; decide), List.map_cons, List.sum_cons]
          ring

/-- Every leg of a rebuilt view enters with the sign of a bought one. -/
theorem quotedSum_rebuilt (market : MarketState) (chain : ChainCache) (legs : List Leg)
    (mid : Leg → ℚ) (h : QuotedAt market legs mid) :
    quotedSum market unwindSign (legs.map (legState chain)) =
      some (-(sideSum mid .sell legs + sideSum mid .buy legs)) := by
  rw [sideSum_add]
  induction legs with
  | nil => simp only [List.map_nil, List.sum_nil, neg_zero, quotedSum]
  | cons leg rest ih =>
      have hrest := ih (fun l hl => h l (List.mem_cons_of_mem leg hl))
      have hleg := h leg List.mem_cons_self
      rw [List.map_cons]
      unfold quotedSum
      simp only [legState] at hrest ⊢
      rw [hleg]
      simp only
      rw [hrest, Option.map_some, Option.some.injEq]
      -- The view has no side, and a missing side counts as bought.
      have hsign : unwindSign (legState chain leg) = -1 := rfl
      simp only [legState] at hsign
      rw [hsign, List.map_cons, List.sum_cons]
      ring

section Step

variable (engine : ExitEngine) (self : CreditVerticalStrategy) (trade : Trade) (legs : List Leg)
  (chain : ChainCache) (now : DateTime) (runtime next : PositionRuntime) (market : MarketState)
  (mid : Leg → ℚ) (directives : List ExitDirective)

/-- The refreshed position of a rebuilt spread, every leg quoted. -/
theorem refreshed_spread (hquoted : QuotedAt market legs mid)
    (hview : tradeToPositionState trade legs chain now = .ok runtime.position) :
    (ExitEngine.refreshed (.creditVertical self) runtime market).position =
      { runtime.position with
        notes := { runtime.position.notes with
          currentUnwindCost := some (-(sideSum mid .sell legs + sideSum mid .buy legs)) } } := by
  rcases tradeToPositionState_eq trade legs chain now runtime.position hview with
    ⟨_, _, _, hlegs, _⟩
  have hsum := quotedSum_rebuilt market chain legs mid hquoted
  rw [← hlegs] at hsum
  unfold ExitEngine.refreshed ExitEngine.refreshPositionState
  simp only [hsum, PositionRuntime.withNotes]

/-- The cost a step works with: every leg's price is taken off. -/
theorem step_unwindCost (hquoted : QuotedAt market legs mid)
    (hview : tradeToPositionState trade legs chain now = .ok runtime.position)
    (hget : engine.registry.get runtime.position.strategyId = .ok (.creditVertical self))
    (hstep : engine.step runtime market = .ok (next, directives)) :
    next.position.notes.currentUnwindCost =
      some (-(sideSum mid .sell legs + sideSum mid .buy legs)) := by
  rw [engine.step_position runtime next market _ directives hget hstep,
    refreshed_spread self trade legs chain now runtime market mid hquoted hview]

/-- On a tick that quotes every leg of a credit spread, the step is right exactly
    if the sold legs' prices add up to nothing, and, should the cost still be at
    the stop, neither the expiry close nor the profit target comes first. -/
theorem step_unwindRight_iff (hquoted : QuotedAt market legs mid)
    (hview : tradeToPositionState trade legs chain now = .ok runtime.position)
    (hget : engine.registry.get runtime.position.strategyId = .ok (.creditVertical self))
    (hstep : engine.step runtime market = .ok (next, directives)) :
    UnwindRight self trade.creditReceivedInr legs mid next directives ↔
      sideSum mid .sell legs = 0 ∧
        ∀ c, trade.creditReceivedInr = some c →
          self.config.exits.stopLossXCredit * c ≤ -sideSum mid .buy legs →
          ¬ CreditVerticalStrategy.daysToExpiry runtime.position.expiry market.now ≤
              self.config.exits.forceCloseDaysBeforeExpiry ∧
            c + sideSum mid .buy legs < self.config.exits.profitTakePctOfCredit * c := by
  have hcost := step_unwindCost engine self trade legs chain now runtime next market mid directives
    hquoted hview hget hstep
  have hposition := refreshed_spread self trade legs chain now runtime market mid hquoted hview
  have hcredit := (tradeToPositionState_eq trade legs chain now _ hview).2.2.1
  -- `manage` reads back the note the refresh has written.
  have hunwind : CreditVerticalStrategy.unwindCost
      (ExitEngine.refreshed (.creditVertical self) runtime market).position =
      -(sideSum mid .sell legs + sideSum mid .buy legs) := by
    rw [hposition, CreditVerticalStrategy.unwindCost, orFloat_some_zero]
  have htarget := engine.close_mem_iff runtime next market _ directives hget hstep .target
  have hstop := engine.close_mem_iff runtime next market _ directives hget hstep .premiumStop
  simp only [Strategy.manage] at htarget hstop
  rw [self.manage_target_iff, hunwind] at htarget
  rw [self.manage_stop_iff, hunwind] at hstop
  simp only [hposition, hcredit] at htarget hstop
  constructor
  · intro hright
    -- The two costs agree only if the sold legs add nothing.
    have hzero : sideSum mid .sell legs = 0 := by
      have hsame := hright.cost
      rw [hcost, Option.some.injEq] at hsame
      linarith
    refine ⟨hzero, ?_⟩
    intro c hc hle
    -- A stop that fires was not preceded by the expiry close or the target.
    rcases hstop.mp (hright.stop c hc (by rw [hzero]; linarith)) with ⟨hforce, c', hc', hlate, _⟩
    rw [hc, Option.some.injEq] at hc'
    rw [← hc', hzero] at hlate
    exact ⟨hforce, by linarith⟩
  · rintro ⟨hzero, hreach⟩
    refine ⟨?_, ?_, ?_⟩
    · rw [hcost, hzero]
      congr 1
      ring
    · intro hclosed
      -- With nothing sold the two costs are one, so the target is right as well.
      rcases htarget.mp hclosed with ⟨_, c, hc, hle⟩
      rw [hzero] at hle ⊢
      exact ⟨c, hc, by linarith⟩
    · intro c hc hle
      rw [hzero] at hle
      rcases hreach c hc (by linarith) with ⟨hforce, hlate⟩
      refine hstop.mpr ⟨hforce, c, hc, ?_, ?_⟩
      · rw [hzero, not_le]
        linarith
      · rw [hzero]
        linarith

end Step

/-- A bull put spread: one put bought, one sold, for a credit of 100. -/
def putSpread : Trade :=
  { id := 1, strategyId := .creditVertical, underlying := .btc,
    expiry := some (combine (ymdToOrdinal 2026 5 19) (hourMinute 17 30)),
    entryTs := combine (ymdToOrdinal 2026 5 10) (hourMinute 10 0), lots := 1,
    creditReceivedInr := some 100 }

def putSpreadLegs : List Leg :=
  [{ tradeId := 1, strategyId := .creditVertical, legIdx := 0, symbol := "P-BTC-97000-190526",
     optionType := some .put, strike := some 97000, side := .buy, lots := 1,
     entryPrice := some 50 },
   { tradeId := 1, strategyId := .creditVertical, legIdx := 1, symbol := "P-BTC-98000-190526",
     optionType := some .put, strike := some 98000, side := .sell, lots := 1,
     entryPrice := some 150 }]

/-- The bought put at 80, the sold one at 300. -/
def putSpreadChain : ChainCache :=
  (ChainCache.empty.upsertQuote "P-BTC-97000-190526" { markPrice := some 80 }).upsertQuote
    "P-BTC-98000-190526" { markPrice := some 300 }

def putSpreadMarket : MarketState :=
  { now := combine (ymdToOrdinal 2026 5 12) (hourMinute 10 0)
    chain := putSpreadChain
    candlesByTf := fun _ _ => []
    underlyingMarks := fun _ => none
    quoteFor := quoteForOpen putSpreadChain [(putSpread, putSpreadLegs)] }

def putSpreadMid (leg : Leg) : ℚ := if leg.side = .buy then 80 else 300

def spreadStrategy : CreditVerticalStrategy := { config := shippedCreditVerticalConfig }

def spreadEngine : ExitEngine :=
  { registry := { strategies := [.creditVertical spreadStrategy],
                  distinct := List.nodup_singleton _ } }

/-- The view of the spread, and the step on it. -/
theorem putSpread_step : ∃ runtime next directives,
    tradeToPositionState putSpread putSpreadLegs putSpreadChain putSpreadMarket.now =
      .ok (PositionRuntime.position runtime) ∧
      spreadEngine.registry.get runtime.position.strategyId =
        .ok (.creditVertical spreadStrategy) ∧
      spreadEngine.step runtime putSpreadMarket = .ok (next, directives) := by
  rcases tradeToPositionState_open putSpread putSpreadLegs putSpreadChain putSpreadMarket.now _ rfl
    with ⟨position, hview, _, hid, _⟩
  have hget : spreadEngine.registry.get position.strategyId =
      .ok (.creditVertical spreadStrategy) := by
    rw [hid]
    rfl
  rcases spreadEngine.step_ok { position := position } putSpreadMarket _ hget with
    ⟨action, _, _, hstep⟩
  exact ⟨{ position := position }, _, _, hview, hget, hstep⟩

theorem putSpread_quoted : QuotedAt putSpreadMarket putSpreadLegs putSpreadMid := by
  intro leg hleg
  rcases List.mem_pair.mp hleg with h | h
  · rw [h]
    decide
  · rw [h]
    decide

theorem step_unwindRight_iff_putSpread : ∃ runtime next directives,
    spreadEngine.step runtime putSpreadMarket = .ok (next, directives) ∧
      ¬ UnwindRight spreadStrategy putSpread.creditReceivedInr putSpreadLegs putSpreadMid next
        directives := by
  rcases putSpread_step with ⟨runtime, next, directives, hview, hget, hstep⟩
  refine ⟨runtime, next, directives, hstep, ?_⟩
  rw [step_unwindRight_iff spreadEngine spreadStrategy putSpread putSpreadLegs putSpreadChain
    putSpreadMarket.now runtime next putSpreadMarket putSpreadMid directives putSpread_quoted hview
    hget hstep]
  intro h
  exact absurd h.1 (by decide)

/-- With the sold put at 300 and the bought one at 80, the step works with a cost
    of -380 where unwinding costs 220. -/
theorem putSpread_unwind_wrong :
    ¬ ∀ (engine : ExitEngine) (strategy : CreditVerticalStrategy) (trade : Trade)
      (legs : List Leg) (chain : ChainCache) (now : DateTime) (runtime next : PositionRuntime)
      (market : MarketState) (mid : Leg → ℚ) (directives : List ExitDirective),
      QuotedAt market legs mid →
      tradeToPositionState trade legs chain now = .ok runtime.position →
      engine.registry.get runtime.position.strategyId = .ok (.creditVertical strategy) →
      engine.step runtime market = .ok (next, directives) →
      UnwindRight strategy trade.creditReceivedInr legs mid next directives := by
  intro hall
  rcases putSpread_step with ⟨runtime, next, directives, hview, hget, hstep⟩
  have hright := hall spreadEngine spreadStrategy putSpread putSpreadLegs putSpreadChain
    putSpreadMarket.now runtime next putSpreadMarket putSpreadMid directives putSpread_quoted hview
    hget hstep
  have hcost := hright.cost
  rw [step_unwindCost spreadEngine spreadStrategy putSpread putSpreadLegs putSpreadChain
    putSpreadMarket.now runtime next putSpreadMarket putSpreadMid directives putSpread_quoted hview
    hget hstep] at hcost
  exact absurd hcost (by decide)

end OptionsBot
