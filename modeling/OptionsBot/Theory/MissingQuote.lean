import OptionsBot.Core.DryExecutor
import OptionsBot.Core.Engine
import OptionsBot.Core.ExitEngine
import OptionsBot.Core.LiveExecutor
import OptionsBot.Lib.Run
import OptionsBot.Theory.ForcedExit

/-!
# Ticks with a Leg Unquoted

A close that a price triggers needs the price. On a tick where a leg has no
middle price, the directional strategy finds none in its leg, and the straddle
finds no sum in the notes and treats it as nothing known. The credit spread
finds no cost either, but takes it to be zero: the whole credit looks earned, and
the spread closes at its profit target.

The notes never hold a stale value, because the view of a trade is rebuilt from
its rows on every tick and no writer of the rows stores one.

## Main definitions

* `FillsEveryLeg`: What the executors do for a successful entry.
* `OpenRow`: The rows of an open trade, after any number of ticks.
* `OnlyForced`: No close that a price triggers.
* `Strategy.HoldsUnpriced`: When a strategy holds a position it cannot price.

## Theorems

* `dry_fillsEveryLeg`, `live_fillsEveryLeg`: Both executors do.
* `openRow_spec`: What the rows of an open trade look like.
* `step_onlyForced_iff`: When a step on an unquoted leg closes on no price.
-/

namespace OptionsBot

/-- A successful entry has a fill for each leg. -/
def FillsEveryLeg (execute : EntryRequest → EntryResult) : Prop :=
  ∀ req, (execute req).success = true → (execute req).fills.length = req.legs.length

theorem dry_fillsEveryLeg (executor : DryExecutor) (uniform : Nat → Nat → ℚ) :
    FillsEveryLeg (executor.submitEntry uniform) :=
  fun req _ => executor.submitEntry_fills uniform req

theorem live_fillsEveryLeg (slipBps : StrategyId → Nat) (execute : EntryRequest → EntryResult)
    (h : ∀ req, ∃ script, LiveExecutor.submitEntry slipBps req script = .ok (execute req)) :
    FillsEveryLeg execute := by
  intro req _
  rcases h req with ⟨script, hscript⟩
  exact LiveExecutor.submitEntry_fills slipBps req script _ hscript

/-- What rewrites the row of an open trade: a moved stop, and the end of a tick. -/
inductive RowEvent where
  | trail (newStopPrice : ℚ)
  | refresh (chain : ChainCache) (peakPnlInr : Option ℚ)

def rowStep (legs : List Leg) (trade : Trade) : RowEvent → Trade
  | .trail newStopPrice => persistTrailStop trade newStopPrice
  | .refresh chain peakPnlInr => refreshOpenTradeNotes trade legs chain peakPnlInr

/-- The rows of an open trade: opened on an emitted intent, then rewritten any
    number of times. -/
def OpenRow (trade : Trade) (legs : List Leg) : Prop :=
  ∃ (strategy : Strategy) (npStd : List ℚ → ℚ) (market : MarketState) (intents : List Intent)
    (decisions : List Decision) (intent : Intent) (execute : EntryRequest → EntryResult)
    (tradeId : Nat) (sizing : SizingResult) (quoteFor : Option (String → Option QuoteSnapshot))
    (chain : Option ChainCache) (timeout : ℚ) (opened : Trade),
    strategy.evaluate npStd market = .ok (intents, decisions) ∧ intent ∈ intents ∧
    FillsEveryLeg execute ∧
    persistEntryAndExecute execute tradeId intent sizing market quoteFor chain timeout =
      .ok (opened, legs) ∧
    opened.status = .«open» ∧ Run (rowStep legs) (fun _ _ => True) opened trade

/-- No directive closes on a price. -/
def OnlyForced (directives : List ExitDirective) : Prop :=
  ∀ d ∈ directives, ∀ t, d.trigger = some t →
    t = .forceCloseExpiry ∨ t = .deltaBreach ∨ t = .gammaShock

/-- When a strategy holds a position it cannot price. -/
def Strategy.HoldsUnpriced (position : PositionState) (market : MarketState) : Strategy → Prop
  | creditVertical self => position.entryCreditInr = none ∨
      CreditVerticalStrategy.daysToExpiry position.expiry market.now ≤
        self.config.exits.forceCloseDaysBeforeExpiry
  | _ => True

/-- A directional intent has one leg. -/
theorem evaluate_legs (strategy : Strategy) (npStd : List ℚ → ℚ) (market : MarketState)
    (intents : List Intent) (decisions : List Decision) (intent : Intent)
    (heval : strategy.evaluate npStd market = .ok (intents, decisions)) (hmem : intent ∈ intents) :
    intent.strategyId = .directional → intent.legs.length = 1 := by
  have hid := strategy.evaluate_id npStd market intents decisions heval intent hmem
  cases strategy with
  | directional self =>
      rcases mem_evaluateAll _ _ _ _ heval intent hmem with ⟨u, _, d, hd, hi⟩
      rcases self.evaluateOne_intent market u d intent hd hi with ⟨_, _, _, _, _, _, hintent⟩
      intro _
      rw [hintent]
      rfl
  | creditVertical self =>
      intro h
      cases hid.symm.trans h
  | longStraddle self =>
      intro h
      cases hid.symm.trans h

/-- What holds of an open trade's row beside its legs. -/
structure RowSpec (legs : List Leg) (trade : Trade) : Prop where
  unwind : trade.notes.currentUnwindCost = none
  total : trade.notes.currentTotalPremium = none
  single : trade.strategyId = .directional → legs.length = 1

theorem rowStep_spec (legs : List Leg) (trade : Trade) (e : RowEvent) (h : RowSpec legs trade) :
    RowSpec legs (rowStep legs trade e) := by
  cases e with
  | trail newStopPrice => exact ⟨h.unwind, h.total, h.single⟩
  | refresh chain peakPnlInr =>
      unfold rowStep refreshOpenTradeNotes
      simp only
      split
      · exact h
      · exact ⟨h.unwind, h.total, h.single⟩

/-- A successful entry writes such a row. -/
theorem opened_spec (execute : EntryRequest → EntryResult) (tradeId : Nat) (intent : Intent)
    (sizing : SizingResult) (market : MarketState)
    (quoteFor : Option (String → Option QuoteSnapshot)) (chain : Option ChainCache) (timeout : ℚ)
    (opened : Trade) (legs : List Leg) (hfills : FillsEveryLeg execute)
    (hlegs : intent.strategyId = .directional → intent.legs.length = 1)
    (hentry : persistEntryAndExecute execute tradeId intent sizing market quoteFor chain timeout =
      .ok (opened, legs)) (hopen : opened.status = .«open») : RowSpec legs opened := by
  rcases persistEntryAndExecute_ok _ _ _ _ _ _ _ _ _ hentry with ⟨first, rest, _, hrecord⟩
  rcases recordEntry_cases _ _ _ _ _ _ _ hrecord with ⟨_, hrow⟩ | ⟨hok, ⟨greeks, hrow⟩, hrows⟩
  · -- A failed entry does not leave an open row.
    cases hrow
    cases hopen
  · simp only at hrow hrows
    rw [hrow]
    refine ⟨rfl, rfl, ?_⟩
    intro hid
    -- One row for each fill, and one fill for each leg.
    rw [length_mapM_ok _ _ _ hrows, hfills _ hok]
    exact hlegs hid

theorem openRow_spec (trade : Trade) (legs : List Leg) (h : OpenRow trade legs) :
    RowSpec legs trade := by
  rcases h with ⟨strategy, npStd, market, intents, decisions, intent, execute, tradeId, sizing,
    quoteFor, chain, timeout, opened, heval, hmem, hfills, hentry, hopen, hrun⟩
  have hlegs := evaluate_legs strategy npStd market intents decisions intent heval hmem
  exact hrun.invariant (RowSpec legs) (fun a e _ ha => rowStep_spec legs a e ha)
    (opened_spec execute tradeId intent sizing market quoteFor chain timeout opened legs hfills
      hlegs hentry hopen)

section Step

variable (engine : ExitEngine) (strategy : Strategy) (trade : Trade) (legs : List Leg)
  (chain : ChainCache) (now : DateTime) (runtime next : PositionRuntime) (market : MarketState)
  (directives : List ExitDirective)

/-- The position a directional strategy sees keeps its expiry, and with its one
    leg unquoted has no middle price. -/
theorem refreshed_directional (self : DirectionalStrategy) (leg : LegState)
    (hlegs : runtime.position.legStates = [leg]) (hquote : market.quoteMid leg.symbol = none) :
    (ExitEngine.refreshed (.directional self) runtime market).position.legStates = [leg] := by
  rw [ExitEngine.refreshed_legStates self runtime market (fun head hhead => ?_), hlegs]
  rw [hlegs, List.head?_cons, Option.mem_some_iff] at hhead
  rw [← hhead]
  exact hquote

/-- With a leg unquoted, the multi-leg strategies see the position as it was
    rebuilt. -/
theorem refreshed_unquoted (leg : LegState) (hmem : leg ∈ runtime.position.legStates)
    (hquote : market.quoteMid leg.symbol = none) (hid : strategy.id ≠ .directional) :
    (ExitEngine.refreshed strategy runtime market).position = runtime.position := by
  cases strategy with
  | directional self => exact absurd rfl hid
  | creditVertical self =>
      unfold ExitEngine.refreshed ExitEngine.refreshPositionState
      simp only [ExitEngine.quotedSum_missing market unwindSign _ leg hmem hquote]
  | longStraddle self =>
      unfold ExitEngine.refreshed ExitEngine.refreshPositionState
      simp only [ExitEngine.quotedSum_missing market (fun _ => 1) _ leg hmem hquote]

/-- Only forced closes are emitted as soon as only forced ones come from
    `manage`. -/
theorem onlyForced_of_manage
    (hget : engine.registry.get runtime.position.strategyId = .ok strategy)
    (hstep : engine.step runtime market = .ok (next, directives))
    (h : ∀ t, Action.closeFor t ∈
      strategy.manage (ExitEngine.refreshed strategy runtime market).position market →
        t = .forceCloseExpiry) : OnlyForced directives := by
  intro d hd t ht
  exact Or.inl (h t ((engine.close_mem_iff runtime next market strategy directives hget hstep
    t).mp ⟨d, hd, ht⟩))

/-- An unquoted credit spread whose view holds no cost is closed on a price,
    unless it has no credit or its expiry close is due. -/
theorem creditVertical_onlyForced_iff (self : CreditVerticalStrategy)
    (hget : engine.registry.get runtime.position.strategyId = .ok (.creditVertical self))
    (hunwind : runtime.position.notes.currentUnwindCost = none) (leg : LegState)
    (hleg : leg ∈ runtime.position.legStates) (hquote : market.quoteMid leg.symbol = none)
    (hstep : engine.step runtime market = .ok (next, directives)) :
    OnlyForced directives ↔
      (Strategy.creditVertical self).HoldsUnpriced runtime.position market := by
  -- The refresh gives up on the unquoted leg, and the view stays as it was rebuilt.
  have hposition := refreshed_unquoted (.creditVertical self) runtime market leg hleg hquote
    (fun h => StrategyId.noConfusion h)
  have honly := onlyForced_of_manage engine (.creditVertical self) runtime next market directives
    hget hstep
  have hclose := fun t => engine.close_mem_iff runtime next market _ directives hget hstep t
  have htarget := self.manage_target_iff runtime.position market
  have hstop := self.manage_stop_iff runtime.position market
  -- A cost that is missing reads as zero.
  have hzero : CreditVerticalStrategy.unwindCost runtime.position = 0 := by
    rw [CreditVerticalStrategy.unwindCost, hunwind]
    rfl
  rw [hzero] at htarget hstop
  simp only [hposition, Strategy.manage] at hclose honly
  constructor
  · intro honlyForced
    by_contra hdue
    simp only [Strategy.HoldsUnpriced, not_or] at hdue
    rcases hdue with ⟨hsome, hforce⟩
    rcases Option.ne_none_iff_exists'.mp hsome with ⟨credit, hcredit⟩
    have htake := self.config.exits.profitTake_bounds
    have hloss := self.config.exits.stopLoss_pos
    -- At a cost of zero any credit is either the profit or, were it negative, the loss.
    by_cases hprofit : self.config.exits.profitTakePctOfCredit * credit ≤ credit - 0
    · rcases (hclose .target).mpr (htarget.mpr ⟨hforce, credit, hcredit, hprofit⟩) with
        ⟨d, hd, ht⟩
      rcases honlyForced d hd _ ht with h | h | h <;> cases h
    · have hneg : credit < 0 := by nlinarith
      have hlate : self.config.exits.stopLossXCredit * credit ≤ 0 :=
        (mul_neg_of_pos_of_neg hloss hneg).le
      rcases (hclose .premiumStop).mpr
        (hstop.mpr ⟨hforce, credit, hcredit, hprofit, hlate⟩) with ⟨d, hd, ht⟩
      rcases honlyForced d hd _ ht with h | h | h <;> cases h
  · intro hholds
    have hnever : ∀ credit, runtime.position.entryCreditInr = some credit →
        CreditVerticalStrategy.daysToExpiry runtime.position.expiry market.now ≤
          self.config.exits.forceCloseDaysBeforeExpiry := by
      intro credit hcredit
      rcases hholds with hnone | hdue
      · rw [hnone] at hcredit
        cases hcredit
      · exact hdue
    refine honly ?_
    intro t ht
    rcases self.manage_close _ _ _ ht with h | h | h
    · exact h
    · rw [h] at ht
      rcases htarget.mp ht with ⟨hforce, credit, hcredit, _⟩
      exact absurd (hnever credit hcredit) hforce
    · rw [h] at ht
      rcases hstop.mp ht with ⟨hforce, credit, hcredit, _⟩
      exact absurd (hnever credit hcredit) hforce

/-- On a tick that leaves a leg of an open trade without a middle price, a step
    closes on no price, unless the trade is a credit spread with its credit known
    and its expiry close not yet due. -/
theorem step_onlyForced_iff (hrow : OpenRow trade legs)
    (hview : tradeToPositionState trade legs chain now = .ok runtime.position)
    (hget : engine.registry.get runtime.position.strategyId = .ok strategy)
    (hmissing : ∃ leg ∈ legs, market.quoteMid leg.symbol = none ∧
      (chain.getQuote leg.symbol).bind QuoteSnapshot.mid = none)
    (hstep : engine.step runtime market = .ok (next, directives)) :
    OnlyForced directives ↔ strategy.HoldsUnpriced runtime.position market := by
  have hspec := openRow_spec trade legs hrow
  rcases tradeToPositionState_eq trade legs chain now _ hview with ⟨hsid, _, _, hlegs, hnotes⟩
  rcases hmissing with ⟨row, hmem, hquote, hcached⟩
  have hleg : legState chain row ∈ runtime.position.legStates := by
    rw [hlegs]
    exact List.mem_map_of_mem hmem
  have hid := engine.registry.get_id _ _ hget
  have honly := onlyForced_of_manage engine strategy runtime next market directives hget hstep
  cases strategy with
  | directional self =>
      refine ⟨fun _ => True.intro, fun _ => honly ?_⟩
      intro t ht
      -- The one leg is the unquoted one, and without its price nothing is decided.
      have hone : legs.length = 1 := hspec.single (by rw [← hsid, ← hid]; rfl)
      rcases List.length_eq_one_iff.mp hone with ⟨only, honlyLeg⟩
      rw [honlyLeg, List.mem_singleton] at hmem
      rw [honlyLeg, ← hmem] at hlegs
      refine self.manage_unpriced _ market ?_ t ht
      intro leg rest hshape
      rw [refreshed_directional runtime market self _ hlegs hquote] at hshape
      cases hshape
      exact hcached
  | creditVertical self =>
      exact creditVertical_onlyForced_iff engine runtime next market directives self hget
        (by rw [hnotes, hspec.unwind]) _ hleg hquote hstep
  | longStraddle self =>
      refine ⟨fun _ => True.intro, fun _ => honly ?_⟩
      intro t ht
      rw [refreshed_unquoted (.longStraddle self) runtime market _ hleg hquote
        (fun h => StrategyId.noConfusion h)] at ht
      simp only [Strategy.manage] at ht
      -- A total that is missing reads as zero too, but here nothing is done on it.
      by_cases hforce : runtime.position.expiry.hoursSince market.now ≤
          self.config.exits.forceCloseHoursBeforeExpiry
      · unfold LongStraddleStrategy.manage at ht
        simp only [if_pos hforce] at ht
        cases List.mem_singleton.mp ht
        rfl
      · rw [self.manage_unpriced _ _ hforce (by rw [hnotes, hspec.total])] at ht
        cases List.mem_singleton.mp ht

end Step

/-- A credit spread strategy that closes on the day of expiry only. -/
def sameDayCreditVertical : CreditVerticalStrategy :=
  { config :=
      { shippedCreditVerticalConfig with
        exits := { shippedCreditVerticalExits with
                   forceCloseDaysBeforeExpiry := 0, forceClose_bounds := by norm_num } } }

def sameDayEngine : ExitEngine :=
  { registry := { strategies := [.creditVertical sameDayCreditVertical],
                  distinct := List.nodup_singleton _ } }

/-- The sample market with every quote gone. -/
def unquotedMarket : MarketState := { breakoutMarket with chain := ChainCache.empty }

/-- The spread opened at the sample tick, and the step on it with its quotes
    gone. -/
theorem sameDay_step : ∃ trade legs runtime next directives,
    OpenRow trade legs ∧
      tradeToPositionState trade legs ChainCache.empty unquotedMarket.now =
        .ok (PositionRuntime.position runtime) ∧
      sameDayEngine.registry.get runtime.position.strategyId =
        .ok (.creditVertical sameDayCreditVertical) ∧
      (∃ leg ∈ legs, unquotedMarket.quoteMid leg.symbol = none ∧
        (ChainCache.empty.getQuote leg.symbol).bind QuoteSnapshot.mid = none) ∧
      sameDayEngine.step runtime unquotedMarket = .ok (next, directives) ∧
      ¬ (Strategy.creditVertical sameDayCreditVertical).HoldsUnpriced runtime.position
        unquotedMarket := by
  have hrow : (breakoutTrade sameDayCreditVertical).map (fun row =>
      (row.1.status, row.1.expiry, row.1.strategyId, row.1.creditReceivedInr,
        row.2.length)) =
      some (.«open», some (stampedExpiry (ymdToOrdinal 2026 5 13)), .creditVertical, some 1400,
        2) := by decide +kernel
  rcases Option.map_eq_some_iff.mp hrow with ⟨⟨trade, legs⟩, htrade, hcolumns⟩
  simp only [Prod.mk.injEq] at hcolumns
  rcases hcolumns with ⟨hstatus, hexpiry, hid, hcredit, htwo⟩
  rcases breakoutTrade_opens sameDayCreditVertical trade legs htrade with
    ⟨intents, decisions, intent, heval, hmem, hentry⟩
  have hopen : OpenRow trade legs :=
    ⟨.creditVertical sameDayCreditVertical, fun _ => 0, breakoutMarket, intents, decisions, intent,
      breakoutEntry, 1, _, none, none, 30, trade, heval, hmem, dry_fillsEveryLeg _ _, hentry,
      hstatus, Run.refl trade⟩
  rcases tradeToPositionState_open trade legs ChainCache.empty unquotedMarket.now _ hexpiry with
    ⟨position, hview, hpe, hpid, _⟩
  have hget : sameDayEngine.registry.get position.strategyId =
      .ok (.creditVertical sameDayCreditVertical) := by
    rw [hpid, hid]
    rfl
  rcases sameDayEngine.step_ok { position := position } unquotedMarket _ hget with
    ⟨action, _, _, hstep⟩
  refine ⟨trade, legs, { position := position }, _, _, hopen, hview, hget, ?_, hstep, ?_⟩
  · rcases legs with _ | ⟨leg, rest⟩
    · cases htwo
    · exact ⟨leg, List.mem_cons_self, rfl, rfl⟩
  · simp only [Strategy.HoldsUnpriced, not_or]
    refine ⟨?_, ?_⟩
    · rw [(tradeToPositionState_eq trade legs _ _ _ hview).2.2.1, hcredit]
      exact Option.some_ne_none 1400
    · rw [hpe]
      decide

theorem step_onlyForced_iff_sameDay : ∃ runtime next directives,
    sameDayEngine.step runtime unquotedMarket = .ok (next, directives) ∧
      ¬ OnlyForced directives := by
  rcases sameDay_step with ⟨trade, legs, runtime, next, directives, hopen, hview, hget, hmissing,
    hstep, hprices⟩
  refine ⟨runtime, next, directives, hstep, ?_⟩
  rw [step_onlyForced_iff sameDayEngine (.creditVertical sameDayCreditVertical) trade legs
    ChainCache.empty unquotedMarket.now runtime next unquotedMarket directives hopen hview hget
    hmissing hstep]
  exact hprices

/-- The spread, none of its legs quoted any more, is closed at its profit target. -/
theorem unquoted_spread_takes_profit :
    ¬ ∀ (engine : ExitEngine) (strategy : Strategy) (trade : Trade) (legs : List Leg)
      (chain : ChainCache) (now : DateTime) (runtime next : PositionRuntime)
      (market : MarketState) (directives : List ExitDirective), OpenRow trade legs →
      tradeToPositionState trade legs chain now = .ok runtime.position →
      engine.registry.get runtime.position.strategyId = .ok strategy →
      (∃ leg ∈ legs, market.quoteMid leg.symbol = none ∧
        (chain.getQuote leg.symbol).bind QuoteSnapshot.mid = none) →
      engine.step runtime market = .ok (next, directives) → OnlyForced directives := by
  intro hall
  rcases sameDay_step with ⟨trade, legs, runtime, next, directives, hopen, hview, hget, hmissing,
    hstep, hprices⟩
  have honly := hall sameDayEngine (.creditVertical sameDayCreditVertical) trade legs
    ChainCache.empty unquotedMarket.now runtime next unquotedMarket directives hopen hview hget
    hmissing hstep
  rcases tradeToPositionState_eq trade legs _ _ _ hview with ⟨_, _, _, hlegs, hnotes⟩
  rcases hmissing with ⟨row, hmem, hquote, _⟩
  have hleg : legState ChainCache.empty row ∈ runtime.position.legStates := by
    rw [hlegs]
    exact List.mem_map_of_mem hmem
  rw [creditVertical_onlyForced_iff sameDayEngine runtime next unquotedMarket directives
    sameDayCreditVertical hget (by rw [hnotes, (openRow_spec trade legs hopen).unwind]) _ hleg
    hquote hstep] at honly
  exact hprices honly

end OptionsBot
