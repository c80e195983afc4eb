import Mathlib.Algebra.Order.BigOperators.Group.List
import OptionsBot.Core.DryExecutor
import OptionsBot.Core.Engine
import OptionsBot.Core.LongStraddle
import OptionsBot.Core.Directional

/-!
# The Risk Budget and the Booked Loss

A long-premium intent is sized so that its lots, times what one lot costs in
rupees, stay within the budget of a trade. A lot costs its middle price times
the contract's size times the exchange rate. The fills are then booked without
the last two factors, at entry and at exit alike, so the loss a trade can book is
its lots times the bare middle price.

The most a bought position can lose is what was paid for it, so whether the
booked loss stays within the approved risk is a comparison of those two costs of
a lot.

## Main definitions

* `FilledInFull`: Fills that cover every leg at given prices.
* `LongPremium`: A long-premium intent and the prices its target comes from.
* `LossWithin`: However a trade is closed, its booked loss is within an amount.

## Theorems

* `directional_longPremium`, `straddle_longPremium`: The two strategies emit such
  intents.
* `lossWithin_iff`: A bought trade's loss is within what was paid.
* `bookedLoss_within_risk_iff`: When the booked loss is within the approved risk.
-/

namespace OptionsBot

-- The sample runs below compute with rationals.
attribute [local semireducible] Rat.add Rat.sub Rat.mul Rat.inv

/-- The fills are those of the legs in order, each for all lots, at the given
    prices, and on the side of the leg or the opposite one. -/
def FilledInFull (turn : Side → Side) (lots : ℚ) :
    List LegIntent → List ℚ → List LegFill → Prop
  | [], [], [] => True
  | leg :: legs, price :: prices, fill :: fills =>
    (fill.symbol = leg.symbol ∧ fill.side = turn leg.side ∧ fill.qtyFilled = lots ∧
      fill.avgFillPrice = some price) ∧ FilledInFull turn lots legs prices fills
  | _, _, _ => False

/-- An intent that buys every leg, with the middle prices and the contract size
    its target premium was computed from. -/
structure LongPremium (intent : Intent) (market : MarketState) (mids : List ℚ) (lotSize : ℚ) :
    Prop where
  strategy : intent.strategyId = .directional ∨ intent.strategyId = .longStraddle
  bought : ∀ leg ∈ intent.legs, leg.side = .buy
  target : intent.targetPremiumInr = market.premiumInr (some mids.sum) lotSize

/-- However the trade is closed, at prices that are not negative, the account
    value falls by no more than the amount. -/
def LossWithin (trade : Trade) (legs : List Leg) (amount : ℚ) : Prop :=
  ∀ (exit : ExitRequest → ExitResult) (trigger : ExitTrigger) (nav : NavTracker) (now : DateTime)
    (request : ExitRequest) (prices : List ℚ) (closed : Trade × List Leg × NavTracker),
    (∀ p ∈ prices, 0 ≤ p) → exitRequest trade legs trigger now = .ok request →
    (exit request).success = true →
    FilledInFull Side.flip trade.lots request.legs prices (exit request).fills →
    persistExit exit trade legs trigger nav now = .ok closed →
    nav.navNow - amount ≤ closed.2.2.navNow

theorem directional_longPremium (self : DirectionalStrategy) (market : MarketState)
    (underlying : Underlying) (d : Decision) (intent : Intent)
    (h : self.evaluateOne market underlying = .ok d) (hi : d.intent = some intent) :
    ∃ mid lotSize, LongPremium intent market [mid] lotSize := by
  rcases self.evaluateOne_intent market underlying d intent h hi with
    ⟨_, _, sel, mid, _, hmid, hintent⟩
  refine ⟨mid, sel.instrument.lotSize, ?_, ?_, ?_⟩
  · left
    rw [hintent]
    rfl
  · intro leg hleg
    rw [hintent] at hleg
    rw [List.mem_singleton.mp hleg]
  · rw [hintent, List.sum_singleton, ← hmid]
    rfl

theorem straddle_longPremium (self : LongStraddleStrategy) (npStd : List ℚ → ℚ)
    (market : MarketState) (underlying : Underlying) (d : Decision) (intent : Intent)
    (h : self.evaluateOne npStd market underlying = .ok d) (hi : d.intent = some intent) :
    ∃ callMid putMid lotSize, LongPremium intent market [callMid, putMid] lotSize := by
  rcases self.evaluateOne_intent npStd market underlying d intent h hi with
    ⟨_, _, _, call, _, callMid, putMid, _, _, _, _, hintent⟩
  refine ⟨callMid, putMid, call.instrument.lotSize, ?_, ?_, ?_⟩
  · right
    rw [hintent]
    rfl
  · intro leg hleg
    rw [hintent] at hleg
    rcases List.mem_pair.mp hleg with hl | hl
    · rw [hl]
      rfl
    · rw [hl]
      rfl
  · rw [hintent, List.sum_cons, List.sum_singleton]
    rfl

/-- What full fills on one side add up to. -/
theorem cost_filled (turn : Side → Side) (lots : ℚ) (side : Side) (legs : List LegIntent)
    (prices : List ℚ) (fills : List LegFill) (h : FilledInFull turn lots legs prices fills)
    (hside : ∀ leg ∈ legs, turn leg.side = side) :
    (fills.map LegFill.cost).sum = side.sign * lots * prices.sum := by
  induction legs generalizing prices fills with
  | nil =>
      rcases prices with _ | ⟨price, prices⟩
      · rcases fills with _ | ⟨fill, fills⟩
        · simp only [List.map_nil, List.sum_nil, mul_zero]
        · exact h.elim
      · exact h.elim
  | cons leg rest ih =>
      -- Fills in full pair up with the legs and the prices.
      rcases prices with _ | ⟨price, prices⟩
      · exact h.elim
      · rcases fills with _ | ⟨fill, fills⟩
        · exact h.elim
        · rcases h with ⟨⟨_, hfill, hqty, hprice⟩, hrest⟩
          have hcost : fill.cost = side.sign * price * lots := by
            rw [LegFill.cost, hprice, hfill, hqty, hside leg List.mem_cons_self]
          have htail := ih prices fills hrest
            (fun l hl => hside l (List.mem_cons_of_mem leg hl))
          rw [List.map_cons, List.sum_cons, List.sum_cons, hcost, htail]
          ring

/-- The side of every leg row is one of the intent's. -/
theorem legRow_side (tradeId : Nat) (intent : Intent) (sizing : SizingResult) (fill : LegFill)
    (row : Leg) (h : legRow tradeId intent sizing fill = .ok row) :
    ∃ leg ∈ intent.legs, row.side = leg.side := by
  unfold legRow at h
  simp only at h
  split_ifs at h
  · rcases hi : index intent.legs fill.legIdx with e | leg
    · rw [hi] at h
      cases h
    · rw [hi] at h
      cases h
      exact ⟨leg, mem_of_index _ _ _ hi, rfl⟩
  · rcases hi : last intent.legs with e | leg
    · rw [hi] at h
      cases h
    · rw [hi] at h
      cases h
      exact ⟨leg, mem_of_last _ _ hi, rfl⟩

/-- A trade of bought legs, and what one lot of it cost. -/
structure BoughtFor (trade : Trade) (legs : List Leg) (perLot : ℚ) : Prop where
  lots_pos : 1 ≤ trade.lots
  bought : ∀ leg ∈ legs, leg.side = .buy
  paid : entryCashflowInr trade.premiumPaidInr trade.creditReceivedInr trade.lots =
    -(trade.lots * perLot)

theorem exitRequest_side (trade : Trade) (legs : List Leg) (trigger : ExitTrigger) (now : DateTime)
    (request : ExitRequest) (h : exitRequest trade legs trigger now = .ok request)
    (hbuy : ∀ leg ∈ legs, leg.side = .buy) : ∀ leg ∈ request.legs, leg.side = .buy := by
  unfold exitRequest at h
  split at h
  · cases h
  · next intents hmap =>
    cases h
    intro leg hleg
    -- A requested leg is a row of the trade, with its side.
    rcases mem_mapM_ok _ _ _ hmap leg hleg with ⟨row, hrow, hval⟩
    unfold exitLeg at hval
    have hside : leg.side = row.side := by
      split at hval
      · cases hval
        rfl
      · rcases hsym : expiryFromLegSymbol row.symbol now with e | e
        · rw [hsym] at hval
          cases hval
        · rw [hsym] at hval
          cases hval
          rfl
    rw [hside]
    exact hbuy row ((List.mem_insertionSort _).mp hrow)

/-- The exit request of a trade with an expiry. -/
theorem exitRequest_isOk (trade : Trade) (legs : List Leg) (trigger : ExitTrigger)
    (now e : DateTime) (h : trade.expiry = some e) :
    ∃ request, exitRequest trade legs trigger now = .ok request := by
  have hmap : ∀ rows : List Leg, ∃ intents, rows.mapM (exitLeg trade now) = .ok intents := by
    intro rows
    have hleg : exitLeg trade now = fun leg => pure
        { symbol := leg.symbol, side := leg.side, optionType := leg.optionType.getD .call,
          strike := leg.strike.getD 0, expiry := e } := by
      funext leg
      rw [exitLeg, h]
      rfl
    rw [hleg, List.mapM_pure]
    exact ⟨_, rfl⟩
  rcases hmap (legs.insertionSort (fun a b => a.legIdx ≤ b.legIdx)) with ⟨intents, hintents⟩
  unfold exitRequest
  rw [hintents]
  exact ⟨_, rfl⟩

theorem persistExit_nav (exit : ExitRequest → ExitResult) (trade : Trade) (legs : List Leg)
    (trigger : ExitTrigger) (nav : NavTracker) (now : DateTime) (request : ExitRequest)
    (hreq : exitRequest trade legs trigger now = .ok request)
    (hok : (exit request).success = true) :
    ∃ closed, persistExit exit trade legs trigger nav now = .ok closed ∧
      closed.2.2.navNow = nav.navNow + tradeRealisedPnl trade (exit request) := by
  unfold persistExit
  rw [hreq]
  simp only [hok, Bool.not_true, Bool.false_eq_true, if_false]
  exact ⟨_, rfl, rfl⟩

/-- What closing a bought trade in full books. -/
theorem realised_bought (trade : Trade) (legs : List Leg) (perLot : ℚ)
    (hbought : BoughtFor trade legs perLot) (trigger : ExitTrigger) (now : DateTime)
    (request : ExitRequest) (hreq : exitRequest trade legs trigger now = .ok request)
    (prices : List ℚ) (result : ExitResult)
    (hfull : FilledInFull Side.flip trade.lots request.legs prices result.fills) :
    tradeRealisedPnl trade result = trade.lots * (prices.sum - perLot) := by
  -- Bought legs are sold, so the fills bring in the prices.
  have hside : ∀ leg ∈ request.legs, leg.side.flip = .sell := by
    intro leg hleg
    rw [exitRequest_side trade legs trigger now request hreq hbought.bought leg hleg]
    rfl
  have hsum := cost_filled Side.flip trade.lots .sell request.legs prices result.fills hfull hside
  have hneg : exitCashflowInr result.fills = -(result.fills.map LegFill.cost).sum := by
    unfold exitCashflowInr
    rw [List.sum_neg, List.map_map]
    rfl
  rw [tradeRealisedPnl, realisedPnlInr, hbought.paid, hneg, hsum, Side.sign]
  ring

/-- A fill of a leg at a price. -/
def fillAt (turn : Side → Side) (lots price : ℚ) (leg : LegIntent) : LegFill :=
  { symbol := leg.symbol, side := turn leg.side, qtyRequested := lots, qtyFilled := lots,
    avgFillPrice := some price, legIdx := 0, clientOrderId := .missingQuote }

theorem fillAt_full (turn : Side → Side) (lots price : ℚ) (legs : List LegIntent) :
    FilledInFull turn lots legs (legs.map (fun _ => price))
      (legs.map (fillAt turn lots price)) := by
  induction legs with
  | nil => exact True.intro
  | cons leg rest ih => exact ⟨⟨rfl, rfl, rfl, rfl⟩, ih⟩

/-- The most a bought trade can book as a loss is what was paid for it. -/
theorem lossWithin_iff (trade : Trade) (legs : List Leg) (perLot amount : ℚ) (e : DateTime)
    (hbought : BoughtFor trade legs perLot) (hexp : trade.expiry = some e) :
    LossWithin trade legs amount ↔ trade.lots * perLot ≤ amount := by
  have hlots : (0 : ℚ) < trade.lots := by exact_mod_cast hbought.lots_pos
  constructor
  · intro hloss
    -- An exit at nothing loses all that was paid.
    rcases exitRequest_isOk trade legs .target e e hexp with ⟨request, hreq⟩
    let exit : ExitRequest → ExitResult := fun req =>
      { success := true, tradeId := trade.id,
        fills := req.legs.map (fillAt Side.flip trade.lots 0) }
    have hfull : FilledInFull Side.flip trade.lots request.legs (request.legs.map (fun _ => 0))
        (exit request).fills := fillAt_full Side.flip trade.lots 0 request.legs
    have hzero : (request.legs.map (fun _ => (0 : ℚ))).sum = 0 := by
      rw [List.sum_eq_zero]
      intro x hx
      rcases List.mem_map.mp hx with ⟨_, _, hx0⟩
      exact hx0.symm
    let nav : NavTracker := { navNow := 0, navOpenToday := 0, navOpenWeek := 0, peakNav := 0 }
    rcases persistExit_nav exit trade legs .target nav e request hreq rfl with
      ⟨closed, hclosed, hnav⟩
    have hbound := hloss exit .target nav e request _ closed ?_ hreq rfl hfull hclosed
    · rw [hnav, realised_bought trade legs perLot hbought .target e request hreq _ _ hfull,
        hzero] at hbound
      linarith
    · intro p hp
      rcases List.mem_map.mp hp with ⟨_, _, hp0⟩
      exact hp0.le
  · -- Whatever the exit prices, they are not negative.
    intro hpaid exit trigger nav now request prices closed hprices hreq hok hfull hclosed
    rcases persistExit_nav exit trade legs trigger nav now request hreq hok with
      ⟨closed', hclosed', hnav⟩
    rw [hclosed'] at hclosed
    cases hclosed
    have hsum : 0 ≤ prices.sum := List.sum_nonneg hprices
    have hscaled : 0 ≤ trade.lots * prices.sum := mul_nonneg hlots.le hsum
    rw [hnav, realised_bought trade legs perLot hbought trigger now request hreq _ _ hfull]
    linarith

/-- A filled long-premium entry is a trade of bought legs that cost what the
    fills did. -/
theorem opened_boughtFor (intent : Intent) (sizing : SizingResult) (market : MarketState)
    (mids : List ℚ) (lotSize : ℚ) (hlong : LongPremium intent market mids lotSize)
    (hlots : 1 ≤ sizing.sizedLots) (enter : EntryRequest → EntryResult) (tradeId : Nat)
    (quoteFor : Option (String → Option QuoteSnapshot)) (chain : Option ChainCache) (timeout : ℚ)
    (hok : (enter (entryRequest tradeId intent sizing timeout)).success = true)
    (hfull : FilledInFull id sizing.sizedLots intent.legs mids
      (enter (entryRequest tradeId intent sizing timeout)).fills)
    (trade : Trade) (legs : List Leg)
    (hentry : persistEntryAndExecute enter tradeId intent sizing market quoteFor chain timeout =
      .ok (trade, legs)) :
    BoughtFor trade legs mids.sum ∧ trade.lots = sizing.sizedLots ∧
      ∃ e, trade.expiry = some e := by
  -- The premium of the fills is a plain product: no contract size and no rate.
  have htotal : (enter (entryRequest tradeId intent sizing timeout)).totalPremiumInr =
      sizing.sizedLots * mids.sum := by
    rw [EntryResult.totalPremiumInr,
      cost_filled id sizing.sizedLots .buy intent.legs mids _ hfull hlong.bought, Side.sign]
    ring
  rcases persistEntryAndExecute_ok _ _ _ _ _ _ _ _ _ hentry with ⟨first, rest, _, hrecord⟩
  rcases recordEntry_success _ _ _ _ _ _ _ hrecord hok with ⟨⟨greeks, hrow⟩, hrows⟩
  simp only at hrow hrows
  rw [hrow]
  refine ⟨⟨hlots, ?_, ?_⟩, rfl, _, rfl⟩
  · intro leg hleg
    rcases mem_mapM_ok _ _ _ hrows leg hleg with ⟨fill, _, hfill⟩
    rcases legRow_side _ _ _ _ _ hfill with ⟨li, hli, hside⟩
    rw [hside]
    exact hlong.bought li hli
  · rw [htotal]
    exact entryCashflow_perLot _ _ hlots

/-- The amount at risk per lot of a long-premium intent. -/
theorem sizingRule_longPremium (intent : Intent) (market : MarketState) (mids : List ℚ)
    (lotSize : ℚ) (hlong : LongPremium intent market mids lotSize) :
    (RiskManager.sizingRule intent).perLot = market.premiumInr (some mids.sum) lotSize := by
  rw [← hlong.target]
  unfold RiskManager.sizingRule
  rcases hlong.strategy with hs | hs
  · rw [hs]
  · rw [hs]

/-- The booked loss of an approved long-premium trade, filled at the prices it
    was sized on, stays within the approved risk exactly if one unit of a
    contract is worth at least one rupee of its price. -/
theorem bookedLoss_within_risk_iff (self : RiskManager) (intent : Intent) (input : GateInput)
    (sizing : SizingResult) (market : MarketState) (mids : List ℚ) (lotSize : ℚ)
    (hrate : 0 < market.usdInrRate) (hlong : LongPremium intent market mids lotSize)
    (hgate : self.gate intent input = .ok sizing) (happroved : sizing.approved = true)
    (enter : EntryRequest → EntryResult) (tradeId : Nat)
    (quoteFor : Option (String → Option QuoteSnapshot)) (chain : Option ChainCache) (timeout : ℚ)
    (hok : (enter (entryRequest tradeId intent sizing timeout)).success = true)
    (hfull : FilledInFull id sizing.sizedLots intent.legs mids
      (enter (entryRequest tradeId intent sizing timeout)).fills)
    (trade : Trade) (legs : List Leg)
    (hentry : persistEntryAndExecute enter tradeId intent sizing market quoteFor chain timeout =
      .ok (trade, legs)) :
    LossWithin trade legs sizing.riskInr ↔ 1 ≤ lotSize * market.usdInrRate := by
  rcases self.gate_approved intent input sizing hgate happroved with ⟨_, _, strategy, _, hsized⟩
  rw [hsized] at happroved
  -- The approved risk is the rupee value of the premium, for each lot.
  rcases self.sizeIntent_approved intent strategy.base input happroved with
    ⟨perLot, hper, hpos, hlots, hrisk⟩
  rw [← hsized] at hlots hrisk
  rw [id_eq, id_eq] at hrisk
  rw [sizingRule_longPremium intent market mids lotSize hlong] at hper
  rcases market.premiumInr_eq_some mids.sum lotSize perLot hper with ⟨hsize, hperLot⟩
  rcases opened_boughtFor intent sizing market mids lotSize hlong hlots enter tradeId quoteFor chain
    timeout hok hfull trade legs hentry with ⟨hbought, hsame, e, hexp⟩
  rw [lossWithin_iff trade legs mids.sum sizing.riskInr e hbought hexp, hrisk, hsame, hperLot]
  have hn : (0 : ℚ) < sizing.sizedLots := by exact_mod_cast hlots
  have hsum : 0 < mids.sum := by
    rw [hperLot, mul_assoc] at hpos
    exact pos_of_mul_pos_left hpos (mul_pos hsize hrate).le
  -- Cancel the lots, then the price paid.
  rw [mul_le_mul_iff_right₀ hn, mul_assoc, le_mul_iff_one_le_right hsum]

/-- A call listed for the next day, quoted at 400. -/
def callChain : ChainCache :=
  (ChainCache.empty.refreshInstruments
    [{ contractType := some "call_options", symbol := some "C-BTC-97000-130526", id := some 1,
       contractValue := some (1 / 1000), lotSize := none, tickSize := none,
       state := none }]).upsertQuote
    "C-BTC-97000-130526" { markPrice := some 400 }

/-- A tick at 10:00 UTC on 12 May 2026. -/
def callMarket : MarketState :=
  { now := combine (ymdToOrdinal 2026 5 12) (hourMinute 10 0)
    chain := callChain
    candlesByTf := fun _ _ => []
    underlyingMarks := fun _ => some 97000
    usdInrRate := 85 }

/-- One call, its target the rupee value of one contract at 400. -/
def callIntent : Intent :=
  { strategyId := .directional
    underlying := .btc
    bucket := .d2
    legs := [{ symbol := "C-BTC-97000-130526", side := .buy, optionType := .call, strike := 97000,
               expiry := combine (ymdToOrdinal 2026 5 13) (hourMinute 17 30) }]
    requestedLots := 10
    rationale := "directional_call_atr_breakout"
    targetPremiumInr := callMarket.premiumInr (some 400) (1 / 1000) }

/-- A risk manager at an account value of 50000, the directional strategy on. -/
def callManager : RiskManager :=
  { cfg := shippedGlobalConfig
    nav := { navNow := 50000, navOpenToday := 50000, navOpenWeek := 50000, peakNav := 50000 }
    strategies := fun _ => some (.directional
      { shippedDirectionalConfig with
        riskWeight := 1 / 2, riskPerTradePct := 2 / 100, tradePremiumCapUsd := none
        weight_bounds := by norm_num, perTrade_bounds := by norm_num
        premiumCap_pos := optPos_none }) }

def callInput : GateInput :=
  { nowUtc := callMarket.now
    accounting := { openCountTotal := 0, openCountByStrategy := fun _ => 0 } }

/-- The dry executor, drawing no slippage. -/
def callEntry : EntryRequest → EntryResult :=
  DryExecutor.submitEntry { chain := callChain } (fun _ _ => 0)

theorem callIntent_longPremium : LongPremium callIntent callMarket [400] (1 / 1000) :=
  ⟨Or.inl rfl, by decide, by rw [List.sum_singleton]; rfl⟩

/-- Ten lots are approved, at a risk of 340 rupees. -/
theorem callManager_gate : ∃ sizing, callManager.gate callIntent callInput = .ok sizing ∧
    sizing.approved = true ∧ sizing.sizedLots = 10 ∧ sizing.riskInr = 340 := by
  have hgate : (callManager.gate callIntent callInput).map
      (fun r => (r.approved, r.sizedLots, r.riskInr)) = .ok (true, 10, 340) := by decide
  rcases h : callManager.gate callIntent callInput with e | sizing
  · rw [h] at hgate
    cases hgate
  · rw [h] at hgate
    simp only [Except.map, Except.ok.injEq, Prod.mk.injEq] at hgate
    exact ⟨sizing, rfl, hgate⟩

/-- The dry executor fills them at 400, and the trade is opened. -/
theorem callEntry_opens (sizing : SizingResult) (hlots : sizing.sizedLots = 10) :
    (callEntry (entryRequest 1 callIntent sizing 30)).success = true ∧
      FilledInFull id sizing.sizedLots callIntent.legs [400]
        (callEntry (entryRequest 1 callIntent sizing 30)).fills ∧
      ∃ opened, persistEntryAndExecute callEntry 1 callIntent sizing callMarket none none 30 =
        .ok opened := by
  have hresult : callEntry (entryRequest 1 callIntent sizing 30) =
      { success := true, tradeId := 1,
        fills := [{ symbol := "C-BTC-97000-130526", side := .buy, qtyRequested := 10,
                    qtyFilled := 10, avgFillPrice := some 400, legIdx := 0,
                    clientOrderId := .generated "directional" 1 0 "entry" }] } := by
    unfold entryRequest
    rw [hlots]
    decide
  refine ⟨by rw [hresult], ?_, ?_⟩
  · rw [hresult, hlots]
    exact ⟨⟨rfl, rfl, rfl, rfl⟩, True.intro⟩
  · -- Opening reads nothing of the sizing but the lots.
    have hsame : persistEntryAndExecute callEntry 1 callIntent sizing callMarket none none 30 =
        persistEntryAndExecute callEntry 1 callIntent
          { decision := .approved, intent := callIntent, sizedLots := sizing.sizedLots }
          callMarket none none 30 := rfl
    rw [hsame, hlots]
    have hok : (persistEntryAndExecute callEntry 1 callIntent
        { decision := .approved, intent := callIntent, sizedLots := 10 } callMarket none none
        30).isOk = true := by decide
    rcases h : persistEntryAndExecute callEntry 1 callIntent
        { decision := .approved, intent := callIntent, sizedLots := 10 } callMarket none none
        30 with e | opened
    · rw [h] at hok
      cases hok
    · exact ⟨opened, rfl⟩

/-- A thousandth of a coin at 85 rupees a dollar is less than one, so what the calls can lose is
    more than the risk they were approved at. -/
theorem bookedLoss_within_risk_iff_call : ∃ sizing trade legs,
    callManager.gate callIntent callInput = .ok sizing ∧
      persistEntryAndExecute callEntry 1 callIntent sizing callMarket none none 30 =
        .ok (trade, legs) ∧
      ¬ LossWithin trade legs sizing.riskInr := by
  rcases callManager_gate with ⟨sizing, hgate, happroved, hlots, _⟩
  rcases callEntry_opens sizing hlots with ⟨hok, hfull, ⟨trade, legs⟩, hentry⟩
  refine ⟨sizing, trade, legs, hgate, hentry, ?_⟩
  rw [bookedLoss_within_risk_iff callManager callIntent callInput sizing callMarket [400] (1 / 1000)
    (by decide) callIntent_longPremium hgate happroved callEntry 1 none none 30 hok hfull
    trade legs hentry]
  decide

/-- Ten calls bought at 400 and approved at a risk of 340 can lose 4000. -/
theorem bookedLoss_exceeds_risk :
    ¬ ∀ (self : RiskManager) (intent : Intent) (input : GateInput) (sizing : SizingResult)
      (market : MarketState) (mids : List ℚ) (lotSize : ℚ), 0 < market.usdInrRate →
      LongPremium intent market mids lotSize → self.gate intent input = .ok sizing →
      sizing.approved = true →
      ∀ (enter : EntryRequest → EntryResult) (tradeId : Nat)
        (quoteFor : Option (String → Option QuoteSnapshot)) (chain : Option ChainCache)
        (timeout : ℚ),
        (enter (entryRequest tradeId intent sizing timeout)).success = true →
        FilledInFull id sizing.sizedLots intent.legs mids
          (enter (entryRequest tradeId intent sizing timeout)).fills →
        ∀ (trade : Trade) (legs : List Leg),
          persistEntryAndExecute enter tradeId intent sizing market quoteFor chain timeout =
            .ok (trade, legs) →
          LossWithin trade legs sizing.riskInr := by
  intro hall
  rcases callManager_gate with ⟨sizing, hgate, happroved, hlots, hrisk⟩
  rcases callEntry_opens sizing hlots with ⟨hok, hfull, ⟨trade, legs⟩, hentry⟩
  have hloss := hall callManager callIntent callInput sizing callMarket [400] (1 / 1000)
    (by decide) callIntent_longPremium hgate happroved callEntry 1 none none 30 hok hfull
    trade legs hentry
  rcases opened_boughtFor callIntent sizing callMarket [400] (1 / 1000) callIntent_longPremium
    (by rw [hlots]; decide) callEntry 1 none none 30 hok hfull trade legs hentry with
    ⟨hbought, hsame, e, hexp⟩
  rw [lossWithin_iff trade legs _ _ e hbought hexp, hsame, hlots, hrisk, List.sum_singleton]
    at hloss
  norm_num at hloss

end OptionsBot
