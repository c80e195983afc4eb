import OptionsBot.Core.DryExecutor
import OptionsBot.Core.Registry
import OptionsBot.Theory.RoundTrip

/-!
# The Price a Trade Is Managed By

Every strategy measures an open trade against its price at entry, and each reads
one column of it: the premium paid, or the credit received. Without it `manage`
answers that there is nothing to do, whatever the price, until the trade is
closed for its expiry.

Which column is set depends on the sign of what the fills came to, and on
nothing else. An entry is successful once every leg is complete, and a complete
fill may have cost more than was planned or come without a price. A spread whose
purchase cost as much as its sale brought in has a premium or nothing, and a
bought option without a price has nothing.

## Main definitions

* `entryColumn`: The column a strategy reads.
* `Unmanaged`: A trade that is only ever closed for its expiry.
* `EntryPriced`: The fills have the sign the strategy expects.

## Theorems

* `unmanaged_of_none`: Without its column, a trade is not managed.
* `directional_target`, `creditVertical_target`, `longStraddle_target`: A price that closes it.
* `managed_of_some`: With a positive one there is a price it is closed at.
* `entryColumn_success`: The column of a trade that was opened.
* `opened_managed_iff`: Exactly when an opened trade is managed.
-/

namespace OptionsBot

-- The sample runs below compute with rationals.
attribute [local semireducible] Rat.add Rat.sub Rat.mul Rat.inv

/-- The column of a trade that its strategy measures it against. -/
def entryColumn : StrategyId → Trade → Option ℚ
  | .creditVertical, trade => trade.creditReceivedInr
  | _, trade => trade.premiumPaidInr

/-- At every price the strategy does nothing with the trade, or closes it for its expiry. -/
def Unmanaged (s : Strategy) (trade : Trade) : Prop :=
  ∀ (position : PositionState) (market : MarketState),
    position.entryPremiumInr = trade.premiumPaidInr →
    position.entryCreditInr = trade.creditReceivedInr →
      s.manage position market = [.closeFor .forceCloseExpiry] ∨
        s.manage position market = [.noOp]

/-- The fills came to a credit for a spread, and to a premium for a bought option. -/
def EntryPriced : StrategyId → List LegFill → Prop
  | .creditVertical, fills => turnover .buy fills < turnover .sell fills
  | _, fills => turnover .sell fills < turnover .buy fills

section Column

variable (s : Strategy) (trade : Trade)

/-- Without the column that its strategy reads, a trade is not managed. -/
theorem unmanaged_of_none (h : entryColumn s.id trade = none) : Unmanaged s trade := by
  intro position market hpremium hcredit
  cases s with
  | directional self =>
      have hnone : position.entryPremiumInr = none := hpremium.trans h
      simp only [Strategy.manage, DirectionalStrategy.manage, hnone]
      split_ifs
      · exact Or.inl rfl
      · cases position.legStates with
        | nil => exact Or.inr rfl
        | cons leg rest => exact Or.inr rfl
  | creditVertical self =>
      have hnone : position.entryCreditInr = none := hcredit.trans h
      simp only [Strategy.manage, CreditVerticalStrategy.manage, hnone]
      split_ifs
      · exact Or.inl rfl
      · exact Or.inr rfl
  | longStraddle self =>
      have hnone : position.entryPremiumInr = none := hpremium.trans h
      simp only [Strategy.manage, LongStraddleStrategy.manage, hnone]
      split_ifs
      · exact Or.inl rfl
      · exact Or.inr rfl

end Column

/-- The columns of a net total: a premium when something was paid, a credit when something was
    received, whatever the lots. -/
theorem perLotPremium_columns (net : ℚ) (lots : Int) :
    (0 < net → ∃ c, 0 < c ∧ (perLotPremiumFromNet net lots).1 = some c) ∧
      (net ≤ 0 → (perLotPremiumFromNet net lots).1 = none) ∧
      (net < 0 → ∃ c, 0 < c ∧ (perLotPremiumFromNet net lots).2 = some c) ∧
      (0 ≤ net → (perLotPremiumFromNet net lots).2 = none) := by
  have hpos : (0 : ℚ) < ((if lots < 1 then 1 else lots : Int) : ℚ) := by
    split_ifs with h
    · norm_num
    · exact_mod_cast lt_of_lt_of_le Int.zero_lt_one (not_lt.mp h)
  simp only [perLotPremiumFromNet]
  rcases lt_trichotomy net 0 with hneg | hzero | hgain
  · have hper := div_neg_of_neg_of_pos hneg hpos
    rw [if_neg (not_lt.mpr hper.le), if_pos hper]
    exact ⟨fun h => absurd h (not_lt.mpr hneg.le), fun _ => rfl,
      fun _ => ⟨_, neg_pos.mpr hper, rfl⟩, fun h => absurd hneg (not_lt.mpr h)⟩
  · rw [hzero, zero_div, if_neg (lt_irrefl 0), if_neg (lt_irrefl 0)]
    exact ⟨fun h => absurd h (lt_irrefl 0), fun _ => rfl, fun h => absurd h (lt_irrefl 0),
      fun _ => rfl⟩
  · have hper := div_pos hgain hpos
    rw [if_pos hper]
    exact ⟨fun _ => ⟨_, hper, rfl⟩, fun h => absurd hgain (not_lt.mpr h),
      fun h => absurd hgain (not_lt.mpr h.le), fun _ => rfl⟩

/-- The column of a trade whose entry has succeeded, from the fills: positive where they have the
    sign its strategy expects, empty where they have not. -/
theorem entryColumn_success (sid : StrategyId) (trade : Trade) (intent : Intent)
    (sizing : SizingResult) (result : EntryResult)
    (quoteFor : Option (String → Option QuoteSnapshot)) (chain : Option ChainCache)
    (rows : Trade × List Leg)
    (h : recordEntry trade intent sizing result quoteFor chain = .ok rows)
    (hsuccess : result.success = true) :
    (EntryPriced sid result.fills → ∃ c, 0 < c ∧ entryColumn sid rows.1 = some c) ∧
      (¬ EntryPriced sid result.fills → entryColumn sid rows.1 = none) := by
  rcases recordEntry_success trade intent sizing result quoteFor chain rows h hsuccess with
    ⟨⟨greeks, hrow⟩, _⟩
  have hnet : result.totalPremiumInr =
      turnover .buy result.fills - turnover .sell result.fills := by
    rw [EntryResult.totalPremiumInr, sum_cost_eq]
  rcases perLotPremium_columns result.totalPremiumInr sizing.sizedLots with
    ⟨hpaid, hunpaid, hreceived, hunreceived⟩
  rw [hnet] at hpaid hunpaid hreceived hunreceived
  rw [hrow, hnet]
  have hpremium : (turnover .sell result.fills < turnover .buy result.fills →
      ∃ c, 0 < c ∧ (perLotPremiumFromNet (turnover .buy result.fills -
        turnover .sell result.fills) sizing.sizedLots).1 = some c) ∧
      (¬ turnover .sell result.fills < turnover .buy result.fills →
        (perLotPremiumFromNet (turnover .buy result.fills -
          turnover .sell result.fills) sizing.sizedLots).1 = none) :=
    ⟨fun hlt => hpaid (sub_pos.mpr hlt), fun hle => hunpaid (sub_nonpos.mpr (not_lt.mp hle))⟩
  cases sid with
  | creditVertical =>
      exact ⟨fun hlt => hreceived (sub_neg.mpr hlt),
        fun hle => hunreceived (sub_nonneg.mpr (not_lt.mp hle))⟩
  | directional => exact hpremium
  | longStraddle => exact hpremium

section Distant

variable (s : Strategy) (trade : Trade)

/-- A view of a trade with a leg at a price, and the price in the two figures of the notes. -/
def pricedView (expiry : DateTime) (mid : ℚ) : PositionState :=
  { tradeId := trade.id
    strategyId := trade.strategyId
    underlying := trade.underlying
    expiry := expiry
    lots := trade.lots
    entryTs := trade.entryTs
    entryPremiumInr := trade.premiumPaidInr
    entryCreditInr := trade.creditReceivedInr
    legStates := [{ symbol := "", optionType := none, currentMid := some mid }]
    notes := { currentUnwindCost := some mid, currentTotalPremium := some mid } }

/-- A market at the start of the calendar, with nothing quoted. -/
def emptyMarket : MarketState :=
  { now := ⟨0⟩, chain := ChainCache.empty, candlesByTf := fun _ _ => []
    underlyingMarks := fun _ => none }

/-- However many hours before its expiry a trade is closed, there is an earlier moment. -/
theorem exists_distant (hours : ℚ) : ∃ t : DateTime, ¬ t.hoursSince ⟨0⟩ ≤ hours := by
  refine ⟨⟨(⌈hours⌉ + 1) * 3600000000⟩, ?_⟩
  rw [DateTime.hoursSince_le_iff, sub_zero, not_le]
  push_cast
  have hceil := Int.le_ceil hours
  nlinarith

/-- A bought option with a premium is closed at the price its target is at. -/
theorem directional_target (self : DirectionalStrategy) (c : ℚ)
    (hcol : trade.premiumPaidInr = some c) :
    ∃ expiry mid, self.manage (pricedView trade expiry mid) emptyMarket = [.closeFor .target] := by
  rcases exists_distant self.config.exits.forceCloseHoursBeforeExpiry with ⟨expiry, hfar⟩
  refine ⟨expiry, (1 + self.config.exits.targetR) * c, ?_⟩
  -- Nothing is quoted in this market, so no greek can have moved.
  have hgreeks : ∀ leg, DirectionalStrategy.deskGreekExit self.config.desk
      (pricedView trade expiry ((1 + self.config.exits.targetR) * c)) leg emptyMarket = none := by
    intro leg
    unfold DirectionalStrategy.deskGreekExit
    split_ifs
    · rfl
    · rfl
  rw [DirectionalStrategy.manage, if_neg (show ¬ (pricedView trade expiry _).expiry.hoursSince
    emptyMarket.now ≤ _ from hfar)]
  simp only [pricedView, hcol, DirectionalStrategy.managePriced] at hgreeks ⊢
  rw [hgreeks]
  simp only [le_refl, if_true]

/-- A spread with a credit is closed once unwinding it leaves the configured profit. -/
theorem creditVertical_target (self : CreditVerticalStrategy) (c : ℚ)
    (hcol : trade.creditReceivedInr = some c) :
    ∃ expiry mid, self.manage (pricedView trade expiry mid) emptyMarket = [.closeFor .target] := by
  refine ⟨⟨100 * microsPerDay⟩, c - self.config.exits.profitTakePctOfCredit * c, ?_⟩
  -- No configuration forces a close a hundred days ahead.
  have hfar : ¬ CreditVerticalStrategy.daysToExpiry ⟨100 * microsPerDay⟩ ⟨0⟩ ≤
      self.config.exits.forceCloseDaysBeforeExpiry := by
    have hdays : CreditVerticalStrategy.daysToExpiry ⟨100 * microsPerDay⟩ ⟨0⟩ = 100 := by
      decide
    rw [hdays, not_le]
    exact lt_of_le_of_lt self.config.exits.forceClose_bounds.2 (by norm_num)
  have hcost : CreditVerticalStrategy.unwindCost (pricedView trade ⟨100 * microsPerDay⟩
      (c - self.config.exits.profitTakePctOfCredit * c)) =
      c - self.config.exits.profitTakePctOfCredit * c := orFloat_some_zero _
  rw [CreditVerticalStrategy.manage, if_neg (show ¬ CreditVerticalStrategy.daysToExpiry
    (pricedView trade _ _).expiry emptyMarket.now ≤ _ from hfar), hcost]
  simp only [pricedView, hcol, sub_sub_cancel, le_refl, if_true]

/-- A straddle with a premium is closed at the sum its target is at. -/
theorem longStraddle_target (self : LongStraddleStrategy) (c : ℚ) (hc : 0 < c)
    (hcol : trade.premiumPaidInr = some c) :
    ∃ expiry mid, self.manage (pricedView trade expiry mid) emptyMarket = [.closeFor .target] := by
  rcases exists_distant self.config.exits.forceCloseHoursBeforeExpiry with ⟨expiry, hfar⟩
  refine ⟨expiry, (1 + self.config.exits.profitTakePctOfPremium) * c, ?_⟩
  have hsum : LongStraddleStrategy.totalPremium (pricedView trade expiry
      ((1 + self.config.exits.profitTakePctOfPremium) * c)) =
      (1 + self.config.exits.profitTakePctOfPremium) * c := orFloat_some_zero _
  -- A sum of nothing would be taken for one that is not known.
  have hpos : 0 < (1 + self.config.exits.profitTakePctOfPremium) * c := by
    have htake := self.config.exits.profitTake_bounds.1
    positivity
  rw [LongStraddleStrategy.manage, if_neg (show ¬ (pricedView trade expiry _).expiry.hoursSince
    emptyMarket.now ≤ _ from hfar), hsum]
  simp only [pricedView, hcol]
  rw [if_neg (not_le.mpr hpos)]
  simp only [le_refl, if_true]

/-- With a positive price in its column, there is a price at which a trade is closed other than for
    its expiry. -/
theorem managed_of_some (c : ℚ) (hc : 0 < c) (h : entryColumn s.id trade = some c) :
    ¬ Unmanaged s trade := by
  intro hidle
  have hclosed : ∃ expiry mid,
      s.manage (pricedView trade expiry mid) emptyMarket = [.closeFor .target] := by
    cases s with
    | directional self => exact directional_target trade self c h
    | creditVertical self => exact creditVertical_target trade self c h
    | longStraddle self => exact longStraddle_target trade self c hc h
  rcases hclosed with ⟨expiry, mid, hmanage⟩
  rcases hidle (pricedView trade expiry mid) emptyMarket rfl rfl with hforce | hnoOp
  · rw [hmanage] at hforce
    exact absurd hforce (by decide)
  · rw [hmanage] at hnoOp
    exact absurd hnoOp (by decide)

end Distant

/-- Whatever the executor has returned: an open trade carries the price its own strategy measures it
    against, and is not left to its expiry, exactly when the fills came to a credit for a spread and
    to a premium for a bought option. -/
theorem opened_managed_iff (s : Strategy) (execute : EntryRequest → EntryResult) (tradeId : Nat)
    (intent : Intent) (sizing : SizingResult) (market : MarketState)
    (quoteFor : Option (String → Option QuoteSnapshot)) (chain : Option ChainCache)
    (makerTimeoutSeconds : ℚ) (rows : Trade × List Leg)
    (h : persistEntryAndExecute execute tradeId intent sizing market quoteFor chain
      makerTimeoutSeconds = .ok rows) (hopen : rows.1.status = .«open») :
    ((entryColumn s.id rows.1).isSome ∧ ¬ Unmanaged s rows.1) ↔
      EntryPriced s.id
        (execute (entryRequest tradeId intent sizing makerTimeoutSeconds)).fills := by
  rcases persistEntryAndExecute_ok _ _ _ _ _ _ _ _ rows h with ⟨first, rest, _, hrecord⟩
  rcases recordEntry_cases _ _ _ _ _ _ rows hrecord with ⟨_, rfl⟩ | ⟨hsuccess, _⟩
  · -- A trade whose entry failed is errored.
    exact TradeStatus.noConfusion hopen
  · rcases entryColumn_success s.id _ intent sizing _ quoteFor chain rows hrecord hsuccess with
      ⟨hset, hunset⟩
    constructor
    · rintro ⟨hsome, _⟩
      by_contra hpriced
      rw [hunset hpriced] at hsome
      exact Bool.false_ne_true hsome
    · intro hpriced
      rcases hset hpriced with ⟨c, hc, hcol⟩
      exact ⟨by rw [hcol, Option.isSome_some], managed_of_some s rows.1 c hc hcol⟩

/-- A bull put spread of 40 points, its long leg first. -/
def narrowSpread : Intent :=
  { strategyId := .creditVertical, underlying := .btc, bucket := .d2, requestedLots := 1
    rationale := "credit_vertical_bull_put"
    legs :=
      [{ symbol := "P-BTC-95960-190526", side := .buy, optionType := .put, strike := 95960
         expiry := ⟨0⟩ },
       { symbol := "P-BTC-96000-190526", side := .sell, optionType := .put, strike := 96000
         expiry := ⟨0⟩ }] }

/-- Its legs at 990 and at 1000, a credit of a quarter of the width. -/
def narrowChain : ChainCache :=
  (ChainCache.empty.upsertQuote "P-BTC-95960-190526" { markPrice := some 990 }).upsertQuote
    "P-BTC-96000-190526" { markPrice := some 1000 }

/-- The trade the dry executor opens on it, at a slippage for both legs. -/
def narrowTrade (draw : ℚ) : Except PyError (Trade × List Leg) :=
  persistEntryAndExecute (DryExecutor.submitEntry { chain := narrowChain } (fun _ _ => draw)) 1
    narrowSpread { decision := .approved, intent := narrowSpread, sizedLots := 1 } emptyMarket none
    none 30

theorem narrowTrade_opens (draw : ℚ) (columns : Option ℚ × Option ℚ)
    (h : (narrowTrade draw).toOption.map (fun rows => (rows.1.status, rows.1.premiumPaidInr,
      rows.1.creditReceivedInr)) = some (.«open», columns)) :
    ∃ rows, narrowTrade draw = .ok rows ∧ rows.1.status = .«open» ∧
      rows.1.premiumPaidInr = columns.1 ∧ rows.1.creditReceivedInr = columns.2 := by
  rcases Option.map_eq_some_iff.mp h with ⟨rows, hrows, hcolumns⟩
  rw [Prod.mk.injEq] at hcolumns
  exact ⟨rows, ok_of_toOption _ _ hrows, hcolumns.1, congrArg Prod.fst hcolumns.2,
    congrArg Prod.snd hcolumns.2⟩

/-- Filled without slippage, the spread is managed. -/
theorem opened_managed_iff_narrow : ∃ rows, narrowTrade 0 = .ok rows ∧
    ((entryColumn .creditVertical rows.1).isSome ∧
      ¬ Unmanaged (.creditVertical { config := shippedCreditVerticalConfig }) rows.1) := by
  rcases narrowTrade_opens 0 (none, some 10) (by decide) with ⟨rows, hrows, hopen, _, _⟩
  refine ⟨rows, hrows, ?_⟩
  refine (opened_managed_iff (.creditVertical { config := shippedCreditVerticalConfig }) _ _ _ _ _ _
    _ _ rows hrows hopen).mpr ?_
  change turnover .buy _ < turnover .sell _
  decide

/-- Filled with the simulator's slippage of one percent on either leg, it has cost 9.9 where it
    should have brought in 10. The trade is open with a premium and no credit, and no price closes
    it. -/
theorem slipped_spread_unmanaged : ∃ rows, narrowTrade 100 = .ok rows ∧
    rows.1.status = .«open» ∧ rows.1.premiumPaidInr = some (99 / 10) ∧
    entryColumn .creditVertical rows.1 = none ∧
      ∀ self, Unmanaged (.creditVertical self) rows.1 := by
  rcases narrowTrade_opens 100 (some (99 / 10), none) (by decide) with
    ⟨rows, hrows, hopen, hpremium, hcredit⟩
  exact ⟨rows, hrows, hopen, hpremium, hcredit, fun self =>
    unmanaged_of_none (.creditVertical self) rows.1 hcredit⟩

end OptionsBot
