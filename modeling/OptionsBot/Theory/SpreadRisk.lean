import OptionsBot.Lib.Payoff
import OptionsBot.Theory.EntryTime

/-!
# The Risk of a Credit Spread

A credit spread sells one option and buys another of the same kind further out of
the money. What the two are worth at settlement differs by at most the distance
of the strikes, so the most the position can lose is that distance less the
credit, whatever the settlement price. The two amounts an intent carries are that
loss and that credit, for one lot in rupees.

## Main definitions

* `settledPnl`: What legs opened at the quoted mids bring per lot at settlement.
* `CreditVerticalStrategy.DefinedRisk`: What an intent is to be.

## Theorems

* `settledPnl_spread`: The value of a spread at settlement.
* `spread_payoff`: What a spread pays is within its width.
* `evaluate_definedRisk`: Every intent has a defined risk.
-/

namespace OptionsBot

/-- What an option is worth when it settles. -/
def OptionType.payoff : OptionType → ℚ → ℚ → ℚ
  | .call => Payoff.call
  | .put => Payoff.put

/-- What one lot of a leg, opened at the quoted mid, brings at settlement. -/
def settledLegPnl (market : MarketState) (settlement : ℚ) (leg : LegIntent) : Option ℚ :=
  match (market.chain.getQuote leg.symbol).bind QuoteSnapshot.mid,
      market.chain.getInstrument leg.symbol with
  | some mid, some inst =>
    some (leg.side.sign * (leg.optionType.payoff leg.strike settlement - mid) * inst.lotSize *
      market.usdInrRate)
  | _, _ => none

def settledPnl (market : MarketState) (legs : List LegIntent) (settlement : ℚ) : Option ℚ :=
  (legs.mapM (settledLegPnl market settlement)).map List.sum

/-- The quote of a symbol has a delta whose size is within a band. -/
def DeltaWithin (chain : ChainCache) (symbol : String) (lo hi : ℚ) : Prop :=
  ∃ quote delta, chain.getQuote symbol = some quote ∧ quote.delta = some delta ∧
    lo ≤ |delta| ∧ |delta| ≤ hi

namespace CreditVerticalStrategy

variable (self : CreditVerticalStrategy)

/-- An intent buys one leg and sells another of the same kind and expiry, nearer
    the money, both by their deltas. Its targets are positive and add up to the
    distance of the strikes, and no settlement loses more than the one says. -/
structure DefinedRisk (market : MarketState) (lot : ℚ) (intent : Intent)
    (bought sold : LegIntent) : Prop where
  legs : intent.legs.Perm [bought, sold]
  sides : bought.side = .buy ∧ sold.side = .sell
  kind : bought.optionType = sold.optionType
  expiry : bought.expiry = sold.expiry
  furtherOut : match sold.optionType with
    | .put => bought.strike < sold.strike
    | .call => sold.strike < bought.strike
  soldDelta : DeltaWithin market.chain sold.symbol self.config.spread.shortDeltaMin
    self.config.spread.shortDeltaMax
  boughtDelta : DeltaWithin market.chain bought.symbol self.config.spread.longDeltaMin
    self.config.spread.longDeltaMax
  targets : ∃ credit maxLoss, intent.targetCreditInr = some credit ∧
    intent.targetMaxLossInr = some maxLoss ∧ 0 < credit ∧ 0 < maxLoss ∧
    credit + maxLoss = |bought.strike - sold.strike| * lot * market.usdInrRate ∧
    ∀ settlement, 0 ≤ settlement → ∃ pnl,
      settledPnl market intent.legs settlement = some pnl ∧ -pnl ≤ maxLoss

/-- What a proper spread pays is within its width. -/
theorem spread_payoff (optionType : OptionType) (short long : StrikeSelection) (settlement : ℚ)
    (h : 0 < spreadWidth optionType short long) :
    optionType.payoff short.instrument.strike settlement -
        optionType.payoff long.instrument.strike settlement ≤
      spreadWidth optionType short long := by
  cases optionType with
  | put =>
      rw [spreadWidth, sub_pos] at h
      exact (Payoff.put_vertical _ _ settlement h.le).2
  | call =>
      rw [spreadWidth, sub_pos] at h
      exact (Payoff.call_vertical _ _ settlement h.le).2

theorem settledLegPnl_legFor (market : MarketState) (sel : StrikeSelection) (side : Side)
    (optionType : OptionType) (settlement mid : ℚ)
    (hquote : market.chain.getQuote sel.instrument.symbol = some sel.quote)
    (hmid : sel.quote.mid = some mid) (hin : sel.instrument ∈ market.chain.instruments) :
    settledLegPnl market settlement (legFor sel side optionType) =
      some (side.sign * (optionType.payoff sel.instrument.strike settlement - mid) *
        sel.instrument.lotSize * market.usdInrRate) := by
  have hinst : market.chain.getInstrument sel.instrument.symbol = some sel.instrument :=
    Table.lookup_of_mem InstrumentRecord.symbol _ market.chain.distinct _ hin
  unfold settledLegPnl legFor
  simp only [hquote, Option.bind_some, hmid, hinst]

/-- A spread brings its credit less what it pays at settlement. -/
theorem settledPnl_spread (market : MarketState) (optionType : OptionType)
    (short long : StrikeSelection) (settlement shortMid longMid : ℚ)
    (hshortQuote : market.chain.getQuote short.instrument.symbol = some short.quote)
    (hlongQuote : market.chain.getQuote long.instrument.symbol = some long.quote)
    (hshort : short.quote.mid = some shortMid) (hlong : long.quote.mid = some longMid)
    (hshortIn : short.instrument ∈ market.chain.instruments)
    (hlongIn : long.instrument ∈ market.chain.instruments)
    (hlot : long.instrument.lotSize = short.instrument.lotSize) :
    settledPnl market (spreadLegs optionType short long) settlement =
      some ((shortMid - longMid - (optionType.payoff short.instrument.strike settlement -
        optionType.payoff long.instrument.strike settlement)) * short.instrument.lotSize *
        market.usdInrRate) := by
  have hs := settledLegPnl_legFor market short .sell optionType settlement shortMid hshortQuote
    hshort hshortIn
  have hl := settledLegPnl_legFor market long .buy optionType settlement longMid hlongQuote
    hlong hlongIn
  unfold settledPnl spreadLegs
  cases optionType with
  | put =>
      simp only [List.mapM_cons, List.mapM_nil, hl, hs, Option.bind_eq_bind, Option.bind_some,
        Option.pure_def, Option.map_some, List.sum_cons, List.sum_nil, Side.sign, hlot]
      congr 1
      ring
  | call =>
      simp only [List.mapM_cons, List.mapM_nil, hl, hs, Option.bind_eq_bind, Option.bind_some,
        Option.pure_def, Option.map_some, List.sum_cons, List.sum_nil, Side.sign, hlot]
      congr 1
      ring

/-- The size of the width is that of the distance of the strikes. -/
theorem spreadWidth_eq (optionType : OptionType) (short long : StrikeSelection)
    (h : 0 < spreadWidth optionType short long) :
    spreadWidth optionType short long = |long.instrument.strike - short.instrument.strike| := by
  cases optionType with
  | put =>
      rw [abs_sub_comm]
      exact (abs_of_pos h).symm
  | call => exact (abs_of_pos h).symm

theorem enter_definedRisk (market : MarketState) (lot : Underlying → ℚ) (underlying : Underlying)
    (optionType : OptionType) (features : Features) (intent : Intent)
    (hrate : 0 < market.usdInrRate)
    (hlot : ∀ inst ∈ market.chain.instruments,
      inst.lotSize = lot inst.underlying ∧ 0 < inst.lotSize)
    (h : (self.enter market underlying optionType features).intent = some intent) :
    ∃ bought sold, self.DefinedRisk market (lot intent.underlying) intent bought sold := by
  rcases self.enter_spread market underlying optionType features intent h with
    ⟨short, long, shortMid, longMid, hpick, hshort, hlong, hcredit, hloss, _, hu, hlegs, _,
      htargetCredit, htargetLoss⟩
  rcases self.pickStrikes_mem market underlying optionType short long hpick with ⟨hs, hl⟩
  rcases self.pickStrikes_quote market underlying optionType short long hpick with ⟨hsq, hlq⟩
  rcases self.pickStrikes_delta market underlying optionType short long hpick with
    ⟨⟨ds, hds, hdslo, hdshi⟩, dl, hdl, hdllo, hdlhi⟩
  have hexpiry : long.instrument.expiry = short.instrument.expiry :=
    (listed_expiry _ _ _ _ _ _ hl).trans (listed_expiry _ _ _ _ _ _ hs).symm
  rcases (market.chain.mem_instrumentsFor _ _ _ _ _).mp hs with ⟨hsin, _, hsu, _, _⟩
  rcases (market.chain.mem_instrumentsFor _ _ _ _ _).mp hl with ⟨hlin, _, hlu, _, _⟩
  rcases hlot short.instrument hsin with ⟨hslot, hpos⟩
  have hlots : long.instrument.lotSize = short.instrument.lotSize := by
    rw [(hlot long.instrument hlin).1, hslot, hlu, hsu]
  have hwidth : 0 < spreadWidth optionType short long := hcredit.trans hloss
  -- Both amounts are scaled by one lot's worth of rupees.
  have hscale : 0 < short.instrument.lotSize * market.usdInrRate := mul_pos hpos hrate
  rw [MarketState.premiumInr, if_neg (not_le.mpr hpos)] at htargetCredit htargetLoss
  refine ⟨legFor long .buy optionType, legFor short .sell optionType, ?_, ⟨rfl, rfl⟩, rfl,
    hexpiry, ?_, ⟨short.quote, ds, hsq, hds, hdslo, hdshi⟩,
    ⟨long.quote, dl, hlq, hdl, hdllo, hdlhi⟩,
    _, _, htargetCredit, htargetLoss, ?_, ?_, ?_, ?_⟩
  · -- A put spread lists the bought leg first, a call spread the sold one.
    rw [hlegs]
    cases optionType with
    | put => exact List.Perm.refl _
    | call => exact List.Perm.swap _ _ _
  · cases optionType with
    | put => exact sub_pos.mp hwidth
    | call => exact sub_pos.mp hwidth
  · rw [mul_assoc]
    exact mul_pos hcredit hscale
  · rw [mul_assoc]
    exact mul_pos (sub_pos.mpr hloss) hscale
  · have hdistance := spreadWidth_eq optionType short long hwidth
    simp only [legFor, hu, ← hdistance, ← hsu, ← hslot]
    ring
  · -- The spread pays its width at most, so the loss is the width less the credit.
    intro settlement _
    have hpay := spread_payoff optionType short long settlement hwidth
    rw [hlegs]
    refine ⟨_, settledPnl_spread market optionType short long settlement shortMid longMid hsq hlq
      hshort hlong hsin hlin hlots, ?_⟩
    rw [mul_assoc, mul_assoc, ← neg_mul, neg_sub]
    exact mul_le_mul_of_nonneg_right (sub_le_sub_right hpay _) hscale.le

/-- Every emitted intent is a spread of defined risk. -/
theorem evaluate_definedRisk (market : MarketState) (lot : Underlying → ℚ) (intents : List Intent)
    (decisions : List Decision) (hrate : 0 < market.usdInrRate)
    (hlot : ∀ inst ∈ market.chain.instruments,
      inst.lotSize = lot inst.underlying ∧ 0 < inst.lotSize)
    (heval : self.evaluate market = .ok (intents, decisions)) :
    ∀ intent ∈ intents, ∃ bought sold,
      self.DefinedRisk market (lot intent.underlying) intent bought sold := by
  intro intent hmem
  rcases mem_evaluateAll _ _ _ _ heval intent hmem with ⟨u, _, d, hd, hi⟩
  rcases self.evaluateOne_enter market u d intent hd hi with ⟨optionType, features, henter⟩
  exact self.enter_definedRisk market lot u optionType features intent hrate hlot henter

theorem evaluate_definedRisk_breakout : ∃ intents decisions intent,
    shippedCreditVertical.evaluate breakoutMarket = .ok (intents, decisions) ∧
      intent ∈ intents ∧ ∃ bought sold,
        shippedCreditVertical.DefinedRisk breakoutMarket (1 / 1000) intent bought sold := by
  rcases breakout_opens with ⟨intents, decisions, intent, _, heval, hmem, _⟩
  have hlot : ∀ inst ∈ breakoutMarket.chain.instruments,
      inst.lotSize = 1 / 1000 ∧ 0 < inst.lotSize := by decide +kernel
  exact ⟨intents, decisions, intent, heval, hmem, evaluate_definedRisk shippedCreditVertical
    breakoutMarket (fun _ => 1 / 1000) intents decisions (by decide) hlot heval intent hmem⟩

end CreditVerticalStrategy

end OptionsBot
