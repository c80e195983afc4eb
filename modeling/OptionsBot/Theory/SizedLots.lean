import OptionsBot.Lib.Double
import OptionsBot.Theory.RiskBudget

/-!
# The Sized Lots

The gate divides the budget of a trade by the risk of one lot, rounds down, holds
the result to what was asked for and to the strategy's cap, and hands it to the
desk, whose caps on vega and gamma may take lots away again but never the last.

Each of these passes is a bound on the number of lots, and each keeps exactly the
numbers that meet it. So what comes out is the greatest number that meets them
all, and a rejection means that already one lot is too much.

That is so of the bounds as they are worked out. The code works in doubles: the budget
is a rounded product, and the number of lots that it pays for is the whole part of a
rounded quotient. A lot that the budget just pays for can be lost that way, and one
that it does not quite pay for can be let through. How far this goes is bounded here by
a tiny part of the amounts.

## Main definitions

* `Intent.perLotRisk`: The amount one lot of an intent puts at risk.
* `RoundedBounds`, `RoundedGreeks`: The bounds as they are worked out.
* `LotBounds`: The lots asked for, the cap on lots and the budget, with some room.
* `GreekBounds`: The desk's limits on vega and gamma, with some room.
* `LotsRight`, `SizedRight`: What the gate's result says about the lots.

## Theorems

* `le_sized_iff`: The lots after all passes are those that meet every bound.
* `sizeIntent_rounded`: The size is the greatest by the bounds as they are worked out.
* `RoundedBounds.lotBounds`, `LotBounds.roundedBounds`: How far the rounding goes.
* `gate_sized`: An approved size fits, and no greater one does, up to the rounding.
* `sized_below_greatest`: Five lots where six fit.
-/

namespace OptionsBot

/-- The amount one lot of an intent puts at risk: the premium paid, or the most
    a spread can lose. -/
def Intent.perLotRisk (intent : Intent) : Option ℚ :=
  match intent.strategyId with
  | .creditVertical => intent.targetMaxLossInr
  | .directional | .longStraddle => intent.targetPremiumInr

namespace RiskManager

variable (self : RiskManager)

theorem sizingRule_perLot (intent : Intent) : (sizingRule intent).perLot = intent.perLotRisk := by
  unfold sizingRule Intent.perLotRisk
  cases intent.strategyId <;> rfl

section Rounded

variable (round : ℚ → ℚ)

/-- A number of lots is no more than asked for and than the strategy's cap, and the
    budget pays for it, as the gate works it out. -/
structure RoundedBounds (intent : Intent) (strategy : BaseStrategyConfig) (rate perLot : ℚ)
    (n : Int) : Prop where
  requested : n ≤ intent.requestedLots
  maxLots : n ≤ strategy.maxLotsCap
  budget : n ≤ round (self.tradeRiskBudgetInr strategy rate round / perLot)

/-- A number of lots is within the desk's limits, where the desk is on and has quotes, as
    its caps work it out. -/
def RoundedGreeks (intent : Intent) (input : GateInput) (n : Int) : Prop :=
  self.cfg.desk.enabled = true → ∀ quoteFor ∈ input.quoteFor,
    WithinGreek round self.cfg.desk.maxVegaPerTradeInr
      (perLotGreekInr round QuoteSnapshot.vega intent quoteFor input.chain input.usdInrRate) n ∧
    WithinGreek round self.cfg.desk.maxGammaPerTradeInr
      (perLotGreekInr round QuoteSnapshot.gamma intent quoteFor input.chain input.usdInrRate) n

/-- The numbers of lots that fit, where the desk never takes the last one. -/
def Fitting (intent : Intent) (strategy : BaseStrategyConfig) (input : GateInput) (perLot : ℚ) :
    Set Int :=
  {n | 1 ≤ n ∧ self.RoundedBounds round intent strategy input.usdInrRate perLot n ∧
    (n = 1 ∨ self.RoundedGreeks round intent input n)}

/-- The lots before the desk's caps are those within the first bounds. -/
theorem le_floored_iff (intent : Intent) (strategy : BaseStrategyConfig) (rate perLot : ℚ)
    (n : Int) :
    n ≤ min (min ⌊round (self.tradeRiskBudgetInr strategy rate round / perLot)⌋
        intent.requestedLots) strategy.maxLotsCap ↔
      self.RoundedBounds round intent strategy rate perLot n := by
  rw [le_min_iff, le_min_iff, Int.le_floor]
  constructor
  · rintro ⟨⟨hbudget, hrequested⟩, hmax⟩
    exact ⟨hrequested, hmax, hbudget⟩
  · rintro ⟨hrequested, hmax, hbudget⟩
    exact ⟨⟨hbudget, hrequested⟩, hmax⟩

theorem le_greekCapped_iff (intent : Intent) (sized n : Int) (input : GateInput) (hn : 1 ≤ n) :
    n ≤ (self.greekCapped intent sized input round).1 ↔
      n ≤ sized ∧ (n = 1 ∨ self.RoundedGreeks round intent input n) := by
  unfold greekCapped RoundedGreeks
  cases input.quoteFor with
  | none => simp only [Option.mem_def, reduceCtorEq, false_implies, implies_true, or_true, and_true]
  | some quoteFor =>
      simp only [Option.mem_def, Option.some.injEq, forall_eq']
      -- Without the desk the size stays, and its bounds say nothing.
      by_cases hdesk : self.cfg.desk.enabled = true
      · rw [if_pos hdesk, le_capLotsByGreeks_iff round _ _ _ _ _ _ _ _
          self.cfg.desk.vegaPerTrade_pos self.cfg.desk.gammaPerTrade_pos hn]
        simp only [hdesk, forall_const]
      · rw [if_neg hdesk]
        simp only [hdesk, Bool.false_eq_true, false_implies, or_true, and_true]

/-- The lots after all passes are those that meet every bound. -/
theorem le_sized_iff (intent : Intent) (strategy : BaseStrategyConfig) (input : GateInput)
    (perLot : ℚ) (n : Int) (hn : 1 ≤ n) :
    n ≤ (self.greekCapped intent
        (min (min ⌊round (self.tradeRiskBudgetInr strategy input.usdInrRate round / perLot)⌋
          intent.requestedLots) strategy.maxLotsCap) input round).1 ↔
      self.RoundedBounds round intent strategy input.usdInrRate perLot n ∧
        (n = 1 ∨ self.RoundedGreeks round intent input n) := by
  rw [self.le_greekCapped_iff round intent _ n input hn,
    self.le_floored_iff round intent strategy input.usdInrRate perLot n]

/-- An approved size is the greatest number of lots that fits, and its risk is that of its
    lots. A size is rejected because the intent has no amount at risk, or because no lot
    fits. All of this is as the gate works it out. -/
structure SizedBy (intent : Intent) (strategy : BaseStrategyConfig) (input : GateInput)
    (r : SizingResult) : Prop where
  approved : r.decision = .approved → ∃ perLot ∈ intent.perLotRisk, 0 < perLot ∧
    r.riskInr = round (round r.sizedLots * perLot) ∧
      IsGreatest (self.Fitting round intent strategy input perLot) r.sizedLots
  rejected : r.decision ≠ .approved →
    ((∀ perLot ∈ intent.perLotRisk, perLot ≤ 0) ∧
      r.notes = [("reason", .text (sizingRule intent).missingReason)]) ∨
    ∃ perLot ∈ intent.perLotRisk, 0 < perLot ∧
      ∀ n : Int, 1 ≤ n → ¬ self.RoundedBounds round intent strategy input.usdInrRate perLot n

theorem sizeIntent_rounded (intent : Intent) (strategy : BaseStrategyConfig) (input : GateInput) :
    self.SizedBy round intent strategy input
      (self.sizeIntent intent strategy input round) := by
  rcases sizingRule_rejects intent with ⟨hmissing, hnone⟩
  unfold sizeIntent
  simp only
  rw [sizingRule_perLot]
  -- The code rejects in three places, two of them before it sizes anything.
  cases hper : intent.perLotRisk with
  | none =>
      refine ⟨fun h => absurd h hmissing, fun _ => Or.inl ⟨?_, rfl⟩⟩
      rw [hper]
      intro p hp
      cases hp
  | some perLot =>
      simp only
      by_cases hle : perLot ≤ 0
      · rw [if_pos hle]
        refine ⟨fun h => absurd h hmissing, fun _ => Or.inl ⟨?_, rfl⟩⟩
        rw [hper]
        intro p hp
        cases hp
        exact hle
      · have hpos : 0 < perLot := not_le.mp hle
        rw [if_neg hle]
        split_ifs with hone
        · -- A fitting number would have survived the rounding.
          refine ⟨fun h => absurd h hnone, fun _ => Or.inr ⟨perLot, hper, hpos, ?_⟩⟩
          intro n hn hfits
          have hle := (self.le_floored_iff round intent strategy input.usdInrRate perLot n).mpr
            hfits
          exact absurd (hn.trans hle) (not_le.mpr hone)
        · refine ⟨fun _ => ⟨perLot, hper, hpos, rfl, ?_⟩, fun h => absurd rfl h⟩
          have hlots := (self.greekCapped_bounds round intent _ input (not_lt.mp hone)).1
          refine ⟨⟨hlots, ?_⟩, ?_⟩
          -- The bounds say the same of a number as being at most the size.
          · exact (self.le_sized_iff round intent strategy input perLot _ hlots).mp (le_refl _)
          · intro n hn
            exact (self.le_sized_iff round intent strategy input perLot n hn.1).mpr hn.2

end Rounded

section Doubles

variable (room : ℚ → ℚ)

/-- An amount is within the share of the account and the cap in dollars, with some room. -/
structure BudgetBounds (strategy : BaseStrategyConfig) (rate amount : ℚ) : Prop where
  share : amount ≤ self.nav.navNow * strategy.riskWeight * strategy.riskPerTradePct +
    room (self.nav.navNow * strategy.riskWeight * strategy.riskPerTradePct)
  premiumCap : ∀ cap ∈ strategy.tradePremiumCapUsd, amount ≤ cap * rate + room (cap * rate)

/-- A number of lots is no more than asked for and than the strategy's cap, and its risk
    is within the budget, with some room. -/
structure LotBounds (intent : Intent) (strategy : BaseStrategyConfig) (rate perLot : ℚ)
    (n : Int) : Prop where
  requested : n ≤ intent.requestedLots
  maxLots : n ≤ strategy.maxLotsCap
  budget : self.BudgetBounds room strategy rate (n * perLot)

/-- The vega and gamma of a number of lots, as the desk estimates them, are within its limits
    with some room, where the desk is on and has quotes. -/
def GreekBounds (intent : Intent) (input : GateInput) (n : Int) : Prop :=
  self.cfg.desk.enabled = true → ∀ quoteFor ∈ input.quoteFor,
    (∀ m ∈ self.cfg.desk.maxVegaPerTradeInr,
      n * perLotGreekInr Double.round QuoteSnapshot.vega intent quoteFor input.chain
        input.usdInrRate ≤ m + room m) ∧
    ∀ m ∈ self.cfg.desk.maxGammaPerTradeInr,
      n * perLotGreekInr Double.round QuoteSnapshot.gamma intent quoteFor input.chain
        input.usdInrRate ≤ m + room m

/-- The size of an approved intent. It is the greatest number of lots that fits as the gate
    works it out. It meets the bounds with the room that the rounding needs, and no greater
    number leaves that room. -/
structure LotsRight (intent : Intent) (strategy : BaseStrategyConfig) (input : GateInput)
    (perLot : ℚ) (r : SizingResult) : Prop where
  greatest : IsGreatest (self.Fitting Double.round intent strategy input perLot) r.sizedLots
  risk : r.riskInr = Double.round (Double.round r.sizedLots * perLot)
  budget : self.BudgetBounds Double.slack strategy input.usdInrRate r.riskInr
  lots : self.LotBounds Double.slack intent strategy input.usdInrRate perLot r.sizedLots
  greeks : r.sizedLots = 1 ∨ self.GreekBounds Double.slack intent input r.sizedLots
  maximal : ∀ n : Int, 1 ≤ n →
    self.LotBounds (fun x => -Double.slack x) intent strategy input.usdInrRate perLot n →
    (n = 1 ∨ self.GreekBounds (fun x => -Double.slack x) intent input n) → n ≤ r.sizedLots

/-- What the gate's decision on the size says. A size is rejected because the intent has no
    amount at risk, or because no lot fits. -/
structure SizedRight (intent : Intent) (strategy : BaseStrategyConfig) (input : GateInput)
    (r : SizingResult) : Prop where
  approved : r.decision = .approved → ∃ perLot ∈ intent.perLotRisk,
    self.LotsRight intent strategy input perLot r
  rejected : r.decision ≠ .approved →
    ((∀ perLot ∈ intent.perLotRisk, perLot ≤ 0) ∧
      r.notes = [("reason", .text (sizingRule intent).missingReason)]) ∨
    ∃ perLot ∈ intent.perLotRisk, 0 < perLot ∧ ∀ n : Int, 1 ≤ n →
      ¬ self.RoundedBounds Double.round intent strategy input.usdInrRate perLot n ∧
        ¬ self.LotBounds (fun x => -Double.slack x) intent strategy input.usdInrRate perLot n

/-- The rounded share of the account. -/
theorem share_near (strategy : BaseStrategyConfig) :
    Double.Near (self.nav.navNow * strategy.riskWeight * strategy.riskPerTradePct)
      (Double.round (Double.round (self.nav.navNow * strategy.riskWeight) *
        strategy.riskPerTradePct)) :=
  Double.near_round_mul _ _ strategy.perTrade_bounds.1.le strategy.perTrade_bounds.2.le

theorem tradeRiskBudgetInr_le (strategy : BaseStrategyConfig) (rate : ℚ) (round : ℚ → ℚ) :
    self.tradeRiskBudgetInr strategy rate round ≤
        round (round (self.nav.navNow * strategy.riskWeight) * strategy.riskPerTradePct) ∧
      ∀ cap ∈ strategy.tradePremiumCapUsd,
        self.tradeRiskBudgetInr strategy rate round ≤ round (cap * rate) := by
  unfold tradeRiskBudgetInr
  cases strategy.tradePremiumCapUsd with
  | none => exact ⟨le_refl _, fun cap hcap => nomatch hcap⟩
  | some c =>
      refine ⟨min_le_left _ _, fun cap hcap => ?_⟩
      rw [← Option.some.inj hcap]
      exact min_le_right _ _

variable {self} {intent : Intent} {strategy : BaseStrategyConfig} {rate perLot : ℚ} {n : Int}
  {input : GateInput}

/-- What the rounded budget pays for is within the budget, with the room for its rounding, and
    so is what the rounding of the risk itself adds. -/
theorem RoundedBounds.budgetBounds
    (h : self.RoundedBounds Double.round intent strategy rate perLot n) (hpos : 0 < perLot)
    (hn : 1 ≤ n) (amount : ℚ) (ha : amount ≤ n * perLot + n * perLot / 2 ^ 51 + Double.tiny) :
    self.BudgetBounds Double.slack strategy rate amount := by
  rcases h with ⟨-, -, hbudget⟩
  -- The quotient may have been rounded up to the lots, and each part of the budget as well.
  have hpaid := Double.mul_le_of_le_round_div _ perLot n hpos hn hbudget
  have hlots : 0 ≤ n * perLot := mul_nonneg (by exact_mod_cast (by omega : 0 ≤ n)) hpos.le
  rcases self.tradeRiskBudgetInr_le strategy rate Double.round with ⟨hshare, hcap⟩
  refine ⟨ha.trans ?_, fun cap hmem => ha.trans ?_⟩
  · exact (self.share_near strategy).le_add_slack hlots
      (hpaid.trans (Double.add_part_mono hshare))
  · exact (Double.near_round (cap * rate)).le_add_slack hlots
      (hpaid.trans (Double.add_part_mono (hcap cap hmem)))

theorem RoundedBounds.lotBounds
    (h : self.RoundedBounds Double.round intent strategy rate perLot n) (hpos : 0 < perLot)
    (hn : 1 ≤ n) : self.LotBounds Double.slack intent strategy rate perLot n := by
  have hlots : 0 ≤ n * perLot := mul_nonneg (by exact_mod_cast (by omega : 0 ≤ n)) hpos.le
  have hbudget := h.budgetBounds hpos hn (n * perLot) (by linarith [Double.tiny_pos])
  rcases h with ⟨hrequested, hmax, -⟩
  exact ⟨hrequested, hmax, hbudget⟩

/-- A number of lots whose risk leaves the room for the rounding is paid for. -/
theorem LotBounds.roundedBounds
    (h : self.LotBounds (fun x => -Double.slack x) intent strategy rate perLot n)
    (hpos : 0 < perLot) (hn : 1 ≤ n) :
    self.RoundedBounds Double.round intent strategy rate perLot n := by
  rcases h with ⟨hrequested, hmax, hshare, hcap⟩
  refine ⟨hrequested, hmax, Double.le_round_div_of_mul_le _ perLot n hpos hn ?_⟩
  have hpart := (self.share_near strategy).le_sub_slack hshare
  -- The budget is the one or the other.
  unfold tradeRiskBudgetInr
  cases hlimit : strategy.tradePremiumCapUsd with
  | none => exact hpart
  | some cap =>
      simp only
      rcases min_choice (Double.round (Double.round (self.nav.navNow * strategy.riskWeight) *
        strategy.riskPerTradePct)) (Double.round (cap * rate)) with hmin | hmin
      · rwa [hmin]
      · rw [hmin]
        exact (Double.near_round (cap * rate)).le_sub_slack (hcap cap hlimit)

theorem withinGreek_le (limit : Option ℚ) (hlimit : OptPos limit) (hn : 1 ≤ n)
    (h : WithinGreek Double.round limit perLot n) (m : ℚ) (hm : m ∈ limit) :
    n * perLot ≤ m + Double.slack m := by
  by_cases hpos : 0 < perLot
  · exact (Double.mul_le_of_le_round_div m perLot n hpos hn (h m hm hpos)).trans
      (add_le_add_right (Double.part_le_slack m) m)
  · -- A book without such a greek meets any positive limit.
    have hnone := mul_nonpos_of_nonneg_of_nonpos
      (by exact_mod_cast (by omega : 0 ≤ n) : (0 : ℚ) ≤ n) (not_lt.mp hpos)
    linarith [hlimit m hm, Double.part_le_slack m, div_nonneg (abs_nonneg m)
      (by positivity : (0 : ℚ) ≤ 2 ^ 52)]

theorem withinGreek_of_le (limit : Option ℚ) (hn : 1 ≤ n)
    (h : ∀ m ∈ limit, n * perLot ≤ m + -Double.slack m) :
    WithinGreek Double.round limit perLot n := by
  intro m hm hpos
  refine Double.le_round_div_of_mul_le m perLot n hpos hn ?_
  linarith [h m hm, Double.part_le_slack m]

theorem RoundedGreeks.greekBounds (hn : 1 ≤ n)
    (h : self.RoundedGreeks Double.round intent input n) :
    self.GreekBounds Double.slack intent input n := by
  intro hdesk quoteFor hquotes
  rcases h hdesk quoteFor hquotes with ⟨hvega, hgamma⟩
  exact ⟨withinGreek_le _ self.cfg.desk.vegaPerTrade_pos hn hvega,
    withinGreek_le _ self.cfg.desk.gammaPerTrade_pos hn hgamma⟩

theorem GreekBounds.roundedGreeks (hn : 1 ≤ n)
    (h : self.GreekBounds (fun x => -Double.slack x) intent input n) :
    self.RoundedGreeks Double.round intent input n := by
  intro hdesk quoteFor hquotes
  rcases h hdesk quoteFor hquotes with ⟨hvega, hgamma⟩
  exact ⟨withinGreek_of_le _ hn hvega, withinGreek_of_le _ hn hgamma⟩

/-- The size that the gate works out in doubles. -/
theorem sizeIntent_sized : self.SizedRight intent strategy input
    (self.sizeIntent intent strategy input Double.round) := by
  rcases self.sizeIntent_rounded Double.round intent strategy input with ⟨happroved, hrejected⟩
  refine ⟨fun h => ?_, fun h => (hrejected h).imp_right ?_⟩
  · -- What fits by the gate's arithmetic, and the two sides of what that says of the amounts.
    rcases happroved h with ⟨perLot, hper, hpos, hrisk, hgreatest⟩
    rcases hgreatest.1 with ⟨hn, hlots, hgreeks⟩
    refine ⟨perLot, hper, hgreatest, hrisk, ?_, hlots.lotBounds hpos hn,
      hgreeks.imp_right (fun hg => hg.greekBounds hn), ?_⟩
    · rw [hrisk]
      exact hlots.budgetBounds hpos hn _
        (Double.round_mul_le perLot _ hpos hn)
    · exact fun n hn hfits hdesk => hgreatest.2 ⟨hn,
        hfits.roundedBounds hpos hn,
        hdesk.imp_right (fun hg => hg.roundedGreeks hn)⟩
  · rintro ⟨perLot, hper, hpos, hnone⟩
    exact ⟨perLot, hper, hpos, fun n hn => ⟨hnone n hn, fun hfits =>
      hnone n hn (hfits.roundedBounds hpos hn)⟩⟩

end Doubles

/-- Whenever the gate decides on the size, the lots are the greatest that fit,
    or none fits, up to the rounding of its doubles. -/
theorem gate_sized (intent : Intent) (input : GateInput) (r : SizingResult)
    (h : self.gate intent input Double.round = .ok r) (hr : r.decision.onSize = true) :
    ∃ strategy, self.strategies intent.strategyId = some strategy ∧
      self.SizedRight intent strategy.base input r := by
  rcases self.gate_onSize intent input r h hr with ⟨_, _, _, strategy, hstrategy, hsized⟩
  rw [hsized]
  exact ⟨strategy, hstrategy, sizeIntent_sized⟩

/-- A strategy with another weight and another share. -/
def weighted (strategy : BaseStrategyConfig) (weight pct : ℚ)
    (hweight : 0 < weight ∧ weight ≤ 1) (hpct : 0 < pct ∧ pct < 1) : BaseStrategyConfig :=
  { strategy with
    riskWeight := weight, riskPerTradePct := pct
    weight_bounds := hweight, perTrade_bounds := hpct }

/-- The shipped directional strategy, its weight and its share as doubles, at an account value
    of 21912. -/
def doubleManager : RiskManager :=
  { cfg := shippedGlobalConfig
    nav := { navNow := 21912, navOpenToday := 21912, navOpenWeek := 21912, peakNav := 21912 }
    strategies := fun _ => some (.directional
      { shippedDirectionalConfig with
        toBaseStrategyConfig := weighted shippedDirectionalConfig.toBaseStrategyConfig
          (Double.round (3 / 5)) (Double.round (1 / 100)) (by decide +kernel)
          (by decide +kernel) }) }

/-- What one lot of a thousandth of a coin costs at 249 dollars and 88 rupees a dollar. -/
def doublePremium : ℚ := Double.round (Double.round (249 * Double.round (1 / 1000)) * 88)

def doubleIntent : Intent :=
  { callIntent with requestedLots := 20, targetPremiumInr := some doublePremium }

def doubleInput : GateInput := { callInput with usdInrRate := 88 }

theorem doubleManager_gate : ∃ r, doubleManager.gate doubleIntent doubleInput Double.round = .ok r ∧
    r.decision = .approved ∧ r.sizedLots = 5 := by
  have hgate : (doubleManager.gate doubleIntent doubleInput Double.round).map
      (fun r => (r.decision, r.sizedLots)) = .ok (.approved, 5) := by decide +kernel
  rcases h : doubleManager.gate doubleIntent doubleInput Double.round with e | r
  · rw [h] at hgate
    cases hgate
  · rw [h] at hgate
    simp only [Except.map, Except.ok.injEq, Prod.mk.injEq] at hgate
    exact ⟨r, rfl, hgate⟩

/-- Five lots are approved there, and their risk is no more than 132 rupees. -/
theorem gate_sized_call : ∃ r, doubleManager.gate doubleIntent doubleInput Double.round = .ok r ∧
    r.sizedLots = 5 ∧ r.riskInr ≤ 132 := by
  rcases doubleManager_gate with ⟨r, hgate, happroved, hlots⟩
  rcases gate_sized doubleManager doubleIntent doubleInput r hgate (by rw [happroved]; rfl) with
    ⟨strategy, hstrategy, hsized, -⟩
  rcases hsized happroved with ⟨perLot, -, -, -, ⟨hshare, -⟩, -, -, -⟩
  cases hstrategy
  exact ⟨r, hgate, hlots, hshare.trans (by decide +kernel)⟩

/-- The budget pays for six lots, exactly and in doubles, but the rounded quotient of the two is
    less than six, and five are approved. -/
theorem sized_below_greatest : ∃ r strategy,
    doubleManager.gate doubleIntent doubleInput Double.round = .ok r ∧ r.decision = .approved ∧
      doubleManager.strategies doubleIntent.strategyId = some strategy ∧
      doublePremium ∈ doubleIntent.perLotRisk ∧ r.sizedLots = 5 ∧
      doubleManager.LotBounds (fun _ => 0) doubleIntent strategy.base doubleInput.usdInrRate
        doublePremium 6 ∧
      doubleManager.GreekBounds (fun _ => 0) doubleIntent doubleInput 6 ∧
      Double.round (6 * doublePremium) ≤
        doubleManager.tradeRiskBudgetInr strategy.base doubleInput.usdInrRate Double.round := by
  rcases doubleManager_gate with ⟨r, hgate, happroved, hlots⟩
  -- Six lots at 21.912 are the 131.472 rupees of the budget.
  refine ⟨r, _, hgate, happroved, rfl, rfl, hlots, ⟨by decide, by decide, ?_, ?_⟩, ?_, ?_⟩
  · decide +kernel
  · decide +kernel
  · intro _ quoteFor hquotes
    cases hquotes
  · decide +kernel

end RiskManager

end OptionsBot
