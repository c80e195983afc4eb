import OptionsBot.Core.Caps
import OptionsBot.Core.Desk

/-!
# Risk Manager

The gate between a strategy's intent and its execution: the trading window, the
loss caps, the strategy's own switches, concurrency, the desk's gates, and then
the number of lots the risk budget allows.

The code sizes in doubles, where every product and every quotient is rounded before
it is used. How it is rounded is the last argument of the gate, and where none is
given the amounts are exact.

## Main definitions

* `RiskDecision`, `SizingResult`: The outcome of the gate.
* `RiskManager.tradeRiskBudgetInr`: The budget of one trade.
* `RiskManager.sizeIntent`: The lots and the risk of an intent.
* `RiskManager.gate`: All checks in order.

## Theorems

* `sizingRule_rejects`: The rejections of a size are none of them an approval.
* `sizeIntent_approved`: The lots and the risk of an approved intent.
* `gate_onSize`: What a decision taken on the size came through.
* `gate_approved`: An approved intent was sized, with the window open and the
  caps fine.
* `gate_counts`: It was counted below both limits.
-/

namespace OptionsBot

inductive RiskDecision where
  | approved
  | outsideTradingWindow
  | circuitBreaker
  | dailyCapTripped
  | weeklyCapTripped
  | strategyMaxConcurrent
  | globalMaxConcurrent
  | zeroLotsAfterFloor
  | premiumAboveRiskBudget
  | condorMaxLossAboveBudget
  | stranglePremiumAboveRiskBudget
  | strategyDisabled
  | strategyNotLiveEnabled
  | lowOpenInterest
  | missingGreeks
  | portfolioDeltaLimit
  | portfolioVegaLimit
  deriving DecidableEq, Repr

/-- The decisions taken on the size of an intent, after all other checks. -/
def RiskDecision.onSize : RiskDecision → Bool
  | .approved | .zeroLotsAfterFloor | .premiumAboveRiskBudget | .condorMaxLossAboveBudget
  | .stranglePremiumAboveRiskBudget => true
  | _ => false

structure SizingResult where
  decision : RiskDecision
  intent : Intent
  sizedLots : Int := 0
  riskInr : ℚ := 0
  notes : Features := []

def SizingResult.approved (r : SizingResult) : Bool := r.decision = .approved

/-- The open positions, as counted each tick. -/
structure TradeAccountingSnapshot where
  openCountTotal : Nat
  openCountByStrategy : StrategyId → Nat

structure RiskManager where
  cfg : GlobalConfig
  nav : NavTracker
  strategies : StrategyId → Option StrategyConfig
  requireLiveEnabled : Bool := false

/-- What the gate is called with besides the intent. -/
structure GateInput where
  nowUtc : DateTime
  accounting : TradeAccountingSnapshot
  portfolioGreeks : Option PortfolioGreeks := none
  quoteFor : Option (String → Option QuoteSnapshot) := none
  chain : Option ChainCache := none
  underlyingMarks : Option (Underlying → Option ℚ) := none
  usdInrRate : ℚ := 1

def capToDecision : CapStatus → RiskDecision
  | .ok => .approved
  | .dailyTripped => .dailyCapTripped
  | .weeklyTripped => .weeklyCapTripped
  | .circuitBreaker => .circuitBreaker

def DeskReason.decision : DeskReason → RiskDecision
  | .portfolioDeltaLimit => .portfolioDeltaLimit
  | .portfolioVegaLimit => .portfolioVegaLimit
  | .missingGreeks => .missingGreeks
  | .lowOpenInterest => .lowOpenInterest

namespace RiskManager

variable (self : RiskManager)

def window : TradingWindow := TradingWindow.ofConfig self.cfg.tradingWindow

def caps : DrawdownCaps := DrawdownCaps.ofConfig self.cfg.riskCaps

def tradeRiskBudgetInr (strategy : BaseStrategyConfig) (rate : ℚ) (round : ℚ → ℚ := id) : ℚ :=
  -- Multiplied from the left, and rounded each time.
  let budget := round (round (self.nav.navNow * strategy.riskWeight) * strategy.riskPerTradePct)
  match strategy.tradePremiumCapUsd with
  | none => budget
  | some cap => min budget (round (cap * rate))

def evaluateCaps : Except PyError LossCapResult := self.caps.evaluate self.nav

/-- How a strategy's intents are sized: the amount at risk per lot, the name it
    is noted under, and the rejections for a missing amount and for no lot. -/
structure SizingRule where
  perLot : Option ℚ
  note : String
  missingReason : String
  missing : RiskDecision
  noLots : RiskDecision

def sizingRule (intent : Intent) : SizingRule :=
  match intent.strategyId with
  | .directional =>
    { perLot := intent.targetPremiumInr, note := "per_lot", missingReason := "missing_premium",
      missing := .premiumAboveRiskBudget, noLots := .zeroLotsAfterFloor }
  | .creditVertical =>
    { perLot := intent.targetMaxLossInr, note := "per_lot_max_loss",
      missingReason := "missing_max_loss", missing := .condorMaxLossAboveBudget,
      noLots := .condorMaxLossAboveBudget }
  | .longStraddle =>
    { perLot := intent.targetPremiumInr, note := "per_lot_premium",
      missingReason := "missing_premium", missing := .stranglePremiumAboveRiskBudget,
      noLots := .stranglePremiumAboveRiskBudget }

/-- The lots the desk's greek caps leave, with their notes. -/
def greekCapped (intent : Intent) (sized : Int) (input : GateInput) (round : ℚ → ℚ := id) :
    Int × Features :=
  match input.quoteFor with
  | none => (sized, [])
  | some quoteFor =>
    if self.cfg.desk.enabled then
      capLotsByGreeks round intent sized quoteFor input.chain self.cfg.desk.maxVegaPerTradeInr
        self.cfg.desk.maxGammaPerTradeInr input.usdInrRate
    else (sized, [])

def sizeIntent (intent : Intent) (strategy : BaseStrategyConfig) (input : GateInput)
    (round : ℚ → ℚ := id) : SizingResult :=
  let budget := self.tradeRiskBudgetInr strategy input.usdInrRate round
  let rule := sizingRule intent
  match rule.perLot with
  | none =>
    { decision := rule.missing, intent := intent, notes := [("reason", .text rule.missingReason)] }
  | some perLot =>
    if perLot ≤ 0 then
      { decision := rule.missing, intent := intent,
        notes := [("reason", .text rule.missingReason)] }
    else
      let notes : Features :=
        [("risk_budget_inr", .num (some budget)), (rule.note, .num (some perLot))]
      -- Rounded down, then held to what was asked for and to the strategy's cap.
      let sized := min (min ⌊round (budget / perLot)⌋ intent.requestedLots) strategy.maxLotsCap
      -- The greek caps come after this test and never leave less than one lot.
      if sized < 1 then { decision := rule.noLots, intent := intent, notes := notes }
      else
        let capped := self.greekCapped intent sized input round
        { decision := .approved, intent := intent, sizedLots := capped.1,
          riskInr := round (round capped.1 * perLot), notes := notes.update capped.2 }

/-- The rejection of the desk's gates, if any. -/
def deskRejection (intent : Intent) (input : GateInput) :
    Except PyError (Option (RiskDecision × Features)) :=
  if self.cfg.desk.enabled then
    let portfolio : Except PyError (Option DeskReason × Features) :=
      match input.portfolioGreeks, input.underlyingMarks with
      | some greeks, some marks => self.cfg.desk.checkPortfolio greeks marks input.usdInrRate
      -- A caller without greeks or marks skips the portfolio check.
      | _, _ => .ok (none, [])
    match portfolio with
    | .error e => .error e
    | .ok (some reason, notes) => .ok (some (reason.decision, notes))
    | .ok (none, notes) =>
      match input.quoteFor with
      | none => .ok none
      | some quoteFor =>
        match self.cfg.desk.checkIntent intent quoteFor input.chain with
        | (some reason, more) => .ok (some (reason.decision, notes.update more))
        | (none, _) => .ok none
  else .ok none

/-- A rejection without notes. -/
def reject (decision : RiskDecision) (intent : Intent) : SizingResult :=
  { decision := decision, intent := intent }

def gate (intent : Intent) (input : GateInput) (round : ℚ → ℚ := id) :
    Except PyError SizingResult :=
  if !self.window.isOpen input.nowUtc then .ok (reject .outsideTradingWindow intent)
  else
    match self.evaluateCaps with
    | .error e => .error e
    | .ok cap =>
      -- A tripped cap is reported before the strategy's own switches are looked at.
      if capToDecision cap.status ≠ .approved then
        .ok { decision := capToDecision cap.status, intent := intent,
              notes := [("daily_pnl_pct", .num (some cap.dailyPnlPct)),
                ("weekly_pnl_pct", .num (some cap.weeklyPnlPct)),
                ("dd_pct", .num (some cap.drawdownFromPeakPct))] }
      else
        match self.strategies intent.strategyId with
        | none => .ok (reject .strategyDisabled intent)
        | some strategy =>
          if !strategy.base.enabled then .ok (reject .strategyDisabled intent)
          else if self.requireLiveEnabled ∧ !strategy.base.enabledLive then
            .ok (reject .strategyNotLiveEnabled intent)
          else if self.cfg.concurrency.maxTotal ≤ input.accounting.openCountTotal then
            .ok (reject .globalMaxConcurrent intent)
          else if self.cfg.concurrency.maxPerStrategy ≤
              input.accounting.openCountByStrategy intent.strategyId then
            .ok (reject .strategyMaxConcurrent intent)
          else
            match self.deskRejection intent input with
            | .error e => .error e
            | .ok (some (decision, notes)) =>
              .ok { decision := decision, intent := intent, notes := notes }
            | .ok none => .ok (self.sizeIntent intent strategy.base input round)

theorem sizingRule_rejects (intent : Intent) : (sizingRule intent).missing ≠ .approved ∧
    (sizingRule intent).noLots ≠ .approved := by
  unfold sizingRule
  cases intent.strategyId <;>
    exact ⟨fun h => RiskDecision.noConfusion h, fun h => RiskDecision.noConfusion h⟩

section Rounded

variable (round : ℚ → ℚ)

theorem greekCapped_bounds (intent : Intent) (sized : Int) (input : GateInput) (h : 1 ≤ sized) :
    1 ≤ (self.greekCapped intent sized input round).1 ∧
      (self.greekCapped intent sized input round).1 ≤ sized := by
  unfold greekCapped
  split
  · exact ⟨h, le_refl _⟩
  · split_ifs
    · exact capLotsByGreeks_bounds _ _ _ _ _ _ _ _ h
    · exact ⟨h, le_refl _⟩

variable {round}

/-- An approved intent has at least one lot, and its risk is the amount per lot
    of its sizing rule for each of them. -/
theorem sizeIntent_approved (intent : Intent) (strategy : BaseStrategyConfig) (input : GateInput)
    (h : (self.sizeIntent intent strategy input round).approved = true) :
    ∃ perLot, (sizingRule intent).perLot = some perLot ∧ 0 < perLot ∧
      1 ≤ (self.sizeIntent intent strategy input round).sizedLots ∧
      (self.sizeIntent intent strategy input round).riskInr =
        round (round (self.sizeIntent intent strategy input round).sizedLots * perLot) := by
  rcases sizingRule_rejects intent with ⟨hmissing, hnone⟩
  rw [SizingResult.approved, decide_eq_true_iff] at h
  unfold sizeIntent at h ⊢
  simp only at h ⊢
  cases hper : (sizingRule intent).perLot with
  | none =>
      simp only [hper] at h
      exact absurd h hmissing
  | some perLot =>
      simp only [hper] at h ⊢
      by_cases hle : perLot ≤ 0
      · rw [if_pos hle] at h
        exact absurd h hmissing
      · rw [if_neg hle] at h ⊢
        let budget := self.tradeRiskBudgetInr strategy input.usdInrRate round
        by_cases hone : min (min ⌊round (budget / perLot)⌋ intent.requestedLots)
            strategy.maxLotsCap < 1
        · rw [if_pos hone] at h
          exact absurd h hnone
        · rw [if_neg hone]
          exact ⟨perLot, rfl, not_le.mp hle,
            (self.greekCapped_bounds round intent _ input (not_lt.mp hone)).1, rfl⟩

/-- A gate that rejects before the sizing does so by another decision. -/
theorem reject_onSize (decision : RiskDecision) (intent : Intent) (notes : Features)
    (r : SizingResult) (hne : decision.onSize = false)
    (h : (.ok { decision := decision, intent := intent, notes := notes } :
      Except PyError SizingResult) = .ok r) (hr : r.decision.onSize = true) : False := by
  cases h
  rw [hne] at hr
  cases hr

theorem deskRejection_onSize (intent : Intent) (input : GateInput) (decision : RiskDecision)
    (notes : Features) (h : self.deskRejection intent input = .ok (some (decision, notes))) :
    decision.onSize = false := by
  have hreason : ∀ reason : DeskReason, reason.decision.onSize = false := by
    intro reason
    cases reason <;> rfl
  unfold deskRejection at h
  split_ifs at h
  · simp only at h
    split at h
    · cases h
    · cases h
      exact hreason _
    · split at h
      · cases h
      · split at h
        · cases h
          exact hreason _
        · cases h
  · cases h

/-- A decision taken on the size came through the open window, the caps and the
    limits of concurrency, and is the one of the sizing for the strategy. -/
theorem gate_onSize (intent : Intent) (input : GateInput) (r : SizingResult)
    (h : self.gate intent input round = .ok r) (hr : r.decision.onSize = true) :
    self.window.isOpen input.nowUtc = true ∧
      (∃ cap, self.evaluateCaps = .ok cap ∧ cap.status = .ok) ∧
      (input.accounting.openCountTotal < self.cfg.concurrency.maxTotal ∧
        input.accounting.openCountByStrategy intent.strategyId <
          self.cfg.concurrency.maxPerStrategy) ∧
      ∃ strategy, self.strategies intent.strategyId = some strategy ∧
        r = self.sizeIntent intent strategy.base input round := by
  have hcaps : ∀ status, capToDecision status ≠ .approved →
      (capToDecision status).onSize = false := by
    intro status hne
    cases status
    · exact absurd rfl hne
    all_goals rfl
  have hcapOk : ∀ status, capToDecision status = .approved → status = .ok := by
    intro status heq
    cases status
    · rfl
    all_goals cases heq
  unfold gate at h
  -- Each gate in turn: its rejection is none of the size.
  by_cases hopen : self.window.isOpen input.nowUtc = true
  · rw [hopen] at h
    simp only [Bool.not_true, Bool.false_eq_true, if_false] at h
    rcases hev : self.evaluateCaps with e | cap
    · simp only [hev, reduceCtorEq] at h
    · simp only [hev] at h
      by_cases hcap : capToDecision cap.status = .approved
      · rw [if_neg (not_not.mpr hcap)] at h
        rcases hs : self.strategies intent.strategyId with _ | strategy
        · simp only [hs] at h
          exact (reject_onSize _ _ _ _ rfl h hr).elim
        · simp only [hs] at h
          split_ifs at h with henabled hlive htotal hstrategy
          · exact (reject_onSize _ _ _ _ rfl h hr).elim
          · exact (reject_onSize _ _ _ _ rfl h hr).elim
          · exact (reject_onSize _ _ _ _ rfl h hr).elim
          · exact (reject_onSize _ _ _ _ rfl h hr).elim
          · refine ⟨hopen, ⟨cap, rfl, hcapOk _ hcap⟩,
              ⟨not_le.mp htotal, not_le.mp hstrategy⟩, strategy, rfl, ?_⟩
            split at h
            · cases h
            · next decision notes hrej =>
              exact (reject_onSize _ _ _ _
                (self.deskRejection_onSize intent input decision notes hrej) h hr).elim
            · cases h
              rfl
      · rw [if_pos hcap] at h
        exact (reject_onSize _ _ _ _ (hcaps _ hcap) h hr).elim
  · rw [Bool.not_eq_true] at hopen
    rw [hopen] at h
    simp only [Bool.not_false, if_true] at h
    exact (reject_onSize _ _ _ _ rfl h hr).elim

theorem approved_onSize (r : SizingResult) (h : r.approved = true) :
    r.decision.onSize = true := by
  rw [SizingResult.approved, decide_eq_true_iff] at h
  rw [h]
  rfl

/-- An approved intent came through the open window and the caps, and was sized
    for its strategy. -/
theorem gate_approved (intent : Intent) (input : GateInput) (r : SizingResult)
    (h : self.gate intent input round = .ok r) (ha : r.approved = true) :
    self.window.isOpen input.nowUtc = true ∧
      (∃ cap, self.evaluateCaps = .ok cap ∧ cap.status = .ok) ∧
      ∃ strategy, self.strategies intent.strategyId = some strategy ∧
        r = self.sizeIntent intent strategy.base input round := by
  rcases self.gate_onSize intent input r h (approved_onSize r ha) with ⟨hopen, hcap, _, hsized⟩
  exact ⟨hopen, hcap, hsized⟩

/-- An approved intent was counted below both limits of concurrency. -/
theorem gate_counts (intent : Intent) (input : GateInput) (r : SizingResult)
    (h : self.gate intent input round = .ok r) (ha : r.approved = true) :
    input.accounting.openCountTotal < self.cfg.concurrency.maxTotal ∧
      input.accounting.openCountByStrategy intent.strategyId <
        self.cfg.concurrency.maxPerStrategy := by
  rcases self.gate_onSize intent input r h (approved_onSize r ha) with ⟨_, _, hcounts, _⟩
  exact hcounts

end Rounded

end RiskManager

end OptionsBot
