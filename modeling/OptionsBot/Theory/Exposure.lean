import OptionsBot.Theory.ConcurrencyLimits
import OptionsBot.Theory.SizedLots

/-!
# The Risk of All Open Trades

Each trade is approved for an amount at risk, within a share of the account value: the
weight of its strategy times what the strategy may risk on a trade. No step adds up what
the open trades have at risk. It is bounded all the same, by the limit on the trades of a
strategy and by the weights, which sum to one: however the entries, exits, failures and
restarts follow each other, all open trades together were approved for no more than the
limit of one strategy times the largest share of the highest account value that the gate
has seen.

A run carries along what each trade was approved for, and that account value. The gate is
the one that rounds nothing.

## Main definitions

* `EngineState.gateRisk`: What a loop over the intents approves.
* `RiskDesk`, `RiskDesk.step`: The engine with the amounts it has approved.
* `openRisk`: The amounts of the open trades.
* `SteadyFiles`: Entries come with a tick, and the configuration stays.
* `AppConfig.share`: The part of the account value that a trade of a strategy may risk.

## Theorems

* `approved_share`: An approved amount is within the share.
* `riskStep_within`: Every event keeps the amounts within the shares.
* `openRisk_le`: The amounts add up to the limit times the shares.
* `share_sum_le`: The shares of all strategies.
* `exposure_bounded`: The bound over all runs.
-/

namespace OptionsBot

-- The sample run below computes with rationals.
attribute [local semireducible] Rat.add Rat.sub Rat.mul Rat.inv

/-- What a loop over the intents approves, by the id of the trade it opens. -/
def EngineState.gateRisk (t : EntryTick) (book : Option PortfolioGreeks) (s : EngineState)
    (accounting : TradeAccountingSnapshot) (approved : Nat → ℚ) :
    List EntryAttempt → (Nat → ℚ)
  | [] => approved
  | a :: rest =>
    match s.risk.gate a.intent (gateInput t book accounting a) with
    | .error _ => approved
    | .ok sizing =>
      if sizing.approved then
        let opened := openTrade a.outcome s.nextTradeId a.intent sizing t.market
          (some t.market.quoteFor) (some a.chain)
        let entered := { s with trades := s.trades ++ opened.rows }
        let noted := Function.update approved s.nextTradeId sizing.riskInr
        if opened.raised then noted
        else gateRisk t book entered (accountingSnapshot entered.trades) noted rest
      else gateRisk t book s accounting approved rest

/-- The engine, what each trade was approved for, and the highest account value at which the
    gate was called. -/
structure RiskDesk where
  engine : EngineState
  approved : Nat → ℚ := fun _ => 0
  highest : ℚ := 0

namespace RiskDesk

def step (x : RiskDesk) (e : LimitEvent) : RiskDesk :=
  match e with
  | .tick t =>
    let exited := x.engine.exitAll t.exits
    { engine := x.engine.limitStep e
      approved := EngineState.gateRisk t
        (exited.portfolioBook t (loadOpenTrades x.engine.trades)) exited
        (accountingSnapshot exited.trades) x.approved t.attempts
      highest := max x.highest exited.nav.navNow }
  | _ => { x with engine := x.engine.limitStep e }

end RiskDesk

/-- The amounts that the open trades were approved for. -/
def openRisk (approved : Nat → ℚ) (trades : List (Trade × List Leg)) : ℚ :=
  ((trades.filter (fun row => row.1.status = .«open»)).map (fun row => approved row.1.id)).sum

/-- Entries come with a tick, and a restart finds the configuration files as they were. -/
def SteadyFiles (x : RiskDesk) : LimitEvent → Prop
  | .other (.other (.entry _ _ _ _)) => False
  | .other (.other (.restart app)) => app = x.engine.app
  | _ => True

/-- The part of the account value that a trade of a strategy may risk. -/
def AppConfig.share (app : AppConfig) (id : StrategyId) : ℚ :=
  match app.strategyById id with
  | none => 0
  | some c => c.base.riskWeight * c.base.riskPerTradePct

/-- Every open trade was approved for no more than its strategy's share. -/
def RiskWithin (share : StrategyId → ℚ) (highest : ℚ) (approved : Nat → ℚ)
    (trades : List (Trade × List Leg)) : Prop :=
  ∀ row ∈ trades, row.1.status = .«open» → approved row.1.id ≤ highest * share row.1.strategyId

section Shares

variable (app : AppConfig)

theorem share_nonneg (id : StrategyId) : 0 ≤ app.share id := by
  unfold AppConfig.share
  split
  · exact le_rfl
  · next c _ =>
    exact mul_nonneg c.base.weight_bounds.1.le c.base.perTrade_bounds.1.le

/-- The weight that a list of strategies gives a strategy. -/
def weightIn (strategies : List StrategyConfig) (id : StrategyId) : ℚ :=
  ((strategies.find? (fun s => s.id = id)).map (fun s => s.base.riskWeight)).getD 0

theorem weightIn_nonneg (strategies : List StrategyConfig) (id : StrategyId) :
    0 ≤ weightIn strategies id := by
  unfold weightIn
  cases strategies.find? (fun s => s.id = id) with
  | none => exact le_rfl
  | some s => exact s.base.weight_bounds.1.le

theorem weightIn_cons (c : StrategyConfig) (rest : List StrategyConfig) (id : StrategyId) :
    weightIn (c :: rest) id =
      if c.id = id then c.base.riskWeight else weightIn rest id := by
  unfold weightIn
  rw [List.find?_cons]
  by_cases hid : c.id = id
  · simp only [hid, decide_true, Option.map_some, Option.getD_some, if_true]
  · simp only [hid, decide_false, if_false]

/-- The weights of the three strategies are among those of the list. -/
theorem weightIn_sum_le (strategies : List StrategyConfig) :
    weightIn strategies .directional + weightIn strategies .creditVertical +
        weightIn strategies .longStraddle ≤
      (strategies.map (fun s => s.base.riskWeight)).sum := by
  induction strategies with
  | nil => exact le_of_eq (by simp [weightIn])
  | cons c rest ih =>
      have h1 := weightIn_nonneg rest .directional
      have h2 := weightIn_nonneg rest .creditVertical
      have h3 := weightIn_nonneg rest .longStraddle
      rw [weightIn_cons, weightIn_cons, weightIn_cons, List.map_cons, List.sum_cons]
      -- The first entry is the weight of one of the three.
      cases c.id <;> simp only [reduceCtorEq, if_true, if_false] <;> linarith

/-- A share is at most the weight times the largest part that a trade may risk. -/
theorem share_le (p : ℚ) (hp : ∀ c ∈ app.strategies, c.base.riskPerTradePct ≤ p)
    (id : StrategyId) : app.share id ≤ weightIn app.strategies id * p := by
  unfold AppConfig.share AppConfig.strategyById weightIn
  cases hfind : app.strategies.find? (fun s => s.id = id) with
  | none => simp
  | some c =>
      exact mul_le_mul_of_nonneg_left (hp c (List.mem_of_find?_eq_some hfind))
        c.base.weight_bounds.1.le

/-- The shares of all strategies add up to no more than the largest part of a trade, since the
    weights add up to one. -/
theorem share_sum_le (p : ℚ) (hp0 : 0 ≤ p)
    (hp : ∀ c ∈ app.strategies, c.base.riskPerTradePct ≤ p) :
    app.share .directional + app.share .creditVertical + app.share .longStraddle ≤
      (1 + 1 / 1000000) * p := by
  have h1 := share_le app p hp .directional
  have h2 := share_le app p hp .creditVertical
  have h3 := share_le app p hp .longStraddle
  have hsum := mul_le_mul_of_nonneg_right
    ((weightIn_sum_le app.strategies).trans app.weights_sum.2) hp0
  linarith

end Shares

/-- An approved amount is within the share of the account value. -/
theorem approved_share (s : EngineState) (intent : Intent) (input : GateInput)
    (sizing : SizingResult) (hgate : s.risk.gate intent input = .ok sizing)
    (happroved : sizing.approved = true) :
    sizing.riskInr ≤ s.nav.navNow * s.app.share intent.strategyId := by
  rcases s.risk.gate_approved intent input sizing hgate happroved with
    ⟨-, -, strategy, hstrategy, hsized⟩
  have hright := s.risk.sizeIntent_rounded id intent strategy.base input
  rw [← hsized] at hright
  rcases hright with ⟨hlots, -⟩
  rcases hlots (of_decide_eq_true happroved) with ⟨perLot, -, hpos, hrisk, ⟨-, hbounds, -⟩, -⟩
  rcases hbounds with ⟨-, -, hbudget⟩
  -- Nothing is rounded here, so the lots that the budget pays for are within it.
  rw [id_eq, le_div_iff₀ hpos] at hbudget
  rw [id_eq, id_eq] at hrisk
  have hshare : s.app.share intent.strategyId =
      strategy.base.riskWeight * strategy.base.riskPerTradePct := by
    have hfind : s.app.strategyById intent.strategyId = some strategy := hstrategy
    rw [AppConfig.share, hfind]
  rw [hrisk, hshare, ← mul_assoc]
  exact hbudget.trans (s.risk.tradeRiskBudgetInr_le strategy.base input.usdInrRate id).1

section Gate

variable (t : EntryTick) (openRows : List (Trade × List Leg)) (book : Option PortfolioGreeks)

/-- What every approved entry keeps, with the amount it notes, the loop over the intents keeps. -/
theorem gateRisk_induct (P : EngineState → (Nat → ℚ) → Prop)
    (hentry : ∀ (s : EngineState) (approved : Nat → ℚ) (a : EntryAttempt) (sizing : SizingResult),
      P s approved →
      s.risk.gate a.intent
        (EngineState.gateInput t book (accountingSnapshot s.trades) a) = .ok sizing →
      sizing.approved = true →
      P { s with trades := s.trades ++ (openTrade a.outcome s.nextTradeId a.intent sizing
          t.market (some t.market.quoteFor) (some a.chain)).rows }
        (Function.update approved s.nextTradeId sizing.riskInr))
    (attempts : List EntryAttempt) (s : EngineState) (approved : Nat → ℚ) (hs : P s approved) :
    P (EngineState.gateIntents t openRows book s (accountingSnapshot s.trades) attempts).1
      (EngineState.gateRisk t book s (accountingSnapshot s.trades) approved attempts) := by
  induction attempts generalizing s approved with
  | nil => exact hs
  | cons a rest ih =>
      simp only [EngineState.gateIntents, EngineState.gateRisk]
      rcases hgate : s.risk.gate a.intent
        (EngineState.gateInput t book (accountingSnapshot s.trades) a) with e | sizing
      · exact hs
      · by_cases happroved : sizing.approved = true
        · have hentered := hentry s approved a sizing hs hgate happroved
          simp only [happroved, if_true]
          split_ifs
          · exact hentered
          · exact ih _ _ hentered
        · simp only [happroved, Bool.false_eq_true, if_false]
          exact ih s approved hs

/-- An approved entry keeps the amounts within the shares. -/
theorem approved_within (share : StrategyId → ℚ) (highest : ℚ) (s : EngineState)
    (approved : Nat → ℚ) (a : EntryAttempt) (sizing : SizingResult)
    (hwithin : RiskWithin share highest approved s.trades)
    (hrisk : sizing.riskInr ≤ highest * share a.intent.strategyId) :
    RiskWithin share highest (Function.update approved s.nextTradeId sizing.riskInr)
      (s.trades ++ (openTrade a.outcome s.nextTradeId a.intent sizing t.market
        (some t.market.quoteFor) (some a.chain)).rows) := by
  intro row hrow hopen
  rcases List.mem_append.mp hrow with hold | hnew
  · -- The id of the entry is past every id there is.
    rw [Function.update_of_ne (EngineState.lt_nextTradeId row hold).ne]
    exact hwithin row hold hopen
  · rcases openTrade_row s.nextTradeId a.intent sizing t.market (some t.market.quoteFor)
      (some a.chain) a.outcome with hnone | ⟨entered, hone, hid, hstrategy⟩
    · rw [hnone] at hnew
      cases hnew
    · rw [hone, List.mem_singleton] at hnew
      rw [hnew, hid, hstrategy, Function.update_self]
      exact hrisk

end Gate

/-- What holds of the desk along a run under a configuration. -/
structure RiskDesk.Kept (app : AppConfig) (x : RiskDesk) : Prop where
  files : x.engine.app = app
  limited : x.engine.Limited
  nonneg : 0 ≤ x.highest
  within : RiskWithin app.share x.highest x.approved x.engine.trades

/-- A higher account value leaves the amounts within the shares. -/
theorem RiskWithin.mono (share : StrategyId → ℚ) (hshare : ∀ id, 0 ≤ share id) (low high : ℚ)
    (hle : low ≤ high) (approved : Nat → ℚ) (trades : List (Trade × List Leg))
    (h : RiskWithin share low approved trades) : RiskWithin share high approved trades :=
  fun row hrow hopen => (h row hrow hopen).trans (mul_le_mul_of_nonneg_right hle (hshare _))

/-- Where every open trade was open before, the amounts stay within the shares. -/
theorem RiskWithin.of_subset (share : StrategyId → ℚ) (highest : ℚ) (approved : Nat → ℚ)
    (trades trades' : List (Trade × List Leg)) (h : RiskWithin share highest approved trades)
    (hsub : ∀ row ∈ trades', row.1.status = .«open» → ∃ old ∈ trades, old.1.status = .«open» ∧
      old.1.id = row.1.id ∧ old.1.strategyId = row.1.strategyId) :
    RiskWithin share highest approved trades' := by
  intro row hrow hopen
  rcases hsub row hrow hopen with ⟨old, hold, hopen', hid, hstrategy⟩
  rw [← hid, ← hstrategy]
  exact h old hold hopen'

/-- A trade that is open after an exit was open before it. -/
theorem exit_open_old (s : EngineState) (execute : ExitRequest → ExitResult) (tradeId : Nat)
    (trigger : ExitTrigger) (row : Trade × List Leg)
    (hrow : row ∈ (s.exit execute tradeId trigger).trades) (hopen : row.1.status = .«open») :
    row ∈ s.trades := by
  rcases EngineState.exit_booked (s := s) execute tradeId trigger with
    hsame | ⟨old, hold, hid, _, _, _, ⟨_, hkept⟩ | ⟨_, hclosed⟩⟩
  · rwa [hsame] at hrow
  · rw [hkept] at hrow
    rcases Table.mem_upsert _ _ _ _ _ hrow with hmem | heq | ⟨_, _, _, heq⟩
    · exact hmem
    · rwa [heq]
    · rwa [heq]
  · rw [hclosed] at hrow
    rcases Table.mem_upsert _ _ _ _ _ hrow with hmem | heq | ⟨_, _, _, heq⟩
    · exact hmem
    -- The row that is written is closed.
    all_goals
      rw [heq] at hopen
      cases hopen

theorem exitAll_open_old (s : EngineState)
    (exits : List ((ExitRequest → ExitResult) × Nat × ExitTrigger)) (row : Trade × List Leg)
    (hrow : row ∈ (s.exitAll exits).trades) (hopen : row.1.status = .«open») : row ∈ s.trades :=
  EngineState.exitAll_induct (fun now => row ∈ now.trades → row ∈ s.trades)
    (fun now execute tradeId trigger ih hmem =>
      ih (exit_open_old now execute tradeId trigger row hmem hopen)) exits s id hrow

/-- A trade that is open after an event other than a tick was open before it. -/
theorem limitStep_open_old (s : EngineState) (e : LimitEvent) (he : ∀ t, e ≠ .tick t)
    (hentry : ∀ execute intent input market,
      e ≠ .other (.other (.entry execute intent input market)))
    (row : Trade × List Leg) (hrow : row ∈ (s.limitStep e).trades)
    (hopen : row.1.status = .«open») : ∃ old ∈ s.trades, old.1.status = .«open» ∧
      old.1.id = row.1.id ∧ old.1.strategyId = row.1.strategyId := by
  cases e with
  | tick t => exact absurd rfl (he t)
  | notes f =>
      rcases List.mem_map.mp hrow with ⟨old, hold, rfl⟩
      exact ⟨old, hold, hopen, rfl, rfl⟩
  | other e =>
      cases e with
      | exit outcome execute tradeId trigger =>
          cases outcome with
          | committed =>
              exact ⟨row, exit_open_old s execute tradeId trigger row hrow hopen, hopen, rfl, rfl⟩
          | raised => exact ⟨row, hrow, hopen, rfl, rfl⟩
          | missing => exact ⟨row, (List.mem_filter.mp hrow).1, hopen, rfl, rfl⟩
      | other e =>
          cases e with
          | exit execute tradeId trigger =>
              exact ⟨row, exit_open_old s execute tradeId trigger row hrow hopen, hopen, rfl, rfl⟩
          | entry execute intent input market => exact absurd rfl (hentry _ _ _ _)
          | _ =>
              refine ⟨row, ?_, hopen, rfl, rfl⟩
              rwa [EngineState.limitStep, EngineState.bookStep, EngineState.step_rows _ id] at hrow

/-- An event other than a tick keeps the configuration, where a restart finds it. -/
theorem limitStep_app (x : RiskDesk) (e : LimitEvent) (hg : SteadyFiles x e) :
    (x.engine.limitStep e).app = x.engine.app := by
  cases e with
  | tick t => exact x.engine.enterTick_app t
  | notes f => rfl
  | other e =>
      cases e with
      | exit outcome execute tradeId trigger =>
          have happ : (x.engine.exit execute tradeId trigger).app = x.engine.app := by
            rcases EngineState.exit_cases (s := x.engine) execute tradeId trigger with
              ⟨_, _, heq, _⟩
            rw [heq]
          cases outcome with
          | committed => exact happ
          | raised => rfl
          | missing => rfl
      | other e =>
          by_cases hrestart : ∃ app, e = .restart app
          · rcases hrestart with ⟨app, rfl⟩
            exact hg
          · exact EngineState.step_app e (fun app heq => hrestart ⟨app, heq⟩)

theorem keepsLimits_of_steadyFiles (x : RiskDesk) (e : LimitEvent) (hg : SteadyFiles x e) :
    KeepsLimits x.engine e := by
  cases e with
  | other e =>
      cases e with
      | other e =>
          cases e with
          | entry execute intent input market => exact hg.elim
          | restart app => exact Or.inl (congrArg (fun a => a.globalConfig.concurrency) hg)
          | _ => exact trivial
      | exit outcome execute tradeId trigger => exact trivial
  | _ => exact trivial

/-- Every event keeps the amounts within the shares. -/
theorem riskStep_within (app : AppConfig) (x : RiskDesk) (e : LimitEvent) (hg : SteadyFiles x e)
    (h : x.Kept app) : (x.step e).Kept app := by
  have hlimited := limitStep_limited x.engine e (keepsLimits_of_steadyFiles x e hg) h.limited
  have happ := (limitStep_app x e hg).trans h.files
  cases e with
  | tick t =>
      refine ⟨happ, hlimited, h.nonneg.trans (le_max_left _ _), ?_⟩
      let exited := x.engine.exitAll t.exits
      let high := max x.highest exited.nav.navNow
      -- The exits open nothing, and the account value is the same for all intents.
      refine (gateRisk_induct t (loadOpenTrades x.engine.trades) _
        (fun now approved => now.app = app ∧ now.nav = exited.nav ∧
          RiskWithin app.share high approved now.trades) ?_ t.attempts exited x.approved
        ⟨(x.engine.exitAll_app t.exits).trans h.files, rfl, ?_⟩).2.2
      · rintro now approved a sizing ⟨hfiles, hnav, hwithin⟩ hgate happroved
        refine ⟨hfiles, hnav, approved_within t app.share high now approved a sizing hwithin ?_⟩
        have hshare := approved_share now a.intent _ sizing hgate happroved
        rw [hfiles, hnav] at hshare
        exact hshare.trans (mul_le_mul_of_nonneg_right (le_max_right _ _) (share_nonneg app _))
      · exact (h.within.mono _ (share_nonneg app) _ high (le_max_left _ _) _ _).of_subset _ _ _ _ _
          (fun row hrow hopen =>
            ⟨row, exitAll_open_old x.engine t.exits row hrow hopen, hopen, rfl, rfl⟩)
  | notes f =>
      exact ⟨happ, hlimited, h.nonneg, h.within.of_subset _ _ _ _ _
        (limitStep_open_old x.engine _ (fun _ h => nomatch h) (fun _ _ _ _ h => nomatch h))⟩
  | other e =>
      refine ⟨happ, hlimited, h.nonneg, h.within.of_subset _ _ _ _ _
        (limitStep_open_old x.engine _ (fun _ h => nomatch h) (fun _ _ _ _ heq => ?_))⟩
      rw [heq] at hg
      exact hg

/-- The amounts of the open trades of some strategies, by how many of each there are. -/
theorem openRisk_le (limits : ConcurrencyConfig) (share : StrategyId → ℚ)
    (hshare : ∀ id, 0 ≤ share id) (highest : ℚ) (hhighest : 0 ≤ highest) (approved : Nat → ℚ)
    (trades : List (Trade × List Leg)) (hwithin : RiskWithin share highest approved trades)
    (hlimits : WithinLimits limits trades) :
    openRisk approved trades ≤ limits.maxPerStrategy *
      (highest * (share .directional + share .creditVertical + share .longStraddle)) := by
  have hcounted : openRisk approved trades ≤ highest *
      (openCount (fun id => id = .directional) trades * share .directional +
        openCount (fun id => id = .creditVertical) trades * share .creditVertical +
        openCount (fun id => id = .longStraddle) trades * share .longStraddle) := by
    clear hlimits
    induction trades with
    | nil => exact le_of_eq (by simp [openRisk, openCount])
    | cons row rest ih =>
        have hrest := ih (fun r hr => hwithin r (List.mem_cons_of_mem _ hr))
        have hrow := hwithin row List.mem_cons_self
        unfold openRisk openCount at hrest ⊢
        simp only [List.filter_cons, List.countP_cons]
        by_cases hopen : row.1.status = .«open»
        · have hrisk := hrow hopen
          simp only [hopen, decide_true, Bool.true_and, if_true, List.map_cons, List.sum_cons]
          -- An open trade counts for one strategy, its own.
          cases hid : row.1.strategyId <;> rw [hid] at hrisk <;>
            simp only [reduceCtorEq, decide_true, decide_false, if_true, if_false,
              Bool.false_eq_true, Nat.add_zero] <;> push_cast <;> linarith
        · simp only [hopen, decide_false, Bool.false_and, Bool.false_eq_true, if_false,
            Nat.add_zero]
          exact hrest
  have hcount : ∀ id, (openCount (fun other => other = id) trades : ℚ) * share id ≤
      limits.maxPerStrategy * share id := fun id =>
    mul_le_mul_of_nonneg_right (by exact_mod_cast hlimits.perStrategy id) (hshare id)
  have hsum := mul_le_mul_of_nonneg_left (add_le_add (add_le_add (hcount .directional)
    (hcount .creditVertical)) (hcount .longStraddle)) hhighest
  linarith

/-- In any run of ticks, exits, failures and restarts under one configuration, the open trades
    together were approved for no more than the limit of one strategy times the largest part that
    a trade may risk, of the highest account value the gate has seen. -/
theorem exposure_bounded (x y : RiskDesk) (hids : TradeIds x.engine.trades)
    (hnone : ∀ row ∈ x.engine.trades, row.1.status ≠ .«open») (hzero : x.highest = 0)
    (p : ℚ) (hp0 : 0 ≤ p) (hp : ∀ c ∈ x.engine.app.strategies, c.base.riskPerTradePct ≤ p)
    (hrun : Run RiskDesk.step SteadyFiles x y) :
    openRisk y.approved y.engine.trades ≤
      x.engine.app.globalConfig.concurrency.maxPerStrategy *
        (y.highest * ((1 + 1 / 1000000) * p)) := by
  have hcount : ∀ q, openCount q x.engine.trades = 0 := by
    intro q
    rw [openCount, List.countP_eq_zero]
    intro row hrow hboth
    exact hnone row hrow (of_decide_eq_true (Bool.and_eq_true_iff.mp hboth).1)
  have hstart : x.Kept x.engine.app := by
    refine ⟨rfl, ⟨hids, ?_, fun id => ?_⟩, hzero.ge, fun row hrow hopen => ?_⟩
    · rw [hcount]
      exact Nat.zero_le _
    · rw [hcount]
      exact Nat.zero_le _
    · exact absurd hopen (hnone row hrow)
  have hend := hrun.invariant (RiskDesk.Kept x.engine.app)
    (riskStep_within x.engine.app) hstart
  have hle := openRisk_le _ x.engine.app.share (share_nonneg _) y.highest hend.nonneg y.approved
    y.engine.trades hend.within hend.limited.within
  rw [hend.files] at hle
  have hshares := mul_le_mul_of_nonneg_left (share_sum_le x.engine.app p hp0 hp) hend.nonneg
  exact hle.trans (mul_le_mul_of_nonneg_left hshares (Nat.cast_nonneg _))

/-- A start without trades, with nothing approved. -/
def idleDesk : RiskDesk := { engine := emptyStart }

/-- A call whose entry is interrupted is open: its amount is within the bound of the shipped
    configuration. -/
theorem exposure_bounded_call :
    openRisk (idleDesk.step (.tick interruptedTick)).approved
        (idleDesk.step (.tick interruptedTick)).engine.trades = 340 ∧
      openRisk (idleDesk.step (.tick interruptedTick)).approved
          (idleDesk.step (.tick interruptedTick)).engine.trades ≤
        (shippedConfig.globalConfig.concurrency.maxPerStrategy : ℚ) *
          ((idleDesk.step (.tick interruptedTick)).highest * ((1 + 1 / 1000000) * (3 / 200))) :=
  ⟨by decide +kernel, exposure_bounded idleDesk (idleDesk.step (.tick interruptedTick)) (by decide)
    (fun row hrow => nomatch hrow) rfl (3 / 200) (by norm_num)
    (by decide +kernel) (Run.single idleDesk (LimitEvent.tick interruptedTick) trivial)⟩

end OptionsBot
