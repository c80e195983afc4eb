import OptionsBot.Core.EntryLoop
import OptionsBot.Theory.BookedNav
import OptionsBot.Theory.RiskBudget

/-!
# Limits on Open Trades

There are never more open trades than the limits of the configuration allow, in all and
for each strategy.

The gate does not look at the trades but at counts it is handed. The loop over the
intents keeps these true: they are taken before the first intent and again after every
entry, so when the gate approves, the trades themselves are below both limits, and one
more is within them. An entry that raises leaves its row open, and ends the loop before
the gate could be called with counts that lack it.

## Main definitions

* `openCount`: The open trades of some strategies.
* `WithinLimits`: The limits hold.
* `LimitEvent`, `EngineState.limitStep`: A tick, a change of notes, or anything else.
* `KeepsLimits`: What a run may consist of.

## Theorems

* `gateIntents_induct`: What every approved entry keeps, a loop over intents keeps.
* `approved_withinLimits`: An approved entry keeps the limits.
* `limitStep_limited`: So does every event.
* `run_withinLimits`: So does every run.
-/

namespace OptionsBot

/-- The open trades of the strategies that meet a condition. -/
def openCount (p : StrategyId → Bool) (trades : List (Trade × List Leg)) : Nat :=
  trades.countP (fun row => row.1.status = .«open» && p row.1.strategyId)

/-- No more trades are open than the limits allow. -/
structure WithinLimits (limits : ConcurrencyConfig) (trades : List (Trade × List Leg)) :
    Prop where
  total : openCount (fun _ => true) trades ≤ limits.maxTotal
  perStrategy : ∀ id, openCount (fun other => other = id) trades ≤ limits.maxPerStrategy

section OpenCount

variable (p : StrategyId → Bool) (trades : List (Trade × List Leg))

theorem openCount_append (more : List (Trade × List Leg)) :
    openCount p (trades ++ more) = openCount p trades + openCount p more := List.countP_append

/-- A row counts once at most, and not under a strategy that is none of the counted. -/
theorem openCount_single_le (row : Trade × List Leg) :
    openCount p [row] ≤ if p row.1.strategyId then 1 else 0 := by
  unfold openCount
  rw [List.countP_singleton]
  by_cases hp : p row.1.strategyId = true
  · rw [if_pos hp]
    split
    · exact le_rfl
    · exact Nat.zero_le 1
  · rw [if_neg hp, if_neg (fun hboth => hp (Bool.and_eq_true_iff.mp hboth).2)]

/-- Replacing a row by one that counts no more adds nothing. -/
theorem openCount_upsert_le (hids : TradeIds trades) (row row' : Trade × List Leg)
    (hrow : row ∈ trades) (hle : openCount p [row'] ≤ openCount p [row]) :
    openCount p (Table.upsert (fun r => r.1.id) row.1.id (fun _ => row') trades) ≤
      openCount p trades := by
  rcases Table.upsert_replaces (fun r : Trade × List Leg => r.1.id) (fun _ => row') trades hids
    row hrow with ⟨before, after, hrows, hupsert⟩
  have hsplit : ∀ r : Trade × List Leg, before ++ r :: after = before ++ [r] ++ after := by
    intro r
    rw [List.append_assoc, List.singleton_append]
  rw [hupsert, hrows, hsplit, hsplit]
  simp only [openCount_append]
  omega

/-- The counts the gate is handed are those of the trades. -/
theorem accountingSnapshot_openCount :
    (accountingSnapshot trades).openCountTotal = openCount (fun _ => true) trades ∧
      ∀ id, (accountingSnapshot trades).openCountByStrategy id =
        openCount (fun other => other = id) trades := by
  refine ⟨?_, fun id => ?_⟩
  · rw [accountingSnapshot_total]
    exact List.countP_congr (fun row _ => by rw [Bool.and_true])
  · rw [accountingSnapshot_strategy]
    exact List.countP_congr (fun row _ => by rw [Bool.decide_and])

end OpenCount

namespace EngineState

/-- An exit opens no trade. -/
theorem exit_openCount_le (s : EngineState) (hids : TradeIds s.trades)
    (execute : ExitRequest → ExitResult) (tradeId : Nat) (trigger : ExitTrigger)
    (p : StrategyId → Bool) :
    openCount p (s.exit execute tradeId trigger).trades ≤ openCount p s.trades := by
  rcases exit_booked (s := s) execute tradeId trigger with
    hsame | ⟨row, hrow, rfl, _, _, _, ⟨_, hkept⟩ | ⟨_, hclosed⟩⟩
  · rw [hsame]
  · rw [hkept]
    exact openCount_upsert_le p s.trades hids row row hrow le_rfl
  · rw [hclosed]
    refine openCount_upsert_le p s.trades hids row _ hrow ?_
    -- A closed row counts for nothing.
    exact Nat.zero_le _

end EngineState

/-- Fewer open trades of every kind stay within the limits. -/
theorem WithinLimits.of_le {limits : ConcurrencyConfig} {trades trades' : List (Trade × List Leg)}
    (h : WithinLimits limits trades) (hle : ∀ p, openCount p trades' ≤ openCount p trades) :
    WithinLimits limits trades' :=
  ⟨(hle _).trans h.total, fun id => (hle _).trans (h.perStrategy id)⟩

section GateLoop

variable (t : EntryTick) (openRows : List (Trade × List Leg)) (book : Option PortfolioGreeks)

/-- What every approved entry keeps, the loop over the intents keeps. Each intent is
    put to the gate with the true counts. -/
theorem gateIntents_induct (P : EngineState → Prop)
    (hentry : ∀ (s : EngineState) (a : EntryAttempt) (sizing : SizingResult), P s →
      s.risk.gate a.intent
        (EngineState.gateInput t book (accountingSnapshot s.trades) a) = .ok sizing →
      sizing.approved = true →
      P { s with trades := s.trades ++ (openTrade a.outcome s.nextTradeId a.intent sizing
        t.market (some t.market.quoteFor) (some a.chain)).rows })
    (attempts : List EntryAttempt) (s : EngineState) (hs : P s) :
    P (EngineState.gateIntents t openRows book s (accountingSnapshot s.trades) attempts).1 := by
  induction attempts generalizing s with
  | nil => exact hs
  | cons a rest ih =>
      simp only [EngineState.gateIntents]
      split
      · exact hs
      · next sizing hgate =>
        by_cases happroved : sizing.approved = true
        · have hentered := hentry s a sizing hs hgate happroved
          rw [if_pos happroved]
          split_ifs
          · exact hentered
          · exact ih _ hentered
        · rw [if_neg happroved]
          exact ih s hs

/-- An entry keeps the ids distinct: its id is past every id there is. -/
theorem openTrade_tradeIds (s : EngineState) (outcome : EntryOutcome) (intent : Intent)
    (sizing : SizingResult) (market : MarketState)
    (quoteFor : Option (String → Option QuoteSnapshot)) (chain : Option ChainCache)
    (hids : TradeIds s.trades) :
    TradeIds (s.trades ++
      (openTrade outcome s.nextTradeId intent sizing market quoteFor chain).rows) := by
  rcases openTrade_row s.nextTradeId intent sizing market quoteFor chain outcome with
    hnone | ⟨row, hrow, hid, _⟩
  · rw [hnone, List.append_nil]
    exact hids
  · rw [hrow, TradeIds, List.map_append, List.nodup_append']
    refine ⟨hids, List.nodup_singleton _, fun id hmem hnew => ?_⟩
    rcases List.mem_map.mp hmem with ⟨old, hold, rfl⟩
    rw [List.map_singleton, List.mem_singleton, hid] at hnew
    exact absurd hnew (EngineState.lt_nextTradeId old hold).ne

/-- An approved entry keeps the limits: the counts it was approved on were the true
    ones, and it adds one trade at most, of its own strategy. -/
theorem approved_withinLimits (s : EngineState) (a : EntryAttempt) (sizing : SizingResult)
    (hlimits : WithinLimits s.app.globalConfig.concurrency s.trades)
    (hgate : s.risk.gate a.intent
      (EngineState.gateInput t book (accountingSnapshot s.trades) a) = .ok sizing)
    (happroved : sizing.approved = true) :
    WithinLimits s.app.globalConfig.concurrency (s.trades ++
      (openTrade a.outcome s.nextTradeId a.intent sizing t.market (some t.market.quoteFor)
        (some a.chain)).rows) := by
  rcases s.risk.gate_counts a.intent _ sizing hgate happroved with ⟨htotal, hstrategy⟩
  rcases accountingSnapshot_openCount s.trades with ⟨hcount, hcountOf⟩
  have hlt : openCount (fun _ => true) s.trades < s.app.globalConfig.concurrency.maxTotal := by
    rw [← hcount]
    exact htotal
  have hltOf : openCount (fun other => other = a.intent.strategyId) s.trades <
      s.app.globalConfig.concurrency.maxPerStrategy := by
    rw [← hcountOf]
    exact hstrategy
  rcases openTrade_row s.nextTradeId a.intent sizing t.market (some t.market.quoteFor)
    (some a.chain) a.outcome with hnone | ⟨row, hrow, _, hrowStrategy⟩
  · rw [hnone, List.append_nil]
    exact hlimits
  · rw [hrow]
    refine ⟨?_, fun id => ?_⟩
    · have hone := openCount_single_le (fun _ => true) row
      rw [if_pos rfl] at hone
      rw [openCount_append]
      omega
    · have hone := openCount_single_le (fun other => other = id) row
      rw [openCount_append]
      by_cases hid : row.1.strategyId = id
      · -- The strategy of the entry was counted below its limit.
        rw [if_pos (decide_eq_true hid)] at hone
        rw [← hid, hrowStrategy] at hone ⊢
        omega
      · rw [if_neg (by rwa [decide_eq_true_eq])] at hone
        have hold := hlimits.perStrategy id
        omega

end GateLoop

/-- A tick, a change of the notes of trades, or anything else that happens to the
    engine. -/
inductive LimitEvent where
  | tick (t : EntryTick)
  | notes (f : Trade → Notes)
  | other (e : BookingEvent)

def EngineState.limitStep (s : EngineState) : LimitEvent → EngineState
  | .tick t => (s.enterTick t).1
  | .notes f => { s with
      trades := s.trades.map (fun row => ({ row.1 with notes := f row.1 }, row.2)) }
  | .other e => s.bookStep e

/-- Entries come with a tick, and a restart keeps the limits or finds a database within
    the new ones. -/
def KeepsLimits (s : EngineState) : LimitEvent → Prop
  | .other (.other (.entry _ _ _ _)) => False
  | .other (.other (.restart app)) =>
    app.globalConfig.concurrency = s.app.globalConfig.concurrency ∨
      WithinLimits app.globalConfig.concurrency s.trades
  | _ => True

/-- The limits hold, and the ids are distinct. -/
structure EngineState.Limited (s : EngineState) : Prop where
  ids : TradeIds s.trades
  within : WithinLimits s.app.globalConfig.concurrency s.trades

theorem EngineState.exitAll_app (s : EngineState)
    (exits : List ((ExitRequest → ExitResult) × Nat × ExitTrigger)) :
    (s.exitAll exits).app = s.app := by
  refine exitAll_induct (fun now => now.app = s.app) (fun now execute tradeId trigger happ => ?_)
    exits s rfl
  rcases exit_cases (s := now) execute tradeId trigger with ⟨_, _, heq, _⟩
  rw [heq]
  exact happ

/-- A tick does not change the configuration. -/
theorem EngineState.enterTick_app (s : EngineState) (t : EntryTick) :
    (s.enterTick t).1.app = s.app :=
  gateIntents_induct t (loadOpenTrades s.trades) _ (fun now => now.app = s.app)
    (fun _ _ _ happ _ _ => happ) t.attempts _ (s.exitAll_app t.exits)

namespace EngineState.Limited

variable {s : EngineState}

/-- An exit keeps the limits. -/
theorem exit (h : s.Limited) (execute : ExitRequest → ExitResult) (tradeId : Nat)
    (trigger : ExitTrigger) : (s.exit execute tradeId trigger).Limited := by
  refine ⟨exit_tradeIds s execute tradeId trigger h.ids, ?_⟩
  have happ : (s.exit execute tradeId trigger).app = s.app := by
    rcases EngineState.exit_cases (s := s) execute tradeId trigger with ⟨_, _, heq, _⟩
    rw [heq]
  rw [happ]
  exact h.within.of_le (s.exit_openCount_le h.ids execute tradeId trigger)

/-- So does the loop over the intents, in a tick. -/
theorem tick (h : s.Limited) (t : EntryTick) : (s.enterTick t).1.Limited := by
  refine gateIntents_induct t (loadOpenTrades s.trades) _ EngineState.Limited ?_ t.attempts _
    (EngineState.exitAll_induct _ (fun now execute tradeId trigger hnow =>
      hnow.exit execute tradeId trigger) t.exits s h)
  intro now a sizing hnow hgate happroved
  exact ⟨openTrade_tradeIds now a.outcome a.intent sizing t.market _ _ hnow.ids,
    approved_withinLimits t _ now a sizing hnow.within hgate happroved⟩

theorem notes (h : s.Limited) (f : Trade → Notes) : (s.limitStep (.notes f)).Limited := by
  refine ⟨?_, h.within.of_le (fun p => le_of_eq ?_)⟩
  · have hids := h.ids
    unfold TradeIds at hids ⊢
    rw [EngineState.limitStep, List.map_map]
    exact hids
  · rw [EngineState.limitStep, openCount, List.countP_map]
    rfl

end EngineState.Limited

/-- Every permitted event keeps the limits. -/
theorem limitStep_limited (s : EngineState) (e : LimitEvent) (hg : KeepsLimits s e)
    (h : s.Limited) : (s.limitStep e).Limited := by
  cases e with
  | tick t => exact h.tick t
  | notes f => exact h.notes f
  | other e =>
      refine ⟨bookStep_tradeIds s e h.ids, ?_⟩
      cases e with
      | exit outcome execute tradeId trigger =>
          cases outcome with
          | committed => exact (h.exit execute tradeId trigger).within
          | raised => exact h.within
          | missing =>
              exact h.within.of_le (fun p => List.Sublist.countP_le List.filter_sublist)
      | other e =>
          cases e with
          | exit execute tradeId trigger => exact (h.exit execute tradeId trigger).within
          | entry execute intent input market => exact hg.elim
          | restart app =>
              rcases hg with hsame | hwithin
              · simp only [EngineState.limitStep, EngineState.bookStep, EngineState.step, boot]
                rw [hsame]
                exact h.within
              · exact hwithin
          | _ =>
              simp only [EngineState.limitStep, EngineState.bookStep]
              rw [EngineState.step_rows _ id, EngineState.step_app _ (fun _ h => by cases h)]
              exact h.within

/-- From any database within the limits, every run of ticks, exits, failures and
    restarts stays within them. -/
theorem run_withinLimits (s t : EngineState) (hids : TradeIds s.trades)
    (hlimits : WithinLimits s.app.globalConfig.concurrency s.trades)
    (hrun : Run EngineState.limitStep KeepsLimits s t) :
    WithinLimits t.app.globalConfig.concurrency t.trades :=
  (hrun.invariant EngineState.Limited limitStep_limited ⟨hids, hlimits⟩).within

/-- A start without trades. -/
def emptyStart : EngineState := boot shippedConfig [] {} {} callMarket.now

/-- The same call at the gate twice: the first entry fails, the second raises after its
    row is written. -/
def interruptedTick : EntryTick :=
  { market := callMarket, bookChain := callChain
    attempts := [EntryOutcome.answered { success := false, tradeId := 1 } false, .interrupted].map
      (fun outcome => { intent := callIntent, chain := callChain
                        marks := callMarket.underlyingMarks, outcome := outcome }) }

/-- The tick, a restart, and the tick again. -/
def interruptedRun : List LimitEvent :=
  [.tick interruptedTick, .other (.other (.restart shippedConfig)), .tick interruptedTick]

theorem run_withinLimits_interrupted :
    openCount (fun _ => true) (interruptedRun.foldl EngineState.limitStep emptyStart).trades = 1 ∧
      WithinLimits
        (interruptedRun.foldl EngineState.limitStep emptyStart).app.globalConfig.concurrency
        (interruptedRun.foldl EngineState.limitStep emptyStart).trades := by
  refine ⟨by decide +kernel, ?_⟩
  refine run_withinLimits emptyStart (interruptedRun.foldl EngineState.limitStep emptyStart)
    (by decide) ⟨Nat.zero_le _, fun _ => Nat.zero_le _⟩ ?_
  have hrestart : KeepsLimits (emptyStart.limitStep (.tick interruptedTick))
      (.other (.other (.restart shippedConfig))) :=
    Or.inl (congrArg (fun app => app.globalConfig.concurrency)
      (emptyStart.enterTick_app interruptedTick)).symm
  exact Run.cons _ (LimitEvent.tick interruptedTick) _ trivial
    (Run.cons _ _ _ hrestart (Run.single _ (LimitEvent.tick interruptedTick) trivial))

end OptionsBot
