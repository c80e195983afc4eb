import OptionsBot.Core.TradeModes
import OptionsBot.Theory.ConcurrencyLimits

/-!
# Trades Without Their Ids

The id of a trade names its row, and nothing decides on it. So the exits of a tick can be
taken on rows whose ids are wiped: they send the same, and leave the same rows up to the
ids. That makes two databases comparable that number their rows differently, as they do
when one has rows that the other lacks.

## Main definitions

* `TradeTrack.withoutId`, `ModeRow.withoutId`, `rowWithoutId`: A row with its ids wiped.

## Theorems

* `view_withoutId`, `step_withoutId`, `exitRequest_withoutId`: The view of a row, a step of
  the exit engine, and the request of an exit.
* `carryOut_withoutId`, `manageRow_withoutId`, `exits_withoutId`: A directive, a row, and
  the exits of a tick.
* `fromOpenTrades_withoutId`, `openCount_withoutId`: The greeks of the book, and the counts.
-/

namespace OptionsBot

def Trade.withoutId (trade : Trade) : Trade := { trade with id := 0 }

def Leg.withoutId (leg : Leg) : Leg := { leg with tradeId := 0 }

def PositionState.withoutId (position : PositionState) : PositionState :=
  { position with tradeId := 0 }

def PositionRuntime.withoutId (runtime : PositionRuntime) : PositionRuntime :=
  { runtime with position := runtime.position.withoutId }

def ExitDirective.withoutId (d : ExitDirective) : ExitDirective := { d with tradeId := 0 }

/-- The rows of a trade and its record, with the ids wiped. -/
def TradeTrack.withoutId (s : TradeTrack) : TradeTrack :=
  { trade := s.trade.withoutId
    legs := s.legs.map Leg.withoutId
    runtime := s.runtime.map PositionRuntime.withoutId }

def ModeRow.withoutId (row : ModeRow) : ModeRow := { row with track := row.track.withoutId }

/-- The rows of a trade with the ids wiped. -/
def rowWithoutId (row : Trade × List Leg) : Trade × List Leg :=
  (row.1.withoutId, row.2.map Leg.withoutId)

section Engine

variable (trade : Trade) (legs : List Leg) (now : DateTime)

theorem tradeExpiry_withoutId :
    tradeExpiry trade.withoutId (legs.map Leg.withoutId) now = tradeExpiry trade legs now := by
  unfold tradeExpiry Trade.withoutId
  cases trade.expiry with
  | some e => rfl
  | none =>
      cases legs with
      | nil => rfl
      | cons leg rest => rfl

theorem exitRequest_withoutId (trigger : ExitTrigger) :
    exitRequest trade.withoutId (legs.map Leg.withoutId) trigger now =
      (exitRequest trade legs trigger now).map (fun req => { req with tradeId := 0 }) := by
  unfold exitRequest
  -- The legs are sent in the order of their indices, which the wipe keeps.
  have hsorted : (legs.map Leg.withoutId).insertionSort (fun a b => a.legIdx ≤ b.legIdx) =
      (legs.insertionSort (fun a b => a.legIdx ≤ b.legIdx)).map Leg.withoutId :=
    (List.map_insertionSort _ _ Leg.withoutId legs (fun _ _ _ _ => Iff.rfl)).symm
  have hleg : exitLeg trade.withoutId now ∘ Leg.withoutId = exitLeg trade now := rfl
  rw [hsorted, List.mapM_map, hleg]
  cases (legs.insertionSort (fun a b => a.legIdx ≤ b.legIdx)).mapM (exitLeg trade now) with
  | error e => rfl
  | ok intents => rfl

/-- The view of a row. -/
theorem view_withoutId (row : ModeRow) (chain : ChainCache) :
    row.withoutId.view chain now = (row.view chain now).map PositionState.withoutId := by
  unfold ModeRow.view tradeToPositionState
  simp only [ModeRow.withoutId, TradeTrack.withoutId, tradeExpiry_withoutId]
  cases tradeExpiry row.track.trade row.track.legs now with
  | error e => rfl
  | ok expiry =>
      simp only [Except.map, List.map_map]
      rfl

/-- The close of a row. -/
theorem persistExit_withoutId (result : ExitResult) (trigger : ExitTrigger) (nav : NavTracker) :
    persistExit (fun _ => result) trade.withoutId (legs.map Leg.withoutId) trigger nav now =
      (persistExit (fun _ => result) trade legs trigger nav now).map (fun after =>
        (after.1.withoutId, after.2.1.map Leg.withoutId, after.2.2)) := by
  unfold persistExit
  rw [exitRequest_withoutId]
  cases exitRequest trade legs trigger now with
  | error e => rfl
  | ok req =>
      simp only [Except.map]
      split
      · rfl
      · simp only [List.map_map]
        rfl

end Engine

section ExitEngine

variable (engine : ExitEngine) (strategy : Strategy) (runtime : PositionRuntime)
  (market : MarketState)

theorem refreshLeg_withoutId :
    runtime.withoutId.refreshLeg market = (runtime.refreshLeg market).withoutId := by
  rcases runtime with ⟨position, _, _, _, _, _, _, _⟩
  rcases position with ⟨_, _, _, _, _, _, entryPremiumInr, _, _, _, _, _, _, legStates, _⟩
  cases legStates with
  | nil => rfl
  | cons leg rest =>
      simp only [PositionRuntime.refreshLeg, PositionRuntime.withoutId, PositionState.withoutId]
      cases market.quoteMid leg.symbol with
      | none => rfl
      | some mid =>
          cases entryPremiumInr with
          | none => rfl
          | some entry => rfl

theorem refreshUnderlying_withoutId :
    runtime.withoutId.refreshUnderlying market =
      (runtime.refreshUnderlying market).withoutId := by
  simp only [PositionRuntime.refreshUnderlying, PositionRuntime.withoutId, PositionState.withoutId]
  split
  · rfl
  · rfl

/-- The refresh before `manage`. -/
theorem refreshed_withoutId :
    ExitEngine.refreshed strategy runtime.withoutId market =
      (ExitEngine.refreshed strategy runtime market).withoutId := by
  unfold ExitEngine.refreshed ExitEngine.refreshPositionState
  have hticks : { runtime.withoutId with historyTicks := runtime.withoutId.historyTicks + 1 } =
      PositionRuntime.withoutId { runtime with historyTicks := runtime.historyTicks + 1 } := rfl
  rw [hticks]
  cases strategy with
  | directional self =>
      simp only
      rw [refreshLeg_withoutId, refreshUnderlying_withoutId]
      rfl
  | creditVertical self =>
      simp only [PositionRuntime.withoutId, PositionState.withoutId]
      split
      · rfl
      · rfl
  | longStraddle self =>
      simp only [PositionRuntime.withoutId, PositionState.withoutId]
      split
      · rfl
      · rfl

theorem manage_withoutId (position : PositionState) :
    strategy.manage position.withoutId market = strategy.manage position market := by
  cases strategy with
  | directional self => rfl
  | creditVertical self => rfl
  | longStraddle self => rfl

theorem translateAction_withoutId (action : Action) :
    engine.translateAction strategy market runtime.withoutId action =
      ((engine.translateAction strategy market runtime action).1.withoutId,
        (engine.translateAction strategy market runtime action).2.map
          ExitDirective.withoutId) := by
  -- Neither the level of a stop nor the throttle reads the id.
  have hstop : ∀ candidate, ExitEngine.maybeApplyChandelier strategy candidate runtime.withoutId =
      ExitEngine.maybeApplyChandelier strategy candidate runtime := by
    cases strategy with
    | directional self => exact fun _ => rfl
    | creditVertical self => exact fun _ => rfl
    | longStraddle self => exact fun _ => rfl
  have hemit : ∀ stop now, engine.shouldEmitTrail runtime.withoutId stop now =
      engine.shouldEmitTrail runtime stop now := fun _ _ => rfl
  unfold ExitEngine.translateAction
  simp only
  split
  · rfl
  · rw [hstop, hemit]
    split
    · rfl
    · rfl
  · rfl

/-- A step of the exit engine. -/
theorem step_withoutId :
    engine.step runtime.withoutId market = (engine.step runtime market).map (fun next =>
      (next.1.withoutId, next.2.map ExitDirective.withoutId)) := by
  unfold ExitEngine.step
  have hid : runtime.withoutId.position.strategyId = runtime.position.strategyId := rfl
  rw [hid]
  cases engine.registry.get runtime.position.strategyId with
  | error err => rfl
  | ok strategy =>
      have hposition : (ExitEngine.refreshed strategy runtime market).withoutId.position =
          (ExitEngine.refreshed strategy runtime market).position.withoutId := rfl
      -- One action, so the fold over the actions is its translation.
      rcases strategy.manage_single (ExitEngine.refreshed strategy runtime market).position market
        with ⟨action, hmanage, _⟩
      simp only [Except.map, refreshed_withoutId, hposition, manage_withoutId, hmanage,
        ExitEngine.translateActions, List.foldl_cons, List.foldl_nil, List.nil_append,
        translateAction_withoutId]

end ExitEngine

section Exits

variable (t : ModeTick) (market : MarketState)

/-- Sending an exit. -/
theorem sendExit_withoutId (mode : BotMode) (trigger : ExitTrigger) (track : TradeTrack)
    (pass : ExitPass) :
    t.sendExit market mode trigger track.withoutId pass =
      ((t.sendExit market mode trigger track pass).1.withoutId,
        (t.sendExit market mode trigger track pass).2) := by
  unfold ModeTick.sendExit
  simp only [TradeTrack.withoutId, exitRequest_withoutId, persistExit_withoutId]
  rcases exitRequest track.trade track.legs trigger market.now with e | req
  · rfl
  · simp only [Except.map, ExitRequest.instruction]
    rcases t.answer _ with e | result
    · rfl
    · simp only
      rcases persistExit (fun _ => result) track.trade track.legs trigger pass.nav market.now with
        e | after
      · rfl
      · rfl

/-- Moving a stop. -/
theorem sendStop_withoutId (mode : BotMode) (newStopPrice : ℚ) (track : TradeTrack)
    (pass : ExitPass) :
    t.sendStop mode newStopPrice track.withoutId pass =
      ((t.sendStop mode newStopPrice track pass).1.withoutId,
        (t.sendStop mode newStopPrice track pass).2) := by
  rcases track with ⟨trade, legs, runtime⟩
  unfold ModeTick.sendStop
  cases legs with
  | nil => rfl
  | cons leg rest =>
      simp only [TradeTrack.withoutId, List.map_cons, Leg.withoutId, Trade.withoutId]
      rcases t.answer _ with e | result
      · rfl
      · rfl

/-- Carrying out a directive. -/
theorem carryOut_withoutId (mode : BotMode) (track : TradeTrack) (pass : ExitPass)
    (d : ExitDirective) :
    t.carryOut market mode (track.withoutId, pass) d.withoutId =
      ((t.carryOut market mode (track, pass) d).1.withoutId,
        (t.carryOut market mode (track, pass) d).2) := by
  unfold ModeTick.carryOut
  by_cases hraised : pass.raised = true
  · rw [if_pos hraised, if_pos hraised]
  · rw [if_neg hraised, if_neg hraised]
    simp only [ExitDirective.withoutId]
    split
    · exact sendExit_withoutId t market mode _ track pass
    · exact sendStop_withoutId t mode _ track pass
    · rfl

/-- Managing a row. -/
theorem manageRow_withoutId (row : ModeRow) (pass : ExitPass) :
    t.manageRow market row.withoutId pass =
      (((t.manageRow market row pass).1.1.withoutId, (t.manageRow market row pass).1.2),
        (t.manageRow market row pass).2) := by
  unfold ModeTick.manageRow
  have hopen : row.withoutId.isOpen = row.isOpen := rfl
  rw [hopen, view_withoutId]
  by_cases hraised : pass.raised = true
  · rw [if_pos hraised, if_pos hraised]
  · rw [if_neg hraised, if_neg hraised]
    by_cases hisOpen : row.isOpen = true
    · rw [if_pos hisOpen, if_pos hisOpen]
      rcases row.view market.chain market.now with e | position
      · rfl
      · have hload : row.withoutId.track.load position.withoutId =
            (row.track.load position).withoutId := by
          rcases row with ⟨mode, trade, legs, runtime⟩
          cases runtime with
          | none => rfl
          | some runtime => rfl
        simp only [Except.map, hload, step_withoutId]
        rcases hstep : t.engine.step (row.track.load position) market with e | ⟨next, directives⟩
        · rfl
        · -- There is one directive at most, so the loop over them is one step.
          rcases t.engine.step_single _ next market directives hstep with rfl | ⟨d, rfl⟩
          · rfl
          · have hcarry : t.carryOut market row.withoutId.mode
                ({ row.withoutId.track with runtime := some next.withoutId }, pass)
                  d.withoutId = _ :=
              carryOut_withoutId t market row.mode { row.track with runtime := some next } pass d
            simp only [List.map_cons, List.map_nil, List.foldl_cons, List.foldl_nil, hcarry]
            rfl
    · rw [if_neg hisOpen, if_neg hisOpen]

theorem manageRows_withoutId (rows : List ModeRow) (pass : ExitPass) :
    t.manageRows market (rows.map ModeRow.withoutId) pass =
      ((t.manageRows market rows pass).1.map (fun managed => (managed.1.withoutId, managed.2)),
        (t.manageRows market rows pass).2) := by
  induction rows generalizing pass with
  | nil => rfl
  | cons row rest ih =>
      simp only [List.map_cons, ModeTick.manageRows, manageRow_withoutId, ih]

theorem refreshRow_withoutId (managed : ModeRow × Option ℚ) :
    ModeTick.refreshRow market (managed.1.withoutId, managed.2) =
      (ModeTick.refreshRow market managed).withoutId := by
  rcases managed with ⟨row, _ | peak⟩
  · rfl
  · rfl

/-- The exits of a tick. -/
theorem exits_withoutId (rows : List ModeRow) (nav : NavTracker) :
    t.exits market (rows.map ModeRow.withoutId) nav =
      ((t.exits market rows nav).1.map ModeRow.withoutId, (t.exits market rows nav).2) := by
  have hviewed : ((rows.map ModeRow.withoutId).filter ModeRow.isOpen).all
      (fun row => (row.view market.chain market.now).isOk) =
        (rows.filter ModeRow.isOpen).all (fun row => (row.view market.chain market.now).isOk) := by
    rw [List.filter_map, List.all_map]
    refine congrArg (fun p => List.all (rows.filter ModeRow.isOpen) p) (funext (fun row => ?_))
    rw [Function.comp_apply, view_withoutId]
    rcases row.view market.chain market.now with e | position
    · rfl
    · rfl
  unfold ModeTick.exits
  rw [hviewed, manageRows_withoutId]
  rcases t.manageRows market rows { nav := nav } with ⟨managed, pass⟩
  simp only
  split_ifs
  · simp only [List.map_map]
    rfl
  · simp only [List.map_map]
    exact congrArg (fun rows => (rows, pass)) (List.map_congr_left (fun row _ =>
      refreshRow_withoutId market row))
  · rfl

/-- The quotes a tick carries. -/
theorem marketOf_withoutId (rows : List ModeRow) :
    t.marketOf (rows.map ModeRow.withoutId) = t.marketOf rows := by
  unfold ModeTick.marketOf
  refine congrArg (fun quoteFor => { t.market with quoteFor := quoteFor })
    (funext (fun symbol => ?_))
  have hlegs : ∀ row : ModeRow, (row.withoutId.pair.2.any (fun leg => leg.symbol = symbol)) =
      row.pair.2.any (fun leg => leg.symbol = symbol) := fun row => List.any_map
  unfold quoteForOpen
  simp only [List.filter_map, List.any_map, Function.comp_def, hlegs]
  rfl

end Exits

section Book

variable (rows : List (Trade × List Leg))

/-- The greeks of the book. -/
theorem fromOpenTrades_withoutId (quoteFor : String → Option QuoteSnapshot)
    (chain : Option ChainCache) :
    PortfolioGreeks.fromOpenTrades (rows.map rowWithoutId) quoteFor chain =
      PortfolioGreeks.fromOpenTrades rows quoteFor chain := by
  have htrade : ∀ (book : GreekBook) (row : Trade × List Leg),
      GreekBook.addTrade quoteFor chain book (rowWithoutId row) =
        GreekBook.addTrade quoteFor chain book row := by
    intro book row
    unfold GreekBook.addTrade rowWithoutId
    rw [List.foldl_map]
    rfl
  unfold PortfolioGreeks.fromOpenTrades
  simp only [List.foldl_map, htrade]

/-- The counts of open trades. -/
theorem openCount_withoutId (p : StrategyId → Bool) :
    openCount p (rows.map rowWithoutId) = openCount p rows := by
  rw [openCount, List.countP_map]
  rfl

theorem openCount_congr (p : StrategyId → Bool) (rows' : List (Trade × List Leg))
    (h : rows.map rowWithoutId = rows'.map rowWithoutId) :
    openCount p rows = openCount p rows' := by
  rw [← openCount_withoutId, h, openCount_withoutId]

end Book

section Entry

variable (id id' : Nat) (intent : Intent) (sizing : SizingResult)
  (quoteFor : Option (String → Option QuoteSnapshot)) (chain : Option ChainCache)

/-- Recording an entry. -/
theorem recordEntry_withoutId (trade : Trade) (result : EntryResult) :
    (recordEntry trade intent sizing result quoteFor chain).map rowWithoutId =
      recordEntry trade.withoutId intent sizing result quoteFor chain := by
  -- A leg row takes its trade's id and nothing else from the trade.
  have hleg : legRow trade.withoutId.id intent sizing = fun fill =>
      (legRow trade.id intent sizing fill).map Leg.withoutId := by
    funext fill
    unfold legRow
    simp only
    rcases (if fill.legIdx < intent.legs.length then index intent.legs fill.legIdx
      else last intent.legs) with e | leg
    · rfl
    · rfl
  unfold recordEntry
  rw [hleg, mapM_results]
  split_ifs
  · rfl
  · simp only
    rcases result.fills.mapM (legRow trade.id intent sizing) with e | legs
    · rfl
    · rfl

/-- Opening a trade under one id or another. -/
theorem openTrade_withoutId (market : MarketState) (outcome : EntryOutcome) :
    (openTrade outcome id intent sizing market quoteFor chain).rows.map rowWithoutId =
        (openTrade outcome id' intent sizing market quoteFor chain).rows.map rowWithoutId ∧
      (openTrade outcome id intent sizing market quoteFor chain).raised =
        (openTrade outcome id' intent sizing market quoteFor chain).raised := by
  unfold openTrade
  split
  · exact ⟨rfl, rfl⟩
  · next first rest _ =>
    cases outcome with
    | unwritten => exact ⟨rfl, rfl⟩
    | interrupted => exact ⟨rfl, rfl⟩
    | answered result raises =>
        have hsame : (recordEntry (newTrade id intent first rest sizing market) intent sizing result
            quoteFor chain).map rowWithoutId =
              (recordEntry (newTrade id' intent first rest sizing market) intent sizing result
                quoteFor chain).map rowWithoutId := by
          rw [recordEntry_withoutId, recordEntry_withoutId]
          rfl
        simp only
        rcases hrow : recordEntry (newTrade id intent first rest sizing market) intent sizing result
          quoteFor chain with e | row
        · rcases hrow' : recordEntry (newTrade id' intent first rest sizing market) intent sizing
            result quoteFor chain with e' | row'
          · exact ⟨rfl, rfl⟩
          · -- Under one id the recording raises exactly if it does under the other.
            rw [hrow, hrow'] at hsame
            cases hsame
        · rcases hrow' : recordEntry (newTrade id' intent first rest sizing market) intent sizing
            result quoteFor chain with e' | row'
          · rw [hrow, hrow'] at hsame
            cases hsame
          · rw [hrow, hrow'] at hsame
            simp only [Except.map, Except.ok.injEq] at hsame
            simp only [List.map_cons, List.map_nil, hsame, and_self]

end Entry

/-- With as many open trades of every kind, the counts are the same. -/
theorem accountingSnapshot_congr (trades trades' : List (Trade × List Leg))
    (h : ∀ p, openCount p trades = openCount p trades') :
    accountingSnapshot trades = accountingSnapshot trades' := by
  have heq : ∀ a b : TradeAccountingSnapshot, a.openCountTotal = b.openCountTotal →
      (∀ id, a.openCountByStrategy id = b.openCountByStrategy id) → a = b := by
    intro a b htotal hstrategy
    rcases a with ⟨_, _⟩
    rcases b with ⟨_, _⟩
    rw [TradeAccountingSnapshot.mk.injEq]
    exact ⟨htotal, funext hstrategy⟩
  rcases accountingSnapshot_openCount trades with ⟨htotal, hstrategy⟩
  rcases accountingSnapshot_openCount trades' with ⟨htotal', hstrategy'⟩
  refine heq _ _ ?_ (fun id => ?_)
  · rw [htotal, htotal', h]
  · rw [hstrategy, hstrategy', h]

/-- The loop over the intents, on two lists of trades that count the same: the gate is asked the
    same, and the rows that are opened are the same up to their ids. -/
theorem gateIntents_withoutId (t : EntryTick) (openRows openRows' : List (Trade × List Leg))
    (book : Option PortfolioGreeks) (attempts : List EntryAttempt) (s : EngineState)
    (trades' : List (Trade × List Leg)) (h : ∀ p, openCount p s.trades = openCount p trades') :
    ∃ opened opened' : List (Trade × List Leg),
      (EngineState.gateIntents t openRows book s (accountingSnapshot s.trades) attempts).1.trades =
          s.trades ++ opened ∧
        (EngineState.gateIntents t openRows' book { s with trades := trades' }
            (accountingSnapshot trades') attempts).1.trades = trades' ++ opened' ∧
        opened.map rowWithoutId = opened'.map rowWithoutId ∧
        (EngineState.gateIntents t openRows book s (accountingSnapshot s.trades)
            attempts).2.map GateCall.input =
          (EngineState.gateIntents t openRows' book { s with trades := trades' }
            (accountingSnapshot trades') attempts).2.map GateCall.input := by
  have hcounts : ∀ s : EngineState, ∀ trades', (∀ p, openCount p s.trades = openCount p trades') →
      accountingSnapshot s.trades = accountingSnapshot trades' :=
    fun s trades' h => accountingSnapshot_congr s.trades trades' h
  -- The two lists count the same at every turn, and that is all the gate sees of them.
  induction attempts generalizing s trades' with
  | nil => exact ⟨[], [], (List.append_nil _).symm, (List.append_nil _).symm, rfl, rfl⟩
  | cons a rest ih =>
      have hrisk : EngineState.risk { s with trades := trades' } = s.risk := rfl
      simp only [EngineState.gateIntents, hrisk, ← hcounts s trades' h]
      rcases s.risk.gate a.intent
        (EngineState.gateInput t book (accountingSnapshot s.trades) a) with e | sizing
      · exact ⟨[], [], (List.append_nil _).symm, (List.append_nil _).symm, rfl, rfl⟩
      · simp only
        by_cases happroved : sizing.approved = true
        · rw [if_pos happroved, if_pos happroved]
          rcases openTrade_withoutId s.nextTradeId
            (EngineState.nextTradeId { s with trades := trades' }) a.intent sizing
            (some t.market.quoteFor) (some a.chain) t.market a.outcome with ⟨hrows, hraised⟩
          generalize openTrade a.outcome s.nextTradeId a.intent sizing t.market
            (some t.market.quoteFor) (some a.chain) = fresh at hrows hraised ⊢
          generalize openTrade a.outcome (EngineState.nextTradeId { s with trades := trades' })
            a.intent sizing t.market (some t.market.quoteFor) (some a.chain) = fresh'
            at hrows hraised ⊢
          rw [← hraised]
          split_ifs
          · exact ⟨fresh.rows, fresh'.rows, rfl, rfl, hrows, rfl⟩
          · -- The trades still count the same, the new ones among them.
            have hlater : ∀ p, openCount p (s.trades ++ fresh.rows) =
                openCount p (trades' ++ fresh'.rows) := by
              intro p
              rw [openCount_append, openCount_append, h p, openCount_congr _ p _ hrows]
            rcases ih { s with trades := s.trades ++ fresh.rows } (trades' ++ fresh'.rows) hlater
              with ⟨opened, opened', hopened, hopened', hmore, hinputs⟩
            refine ⟨fresh.rows ++ opened, fresh'.rows ++ opened', ?_, ?_, ?_,
              congrArg (List.cons _) hinputs⟩
            · rw [← List.append_assoc]
              exact hopened
            · rw [← List.append_assoc]
              exact hopened'
            · rw [List.map_append, List.map_append, hrows, hmore]
        · rw [if_neg happroved, if_neg happroved]
          rcases ih s trades' h with ⟨opened, opened', hopened, hopened', hmore, hinputs⟩
          rw [← hcounts s trades' h] at hopened' hinputs
          exact ⟨opened, opened', hopened, hopened', hmore, congrArg (List.cons _) hinputs⟩

end OptionsBot
