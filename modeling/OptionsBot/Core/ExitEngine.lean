import OptionsBot.Core.Registry

/-!
# Exit Engine

What runs between a tick and a strategy's `manage`: the bookkeeping of peaks and
troughs, the refresh of the position's prices, and the translation of actions
into directives, where a directional trailing stop is combined with a level
taken from the underlying's peak.

The engine mutates the position it is handed. Here the position is part of the
runtime record, and a step returns the new record with the directives.

## Main definitions

* `PositionRuntime`: The engine's record of a position.
* `ExitDirective`: What a step asks for.
* `ExitEngine.refreshPositionState`: The refresh before `manage`.
* `ExitEngine.maybeApplyChandelier`, `ExitEngine.shouldEmitTrail`: The stop of a
  trail action, and whether it is passed on.
* `ExitEngine.step`: One tick of one position.

## Theorems

* `PositionRuntime.refreshLeg_frame`, `PositionRuntime.refreshUnderlying_frame`: What a
  refresh may change.
* `refreshed_frame`: What of the position it may change.
* `refreshed_legStates`: The legs of a directional position that is not quoted.
* `step_ok`: A step of a registered strategy translates one action.
* `step_single`: A step gives one directive at most.
* `step_position`: The position after a step is the refreshed one.
* `close_mem_iff`, `step_close_iff`: A step closes exactly if `manage` does, and for its reason.
* `quotedSum_missing`: There is no sum over a leg that is not quoted.
-/

namespace OptionsBot

inductive ExitKind where
  | close
  | updateStop
  | noOp
  deriving DecidableEq, Repr

/-- The engine's record of a position. -/
structure PositionRuntime where
  position : PositionState
  peakPnlInr : ℚ := 0
  troughPnlInr : ℚ := 0
  peakUnderlying : Option ℚ := none
  troughUnderlying : Option ℚ := none
  lastTrailStop : Option ℚ := none
  lastTrailUpdateTs : Option DateTime := none
  historyTicks : Nat := 0
  deriving DecidableEq

structure ExitDirective where
  tradeId : Nat
  kind : ExitKind
  trigger : Option ExitTrigger := none
  newStopPrice : Option ℚ := none
  legStates : List LegState := []
  deriving DecidableEq

structure ExitEngine where
  registry : StrategyRegistry
  throttle : ℚ := 5

/-- The middle price a tick carries for a symbol. -/
def MarketState.quoteMid (market : MarketState) (symbol : String) : Option ℚ :=
  (market.quoteFor symbol).bind QuoteSnapshot.mid

/-- A weighted sum of the legs' middle prices, `none` if one is missing. -/
def quotedSum (market : MarketState) (weight : LegState → ℚ) : List LegState → Option ℚ
  | [] => some 0
  | leg :: rest =>
    match market.quoteMid leg.symbol with
    | none => none
    | some mid => (quotedSum market weight rest).map (fun sum => weight leg * mid + sum)

/-- The sign of a leg in the cost to unwind. A leg without a side is bought. -/
def unwindSign (leg : LegState) : ℚ := if leg.side.getD .buy = .sell then 1 else -1

namespace PositionRuntime

/-- The first leg's price and the profit's peak and trough. -/
def refreshLeg (runtime : PositionRuntime) (market : MarketState) : PositionRuntime :=
  match runtime.position.legStates with
  | [] => runtime
  | leg :: rest =>
    match market.quoteMid leg.symbol with
    | none => runtime
    -- Only the first leg gets a price: a directional position has no other.
    | some mid =>
      let position :=
        { runtime.position with legStates := { leg with currentMid := some mid } :: rest }
      match position.entryPremiumInr with
      | none => { runtime with position := position }
      | some entry =>
        let pnl := (mid - entry) * position.lots
        let peak := max runtime.peakPnlInr pnl
        { runtime with
          position := { position with peakPnlInr := some peak }
          peakPnlInr := peak
          troughPnlInr := min runtime.troughPnlInr pnl }

/-- The underlying's peak and trough. -/
def refreshUnderlying (runtime : PositionRuntime) (market : MarketState) : PositionRuntime :=
  match market.spot runtime.position.underlying with
  | none => runtime
  | some spot =>
    { runtime with
      peakUnderlying := some (match runtime.peakUnderlying with
        | none => spot
        | some peak => max peak spot)
      troughUnderlying := some (match runtime.troughUnderlying with
        | none => spot
        | some trough => min trough spot) }

/-- The position trails the stop the engine last passed on. -/
def refreshTrailStop (runtime : PositionRuntime) : PositionRuntime :=
  { runtime with
    position := { runtime.position with currentTrailStopPrice := runtime.lastTrailStop } }

/-- A changed note of the position. -/
def withNotes (runtime : PositionRuntime) (notes : Notes) : PositionRuntime :=
  { runtime with position := { runtime.position with notes := notes } }

/-- A price of the first leg changes the legs and the profit's extremes. -/
theorem refreshLeg_frame (runtime : PositionRuntime) (market : MarketState) :
    ∃ legStates shown peak trough, runtime.refreshLeg market =
      { runtime with
        position := { runtime.position with legStates := legStates, peakPnlInr := shown }
        peakPnlInr := peak
        troughPnlInr := trough } := by
  unfold refreshLeg
  split
  · exact ⟨_, _, _, _, rfl⟩
  · split
    · exact ⟨_, _, _, _, rfl⟩
    · simp only
      -- Without an entry premium there is no profit, and the extremes stay.
      split
      · exact ⟨_, _, _, _, rfl⟩
      · exact ⟨_, _, _, _, rfl⟩

/-- A price of the underlying changes its extremes. -/
theorem refreshUnderlying_frame (runtime : PositionRuntime) (market : MarketState) :
    ∃ peak trough, runtime.refreshUnderlying market =
      { runtime with peakUnderlying := peak, troughUnderlying := trough } := by
  unfold refreshUnderlying
  split
  · exact ⟨_, _, rfl⟩
  · exact ⟨_, _, rfl⟩

end PositionRuntime

namespace ExitEngine

variable (self : ExitEngine)

/-- The refresh before `manage`. With a leg unquoted, the multi-leg strategies'
    position is left as it is. -/
def refreshPositionState (strategy : Strategy) (runtime : PositionRuntime) (market : MarketState) :
    PositionRuntime :=
  -- The legs are rebuilt from the database on every tick, and the notes with them: a
  -- position left as it is has no price of an earlier tick either.
  let notes := runtime.position.notes
  match strategy with
  | .directional _ =>
    ((runtime.refreshLeg market).refreshUnderlying market).refreshTrailStop
  | .creditVertical _ =>
    match quotedSum market unwindSign runtime.position.legStates with
    | none => runtime
    | some cost => runtime.withNotes { notes with currentUnwindCost := some cost }
  | .longStraddle _ =>
    match quotedSum market (fun _ => 1) runtime.position.legStates with
    | none => runtime
    | some total => runtime.withNotes { notes with currentTotalPremium := some total }

/-- The stop a trail action leads to. For a directional position it is combined
    with a level a multiple of the entry's range away from the underlying's
    extreme. -/
def maybeApplyChandelier (strategy : Strategy) (candidate : ℚ) (runtime : PositionRuntime) : ℚ :=
  match strategy with
  | .directional s =>
    match runtime.position.entryAtr, runtime.peakUnderlying, runtime.position.legStates with
    | some atr, some peak, leg :: _ =>
      let atrMult := s.config.exits.trailChandelierAtrMult
      -- The candidate is a price of the option, the other level one of the underlying.
      if leg.optionType = some .call then max candidate (peak - atrMult * atr)
      else min candidate (orFloat runtime.troughUnderlying peak + atrMult * atr)
    | _, _, _ => candidate
  | _ => candidate

/-- Whether a stop is passed on: the first always, a later one if the last is old
    enough and the new one is tighter. -/
def shouldEmitTrail (runtime : PositionRuntime) (newStop : ℚ) (now : DateTime) : Bool :=
  match runtime.lastTrailStop with
  | none => true
  | some last =>
    if ∃ ts ∈ runtime.lastTrailUpdateTs, now.secondsSince ts < self.throttle then false
    -- Tighter is higher for a call and lower for a put.
    else if (runtime.position.legStates.head?.bind LegState.optionType) = some .call then
      last + 1 / 1000000 < newStop
    else newStop < last - 1 / 1000000

/-- The directives of one action. -/
def translateAction (strategy : Strategy) (market : MarketState) (runtime : PositionRuntime)
    (action : Action) : PositionRuntime × List ExitDirective :=
  let tradeId := runtime.position.tradeId
  match action.kind, action.trail with
  | .close, _ =>
    (runtime, [{ tradeId := tradeId, kind := .close,
                 trigger := some (action.close.getD .premiumStop),
                 legStates := runtime.position.legStates }])
  | .trailStop, some candidate =>
    let newStop := maybeApplyChandelier strategy candidate runtime
    if self.shouldEmitTrail runtime newStop market.now then
      ({ runtime with lastTrailStop := some newStop, lastTrailUpdateTs := some market.now },
        [{ tradeId := tradeId, kind := .updateStop, newStopPrice := some newStop }])
    else (runtime, [])
  | _, _ => (runtime, [{ tradeId := tradeId, kind := .noOp }])

def translateActions (strategy : Strategy) (actions : List Action) (market : MarketState)
    (runtime : PositionRuntime) : PositionRuntime × List ExitDirective :=
  actions.foldl (fun acc action =>
    let next := self.translateAction strategy market acc.1 action
    (next.1, acc.2 ++ next.2)) (runtime, [])

/-- The runtime record `manage` is called with. -/
def refreshed (strategy : Strategy) (runtime : PositionRuntime) (market : MarketState) :
    PositionRuntime :=
  refreshPositionState strategy { runtime with historyTicks := runtime.historyTicks + 1 } market

def step (runtime : PositionRuntime) (market : MarketState) :
    Except PyError (PositionRuntime × List ExitDirective) :=
  match self.registry.get runtime.position.strategyId with
  | .error e => .error e
  | .ok strategy =>
    let next := refreshed strategy runtime market
    .ok (self.translateActions strategy (strategy.manage next.position market) market next)

/-- The refresh leaves of the position all but its prices, its peak, its stop and its
    notes, and keeps the stop on record. -/
theorem refreshed_frame (strategy : Strategy) (runtime : PositionRuntime) (market : MarketState) :
    (∃ legStates peak stop notes, (refreshed strategy runtime market).position =
      { runtime.position with
        legStates := legStates
        peakPnlInr := peak
        currentTrailStopPrice := stop
        notes := notes }) ∧
    (refreshed strategy runtime market).lastTrailStop = runtime.lastTrailStop := by
  unfold refreshed refreshPositionState
  cases strategy with
  | directional self =>
      simp only
      rcases PositionRuntime.refreshLeg_frame
        { runtime with historyTicks := runtime.historyTicks + 1 } market with ⟨_, _, _, _, hleg⟩
      rcases PositionRuntime.refreshUnderlying_frame
        (PositionRuntime.refreshLeg { runtime with historyTicks := runtime.historyTicks + 1 }
          market) market with ⟨_, _, hunderlying⟩
      rw [hunderlying, hleg]
      exact ⟨⟨_, _, _, _, rfl⟩, rfl⟩
  | creditVertical self =>
      simp only
      split
      · exact ⟨⟨_, _, _, _, rfl⟩, rfl⟩
      · exact ⟨⟨_, _, _, _, rfl⟩, rfl⟩
  | longStraddle self =>
      simp only
      split
      · exact ⟨⟨_, _, _, _, rfl⟩, rfl⟩
      · exact ⟨⟨_, _, _, _, rfl⟩, rfl⟩

/-- A directional position whose leg is not quoted keeps its legs as they were. -/
theorem refreshed_legStates (self : DirectionalStrategy) (runtime : PositionRuntime)
    (market : MarketState)
    (hquote : ∀ leg ∈ runtime.position.legStates.head?, market.quoteMid leg.symbol = none) :
    (refreshed (.directional self) runtime market).position.legStates =
      runtime.position.legStates := by
  unfold refreshed refreshPositionState PositionRuntime.refreshLeg
  unfold PositionRuntime.refreshTrailStop PositionRuntime.refreshUnderlying
  cases hlegs : runtime.position.legStates with
  | nil =>
      simp only
      split
      · exact hlegs
      · exact hlegs
  | cons leg rest =>
      have hnone : market.quoteMid leg.symbol = none := hquote leg (by rw [hlegs]; rfl)
      simp only [hnone]
      split
      · exact hlegs
      · exact hlegs

/-- The refresh before `manage` keeps the expiry. -/
theorem refreshed_expiry (strategy : Strategy) (runtime : PositionRuntime) (market : MarketState) :
    (refreshed strategy runtime market).position.expiry = runtime.position.expiry := by
  rcases (refreshed_frame strategy runtime market).1 with ⟨_, _, _, _, hposition⟩
  rw [hposition]

theorem quotedSum_missing (market : MarketState) (weight : LegState → ℚ) (legs : List LegState)
    (leg : LegState) (hleg : leg ∈ legs) (h : market.quoteMid leg.symbol = none) :
    quotedSum market weight legs = none := by
  induction legs with
  | nil => exact absurd hleg List.not_mem_nil
  | cons first rest ih =>
      unfold quotedSum
      rcases List.mem_cons.mp hleg with hfirst | hrest
      · rw [← hfirst, h]
      · rw [ih hrest]
        split
        · rfl
        · rfl

/-- Translating an action leaves the position alone. -/
theorem translateAction_position (strategy : Strategy) (market : MarketState)
    (runtime : PositionRuntime) (action : Action) :
    (self.translateAction strategy market runtime action).1.position = runtime.position := by
  unfold translateAction
  simp only
  split
  · rfl
  · split_ifs
    · rfl
    · rfl
  · rfl

/-- A step of a registered strategy translates the one action of `manage`. -/
theorem step_ok (runtime : PositionRuntime) (market : MarketState) (strategy : Strategy)
    (hget : self.registry.get runtime.position.strategyId = .ok strategy) :
    ∃ action, strategy.manage (refreshed strategy runtime market).position market = [action] ∧
      action.Plain ∧ self.step runtime market =
        .ok (self.translateAction strategy market (refreshed strategy runtime market) action) := by
  -- Each strategy answers with a single action, so the fold over actions is one step.
  rcases strategy.manage_single (refreshed strategy runtime market).position market with
    ⟨action, hmanage, hplain⟩
  refine ⟨action, hmanage, hplain, ?_⟩
  unfold step
  rw [hget]
  simp only [hmanage, translateActions, List.foldl_cons, List.foldl_nil, List.nil_append]

/-- A step gives one directive at most. -/
theorem step_single (runtime next : PositionRuntime)
    (market : MarketState) (directives : List ExitDirective)
    (hstep : self.step runtime market = .ok (next, directives)) :
    directives = [] ∨ ∃ d, directives = [d] := by
  cases hget : self.registry.get runtime.position.strategyId with
  | error err =>
      rw [step, hget] at hstep
      cases hstep
  | ok strategy =>
      rcases self.step_ok runtime market strategy hget with ⟨action, _, hplain, htranslate⟩
      rw [hstep, Except.ok.injEq] at htranslate
      cases hplain with
      | close trigger =>
          simp only [translateAction, Action.closeFor, Prod.mk.injEq] at htranslate
          exact Or.inr ⟨_, htranslate.2⟩
      | trail stop =>
          simp only [translateAction, Action.trailTo] at htranslate
          split_ifs at htranslate
          · rw [Prod.mk.injEq] at htranslate
            exact Or.inr ⟨_, htranslate.2⟩
          · rw [Prod.mk.injEq] at htranslate
            exact Or.inl htranslate.2
      | noOp =>
          simp only [translateAction, Action.noOp, Prod.mk.injEq] at htranslate
          exact Or.inr ⟨_, htranslate.2⟩

/-- The position after a step is the refreshed one. -/
theorem step_position (runtime next : PositionRuntime) (market : MarketState) (strategy : Strategy)
    (directives : List ExitDirective)
    (hget : self.registry.get runtime.position.strategyId = .ok strategy)
    (hstep : self.step runtime market = .ok (next, directives)) :
    next.position = (refreshed strategy runtime market).position := by
  rcases self.step_ok runtime market strategy hget with ⟨action, _, _, htranslate⟩
  rw [hstep, Except.ok.injEq] at htranslate
  have hposition := self.translateAction_position strategy market
    (refreshed strategy runtime market) action
  rw [← htranslate] at hposition
  exact hposition

/-- A step closes for a reason exactly if `manage` does. -/
theorem close_mem_iff (runtime next : PositionRuntime) (market : MarketState) (strategy : Strategy)
    (directives : List ExitDirective)
    (hget : self.registry.get runtime.position.strategyId = .ok strategy)
    (hstep : self.step runtime market = .ok (next, directives)) (trigger : ExitTrigger) :
    (∃ d ∈ directives, d.trigger = some trigger) ↔
      Action.closeFor trigger ∈
        strategy.manage (refreshed strategy runtime market).position market := by
  rcases self.step_ok runtime market strategy hget with ⟨action, hmanage, hplain, htranslate⟩
  rw [hstep, Except.ok.injEq] at htranslate
  rw [hmanage, List.mem_singleton]
  cases hplain with
  | close reason =>
      simp only [translateAction, Action.closeFor, Prod.mk.injEq] at htranslate
      rw [htranslate.2]
      simp only [List.mem_singleton, exists_eq_left, Option.getD_some, Option.some.injEq,
        Action.closeFor, Action.mk.injEq, true_and, and_true]
      exact eq_comm
  | trail stop =>
      simp only [translateAction, Action.trailTo] at htranslate
      -- A trailing stop is an update or nothing, and neither carries a trigger.
      have hnone : ∀ d ∈ directives, d.trigger = none := by
        intro d hd
        split_ifs at htranslate
        · rw [Prod.mk.injEq] at htranslate
          rw [htranslate.2, List.mem_singleton] at hd
          rw [hd]
        · rw [Prod.mk.injEq] at htranslate
          rw [htranslate.2] at hd
          exact absurd hd List.not_mem_nil
      constructor
      · rintro ⟨d, hd, ht⟩
        rw [hnone d hd] at ht
        cases ht
      · intro heq
        cases heq
  | noOp =>
      simp only [translateAction, Action.noOp, Prod.mk.injEq] at htranslate
      rw [htranslate.2]
      constructor
      · rintro ⟨d, hd, ht⟩
        rw [List.mem_singleton.mp hd] at ht
        cases ht
      · intro heq
        cases heq

/-- A step closes exactly if `manage` does. -/
theorem step_close_iff (runtime next : PositionRuntime) (market : MarketState)
    (strategy : Strategy) (directives : List ExitDirective)
    (hget : self.registry.get runtime.position.strategyId = .ok strategy)
    (hstep : self.step runtime market = .ok (next, directives)) :
    (∃ d ∈ directives, d.kind = .close) ↔ ∃ trigger, Action.closeFor trigger ∈
      strategy.manage (refreshed strategy runtime market).position market := by
  constructor
  · rintro ⟨d, hd, hkind⟩
    -- A directive that closes carries the reason of its action.
    have htrigger : ∃ trigger, d.trigger = some trigger := by
      rcases self.step_ok runtime market strategy hget with ⟨action, _, hplain, htranslate⟩
      rw [hstep, Except.ok.injEq] at htranslate
      cases hplain with
      | close reason =>
          simp only [translateAction, Action.closeFor, Prod.mk.injEq] at htranslate
          rw [htranslate.2, List.mem_singleton] at hd
          rw [hd]
          exact ⟨_, rfl⟩
      | trail stop =>
          simp only [translateAction, Action.trailTo] at htranslate
          split_ifs at htranslate
          · rw [Prod.mk.injEq] at htranslate
            rw [htranslate.2, List.mem_singleton] at hd
            rw [hd] at hkind
            cases hkind
          · rw [Prod.mk.injEq] at htranslate
            rw [htranslate.2] at hd
            exact absurd hd List.not_mem_nil
      | noOp =>
          simp only [translateAction, Action.noOp, Prod.mk.injEq] at htranslate
          rw [htranslate.2, List.mem_singleton] at hd
          rw [hd] at hkind
          cases hkind
    rcases htrigger with ⟨trigger, htrigger⟩
    exact ⟨trigger, (self.close_mem_iff runtime next market strategy directives hget hstep
      trigger).mp ⟨d, hd, htrigger⟩⟩
  · rintro ⟨trigger, hmem⟩
    rcases self.step_ok runtime market strategy hget with ⟨action, hmanage, _, htranslate⟩
    rw [hstep, Except.ok.injEq] at htranslate
    rw [hmanage, List.mem_singleton] at hmem
    rw [← hmem] at htranslate
    simp only [translateAction, Action.closeFor, Prod.mk.injEq] at htranslate
    rw [htranslate.2]
    exact ⟨_, List.mem_singleton.mpr rfl, rfl⟩

end ExitEngine

end OptionsBot
