import OptionsBot.Theory.RestartedTrail

/-!
# The Record After a Failed Exit

An exit that fails should leave the position as if it had not been tried: the record the
exit engine keeps of it stays, with its peak profit, the extremes of the underlying and
the last stop, and the next tick decides as on that record.

The rows do stay. The record does not: a close drops it, and what comes back of the exit
is not looked at. The next tick starts a new record, so the old one is kept just when
there was nothing in it.

## Main definitions

* `PositionRuntime.Blank`: There is nothing in the record to lose.
* `FailedClose`: A tick whose close fails.
* `ExitStateKept`: What such a tick should leave.

## Theorems

* `failedClose_cases`: What such a tick does leave.
* `step_blank`: On what of a record a decision rests.
* `exitStateKept_iff`: Exactly when the record is kept.
* `blank_refreshed`: The records of the other strategies stay empty.
* `not_blank_of_spot`: A directional one is not while the underlying has a price.
-/

namespace OptionsBot

-- The sample runs below compute with rationals.
attribute [local semireducible] Rat.add Rat.sub Rat.mul Rat.inv

/-- The record has no peak profit, no extremes of the underlying and no stop. -/
structure PositionRuntime.Blank (runtime : PositionRuntime) : Prop where
  peakPnlInr : runtime.peakPnlInr = 0
  peakUnderlying : runtime.peakUnderlying = none
  troughUnderlying : runtime.troughUnderlying = none
  lastTrailStop : runtime.lastTrailStop = none

/-- The tick closes the trade, and the exit fails. `before` is the record when the exit
    is attempted. -/
structure FailedClose (s : TradeTrack) (engine : ExitEngine) (e : TrackTick)
    (before : PositionRuntime) : Prop where
  isOpen : s.trade.status = .«open»
  stepped : ∃ position directives,
    tradeToPositionState s.trade s.legs e.market.chain e.market.now = .ok position ∧
      engine.step (s.load position) e.market = .ok (before, directives) ∧
      ∃ d ∈ directives, d.kind = .close ∧ ∃ trigger request, d.trigger = some trigger ∧
        exitRequest s.trade s.legs trigger e.market.now = .ok request ∧
        (e.execute request).success = false

/-- The trade stays open with its legs, the next tick finds the record as it was before
    the attempt, and it decides as on that record. -/
structure ExitStateKept (s : TradeTrack) (engine : ExitEngine) (e : TrackTick)
    (before : PositionRuntime) : Prop where
  isOpen : (s.tick engine e).1.trade.status = .«open»
  legs : (s.tick engine e).1.legs = s.legs
  record : ∀ position,
    ((s.tick engine e).1.load position).peakPnlInr = before.peakPnlInr ∧
      ((s.tick engine e).1.load position).peakUnderlying = before.peakUnderlying ∧
      ((s.tick engine e).1.load position).troughUnderlying = before.troughUnderlying ∧
      ((s.tick engine e).1.load position).lastTrailStop = before.lastTrailStop
  decision : ∀ position market,
    (engine.step ((s.tick engine e).1.load position) market).map Prod.snd =
      (engine.step { before with position := position } market).map Prod.snd

section Decision

variable (engine : ExitEngine) (strategy : Strategy) (runtime : PositionRuntime)
  (market : MarketState) (trough : ℚ) (ts : Option DateTime) (ticks : Nat)

/-- The refresh carries the trough, the time of the last stop and the count of ticks
    along, and reads none of them for anything else. -/
theorem refreshed_rest : ∃ trough' ticks',
    ExitEngine.refreshed strategy
        { runtime with troughPnlInr := trough, lastTrailUpdateTs := ts, historyTicks := ticks }
        market =
      { ExitEngine.refreshed strategy runtime market with
        troughPnlInr := trough', lastTrailUpdateTs := ts, historyTicks := ticks' } := by
  cases strategy with
  | directional self =>
      simp only [ExitEngine.refreshed, ExitEngine.refreshPositionState,
        PositionRuntime.refreshTrailStop, PositionRuntime.refreshUnderlying,
        PositionRuntime.refreshLeg]
      -- By the first leg, its price, the entry premium and the underlying's.
      rcases hlegs : runtime.position.legStates with _ | ⟨leg, rest⟩
      · rcases market.spot runtime.position.underlying with _ | spot <;> exact ⟨_, _, rfl⟩
      · simp only
        rcases market.quoteMid leg.symbol with _ | mid
        · rcases market.spot runtime.position.underlying with _ | spot <;> exact ⟨_, _, rfl⟩
        · rcases runtime.position.entryPremiumInr with _ | entry <;> simp only <;>
            rcases market.spot runtime.position.underlying with _ | spot <;> exact ⟨_, _, rfl⟩
  | creditVertical self =>
      simp only [ExitEngine.refreshed, ExitEngine.refreshPositionState]
      rcases quotedSum market unwindSign runtime.position.legStates with _ | cost <;>
        exact ⟨_, _, rfl⟩
  | longStraddle self =>
      simp only [ExitEngine.refreshed, ExitEngine.refreshPositionState]
      rcases quotedSum market (fun _ => 1) runtime.position.legStates with _ | total <;>
        exact ⟨_, _, rfl⟩

/-- A first stop is always passed on, and a close or nothing reads no stop at all. -/
theorem translateAction_rest (action : Action) (hstop : runtime.lastTrailStop = none) :
    (engine.translateAction strategy market
        { runtime with troughPnlInr := trough, lastTrailUpdateTs := ts, historyTicks := ticks }
        action).2 = (engine.translateAction strategy market runtime action).2 := by
  have hemit : ∀ stop, engine.shouldEmitTrail
      { runtime with troughPnlInr := trough, lastTrailUpdateTs := ts, historyTicks := ticks } stop
        market.now = true ∧ engine.shouldEmitTrail runtime stop market.now = true := by
    intro stop
    unfold ExitEngine.shouldEmitTrail
    simp only [hstop]
    exact ⟨trivial, trivial⟩
  have hlevel : ∀ candidate, ExitEngine.maybeApplyChandelier strategy candidate
      { runtime with troughPnlInr := trough, lastTrailUpdateTs := ts, historyTicks := ticks } =
        ExitEngine.maybeApplyChandelier strategy candidate runtime := fun _ => rfl
  unfold ExitEngine.translateAction
  simp only
  split
  · rfl
  · rw [if_pos (hemit _).1, if_pos (hemit _).2, hlevel]
  · rfl

/-- While there is no stop on record, a decision does not rest on the trough, the time of
    the last stop or the count of ticks. -/
theorem step_blank (hstop : runtime.lastTrailStop = none) :
    (engine.step
        { runtime with troughPnlInr := trough, lastTrailUpdateTs := ts, historyTicks := ticks }
        market).map Prod.snd = (engine.step runtime market).map Prod.snd := by
  rcases hget : engine.registry.get runtime.position.strategyId with err | strategy
  · simp only [ExitEngine.step, hget]
  · rcases engine.step_ok runtime market strategy hget with ⟨action, hmanage, _, hstep⟩
    rcases engine.step_ok
      { runtime with troughPnlInr := trough, lastTrailUpdateTs := ts, historyTicks := ticks }
      market strategy hget with ⟨action', hmanage', _, hstep'⟩
    rcases refreshed_rest strategy runtime market trough ts ticks with ⟨trough', ticks', hrest⟩
    have hnone := (ExitEngine.refreshed_frame strategy runtime market).2.trans hstop
    rw [hrest] at hmanage' hstep'
    have hsame : action' = action := by
      have hlists := hmanage'.symm.trans hmanage
      exact List.singleton_inj.mp hlists
    rw [hstep, hstep', hsame]
    exact congrArg Except.ok (translateAction_rest engine strategy
      (ExitEngine.refreshed strategy runtime market) market trough' ts ticks' action hnone)

end Decision

section Blank

variable (runtime : PositionRuntime) (market : MarketState)

/-- A record of the other strategies gets nothing at a tick. -/
theorem blank_refreshed (strategy : Strategy) (hother : strategy.id ≠ .directional) :
    (ExitEngine.refreshed strategy runtime market).Blank ↔ runtime.Blank := by
  have hkept : ∃ position, ExitEngine.refreshed strategy runtime market =
      { runtime with position := position, historyTicks := runtime.historyTicks + 1 } := by
    cases strategy with
    | directional self => exact absurd rfl hother
    | creditVertical self =>
        simp only [ExitEngine.refreshed, ExitEngine.refreshPositionState]
        split <;> exact ⟨_, rfl⟩
    | longStraddle self =>
        simp only [ExitEngine.refreshed, ExitEngine.refreshPositionState]
        split <;> exact ⟨_, rfl⟩
  rcases hkept with ⟨position, heq⟩
  rw [heq]
  exact ⟨fun h => ⟨h.1, h.2, h.3, h.4⟩, fun h => ⟨h.1, h.2, h.3, h.4⟩⟩

/-- A directional record has something while the underlying has a price. -/
theorem not_blank_of_spot (self : DirectionalStrategy) (spot : ℚ)
    (hspot : market.spot runtime.position.underlying = some spot) :
    ¬ (ExitEngine.refreshed (.directional self) runtime market).Blank := by
  intro hblank
  have hpeak := hblank.peakUnderlying
  -- The price of the leg is refreshed first, and leaves the underlying's name alone.
  rcases PositionRuntime.refreshLeg_frame
    { runtime with historyTicks := runtime.historyTicks + 1 } market with ⟨_, _, _, _, hleg⟩
  simp only [ExitEngine.refreshed, ExitEngine.refreshPositionState,
    PositionRuntime.refreshTrailStop, hleg, PositionRuntime.refreshUnderlying, hspot,
    reduceCtorEq] at hpeak

end Blank

section Close

variable (s : TradeTrack) (engine : ExitEngine) (e : TrackTick) (before : PositionRuntime)

/-- A close is the only directive of its tick, and leaves the refreshed record. -/
theorem step_close (runtime next : PositionRuntime) (market : MarketState)
    (directives : List ExitDirective)
    (hstep : engine.step runtime market = .ok (next, directives)) (d : ExitDirective)
    (hd : d ∈ directives) (hclose : d.kind = .close) :
    directives = [d] ∧ ∃ strategy, engine.registry.get runtime.position.strategyId = .ok strategy ∧
      next = ExitEngine.refreshed strategy runtime market := by
  rcases hget : engine.registry.get runtime.position.strategyId with err | strategy
  · simp only [ExitEngine.step, hget, reduceCtorEq] at hstep
  · rcases engine.step_ok runtime market strategy hget with ⟨action, _, hplain, htranslate⟩
    rw [hstep, Except.ok.injEq] at htranslate
    cases hplain with
    | close trigger =>
        simp only [ExitEngine.translateAction, Action.closeFor, Prod.mk.injEq] at htranslate
        rw [htranslate.2, List.mem_singleton] at hd
        exact ⟨by rw [htranslate.2, hd], strategy, rfl, htranslate.1⟩
    | trail stop =>
        simp only [ExitEngine.translateAction, Action.trailTo] at htranslate
        -- A trailing stop gives an update or nothing.
        split_ifs at htranslate
        · rw [Prod.mk.injEq] at htranslate
          rw [htranslate.2, List.mem_singleton] at hd
          rw [hd] at hclose
          cases hclose
        · rw [Prod.mk.injEq] at htranslate
          rw [htranslate.2] at hd
          exact absurd hd List.not_mem_nil
    | noOp =>
        simp only [ExitEngine.translateAction, Action.noOp, Prod.mk.injEq] at htranslate
        rw [htranslate.2, List.mem_singleton] at hd
        rw [hd] at hclose
        cases hclose

/-- What a tick whose close fails leaves: the rows, with fresh notes, and no record. -/
theorem failedClose_cases (h : FailedClose s engine e before) :
    ∃ peak, (s.tick engine e).1 =
      { trade := refreshOpenTradeNotes s.trade s.legs e.market.chain peak, legs := s.legs
        runtime := none } := by
  rcases h.stepped with ⟨position, directives, hview, hstep, d, hd, hclose, trigger, request,
    htrigger, hrequest, hfails⟩
  rcases step_close engine _ before e.market directives hstep d hd hclose with ⟨hsingle, _⟩
  have htick := TradeTrack.tick_of_step s engine e h.isOpen position hview before directives hstep
  simp only [hsingle, List.foldl_cons, List.foldl_nil] at htick
  have hcarried : TradeTrack.carryOut { s with runtime := some before } e d =
      { trade := s.trade, legs := s.legs, runtime := none } := by
    unfold TradeTrack.carryOut persistExit
    simp only [hclose, htrigger, hrequest, hfails, Bool.not_false, if_true]
  rw [hcarried] at htick
  exact ⟨_, congrArg Prod.fst htick⟩

/-- The record is kept just when there was nothing in it. -/
theorem exitStateKept_iff (h : FailedClose s engine e before) :
    ExitStateKept s engine e before ↔ before.Blank := by
  rcases failedClose_cases s engine e before h with ⟨peak, hafter⟩
  have hload : ∀ position, (s.tick engine e).1.load position = { position := position } := by
    intro position
    rw [hafter]
    rfl
  constructor
  · intro hkept
    rcases hkept.record before.position with ⟨hpeak, hup, hdown, hstop⟩
    rw [hload] at hpeak hup hdown hstop
    exact ⟨hpeak.symm, hup.symm, hdown.symm, hstop.symm⟩
  · intro hblank
    refine ⟨?_, by rw [hafter], fun position => ?_, fun position market => ?_⟩
    · rw [hafter]
      exact (refreshOpenTradeNotes_status _ _ _ _).trans h.isOpen
    · rw [hload]
      exact ⟨hblank.1.symm, hblank.2.symm, hblank.3.symm, hblank.4.symm⟩
    · -- The new record and the old one differ in what no decision rests on.
      have hrest := step_blank engine { before with position := position } market 0 none 0
        hblank.lastTrailStop
      rw [hload, ← hrest]
      simp only [hblank.peakPnlInr, hblank.peakUnderlying, hblank.troughUnderlying,
        hblank.lastTrailStop]

/-- The step of a tick. -/
def stepOf : Except PyError (PositionRuntime × List ExitDirective) :=
  match tradeToPositionState s.trade s.legs e.market.chain e.market.now with
  | .error err => .error err
  | .ok position => engine.step (s.load position) e.market

/-- A tick whose only directive is a close, the exit of which fails. -/
theorem failedClose_of (trigger : ExitTrigger) (request : ExitRequest)
    (hopen : s.trade.status = .«open»)
    (hclose : (stepOf s engine e).map (fun r => r.2.map (fun d => (d.kind, d.trigger))) =
      .ok [(.close, some trigger)])
    (hrequest : exitRequest s.trade s.legs trigger e.market.now = .ok request)
    (hfails : (e.execute request).success = false) :
    ∃ before directives, stepOf s engine e = .ok (before, directives) ∧
      FailedClose s engine e before := by
  rcases hstep : stepOf s engine e with err | ⟨before, directives⟩
  · rw [hstep] at hclose
    cases hclose
  · rw [hstep] at hclose
    simp only [Except.map, Except.ok.injEq, List.map_eq_singleton_iff, Prod.mk.injEq] at hclose
    rcases hclose with ⟨d, hd, hkind, htrigger⟩
    refine ⟨before, directives, rfl, hopen, ?_⟩
    unfold stepOf at hstep
    split at hstep
    · cases hstep
    · next position hview =>
      refine ⟨position, directives, hview, hstep, d, ?_, hkind, trigger, request, htrigger,
        hrequest, hfails⟩
      rw [hd]
      exact List.mem_singleton_self d

end Close

/-- The close of the put, which fails at any price. -/
theorem put_fails (e : TrackTick)
    (he : e.market.now = (TradeTrack.putTick 40).market.now ∧
      e.execute = (TradeTrack.putTick 40).execute)
    (hclose : (stepOf TradeTrack.putTrade trailEngine e).map
      (fun r => r.2.map (fun d => (d.kind, d.trigger))) = .ok [(.close, some .premiumStop)]) :
    ∃ before directives, stepOf TradeTrack.putTrade trailEngine e = .ok (before, directives) ∧
      FailedClose TradeTrack.putTrade trailEngine e before := by
  rcases hrequest : exitRequest TradeTrack.putTrade.trade TradeTrack.putTrade.legs .premiumStop
    e.market.now with err | request
  · rw [he.1] at hrequest
    cases hrequest
  · refine failedClose_of _ _ e .premiumStop request rfl hclose hrequest ?_
    rw [he.2]
    rfl

/-- The put at a price, while the underlying has none. -/
def unmarkedTick (mid : ℚ) : TrackTick :=
  { TradeTrack.putTick mid with
    market := { (TradeTrack.putTick mid).market with underlyingMarks := fun _ => none } }

/-- The put is closed at a loss while the underlying has no price, and nothing is lost. -/
theorem exitStateKept_iff_unmarked : ∃ before,
    FailedClose TradeTrack.putTrade trailEngine (unmarkedTick 40) before ∧
      ExitStateKept TradeTrack.putTrade trailEngine (unmarkedTick 40) before := by
  rcases put_fails (unmarkedTick 40) ⟨rfl, rfl⟩ (by decide) with
    ⟨before, directives, hstep, hfailed⟩
  have hrecord : (stepOf TradeTrack.putTrade trailEngine (unmarkedTick 40)).map (fun r =>
      (r.1.peakPnlInr, r.1.peakUnderlying, r.1.troughUnderlying, r.1.lastTrailStop)) =
        .ok (0, none, none, none) := by decide
  rw [hstep] at hrecord
  simp only [Except.map, Except.ok.injEq, Prod.mk.injEq] at hrecord
  rcases hrecord with ⟨hpeak, hup, hdown, hstop⟩
  exact ⟨before, hfailed,
    (exitStateKept_iff _ _ _ before hfailed).mpr ⟨hpeak, hup, hdown, hstop⟩⟩

/-- The put is closed at 40 with the underlying at 100000, and the exit fails. The next
    record does not have that price. -/
theorem failed_exit_forgets : ¬ ∀ (s : TradeTrack) (engine : ExitEngine) (e : TrackTick)
    (before : PositionRuntime), FailedClose s engine e before →
      ExitStateKept s engine e before := by
  intro hall
  rcases put_fails (TradeTrack.putTick 40) ⟨rfl, rfl⟩ (by decide) with
    ⟨before, directives, hstep, hfailed⟩
  have hpeak : (stepOf TradeTrack.putTrade trailEngine (TradeTrack.putTick 40)).map
      (fun r => r.1.peakUnderlying) = .ok (some 100000) := by decide
  rw [hstep] at hpeak
  simp only [Except.map, Except.ok.injEq] at hpeak
  have hkept := ((hall _ _ _ before hfailed).record before.position).2.1
  rcases failedClose_cases _ _ _ before hfailed with ⟨_, hafter⟩
  rw [hafter, hpeak] at hkept
  cases hkept

end OptionsBot
