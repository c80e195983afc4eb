import OptionsBot.Core.ExitEngine
import OptionsBot.Lib.Run

/-!
# Where a Trailing Stop Is Set

A trailing stop is a price of the option: `manage` proposes the entry premium and
later compares the stop with the option's middle price. In between the engine
combines the proposal with a level a few ranges below the peak of the
*underlying*, or above its trough, which is a price of another thing. For a call
the higher of the two becomes the stop, so as a rule it is the underlying's level,
far above any premium, and the next tick closes the position.

A run is followed with the middle price at the moment the stop was last set. The
invariant is that the stop lies below that price; as long as it does, a close at
the stop means that the price has fallen.

## Main definitions

* `TrailState`: The engine's record, and the price when the stop was last set.
* `trailStep`: One tick.
* `StopBelowMid`: The combined stop lies below a price.
* `ClearTick`: A stop proposed at a tick would be set below the price.
* `SoundTick`: What a tick's stops and closes should satisfy.

## Theorems

* `chandelier_lt_iff`: When the combined stop lies below a price.
* `trailStep_keeps`: A clear tick keeps the stop below the price it was set at.
* `run_soundTick`: On clear ticks, a stop never closes a price that has not
  fallen.
-/

namespace OptionsBot

-- The sample runs below compute with rationals.
attribute [local semireducible] Rat.add Rat.sub Rat.mul Rat.inv

/-- The middle price of the leg the strategy manages. -/
def legMid (position : PositionState) : Option ℚ :=
  position.legStates.head?.bind LegState.currentMid

/-- The engine's record of a position, and the leg's price when the stop was last
    set. -/
structure TrailState where
  runtime : PositionRuntime
  midAtSet : Option ℚ := none

/-- A tick: the view of the position, if it is rebuilt, and the market. -/
structure TrailTick where
  position : Option PositionState
  market : MarketState

namespace TrailState

/-- The record a tick's step starts from. -/
def load (s : TrailState) (e : TrailTick) : PositionRuntime :=
  match e.position with
  | none => s.runtime
  | some position => { s.runtime with position := position }

end TrailState

/-- One tick. A step that raises leaves the record as it was. -/
def trailStep (engine : ExitEngine) (s : TrailState) (e : TrailTick) : TrailState :=
  match engine.step (s.load e) e.market with
  | .error _ => s
  | .ok (next, directives) =>
    { runtime := next
      midAtSet := if directives.any (fun d => d.kind = .updateStop) then legMid next.position
        else s.midAtSet }

/-- The combined stop lies below a price: for a call both the premium and the
    level under the underlying's peak do, for a put one of the premium and the
    level over its trough. -/
def StopBelowMid (self : DirectionalStrategy) (runtime : PositionRuntime) (entry mid : ℚ) : Prop :=
  match runtime.position.entryAtr, runtime.peakUnderlying, runtime.position.legStates with
  | some atr, some peak, leg :: _ =>
    let reach := self.config.exits.trailChandelierAtrMult * atr
    if leg.optionType = some .call then entry < mid ∧ peak - reach < mid
    else entry < mid ∨ orFloat runtime.troughUnderlying peak + reach < mid
  | _, _, _ => entry < mid

/-- The position is a directional one, and a stop proposed at the tick would be
    set below the leg's price. -/
structure ClearTick (engine : ExitEngine) (strategy : DirectionalStrategy) (s : TrailState)
    (e : TrailTick) : Prop where
  registered : engine.registry.get (s.load e).position.strategyId = .ok (.directional strategy)
  below : ∀ entry mid,
    let refreshed := ExitEngine.refreshed (.directional strategy) (s.load e) e.market
    Action.trailTo entry ∈ strategy.manage refreshed.position e.market →
    legMid refreshed.position = some mid → StopBelowMid strategy refreshed entry mid

/-- Every stop a tick sets is at or below the leg's price, and a close at the
    trailing stop has the price below the one the stop was set at. -/
structure SoundTick (engine : ExitEngine) (s : TrailState) (e : TrailTick) : Prop where
  stop : ∀ next directives, engine.step (s.load e) e.market = .ok (next, directives) →
    ∀ d ∈ directives, d.kind = .updateStop →
      ∃ stop mid, d.newStopPrice = some stop ∧ legMid next.position = some mid ∧ stop ≤ mid
  close : ∀ next directives, engine.step (s.load e) e.market = .ok (next, directives) →
    ∀ d ∈ directives, d.trigger = some .trailBreakeven →
      ∃ mid set, legMid next.position = some mid ∧ s.midAtSet = some set ∧ mid < set

/-- The stop, if there is one, lies below the price it was set at. -/
def StopBelowSet (s : TrailState) : Prop :=
  ∀ stop, s.runtime.lastTrailStop = some stop → ∃ set, s.midAtSet = some set ∧ stop < set

theorem chandelier_lt_iff (self : DirectionalStrategy) (runtime : PositionRuntime)
    (entry mid : ℚ) :
    ExitEngine.maybeApplyChandelier (.directional self) entry runtime < mid ↔
      StopBelowMid self runtime entry mid := by
  unfold ExitEngine.maybeApplyChandelier StopBelowMid
  rcases hatr : runtime.position.entryAtr with _ | atr
  · exact Iff.rfl
  · rcases hpeak : runtime.peakUnderlying with _ | peak
    · exact Iff.rfl
    · rcases hlegs : runtime.position.legStates with _ | ⟨leg, rest⟩
      · exact Iff.rfl
      · simp only
        by_cases hcall : leg.optionType = some .call
        · rw [if_pos hcall, if_pos hcall]
          exact max_lt_iff
        · rw [if_neg hcall, if_neg hcall]
          exact min_lt_iff

/-- The refresh keeps the engine's stop and shows it to the strategy. -/
theorem refreshed_trailStop (self : DirectionalStrategy) (runtime : PositionRuntime)
    (market : MarketState) :
    (ExitEngine.refreshed (.directional self) runtime market).lastTrailStop =
        runtime.lastTrailStop ∧
      (ExitEngine.refreshed (.directional self) runtime market).position.currentTrailStopPrice =
        runtime.lastTrailStop := by
  have hlast := (ExitEngine.refreshed_frame (.directional self) runtime market).2
  -- The last part of the refresh copies the stop into the position.
  have hshown :
      (ExitEngine.refreshed (.directional self) runtime market).position.currentTrailStopPrice =
        (ExitEngine.refreshed (.directional self) runtime market).lastTrailStop := rfl
  exact ⟨hlast, hshown.trans hlast⟩

section Tick

variable (engine : ExitEngine) (self : DirectionalStrategy) (s : TrailState) (e : TrailTick)

/-- The tick's record has the engine's stop. -/
theorem load_trailStop : (s.load e).lastTrailStop = s.runtime.lastTrailStop := by
  unfold TrailState.load
  split
  · rfl
  · rfl

/-- What a tick on a directional position does: it keeps the stop, and closes at
    it only with the price at or below it, or it sets a stop. -/
theorem step_directional
    (hget : engine.registry.get (s.load e).position.strategyId = .ok (.directional self))
    (next : PositionRuntime) (directives : List ExitDirective)
    (hstep : engine.step (s.load e) e.market = .ok (next, directives)) :
    (next.lastTrailStop = s.runtime.lastTrailStop ∧
      (∀ d ∈ directives, d.kind ≠ .updateStop) ∧
      (∀ d ∈ directives, d.trigger = some .trailBreakeven →
        ∃ mid stop, legMid next.position = some mid ∧ s.runtime.lastTrailStop = some stop ∧
          mid ≤ stop)) ∨
    ∃ entry mid, Action.trailTo entry ∈ self.manage
        (ExitEngine.refreshed (.directional self) (s.load e) e.market).position e.market ∧
      legMid next.position = some mid ∧
      next.position = (ExitEngine.refreshed (.directional self) (s.load e) e.market).position ∧
      next.lastTrailStop = some (ExitEngine.maybeApplyChandelier (.directional self) entry
        (ExitEngine.refreshed (.directional self) (s.load e) e.market)) ∧
      directives = [{ tradeId := next.position.tradeId, kind := .updateStop,
                      newStopPrice := next.lastTrailStop }] := by
  -- The step works on the refreshed record, and `manage` answers with one plain action.
  have hposition := engine.step_position (s.load e) next e.market _ directives hget hstep
  have hrefresh := refreshed_trailStop self (s.load e) e.market
  rw [load_trailStop] at hrefresh
  rcases engine.step_ok (s.load e) e.market _ hget with ⟨action, hmanage, hplain, htranslate⟩
  rw [hstep, Except.ok.injEq] at htranslate
  simp only [Strategy.manage] at hmanage
  have hmem : action ∈ self.manage
      (ExitEngine.refreshed (.directional self) (s.load e) e.market).position e.market := by
    rw [hmanage]
    exact List.mem_singleton.mpr rfl
  cases hplain with
  | close reason =>
      left
      -- A close is passed on for its reason, and sets no stop.
      simp only [ExitEngine.translateAction, Action.closeFor, Option.getD_some,
        Prod.mk.injEq] at htranslate
      rw [htranslate.1, htranslate.2]
      refine ⟨hrefresh.1, ?_, ?_⟩
      · intro d hd
        rw [List.mem_singleton.mp hd]
        exact fun h => ExitKind.noConfusion h
      · intro d hd ht
        rw [List.mem_singleton.mp hd] at ht
        cases ht
        -- At the trailing stop, the price was compared with the stop the engine shows.
        rcases self.manage_priced _ _ _ hmem (by decide) (by decide) with
          ⟨leg, rest, mid, entry, hlegs, hmid, _, hpriced⟩
        rcases self.managePriced_breakeven _ _ _ _ _ hpriced with ⟨stop, hstop, hle⟩
        refine ⟨mid, stop, ?_, ?_, hle⟩
        · rw [legMid, hlegs]
          exact hmid
        · rw [← hrefresh.2]
          exact hstop
  | trail candidate =>
      rcases self.manage_priced _ _ _ hmem (fun h => by cases h) (fun h => by cases h) with
        ⟨leg, rest, mid, entry, hlegs, hmid, _, _⟩
      have hlegMid : legMid next.position = some mid := by
        rw [hposition, legMid, hlegs]
        exact hmid
      simp only [ExitEngine.translateAction, Action.trailTo] at htranslate
      -- A proposal within the throttle, or too close to the last stop, is dropped.
      split_ifs at htranslate with hemit
      · right
        rw [Prod.mk.injEq] at htranslate
        refine ⟨candidate, mid, hmem, hlegMid, hposition, ?_, ?_⟩
        · rw [htranslate.1]
        · rw [htranslate.2, hposition, htranslate.1]
      · left
        rw [Prod.mk.injEq] at htranslate
        rw [htranslate.1, htranslate.2]
        exact ⟨hrefresh.1, fun d hd => absurd hd List.not_mem_nil,
          fun d hd => absurd hd List.not_mem_nil⟩
  | noOp =>
      left
      -- Nothing to do is one directive of its own, without a stop or a trigger.
      simp only [ExitEngine.translateAction, Action.noOp, Prod.mk.injEq] at htranslate
      rw [htranslate.1, htranslate.2]
      refine ⟨hrefresh.1, ?_, ?_⟩
      · intro d hd
        rw [List.mem_singleton.mp hd]
        exact fun h => ExitKind.noConfusion h
      · intro d hd ht
        rw [List.mem_singleton.mp hd] at ht
        cases ht

/-- On a clear tick, a stop that is set lies below the leg's price. -/
theorem set_below (hclear : ClearTick engine self s e) (entry mid : ℚ) (next : PositionRuntime)
    (hmem : Action.trailTo entry ∈ self.manage
      (ExitEngine.refreshed (.directional self) (s.load e) e.market).position e.market)
    (hmid : legMid next.position = some mid)
    (hposition : next.position =
      (ExitEngine.refreshed (.directional self) (s.load e) e.market).position) :
    ExitEngine.maybeApplyChandelier (.directional self) entry
      (ExitEngine.refreshed (.directional self) (s.load e) e.market) < mid := by
  rw [chandelier_lt_iff]
  rw [hposition] at hmid
  exact hclear.below entry mid hmem hmid

theorem trailStep_keeps (hclear : ClearTick engine self s e) (h : StopBelowSet s) :
    StopBelowSet (trailStep engine s e) := by
  intro stop hstop
  unfold trailStep at hstop ⊢
  rcases hstep : engine.step (s.load e) e.market with err | ⟨next, directives⟩
  · simp only [hstep] at hstop ⊢
    exact h stop hstop
  · simp only [hstep] at hstop ⊢
    rcases step_directional engine self s e hclear.registered next directives hstep with
      ⟨hkeep, hkinds, _⟩ | ⟨entry, mid, hmem, hmid, hposition, hlast, hdirectives⟩
    · -- No stop is set: the old one and its price stay.
      have hnone : directives.any (fun d => d.kind = .updateStop) = false := by
        rw [List.any_eq_false]
        intro d hd
        rw [decide_eq_true_iff]
        exact hkinds d hd
      rw [hnone]
      rw [hkeep] at hstop
      exact h stop hstop
    · -- A stop is set, and the price of this tick is recorded with it.
      have hset : directives.any (fun d => d.kind = .updateStop) = true := by
        rw [hdirectives]
        rfl
      rw [hset]
      rw [hlast, Option.some.injEq] at hstop
      refine ⟨mid, hmid, ?_⟩
      rw [← hstop]
      exact set_below engine self s e hclear entry mid next hmem hmid hposition

theorem clear_soundTick (hclear : ClearTick engine self s e) (h : StopBelowSet s) :
    SoundTick engine s e := by
  constructor
  · intro next directives hstep d hd hkind
    rcases step_directional engine self s e hclear.registered next directives hstep with
      ⟨_, hkinds, _⟩ | ⟨entry, mid, hmem, hmid, hposition, hlast, hdirectives⟩
    · exact absurd hkind (hkinds d hd)
    · rw [hdirectives, List.mem_singleton] at hd
      have hbelow := set_below engine self s e hclear entry mid next hmem hmid hposition
      refine ⟨_, mid, ?_, hmid, hbelow.le⟩
      rw [hd, hlast]
  · intro next directives hstep d hd ht
    rcases step_directional engine self s e hclear.registered next directives hstep with
      ⟨_, _, hcloses⟩ | ⟨_, _, _, _, _, _, hdirectives⟩
    · -- The price is at or below the stop, which lies below the price it was set at.
      rcases hcloses d hd ht with ⟨mid, stop, hmid, hstop, hle⟩
      rcases h stop hstop with ⟨set, hset, hlt⟩
      exact ⟨mid, set, hmid, hset, lt_of_le_of_lt hle hlt⟩
    · rw [hdirectives, List.mem_singleton] at hd
      rw [hd] at ht
      cases ht

/-- From a position without a stop, over clear ticks only, every stop is set at or
    below the leg's price, and none closes a position whose price has not fallen
    since. -/
theorem run_soundTick (start : TrailState) (hfresh : start.runtime.lastTrailStop = none)
    (hrun : Run (trailStep engine) (ClearTick engine self) start s)
    (hclear : ClearTick engine self s e) : SoundTick engine s e := by
  have hstart : StopBelowSet start := by
    intro stop hstop
    rw [hfresh] at hstop
    cases hstop
  exact clear_soundTick engine self s e hclear
    (hrun.invariant StopBelowSet (fun a x hx ha => trailStep_keeps engine self a x hx ha) hstart)

end Tick

/-- The shipped directional strategy, with the model's default target. -/
def trailStrategy : DirectionalStrategy :=
  { config :=
      { shippedDirectionalConfig with
        exits := { shippedDirectionalExits with targetR := 2, targetR_pos := zero_lt_two } } }

def trailEngine : ExitEngine :=
  { registry := { strategies := [.directional trailStrategy],
                  distinct := List.nodup_singleton _ } }

/-- Three options bought at 100 with the underlying at 100000 and a range of 200. -/
def longOption (optionType : OptionType) : PositionState :=
  { tradeId := 1, strategyId := .directional, underlying := .btc,
    expiry := combine (ymdToOrdinal 2026 5 13) (hourMinute 10 0), lots := 3,
    entryTs := combine (ymdToOrdinal 2026 5 12) (hourMinute 9 30),
    entryPremiumInr := some 100, entryUnderlyingPrice := some 100000, entryAtr := some 200,
    legStates := [{ symbol := "BTC-100000-130526", optionType := some optionType,
                    currentMid := none }] }

/-- The option at a price, with the underlying at 100000. -/
def optionTick (mid : ℚ) : TrailTick :=
  { position := none
    market :=
      { now := combine (ymdToOrdinal 2026 5 12) (hourMinute 10 0)
        chain := ChainCache.empty
        candlesByTf := fun _ _ => []
        underlyingMarks := fun _ => some 100000
        quoteFor := fun _ => some { markPrice := some mid } } }

/-- A position the engine has not stepped yet. -/
def freshOption (optionType : OptionType) : TrailState :=
  { runtime := { position := longOption optionType } }

/-- On a bought put at 201 the stop is set at 100, and at 90 it closes. -/
theorem run_soundTick_put : SoundTick trailEngine
    (trailStep trailEngine (freshOption .put) (optionTick 201)) (optionTick 90) := by
  have hset : ClearTick trailEngine trailStrategy (freshOption .put) (optionTick 201) := by
    refine ⟨rfl, ?_⟩
    intro entry mid refreshed hmem hmid
    have hmanage : trailStrategy.manage refreshed.position (optionTick 201).market =
        [.trailTo 100] := by decide
    have hprice : legMid refreshed.position = some 201 := by decide
    rw [hmanage] at hmem
    rw [hprice] at hmid
    cases List.mem_singleton.mp hmem
    cases hmid
    rw [← chandelier_lt_iff]
    decide
  have hclose : ClearTick trailEngine trailStrategy
      (trailStep trailEngine (freshOption .put) (optionTick 201)) (optionTick 90) := by
    have hid : ((trailStep trailEngine (freshOption .put) (optionTick 201)).load
        (optionTick 90)).position.strategyId = .directional := by decide
    refine ⟨by rw [hid]; rfl, ?_⟩
    intro entry mid refreshed hmem hmid
    have hmanage : trailStrategy.manage refreshed.position (optionTick 90).market =
        [.closeFor .trailBreakeven] := by decide
    rw [hmanage] at hmem
    cases List.mem_singleton.mp hmem
  exact run_soundTick trailEngine trailStrategy _ (optionTick 90) (freshOption .put) rfl
    (Run.single _ _ hset) hclose

/-- On a bought call at 201 the stop is set at the underlying's 99600. -/
theorem call_stop_above_mid :
    ¬ ∀ (engine : ExitEngine) (self : DirectionalStrategy) (start s : TrailState) (e : TrailTick),
      start.runtime.lastTrailStop = none →
      Run (trailStep engine) (fun s e => engine.registry.get (s.load e).position.strategyId =
        .ok (.directional self)) start s →
      engine.registry.get (s.load e).position.strategyId = .ok (.directional self) →
      SoundTick engine s e := by
  intro hall
  have hsound := hall trailEngine trailStrategy (freshOption .call) (freshOption .call)
    (optionTick 201) rfl (Run.refl _) rfl
  -- The directive carries a level of the underlying, far above the option's price.
  have hstep : (trailEngine.step ((freshOption .call).load (optionTick 201))
      (optionTick 201).market).map (fun r => (legMid r.1.position,
        r.2.map (fun d => (d.kind, d.newStopPrice)))) =
      .ok (some 201, [(.updateStop, some 99600)]) := by decide
  rcases h : trailEngine.step ((freshOption .call).load (optionTick 201)) (optionTick 201).market
    with err | ⟨next, directives⟩
  · rw [h] at hstep
    cases hstep
  · rw [h] at hstep
    simp only [Except.map, Except.ok.injEq, Prod.mk.injEq] at hstep
    rcases List.map_eq_singleton_iff.mp hstep.2 with ⟨d, hd, hkind⟩
    rw [Prod.mk.injEq] at hkind
    rcases hsound.stop next directives h d (by rw [hd]; exact List.mem_singleton.mpr rfl) hkind.1
      with ⟨stop, mid, hstop, hmid, hle⟩
    rw [hkind.2, Option.some.injEq] at hstop
    rw [hstep.1, Option.some.injEq] at hmid
    rw [← hstop, ← hmid] at hle
    norm_num at hle

end OptionsBot
