import OptionsBot.Theory.TrailStop

/-!
# An Armed Stop Stays Where It Is

A trailing stop is to follow the underlying: once the break-even stop is set, each
new extreme implies a level nearer to it, and when the throttle allows and the
level is tighter than the last stop, the stop is to be moved there.

The engine has what that takes, the throttle and the comparison. But it applies
them to a stop the strategy proposes, and the strategy proposes one only while the
position shows none. The position shows the stop the engine set last. So from the
moment a stop is set there is no other, and a tick at which the stop is due to
move does nothing.

## Main definitions

* `chandelierLevel`: The level the underlying's extreme implies.
* `Tighter`: A stop nearer to the underlying, by more than the tolerance.
* `RatchetDue`: The stop is due to move at a tick.
* `RatchetTick`: What a tick should do with an armed stop.

## Theorems

* `step_plain`: All a tick can do with a directional position.
* `armed_step`: With a stop set, a tick closes or does nothing.
* `armed_due`: A stop that is set does not move when it is due to.
* `run_armed`: A stop that is set stays where it is.
* `ratchetTick_iff`: Exactly the ticks at which the stop is due to move go wrong.
-/

namespace OptionsBot

-- The sample runs below compute with rationals.
attribute [local semireducible] Rat.add Rat.sub Rat.mul Rat.inv

/-- The level a multiple of the entry's range away from the underlying's extreme. -/
def chandelierLevel (self : DirectionalStrategy) (runtime : PositionRuntime) : Option ℚ :=
  match runtime.position.entryAtr, runtime.peakUnderlying, runtime.position.legStates with
  | some atr, some peak, leg :: _ =>
    let reach := self.config.exits.trailChandelierAtrMult * atr
    some (if leg.optionType = some .call then peak - reach
      else orFloat runtime.troughUnderlying peak + reach)
  | _, _, _ => none

/-- The position is a bought call. -/
def PositionState.IsCall (position : PositionState) : Prop :=
  position.legStates.head?.bind LegState.optionType = some .call

instance (position : PositionState) : Decidable position.IsCall :=
  inferInstanceAs (Decidable (position.legStates.head?.bind LegState.optionType = some .call))

/-- A stop is tighter than another by more than the tolerance: higher for a call,
    lower for a put. -/
def Tighter (position : PositionState) (last stop : ℚ) : Prop :=
  if position.IsCall then last + 1 / 1000000 < stop else stop < last - 1 / 1000000

/-- A stop is not on the holder's wrong side of another. -/
def NotLooser (position : PositionState) (last stop : ℚ) : Prop :=
  if position.IsCall then last ≤ stop else stop ≤ last

/-- All a tick can do with a directional position: close it, set the first stop, or
    nothing. -/
theorem step_plain (engine : ExitEngine) (self : DirectionalStrategy)
    (runtime seen : PositionRuntime) (market : MarketState)
    (hget : engine.registry.get runtime.position.strategyId = .ok (.directional self))
    (hseen : seen = ExitEngine.refreshed (.directional self) runtime market) :
    ∃ action, self.manage seen.position market = [action] ∧
      ((∃ trigger, action = .closeFor trigger ∧
          engine.step runtime market = .ok (seen,
            [{ tradeId := seen.position.tradeId, kind := .close, trigger := some trigger,
               legStates := seen.position.legStates }])) ∨
        (∃ entry, action = .trailTo entry ∧ runtime.lastTrailStop = none ∧
          engine.step runtime market =
            .ok ({ seen with
                lastTrailStop :=
                  some (ExitEngine.maybeApplyChandelier (.directional self) entry seen)
                lastTrailUpdateTs := some market.now },
              [{ tradeId := seen.position.tradeId, kind := .updateStop,
                 newStopPrice :=
                   some (ExitEngine.maybeApplyChandelier (.directional self) entry seen) }])) ∨
        (action = .noOp ∧ engine.step runtime market = .ok (seen,
          [{ tradeId := seen.position.tradeId, kind := .noOp }]))) := by
  rcases engine.step_ok runtime market _ hget with ⟨action, hmanage, hplain, htranslate⟩
  rw [← hseen] at hmanage htranslate
  refine ⟨action, hmanage, ?_⟩
  rw [htranslate]
  cases hplain with
  | close trigger => exact Or.inl ⟨trigger, rfl, rfl⟩
  | trail entry =>
      rcases refreshed_trailStop self runtime market with ⟨hlast, hshown⟩
      rw [← hseen] at hlast hshown
      have hmem : Action.trailTo entry ∈ self.manage seen.position market := by
        rw [show self.manage seen.position market = [.trailTo entry] from hmanage]
        exact List.mem_singleton.mpr rfl
      have hnone := hshown.symm.trans (self.manage_trail _ _ _ hmem).1
      -- The first stop is passed on whatever the throttle says.
      have hemit : engine.shouldEmitTrail seen
          (ExitEngine.maybeApplyChandelier (.directional self) entry seen) market.now = true := by
        unfold ExitEngine.shouldEmitTrail
        rw [hlast, hnone]
      refine Or.inr (Or.inl ⟨entry, rfl, hnone, ?_⟩)
      simp only [ExitEngine.translateAction, Action.trailTo]
      exact congrArg Except.ok (if_pos hemit)
  | noOp => exact Or.inr (Or.inr ⟨rfl, rfl⟩)

section Tick

variable (engine : ExitEngine) (self : DirectionalStrategy) (s : TrailState) (e : TrailTick)

/-- The record `manage` is called with at a tick. -/
def TrailState.seen (s : TrailState) (e : TrailTick) : PositionRuntime :=
  ExitEngine.refreshed (.directional self) (s.load e) e.market

/-- The throttle has elapsed, the underlying's extreme implies a tighter stop than
    the last, and the position is not closed at the tick. -/
def RatchetDue (level : ℚ) : Prop :=
  ∃ last, s.runtime.lastTrailStop = some last ∧
    chandelierLevel self (s.seen self e) = some level ∧
    (∀ ts, s.runtime.lastTrailUpdateTs = some ts →
      engine.throttle ≤ e.market.now.secondsSince ts) ∧
    Tighter (s.seen self e).position last level ∧
    ∀ trigger, Action.closeFor trigger ∉ self.manage (s.seen self e).position e.market

/-- A tick leaves an armed stop or tightens it, and moves it to the level it is due
    to move to. -/
structure RatchetTick : Prop where
  tightens : ∀ next directives, engine.step (s.load e) e.market = .ok (next, directives) →
    ∀ last, s.runtime.lastTrailStop = some last →
      ∃ stop, next.lastTrailStop = some stop ∧ NotLooser next.position last stop
  moves : ∀ next directives, engine.step (s.load e) e.market = .ok (next, directives) →
    ∀ level, RatchetDue engine self s e level →
      ∃ d ∈ directives, d.kind = .updateStop ∧ d.newStopPrice = some level

/-- With a stop set, a tick closes the position or does nothing. -/
theorem armed_step (hget : engine.registry.get (s.load e).position.strategyId =
      .ok (.directional self)) (last : ℚ) (harmed : s.runtime.lastTrailStop = some last) :
    ∃ d : ExitDirective, engine.step (s.load e) e.market = .ok (s.seen self e, [d]) ∧
      d.kind ≠ .updateStop := by
  rcases step_plain engine self (s.load e) (s.seen self e) e.market hget rfl with
    ⟨_, _, ⟨trigger, _, hstep⟩ | ⟨_, _, hnone, _⟩ | ⟨_, hstep⟩⟩
  · exact ⟨_, hstep, ExitKind.noConfusion⟩
  · -- A stop is only set where there is none.
    rw [load_trailStop, harmed] at hnone
    cases hnone
  · exact ⟨_, hstep, ExitKind.noConfusion⟩

/-- A stop that is set stays where it is, over any ticks. -/
theorem run_armed (start : TrailState) (last : ℚ)
    (harmed : start.runtime.lastTrailStop = some last)
    (hrun : Run (trailStep engine) (fun a x => engine.registry.get (a.load x).position.strategyId =
      .ok (.directional self)) start s) : s.runtime.lastTrailStop = some last := by
  refine hrun.invariant (fun a => a.runtime.lastTrailStop = some last) (fun a x hget ha => ?_)
    harmed
  rcases armed_step engine self a x hget last ha with ⟨d, hstep, _⟩
  simp only [trailStep, hstep]
  rw [TrailState.seen, (refreshed_trailStop self (a.load x) x.market).1, load_trailStop]
  exact ha

/-- A stop that is set does not move when it is due to. -/
theorem armed_due (hget : engine.registry.get (s.load e).position.strategyId =
      .ok (.directional self)) (last : ℚ) (harmed : s.runtime.lastTrailStop = some last) (level : ℚ)
    (hdue : RatchetDue engine self s e level) : ¬ RatchetTick engine self s e := by
  rcases armed_step engine self s e hget last harmed with ⟨d, hstep, hkind⟩
  rintro ⟨_, hmoves⟩
  rcases hmoves _ _ hstep level hdue with ⟨d', hd', hupdate, _⟩
  rw [List.mem_singleton.mp hd'] at hupdate
  exact hkind hupdate

/-- After any ticks on an armed stop, a tick goes wrong exactly when the stop is due
    to move at it. -/
theorem ratchetTick_iff (start : TrailState)
    (harmed : ∃ last, start.runtime.lastTrailStop = some last)
    (hrun : Run (trailStep engine) (fun a x => engine.registry.get (a.load x).position.strategyId =
      .ok (.directional self)) start s)
    (hget : engine.registry.get (s.load e).position.strategyId = .ok (.directional self)) :
    RatchetTick engine self s e ↔ ∀ level, ¬ RatchetDue engine self s e level := by
  rcases harmed with ⟨last, hlast⟩
  have harmed := run_armed engine self s start last hlast hrun
  rcases armed_step engine self s e hget last harmed with ⟨d, hstep, _⟩
  constructor
  · exact fun htick level hdue => armed_due engine self s e hget last harmed level hdue htick
  · intro hnever
    refine ⟨fun next directives hnext old hold => ?_, fun _ _ _ level hdue => ?_⟩
    · rw [hstep, Except.ok.injEq, Prod.mk.injEq] at hnext
      rw [← hnext.1]
      have hkept : (s.seen self e).lastTrailStop = some old := by
        rw [TrailState.seen, (refreshed_trailStop self (s.load e) e.market).1, load_trailStop, hold]
      refine ⟨old, hkept, ?_⟩
      unfold NotLooser
      split_ifs <;> exact le_rfl
    · exact absurd hdue (hnever level)

end Tick

/-- A put bought at 100 whose stop has been set there, at a later price of 150. -/
theorem ratchetTick_iff_put : RatchetTick trailEngine trailStrategy
    (trailStep trailEngine (freshOption .put) (optionTick 201)) (optionTick 150) := by
  have hstop : (trailStep trailEngine (freshOption .put) (optionTick 201)).runtime.lastTrailStop =
      some 100 := by decide
  have hid : ((trailStep trailEngine (freshOption .put) (optionTick 201)).load
      (optionTick 150)).position.strategyId = .directional := by decide
  refine (ratchetTick_iff trailEngine trailStrategy _ (optionTick 150) _ ⟨100, hstop⟩ (Run.refl _)
    (by rw [hid]; rfl)).mpr ?_
  rintro level ⟨last, hlast, hlevel, _, htighter, _⟩
  cases hstop.symm.trans hlast
  -- The level over the trough is 100400, and a put's stop tightens downwards.
  have hvalue : chandelierLevel trailStrategy
      ((trailStep trailEngine (freshOption .put) (optionTick 201)).seen trailStrategy
        (optionTick 150)) = some 100400 := by decide
  cases hvalue.symm.trans hlevel
  revert htighter
  unfold Tighter
  decide

/-- Three puts on Ether, bought for 5000 with the underlying at 3000. -/
def etherPut : TrailState :=
  { runtime := { position :=
      { longOption .put with
        underlying := .eth, entryPremiumInr := some 5000, entryUnderlyingPrice := some 3000
        entryAtr := some 50 } } }

/-- The put at a price, with Ether at another, some seconds after half past three in
    the afternoon. -/
def etherTick (seconds : Int) (spot mid : ℚ) : TrailTick :=
  { position := none
    market :=
      { now := (combine (ymdToOrdinal 2026 5 12) (hourMinute 10 0)).shift (seconds * 1000000)
        chain := ChainCache.empty
        candlesByTf := fun _ _ => []
        underlyingMarks := fun _ => some spot
        quoteFor := fun _ => some { markPrice := some mid } } }

/-- The stop is set at 3100 with Ether at 3000. Ten seconds later Ether is at 2800,
    the level at 2900, and the stop stays. -/
theorem etherPut_stop_stays : ¬ ∀ (engine : ExitEngine) (self : DirectionalStrategy)
    (start s : TrailState) (e : TrailTick), (∃ last, start.runtime.lastTrailStop = some last) →
    Run (trailStep engine) (fun a x => engine.registry.get (a.load x).position.strategyId =
      .ok (.directional self)) start s →
    engine.registry.get (s.load e).position.strategyId = .ok (.directional self) →
    RatchetTick engine self s e := by
  intro hall
  have hstop : (trailStep trailEngine etherPut (etherTick 0 3000 10100)).runtime.lastTrailStop =
      some 3100 := by decide
  have hid : ((trailStep trailEngine etherPut (etherTick 0 3000 10100)).load
      (etherTick 10 2800 10200)).position.strategyId = .directional := by decide
  have hget : trailEngine.registry.get ((trailStep trailEngine etherPut
      (etherTick 0 3000 10100)).load (etherTick 10 2800 10200)).position.strategyId =
        .ok (.directional trailStrategy) := by
    rw [hid]
    rfl
  refine armed_due trailEngine trailStrategy _ _ hget 3100 hstop 2900
    ⟨3100, hstop, by decide, ?_, ?_, ?_⟩
    (hall trailEngine trailStrategy _ _ _ ⟨3100, hstop⟩ (Run.refl _) hget)
  · have hts : (trailStep trailEngine etherPut
        (etherTick 0 3000 10100)).runtime.lastTrailUpdateTs =
        some (etherTick 0 3000 10100).market.now := by decide
    intro ts hsome
    cases hts.symm.trans hsome
    decide
  · unfold Tighter
    decide
  · have hmanage : trailStrategy.manage ((trailStep trailEngine etherPut
        (etherTick 0 3000 10100)).seen trailStrategy (etherTick 10 2800 10200)).position
        (etherTick 10 2800 10200).market = [.noOp] := by decide
    intro trigger hmem
    rw [hmanage] at hmem
    cases List.mem_singleton.mp hmem

end OptionsBot
