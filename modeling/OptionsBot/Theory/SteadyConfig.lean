import OptionsBot.Theory.CooldownRuns

/-!
# Configurations That Keep Cooldowns

Whether a run keeps its cooldowns can be read off the configuration. Where closes
of directional trades bar for as long as failed entries at least, or not at all,
every cooldown of an underlying ends before one that is set later, so none is
shortened. Where the directional strategy lists no underlying twice, a tick has
one intent of it for each, so none comes after another that has failed.

The shipped files are such a configuration.

## Main definitions

* `DirectionalConfig.Steady`, `AppConfig.Steady`: Such a configuration.
* `StrategyRegistry.Steady`: What a tick keeps under it.

## Theorems

* `Steady.exit`, `Steady.failure`: The two places where a cooldown is set.
* `tick_steady`: A tick keeps it.
* `orderly_of_steady`: Every tick is orderly.
* `run_kept_of_steady`: Every run keeps its cooldowns.
-/

namespace OptionsBot

/-- A close bars for no shorter than a failed entry does, if for any time, and no underlying is
    listed twice. -/
structure DirectionalConfig.Steady (cfg : DirectionalConfig) : Prop where
  minutes : 0 < cfg.entry.cooldownMinutesAfterUnderlyingStop →
    entryFailureCooldownMinutes ≤ cfg.entry.cooldownMinutesAfterUnderlyingStop
  distinct : cfg.underlyings.Nodup

def AppConfig.Steady (app : AppConfig) : Prop :=
  ∀ cfg, StrategyConfig.directional cfg ∈ app.strategies → cfg.Steady

/-- The configuration of the directional strategy is steady, and where its closes bar, no cooldown
    of an underlying ends later than one that a close would set now. -/
structure StrategyRegistry.Steady (registry : StrategyRegistry) (now : DateTime) : Prop where
  config : ∀ strat, registry.get .directional = .ok (.directional strat) → strat.config.Steady
  bounded : ∀ strat, registry.get .directional = .ok (.directional strat) →
    0 < strat.config.entry.cooldownMinutesAfterUnderlyingStop →
    ∀ u c, registry.cooldown (.underlying u) = some c →
      c ≤ now.shift (timedeltaMinutes strat.config.entry.cooldownMinutesAfterUnderlyingStop)

namespace StrategyRegistry.Steady

variable {registry : StrategyRegistry} {now : DateTime} (h : registry.Steady now)
include h

theorem mono (later : DateTime) (hlater : now ≤ later) : registry.Steady later :=
  ⟨h.config, fun strat hget hpos u c hc =>
    le_trans (h.bounded strat hget hpos u c hc) (shift_mono _ _ _ hlater)⟩

/-- Replacing a cooldown by one that is no longer than a close would set keeps it. -/
theorem bar (key : CooldownKey) (d : Int) (hget : ∃ s, registry.get key.strategyId = .ok s)
    (hd : ∀ u, key = .underlying u → ∀ strat, registry.get .directional = .ok (.directional strat) →
      0 < strat.config.entry.cooldownMinutesAfterUnderlyingStop →
      d ≤ timedeltaMinutes strat.config.entry.cooldownMinutesAfterUnderlyingStop) :
    (registry.bar key (now.shift d)).Steady now := by
  rcases hget with ⟨s, hget⟩
  refine ⟨fun strat hstrat => ?_, fun strat hstrat hpos u c hc => ?_⟩
  · rcases registry.directional_bar key _ strat hstrat with ⟨old, hold, hconfig⟩
    rw [hconfig]
    exact h.config old hold
  · rcases registry.directional_bar key _ strat hstrat with ⟨old, hold, hconfig⟩
    rw [hconfig] at hpos ⊢
    rw [registry.cooldown_bar key _ _ s hget] at hc
    split_ifs at hc with hsame
    · rw [Option.some.injEq] at hc
      rw [← hc]
      exact Int.add_le_add_left (hd u hsame.symm old hold hpos) now.micros
    · exact h.bounded old hold hpos u c hc

theorem exit (trade : Trade) :
    (applyLongStraddleExitCooldown (applyDirectionalExitCooldown registry trade now) trade
      now).Steady now := by
  rcases exit_cases registry trade now with ⟨key, d, _, hd, _, hbar⟩ | ⟨hsame, _⟩
  · rw [hbar]
    refine h.bar key d (registry.registered_of_exitCooldown key d hd) ?_
    rintro u rfl strat hget _
    rcases registry.exitCooldown_underlying u d hd with ⟨other, hother, rfl⟩
    rw [hget] at hother
    cases hother
    exact le_refl _
  · rw [hsame]
    exact h

theorem failure (intent : Intent) :
    (applyDirectionalEntryFailureCooldown registry intent now).Steady now := by
  rcases entryFailure_cases registry intent now with ⟨hget, hbar⟩ | hsame
  · rw [hbar]
    refine h.bar _ _ hget (fun _ _ strat hstrat hpos => ?_)
    exact timedeltaMinutes_failure_le _ ((h.config strat hstrat).minutes hpos)
  · rw [hsame]
    exact h

end StrategyRegistry.Steady

section Tick

variable (npStd : List ℚ → ℚ) (s : LoopState) (t : LoopTick)

theorem closes_steady (trades : List Trade) (h : s.registry.Steady s.now) :
    (trades.foldl LoopState.close s).registry.Steady (trades.foldl LoopState.close s).now := by
  induction trades generalizing s with
  | nil => exact h
  | cons trade rest ih => exact ih (s.close trade) (h.exit trade)

theorem enter_steady (attempts : List (Intent × IntentOutcome)) (h : s.registry.Steady s.now) :
    (s.enter attempts).registry.Steady (s.enter attempts).now := by
  induction attempts generalizing s with
  | nil => exact h
  | cons a rest ih =>
      rcases a with ⟨intent, outcome⟩
      cases outcome with
      | rejected => exact ih s h
      | opened => exact ih (s.record (.entry intent .opened) s.registry) h
      | failed => exact ih (s.record (.entry intent .failed) _) (h.failure intent)
      | raised => exact h

theorem exited_steady (h : s.registry.Steady s.now) (hnow : s.now ≤ t.market.now) :
    (s.exited t).registry.Steady (s.exited t).now :=
  closes_steady { s with now := t.market.now } t.closes (h.mono t.market.now hnow)

theorem tick_steady (h : s.registry.Steady s.now) (hnow : s.now ≤ t.market.now) :
    (s.tick npStd t).registry.Steady (s.tick npStd t).now := by
  have hexited := exited_steady s t h hnow
  unfold LoopState.tick
  split_ifs
  · exact h
  · exact hexited
  · exact enter_steady (s.exited t) _ hexited

/-- Every tick is orderly: a close sets a cooldown that ends last, and no two directional intents
    are on the same underlying. -/
theorem orderly_of_steady (h : s.registry.Steady s.now) (hnow : s.now ≤ t.market.now) :
    t.Orderly npStd s := by
  refine ⟨fun trade _ _ strat hget hpos c hc => ?_, fun _ => ?_⟩
  · exact (h.mono t.market.now hnow).bounded strat hget hpos _ c hc
  · have hdistinct := allIntents_distinct (s.exited t).registry npStd t.market
      (fun strat hget => ((exited_steady s t h hnow).config strat hget).distinct)
    rw [← s.attempts_intents npStd t, List.pairwise_map] at hdistinct
    refine (hdistinct.sublist (LoopState.reached_sublist _)).imp ?_
    intro a b hne hid hid' hsame _
    exact absurd hsame (hne hid hid')

theorem start_steady (app : AppConfig) (now : DateTime) (h : app.Steady) :
    (LoopState.start app now).registry.Steady now := by
  refine ⟨fun strat hget => ?_, fun _ _ _ u c hc => ?_⟩
  · rcases StrategyRegistry.get_ofConfig app _ _ hget with ⟨cfg, hcfg, hstrat⟩
    cases cfg with
    | creditVertical cfg => cases hstrat
    | longStraddle cfg => cases hstrat
    | directional cfg =>
        cases hstrat
        exact h cfg hcfg
  · rw [show (LoopState.start app now).registry.cooldown (.underlying u) = none from
      StrategyRegistry.cooldown_ofConfig app (.underlying u)] at hc
    cases hc

/-- Under a steady configuration, whatever the ticks, as long as the clock does not go back: nothing
    is submitted that is barred, and no running cooldown is shortened. -/
theorem run_kept_of_steady (app : AppConfig) (h : app.Steady) (now : DateTime)
    (hrun : Run (fun s t => s.tick npStd t) (fun s t => s.now ≤ t.market.now)
      (LoopState.start app now) s) : CooldownsKept s.trace := by
  have hinv := hrun.invariant (fun s => s.Safe ∧ s.registry.Steady s.now)
    (fun a e hnow ha =>
      ⟨tick_safe npStd a e ha.1 hnow (fun _ => orderly_of_steady npStd a e ha.2 hnow),
      tick_steady npStd a e ha.2 hnow⟩)
    ⟨start_safe app now, start_steady app now h⟩
  exact hinv.1.kept

end Tick

/-- The shipped files are steady. -/
theorem shippedConfig_steady : shippedConfig.Steady := by
  intro cfg hcfg
  have hshipped : cfg = shippedDirectionalConfig := by
    simpa [shippedConfig] using hcfg
  rw [hshipped]
  exact ⟨fun _ => by decide, by decide⟩

end OptionsBot
