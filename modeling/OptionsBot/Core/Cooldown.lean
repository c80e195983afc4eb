import OptionsBot.Core.Engine
import OptionsBot.Core.Registry

/-!
# Cooldowns

What keeps the main loop from trading again too soon. A closed directional trade
bars its underlying for some minutes, a failed directional entry bars its
underlying for five, and a closed straddle bars all straddles for some hours.
The strategies hold the cooldowns, and look at them when they evaluate.

A tick sets them in two places. Its exits come first, then the strategies are
evaluated, and then the intents they have answered with are put through the gate
one by one, where an entry may fail.

## Main definitions

* `CooldownKey`: What a cooldown bars.
* `StrategyRegistry.cooldown`, `StrategyRegistry.bar`: The cooldown of a key, and its replacement.
* `StrategyRegistry.evaluateAll`, `allIntents`: What the dispatcher answers.
* `applyDirectionalExitCooldown`, `applyLongStraddleExitCooldown`,
  `applyDirectionalEntryFailureCooldown`: The three cooldowns.
* `StrategyRegistry.Clear`: What no cooldown bars.
* `Moment`: A close or an entry, with the registry before and after it.
* `LoopState.tick`: A tick, as far as cooldowns go.

## Theorems

* `cooldown_bar`: Replacing a cooldown replaces no other.
* `allIntents_clear`: No intent falls under a cooldown that runs.
* `allIntents_distinct`: No two directional ones are on the same underlying.
* `clear_of_failure`: A failed entry bars no others.
* `exit_cases`, `entryFailure_bar`: What a close and a failed entry bar.
-/

namespace OptionsBot

-- The sample runs below compute with rationals.
attribute [local semireducible] Rat.add Rat.sub Rat.mul Rat.inv

/-- What a cooldown bars: directional trades on an underlying, or all straddles. -/
inductive CooldownKey where
  | underlying (u : Underlying)
  | straddle
  deriving DecidableEq, Repr

namespace CooldownKey

/-- The strategy that has the cooldown. -/
def strategyId : CooldownKey → StrategyId
  | underlying _ => .directional
  | straddle => .longStraddle

/-- A trade of a strategy on an underlying falls under the cooldown. -/
def Concerns (id : StrategyId) (u : Underlying) : CooldownKey → Prop
  | underlying u' => id = .directional ∧ u = u'
  | straddle => id = .longStraddle

theorem Concerns.strategyId {id : StrategyId} {u : Underlying} {key : CooldownKey}
    (h : key.Concerns id u) : key.strategyId = id := by
  cases key with
  | underlying u' => exact h.1.symm
  | straddle => exact h.symm

/-- A trade falls under one cooldown at most. -/
theorem Concerns.unique {id : StrategyId} {u : Underlying} {key key' : CooldownKey}
    (h : key.Concerns id u) (h' : key'.Concerns id u) : key = key' := by
  cases key with
  | underlying v =>
      cases key' with
      | underlying v' => rw [← h.2, h'.2]
      | straddle => exact absurd (h.1.symm.trans h') (by decide)
  | straddle =>
      cases key' with
      | underlying v' => exact absurd (h.symm.trans h'.1) (by decide)
      | straddle => rfl

end CooldownKey

/-- `timedelta(minutes=minutes)`, in microseconds. -/
def timedeltaMinutes (minutes : ℚ) : Int := roundHalfEven (minutes * 60000000)

theorem timedeltaMinutes_zero : timedeltaMinutes 0 = 0 := by decide

/-- `ENTRY_FAILURE_COOLDOWN_MINUTES`. -/
def entryFailureCooldownMinutes : ℚ := 5

/-- No time of at least that is shorter. -/
theorem timedeltaMinutes_failure_le (minutes : ℚ) (h : entryFailureCooldownMinutes ≤ minutes) :
    timedeltaMinutes entryFailureCooldownMinutes ≤ timedeltaMinutes minutes := by
  have hfive : timedeltaMinutes entryFailureCooldownMinutes = 300000000 := by decide
  rw [hfive]
  refine le_roundHalfEven _ _ ?_
  unfold entryFailureCooldownMinutes at h
  norm_num
  linarith

namespace Strategy

def config : Strategy → StrategyConfig
  | directional self => .directional self.config
  | creditVertical self => .creditVertical self.config
  | longStraddle self => .longStraddle self.config

def context : Strategy → StrategyContext
  | directional self => self.context
  | creditVertical self => self.context
  | longStraddle self => self.context

/-- The strategy with another context. -/
def withContext (f : StrategyContext → StrategyContext) : Strategy → Strategy
  | directional self => .directional { self with context := f self.context }
  | creditVertical self => .creditVertical { self with context := f self.context }
  | longStraddle self => .longStraddle { self with context := f self.context }

/-- A strategy as it is built for its configuration. -/
def ofConfig : StrategyConfig → Strategy
  | .directional cfg => .directional { config := cfg }
  | .creditVertical cfg => .creditVertical { config := cfg }
  | .longStraddle cfg => .longStraddle { config := cfg }

@[simp] theorem id_withContext (s : Strategy) (f : StrategyContext → StrategyContext) :
    (s.withContext f).id = s.id := by
  cases s with
  | directional self => rfl
  | creditVertical self => rfl
  | longStraddle self => rfl

@[simp] theorem config_withContext (s : Strategy) (f : StrategyContext → StrategyContext) :
    (s.withContext f).config = s.config := by
  cases s with
  | directional self => rfl
  | creditVertical self => rfl
  | longStraddle self => rfl

@[simp] theorem context_withContext (s : Strategy) (f : StrategyContext → StrategyContext) :
    (s.withContext f).context = f s.context := by
  cases s with
  | directional self => rfl
  | creditVertical self => rfl
  | longStraddle self => rfl

theorem id_ofConfig (cfg : StrategyConfig) : (ofConfig cfg).id = cfg.id := by
  cases cfg with
  | directional cfg => rfl
  | creditVertical cfg => rfl
  | longStraddle cfg => rfl

end Strategy

namespace StrategyRegistry

variable (self : StrategyRegistry)

/-- `StrategyRegistry(_build_strategies(configs))`. -/
def ofConfig (app : AppConfig) : StrategyRegistry :=
  { strategies := app.strategies.map Strategy.ofConfig
    distinct := by
      rw [List.map_map, show Strategy.id ∘ Strategy.ofConfig = StrategyConfig.id from
        funext Strategy.id_ofConfig]
      exact app.unique_ids }

/-- Change the context of the strategy under an id. -/
def updateContext (sid : StrategyId) (f : StrategyContext → StrategyContext) : StrategyRegistry :=
  { strategies := self.strategies.map (fun s => if s.id = sid then s.withContext f else s)
    distinct := by
      have hid : (Strategy.id ∘ fun s : Strategy => if s.id = sid then s.withContext f else s) =
          Strategy.id := by
        funext s
        rw [Function.comp_apply]
        split_ifs
        · exact s.id_withContext f
        · rfl
      rw [List.map_map, hid]
      exact self.distinct }

/-- `enabled()`. -/
def enabled : List Strategy := self.strategies.filter (fun s => s.config.base.enabled)

/-- The cooldown there is for a key. -/
def cooldown : CooldownKey → Option DateTime
  | .underlying u => (self.get .directional).toOption.bind (fun s =>
      s.context.underlyingCooldownUntil u)
  | .straddle => (self.get .longStraddle).toOption.bind (fun s => s.context.cooldownUntil)

/-- How long a close bars what falls under a key. -/
def exitCooldown : CooldownKey → Option Int
  | .underlying _ =>
    match self.get .directional with
    | .ok (.directional strat) =>
      some (timedeltaMinutes strat.config.entry.cooldownMinutesAfterUnderlyingStop)
    | _ => none
  | .straddle =>
    match self.get .longStraddle with
    | .ok (.longStraddle strat) => some (hourMinute strat.config.setup.antiRevengeHours 0)
    | _ => none

/-- The registry with the cooldown of a key replaced. -/
def bar (key : CooldownKey) (u : DateTime) : StrategyRegistry :=
  self.updateContext key.strategyId (fun context =>
    match key with
    | .underlying underlying => context.setUnderlyingCooldown underlying u
    | .straddle => { context with cooldownUntil := some u })

/-- What every enabled strategy answers. One that raises does not keep the others from it. -/
def evaluateAll (npStd : List ℚ → ℚ) (market : MarketState) :
    List (StrategyId × Except PyError (List Intent × List Decision)) :=
  self.enabled.map (fun s => (s.id, s.evaluate npStd market))

/-- A cooldown is the one its strategy holds. -/
theorem cooldown_underlying (u : Underlying) (s : Strategy) (h : self.get .directional = .ok s) :
    self.cooldown (.underlying u) = s.context.underlyingCooldownUntil u := by
  simp only [cooldown, h, Except.toOption, Option.bind_some]

theorem cooldown_straddle (s : Strategy) (h : self.get .longStraddle = .ok s) :
    self.cooldown .straddle = s.context.cooldownUntil := by
  simp only [cooldown, h, Except.toOption, Option.bind_some]

/-- A strategy is built from its configuration. -/
theorem get_ofConfig (app : AppConfig) (sid : StrategyId) (s : Strategy)
    (h : (ofConfig app).get sid = .ok s) : ∃ cfg ∈ app.strategies, Strategy.ofConfig cfg = s := by
  unfold get at h
  split at h
  · cases h
  · next found hfound =>
    cases h
    exact List.mem_map.mp (Table.mem_of_lookup Strategy.id sid _ s hfound).1

/-- A process starts with no cooldown. -/
theorem cooldown_ofConfig (app : AppConfig) (key : CooldownKey) :
    (ofConfig app).cooldown key = none := by
  have hfresh : ∀ sid s, (ofConfig app).get sid = .ok s → s.context = {} := by
    intro sid s hget
    rcases get_ofConfig app sid s hget with ⟨cfg, _, rfl⟩
    cases cfg with
    | directional cfg => rfl
    | creditVertical cfg => rfl
    | longStraddle cfg => rfl
  cases key with
  | underlying u =>
      cases hget : (ofConfig app).get .directional with
      | error e => simp only [cooldown, hget, Except.toOption, Option.bind_none]
      | ok s => rw [(ofConfig app).cooldown_underlying u s hget, hfresh _ s hget]
  | straddle =>
      cases hget : (ofConfig app).get .longStraddle with
      | error e => simp only [cooldown, hget, Except.toOption, Option.bind_none]
      | ok s => rw [(ofConfig app).cooldown_straddle s hget, hfresh _ s hget]

theorem get_updateContext (sid sid' : StrategyId) (f : StrategyContext → StrategyContext) :
    (self.updateContext sid f).get sid' =
      (self.get sid').map (fun s => if sid' = sid then s.withContext f else s) := by
  unfold get updateContext
  simp only
  have hid : ∀ s : Strategy, (if s.id = sid then s.withContext f else s).id = s.id := by
    intro s
    split_ifs
    · exact s.id_withContext f
    · rfl
  rw [Table.lookup_map Strategy.id sid' _ hid]
  cases hfound : Table.lookup Strategy.id sid' self.strategies with
  | none => rfl
  | some s =>
      rw [← (Table.mem_of_lookup Strategy.id sid' _ s hfound).2]
      rfl

/-- Another strategy's context is not changed. -/
theorem get_updateContext_of_ne (sid sid' : StrategyId) (hne : sid' ≠ sid)
    (f : StrategyContext → StrategyContext) :
    (self.updateContext sid f).get sid' = self.get sid' := by
  rw [self.get_updateContext]
  simp only [if_neg hne]
  cases self.get sid' with
  | error e => rfl
  | ok s => rfl

/-- Replacing a cooldown replaces no other. -/
theorem cooldown_bar (key key' : CooldownKey) (u : DateTime) (s : Strategy)
    (h : self.get key.strategyId = .ok s) :
    (self.bar key u).cooldown key' = if key' = key then some u else self.cooldown key' := by
  unfold bar cooldown
  cases key with
  | underlying v =>
      cases key' with
      | underlying v' =>
          simp only [CooldownKey.strategyId] at h ⊢
          rw [self.get_updateContext, h]
          simp only [Except.map, Except.toOption, Option.bind_some, if_true,
            Strategy.context_withContext, StrategyContext.setUnderlyingCooldown,
            CooldownKey.underlying.injEq]
      | straddle =>
          simp only [CooldownKey.strategyId, reduceCtorEq, if_false]
          rw [self.get_updateContext_of_ne _ _ (by decide)]
  | straddle =>
      cases key' with
      | underlying v' =>
          simp only [CooldownKey.strategyId, reduceCtorEq, if_false]
          rw [self.get_updateContext_of_ne _ _ (by decide)]
      | straddle =>
          simp only [CooldownKey.strategyId] at h ⊢
          rw [self.get_updateContext, h]
          simp only [Except.map, Except.toOption, Option.bind_some, if_true,
            Strategy.context_withContext]

/-- A changed context leaves the configured cooldowns. -/
theorem exitCooldown_updateContext (sid : StrategyId) (f : StrategyContext → StrategyContext)
    (key : CooldownKey) : (self.updateContext sid f).exitCooldown key = self.exitCooldown key := by
  unfold exitCooldown
  cases key with
  | underlying v =>
      simp only [self.get_updateContext]
      cases self.get .directional with
      | error e => rfl
      | ok s =>
          simp only [Except.map]
          split_ifs
          · cases s with
            | directional strat => rfl
            | creditVertical strat => rfl
            | longStraddle strat => rfl
          · rfl
  | straddle =>
      simp only [self.get_updateContext]
      cases self.get .longStraddle with
      | error e => rfl
      | ok s =>
          simp only [Except.map]
          split_ifs
          · cases s with
            | directional strat => rfl
            | creditVertical strat => rfl
            | longStraddle strat => rfl
          · rfl

/-- Nor does it remove a strategy. -/
theorem registered_updateContext (sid sid' : StrategyId) (f : StrategyContext → StrategyContext)
    (h : ∃ s, self.get sid' = .ok s) : ∃ s, (self.updateContext sid f).get sid' = .ok s := by
  rcases h with ⟨s, hs⟩
  rw [self.get_updateContext, hs]
  exact ⟨_, rfl⟩

/-- Nor does it change a configuration. -/
theorem config_updateContext (sid sid' : StrategyId) (f : StrategyContext → StrategyContext)
    (s' : Strategy) (h : (self.updateContext sid f).get sid' = .ok s') :
    ∃ s, self.get sid' = .ok s ∧ s'.config = s.config := by
  rw [self.get_updateContext] at h
  cases hget : self.get sid' with
  | error e =>
      rw [hget] at h
      cases h
  | ok s =>
      rw [hget] at h
      cases h
      refine ⟨s, rfl, ?_⟩
      split_ifs
      · exact s.config_withContext f
      · rfl

/-- The configured cooldown of an underlying is the directional strategy's. -/
theorem exitCooldown_underlying (u : Underlying) (d : Int)
    (h : self.exitCooldown (.underlying u) = some d) :
    ∃ strat, self.get .directional = .ok (.directional strat) ∧
      d = timedeltaMinutes strat.config.entry.cooldownMinutesAfterUnderlyingStop := by
  unfold exitCooldown at h
  simp only at h
  split at h
  · next strat hget =>
    rw [Option.some.injEq] at h
    exact ⟨strat, hget, h.symm⟩
  · cases h

/-- That of the straddles is the straddle strategy's. -/
theorem exitCooldown_straddle (d : Int) (h : self.exitCooldown .straddle = some d) :
    ∃ strat, self.get .longStraddle = .ok (.longStraddle strat) ∧
      d = hourMinute strat.config.setup.antiRevengeHours 0 := by
  unfold exitCooldown at h
  simp only at h
  split at h
  · next strat hget =>
    rw [Option.some.injEq] at h
    exact ⟨strat, hget, h.symm⟩
  · cases h

/-- The directional strategy keeps its configuration when a cooldown is replaced. -/
theorem directional_bar (key : CooldownKey) (u : DateTime) (strat : DirectionalStrategy)
    (h : (self.bar key u).get .directional = .ok (.directional strat)) :
    ∃ old, self.get .directional = .ok (.directional old) ∧ strat.config = old.config := by
  rcases self.config_updateContext _ _ _ _ h with ⟨s, hold, hconfig⟩
  cases s with
  | directional old => exact ⟨old, hold, StrategyConfig.directional.inj hconfig⟩
  | creditVertical old => cases hconfig
  | longStraddle old => cases hconfig

/-- A configured cooldown has its strategy. -/
theorem registered_of_exitCooldown (key : CooldownKey) (d : Int)
    (h : self.exitCooldown key = some d) : ∃ s, self.get key.strategyId = .ok s := by
  cases key with
  | underlying u =>
      rcases self.exitCooldown_underlying u d h with ⟨strat, hget, _⟩
      exact ⟨_, hget⟩
  | straddle =>
      rcases self.exitCooldown_straddle d h with ⟨strat, hget, _⟩
      exact ⟨_, hget⟩

end StrategyRegistry

/-- `all_intents`: the intents of the strategies that have not raised, in order. -/
def allIntents (results : List (StrategyId × Except PyError (List Intent × List Decision))) :
    List Intent :=
  results.flatMap (fun r =>
    match r.2 with
    | .error _ => []
    | .ok (intents, _) => intents)

theorem mem_allIntents (registry : StrategyRegistry) (npStd : List ℚ → ℚ) (market : MarketState)
    (intent : Intent) (h : intent ∈ allIntents (registry.evaluateAll npStd market)) :
    ∃ s intents decisions, registry.get s.id = .ok s ∧
      s.evaluate npStd market = .ok (intents, decisions) ∧ intent ∈ intents := by
  rcases List.mem_flatMap.mp h with ⟨r, hr, hmem⟩
  rcases List.mem_map.mp hr with ⟨s, hs, rfl⟩
  have hget : registry.get s.id = .ok s := by
    unfold StrategyRegistry.get
    rw [Table.lookup_of_mem Strategy.id _ registry.distinct s (List.mem_filter.mp hs).1]
  cases heval : s.evaluate npStd market with
  | error e =>
      simp only [heval] at hmem
      exact absurd hmem List.not_mem_nil
  | ok answer =>
      simp only [heval] at hmem
      exact ⟨s, answer.1, answer.2, hget, heval, hmem⟩

/-- The strategy of an intent is registered, and the intent falls under no cooldown that runs. -/
structure StrategyRegistry.Clear (registry : StrategyRegistry) (now : DateTime) (intent : Intent) :
    Prop where
  registered : ∃ s, registry.get intent.strategyId = .ok s
  passes : ∀ key, key.Concerns intent.strategyId intent.underlying →
    ∀ c, registry.cooldown key = some c → c ≤ now

/-- A strategy that is registered answers with intents of its own, and with none that falls under
    a cooldown that runs. -/
theorem allIntents_clear (registry : StrategyRegistry) (npStd : List ℚ → ℚ)
    (market : MarketState) (intent : Intent)
    (h : intent ∈ allIntents (registry.evaluateAll npStd market)) :
    registry.Clear market.now intent := by
  rcases mem_allIntents registry npStd market intent h with
    ⟨s, intents, decisions, hget, heval, hmem⟩
  have hid := s.evaluate_id npStd market intents decisions heval intent hmem
  refine ⟨⟨s, by rw [hid]; exact hget⟩, fun key hkey c hc => ?_⟩
  cases s with
  | creditVertical self =>
      -- No cooldown is about spreads.
      rw [hid] at hkey
      cases key with
      | underlying v => cases hkey.1
      | straddle => cases hkey
  | directional self =>
      have hget' : registry.get .directional = .ok (.directional self) := hget
      rcases mem_evaluateAll _ _ _ _ heval intent hmem with ⟨u, _, d, hd, hi⟩
      rcases self.evaluateOne_intent market u d intent hd hi with ⟨_, _, _, _, _, _, hintent⟩
      have hcool := (self.evaluateOne_enter market u d intent hd hi).1
      rw [hintent] at hkey
      cases key with
      | straddle => cases hkey
      | underlying v =>
          -- The intent is on the underlying that was looked at.
          have hv : u = v := hkey.2
          rw [registry.cooldown_underlying v _ hget'] at hc
          rw [hv, StrategyContext.isUnderlyingInCooldown,
            show self.context.underlyingCooldownUntil v = some c from hc] at hcool
          exact not_lt.mp (of_decide_eq_false hcool)
  | longStraddle self =>
      have hget' : registry.get .longStraddle = .ok (.longStraddle self) := hget
      rcases mem_evaluateAll _ _ _ _ heval intent hmem with ⟨u, _, d, hd, hi⟩
      have hcool := (self.evaluateOne_enter npStd market u d intent hd hi).1
      rw [hid] at hkey
      cases key with
      | underlying v => cases hkey.1
      | straddle =>
          rw [registry.cooldown_straddle _ hget'] at hc
          rw [StrategyContext.isInCooldown,
            show self.context.cooldownUntil = some c from hc] at hcool
          exact not_lt.mp (of_decide_eq_false hcool)

/-- Where the directional strategy has no underlying twice, no two of its intents are on the same
    one. -/
theorem allIntents_distinct (registry : StrategyRegistry) (npStd : List ℚ → ℚ)
    (market : MarketState) (hnodup : ∀ strat, registry.get .directional = .ok (.directional strat) →
      strat.config.underlyings.Nodup) :
    (allIntents (registry.evaluateAll npStd market)).Pairwise (fun a b =>
      a.strategyId = .directional → b.strategyId = .directional → a.underlying ≠ b.underlying) := by
  have hids : ∀ s : Strategy, ∀ intent ∈ (match s.evaluate npStd market with
      | .error _ => []
      | .ok (intents, _) => intents), intent.strategyId = s.id := by
    intro s intent hmem
    cases heval : s.evaluate npStd market with
    | error e =>
        rw [heval] at hmem
        exact absurd hmem List.not_mem_nil
    | ok answer =>
        rw [heval] at hmem
        exact s.evaluate_id npStd market answer.1 answer.2 heval intent hmem
  unfold allIntents StrategyRegistry.evaluateAll
  rw [List.pairwise_flatMap, List.forall_mem_map, List.pairwise_map]
  constructor
  · intro s hs
    cases s with
    | creditVertical self =>
        -- None of these is directional.
        refine List.pairwise_of_forall_mem_list (fun a ha b _ hid _ => ?_)
        cases (hids (.creditVertical self) a ha).symm.trans hid
    | longStraddle self =>
        refine List.pairwise_of_forall_mem_list (fun a ha b _ hid _ => ?_)
        cases (hids (.longStraddle self) a ha).symm.trans hid
    | directional self =>
        have hget : registry.get .directional = .ok (.directional self) := by
          unfold StrategyRegistry.get
          rw [show StrategyId.directional = (Strategy.directional self).id from rfl,
            Table.lookup_of_mem Strategy.id _ registry.distinct _ (List.mem_filter.mp hs).1]
        cases heval : (Strategy.directional self).evaluate npStd market with
        | error e => exact List.Pairwise.nil
        | ok answer =>
            have hsublist := evaluateAll_underlyings _ _ answer.1 answer.2 heval (by
              intro u d intent hd hi
              rcases self.evaluateOne_intent market u d intent hd hi with
                ⟨_, _, _, _, _, _, hintent⟩
              rw [hintent]
              rfl)
            have hdistinct := List.pairwise_map.mp (hsublist.nodup (hnodup self hget))
            exact hdistinct.imp (fun hne _ _ => hne)
  · -- Two strategies have two ids.
    have hstrategies := List.pairwise_map.mp registry.distinct
    refine (hstrategies.sublist List.filter_sublist).imp (fun {s s'} hne a ha b hb hid hid' => ?_)
    exact absurd ((hids s a ha).symm.trans (hid.trans (hid'.symm.trans (hids s' b hb)))) hne

section Apply

variable (registry : StrategyRegistry)

/-- A close of a directional trade bars its underlying, unless no minutes are configured. -/
def applyDirectionalExitCooldown (trade : Trade) (now : DateTime) : StrategyRegistry :=
  match registry.get trade.strategyId with
  | .ok (.directional strat) =>
    let minutes := strat.config.entry.cooldownMinutesAfterUnderlyingStop
    if minutes ≤ 0 then registry
    else
      -- Whatever is stored under the underlying is replaced, whether it still runs or not.
      registry.updateContext trade.strategyId (fun context =>
        context.setUnderlyingCooldown trade.underlying (now.shift (timedeltaMinutes minutes)))
  | _ => registry

/-- A close of a straddle bars the strategy, unless no hours are configured. -/
def applyLongStraddleExitCooldown (trade : Trade) (now : DateTime) : StrategyRegistry :=
  match registry.get trade.strategyId with
  | .ok (.longStraddle strat) =>
    let hours := strat.config.setup.antiRevengeHours
    if hours ≤ 0 then registry
    else
      registry.updateContext trade.strategyId (fun context =>
        { context with cooldownUntil := some (now.shift (hourMinute hours 0)) })
  | _ => registry

/-- A failed directional entry bars its underlying. -/
def applyDirectionalEntryFailureCooldown (intent : Intent) (now : DateTime) : StrategyRegistry :=
  if intent.strategyId ≠ .directional then registry
  else
    match registry.get .directional with
    | .ok (.directional _) =>
      registry.updateContext .directional (fun context =>
        context.setUnderlyingCooldown intent.underlying
          (now.shift (timedeltaMinutes entryFailureCooldownMinutes)))
    | _ => registry

theorem directionalExit_cases (trade : Trade) (now : DateTime) :
    (∃ strat, registry.get trade.strategyId = .ok (.directional strat) ∧
      0 < strat.config.entry.cooldownMinutesAfterUnderlyingStop ∧
      applyDirectionalExitCooldown registry trade now =
        registry.bar (.underlying trade.underlying)
          (now.shift (timedeltaMinutes strat.config.entry.cooldownMinutesAfterUnderlyingStop))) ∨
    (applyDirectionalExitCooldown registry trade now = registry ∧
      ∀ strat, registry.get trade.strategyId = .ok (.directional strat) →
        strat.config.entry.cooldownMinutesAfterUnderlyingStop = 0) := by
  unfold applyDirectionalExitCooldown
  split
  · next strat hget =>
    have hid := registry.get_id _ _ hget
    by_cases hminutes : strat.config.entry.cooldownMinutesAfterUnderlyingStop ≤ 0
    · refine Or.inr ⟨if_pos hminutes, fun other hother => ?_⟩
      rw [hget] at hother
      cases hother
      exact le_antisymm hminutes strat.config.entry.cooldown_nonneg
    · refine Or.inl ⟨strat, hget, not_le.mp hminutes, ?_⟩
      rw [← hid]
      exact if_neg hminutes
  · next hother => exact Or.inr ⟨rfl, fun strat hget => absurd hget (hother strat)⟩

theorem straddleExit_cases (trade : Trade) (now : DateTime) :
    (∃ strat, registry.get trade.strategyId = .ok (.longStraddle strat) ∧
      applyLongStraddleExitCooldown registry trade now =
        registry.bar .straddle (now.shift (hourMinute strat.config.setup.antiRevengeHours 0))) ∨
    (applyLongStraddleExitCooldown registry trade now = registry ∧
      ∀ strat, registry.get trade.strategyId = .ok (.longStraddle strat) →
        strat.config.setup.antiRevengeHours = 0) := by
  unfold applyLongStraddleExitCooldown
  split
  · next strat hget =>
    have hid := registry.get_id _ _ hget
    by_cases hhours : strat.config.setup.antiRevengeHours ≤ 0
    · refine Or.inr ⟨if_pos hhours, fun other hother => ?_⟩
      rw [hget] at hother
      cases hother
      exact Nat.le_zero.mp hhours
    · refine Or.inl ⟨strat, hget, ?_⟩
      rw [← hid]
      exact if_neg hhours
  · next hother => exact Or.inr ⟨rfl, fun strat hget => absurd hget (hother strat)⟩

/-- A close bars what the trade falls under for the configured time, if there is one. -/
theorem exit_cases (trade : Trade) (now : DateTime) :
    (∃ key d, key.Concerns trade.strategyId trade.underlying ∧
      registry.exitCooldown key = some d ∧
      (∀ strat, registry.get trade.strategyId = .ok (.directional strat) →
        0 < strat.config.entry.cooldownMinutesAfterUnderlyingStop) ∧
      applyLongStraddleExitCooldown (applyDirectionalExitCooldown registry trade now) trade now =
        registry.bar key (now.shift d)) ∨
    (applyLongStraddleExitCooldown (applyDirectionalExitCooldown registry trade now) trade now =
        registry ∧
      ∀ key d, key.Concerns trade.strategyId trade.underlying →
        registry.exitCooldown key = some d → d = 0) := by
  rcases directionalExit_cases registry trade now with ⟨strat, hget, hpos, hbar⟩ | ⟨hsame, hzero⟩
  · have hid : trade.strategyId = .directional := (registry.get_id _ _ hget).symm
    refine Or.inl ⟨.underlying trade.underlying,
      timedeltaMinutes strat.config.entry.cooldownMinutesAfterUnderlyingStop, ⟨hid, rfl⟩,
      ?_, ?_, ?_⟩
    · rw [hid] at hget
      unfold StrategyRegistry.exitCooldown
      simp only [hget]
    · intro other hother
      rw [hget] at hother
      cases hother
      exact hpos
    · -- The other cooldown is not touched: the strategy is no straddle.
      rw [hbar]
      rcases straddleExit_cases (registry.bar (.underlying trade.underlying)
        (now.shift (timedeltaMinutes strat.config.entry.cooldownMinutesAfterUnderlyingStop)))
        trade now with ⟨other, hother, _⟩ | ⟨hsame, _⟩
      · have hwrong := StrategyRegistry.get_id _ _ _ hother
        rw [hid] at hwrong
        cases hwrong
      · exact hsame
  · rw [hsame]
    rcases straddleExit_cases registry trade now with ⟨strat, hget, hbar⟩ | ⟨hsame', hzero'⟩
    · have hid : trade.strategyId = .longStraddle := (registry.get_id _ _ hget).symm
      refine Or.inl ⟨.straddle, hourMinute strat.config.setup.antiRevengeHours 0, hid, ?_, ?_,
        hbar⟩
      · rw [hid] at hget
        unfold StrategyRegistry.exitCooldown
        simp only [hget]
      · intro other hother
        rw [hget] at hother
        cases hother
    · refine Or.inr ⟨hsame', ?_⟩
      intro key d hkey hd
      cases key with
      | underlying u =>
          rcases registry.exitCooldown_underlying u d hd with ⟨strat, hget, hd⟩
          rw [hd, hzero strat (by rw [hkey.1]; exact hget)]
          exact timedeltaMinutes_zero
      | straddle =>
          rcases registry.exitCooldown_straddle d hd with ⟨strat, hget, hd⟩
          rw [hd,
            hzero' strat (by rw [show trade.strategyId = .longStraddle from hkey]; exact hget)]
          rfl

/-- A failed entry bars its underlying. -/
theorem entryFailure_bar (intent : Intent) (now : DateTime) (s : Strategy)
    (hid : intent.strategyId = .directional) (hget : registry.get .directional = .ok s) :
    applyDirectionalEntryFailureCooldown registry intent now =
      registry.bar (.underlying intent.underlying)
        (now.shift (timedeltaMinutes entryFailureCooldownMinutes)) := by
  unfold applyDirectionalEntryFailureCooldown
  rw [if_neg (not_not.mpr hid), hget]
  cases s with
  | directional strat => rfl
  | creditVertical strat => cases registry.get_id _ _ hget
  | longStraddle strat => cases registry.get_id _ _ hget

theorem entryFailure_other (intent : Intent) (now : DateTime)
    (hid : intent.strategyId ≠ .directional) :
    applyDirectionalEntryFailureCooldown registry intent now = registry := by
  unfold applyDirectionalEntryFailureCooldown
  rw [if_pos hid]

/-- A failed entry bars its underlying for five minutes, or nothing. -/
theorem entryFailure_cases (intent : Intent) (now : DateTime) :
    ((∃ s, registry.get .directional = .ok s) ∧
      applyDirectionalEntryFailureCooldown registry intent now =
        registry.bar (.underlying intent.underlying)
          (now.shift (timedeltaMinutes entryFailureCooldownMinutes))) ∨
      applyDirectionalEntryFailureCooldown registry intent now = registry := by
  by_cases hid : intent.strategyId = .directional
  · cases hget : registry.get .directional with
    | ok s => exact Or.inl ⟨⟨s, rfl⟩, entryFailure_bar registry intent now s hid hget⟩
    | error e =>
        refine Or.inr ?_
        unfold applyDirectionalEntryFailureCooldown
        rw [if_neg (not_not.mpr hid), hget]
  · exact Or.inr (entryFailure_other registry intent now hid)

/-- After a failed entry the intents stay clear that are not directional ones on its underlying. -/
theorem clear_of_failure (intent other : Intent) (now : DateTime)
    (h : registry.Clear now other)
    (hother : intent.strategyId = .directional → other.strategyId = .directional →
      intent.underlying ≠ other.underlying) :
    (applyDirectionalEntryFailureCooldown registry intent now).Clear now other := by
  by_cases hid : intent.strategyId = .directional
  · rcases entryFailure_cases registry intent now with ⟨⟨s, hget⟩, hbar⟩ | hsame
    · rw [hbar]
      refine ⟨registry.registered_updateContext _ _ _ h.registered, fun key hkey c hc => ?_⟩
      rw [registry.cooldown_bar (.underlying intent.underlying) _ _ s hget] at hc
      split_ifs at hc with hunderlying
      · rw [hunderlying] at hkey
        exact absurd hkey.2.symm (hother hid hkey.1)
      · exact h.passes key hkey c hc
    · rw [hsame]
      exact h
  · rw [entryFailure_other registry intent now hid]
    exact h

end Apply

/-- How an intent fares: the gate turns it down, or its entry is opened, fails, or raises. -/
inductive IntentOutcome where
  | rejected
  | opened
  | failed
  | raised
  deriving DecidableEq, Repr

/-- What the loop does that cooldowns are about: it closes a trade, or submits an entry. -/
inductive LoopEvent where
  | close (trade : Trade)
  | entry (intent : Intent) (outcome : IntentOutcome)

/-- Something the loop does, with the time of its tick and the registry before and after. -/
structure Moment where
  event : LoopEvent
  now : DateTime
  before : StrategyRegistry
  after : StrategyRegistry

/-- The main loop: the strategies, the time of the last tick, whether it still runs, and what it
    has done. -/
structure LoopState where
  registry : StrategyRegistry
  now : DateTime
  running : Bool := true
  trace : List Moment := []

/-- A tick: its market, the trades a directive closes, whether an exit raises, and how each
    intent fares, by its place. -/
structure LoopTick where
  market : MarketState
  closes : List Trade := []
  exitsRaise : Bool := false
  outcome : Nat → IntentOutcome

namespace LoopState

/-- The loop as the process starts it. -/
def start (app : AppConfig) (now : DateTime) : LoopState :=
  { registry := StrategyRegistry.ofConfig app, now := now }

variable (s : LoopState)

/-- The loop does something, and leaves a registry. -/
def record (event : LoopEvent) (after : StrategyRegistry) : LoopState :=
  { s with registry := after, trace := s.trace ++ [⟨event, s.now, s.registry, after⟩] }

/-- Close a trade. The cooldown is set whether the exit succeeds or not. -/
def close (trade : Trade) : LoopState :=
  s.record (.close trade) (applyLongStraddleExitCooldown
    (applyDirectionalExitCooldown s.registry trade s.now) trade s.now)

/-- The loop over the intents. -/
def enter (s : LoopState) : List (Intent × IntentOutcome) → LoopState
  | [] => s
  | (intent, outcome) :: rest =>
    match outcome with
    | .rejected => s.enter rest
    | .opened => (s.record (.entry intent .opened) s.registry).enter rest
    | .failed =>
      (s.record (.entry intent .failed)
        (applyDirectionalEntryFailureCooldown s.registry intent s.now)).enter rest
    -- An exception ends the loop, and the process with it.
    | .raised => { s.record (.entry intent .raised) s.registry with running := false }

/-- The loop after the exits of a tick. -/
def exited (t : LoopTick) : LoopState := t.closes.foldl close { s with now := t.market.now }

/-- The intents of a tick, with how each fares. -/
def attempts (npStd : List ℚ → ℚ) (t : LoopTick) : List (Intent × IntentOutcome) :=
  (allIntents ((s.exited t).registry.evaluateAll npStd t.market)).mapIdx
    (fun k intent => (intent, t.outcome k))

/-- An attempt for each intent. -/
theorem attempts_intents (npStd : List ℚ → ℚ) (t : LoopTick) :
    (s.attempts npStd t).map Prod.fst =
      allIntents ((s.exited t).registry.evaluateAll npStd t.market) := by
  refine List.ext_getElem? (fun i => ?_)
  rw [attempts, List.getElem?_map, List.getElem?_mapIdx, Option.map_map]
  exact Option.map_id'

/-- The attempts that the loop comes to: those up to the first that raises. -/
def reached : List (Intent × IntentOutcome) → List (Intent × IntentOutcome)
  | [] => []
  | a :: rest => if a.2 = .raised then [a] else a :: reached rest

theorem reached_sublist (attempts : List (Intent × IntentOutcome)) :
    (reached attempts).Sublist attempts := by
  induction attempts with
  | nil => exact List.Sublist.refl []
  | cons a rest ih =>
      unfold reached
      split_ifs
      · exact (List.nil_sublist rest).cons_cons a
      · exact ih.cons_cons a

theorem mem_of_reached (attempts : List (Intent × IntentOutcome)) (a : Intent × IntentOutcome)
    (h : a ∈ reached attempts) : a ∈ attempts := (reached_sublist attempts).subset h

/-- A tick. -/
def tick (npStd : List ℚ → ℚ) (t : LoopTick) : LoopState :=
  if !s.running then s
  else if t.exitsRaise then { s.exited t with running := false }
  else (s.exited t).enter (s.attempts npStd t)

end LoopState

end OptionsBot
