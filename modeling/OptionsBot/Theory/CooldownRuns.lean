import OptionsBot.Core.Cooldown
import OptionsBot.Lib.Deadline
import OptionsBot.Lib.Run
import OptionsBot.Theory.ForcedExit
import OptionsBot.Theory.RiskBudget

/-!
# Cooldowns over a Run

Whatever closes a directional trade, nothing is to be bought on its underlying
for the configured minutes, and whatever makes an entry fail, for five. The same
goes for straddles and the configured hours.

A registry holds one cooldown an underlying, and each of these replaces it. That
is harmless for straddles, whose cooldowns are all equally long. On an underlying
two lengths meet: a close within five minutes of a failed entry replaces its
cooldown, and ends it early where the configured minutes are fewer. And within a
tick a cooldown comes too late: all intents are there before the first entry is
tried, so one that fails does not keep out another on its underlying.

A run that avoids the two keeps every cooldown.

## Main definitions

* `Moment.Sets`, `Moment.Enters`: What has to be kept out until when, and what is submitted.
* `CooldownsKept`: Nothing is submitted too soon, and no running cooldown is shortened.
* `LoopTick.Orderly`: The tick avoids the two.
* `LoopState.Safe`: What a run keeps.

## Theorems

* `Safe.close`, `Safe.fail`, `Safe.enter`: The steps of a tick.
* `tick_safe`: A tick.
* `run_cooldownsKept`: Orderly ticks keep the cooldowns.
* `close_shortens_cooldown`: A run that does not.
-/

namespace OptionsBot

/-- The intent an event submits falls under a key. -/
def LoopEvent.Enters (key : CooldownKey) : LoopEvent → Prop
  | .close _ => False
  | .entry intent _ => key.Concerns intent.strategyId intent.underlying

namespace Moment

/-- What has happened bars a key up to a time: a close for as long as configured, a failed
    directional entry for five minutes. -/
def Sets (m : Moment) (key : CooldownKey) (u : DateTime) : Prop :=
  match m.event with
  | .close trade => key.Concerns trade.strategyId trade.underlying ∧
      ∃ d, m.before.exitCooldown key = some d ∧ u = m.now.shift d
  | .entry intent .failed => intent.strategyId = .directional ∧
      key = .underlying intent.underlying ∧
      u = m.now.shift (timedeltaMinutes entryFailureCooldownMinutes)
  | .entry _ _ => False

def Enters (m : Moment) (key : CooldownKey) : Prop := m.event.Enters key

end Moment

/-- Nothing is submitted that an earlier event bars, and nothing shortens a cooldown that still
    runs. -/
structure CooldownsKept (trace : List Moment) : Prop where
  spaced : trace.Pairwise (Spaced Moment.now Moment.Sets Moment.Enters)
  lasts : ∀ m ∈ trace, Lasts m.now m.before.cooldown m.after.cooldown

/-- A close of the trade replaces no cooldown of its underlying that ends after its own. -/
def StrategyRegistry.LastsClose (registry : StrategyRegistry) (trade : Trade) (now : DateTime) :
    Prop :=
  trade.strategyId = .directional → ∀ strat, registry.get .directional = .ok (.directional strat) →
    0 < strat.config.entry.cooldownMinutesAfterUnderlyingStop →
    ∀ c, registry.cooldown (.underlying trade.underlying) = some c →
      c ≤ now.shift (timedeltaMinutes strat.config.entry.cooldownMinutesAfterUnderlyingStop)

/-- After a failed directional entry the gate turns another one on its underlying down. -/
def StaysOut (a b : Intent × IntentOutcome) : Prop :=
  a.1.strategyId = .directional → b.1.strategyId = .directional →
    a.1.underlying = b.1.underlying → a.2 = .failed → b.2 = .rejected

/-- The tick lets no close shorten a cooldown, and no directional intent past the gate after the
    entry of another one on its underlying has failed. -/
structure LoopTick.Orderly (npStd : List ℚ → ℚ) (s : LoopState) (t : LoopTick) : Prop where
  closes : ∀ trade ∈ t.closes, s.registry.LastsClose trade t.market.now
  entries : t.exitsRaise = false → (LoopState.reached (s.attempts npStd t)).Pairwise StaysOut

/-- What a run keeps: beside the two laws, the registry has all that is barred, and no straddle
    cooldown is longer than configured. -/
structure LoopState.Safe (s : LoopState) : Prop where
  kept : CooldownsKept s.trace
  covered : Covered Moment.Sets s.registry.cooldown s.now s.trace
  straddle : ∀ c, s.registry.cooldown .straddle = some c →
    ∃ d, s.registry.exitCooldown .straddle = some d ∧ c ≤ s.now.shift d

/-- A cooldown that is replaced by a later one lasts, and so do the others. -/
theorem lasts_bar (registry : StrategyRegistry) (key : CooldownKey) (u now : DateTime)
    (hget : ∃ s, registry.get key.strategyId = .ok s)
    (h : ∀ c, registry.cooldown key = some c → c ≤ u) :
    Lasts now registry.cooldown (registry.bar key u).cooldown := by
  rcases hget with ⟨s, hget⟩
  intro key' c hc _
  rw [registry.cooldown_bar key key' u s hget]
  by_cases hkey : key' = key
  · rw [hkey] at hc
    exact ⟨u, if_pos hkey, h c hc⟩
  · exact ⟨c, by rw [if_neg hkey]; exact hc, le_refl c⟩

theorem shift_mono (a b : DateTime) (d : Int) (h : a ≤ b) : a.shift d ≤ b.shift d :=
  Int.add_le_add_right h d

/-- The cooldown of a failed entry ends later than now. -/
theorem failure_after (now : DateTime) :
    now ≤ now.shift (timedeltaMinutes entryFailureCooldownMinutes) :=
  Int.le_add_of_nonneg_right (show 0 ≤ timedeltaMinutes entryFailureCooldownMinutes by
    decide +kernel)

namespace LoopState.Safe

variable {s : LoopState}

/-- The clock moves on. -/
theorem advance (h : s.Safe) (now : DateTime) (hnow : s.now ≤ now) :
    LoopState.Safe { s with now := now } := by
  refine ⟨h.kept, covered_lasts h.covered hnow (Lasts.refl _ _), fun c hc => ?_⟩
  rcases h.straddle c hc with ⟨d, hd, hle⟩
  exact ⟨d, hd, le_trans hle (shift_mono _ _ d hnow)⟩

/-- Something that passes no cooldown, shortens none, and leaves what it bars in the registry. -/
theorem record (h : s.Safe) (event : LoopEvent) (after : StrategyRegistry)
    (hpasses : ∀ key, event.Enters key → ∀ c, s.registry.cooldown key = some c → c ≤ s.now)
    (hlasts : Lasts s.now s.registry.cooldown after.cooldown)
    (hsets : ∀ key u, (Moment.mk event s.now s.registry after).Sets key u →
      u ≤ s.now ∨ ∃ c, after.cooldown key = some c ∧ u ≤ c)
    (hstraddle : ∀ c, after.cooldown .straddle = some c →
      ∃ d, after.exitCooldown .straddle = some d ∧ c ≤ s.now.shift d) :
    (s.record event after).Safe := by
  refine ⟨⟨?_, ?_⟩, ?_, hstraddle⟩
  · exact spaced_append h.kept.spaced h.covered _ (le_refl _) hpasses
  · intro m hm
    rcases List.mem_append.mp hm with hold | hnew
    · exact h.kept.lasts m hold
    · rw [List.mem_singleton.mp hnew]
      exact hlasts
  · exact covered_append (covered_lasts h.covered (le_refl _) hlasts) _ hsets

/-- A key is barred up to a time that is not before its own cooldown. -/
theorem record_bar (h : s.Safe) (event : LoopEvent) (key : CooldownKey) (u : DateTime)
    (hget : ∃ strategy, s.registry.get key.strategyId = .ok strategy)
    (hpasses : ∀ key, event.Enters key → ∀ c, s.registry.cooldown key = some c → c ≤ s.now)
    (hle : ∀ c, s.registry.cooldown key = some c → c ≤ u)
    (hsets : ∀ key' u', (Moment.mk event s.now s.registry (s.registry.bar key u)).Sets key' u' →
      key' = key ∧ u' = u)
    (hstraddle : key = .straddle →
      ∃ d, s.registry.exitCooldown .straddle = some d ∧ u = s.now.shift d) :
    (s.record event (s.registry.bar key u)).Safe := by
  rcases hget with ⟨strategy, hget⟩
  refine h.record event _ hpasses (lasts_bar s.registry key u s.now ⟨strategy, hget⟩ hle) ?_ ?_
  · intro key' u' hset
    rcases hsets key' u' hset with ⟨rfl, rfl⟩
    exact Or.inr ⟨u', by rw [s.registry.cooldown_bar _ _ _ strategy hget, if_pos rfl], le_refl _⟩
  · intro c hc
    rw [s.registry.cooldown_bar key .straddle u strategy hget] at hc
    rw [StrategyRegistry.bar, s.registry.exitCooldown_updateContext]
    split_ifs at hc with hkey
    · rcases hstraddle hkey.symm with ⟨d, hd, hu⟩
      rw [Option.some.injEq] at hc
      exact ⟨d, hd, by rw [← hc, hu]⟩
    · exact h.straddle c hc

/-- The registry stays as it is. -/
theorem record_same (h : s.Safe) (event : LoopEvent)
    (hpasses : ∀ key, event.Enters key → ∀ c, s.registry.cooldown key = some c → c ≤ s.now)
    (hsets : ∀ key u, (Moment.mk event s.now s.registry s.registry).Sets key u → u ≤ s.now) :
    (s.record event s.registry).Safe :=
  h.record event s.registry hpasses (Lasts.refl _ _) (fun key u hset => Or.inl (hsets key u hset))
    h.straddle

theorem close (h : s.Safe) (trade : Trade) (hlasts : s.registry.LastsClose trade s.now) :
    (s.close trade).Safe := by
  unfold LoopState.close
  rcases exit_cases s.registry trade s.now with ⟨key, d, hkey, hd, hpos, hbar⟩ | ⟨hsame, hzero⟩
  · rw [hbar]
    refine h.record_bar _ key _ (s.registry.registered_of_exitCooldown key d hd)
      (fun _ hpass => absurd hpass id) ?_ ?_
      (fun hstraddle => ⟨d, by rw [← hstraddle]; exact hd, rfl⟩)
    · -- What is replaced ends no later: by the condition on an underlying, and because all
      -- straddle cooldowns are equally long.
      intro c hc
      cases key with
      | underlying u =>
          rcases s.registry.exitCooldown_underlying u d hd with ⟨strat, hget, hd⟩
          rw [← hkey.2] at hc
          rw [hd]
          exact hlasts hkey.1 strat hget (hpos strat (by rw [hkey.1]; exact hget)) c hc
      | straddle =>
          rcases h.straddle c hc with ⟨d', hd', hle⟩
          rw [hd', Option.some.injEq] at hd
          rw [← hd]
          exact hle
    · rintro key' u' ⟨hkey', d', hd', rfl⟩
      have hsame := hkey'.unique hkey
      rw [hsame] at hd'
      rw [show s.registry.exitCooldown key = some d' from hd', Option.some.injEq] at hd
      rw [hd]
      exact ⟨hsame, rfl⟩
  · -- Without a configured time what the close bars is over at once.
    rw [hsame]
    refine h.record_same _ (fun _ hpass => absurd hpass id) ?_
    rintro key u ⟨hkey, d, hd, rfl⟩
    rw [hzero key d hkey hd]
    exact le_of_eq (congrArg DateTime.mk (Int.add_zero _))

end LoopState.Safe

/-- After a close the later ones of the tick, at the same time, still shorten nothing. -/
theorem close_lastsClose (s : LoopState) (trade other : Trade)
    (h : s.registry.LastsClose other s.now) :
    (s.close trade).registry.LastsClose other s.now := by
  intro hid strat hget hpos c hc
  have hregistry : (s.close trade).registry = applyLongStraddleExitCooldown
      (applyDirectionalExitCooldown s.registry trade s.now) trade s.now := rfl
  rw [hregistry] at hget hc
  rcases exit_cases s.registry trade s.now with ⟨key, d, hkey, hd, _, hbar⟩ | ⟨hsame, _⟩
  · rw [hbar] at hget hc
    rcases s.registry.directional_bar key _ strat hget with ⟨old, hold, hconfig⟩
    rcases s.registry.registered_of_exitCooldown key d hd with ⟨strategy, hstrategy⟩
    rw [s.registry.cooldown_bar _ _ _ strategy hstrategy] at hc
    rw [hconfig] at hpos ⊢
    split_ifs at hc with hsplit
    · -- The cooldown is the one this close has set, as long as the other one's.
      rw [← hsplit] at hd
      rcases s.registry.exitCooldown_underlying _ d hd with ⟨strat', hget', hd'⟩
      rw [hold] at hget'
      cases hget'
      rw [Option.some.injEq] at hc
      rw [← hc, hd']
    · exact h hid old hold hpos c hc
  · rw [hsame] at hget hc
    exact h hid strat hget hpos c hc

namespace LoopState.Safe

variable {s : LoopState}

/-- The exits of a tick. -/
theorem closes (h : s.Safe) (trades : List Trade)
    (hlasts : ∀ trade ∈ trades, s.registry.LastsClose trade s.now) :
    (trades.foldl LoopState.close s).Safe := by
  induction trades generalizing s with
  | nil => exact h
  | cons trade rest ih =>
      exact ih (h.close trade (hlasts trade List.mem_cons_self)) (fun other hother =>
        close_lastsClose s trade other (hlasts other (List.mem_cons_of_mem _ hother)))

/-- A failed entry of an intent that was clear. -/
theorem fail (h : s.Safe) (intent : Intent) (hclear : s.registry.Clear s.now intent) :
    (s.record (.entry intent .failed)
      (applyDirectionalEntryFailureCooldown s.registry intent s.now)).Safe := by
  by_cases hid : intent.strategyId = .directional
  · rcases hclear.registered with ⟨strategy, hget⟩
    rw [hid] at hget
    have hkey : (CooldownKey.underlying intent.underlying).Concerns intent.strategyId
        intent.underlying := ⟨hid, rfl⟩
    rw [entryFailure_bar s.registry intent s.now strategy hid hget]
    -- What the intent passed has run out, so five minutes from now is later.
    exact h.record_bar _ (.underlying intent.underlying) _ ⟨strategy, hget⟩ hclear.passes
      (fun c hc => le_trans (hclear.passes _ hkey c hc) (failure_after s.now))
      (fun _ _ hset => hset.2) (fun hstraddle => by cases hstraddle)
  · -- An entry of another strategy bars nothing when it fails.
    rw [entryFailure_other s.registry intent s.now hid]
    exact h.record_same _ hclear.passes (fun _ _ hset => absurd hset.1 hid)

/-- The intents of a tick. -/
theorem enter (h : s.Safe) (attempts : List (Intent × IntentOutcome))
    (hclear : ∀ a ∈ LoopState.reached attempts, a.2 ≠ .rejected → s.registry.Clear s.now a.1)
    (hpair : (LoopState.reached attempts).Pairwise StaysOut) : (s.enter attempts).Safe := by
  induction attempts generalizing s with
  | nil => exact h
  | cons a rest ih =>
      rcases a with ⟨intent, outcome⟩
      cases outcome with
      | raised =>
          -- The loop ends here, and leaves the registry.
          have hpasses := (hclear (intent, .raised) List.mem_cons_self nofun).passes
          have hsafe := h.record_same (.entry intent .raised) hpasses
            (fun _ _ hset => absurd hset id)
          exact ⟨hsafe.kept, hsafe.covered, hsafe.straddle⟩
      | rejected =>
          exact ih h (fun a ha => hclear a (List.mem_cons_of_mem _ ha))
            (List.pairwise_cons.mp hpair).2
      | opened =>
          have hpasses := (hclear (intent, .opened) List.mem_cons_self nofun).passes
          exact ih (h.record_same _ hpasses (fun _ _ hset => absurd hset id))
            (fun a ha => hclear a (List.mem_cons_of_mem _ ha)) (List.pairwise_cons.mp hpair).2
      | failed =>
          rcases List.pairwise_cons.mp hpair with ⟨hlater, hrest⟩
          have hhead := hclear (intent, .failed) List.mem_cons_self nofun
          refine ih (h.fail intent hhead) (fun a ha hpast => ?_) hrest
          -- The gate has turned the other intents on this underlying down.
          refine clear_of_failure s.registry intent a.1 s.now
            (hclear a (List.mem_cons_of_mem _ ha) hpast) (fun hid hid' hsame => ?_)
          exact hpast (hlater a ha hid hid' hsame rfl)

end LoopState.Safe

section Run

variable (npStd : List ℚ → ℚ) (s : LoopState) (t : LoopTick)

/-- The exits of a tick keep the time and the laws. -/
theorem exited_safe (h : s.Safe) (hnow : s.now ≤ t.market.now) (horderly : t.Orderly npStd s) :
    (s.exited t).Safe :=
  (h.advance t.market.now hnow).closes t.closes horderly.closes

theorem exited_now : (s.exited t).now = t.market.now := by
  have hfold : ∀ (trades : List Trade) (a : LoopState),
      (trades.foldl LoopState.close a).now = a.now := by
    intro trades
    induction trades with
    | nil => exact fun _ => rfl
    | cons trade rest ih => exact fun a => ih (a.close trade)
  exact hfold t.closes _

theorem tick_safe (h : s.Safe) (hnow : s.now ≤ t.market.now)
    (horderly : s.running = true → t.Orderly npStd s) : (s.tick npStd t).Safe := by
  unfold LoopState.tick
  split_ifs with hrunning hraise
  · exact h
  · have hexited := exited_safe npStd s t h hnow
      (horderly (by rw [Bool.not_eq_true', Bool.not_eq_false] at hrunning; exact hrunning))
    exact ⟨hexited.kept, hexited.covered, hexited.straddle⟩
  · rw [Bool.not_eq_true', Bool.not_eq_false] at hrunning
    rw [Bool.not_eq_true] at hraise
    refine (exited_safe npStd s t h hnow (horderly hrunning)).enter _ (fun a ha _ => ?_)
      ((horderly hrunning).entries hraise)
    rcases List.mem_mapIdx.mp (LoopState.mem_of_reached _ a ha) with ⟨k, hk, rfl⟩
    -- The intents were evaluated at the time of the tick, after its exits.
    rw [exited_now]
    exact allIntents_clear _ npStd t.market _ (List.getElem_mem hk)

/-- A process starts with no cooldown. -/
theorem start_safe (app : AppConfig) (now : DateTime) : (LoopState.start app now).Safe := by
  refine ⟨⟨List.Pairwise.nil, fun m hm => absurd hm List.not_mem_nil⟩,
    fun m hm => absurd hm List.not_mem_nil, fun c hc => ?_⟩
  rw [show (LoopState.start app now).registry.cooldown .straddle = none from
    StrategyRegistry.cooldown_ofConfig app .straddle] at hc
  cases hc

/-- In a run of the main loop with a clock that does not go back, whose ticks are orderly, nothing
    is submitted that is barred, and no running cooldown is shortened. -/
theorem run_cooldownsKept (app : AppConfig) (now : DateTime)
    (hrun : Run (fun s t => s.tick npStd t)
      (fun s t => s.now ≤ t.market.now ∧ (s.running = true → t.Orderly npStd s))
      (LoopState.start app now) s) : CooldownsKept s.trace :=
  (hrun.invariant LoopState.Safe (fun a e hguard ha => tick_safe npStd a e ha hguard.1 hguard.2)
    (start_safe app now)).kept

end Run

/-- A directional strategy on one underlying, with a cooldown of a minute after its closes. -/
def briskConfig : AppConfig :=
  { globalConfig := shippedGlobalConfig
    strategies :=
      [.directional
        { riskWeight := 1, riskPerTradePct := 1 / 100, maxLotsCap := 10, underlyings := [.btc]
          weight_bounds := by decide
          perTrade_bounds := shippedDirectionalConfig.perTrade_bounds
          maxLotsCap_pos := by decide
          entry :=
            { cooldownMinutesAfterUnderlyingStop := 1, cooldown_nonneg := by decide }
          expiry := shippedDirectionalExpiry, exits := shippedDirectionalExits }]
    unique_ids := List.nodup_singleton _
    weights_sum := by decide +kernel }

/-- The breakout upwards, some minutes past ten, with a call listed for the next day. -/
def callBreakout (minute : Int) : MarketState :=
  { breakoutMarket with
    now := combine (ymdToOrdinal 2026 5 12) (hourMinute 10 minute)
    chain := callChain }

/-- A directional trade that is open besides. -/
def earlierCall : Trade :=
  { id := 1, strategyId := .directional, underlying := .btc, expiry := none
    entryTs := combine (ymdToOrdinal 2026 5 12) (hourMinute 5 0), lots := 3 }

def briskStart : LoopState := LoopState.start briskConfig (callBreakout 0).now

/-- A close and an entry that is opened, in one tick. -/
theorem run_cooldownsKept_brisk : CooldownsKept
    (briskStart.tick (fun _ => 0)
      { market := callBreakout 0, closes := [earlierCall],
        outcome := fun _ => .opened }).trace := by
  refine run_cooldownsKept (fun _ => 0) _ briskConfig (callBreakout 0).now
    (Run.single briskStart _ ⟨le_refl _, fun _ => ⟨?_, fun _ => ?_⟩⟩)
  · intro trade _ _ strat _ _ c hc
    rw [show briskStart.registry.cooldown (.underlying trade.underlying) = none from
      StrategyRegistry.cooldown_ofConfig briskConfig _] at hc
    cases hc
  · refine List.pairwise_of_forall_mem_list (fun a ha b _ _ _ _ hfailed => ?_)
    rcases List.mem_mapIdx.mp (LoopState.mem_of_reached _ a ha) with ⟨k, hk, rfl⟩
    cases hfailed

/-- An entry that fails, and a minute later the close of another trade on the underlying. -/
def briskTicks : List LoopTick :=
  [{ market := callBreakout 0, outcome := fun _ => .failed },
   { market := callBreakout 1, closes := [earlierCall], outcome := fun _ => .opened }]

/-- The close replaces a cooldown until five past ten by one until two past. -/
theorem close_shortens_cooldown :
    ¬ ∀ (npStd : List ℚ → ℚ) (s : LoopState) (app : AppConfig) (now : DateTime),
      Run (fun s t => s.tick npStd t) (fun s t => s.now ≤ t.market.now)
        (LoopState.start app now) s → CooldownsKept s.trace := by
  intro hall
  have hkept := hall (fun _ => 0) (briskTicks.foldl (fun s t => s.tick (fun _ => 0) t) briskStart)
    briskConfig (callBreakout 0).now
    (Run.cons _ _ _ (le_refl _) (Run.single _ _ (by decide +kernel)))
  have htrace : (briskTicks.foldl (fun s t => s.tick (fun _ => 0) t) briskStart).trace.map
      (fun m => (m.now, m.before.cooldown (.underlying .btc),
        m.after.cooldown (.underlying .btc))) =
      [((callBreakout 0).now, none, some (callBreakout 5).now),
        ((callBreakout 1).now, some (callBreakout 5).now, some (callBreakout 2).now)] := by
    decide +kernel
  have hmem : ((callBreakout 1).now, some (callBreakout 5).now, some (callBreakout 2).now) ∈
      (briskTicks.foldl (fun s t => s.tick (fun _ => 0) t) briskStart).trace.map (fun m =>
        (m.now, m.before.cooldown (.underlying .btc), m.after.cooldown (.underlying .btc))) := by
    rw [htrace]
    exact List.mem_cons_of_mem _ List.mem_cons_self
  rcases List.mem_map.mp hmem with ⟨m, hm, hcolumns⟩
  rw [Prod.mk.injEq, Prod.mk.injEq] at hcolumns
  rcases hkept.lasts m hm (.underlying .btc) _ hcolumns.2.1 (by rw [hcolumns.1]; decide) with
    ⟨c, hc, hle⟩
  rw [hcolumns.2.2, Option.some.injEq] at hc
  rw [← hc] at hle
  exact absurd hle (by decide)

end OptionsBot
