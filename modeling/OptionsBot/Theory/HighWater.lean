import OptionsBot.Theory.Resumed

/-!
# The Peak the Lifetime Cap Measures From

The account value changes where a trade is closed, and the peak follows it at
the end of the tick. Between the two a second trade can be closed, and the gate
and the sync of the same tick run. A start takes the peak of the latest row,
which only a nightly run and a trip write.

The argument goes by the mark, the larger of the peak and the account value: the
highest value the process still knows of. Whatever the order of the steps, the
mark covers every value there has been, as long as no step loses it. Two kinds
of step can: a close that lowers the value before the peak has followed it, and
a restart before the mark has reached the database.

## Main definitions

* `NavRun`: The engine, and every account value it has had.
* `EngineState.mark`: The highest value the process knows of.
* `MarkOnFile`: A start would find the mark in the database.
* `MarkKept`: The steps that do not lose the mark.
* `PeakKept`: Those, with the caps evaluated under a peak that has followed.

## Theorems

* `mark_kept_iff`: Exactly these steps do not lose the mark.
* `run_seen_le_mark`: Along them the mark covers every value.
* `evaluated_peak_highWater`: And the caps are evaluated under a lifetime peak.
-/

namespace OptionsBot

-- The sample runs below compute with rationals.
attribute [local semireducible] Rat.add Rat.sub Rat.mul Rat.inv

/-- The engine, and every account value it has had since its first start. -/
structure NavRun where
  engine : EngineState
  seen : List ℚ

namespace NavRun

def start (s : EngineState) : NavRun := { engine := s, seen := [s.nav.navNow] }

def step (w : NavRun) (e : EngineEvent) : NavRun :=
  { engine := w.engine.step e, seen := (w.engine.step e).nav.navNow :: w.seen }

/-- No account value has been above the peak. -/
def HighWater (w : NavRun) : Prop := ∀ v ∈ w.seen, v ≤ w.engine.nav.peakNav

end NavRun

/-- The events that evaluate the caps: the gate on an intent, and the sync. -/
def EngineEvent.evaluatesCaps : EngineEvent → Bool
  | .entry _ _ _ _ => true
  | .sync => true
  | _ => false

/-- The highest account value the process knows of. -/
def EngineState.mark (s : EngineState) : ℚ := max s.nav.peakNav s.nav.navNow

/-- A start would find the mark: in the realised account value, or in the latest
    row. -/
def MarkOnFile (s : EngineState) (app : AppConfig) : Prop :=
  s.mark ≤ app.effectiveNavInr + sumRealisedPnlInr (s.trades.map Prod.fst) ∨
    ∃ m, s.navHistory.latest = some m ∧ s.mark ≤ m.peakNavInr

/-- A step that does not lose the mark: the account value is lowered only when the
    peak has followed it, and a restart only comes when the mark is on file. -/
def MarkKept (s : EngineState) : EngineEvent → Prop
  | .updateNav newNav => s.nav.navNow ≤ s.nav.peakNav ∨ s.nav.navNow ≤ newNav
  | .exit execute tradeId trigger => s.nav.navNow ≤ s.nav.peakNav ∨
      s.nav.navNow ≤ (s.exit execute tradeId trigger).nav.navNow
  | .restart app => MarkOnFile s app
  | _ => True

/-- A step that does not lose the mark, and evaluates the caps only when the peak
    has followed the account value. -/
def PeakKept (w : NavRun) (e : EngineEvent) : Prop :=
  MarkKept w.engine e ∧
    (e.evaluatesCaps = true → w.engine.nav.navNow ≤ w.engine.nav.peakNav)

/-- A new account value under the same peak. -/
theorem mark_le_iff (peak nav newNav : ℚ) :
    max peak nav ≤ max peak newNav ↔ nav ≤ peak ∨ nav ≤ newNav := by
  rw [max_le_iff, le_max_iff, le_max_iff]
  exact ⟨fun h => h.2, fun h => ⟨Or.inl le_rfl, h⟩⟩

/-- A close leaves the peak where it is. -/
theorem exit_peak (s : EngineState) (execute : ExitRequest → ExitResult) (tradeId : Nat)
    (trigger : ExitTrigger) : (s.exit execute tradeId trigger).nav.peakNav = s.nav.peakNav := by
  rcases EngineState.exit_booked (s := s) execute tradeId trigger with
    hsame | ⟨_, _, _, _, _, _, ⟨_, hkept⟩ | ⟨_, hclosed⟩⟩
  · rw [hsame]
  · rw [hkept]
  · rw [hclosed]

/-- The mark a start begins with. -/
theorem boot_mark (s : EngineState) (app : AppConfig) :
    s.mark ≤ (boot app s.trades s.navHistory s.runtimeDir s.now).mark ↔ MarkOnFile s app := by
  rcases EngineState.boot_value app s.trades s.navHistory s.runtimeDir s.now with ⟨hnow, hpeak⟩
  unfold MarkOnFile
  rw [EngineState.mark.eq_def (boot app s.trades s.navHistory s.runtimeDir s.now), hnow, hpeak]
  rcases s.navHistory.latest with _ | m
  · -- Without a row the peak starts at the account value.
    simp only [max_self, reduceCtorEq, false_and, exists_false, or_false]
  · simp only [Option.some.injEq, exists_eq_left', le_max_iff]
    tauto

/-- Exactly the steps that keep the mark do not lower it. -/
theorem mark_kept_iff (s : EngineState) (e : EngineEvent) :
    s.mark ≤ (s.step e).mark ↔ MarkKept s e := by
  cases e with
  | clock now => exact iff_of_true le_rfl trivial
  | rollDay =>
      rcases maybeRollIstTradingDay_value s.nav s.now s.lastIstTradingDate with ⟨hnow, hpeak⟩
      refine iff_of_true (le_of_eq ?_) trivial
      simp only [EngineState.mark, EngineState.step, EngineState.rollDay, hnow, hpeak]
  | updateNav newNav =>
      simp only [EngineState.mark, EngineState.step, NavTracker.updateNav, MarkKept]
      rw [max_eq_left (le_max_right s.nav.peakNav newNav)]
      exact mark_le_iff s.nav.peakNav s.nav.navNow newNav
  | exit execute tradeId trigger =>
      simp only [EngineState.mark, EngineState.step, MarkKept, exit_peak]
      exact mark_le_iff s.nav.peakNav s.nav.navNow _
  | entry execute intent input market =>
      rcases EngineState.entry_cases (s := s) execute intent input market with ⟨_, heq⟩
      rw [EngineState.step, heq]
      exact iff_of_true le_rfl trivial
  | sync =>
      refine iff_of_true (le_of_eq ?_) trivial
      rcases EngineState.sync_cases (s := s) with hsame | ⟨_, hpersist⟩
      · rw [EngineState.step, hsame]
      · rw [EngineState.mark, EngineState.mark, EngineState.step,
          (persistCircuitBreakerTrip_ok _ _ _ _ _ _ _ hpersist).1]
        rfl
  | raisePeak =>
      refine iff_of_true ?_ trivial
      simp only [EngineState.mark, EngineState.step, le_max_left]
  | dailyStart =>
      rcases EngineState.dailyStart_cases (s := s) with heq | ⟨_, heq, _⟩ <;>
        rw [EngineState.step, heq] <;> exact iff_of_true le_rfl trivial
  | dailyWrite =>
      rcases EngineState.dailyWrite_cases (s := s) with heq | heq | ⟨_, _, _, heq, _⟩ <;>
        rw [EngineState.step, heq] <;> exact iff_of_true le_rfl trivial
  | shutdown => exact iff_of_true le_rfl trivial
  | resume confirm => exact iff_of_true le_rfl trivial
  | restart app => exact boot_mark s app

theorem run_seen_le_mark (s : EngineState) (w : NavRun)
    (hrun : Run NavRun.step (fun a e => MarkKept a.engine e) (NavRun.start s) w) :
    ∀ v ∈ w.seen, v ≤ w.engine.mark := by
  refine hrun.invariant (fun a => ∀ v ∈ a.seen, v ≤ a.engine.mark) (fun a e hkept ha v hv => ?_) ?_
  · -- The value just seen is below its own mark, and the earlier ones below the old mark.
    rcases List.mem_cons.mp hv with rfl | hold
    · exact le_max_right _ _
    · exact (ha v hold).trans ((mark_kept_iff a.engine e).mpr hkept)
  · intro v hv
    rw [NavRun.start, List.mem_singleton] at hv
    rw [hv]
    exact le_max_right _ _

/-- In every run from a first start whose steps keep the peak, the caps are
    evaluated under a peak that no account value has been above. -/
theorem evaluated_peak_highWater (app : AppConfig) (trades : List (Trade × List Leg))
    (dir : RuntimeDir) (now : DateTime) (w : NavRun)
    (hrun : Run NavRun.step PeakKept (NavRun.start (boot app trades {} dir now)) w)
    (e : EngineEvent) (hkept : PeakKept w e) (heval : e.evaluatesCaps = true) : w.HighWater := by
  have hmark := run_seen_le_mark (boot app trades {} dir now) w
    (hrun.weaken (fun _ _ h => h.1))
  intro v hv
  refine (hmark v hv).trans ?_
  -- The peak has followed the account value, so it is the mark.
  rw [EngineState.mark, max_eq_left (hkept.2 heval)]

/-- Both calls are closed, the one with the profit first, with the end of a tick
    between them. -/
theorem evaluated_peak_highWater_gain :
    NavRun.HighWater
      ([EngineEvent.exit gainExit 2 .target, .raisePeak, .exit lossExit 1 .premiumStop].foldl
        NavRun.step (NavRun.start (boot shippedConfig [lossTrade, gainTrade] {} {} lossNoon))) := by
  refine evaluated_peak_highWater shippedConfig [lossTrade, gainTrade] {} lossNoon _ ?_ .sync
    ⟨trivial, fun _ => by decide⟩ rfl
  refine Run.cons _ (EngineEvent.exit gainExit 2 .target) _ ⟨Or.inl ?_, Bool.noConfusion⟩
    (Run.cons _ EngineEvent.raisePeak _ ⟨trivial, Bool.noConfusion⟩
      (Run.single _ (EngineEvent.exit lossExit 1 .premiumStop) ⟨Or.inl ?_, Bool.noConfusion⟩))
  · decide
  · decide

/-- Closed in one tick, the higher value between the two is never the peak, and
    the sync of that tick measures from the old one. -/
theorem two_closes_lose_peak : ¬ ∀ (app : AppConfig) (trades : List (Trade × List Leg))
    (dir : RuntimeDir) (now : DateTime) (w : NavRun),
    Run NavRun.step (fun _ _ => True) (NavRun.start (boot app trades {} dir now)) w →
      ∀ e : EngineEvent, e.evaluatesCaps = true → w.HighWater := by
  intro hall
  have hhigh := hall shippedConfig [lossTrade, gainTrade] {} lossNoon _
    (Run.ofEvents [EngineEvent.exit gainExit 2 .target, .exit lossExit 1 .premiumStop]
      (fun _ _ _ => trivial) _) .sync rfl
  exact absurd hhigh (by unfold NavRun.HighWater; decide)

end OptionsBot
