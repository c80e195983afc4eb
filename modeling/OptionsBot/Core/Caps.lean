import Mathlib.Tactic.Linarith
import Mathlib.Tactic.NormNum
import OptionsBot.Core.Config
import OptionsBot.Lib.Python

/-!
# Loss Caps

The three loss caps and the running account value they are evaluated on. The
lifetime cap is the circuit breaker: it fires on the flag, or on the drawdown
from the peak.

A peak that is not positive is replaced by the value itself, so a value of zero
under such a peak divides by zero. That is the one input the evaluation raises
on.

## Main definitions

* `CapStatus`, `LossCapResult`: The outcome of the caps.
* `DrawdownCaps.evaluate`: The three caps.
* `NavTracker`: The running account value and its anchors.

## Theorems

* `evaluate_tripped`: Under the flag the evaluation never says the caps are fine.
* `evaluate_raises_iff`: When the evaluation divides by zero.
* `evaluate_breaker_iff`: Under a positive peak, when the breaker fires.
-/

namespace OptionsBot

inductive CapStatus where
  | ok
  | dailyTripped
  | weeklyTripped
  | circuitBreaker
  deriving DecidableEq, Repr

structure LossCapResult where
  status : CapStatus
  dailyPnlPct : ℚ
  weeklyPnlPct : ℚ
  drawdownFromPeakPct : ℚ
  deriving DecidableEq

structure DrawdownCaps where
  dailyLossPct : ℚ
  weeklyLossPct : ℚ
  lifetimeDdPct : ℚ

/-- The relative change from an anchor, zero if the anchor is not positive. -/
def pctChange (now anchor : ℚ) : ℚ := if 0 < anchor then (now - anchor) / anchor else 0

/-- The running account value, its daily and weekly anchors and its peak. -/
structure NavTracker where
  navNow : ℚ
  navOpenToday : ℚ
  navOpenWeek : ℚ
  peakNav : ℚ
  circuitBreakerTripped : Bool := false
  deriving DecidableEq

namespace DrawdownCaps

def ofConfig (cfg : RiskCapsConfig) : DrawdownCaps :=
  { dailyLossPct := cfg.dailyLossPct, weeklyLossPct := cfg.weeklyLossPct,
    lifetimeDdPct := cfg.lifetimeDdPct }

def evaluate (caps : DrawdownCaps) (nav : NavTracker) : Except PyError LossCapResult :=
  let peak := if nav.peakNav ≤ 0 then nav.navNow else nav.peakNav
  let dailyPct := pctChange nav.navNow nav.navOpenToday
  let weeklyPct := pctChange nav.navNow nav.navOpenWeek
  if peak = 0 then .error .zeroDivisionError
  else
    let dd := (nav.navNow - peak) / peak
    -- The flag outlives the drawdown that set it, and either outranks the other two caps.
    let status :=
      if nav.circuitBreakerTripped ∨ dd ≤ -caps.lifetimeDdPct then CapStatus.circuitBreaker
      else if weeklyPct ≤ -caps.weeklyLossPct then .weeklyTripped
      else if dailyPct ≤ -caps.dailyLossPct then .dailyTripped
      else .ok
    .ok { status := status, dailyPnlPct := dailyPct, weeklyPnlPct := weeklyPct,
          drawdownFromPeakPct := dd }

/-- The evaluation raises exactly on a value of zero under no positive peak. -/
theorem evaluate_raises_iff (caps : DrawdownCaps) (nav : NavTracker) :
    (∀ r, caps.evaluate nav ≠ .ok r) ↔ nav.peakNav ≤ 0 ∧ nav.navNow = 0 := by
  unfold evaluate
  simp only
  by_cases hpeak : nav.peakNav ≤ 0
  · rw [if_pos hpeak]
    by_cases hnow : nav.navNow = 0
    · rw [if_pos hnow]
      exact ⟨fun _ => ⟨hpeak, hnow⟩, fun _ r h => by cases h⟩
    · rw [if_neg hnow]
      exact ⟨fun h => absurd rfl (h _), fun h => absurd h.2 hnow⟩
  · rw [if_neg hpeak, if_neg (not_le.mp hpeak).ne']
    exact ⟨fun h => absurd rfl (h _), fun h => absurd h.1 hpeak⟩

/-- Under the flag the evaluation raises or fires the breaker. -/
theorem evaluate_tripped (caps : DrawdownCaps) (nav : NavTracker) (r : LossCapResult)
    (hflag : nav.circuitBreakerTripped = true) (h : caps.evaluate nav = .ok r) :
    r.status = .circuitBreaker := by
  unfold evaluate at h
  simp only [hflag, true_or, if_true] at h
  split_ifs at h <;> cases h <;> rfl

/-- Under a positive peak the evaluation returns, and fires the breaker exactly
    on the flag or on the drawdown. -/
theorem evaluate_breaker_iff (caps : DrawdownCaps) (nav : NavTracker) (hpeak : 0 < nav.peakNav) :
    ∃ r, caps.evaluate nav = .ok r ∧ (r.status = .circuitBreaker ↔
      nav.circuitBreakerTripped = true ∨ nav.navNow ≤ (1 - caps.lifetimeDdPct) * nav.peakNav) := by
  -- The drawdown cleared of its division by the peak.
  have hdd : (nav.navNow - nav.peakNav) / nav.peakNav ≤ -caps.lifetimeDdPct ↔
      nav.navNow ≤ (1 - caps.lifetimeDdPct) * nav.peakNav := by
    rw [div_le_iff₀ hpeak]
    constructor <;> intro h <;> linarith
  unfold evaluate
  simp only [if_neg (not_le.mpr hpeak), if_neg hpeak.ne']
  refine ⟨_, rfl, ?_⟩
  rw [← hdd]
  by_cases hfire : nav.circuitBreakerTripped = true ∨
      (nav.navNow - nav.peakNav) / nav.peakNav ≤ -caps.lifetimeDdPct
  · rw [if_pos hfire]
    exact ⟨fun _ => hfire, fun _ => rfl⟩
  · rw [if_neg hfire]
    refine ⟨fun h => ?_, fun h => absurd h hfire⟩
    split_ifs at h

end DrawdownCaps

namespace NavTracker

def updateNav (nav : NavTracker) (newNav : ℚ) : NavTracker :=
  { nav with navNow := newNav, peakNav := max nav.peakNav newNav }

/-- The new daily anchor, and on a Monday the new weekly one. -/
def rollDay (nav : NavTracker) (weekdayNow : Int) : NavTracker :=
  { nav with
    navOpenToday := nav.navNow
    navOpenWeek := if weekdayNow = 0 then nav.navNow else nav.navOpenWeek }

def tripBreaker (nav : NavTracker) : NavTracker := { nav with circuitBreakerTripped := true }

end NavTracker

end OptionsBot
