import Mathlib.Algebra.Order.Field.Rat
import Mathlib.Tactic.Linarith
import OptionsBot.Core.Caps

/-!
# The Order of the Caps

The three caps are tested from the most severe down, each on the relative change
from an anchor of its own. A change from a positive anchor grows with the value,
and one from an anchor that is not positive is zero, so a lower value breaches
every cap that a higher one does.

The drawdown has no such zero. A peak that is not positive is replaced by the
value itself, which is as good as a change of zero unless that value is zero:
then the evaluation divides by it. This is the only gap in the order.

## Main definitions

* `CapStatus.severity`: How severe a status is.
* `CapStatus.ofBreaches`: The most severe of the caps that are breached.

## Theorems

* `pctChange_mono`: The relative change grows with the value.
* `evaluate_status`: The status is that of the breached caps.
* `evaluate_ordered_iff`: When two values are both evaluated, and in order.
-/

namespace OptionsBot

def CapStatus.severity : CapStatus → Nat
  | .ok => 0
  | .dailyTripped => 1
  | .weeklyTripped => 2
  | .circuitBreaker => 3

/-- The status of the most severe cap that is breached. -/
def CapStatus.ofBreaches (lifetime weekly daily : Prop) [Decidable lifetime] [Decidable weekly]
    [Decidable daily] : CapStatus :=
  if lifetime then .circuitBreaker
  else if weekly then .weeklyTripped
  else if daily then .dailyTripped
  else .ok

/-- Breaching more caps is no less severe. -/
theorem CapStatus.ofBreaches_mono (l w d l' w' d' : Prop) [Decidable l] [Decidable w]
    [Decidable d] [Decidable l'] [Decidable w'] [Decidable d'] (hl : l → l') (hw : w → w')
    (hd : d → d') : (ofBreaches l w d).severity ≤ (ofBreaches l' w' d').severity := by
  unfold ofBreaches
  by_cases h : l
  · rw [if_pos h, if_pos (hl h)]
  · rw [if_neg h]
    by_cases h' : w
    · -- The other side is at least at the weekly cap.
      rw [if_pos h', if_pos (hw h')]
      split_ifs <;> decide
    · rw [if_neg h']
      by_cases h'' : d
      · rw [if_pos h'', if_pos (hd h'')]
        split_ifs <;> decide
      · rw [if_neg h'']
        exact Nat.zero_le _

theorem pctChange_mono (anchor lo hi : ℚ) (h : lo ≤ hi) :
    pctChange lo anchor ≤ pctChange hi anchor := by
  unfold pctChange
  split_ifs with hanchor
  · exact (div_le_div_iff_of_pos_right hanchor).mpr (sub_le_sub_right h anchor)
  · exact le_refl 0

namespace DrawdownCaps

/-- Where it does not divide by zero, the evaluation takes the drawdown for the
    relative change from the peak, and reports the breached caps. -/
theorem evaluate_status (caps : DrawdownCaps) (nav : NavTracker)
    (h : ¬ (nav.peakNav ≤ 0 ∧ nav.navNow = 0)) :
    ∃ r, caps.evaluate nav = .ok r ∧ r.status = CapStatus.ofBreaches
      (nav.circuitBreakerTripped = true ∨
        pctChange nav.navNow nav.peakNav ≤ -caps.lifetimeDdPct)
      (pctChange nav.navNow nav.navOpenWeek ≤ -caps.weeklyLossPct)
      (pctChange nav.navNow nav.navOpenToday ≤ -caps.dailyLossPct) := by
  unfold evaluate
  simp only
  by_cases hpeak : nav.peakNav ≤ 0
  · -- The value stands in for the peak, and has not changed from itself.
    have hnow : nav.navNow ≠ 0 := fun hnow => h ⟨hpeak, hnow⟩
    have hdd : pctChange nav.navNow nav.peakNav = (nav.navNow - nav.navNow) / nav.navNow := by
      rw [pctChange, if_neg (not_lt.mpr hpeak), sub_self, zero_div]
    rw [if_pos hpeak, if_neg hnow, hdd]
    exact ⟨_, rfl, rfl⟩
  · have hpos : 0 < nav.peakNav := not_le.mp hpeak
    have hdd : pctChange nav.navNow nav.peakNav = (nav.navNow - nav.peakNav) / nav.peakNav := by
      rw [pctChange, if_pos hpos]
    rw [if_neg hpeak, if_neg hpos.ne', hdd]
    exact ⟨_, rfl, rfl⟩

/-- Two values under the same anchors and flag are both evaluated, the lower one
    to a status that is no less severe, exactly if neither is a zero under a peak
    that is not positive. -/
theorem evaluate_ordered_iff (caps : DrawdownCaps) (nav : NavTracker) (lo hi : ℚ) :
    (∃ low high, caps.evaluate { nav with navNow := lo } = .ok low ∧
        caps.evaluate { nav with navNow := hi } = .ok high ∧
        (lo ≤ hi → high.status.severity ≤ low.status.severity)) ↔
      ¬ (nav.peakNav ≤ 0 ∧ (lo = 0 ∨ hi = 0)) := by
  constructor
  · rintro ⟨low, high, hlow, hhigh, _⟩ ⟨hpeak, hlo | hhi⟩
    · exact (caps.evaluate_raises_iff { nav with navNow := lo }).mpr ⟨hpeak, hlo⟩ low hlow
    · exact (caps.evaluate_raises_iff { nav with navNow := hi }).mpr ⟨hpeak, hhi⟩ high hhigh
  · intro h
    rcases caps.evaluate_status { nav with navNow := lo }
      (fun hz => h ⟨hz.1, Or.inl hz.2⟩) with ⟨low, hlow, hls⟩
    rcases caps.evaluate_status { nav with navNow := hi }
      (fun hz => h ⟨hz.1, Or.inr hz.2⟩) with ⟨high, hhigh, hhs⟩
    refine ⟨low, high, hlow, hhigh, fun hle => ?_⟩
    -- Each of the three changes is lower at the lower value.
    rw [hls, hhs]
    exact CapStatus.ofBreaches_mono _ _ _ _ _ _
      (Or.imp_right (pctChange_mono nav.peakNav lo hi hle).trans)
      (pctChange_mono nav.navOpenWeek lo hi hle).trans
      (pctChange_mono nav.navOpenToday lo hi hle).trans

/-- A value of zero that never had a positive peak is not evaluated. -/
theorem evaluate_not_total : ¬ ∀ (caps : DrawdownCaps) (nav : NavTracker) (lo hi : ℚ),
    (0 < caps.dailyLossPct ∧ caps.dailyLossPct < 1) →
    (0 < caps.weeklyLossPct ∧ caps.weeklyLossPct < 1) →
    (0 < caps.lifetimeDdPct ∧ caps.lifetimeDdPct < 1) →
    ∃ low high, caps.evaluate { nav with navNow := lo } = .ok low ∧
      caps.evaluate { nav with navNow := hi } = .ok high ∧
      (lo ≤ hi → high.status.severity ≤ low.status.severity) := by
  intro hall
  rcases hall { dailyLossPct := 3 / 100, weeklyLossPct := 6 / 100, lifetimeDdPct := 15 / 100 }
    { navNow := 0, navOpenToday := 0, navOpenWeek := 0, peakNav := 0 } 0 0
    (by norm_num) (by norm_num) (by norm_num) with ⟨low, _, hlow, _⟩
  exact (evaluate_raises_iff _ _).mpr ⟨le_refl _, rfl⟩ low hlow

end DrawdownCaps

end OptionsBot
