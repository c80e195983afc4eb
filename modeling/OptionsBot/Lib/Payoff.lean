import Mathlib.Algebra.Order.Group.Abs
import Mathlib.Tactic.Abel

/-!
# Option Payoffs

What a call and a put are worth when they settle, as functions of the strike and
the settlement price. A call and a put of one strike differ by a forward, which
turns a bound on one kind into a bound on the other.

A vertical, an option against another of the same kind, pays between nothing and
the distance of the strikes, whatever the settlement.

## Main definitions

* `call`, `put`: The value at settlement.

## Theorems

* `parity`: A call less a put of the same strike is a forward.
* `call_vertical`, `put_vertical`: What a vertical pays.
-/

namespace OptionsBot

namespace Payoff

variable {κ : Type} [AddCommGroup κ] [LinearOrder κ] [IsOrderedAddMonoid κ]

def call (strike settlement : κ) : κ := max (settlement - strike) 0

def put (strike settlement : κ) : κ := max (strike - settlement) 0

theorem parity (strike settlement : κ) :
    call strike settlement - put strike settlement = settlement - strike := by
  rw [call, put]
  rcases le_total settlement strike with h | h
  · rw [max_eq_right (sub_nonpos.mpr h), max_eq_left (sub_nonneg.mpr h), zero_sub, neg_sub]
  · rw [max_eq_left (sub_nonneg.mpr h), max_eq_right (sub_nonpos.mpr h), sub_zero]

/-- The lower call against the higher. -/
theorem call_vertical (low high settlement : κ) (h : low ≤ high) :
    0 ≤ call low settlement - call high settlement ∧
      call low settlement - call high settlement ≤ high - low := by
  rw [call, call]
  constructor
  · rw [sub_nonneg]
    exact max_le_max (sub_le_sub_left h settlement) (le_refl 0)
  · -- The lower call is at most the higher one and the distance.
    rw [sub_le_iff_le_add, max_le_iff]
    constructor
    · have hsum : settlement - low = high - low + (settlement - high) := by abel
      rw [hsum]
      exact add_le_add_right (le_max_left _ _) _
    · exact add_nonneg (sub_nonneg.mpr h) (le_max_right _ _)

/-- The higher put against the lower. -/
theorem put_vertical (low high settlement : κ) (h : low ≤ high) :
    0 ≤ put high settlement - put low settlement ∧
      put high settlement - put low settlement ≤ high - low := by
  have hparity : put high settlement - put low settlement =
      (high - low) - (call low settlement - call high settlement) := by
    have hlow := parity low settlement
    have hhigh := parity high settlement
    rw [sub_eq_iff_eq_add] at hlow hhigh
    rw [hlow, hhigh]
    abel
  rcases call_vertical low high settlement h with ⟨hnonneg, hle⟩
  rw [hparity]
  exact ⟨sub_nonneg.mpr hle, sub_le_self _ hnonneg⟩

end Payoff

end OptionsBot
