import Mathlib.Algebra.BigOperators.Ring.Finset
import Mathlib.Data.Rat.Cast.Order
import Mathlib.Tactic.FieldSimp
import OptionsBot.Core.Candles
import OptionsBot.Lib.MidRank

/-!
# The Laws of the Percentile Rank

The rank is the score of the mid-rank library over twice the length of the
history: an entry below the value counts one and an entry equal to it one half.
So its laws are those of the scores, and the average rank of the entries of a
history is one half whatever ties there are.

## Main definitions

* `rankOf`: The rank of a value in a history, by its score.

## Theorems

* `percentileRank_eq`: The code computes it.
* `rankOf_mem`, `rankOf_mono`, `rankOf_perm`, `rankOf_neg`, `mean_rankOf`: The laws.
* `percentileRank_laws`: The laws of the code.
-/

namespace OptionsBot

/-- The rank of a value in a history, by its score. -/
def rankOf (history : List ℚ) (v : ℚ) : ℚ :=
  (MidRank.score v history : ℚ) / (2 * history.length)

theorem percentileRank_eq (history : List ℚ) (h : history ≠ []) (v : ℚ) :
    percentileRank (some v) history = some (rankOf history v) := by
  have hcounts : (MidRank.score v history : ℚ) =
      2 * (history.filter (fun x => decide (x < v))).length +
        (history.filter (fun x => decide (x = v))).length := by
    exact_mod_cast MidRank.score_counts v history
  simp only [percentileRank, h, if_false, rankOf, hcounts, Option.some.injEq]
  have hlength : (history.length : ℚ) ≠ 0 := by
    simpa using h
  field_simp

section Laws

variable (history : List ℚ)

theorem length_pos_of_ne_nil (h : history ≠ []) : (0 : ℚ) < history.length := by
  exact_mod_cast List.length_pos_iff.mpr h

theorem rankOf_mem (h : history ≠ []) (v : ℚ) : 0 ≤ rankOf history v ∧ rankOf history v ≤ 1 := by
  have hlength := length_pos_of_ne_nil history h
  have hscore : (MidRank.score v history : ℚ) ≤ 2 * history.length := by
    exact_mod_cast MidRank.score_le v history
  constructor
  · exact div_nonneg (Nat.cast_nonneg _) (by linarith)
  · rw [rankOf, div_le_one (by linarith)]
    exact hscore

theorem rankOf_mono (v w : ℚ) (hvw : v ≤ w) : rankOf history v ≤ rankOf history w := by
  have hscore : (MidRank.score v history : ℚ) ≤ MidRank.score w history := by
    exact_mod_cast MidRank.score_mono v w history hvw
  exact div_le_div_of_nonneg_right hscore (by positivity)

theorem rankOf_perm (other : List ℚ) (hother : other.Perm history) (v : ℚ) :
    rankOf other v = rankOf history v := by
  rw [rankOf, rankOf, MidRank.score_perm v hother, hother.length_eq]

theorem rankOf_neg (h : history ≠ []) (v : ℚ) :
    rankOf history v + rankOf (history.map (fun x => -x)) (-v) = 1 := by
  have hlength := length_pos_of_ne_nil history h
  have hscore : (MidRank.score v history : ℚ) +
      MidRank.score (-v) (history.map (fun x => -x)) = 2 * history.length := by
    exact_mod_cast MidRank.score_reflect (fun x : ℚ => -x) (fun _ _ => neg_lt_neg_iff) v history
  rw [rankOf, rankOf, List.length_map, ← add_div, hscore]
  exact div_self (by linarith)

theorem mean_rankOf (h : history ≠ []) :
    (history.map (rankOf history)).sum / history.length = 1 / 2 := by
  have hlength := length_pos_of_ne_nil history h
  -- The common denominator comes out of the sum, and the scores sum to a square.
  have hsum : (history.map (rankOf history)).sum =
      ((history.map (fun v => MidRank.score v history)).sum : ℕ) / (2 * history.length) := by
    simp only [Nat.cast_list_sum, List.map_map, div_eq_mul_inv]
    rw [← List.sum_map_mul_right]
    rfl
  rw [hsum, MidRank.sum_score, Nat.cast_mul]
  field_simp

end Laws

/-- The rank lies between zero and one, grows with the value, does not depend on
    the order of the history, is one less the rank of the mirror image, and
    averages one half over the history. -/
theorem percentileRank_laws (history : List ℚ) (h : history ≠ []) : ∃ rank : ℚ → ℚ,
    (∀ v, percentileRank (some v) history = some (rank v)) ∧
    (∀ v, 0 ≤ rank v ∧ rank v ≤ 1) ∧
    (∀ v w, v ≤ w → rank v ≤ rank w) ∧
    (∀ other, other.Perm history → ∀ v, percentileRank (some v) other = some (rank v)) ∧
    (∀ v, ∃ r, percentileRank (some (-v)) (history.map (fun x => -x)) = some r ∧
      rank v + r = 1) ∧
    (history.map rank).sum / history.length = 1 / 2 := by
  refine ⟨rankOf history, percentileRank_eq history h, rankOf_mem history h,
    rankOf_mono history, ?_, ?_, mean_rankOf history h⟩
  · intro other hother v
    have hne : other ≠ [] := by
      intro hnil
      exact h (hnil ▸ hother).symm.eq_nil
    rw [percentileRank_eq other hne, rankOf_perm history other hother]
  · intro v
    have hne : history.map (fun x => -x) ≠ [] := by
      simpa using h
    exact ⟨_, percentileRank_eq _ hne (-v), rankOf_neg history h v⟩

/-- A history with a tie. -/
theorem percentileRank_laws_tied : ∃ rank : ℚ → ℚ,
    percentileRank (some 2) [2, 1, 2] = some (rank 2) ∧
    (rank 2 + rank 1 + rank 2) / 3 = 1 / 2 := by
  rcases percentileRank_laws [2, 1, 2] (by decide) with ⟨rank, hrank, -, -, -, -, hmean⟩
  refine ⟨rank, hrank 2, ?_⟩
  simpa [add_assoc] using hmean

end OptionsBot
