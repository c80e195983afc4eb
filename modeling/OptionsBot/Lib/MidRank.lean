import Mathlib.Algebra.BigOperators.Group.List.Basic
import Mathlib.Algebra.GroupWithZero.Nat
import Mathlib.Algebra.Order.BigOperators.Group.List
import Mathlib.Order.Monotone.Basic

/-!
# Mid-Ranks

The place of a value in a list, an entry below it counting two and an entry equal
to it one. Every law is one about a pair first: an entry weighs at most two, no
less against a larger value, and a value and an entry weigh two against each
other, whichever is the larger. The laws of the list are sums of these.

## Main definitions

* `weight`: What an entry counts for against a value.
* `score`: Twice the mid-rank of a value in a list.

## Theorems

* `weight_mono`, `weight_swap`, `weight_map`: The laws of a pair.
* `score_le`, `score_mono`, `score_perm`: The score of a value.
* `score_counts`: By the entries below and the entries equal.
* `score_reflect`: A value and its mirror image share the list.
* `score_add_weights`, `sum_score_add`: Each against all of the other side.
* `sum_score`: The scores of all entries of a list.
-/

namespace OptionsBot

namespace MidRank

variable {α β : Type} [LinearOrder α] [LinearOrder β]

/-- What an entry counts for against a value. -/
def weight (v x : α) : Nat := if x < v then 2 else if x = v then 1 else 0

/-- Twice the mid-rank of a value in a list. -/
def score (v : α) (entries : List α) : Nat := (entries.map (weight v)).sum

theorem weight_le (v x : α) : weight v x ≤ 2 := by
  unfold weight
  split_ifs <;> omega

theorem weight_mono (v w x : α) (h : v ≤ w) : weight v x ≤ weight w x := by
  by_cases hlt : x < w
  · simp only [weight, hlt, if_true]
    exact weight_le v x
  · -- An entry that is not below the larger value is not below the smaller one.
    have hlt' : ¬ x < v := fun hx => hlt (lt_of_lt_of_le hx h)
    by_cases hxv : x = v
    · have hxw : x = w := le_antisymm (hxv ▸ h) (not_lt.mp hlt)
      simp only [weight, hxv, hxv.symm.trans hxw, if_true, le_refl]
    · simp only [weight, hlt', hxv, if_false, Nat.zero_le]

theorem weight_swap (v x : α) : weight v x + weight x v = 2 := by
  rcases lt_trichotomy x v with h | h | h
  · simp only [weight, h, not_lt_of_gt h, ne_of_gt h, if_true, if_false]
  · simp only [weight, h, lt_irrefl, if_true, if_false]
  · simp only [weight, h, not_lt_of_gt h, ne_of_gt h, if_true, if_false]

/-- Under a map that reverses the order the two change places. -/
theorem weight_map (f : α → β) (hf : ∀ a b, f a < f b ↔ b < a) (v x : α) :
    weight (f v) (f x) = weight x v := by
  have heq : f x = f v ↔ v = x := by
    constructor
    · intro h
      by_contra hne
      rcases lt_or_gt_of_ne hne with hlt | hlt
      · exact absurd ((hf x v).mpr hlt) (by rw [h]; exact lt_irrefl _)
      · exact absurd ((hf v x).mpr hlt) (by rw [h]; exact lt_irrefl _)
    · intro h
      rw [h]
  simp only [weight, hf, heq]

theorem score_cons (v x : α) (rest : List α) : score v (x :: rest) = weight v x + score v rest :=
  List.sum_cons

theorem score_le (v : α) (entries : List α) : score v entries ≤ 2 * entries.length := by
  induction entries with
  | nil => simp [score]
  | cons x rest ih =>
      have hx := weight_le v x
      rw [score_cons, List.length_cons]
      omega

theorem score_mono (v w : α) (entries : List α) (h : v ≤ w) :
    score v entries ≤ score w entries := by
  induction entries with
  | nil => simp [score]
  | cons x rest ih =>
      rw [score_cons, score_cons]
      exact Nat.add_le_add (weight_mono v w x h) ih

theorem score_perm (v : α) {entries other : List α} (h : other.Perm entries) :
    score v other = score v entries :=
  (h.map (weight v)).sum_eq

theorem score_counts (v : α) (entries : List α) :
    score v entries = 2 * (entries.filter (fun x => decide (x < v))).length +
      (entries.filter (fun x => decide (x = v))).length := by
  induction entries with
  | nil => rfl
  | cons x rest ih =>
      rw [score_cons, ih]
      rcases lt_trichotomy x v with h | h | h
      · simp [weight, h, ne_of_lt h]
        omega
      · simp [weight, h]
        omega
      · simp [weight, not_lt_of_gt h, ne_of_gt h]

/-- The mirror image of a value is above what the value is below. -/
theorem score_reflect (f : α → β) (hf : ∀ a b, f a < f b ↔ b < a) (v : α) (entries : List α) :
    score v entries + score (f v) (entries.map f) = 2 * entries.length := by
  induction entries with
  | nil => simp [score]
  | cons x rest ih =>
      have hpair := weight_swap v x
      have hx := weight_map f hf v x
      rw [List.map_cons, score_cons, score_cons, List.length_cons]
      omega

/-- A value and the entries weigh two against each other. -/
theorem score_add_weights (v : α) (entries : List α) :
    score v entries + (entries.map (fun x => weight x v)).sum = 2 * entries.length := by
  induction entries with
  | nil => simp [score]
  | cons x rest ih =>
      have hpair := weight_swap v x
      rw [score_cons, List.map_cons, List.sum_cons, List.length_cons]
      omega

theorem sum_score_add (entries more : List α) :
    (entries.map (fun v => score v more)).sum + (more.map (fun v => score v entries)).sum =
      2 * (entries.length * more.length) := by
  induction entries with
  | nil => simp [score]
  | cons x rest ih =>
      -- The new entry meets each entry of the other list once from either side.
      have hrow := score_add_weights x more
      have hsplit : (more.map (fun v => score v (x :: rest))).sum =
          (more.map (fun v => weight v x)).sum + (more.map (fun v => score v rest)).sum := by
        simp only [score_cons]
        exact List.sum_map_add
      rw [List.map_cons, List.sum_cons, hsplit, List.length_cons, Nat.add_one_mul rest.length]
      omega

theorem sum_score (entries : List α) :
    (entries.map (fun v => score v entries)).sum = entries.length * entries.length := by
  have h := sum_score_add entries entries
  omega

end MidRank

end OptionsBot
