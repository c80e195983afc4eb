import Mathlib.Algebra.Order.Field.Basic
import Mathlib.Algebra.Order.Floor.Ring
import Mathlib.Tactic.Linarith
import Mathlib.Tactic.NormNum
import OptionsBot.Lib.Python

/-!
# Rounding to a Grid

Rounding to the nearest integer moves a number by a half at most, and leaves integers
where they are. Whether it goes down or up is read off the distance to the integer
below, and off that integer's parity when the distance is a half.

Rounding to some digits is the same on a grid of powers of ten. A number on a grid
that is coarser than the error can only be the grid point it was rounded from.

## Main definitions

* `RoundsDown`, `RoundsUp`: The numbers not rounded up, and not rounded down.
* `RoundsTo`: The integer that a number is rounded to.
* `MultipleOf`, `nearestMultiple`: A whole number of steps, and the nearest one.
* `HasDigits`: A number with so many decimal digits.

## Theorems

* `roundHalfEven_intCast`, `abs_roundHalfEven_sub`: The rounding of an integer, and
  the error of a rounding.
* `roundHalfEven_le_iff`, `le_roundHalfEven_iff`: The direction of a rounding.
* `roundHalfEven_eq_iff`: The result of a rounding.
* `roundHalfEven_mono`, `roundDigits_mono`: Rounding keeps the order.
* `roundDigits_eq_iff`, `abs_roundDigits_sub`: Rounding to digits.
* `multipleOf_roundDigits_iff`: When a rounded grid point is on the grid.
* `other_multiple_le_iff`: On which side of a number a grid point is that is not the nearest.
-/

namespace OptionsBot

/-- A number that rounding does not raise: it is less than a half above an integer, or
    a half above an even one. -/
def RoundsDown (x : ℚ) : Prop := x - ⌊x⌋ < 1 / 2 ∨ x - ⌊x⌋ = 1 / 2 ∧ ⌊x⌋ % 2 = 0

/-- A number that rounding does not lower: it is an integer, or more than a half above
    one, or a half above an odd one. -/
def RoundsUp (x : ℚ) : Prop :=
  x = ⌊x⌋ ∨ 1 / 2 < x - ⌊x⌋ ∨ x - ⌊x⌋ = 1 / 2 ∧ ⌊x⌋ % 2 ≠ 0

theorem half_le_of_not_down (x : ℚ) (h : ¬ RoundsDown x) :
    1 / 2 ≤ x - ⌊x⌋ ∧ (x - ⌊x⌋ = 1 / 2 → ⌊x⌋ % 2 ≠ 0) :=
  ⟨not_lt.mp (fun hless => h (Or.inl hless)), fun hhalf heven => h (Or.inr ⟨hhalf, heven⟩)⟩

theorem roundHalfEven_of_down (x : ℚ) (h : RoundsDown x) : roundHalfEven x = ⌊x⌋ := by
  unfold roundHalfEven
  simp only
  rcases h with hless | ⟨hhalf, heven⟩
  · rw [if_pos hless]
  · rw [if_neg (not_lt.mpr hhalf.ge), if_neg (not_lt.mpr hhalf.le), if_pos heven]

theorem roundHalfEven_of_not_down (x : ℚ) (h : ¬ RoundsDown x) :
    roundHalfEven x = ⌊x⌋ + 1 := by
  unfold roundHalfEven
  simp only
  rcases half_le_of_not_down x h with ⟨hhalf, hodd⟩
  rw [if_neg (not_lt.mpr hhalf)]
  by_cases hmore : 1 / 2 < x - ⌊x⌋
  · rw [if_pos hmore]
  · rw [if_neg hmore, if_neg (hodd (le_antisymm (not_lt.mp hmore) hhalf))]

theorem roundHalfEven_le_iff (x : ℚ) : (roundHalfEven x : ℚ) ≤ x ↔ RoundsDown x := by
  by_cases h : RoundsDown x
  · rw [roundHalfEven_of_down x h]
    exact iff_of_true (Int.floor_le x) h
  · rw [roundHalfEven_of_not_down x h]
    push_cast
    exact iff_of_false (not_le.mpr (Int.lt_floor_add_one x)) h

theorem le_roundHalfEven_iff (x : ℚ) : x ≤ roundHalfEven x ↔ RoundsUp x := by
  by_cases h : RoundsDown x
  · rw [roundHalfEven_of_down x h]
    constructor
    · exact fun hle => Or.inl (le_antisymm hle (Int.floor_le x))
    · rintro (heq | hmore | ⟨hhalf, hodd⟩)
      · exact heq.le
      · rcases h with hless | ⟨hhalf, -⟩
        · exact absurd hmore (not_lt.mpr hless.le)
        · exact absurd hmore (not_lt.mpr hhalf.le)
      · rcases h with hless | ⟨-, heven⟩
        · exact absurd hhalf hless.ne
        · exact absurd heven hodd
  · rw [roundHalfEven_of_not_down x h]
    push_cast
    refine iff_of_true (Int.lt_floor_add_one x).le ?_
    rcases half_le_of_not_down x h with ⟨hhalf, hodd⟩
    by_cases hmore : 1 / 2 < x - ⌊x⌋
    · exact Or.inr (Or.inl hmore)
    · have heq := le_antisymm (not_lt.mp hmore) hhalf
      exact Or.inr (Or.inr ⟨heq, hodd heq⟩)

/-- An integer nearest to a number, and the even one of two. -/
def RoundsTo (x : ℚ) (k : Int) : Prop := |x - k| < 1 / 2 ∨ |x - k| = 1 / 2 ∧ k % 2 = 0

theorem roundsTo_roundHalfEven (x : ℚ) : RoundsTo x (roundHalfEven x) := by
  have hlow := Int.floor_le x
  by_cases h : RoundsDown x
  · rw [roundHalfEven_of_down x h, RoundsTo, abs_of_nonneg (sub_nonneg.mpr hlow)]
    exact h
  · rcases half_le_of_not_down x h with ⟨hhalf, hodd⟩
    have hdist : |x - ((⌊x⌋ + 1 : Int) : ℚ)| = 1 - (x - ⌊x⌋) := by
      have hhigh := Int.lt_floor_add_one x
      push_cast
      rw [abs_of_nonpos (by linarith)]
      ring
    rw [roundHalfEven_of_not_down x h, RoundsTo, hdist]
    rcases lt_or_eq_of_le hhalf with hmore | heq
    · exact Or.inl (by linarith)
    · -- Half way above an odd integer, the one above is even.
      have hpar := hodd heq.symm
      exact Or.inr ⟨by linarith, by omega⟩

/-- A number is rounded to one integer only. -/
theorem roundsTo_unique (x : ℚ) (k l : Int) (hk : RoundsTo x k) (hl : RoundsTo x l) : k = l := by
  have hdist : ∀ m, RoundsTo x m → |x - m| ≤ 1 / 2 := fun m hm => hm.elim le_of_lt (fun h => h.1.le)
  have hhalf := abs_le.mp (hdist k hk)
  have hhalf' := abs_le.mp (hdist l hl)
  have hkl : k - l ≤ 1 := by
    have : (k : ℚ) - l ≤ 1 := by linarith
    exact_mod_cast this
  have hlk : l - k ≤ 1 := by
    have : (l : ℚ) - k ≤ 1 := by linarith
    exact_mod_cast this
  by_contra hne
  -- They are neighbours, so the number is half way between them, and one of them is odd.
  have hone : (k : ℚ) = l + 1 ∨ (l : ℚ) = k + 1 := by
    rcases lt_or_gt_of_ne hne with hlt | hgt
    · exact Or.inr (by exact_mod_cast (by omega : l = k + 1))
    · exact Or.inl (by exact_mod_cast (by omega : k = l + 1))
  have hfar : |x - k| = 1 / 2 ∧ |x - l| = 1 / 2 := by
    rcases hone with h | h
    · have hx : x = l + 1 / 2 := by linarith
      rw [hx, h]
      exact ⟨by norm_num, by norm_num⟩
    · have hx : x = k + 1 / 2 := by linarith
      rw [hx, h]
      exact ⟨by norm_num, by norm_num⟩
  rcases hk with hless | ⟨-, heven⟩
  · exact absurd hfar.1 hless.ne
  · rcases hl with hless | ⟨-, heven'⟩
    · exact absurd hfar.2 hless.ne
    · omega

theorem roundHalfEven_eq_iff (x : ℚ) (k : Int) : roundHalfEven x = k ↔ RoundsTo x k := by
  constructor
  · intro h
    rw [← h]
    exact roundsTo_roundHalfEven x
  · exact roundsTo_unique x _ k (roundsTo_roundHalfEven x)

theorem roundHalfEven_intCast (n : Int) : roundHalfEven n = n := by
  rw [roundHalfEven_of_down _ (Or.inl (by simp)), Int.floor_intCast]

theorem abs_roundHalfEven_sub (x : ℚ) : |(roundHalfEven x : ℚ) - x| ≤ 1 / 2 := by
  have hlow := Int.floor_le x
  have hhigh := Int.lt_floor_add_one x
  by_cases h : RoundsDown x
  · rw [roundHalfEven_of_down x h, abs_le]
    rcases h with hless | ⟨hhalf, -⟩ <;> constructor <;> linarith
  · have hhalf := (half_le_of_not_down x h).1
    rw [roundHalfEven_of_not_down x h, abs_le]
    push_cast
    constructor <;> linarith

/-- A greater number is not rounded to less. -/
theorem roundHalfEven_mono (x y : ℚ) (h : x ≤ y) : roundHalfEven x ≤ roundHalfEven y := by
  by_contra hlt
  have hgap : (roundHalfEven y : ℚ) + 1 ≤ roundHalfEven x := by
    exact_mod_cast Int.add_one_le_iff.mpr (not_le.mp hlt)
  have herror := abs_le.mp (abs_roundHalfEven_sub x)
  have herror' := abs_le.mp (abs_roundHalfEven_sub y)
  -- There is room for both errors only if the numbers are one.
  have hsame : x = y := by linarith
  exact hlt (by rw [hsame])

/-- A whole number of steps. -/
def MultipleOf (step x : ℚ) : Prop := ∃ k : Int, x = k * step

/-- A number with so many decimal digits. -/
def HasDigits (digits : Nat) (x : ℚ) : Prop := ∃ m : Int, x * 10 ^ digits = m

theorem roundDigits_eq_iff (x : ℚ) (digits : Nat) :
    roundDigits x digits = x ↔ HasDigits digits x := by
  have hpos : (10 : ℚ) ^ digits ≠ 0 := pow_ne_zero _ (by norm_num)
  rw [roundDigits, div_eq_iff hpos]
  constructor
  · exact fun h => ⟨_, h.symm⟩
  · rintro ⟨m, hm⟩
    rw [hm, roundHalfEven_intCast]

theorem roundDigits_mono (x y : ℚ) (digits : Nat) (h : x ≤ y) :
    roundDigits x digits ≤ roundDigits y digits := by
  have hpos : (0 : ℚ) < 10 ^ digits := pow_pos (by norm_num) _
  refine div_le_div_of_nonneg_right ?_ hpos.le
  exact_mod_cast roundHalfEven_mono _ _ (mul_le_mul_of_nonneg_right h hpos.le)

theorem abs_roundDigits_sub (x : ℚ) (digits : Nat) :
    |roundDigits x digits - x| ≤ 1 / 2 / 10 ^ digits := by
  have hpos : (0 : ℚ) < 10 ^ digits := pow_pos (by norm_num) _
  have herror := abs_roundHalfEven_sub (x * 10 ^ digits)
  have hscale : roundDigits x digits - x =
      ((roundHalfEven (x * 10 ^ digits) : ℚ) - x * 10 ^ digits) / 10 ^ digits := by
    rw [roundDigits, sub_div, mul_div_cancel_right₀ _ hpos.ne']
  rw [hscale, abs_div, abs_of_pos hpos]
  exact div_le_div_of_nonneg_right herror hpos.le

/-- Two multiples less than a step apart are one. -/
theorem multiple_unique (k n : Int) (step : ℚ) (h : |(k : ℚ) * step - n * step| < step) :
    k = n := by
  have hstep : 0 < step := lt_of_le_of_lt (abs_nonneg _) h
  rw [← sub_mul, abs_mul, abs_of_pos hstep, mul_lt_iff_lt_one_left hstep] at h
  have hint : |k - n| < 1 := by exact_mod_cast h
  have hzero := Int.abs_lt_one_iff.mp hint
  omega

/-- A multiple of a step wider than the error, rounded to digits, is a multiple only
    where the rounding leaves it alone. -/
theorem multipleOf_roundDigits_iff (step : ℚ) (n : Int) (digits : Nat)
    (hwide : 1 / 2 / 10 ^ digits < step) :
    MultipleOf step (roundDigits (n * step) digits) ↔ HasDigits digits (n * step) := by
  rw [← roundDigits_eq_iff]
  constructor
  · rintro ⟨k, hk⟩
    have herror := abs_roundDigits_sub (n * step) digits
    rw [hk] at herror
    rw [hk, multiple_unique k n step (lt_of_le_of_lt herror hwide)]
  · exact fun h => ⟨n, h⟩

/-- The whole number of steps nearest to a number. -/
def nearestMultiple (step x : ℚ) : ℚ := roundHalfEven (x / step) * step

theorem roundDigits_eq_nearest (x : ℚ) (digits : Nat) :
    roundDigits x digits = nearestMultiple (1 / 10 ^ digits) x := by
  rw [roundDigits, nearestMultiple, div_div_eq_mul_div, div_one, mul_one_div]

section Nearest

variable (step x : ℚ) (hstep : 0 < step)

include hstep in
theorem nearestMultiple_le_iff : nearestMultiple step x ≤ x ↔ RoundsDown (x / step) := by
  rw [nearestMultiple, ← le_div_iff₀ hstep, roundHalfEven_le_iff]

include hstep in
theorem le_nearestMultiple_iff : x ≤ nearestMultiple step x ↔ RoundsUp (x / step) := by
  rw [nearestMultiple, ← div_le_iff₀ hstep, le_roundHalfEven_iff]

include hstep in
theorem abs_nearestMultiple_sub : |nearestMultiple step x - x| ≤ step / 2 := by
  have herror := abs_roundHalfEven_sub (x / step)
  have hscale : nearestMultiple step x - x = (roundHalfEven (x / step) - x / step) * step := by
    rw [nearestMultiple, sub_mul, div_mul_cancel₀ _ hstep.ne']
  rw [hscale, abs_mul, abs_of_pos hstep]
  have hle := mul_le_mul_of_nonneg_right herror hstep.le
  linarith

include hstep in
/-- Another whole number of steps lies on the same side of a number as of the nearest one, since
    it is a step or more away from that. -/
theorem other_multiple_le_iff (p : ℚ) (hp : MultipleOf step p) (hne : p ≠ nearestMultiple step x) :
    (p ≤ x ↔ p ≤ nearestMultiple step x) ∧ (x ≤ p ↔ nearestMultiple step x ≤ p) := by
  rcases hp with ⟨k, rfl⟩
  have herror := abs_le.mp (abs_nearestMultiple_sub step x hstep)
  have hfar : step ≤ |(k : ℚ) * step - nearestMultiple step x| := by
    by_contra hnear
    refine hne ?_
    rw [nearestMultiple, multiple_unique k _ step (not_le.mp hnear)]
  rcases le_abs.mp hfar with habove | hbelow
  · exact ⟨iff_of_false (by linarith) (by linarith), iff_of_true (by linarith) (by linarith)⟩
  · exact ⟨iff_of_true (by linarith) (by linarith), iff_of_false (by linarith) (by linarith)⟩

end Nearest

end OptionsBot
