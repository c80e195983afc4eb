import Mathlib.Algebra.Order.Field.Power
import Mathlib.Data.Int.Log
import Mathlib.Tactic.FieldSimp
import Mathlib.Tactic.Positivity
import OptionsBot.Lib.Rounding

/-!
# Doubles

What is left of a number in a double: 53 binary digits from its first one on, or fewer of
them for a number so small that there is no exponent for it. A tie goes to the even digit.

The error is at most half a step of that grid, so it is a tiny part of the number itself,
and of the smallest double on top. Everything else is arithmetic on these two. A quotient
is where it matters: it is compared with whole numbers, and a quotient that is a little
less than one of them can be rounded up to it.

Numbers too large for a double are infinite there, and are not looked at here.

## Main definitions

* `Double.step`: The distance of the doubles around a number.
* `Double.round`: The nearest double.
* `Double.Near`: A number that a few roundings have moved.
* `Double.slack`: The room that this takes, and what is worked out with it.

## Theorems

* `Double.abs_round_sub`: The error of a rounding.
* `Double.mul_le_of_le_round_div`, `Double.le_round_div_of_mul_le`: Whole parts of a quotient.
* `Double.near_round`, `Double.near_round_mul`: One rounding, and the two of a product of three.
* `Double.Near.le_add_slack`, `Double.Near.le_sub_slack`: What an amount bounds, and its rounding.
-/

namespace OptionsBot

namespace Double

/-- The distance of the doubles around a number. -/
def step (x : ℚ) : ℚ := 2 ^ max (Int.log 2 |x| - 52) (-1074)

/-- The double that is nearest to a number, with an even last digit if two are. -/
def round (x : ℚ) : ℚ := roundHalfEven (x / step x) * step x

/-- Half of the smallest double. -/
def tiny : ℚ := 2 ^ (-1075 : ℤ)

/-- A number is what a few roundings can make of another. -/
def Near (x y : ℚ) : Prop := |y - x| ≤ 3 * |x| / 2 ^ 53 + 3 * tiny

/-- The room around an amount. -/
def slack (x : ℚ) : ℚ := |x| / 2 ^ 49 + 16 * tiny

theorem step_pos (x : ℚ) : 0 < step x := zpow_pos two_pos _

theorem tiny_pos : 0 < tiny := zpow_pos two_pos _

/-- It is far less than one. -/
theorem tiny_le : tiny ≤ 1 / 2 ^ 54 := by
  have hpow : (2 : ℚ) ^ (-1075 : ℤ) ≤ 2 ^ (-54 : ℤ) :=
    zpow_le_zpow_right₀ one_le_two (by norm_num)
  have heq : (2 : ℚ) ^ (-54 : ℤ) = 1 / 2 ^ 54 := by norm_num
  exact heq ▸ hpow

/-- Half a step is a part of the number, unless that is too small to have its own digits. -/
theorem half_step_le (x : ℚ) (hx : x ≠ 0) : step x / 2 ≤ |x| / 2 ^ 53 + tiny := by
  have hlog := Int.zpow_log_le_self one_lt_two (abs_pos.mpr hx)
  unfold step
  rcases max_choice (Int.log 2 |x| - 52) (-1074) with hmax | hmax
  · rw [hmax, zpow_sub₀ two_ne_zero]
    have hdigits : (2 : ℚ) ^ Int.log 2 |x| / 2 ^ (52 : ℤ) / 2 = 2 ^ Int.log 2 |x| / 2 ^ 53 := by
      norm_num [div_div]
    rw [hdigits]
    have hpart : (2 : ℚ) ^ Int.log 2 |x| / 2 ^ 53 ≤ |x| / 2 ^ 53 :=
      div_le_div_of_nonneg_right (by exact_mod_cast hlog) (by positivity)
    linarith [tiny_pos]
  · have hhalf : (2 : ℚ) ^ (-1074 : ℤ) / 2 = tiny := by
      rw [tiny, div_eq_mul_inv, ← zpow_sub_one₀ (two_ne_zero (α := ℚ))]
      rfl
    rw [hmax, hhalf]
    linarith [div_nonneg (abs_nonneg x) (by positivity : (0 : ℚ) ≤ 2 ^ 53)]

theorem round_zero : round 0 = 0 := by
  have hzero : roundHalfEven 0 = 0 := by exact_mod_cast roundHalfEven_intCast 0
  rw [round, zero_div, hzero, Int.cast_zero, zero_mul]

theorem abs_round_sub (x : ℚ) : |round x - x| ≤ |x| / 2 ^ 53 + tiny := by
  by_cases hx : x = 0
  · rw [hx, round_zero, sub_zero, abs_zero, zero_div, zero_add]
    exact tiny_pos.le
  · have hdiff : round x - x = (roundHalfEven (x / step x) - x / step x) * step x := by
      rw [round, sub_mul, div_mul_cancel₀ x (step_pos x).ne']
    have hhalf := mul_le_mul_of_nonneg_right (abs_roundHalfEven_sub (x / step x)) (step_pos x).le
    rw [hdiff, abs_mul, abs_of_pos (step_pos x)]
    linarith [half_step_le x hx]

/-- Three tenths, which have no last binary digit. -/
example : round (3 / 10) = 5404319552844595 / 2 ^ 54 := by decide +kernel

section Quotient

variable (b p : ℚ) (n : Int) (hp : 0 < p) (hn : 1 ≤ n)
include hp hn

/-- A whole number that a rounded quotient reaches is at most a little more than the quotient. -/
theorem mul_le_of_le_round_div (h : (n : ℚ) ≤ round (b / p)) : n * p ≤ b + |b| / 2 ^ 52 := by
  have hone : (1 : ℚ) ≤ n := by exact_mod_cast hn
  have herror := (abs_le.mp (abs_round_sub (b / p))).2
  -- The quotient is no number near zero, since it has been rounded to one at least.
  have hpos : 0 ≤ b / p := by
    by_contra hneg
    rw [abs_of_neg (not_le.mp hneg)] at herror
    linarith [tiny_le]
  rw [abs_of_nonneg hpos] at herror
  have hquotient : (n : ℚ) ≤ b / p + b / p / 2 ^ 52 := by linarith [tiny_le]
  have hb : 0 ≤ b := by
    rw [← div_mul_cancel₀ b hp.ne']
    exact mul_nonneg hpos hp.le
  have hmul := mul_le_mul_of_nonneg_right hquotient hp.le
  rw [add_mul, div_mul_eq_mul_div (b / p), div_mul_cancel₀ b hp.ne'] at hmul
  rwa [abs_of_nonneg hb]

/-- A rounded quotient reaches every whole number that is a little less than the quotient. -/
theorem le_round_div_of_mul_le (h : n * p ≤ b - |b| / 2 ^ 52) : (n : ℚ) ≤ round (b / p) := by
  have hone : (1 : ℚ) ≤ n := by exact_mod_cast hn
  have hprod : p ≤ n * p := le_mul_of_one_le_left hp.le hone
  have hb : 0 ≤ b := by
    by_contra hneg
    rw [abs_of_neg (not_le.mp hneg)] at h
    linarith
  rw [abs_of_nonneg hb] at h
  have hquotient : (n : ℚ) ≤ b / p - b / p / 2 ^ 52 := by
    rw [div_right_comm, ← sub_div, le_div_iff₀ hp]
    exact h
  have hpos : 0 ≤ b / p := div_nonneg hb hp.le
  have herror := (abs_le.mp (abs_round_sub (b / p))).1
  rw [abs_of_nonneg hpos] at herror
  linarith [tiny_le]

end Quotient

theorem part_le_slack (x : ℚ) : |x| / 2 ^ 52 ≤ slack x := by
  unfold slack
  linarith [abs_nonneg x, tiny_pos]

/-- Adding a part to an amount keeps the order. -/
theorem add_part_mono {x y : ℚ} (h : x ≤ y) : x + |x| / 2 ^ 52 ≤ y + |y| / 2 ^ 52 := by
  have hsize := abs_sub_abs_le_abs_sub x y
  rw [abs_sub_comm, abs_of_nonneg (sub_nonneg.mpr h)] at hsize
  linarith

section Product

theorem near_round (x : ℚ) : Near x (round x) := by
  unfold Near
  linarith [abs_round_sub x, abs_nonneg x, tiny_pos]

/-- Two roundings of a product, the second factor a share. -/
theorem near_round_mul (x c : ℚ) (hc : 0 ≤ c) (hc1 : c ≤ 1) :
    Near (x * c) (round (round x * c)) := by
  have hfirst := mul_le_mul_of_nonneg_right (abs_round_sub x) hc
  have hsecond := abs_round_sub (round x * c)
  have hshare : |round x * c - x * c| ≤ |x * c| / 2 ^ 53 + tiny := by
    rw [← sub_mul, abs_mul, abs_of_nonneg hc]
    have htiny := mul_le_mul_of_nonneg_left hc1 tiny_pos.le
    rw [abs_mul, abs_of_nonneg hc]
    linarith
  have hsize : |round x * c| ≤ |x * c| + (|x * c| / 2 ^ 53 + tiny) := by
    linarith [abs_sub_abs_le_abs_sub (round x * c) (x * c)]
  -- The second rounding is of a number that the first has moved.
  have hsum := abs_sub_le (round (round x * c)) (round x * c) (x * c)
  unfold Near
  linarith [abs_nonneg (x * c), tiny_pos]

variable {x y a : ℚ}

/-- What is a little more than a rounded amount is a little more than the amount, and so is what
    its own rounding adds to it. -/
theorem Near.le_add_slack (h : Near x y) (hpos : 0 ≤ a) (ha : a ≤ y + |y| / 2 ^ 52) :
    a + a / 2 ^ 51 + tiny ≤ x + slack x := by
  have hsize := abs_sub_abs_le_abs_sub y x
  have hhigh := (abs_le.mp h).2
  unfold Near at h
  unfold slack
  linarith [abs_nonneg x, le_abs_self x, tiny_pos]

theorem Near.le_sub_slack (h : Near x y) (ha : a ≤ x + -slack x) : a ≤ y - |y| / 2 ^ 52 := by
  have hsize := abs_sub_abs_le_abs_sub y x
  have hlow := (abs_le.mp h).1
  unfold Near at h
  unfold slack at ha
  linarith [abs_nonneg x, tiny_pos]

/-- The rounded product of a whole number and an amount. -/
theorem round_mul_le (p : ℚ) (n : Int) (hp : 0 < p) (hn : 1 ≤ n) :
    round (round n * p) ≤ n * p + n * p / 2 ^ 51 + tiny := by
  have hone : (1 : ℚ) ≤ n := by exact_mod_cast hn
  have hcount : |round n| ≤ n + n / 2 ^ 52 := by
    have herror := abs_round_sub n
    have hgrowth := abs_sub_abs_le_abs_sub (round n) n
    -- The error of a number that is not small is a part of it alone.
    rw [abs_of_nonneg (by linarith : (0 : ℚ) ≤ n)] at herror hgrowth
    linarith [tiny_le]
  have hsize : |round n * p| ≤ n * p + n * p / 2 ^ 52 := by
    rw [abs_mul, abs_of_pos hp]
    exact (mul_le_mul_of_nonneg_right hcount hp.le).trans_eq (by ring)
  have hrounded := (abs_le.mp (abs_round_sub (round n * p))).2
  have hprod : 0 ≤ n * p := mul_nonneg (by linarith) hp.le
  linarith [le_abs_self (round n * p)]

end Product

end Double

end OptionsBot
