import Mathlib.Algebra.Order.BigOperators.Group.List
import Mathlib.Algebra.Order.Field.Basic
import Mathlib.Order.Lattice
import Mathlib.Order.MinMax
import Mathlib.Tactic.Ring

/-!
# Exponential Smoothing

A running average in which each value counts for a fixed share and what came
before for the rest. Moving all values by one affine map moves the averages by
it, since the shares add up to one. With a share between zero and one the averages
stay in every interval the values are in.

The extrema of a list move along as well, and change places under a map that
reverses the order.

## Main definitions

* `smooth`: The averages after a given one.

## Theorems

* `smooth_affine`: The averages of moved values.
* `smooth_scale`: The case of a scaling.
* `smooth_take`: The first averages are those of the first values.
* `smooth_mem`: What holds of two values and their mixture holds of the averages.
* `smooth_between`, `smooth_nonneg`: Averages of bounded values.
* `mean_between`: So is the mean of a list.
* `foldl_max_monotone`, `foldl_min_monotone`, `foldl_max_antitone`,
  `foldl_min_antitone`: The extrema of moved values.
-/

namespace OptionsBot

namespace Smoothing

section Averages

variable {κ : Type} [CommRing κ]

/-- The averages after one of value `prev`, each value counting for `share`. -/
def smooth (share prev : κ) : List κ → List κ
  | [] => []
  | v :: rest =>
    let next := share * v + (1 - share) * prev
    next :: smooth share next rest

theorem smooth_affine (share a b prev : κ) (values : List κ) :
    smooth share (a * prev + b) (values.map (fun v => a * v + b)) =
      (smooth share prev values).map (fun v => a * v + b) := by
  induction values generalizing prev with
  | nil => rfl
  | cons v rest ih =>
      -- The two shares add up to one, so the offset comes out whole.
      have hnext : share * (a * v + b) + (1 - share) * (a * prev + b) =
          a * (share * v + (1 - share) * prev) + b := by ring
      rw [List.map_cons, smooth, smooth, List.map_cons, hnext, ih]

theorem smooth_scale (share a prev : κ) (values : List κ) :
    smooth share (a * prev) (values.map (fun v => a * v)) =
      (smooth share prev values).map (fun v => a * v) := by
  have h := smooth_affine share a 0 prev values
  simp only [add_zero] at h
  exact h

end Averages

@[simp] theorem smooth_length {κ : Type} [CommRing κ] (share prev : κ) (values : List κ) :
    (smooth share prev values).length = values.length := by
  induction values generalizing prev with
  | nil => rfl
  | cons v rest ih => simp only [smooth, List.length_cons, ih]

/-- An average depends on the values up to its own only. -/
theorem smooth_take {κ : Type} [CommRing κ] (share prev : κ) (values : List κ) (n : Nat) :
    smooth share prev (values.take n) = (smooth share prev values).take n := by
  induction values generalizing prev n with
  | nil => simp [smooth]
  | cons v rest ih =>
      cases n with
      | zero => rfl
      | succ n => simp only [List.take_succ_cons, smooth, ih]

/-- What holds of the mixture of any two values it holds of, holds of the averages. -/
theorem smooth_mem {κ : Type} [CommRing κ] (P : κ → Prop) (share prev : κ) (values : List κ)
    (hmix : ∀ v w, P v → P w → P (share * v + (1 - share) * w)) (hprev : P prev)
    (hvalues : ∀ v ∈ values, P v) : ∀ v ∈ smooth share prev values, P v := by
  induction values generalizing prev with
  | nil => exact fun v hv => absurd hv List.not_mem_nil
  | cons w rest ih =>
      have hnext := hmix w prev (hvalues w List.mem_cons_self) hprev
      intro v hv
      rcases List.mem_cons.mp hv with heq | hin
      · rw [heq]
        exact hnext
      · exact ih _ hnext (fun x hx => hvalues x (List.mem_cons_of_mem w hx)) v hin

section Bounds

variable {κ : Type} [Field κ] [LinearOrder κ] [IsStrictOrderedRing κ]

theorem mix_between (share lo hi v w : κ) (h0 : 0 ≤ share) (h1 : share ≤ 1)
    (hv : lo ≤ v ∧ v ≤ hi) (hw : lo ≤ w ∧ w ≤ hi) :
    lo ≤ share * v + (1 - share) * w ∧ share * v + (1 - share) * w ≤ hi := by
  have hrest : 0 ≤ 1 - share := sub_nonneg.mpr h1
  constructor
  · calc lo = share * lo + (1 - share) * lo := by ring
      _ ≤ share * v + (1 - share) * w :=
        add_le_add (mul_le_mul_of_nonneg_left hv.1 h0) (mul_le_mul_of_nonneg_left hw.1 hrest)
  · calc share * v + (1 - share) * w ≤ share * hi + (1 - share) * hi :=
        add_le_add (mul_le_mul_of_nonneg_left hv.2 h0) (mul_le_mul_of_nonneg_left hw.2 hrest)
      _ = hi := by ring

/-- The averages stay in every interval the values are in. -/
theorem smooth_between (share prev lo hi : κ) (values : List κ) (h0 : 0 ≤ share) (h1 : share ≤ 1)
    (hprev : lo ≤ prev ∧ prev ≤ hi) (hvalues : ∀ v ∈ values, lo ≤ v ∧ v ≤ hi) :
    ∀ v ∈ smooth share prev values, lo ≤ v ∧ v ≤ hi :=
  smooth_mem (fun v => lo ≤ v ∧ v ≤ hi) share prev values
    (fun v w => mix_between share lo hi v w h0 h1) hprev hvalues

theorem mean_between (lo hi : κ) (values : List κ) (hne : values ≠ [])
    (hvalues : ∀ v ∈ values, lo ≤ v ∧ v ≤ hi) :
    lo ≤ values.sum / values.length ∧ values.sum / values.length ≤ hi := by
  have hlength : (0 : κ) < values.length := by
    exact_mod_cast List.length_pos_iff.mpr hne
  have hlo := List.card_nsmul_le_sum values lo (fun v hv => (hvalues v hv).1)
  have hhi := List.sum_le_card_nsmul values hi (fun v hv => (hvalues v hv).2)
  rw [nsmul_eq_mul] at hlo hhi
  constructor
  · rw [le_div_iff₀ hlength, mul_comm]
    exact hlo
  · rw [div_le_iff₀ hlength, mul_comm]
    exact hhi

end Bounds

theorem smooth_nonneg {κ : Type} [CommRing κ] [LinearOrder κ] [IsStrictOrderedRing κ]
    (share prev : κ) (values : List κ) (h0 : 0 ≤ share) (h1 : share ≤ 1) (hprev : 0 ≤ prev)
    (hvalues : ∀ v ∈ values, 0 ≤ v) : ∀ v ∈ smooth share prev values, 0 ≤ v := by
  refine smooth_mem (fun v => 0 ≤ v) share prev values ?_ hprev hvalues
  intro v w hv hw
  exact add_nonneg (mul_nonneg h0 hv) (mul_nonneg (sub_nonneg.mpr h1) hw)

section Extrema

variable {κ μ : Type} [LinearOrder κ] [LinearOrder μ] (f : κ → μ)

theorem foldl_max_monotone (hf : Monotone f) (x : κ) (values : List κ) :
    (values.map f).foldl max (f x) = f (values.foldl max x) := by
  rw [List.foldl_map]
  exact List.foldl_hom f (fun a b => (hf.map_max).symm)

theorem foldl_min_monotone (hf : Monotone f) (x : κ) (values : List κ) :
    (values.map f).foldl min (f x) = f (values.foldl min x) := by
  rw [List.foldl_map]
  exact List.foldl_hom f (fun a b => (hf.map_min).symm)

theorem foldl_max_antitone (hf : Antitone f) (x : κ) (values : List κ) :
    (values.map f).foldl max (f x) = f (values.foldl min x) := by
  rw [List.foldl_map]
  exact List.foldl_hom f (fun a b => (hf.map_min).symm)

theorem foldl_min_antitone (hf : Antitone f) (x : κ) (values : List κ) :
    (values.map f).foldl min (f x) = f (values.foldl max x) := by
  rw [List.foldl_map]
  exact List.foldl_hom f (fun a b => (hf.map_max).symm)

end Extrema

end Smoothing

end OptionsBot
