import Mathlib.Order.Bounds.Basic

/-!
# The Next Element of a Set

What comes next after a point is the least element of a set strictly after it. That
alone says a good deal of a function that returns it. It never goes back as the point
moves on, and it stays where it is until the point gets there. An element before it
is not after the point, so where the elements come at regular distances the next one
is no further off than one of these.

The next element within a part of the order is the next one of all, if the part has
no holes between the two.

## Main definitions

* `IsNext`: The least element of a set strictly after a point.

## Theorems

* `IsNext.unique`: There is one at most.
* `IsNext.mono`: After a later point, the next element is not earlier.
* `IsNext.le_of_lt`: What is before the next element is not after the point.
* `IsNext.stays`: Until it is reached, the next element stays the same.
* `isNext_subtype`: The next element within a part of the order.
-/

namespace OptionsBot

section NextOf

variable {α : Type} [LinearOrder α] {S : Set α} {s t u v : α}

/-- `u` is the least element of a set strictly after `t`. -/
def IsNext (S : Set α) (t u : α) : Prop := IsLeast {v | v ∈ S ∧ t < v} u

theorem IsNext.unique (h : IsNext S t u) (h' : IsNext S t v) : u = v := IsLeast.unique h h'

theorem IsNext.mono (hst : s ≤ t) (hs : IsNext S s u) (ht : IsNext S t v) : u ≤ v :=
  hs.2 ⟨ht.1.1, hst.trans_lt ht.1.2⟩

theorem IsNext.le_of_lt (h : IsNext S t u) (hv : v ∈ S) (hvu : v < u) : v ≤ t := by
  by_contra hvt
  exact absurd (h.2 ⟨hv, not_le.mp hvt⟩) (not_le.mpr hvu)

/-- A point that has not reached the next element of an earlier one has the same next element. -/
theorem IsNext.stays (h : IsNext S s u) (hst : s ≤ t) (htu : t < u) : IsNext S t u :=
  ⟨⟨h.1.1, htu⟩, fun _ hw => h.2 ⟨hw.1, hst.trans_lt hw.2⟩⟩

/-- Within a part of the order that has all there is between two points, the second is the next
    element after the first if it is so in the whole. -/
theorem isNext_subtype {P : α → Prop} (t u : {a // P a}) (hP : ∀ v, t.val < v → v < u.val → P v) :
    IsNext (Set.preimage Subtype.val S) t u ↔ IsNext S t.val u.val := by
  constructor
  · intro h
    refine ⟨h.1, fun w hw => ?_⟩
    by_contra hlt
    -- An element in between would be one of the part.
    have hw' : P w := hP w hw.2 (not_le.mp hlt)
    exact hlt (h.2 (show (⟨w, hw'⟩ : {a // P a}) ∈ _ from hw))
  · intro h
    exact ⟨h.1, fun w hw => h.2 hw⟩

end NextOf

end OptionsBot
