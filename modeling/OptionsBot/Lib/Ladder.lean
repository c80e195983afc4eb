import Mathlib.Algebra.Order.Group.Abs
import Mathlib.Data.List.Sort

/-!
# Ladders

A list of items ordered by a key, such as a price. `nearest` is the item whose
key is closest to a given one, and the earliest of those that are equally close.
`above` and `below` are the neighbours of a key: the first item of a greater key
and the last one of a smaller.

In a ladder that is ordered strictly the neighbours of an item are the ones next
to it. Items of equal keys break this: the one next to an item is then not a
neighbour of its key.

## Main definitions

* `nearest`: The item closest to a key.
* `above`, `below`: The neighbours of a key.

## Theorems

* `first_least`, `first_isSome`: The first item after a stable sort by cost, and that there
  is one.
* `nearest_mem`, `nearest_isSome`: The nearest item is an item, and there is one.
* `nearest_key`: Its key depends on the keys alone.
* `below_greatest`: What the neighbour below is among the items.
* `above_next`: In a strict ladder the neighbour above is next in the list.
-/

namespace OptionsBot

namespace Ladder

/-- Of items in order, the first after a sort by cost costs least, and comes first
    among those that cost no more. -/
theorem first_least {α κ : Type} [LinearOrder κ] (cost : α → κ) (r : α → α → Prop)
    (hrefl : ∀ a, r a a) (items : List α) (hsorted : items.Pairwise r) (m : α)
    (h : (items.insertionSort (fun a b => cost a ≤ cost b)).head? = some m) :
    ∀ x ∈ items, cost m < cost x ∨ cost m = cost x ∧ r m x := by
  induction items generalizing m with
  | nil => exact fun x hx => absurd hx List.not_mem_nil
  | cons a rest ih =>
      rw [List.pairwise_cons] at hsorted
      rw [List.insertionSort_cons] at h
      intro x hx
      rcases hrest : rest.insertionSort (fun a b => cost a ≤ cost b) with _ | ⟨b, tail⟩
      · rw [hrest] at h
        have hnil : rest = [] := by
          rw [← List.length_eq_zero_iff, ← List.length_insertionSort (fun a b => cost a ≤ cost b),
            hrest, List.length_nil]
        cases h
        rw [hnil, List.mem_singleton] at hx
        rw [hx]
        exact Or.inr ⟨rfl, hrefl a⟩
      · have hb := ih hsorted.2 b (by rw [hrest]; rfl)
        rw [hrest, List.orderedInsert_cons] at h
        -- The new item goes in front where it costs no more than the first of the rest.
        split_ifs at h with hle
        · cases h
          rcases List.mem_cons.mp hx with rfl | hin
          · exact Or.inr ⟨rfl, hrefl _⟩
          · rcases (hle.trans ((hb x hin).elim le_of_lt (fun he => he.1.le))).lt_or_eq with
              hlt | heq
            · exact Or.inl hlt
            · exact Or.inr ⟨heq, hsorted.1 x hin⟩
        · cases h
          rcases List.mem_cons.mp hx with rfl | hin
          · exact Or.inl (not_le.mp hle)
          · exact hb x hin

/-- A sort loses no item, so it has a first one if there is one. -/
theorem first_isSome {α : Type} (r : α → α → Prop) [DecidableRel r] (items : List α)
    (h : items ≠ []) : ∃ a, (items.insertionSort r).head? = some a := by
  rw [← Option.isSome_iff_exists, List.isSome_head?, ← List.length_pos_iff,
    List.length_insertionSort, List.length_pos_iff]
  exact h

section Nearest

variable {α κ : Type} [AddCommGroup κ] [LinearOrder κ] (key : α → κ)

/-- The first of the items whose key is closest to `k`. -/
def nearest (k : κ) (items : List α) : Option α :=
  (items.insertionSort (fun a b => |key a - k| ≤ |key b - k|)).head?

theorem nearest_mem (k : κ) (items : List α) (a : α) (h : nearest key k items = some a) :
    a ∈ items :=
  (List.mem_insertionSort _).mp (List.mem_of_head? h)

/-- Some item is nearest, if there is one. -/
theorem nearest_isSome (k : κ) (items : List α) (h : items ≠ []) :
    ∃ a, nearest key k items = some a :=
  first_isSome (fun a b => |key a - k| ≤ |key b - k|) items h

/-- The key of the nearest item is the nearest of the keys. -/
theorem nearest_key (k : κ) (items : List α) :
    (nearest key k items).map key = nearest id k (items.map key) := by
  rw [nearest, nearest, ← List.head?_map,
    List.map_insertionSort (fun a b : α => |key a - k| ≤ |key b - k|)
      (fun a b : κ => |id a - k| ≤ |id b - k|) key items (fun _ _ _ _ => Iff.rfl)]

end Nearest

section Neighbours

variable {α κ : Type} [LinearOrder κ] (key : α → κ)

/-- The first item of a greater key. -/
def above (k : κ) (items : List α) : Option α := items.find? (fun a => decide (k < key a))

/-- The last item of a smaller key. -/
def below (k : κ) (items : List α) : Option α :=
  items.reverse.find? (fun a => decide (key a < k))

theorem below_greatest (k : κ) (items : List α) (a : α)
    (hsorted : items.Pairwise (fun x y => key x ≤ key y)) (h : below key k items = some a) :
    a ∈ items ∧ key a < k ∧ ∀ b ∈ items, key b < k → key b ≤ key a := by
  rcases List.find?_eq_some_iff_append.mp h with ⟨hk, pre, post, hitems, hpre⟩
  rw [decide_eq_true_eq] at hk
  refine ⟨List.mem_reverse.mp (List.mem_of_find?_eq_some h), hk, fun b hb hkb => ?_⟩
  have hrev := List.pairwise_reverse.mpr hsorted
  rw [← List.mem_reverse, hitems] at hb
  rw [hitems] at hrev
  rcases List.mem_append.mp hb with hin | hin
  · -- The search from the end has passed no smaller item.
    have hnot := hpre b hin
    simp only [hkb, decide_true, Bool.not_true, Bool.false_eq_true] at hnot
  · rcases List.mem_cons.mp hin with heq | hin
    · rw [heq]
    · exact (List.pairwise_cons.mp (List.pairwise_append.mp hrev).2.1).1 b hin

/-- In a strict ladder the neighbour above an item is the next one. -/
theorem above_next (pre post : List α) (a : α)
    (hstrict : (pre ++ a :: post).Pairwise (fun x y => key x < key y)) :
    above key (key a) (pre ++ a :: post) = post.head? := by
  rcases List.pairwise_append.mp hstrict with ⟨_, htail, hcross⟩
  rw [above, List.find?_append, List.find?_eq_none.mpr, Option.none_or, List.find?_cons_of_neg]
  · cases post with
    | nil => rfl
    | cons b rest =>
        rw [List.find?_cons_of_pos, List.head?_cons]
        exact decide_eq_true ((List.pairwise_cons.mp htail).1 b List.mem_cons_self)
  · simp only [lt_self_iff_false, decide_false, Bool.false_eq_true, not_false_eq_true]
  · intro x hx hlt
    exact absurd (hcross x hx a List.mem_cons_self) (not_lt.mpr (of_decide_eq_true hlt).le)

end Neighbours

end Ladder

end OptionsBot
