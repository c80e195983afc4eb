import OptionsBot.Lib.Table

/-!
# Memoised Loops

A loop over items that keeps a value under each item's key, computes one only for a
key that is new, and reads the value back. What it reads for an item is the value of
the first item with the same key. So a memoised loop is the plain one exactly when
each item's value does for it what that of the first does.

Where each result names the item it came from, two loops collect the same results
only if they yield the same for every item.

## Main definitions

* `keep`: Write a value under a key that is new.
* `entry`: The value under a key.
* `leader`: The first item with a key.
* `Holds`: The cache has the values of the leaders of the items seen.

## Theorems

* `entry_keep`: What is found after a write.
* `holds_nil`, `holds_keep`: The invariant of the loop.
* `Holds.reads`: What the loop reads for an item.
* `filterMap_eq_iff`: Two loops with results that name their items.
-/

namespace OptionsBot

namespace Memo

variable {ι κ β : Type} [DecidableEq κ]

/-- The value under a key. -/
def entry (k : κ) (cache : List (κ × β)) : Option β := (Table.lookup Prod.fst k cache).map Prod.snd

/-- Write a value under a key that is new. -/
def keep (k : κ) (v : β) (cache : List (κ × β)) : List (κ × β) :=
  if (entry k cache).isSome then cache else Table.upsert Prod.fst k (fun _ => (k, v)) cache

theorem entry_keep (k k' : κ) (v : β) (cache : List (κ × β)) :
    entry k' (keep k v cache) = (entry k' cache).or (if k' = k then some v else none) := by
  unfold keep
  by_cases hkept : (entry k cache).isSome
  · rw [if_pos hkept]
    by_cases heq : k' = k
    · rw [heq, Option.or_of_isSome hkept]
    · rw [if_neg heq, Option.or_none]
  · rw [if_neg hkept]
    have hnone : entry k cache = none := by simpa using hkept
    by_cases heq : k' = k
    · rw [heq, hnone, Option.none_or, if_pos rfl, entry,
        Table.lookup_upsert_self Prod.fst k (fun _ => (k, v)) cache rfl]
      rfl
    · rw [if_neg heq, Option.or_none, entry, entry,
        Table.lookup_upsert_of_ne Prod.fst k (fun _ => (k, v)) cache rfl k' heq]

section Leaders

variable (key : ι → κ) (value : ι → β)

/-- The first item with a key. -/
def leader (items : List ι) (k : κ) : Option ι := items.find? (fun x => decide (key x = k))

/-- An item's key has a leader, with that key. -/
theorem leader_isSome (items : List ι) (x : ι) (hx : x ∈ items) :
    ∃ y ∈ items, leader key items (key x) = some y ∧ key y = key x := by
  cases h : leader key items (key x) with
  | none =>
      exact absurd (List.find?_eq_none.mp h x hx) (by simp)
  | some y =>
      exact ⟨y, List.mem_of_find?_eq_some h, rfl, by simpa using List.find?_some h⟩

/-- The cache has the values of the leaders of the items seen. -/
def Holds (seen : List ι) (cache : List (κ × β)) : Prop :=
  ∀ k, entry k cache = (leader key seen k).map value

theorem holds_nil : Holds key value ([] : List ι) ([] : List (κ × β)) := fun _ => rfl

theorem holds_keep (seen : List ι) (cache : List (κ × β)) (x : ι)
    (h : Holds key value seen cache) :
    Holds key value (seen ++ [x]) (keep (key x) (value x) cache) := by
  intro k
  rw [entry_keep, h k, leader, leader, List.find?_append]
  by_cases heq : key x = k
  · rw [if_pos heq.symm, List.find?_cons_of_pos (by simpa using heq)]
    cases seen.find? (fun y => decide (key y = k)) with
    | none => rfl
    | some y => rfl
  · rw [if_neg (Ne.symm heq), List.find?_cons_of_neg (by simpa using heq), List.find?_nil,
      Option.or_none, Option.or_none]

/-- For an item just seen the loop reads the value of its leader among all items. -/
theorem Holds.reads {seen : List ι} {cache : List (κ × β)} {x : ι}
    (h : Holds key value (seen ++ [x]) cache) (rest : List ι) :
    entry (key x) cache = (leader key (seen ++ x :: rest) (key x)).map value := by
  rcases leader_isSome key (seen ++ [x]) x (by simp) with ⟨y, -, hy, -⟩
  have hall : leader key (seen ++ x :: rest) (key x) = some y := by
    have happend : seen ++ x :: rest = seen ++ [x] ++ rest := by simp
    rw [happend, leader, List.find?_append]
    rw [leader] at hy
    rw [hy]
    rfl
  rw [h, hy, hall]

end Leaders

/-- Results that name the items they came from tell two loops apart at every item. -/
theorem filterMap_eq_iff {γ : Type} (tag : γ → ι) (f g : ι → Option γ)
    (hf : ∀ x r, f x = some r → tag r = x) (hg : ∀ x r, g x = some r → tag r = x)
    (items : List ι) : items.filterMap f = items.filterMap g ↔ ∀ x ∈ items, f x = g x := by
  constructor
  · intro h x hx
    have honly : ∀ (a b : ι → Option γ), (∀ y r, a y = some r → tag r = y) →
        (∀ y r, b y = some r → tag r = y) → items.filterMap a = items.filterMap b →
        ∀ r, a x = some r → b x = some r := by
      intro a b ha hb hab r hr
      -- The result is among those of the other loop, for the item it names.
      have hmem : r ∈ items.filterMap b := by
        rw [← hab]
        exact List.mem_filterMap.mpr ⟨x, hx, hr⟩
      rcases List.mem_filterMap.mp hmem with ⟨y, -, hy⟩
      have heq : y = x := (hb y r hy).symm.trans (ha x r hr)
      rw [← heq]
      exact hy
    ext r
    exact ⟨honly f g hf hg h r, honly g f hg hf h.symm r⟩
  · intro h
    exact List.filterMap_congr h

end Memo

end OptionsBot
