import Mathlib.Data.List.Sort
import OptionsBot.Lib.Python
import OptionsBot.Lib.Table

/-!
# Listings

Items that come in an order that means nothing, as a file system lists its files, and that are
put into the order of their keys before they are read. With distinct keys the order they have come
in is gone, and what is read from them one after the other depends on the items alone: the first
one that is refused is the one with the least key.

## Theorems

* `sorted_perm`: Two listings of the same items are in the same order once they are sorted.
* `sorted_map`: A change that keeps the keys keeps the order.
* `upsert_eq_map`: A write under a key that is there changes one item.
* `mapM_sorted_error`: The error of a loop over a sorted listing.
* `mapM_map`: A loop over changed items.
-/

namespace OptionsBot

namespace Listing

variable {α β κ ε : Type} (key : α → κ)

section Sorted

variable [LinearOrder κ]

theorem sorted_perm (xs ys : List α) (hperm : xs.Perm ys) (hkeys : (xs.map key).Nodup) :
    xs.insertionSort (fun a b => key a ≤ key b) = ys.insertionSort (fun a b => key a ≤ key b) := by
  have htrans : IsTrans α (fun a b => key a ≤ key b) := ⟨fun a b c hab hbc => hab.trans hbc⟩
  have htotal : Std.Total (fun a b : α => key a ≤ key b) := ⟨fun a b => le_total (key a) (key b)⟩
  have hsame : (xs.insertionSort (fun a b => key a ≤ key b)).Perm
      (ys.insertionSort (fun a b => key a ≤ key b)) :=
    ((List.perm_insertionSort _ xs).trans hperm).trans (List.perm_insertionSort _ ys).symm
  refine hsame.eq_of_pairwise ?_ (List.pairwise_insertionSort _ xs) (List.pairwise_insertionSort _ ys)
  intro a b ha hb hab hba
  -- Two items with the same key are one.
  have hb' : b ∈ xs := hperm.mem_iff.mpr ((List.mem_insertionSort _).mp hb)
  exact List.inj_on_of_nodup_map hkeys ((List.mem_insertionSort _).mp ha) hb' (le_antisymm hab hba)

theorem sorted_map (g : α → α) (hg : ∀ a, key (g a) = key a) (xs : List α) :
    (xs.map g).insertionSort (fun a b => key a ≤ key b) =
      (xs.insertionSort (fun a b => key a ≤ key b)).map g := by
  refine (List.map_insertionSort _ _ g xs fun a _ b _ => ?_).symm
  rw [hg, hg]

/-- The items before one with a key of its own have lesser keys. -/
theorem sorted_before (before after : List α) (x : α)
    (hsorted : (before ++ x :: after).Pairwise (fun a b => key a ≤ key b))
    (hkeys : ((before ++ x :: after).map key).Nodup) : ∀ a ∈ before, key a < key x := by
  intro a ha
  have hle : key a ≤ key x :=
    (List.pairwise_append.mp hsorted).2.2 a ha x List.mem_cons_self
  refine lt_of_le_of_ne hle fun hsame => ?_
  rw [List.map_append, List.nodup_append'] at hkeys
  refine hkeys.2.2 (List.mem_map_of_mem ha) ?_
  rw [hsame]
  exact List.mem_map_of_mem List.mem_cons_self

end Sorted

/-- With distinct keys, a write under a key that is there changes the item of that key. -/
theorem upsert_eq_map [DecidableEq κ] (v : α) (rows : List α) (hkeys : (rows.map key).Nodup)
    (hmem : key v ∈ rows.map key) :
    Table.upsert key (key v) (fun _ => v) rows =
      rows.map (fun r => if key r = key v then v else r) := by
  induction rows with
  | nil => exact absurd hmem List.not_mem_nil
  | cons a rest ih =>
      rw [List.map_cons, List.nodup_cons] at hkeys
      rw [Table.upsert, List.map_cons]
      by_cases ha : key a = key v
      · rw [if_pos ha, if_pos ha]
        have hrest : ∀ r ∈ rest, (if key r = key v then v else r) = r := by
          intro r hr
          refine if_neg fun hsame => hkeys.1 ?_
          rw [ha, ← hsame]
          exact List.mem_map_of_mem hr
        rw [List.map_congr_left hrest, List.map_id']
      · rw [if_neg ha, if_neg ha]
        rcases List.mem_cons.mp hmem with hsame | hin
        · exact absurd hsame.symm ha
        · rw [ih hkeys.2 hin]

variable (f : α → Except ε β)

/-- A loop ends at the first item that is refused. -/
theorem mapM_append_error (before after : List α) (x : α) (e : ε)
    (hbefore : ∀ a ∈ before, ∃ b, f a = .ok b) (hx : f x = .error e) :
    (before ++ x :: after).mapM f = .error e := by
  induction before with
  | nil =>
      rw [List.nil_append, List.mapM_cons, hx]
      rfl
  | cons a rest ih =>
      rcases hbefore a List.mem_cons_self with ⟨b, hb⟩
      rw [List.cons_append, List.mapM_cons, hb,
        ih fun a' ha' => hbefore a' (List.mem_cons_of_mem a ha')]
      rfl

/-- In a sorted listing that is the one with the least key. -/
theorem mapM_sorted_error [LinearOrder κ] (xs : List α) (x : α) (e : ε) (hx : x ∈ xs)
    (hkeys : (xs.map key).Nodup) (hbefore : ∀ a ∈ xs, key a < key x → ∃ b, f a = .ok b)
    (herror : f x = .error e) :
    (xs.insertionSort (fun a b => key a ≤ key b)).mapM f = .error e := by
  have htrans : IsTrans α (fun a b => key a ≤ key b) := ⟨fun a b c hab hbc => hab.trans hbc⟩
  have htotal : Std.Total (fun a b : α => key a ≤ key b) := ⟨fun a b => le_total (key a) (key b)⟩
  have hperm := List.perm_insertionSort (fun a b => key a ≤ key b) xs
  have hsorted := List.pairwise_insertionSort (fun a b => key a ≤ key b) xs
  have hmem : x ∈ xs.insertionSort (fun a b => key a ≤ key b) := hperm.mem_iff.mpr hx
  have hnodup := (hperm.map key).nodup_iff.mpr hkeys
  rcases List.mem_iff_append.mp hmem with ⟨before, after, hsplit⟩
  rw [hsplit] at hsorted hnodup ⊢
  refine mapM_append_error f before after x e (fun a ha => ?_) herror
  have hin : a ∈ xs := hperm.mem_iff.mp (by rw [hsplit]; exact List.mem_append_left _ ha)
  exact hbefore a hin (sorted_before key before after x hsorted hnodup a ha)

/-- A loop over changed items collects what their change makes of it. -/
theorem mapM_map (g : α → α) (h : β → β) (xs : List α) (ys : List β) (hxs : xs.mapM f = .ok ys)
    (hg : ∀ a ∈ xs, ∀ b, f a = .ok b → f (g a) = .ok (h b)) :
    (xs.map g).mapM f = .ok (ys.map h) := by
  rw [mapM_ok_iff] at hxs ⊢
  induction hxs with
  | nil => exact .nil
  | cons hab _ ih =>
      exact .cons (hg _ List.mem_cons_self _ hab)
        (ih fun a ha => hg a (List.mem_cons_of_mem _ ha))

end Listing

end OptionsBot
