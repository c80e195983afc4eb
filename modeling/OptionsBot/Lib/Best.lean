import OptionsBot.Lib.Table

/-!
# The Best Row of Each Key

A pass over items that keeps one row under each key, the first one, until an item
of the same key with a lower cost replaces it in its place. What it keeps under a key is the
first of the cheapest items of that key, and no key has two rows.

When no two items cost the same, the kept row is known by its key and its cost
alone, so the order of the items does not matter for which rows are kept. It
matters for their order. A second pass has nothing left to do.

## Main definitions

* `better`: The cheaper of an item and the row that is there.
* `best`: The rows a pass keeps.

## Theorems

* `nodup_best`: No two rows have one key.
* `lookup_best`: The row under a key.
* `mem_keys_best`: The keys are those of the items.
* `mem_best_iff`: Which items are kept, if no two cost the same.
* `best_perm`: In another order the same items are kept.
* `best_self`: Nothing is dropped from items of distinct keys, so not by a second pass.
-/

namespace OptionsBot

namespace Table

variable {α κ β : Type} [DecidableEq κ] [LinearOrder β] (key : α → κ) (cost : α → β)

/-- The cheaper of an item and the row that is there. A row as cheap stays. -/
def better (a : α) : Option α → α
  | none => a
  | some b => if cost a < cost b then a else b

/-- The rows a pass over some items keeps. -/
def best (items : List α) : List α :=
  items.foldl (fun rows a => upsert key (key a) (better cost a) rows) []

theorem best_append (items : List α) (a : α) :
    best key cost (items ++ [a]) = upsert key (key a) (better cost a) (best key cost items) := by
  rw [best, List.foldl_append]
  rfl

/-- What a row is replaced by has its key. -/
theorem key_better (a : α) (rows : List α) :
    key (better cost a (lookup key (key a) rows)) = key a := by
  rcases hfound : lookup key (key a) rows with _ | b
  · rfl
  · have hb := (mem_of_lookup key (key a) rows b hfound).2
    simp only [better]
    split_ifs
    · rfl
    · exact hb

theorem nodup_best (items : List α) : ((best key cost items).map key).Nodup := by
  induction items using List.reverseRecOn with
  | nil => exact List.nodup_nil
  | append_singleton items a ih =>
      rw [best_append, upsert_const]
      exact nodup_upsert key (key a) _ (fun _ => key_better key cost a _) _ ih

/-- Under a key there is the first of the cheapest items of that key. -/
theorem lookup_best (k : κ) (items : List α) :
    lookup key k (best key cost items) =
      (items.filter (fun a => decide (key a = k))).argmin cost := by
  induction items using List.reverseRecOn with
  | nil => rfl
  | append_singleton items a ih =>
      rw [best_append, List.filter_append]
      by_cases hk : key a = k
      · -- The item meets the row there is under its key, if there is one.
        rw [← hk] at ih ⊢
        rw [lookup_upsert_self key _ _ _ (key_better key cost a _), ih,
          List.filter_cons_of_pos (by simp only [decide_true]), List.filter_nil,
          List.argmin_concat]
        cases (items.filter (fun b => decide (key b = key a))).argmin cost with
        | none => rfl
        | some b =>
            simp only [better]
            split_ifs
            · rfl
            · rfl
      · rw [lookup_upsert_of_ne key _ _ _ (key_better key cost a _) k (Ne.symm hk), ih,
          List.filter_cons_of_neg (by simpa only [decide_eq_true_eq] using hk), List.filter_nil,
          List.append_nil]

/-- A kept row is an item, and no item of its key is cheaper. -/
theorem best_least (items : List α) (b : α) (hb : b ∈ best key cost items) :
    b ∈ items ∧ ∀ a ∈ items, key a = key b → cost b ≤ cost a := by
  have hfound := lookup_of_mem key _ (nodup_best key cost items) b hb
  rw [lookup_best] at hfound
  refine ⟨List.mem_of_mem_filter (List.argmin_mem hfound), fun a ha hkey => ?_⟩
  exact List.le_of_mem_argmin (List.mem_filter.mpr ⟨ha, decide_eq_true hkey⟩) hfound

/-- Every item's key has a row. -/
theorem exists_best (items : List α) (a : α) (ha : a ∈ items) :
    ∃ b ∈ best key cost items, key b = key a := by
  rcases hfound : lookup key (key a) (best key cost items) with _ | b
  · rw [lookup_best, List.argmin_eq_none, List.filter_eq_nil_iff] at hfound
    exact absurd (decide_eq_true rfl) (hfound a ha)
  · exact ⟨b, mem_of_lookup key (key a) _ b hfound⟩

theorem mem_keys_best (items : List α) (k : κ) :
    k ∈ (best key cost items).map key ↔ k ∈ items.map key := by
  constructor
  · intro hk
    rcases List.mem_map.mp hk with ⟨b, hb, rfl⟩
    exact List.mem_map_of_mem (best_least key cost items b hb).1
  · intro hk
    rcases List.mem_map.mp hk with ⟨a, ha, rfl⟩
    rcases exists_best key cost items a ha with ⟨b, hb, hkey⟩
    exact List.mem_map.mpr ⟨b, hb, hkey⟩

/-- If no two items cost the same, the cheapest of each key are kept. -/
theorem mem_best_iff (items : List α) (hcost : (items.map cost).Nodup) (b : α) :
    b ∈ best key cost items ↔ b ∈ items ∧ ∀ a ∈ items, key a = key b → cost b ≤ cost a := by
  refine ⟨best_least key cost items b, fun ⟨hb, hleast⟩ => ?_⟩
  rcases exists_best key cost items b hb with ⟨c, hc, hkey⟩
  rcases best_least key cost items c hc with ⟨hmem, hleast'⟩
  -- The row of its key costs as much, so it is the same item.
  have hsame : cost c = cost b := le_antisymm (hleast' b hb hkey.symm) (hleast c hmem hkey)
  rw [← List.inj_on_of_nodup_map hcost hmem hb hsame]
  exact hc

theorem best_perm (items others : List α) (hcost : (items.map cost).Nodup)
    (hperm : others.Perm items) : (best key cost others).Perm (best key cost items) := by
  have hcost' : (others.map cost).Nodup := (hperm.map cost).nodup_iff.mpr hcost
  rw [List.perm_ext_iff_of_nodup (nodup_best key cost others).of_map
    (nodup_best key cost items).of_map]
  intro b
  rw [mem_best_iff key cost others hcost', mem_best_iff key cost items hcost, hperm.mem_iff]
  simp only [hperm.mem_iff]

/-- Items of distinct keys are all kept, as they are. -/
theorem best_self (items : List α) (h : (items.map key).Nodup) : best key cost items = items := by
  induction items using List.reverseRecOn with
  | nil => rfl
  | append_singleton items a ih =>
      rw [List.map_append, List.nodup_append] at h
      rw [best_append, ih h.1, upsert_append key (key a) (better cost a) items]
      · rfl
      · intro r hr
        exact h.2.2 (key r) (List.mem_map_of_mem hr) (key a) (List.mem_singleton.mpr rfl)

end Table

end OptionsBot
