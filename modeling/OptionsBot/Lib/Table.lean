import Mathlib.Data.List.MinMax
import Mathlib.Data.List.Nodup

/-!
# Keyed Tables

A table of rows with a key column, kept in insertion order. `upsert` is the one
write: it replaces the row under a key, or appends one when the key is new,
which is what both a dictionary assignment and an insert-or-update do.

`latest` is the row with the greatest key. What a writer needs to know about it
is that it is a row of the table and that no row has a later key, so after an
upsert under the newest key the latest row is the one just written.

## Main definitions

* `lookup`: The row under a key.
* `upsert`: Replace the row under a key, or append one.
* `upsertAll`: Write some rows.
* `group`: The items under each key that has any.
* `latest`: The row with the greatest key.

## Theorems

* `mem_of_lookup`: A row that is found is in the table, under its key.
* `lookup_isSome`: Under a row's key, a row is found.
* `lookup_of_mem`: With distinct keys, every row is found under its own.
* `filter_key`: With distinct keys, no other row has a row's key.
* `lookup_map`: What is found among mapped rows.
* `mem_upsert`: A row after an upsert is an old one or the one written.
* `upsert_written`: The row written is in the table.
* `mem_upsert_of_ne`: So is every old row under another key.
* `map_key_upsert`: Replacing a row changes no key.
* `upsert_append`: A row under a new key is appended.
* `mem_keys_upsert`: The keys after an upsert.
* `lookup_upsert_self`, `lookup_upsert_of_ne`: What is found after an upsert.
* `upsert_const`: What an upsert asks of the function it is given.
* `upsert_replaces`: With distinct keys, an upsert replaces one row.
* `upsert_self`: Writing a row back changes nothing.
* `nodup_upsert`: An upsert keeps the keys distinct.
* `nodup_upsertAll`, `upsertAll_written`, `mem_upsertAll_of_ne`: The rows after a write of some.
* `mem_upsertAll_iff`: Which rows these are.
* `upsertAll_append`: Under new keys they are appended.
* `upsertAll_again`: Writing them once more changes nothing.
* `nodup_group`, `mem_group`, `key_mem_group`: The groups by a key.
* `latest_mem`: The latest row is a row.
* `latest_isSome`: A table with a row has a latest one.
* `key_le_latest`: No row has a later key than the latest row.
* `latest_map`: The latest of mapped rows.
-/

namespace OptionsBot

namespace Table

section Keyed

variable {α κ : Type} [DecidableEq κ] (key : α → κ)

/-- The row under a key. -/
def lookup (k : κ) (rows : List α) : Option α :=
  rows.find? (fun r => decide (key r = k))

/-- Replace the row under a key, or append one. The new row is computed from
    the old one, if there is one. -/
def upsert (k : κ) (f : Option α → α) : List α → List α
  | [] => [f none]
  | r :: rs => if key r = k then f (some r) :: rs else r :: upsert k f rs

theorem mem_of_lookup (k : κ) (rows : List α) (r : α) (h : lookup key k rows = some r) :
    r ∈ rows ∧ key r = k := by
  refine ⟨List.mem_of_find?_eq_some h, ?_⟩
  have hk := List.find?_some h
  simpa only [decide_eq_true_eq] using hk

/-- Under the key of a row, some row is found. -/
theorem lookup_isSome (rows : List α) (r : α) (hr : r ∈ rows) :
    ∃ x, lookup key (key r) rows = some x := by
  rw [← Option.isSome_iff_exists, lookup, List.find?_isSome]
  exact ⟨r, hr, by simp only [decide_eq_true_eq]⟩

theorem lookup_of_mem (rows : List α) (h : (rows.map key).Nodup) (r : α) (hr : r ∈ rows) :
    lookup key (key r) rows = some r := by
  rcases lookup_isSome key rows r hr with ⟨x, hx⟩
  rcases mem_of_lookup key (key r) rows x hx with ⟨hmem, hkey⟩
  rw [hx, List.inj_on_of_nodup_map h hmem hr hkey]

/-- A map that keeps the keys maps what is found. -/
theorem lookup_map (k : κ) (g : α → α) (hg : ∀ r, key (g r) = key r) (rows : List α) :
    lookup key k (rows.map g) = (lookup key k rows).map g := by
  have hkeys : (fun r => decide (key r = k)) ∘ g = fun r => decide (key r = k) := by
    funext r
    rw [Function.comp_apply, hg]
  rw [lookup, lookup, List.find?_map, hkeys]

/-- With distinct keys, a row is the only one under its own. -/
theorem filter_key (rows : List α) (h : (rows.map key).Nodup) (r : α) (hr : r ∈ rows) :
    rows.filter (fun r' => key r' = key r) = [r] := by
  induction rows with
  | nil => exact absurd hr List.not_mem_nil
  | cons a rest ih =>
      rw [List.map_cons, List.nodup_cons] at h
      rcases List.mem_cons.mp hr with rfl | hrest
      · have hnone : rest.filter (fun r' => key r' = key r) = [] :=
          List.filter_eq_nil_iff.mpr (fun r' hr' => by
            rw [decide_eq_true_eq]
            exact fun hsame => h.1 (by rw [← hsame]; exact List.mem_map_of_mem hr'))
        rw [List.filter_cons, if_pos (decide_eq_true rfl), hnone]
      · have hother : key a ≠ key r := fun hsame =>
          h.1 (by rw [hsame]; exact List.mem_map_of_mem hrest)
        rw [List.filter_cons, if_neg (by rw [decide_eq_true_eq]; exact hother), ih h.2 hrest]

theorem mem_upsert (k : κ) (f : Option α → α) (rows : List α) (r : α)
    (h : r ∈ upsert key k f rows) :
    r ∈ rows ∨ r = f none ∨ ∃ old, old ∈ rows ∧ key old = k ∧ r = f (some old) := by
  induction rows with
  | nil =>
      simp only [upsert, List.mem_singleton] at h
      exact Or.inr (Or.inl h)
  | cons a rest ih =>
      by_cases ha : key a = k
      · simp only [upsert, if_pos ha, List.mem_cons] at h
        rcases h with h | h
        · exact Or.inr (Or.inr ⟨a, List.mem_cons_self, ha, h⟩)
        · exact Or.inl (List.mem_cons_of_mem a h)
      · simp only [upsert, if_neg ha, List.mem_cons] at h
        rcases h with h | h
        · exact Or.inl (by rw [h]; exact List.mem_cons_self)
        · rcases ih h with hold | hnew | ⟨old, hmem, hk, hr⟩
          · exact Or.inl (List.mem_cons_of_mem a hold)
          · exact Or.inr (Or.inl hnew)
          · exact Or.inr (Or.inr ⟨old, List.mem_cons_of_mem a hmem, hk, hr⟩)

theorem upsert_written (k : κ) (f : Option α → α) (rows : List α) :
    f (lookup key k rows) ∈ upsert key k f rows := by
  induction rows with
  | nil => exact List.mem_singleton.mpr rfl
  | cons a rest ih =>
      by_cases ha : key a = k
      · have hfound : lookup key k (a :: rest) = some a := by
          rw [lookup, List.find?_cons_of_pos (by simpa only [decide_eq_true_eq] using ha)]
        rw [hfound, upsert, if_pos ha]
        exact List.mem_cons_self
      · have hskip : lookup key k (a :: rest) = lookup key k rest := by
          rw [lookup, List.find?_cons_of_neg (by simpa only [decide_eq_true_eq] using ha)]
          rfl
        rw [hskip]
        simp only [upsert, if_neg ha, List.mem_cons]
        exact Or.inr ih

theorem mem_upsert_of_ne (k : κ) (f : Option α → α) (rows : List α) (r : α) (hr : r ∈ rows)
    (hne : key r ≠ k) : r ∈ upsert key k f rows := by
  induction rows with
  | nil => exact absurd hr List.not_mem_nil
  | cons a rest ih =>
      rcases List.mem_cons.mp hr with rfl | hrest
      · rw [upsert, if_neg hne]
        exact List.mem_cons_self
      · by_cases ha : key a = k
        · rw [upsert, if_pos ha]
          exact List.mem_cons_of_mem _ hrest
        · rw [upsert, if_neg ha]
          exact List.mem_cons_of_mem _ (ih hrest)

/-- Replacing a row under a key that is there changes no key. -/
theorem map_key_upsert (k : κ) (f : Option α → α) (hf : ∀ o, key (f o) = k) (rows : List α)
    (r : α) (hr : r ∈ rows) (hk : key r = k) : (upsert key k f rows).map key = rows.map key := by
  induction rows with
  | nil => exact absurd hr List.not_mem_nil
  | cons a rest ih =>
      by_cases ha : key a = k
      · rw [upsert, if_pos ha, List.map_cons, List.map_cons, hf, ha]
      · rw [upsert, if_neg ha, List.map_cons, List.map_cons]
        rcases List.mem_cons.mp hr with rfl | hrest
        · exact absurd hk ha
        · rw [ih hrest]

/-- Under a new key, an upsert appends a row. -/
theorem upsert_append (k : κ) (f : Option α → α) (rows : List α)
    (h : ∀ r ∈ rows, key r ≠ k) : upsert key k f rows = rows ++ [f none] := by
  induction rows with
  | nil => rfl
  | cons a rest ih =>
      rw [upsert, if_neg (h a List.mem_cons_self), List.cons_append,
        ih (fun r hr => h r (List.mem_cons_of_mem a hr))]

/-- The keys after an upsert are the old ones and the one written. -/
theorem mem_keys_upsert (k : κ) (f : Option α → α) (hf : ∀ o, key (f o) = k) (rows : List α)
    (k' : κ) : k' ∈ (upsert key k f rows).map key ↔ k' = k ∨ k' ∈ rows.map key := by
  induction rows with
  | nil => simp only [upsert, List.map_cons, List.map_nil, hf, List.mem_singleton, List.not_mem_nil,
      or_false]
  | cons a rest ih =>
      by_cases ha : key a = k
      · rw [upsert, if_pos ha, List.map_cons, List.map_cons, hf, ha, List.mem_cons, or_self_left]
      · simp only [upsert, if_neg ha, List.map_cons, List.mem_cons, ih]
        exact or_left_comm

section LookupUpsert

variable (k : κ) (f : Option α → α) (rows : List α) (hf : key (f (lookup key k rows)) = k)
include hf

/-- Under the key of an upsert, the row written is found. -/
theorem lookup_upsert_self : lookup key k (upsert key k f rows) = some (f (lookup key k rows)) := by
  induction rows with
  | nil =>
      simp only [lookup, List.find?_nil] at hf
      simp only [upsert, lookup, List.find?_cons, hf, decide_true, List.find?_nil]
  | cons a rest ih =>
      by_cases ha : key a = k
      · simp only [lookup, List.find?_cons, ha, decide_true] at hf
        rw [upsert, if_pos ha]
        simp only [lookup, List.find?_cons, hf, ha, decide_true]
      · simp only [lookup, List.find?_cons, ha, decide_false] at hf
        rw [upsert, if_neg ha]
        simp only [lookup, List.find?_cons, ha, decide_false]
        exact ih hf

/-- Under another key, the row found is the one that was there. -/
theorem lookup_upsert_of_ne (k' : κ) (hne : k' ≠ k) :
    lookup key k' (upsert key k f rows) = lookup key k' rows := by
  have hneq : ∀ r, key r = k → (decide (key r = k')) = false := fun r hr =>
    decide_eq_false (fun h => hne (h.symm.trans hr))
  induction rows with
  | nil =>
      simp only [lookup, List.find?_nil] at hf
      simp only [upsert, lookup, List.find?_cons, hneq _ hf, List.find?_nil]
  | cons a rest ih =>
      by_cases ha : key a = k
      · simp only [lookup, List.find?_cons, ha, decide_true] at hf
        rw [upsert, if_pos ha]
        simp only [lookup, List.find?_cons, hneq _ hf, hneq a ha]
      · simp only [lookup, List.find?_cons, ha, decide_false] at hf
        rw [upsert, if_neg ha]
        simp only [lookup, List.find?_cons]
        rcases decide (key a = k') with _ | _
        · exact ih hf
        · rfl

end LookupUpsert

/-- An upsert asks only for what becomes of the row that is found. -/
theorem upsert_const (k : κ) (f : Option α → α) (rows : List α) :
    upsert key k f rows = upsert key k (fun _ => f (lookup key k rows)) rows := by
  induction rows with
  | nil => rfl
  | cons a rest ih =>
      by_cases ha : key a = k
      · simp only [upsert, lookup, List.find?_cons, ha, decide_true, if_true]
      · simp only [upsert, lookup, List.find?_cons, ha, decide_false, if_false]
        exact congrArg (List.cons a) ih

/-- With distinct keys, an upsert under a row's key replaces that row. -/
theorem upsert_replaces (f : Option α → α) (rows : List α) (h : (rows.map key).Nodup) (r : α)
    (hr : r ∈ rows) :
    ∃ before after, rows = before ++ r :: after ∧
      upsert key (key r) f rows = before ++ f (some r) :: after := by
  induction rows with
  | nil => exact absurd hr List.not_mem_nil
  | cons a rest ih =>
      rw [List.map_cons, List.nodup_cons] at h
      rcases List.mem_cons.mp hr with rfl | hrest
      · exact ⟨[], rest, rfl, by rw [upsert, if_pos rfl, List.nil_append]⟩
      · have hne : key a ≠ key r := by
          intro heq
          exact h.1 (List.mem_map.mpr ⟨r, hrest, heq.symm⟩)
        rcases ih h.2 hrest with ⟨before, after, hrows, hupsert⟩
        refine ⟨a :: before, after, by rw [hrows, List.cons_append], ?_⟩
        rw [upsert, if_neg hne, hupsert, List.cons_append]

/-- Writing a row back as it is changes nothing. -/
theorem upsert_self (rows : List α) (h : (rows.map key).Nodup) (r : α) (hr : r ∈ rows) :
    upsert key (key r) (fun _ => r) rows = rows := by
  rcases upsert_replaces key (fun _ => r) rows h r hr with ⟨before, after, hrows, hupsert⟩
  rw [hupsert, ← hrows]

theorem nodup_upsert (k : κ) (f : Option α → α) (hf : ∀ o, key (f o) = k) (rows : List α)
    (h : (rows.map key).Nodup) : ((upsert key k f rows).map key).Nodup := by
  induction rows with
  | nil => simp only [upsert, List.map_cons, List.map_nil, List.nodup_singleton]
  | cons a rest ih =>
      rw [List.map_cons, List.nodup_cons] at h
      by_cases ha : key a = k
      · simp only [upsert, if_pos ha, List.map_cons, hf, List.nodup_cons]
        exact ⟨by rw [← ha]; exact h.1, h.2⟩
      · simp only [upsert, if_neg ha, List.map_cons, List.nodup_cons]
        refine ⟨fun hmem => ?_, ih h.2⟩
        rcases List.mem_map.mp hmem with ⟨r, hr, hra⟩
        -- A row of the rest with `a`'s key is an old one, the new key being `k`.
        rcases mem_upsert key k f rest r hr with hold | hnew | ⟨old, _, _, hnew⟩
        · exact h.1 (List.mem_map.mpr ⟨r, hold, hra⟩)
        · exact ha (by rw [← hra, hnew, hf])
        · exact ha (by rw [← hra, hnew, hf])

/-- Write some rows, each under its own key. -/
def upsertAll (rows news : List α) : List α :=
  news.foldl (fun rows r => upsert key (key r) (fun _ => r) rows) rows

theorem nodup_upsertAll (rows news : List α) (h : (rows.map key).Nodup) :
    ((upsertAll key rows news).map key).Nodup := by
  induction news generalizing rows with
  | nil => exact h
  | cons r rest ih =>
      exact ih _ (nodup_upsert key (key r) (fun _ => r) (fun _ => rfl) rows h)

/-- A row is kept if none is written under its key. -/
theorem mem_upsertAll_of_ne (rows news : List α) (r : α) (hr : r ∈ rows)
    (hne : ∀ new ∈ news, key r ≠ key new) : r ∈ upsertAll key rows news := by
  induction news generalizing rows with
  | nil => exact hr
  | cons new rest ih =>
      exact ih _ (mem_upsert_of_ne key (key new) _ rows r hr (hne new List.mem_cons_self))
        (fun new' hnew' => hne new' (List.mem_cons_of_mem _ hnew'))

/-- Rows written under distinct keys are all there afterwards. -/
theorem upsertAll_written (rows news : List α) (hnews : (news.map key).Nodup) (r : α)
    (hr : r ∈ news) : r ∈ upsertAll key rows news := by
  induction news generalizing rows with
  | nil => exact absurd hr List.not_mem_nil
  | cons new rest ih =>
      rw [List.map_cons, List.nodup_cons] at hnews
      rcases List.mem_cons.mp hr with rfl | hrest
      · -- The later ones are under other keys.
        refine mem_upsertAll_of_ne key _ rest r
          (upsert_written key (key r) (fun _ => r) rows) (fun new hnew hsame => ?_)
        exact hnews.1 (by rw [hsame]; exact List.mem_map_of_mem hnew)
      · exact ih _ hnews.2 hrest

/-- A row after a write of some is one of these, or an old one. -/
theorem mem_upsertAll (rows news : List α) (r : α) (h : r ∈ upsertAll key rows news) :
    r ∈ news ∨ r ∈ rows := by
  induction news generalizing rows with
  | nil => exact Or.inr h
  | cons new rest ih =>
      rcases ih _ h with hin | hin
      · exact Or.inl (List.mem_cons_of_mem _ hin)
      · rcases mem_upsert key (key new) _ rows r hin with hthere | hnew | ⟨_, _, _, hnew⟩
        · exact Or.inr hthere
        · exact Or.inl (hnew ▸ List.mem_cons_self)
        · exact Or.inl (hnew ▸ List.mem_cons_self)

/-- An old one is left if none of them is under its key. -/
theorem mem_upsertAll_iff (rows news : List α) (h : (rows.map key).Nodup)
    (hnews : (news.map key).Nodup) (r : α) :
    r ∈ upsertAll key rows news ↔ r ∈ news ∨ (r ∈ rows ∧ ∀ new ∈ news, key r ≠ key new) := by
  constructor
  · intro hr
    by_cases hin : r ∈ news
    · exact Or.inl hin
    · refine Or.inr ⟨(mem_upsertAll key rows news r hr).resolve_left hin,
        fun new hnew hkey => hin ?_⟩
      -- The new row under its key is in the table, and no other one is.
      rw [List.inj_on_of_nodup_map (nodup_upsertAll key rows news h) hr
        (upsertAll_written key rows news hnews new hnew) hkey]
      exact hnew
  · rintro (hin | ⟨hin, hne⟩)
    · exact upsertAll_written key rows news hnews r hin
    · exact mem_upsertAll_of_ne key rows news r hin hne

/-- Rows under new and distinct keys are appended. -/
theorem upsertAll_append (rows news : List α) (hnews : (news.map key).Nodup)
    (hfresh : ∀ r ∈ rows, ∀ new ∈ news, key r ≠ key new) :
    upsertAll key rows news = rows ++ news := by
  induction news generalizing rows with
  | nil => exact (List.append_nil rows).symm
  | cons new rest ih =>
      rw [List.map_cons, List.nodup_cons] at hnews
      rw [upsertAll, List.foldl_cons,
        upsert_append key _ _ rows (fun r hr => hfresh r hr new List.mem_cons_self)]
      refine (ih _ hnews.2 (fun r hr new' hnew' => ?_)).trans (List.append_assoc rows [new] rest)
      rcases List.mem_append.mp hr with hold | hnew
      · exact hfresh r hold new' (List.mem_cons_of_mem _ hnew')
      · rw [List.mem_singleton.mp hnew]
        exact fun hsame => hnews.1 (by rw [hsame]; exact List.mem_map_of_mem hnew')

/-- Rows that are there already change nothing. -/
theorem upsertAll_self (rows news : List α) (h : (rows.map key).Nodup)
    (hthere : ∀ r ∈ news, r ∈ rows) : upsertAll key rows news = rows := by
  induction news with
  | nil => rfl
  | cons r rest ih =>
      rw [upsertAll, List.foldl_cons, upsert_self key rows h r (hthere r List.mem_cons_self)]
      exact ih (fun r' hr' => hthere r' (List.mem_cons_of_mem _ hr'))

/-- Writing the same rows once more changes nothing. -/
theorem upsertAll_again (rows news : List α) (h : (rows.map key).Nodup)
    (hnews : (news.map key).Nodup) :
    upsertAll key (upsertAll key rows news) news = upsertAll key rows news :=
  upsertAll_self key _ news (nodup_upsertAll key rows news h)
    (upsertAll_written key rows news hnews)

end Keyed

section Group

variable {α κ : Type} [DecidableEq κ] (key : α → κ)

/-- The items under each key that has any, in the order they come. -/
def group (items : List α) : List (κ × List α) :=
  items.foldl (fun groups item => upsert Prod.fst (key item)
    (fun old => (key item, (old.map Prod.snd).getD [] ++ [item])) groups) []

theorem group_append (items : List α) (item : α) :
    group key (items ++ [item]) = upsert Prod.fst (key item)
      (fun old => (key item, (old.map Prod.snd).getD [] ++ [item])) (group key items) := by
  rw [group, List.foldl_append]
  rfl

theorem nodup_group (items : List α) : ((group key items).map Prod.fst).Nodup := by
  induction items using List.reverseRecOn with
  | nil => exact List.nodup_nil
  | append_singleton items item ih =>
      rw [group_append]
      exact nodup_upsert Prod.fst (key item) _ (fun _ => rfl) _ ih

theorem lookup_group (k : κ) (items : List α) :
    lookup Prod.fst k (group key items) =
      if items.filter (fun item => key item = k) = [] then none
      else some (k, items.filter (fun item => key item = k)) := by
  induction items using List.reverseRecOn with
  | nil => rfl
  | append_singleton items item ih =>
      rw [group_append, List.filter_append]
      by_cases hk : key item = k
      · -- The item joins the ones there are, or is the first.
        rw [← hk, lookup_upsert_self Prod.fst _ _ _ rfl, hk, ih]
        have hone : [item].filter (fun item => key item = k) = [item] := by
          rw [List.filter_cons, if_pos (decide_eq_true hk), List.filter_nil]
        rw [hone, if_neg (List.append_ne_nil_of_right_ne_nil _ (List.cons_ne_nil item []))]
        split_ifs with hnone
        · rw [hnone]
          rfl
        · rfl
      · have hnone : [item].filter (fun item => key item = k) = [] := by
          rw [List.filter_cons, if_neg (by simpa only [decide_eq_true_eq] using hk),
            List.filter_nil]
        rw [lookup_upsert_of_ne Prod.fst _ _ _ rfl k (Ne.symm hk), ih, hnone, List.append_nil]

/-- A group has the items of its key, and there are some. -/
theorem mem_group (items : List α) (g : κ × List α) :
    g ∈ group key items ↔ g.2 = items.filter (fun item => key item = g.1) ∧ g.2 ≠ [] := by
  constructor
  · intro hg
    have hfound := lookup_of_mem Prod.fst _ (nodup_group key items) g hg
    rw [lookup_group] at hfound
    split_ifs at hfound with hnone
    rw [Option.some.injEq] at hfound
    rw [← hfound]
    exact ⟨rfl, hnone⟩
  · rintro ⟨hitems, hsome⟩
    rw [hitems] at hsome
    have hfound := lookup_group key g.1 items
    rw [if_neg hsome, ← hitems] at hfound
    exact (mem_of_lookup Prod.fst g.1 _ _ hfound).1

/-- Every item has a group. -/
theorem key_mem_group (items : List α) (item : α) (hitem : item ∈ items) :
    key item ∈ (group key items).map Prod.fst := by
  refine List.mem_map.mpr ⟨(key item, items.filter (fun i => key i = key item)), ?_, rfl⟩
  refine (mem_group key items _).mpr ⟨rfl, List.ne_nil_of_mem (a := item) ?_⟩
  exact List.mem_filter.mpr ⟨hitem, decide_eq_true rfl⟩

end Group

section Latest

variable {α κ : Type} [LinearOrder κ] (key : α → κ)

/-- The row with the greatest key. -/
def latest (rows : List α) : Option α := rows.argmax key

theorem latest_mem (rows : List α) (r : α) (h : latest key rows = some r) : r ∈ rows :=
  List.argmax_mem h

theorem latest_isSome (rows : List α) (r : α) (h : r ∈ rows) :
    ∃ m, latest key rows = some m := by
  cases hl : latest key rows with
  | some m => exact ⟨m, rfl⟩
  | none =>
      rw [latest, List.argmax_eq_none] at hl
      rw [hl] at h
      exact absurd h List.not_mem_nil

theorem key_le_latest (rows : List α) (m r : α) (hm : latest key rows = some m) (hr : r ∈ rows) :
    key r ≤ key m :=
  List.le_of_mem_argmax hr hm

/-- The latest of mapped rows is the image of the row whose image is the latest. -/
theorem latest_map {β : Type} (f : β → α) (rows : List β) :
    latest key (rows.map f) = (latest (fun r => key (f r)) rows).map f := by
  induction rows with
  | nil => rfl
  | cons a rest ih =>
      simp only [latest] at ih ⊢
      rw [List.map_cons, List.argmax_cons, List.argmax_cons, ih]
      cases List.argmax (fun r => key (f r)) rest with
      | none => rfl
      | some c =>
          dsimp only [Option.map_some]
          split_ifs
          · rfl
          · rfl

end Latest

end Table

end OptionsBot
