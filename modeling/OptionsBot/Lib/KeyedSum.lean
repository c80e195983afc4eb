import Mathlib.Algebra.BigOperators.Group.List.Basic
import Mathlib.Tactic.Abel
import OptionsBot.Lib.Table

/-!
# Sums by Key

Items with a key and an amount, their sum under each key, and a table that keeps one
amount per key.

The sums under the keys add up to the whole sum, and none of them depends on the
order of the items. A write to a table moves the sum over the table by what it moves
the row under its key.

## Main definitions

* `sumAt`: The sum of the amounts under a key.
* `amountAt`: The amount a table has under a key.
* `setDefault`, `setAmount`: The two writes to a table.

## Theorems

* `sumAt_cons`, `sumAt_none`, `sumAt_append`: Sums under a key of parts.
* `sumAt_perm`: Of another order.
* `sumAt_add`: Of a sum of two amounts.
* `sum_ite_eq_sumAt`, `sumAt_distinct`: As a sum over all items, and where no
  other item has the key.
* `sum_sumAt`: The sums under the keys add up to the whole.
* `amountAt_setAmount`, `amountAt_setDefault`: What a table has after a write.
* `sum_setAmount`, `sum_setDefault`: What a write does to the sum over a table.
-/

namespace OptionsBot

namespace KeyedSum

variable {κ M : Type} [DecidableEq κ] [AddCommGroup M]

section SumAt

variable {α : Type} (key : α → κ) (amount : α → M) (k : κ)

/-- The sum of the amounts of the items under a key. -/
def sumAt (items : List α) : M := ((items.filter (fun item => key item = k)).map amount).sum

theorem sumAt_cons (item : α) (rest : List α) :
    sumAt key amount k (item :: rest) =
      (if key item = k then amount item else 0) + sumAt key amount k rest := by
  unfold sumAt
  by_cases hkey : key item = k
  · simp only [List.filter_cons, hkey, decide_true, if_true, List.map_cons, List.sum_cons]
  · simp only [List.filter_cons, hkey, decide_false, Bool.false_eq_true, if_false, zero_add]

/-- Without an item under the key there is nothing to sum. -/
theorem sumAt_none (items : List α) (h : ∀ item ∈ items, key item ≠ k) :
    sumAt key amount k items = 0 := by
  have hnil : items.filter (fun item => key item = k) = [] :=
    List.filter_eq_nil_iff.mpr (fun item hitem => by
      simpa only [decide_eq_true_eq] using h item hitem)
  unfold sumAt
  rw [hnil]
  rfl

theorem sumAt_append (items items' : List α) :
    sumAt key amount k (items ++ items') =
      sumAt key amount k items + sumAt key amount k items' := by
  unfold sumAt
  rw [List.filter_append, List.map_append, List.sum_append]

/-- A sum under a key does not depend on the order of the items. -/
theorem sumAt_perm {items items' : List α} (h : items.Perm items') :
    sumAt key amount k items = sumAt key amount k items' :=
  ((h.filter _).map amount).sum_eq

/-- The sum of an amount that is a sum of two. -/
theorem sumAt_add (amount' : α → M) (items : List α) :
    sumAt key (fun item => amount item + amount' item) k items =
      sumAt key amount k items + sumAt key amount' k items := by
  unfold sumAt
  exact List.sum_map_add

/-- A sum under a key as a sum over all of the items. -/
theorem sum_ite_eq_sumAt (items : List α) :
    (items.map (fun item => if key item = k then amount item else 0)).sum =
      sumAt key amount k items := by
  induction items with
  | nil => rfl
  | cons item rest ih => rw [List.map_cons, List.sum_cons, ih, sumAt_cons]

/-- Where the keys are distinct, the sum under the key of an item is its amount. -/
theorem sumAt_distinct (items : List α) (h : (items.map key).Nodup) (item : α)
    (hitem : item ∈ items) : sumAt key amount (key item) items = amount item := by
  unfold sumAt
  rw [Table.filter_key key items h item hitem, List.map_singleton, List.sum_singleton]

/-- An amount under its own key, summed over distinct keys that have it. -/
theorem sum_ite_key (keys : List κ) (hkeys : keys.Nodup) (hk : k ∈ keys) (m : M) :
    (keys.map (fun k' => if k = k' then m else 0)).sum = m := by
  induction keys with
  | nil => exact absurd hk List.not_mem_nil
  | cons k' rest ih =>
      rw [List.nodup_cons] at hkeys
      rw [List.map_cons, List.sum_cons]
      by_cases heq : k = k'
      · -- No later key is this one.
        have hzero : (rest.map (fun k'' => if k = k'' then m else 0)).sum = 0 :=
          List.sum_eq_zero (fun x hx => by
            rcases List.mem_map.mp hx with ⟨k'', hk'', rfl⟩
            exact if_neg (fun hsame => hkeys.1 (by rwa [← heq, hsame])))
        rw [if_pos heq, hzero, add_zero]
      · rw [if_neg heq, zero_add]
        exact ih hkeys.2 ((List.mem_cons.mp hk).resolve_left heq)

/-- The sums under distinct keys, every item's among them, add up to the whole. -/
theorem sum_sumAt (keys : List κ) (hkeys : keys.Nodup) (items : List α)
    (hcover : ∀ item ∈ items, key item ∈ keys) :
    (keys.map (fun k => sumAt key amount k items)).sum = (items.map amount).sum := by
  induction items with
  | nil => exact List.sum_eq_zero (fun x hx => by
      rcases List.mem_map.mp hx with ⟨k, _, rfl⟩
      rfl)
  | cons item rest ih =>
      simp only [sumAt_cons]
      rw [List.sum_map_add, ih (fun i hi => hcover i (List.mem_cons_of_mem item hi)),
        sum_ite_key (key item) keys hkeys (hcover item List.mem_cons_self), List.map_cons,
        List.sum_cons]

end SumAt

section Tables

variable (k k' : κ) (m : M) (table : List (κ × M))

/-- The amount under a key. -/
def amountAt : Option M := (Table.lookup Prod.fst k table).map Prod.snd

/-- Write an amount under a key. -/
def setAmount : List (κ × M) := Table.upsert Prod.fst k (fun _ => (k, m)) table

/-- Make sure there is an amount under a key. -/
def setDefault : List (κ × M) := Table.upsert Prod.fst k (fun old => old.getD (k, 0)) table

theorem lookup_fst_getD : ((Table.lookup Prod.fst k table).getD (k, 0)).1 = k := by
  rcases hl : Table.lookup Prod.fst k table with _ | row
  · rfl
  · exact (Table.mem_of_lookup Prod.fst k table row hl).2

omit [AddCommGroup M] in
@[simp] theorem amountAt_setAmount : amountAt k' (setAmount k m table) =
    if k' = k then some m else amountAt k' table := by
  unfold amountAt setAmount
  by_cases hk : k' = k
  · rw [if_pos hk, hk, Table.lookup_upsert_self Prod.fst k _ table rfl]
    rfl
  · rw [if_neg hk, Table.lookup_upsert_of_ne Prod.fst k _ table rfl k' hk]

@[simp] theorem amountAt_setDefault : amountAt k' (setDefault k table) =
    if k' = k then some ((amountAt k table).getD 0) else amountAt k' table := by
  unfold amountAt setDefault
  by_cases hk : k' = k
  · rw [if_pos hk, hk, Table.lookup_upsert_self Prod.fst k _ table (lookup_fst_getD k table)]
    rcases Table.lookup Prod.fst k table with _ | row <;> rfl
  · rw [if_neg hk, Table.lookup_upsert_of_ne Prod.fst k _ table (lookup_fst_getD k table) k' hk]

/-- The sum over a table after the row under a key is written. -/
theorem sum_upsert (f : Option (κ × M) → κ × M) :
    ((Table.upsert Prod.fst k f table).map Prod.snd).sum =
      (table.map Prod.snd).sum - (amountAt k table).getD 0 +
        (f (Table.lookup Prod.fst k table)).2 := by
  unfold amountAt
  induction table with
  | nil =>
      simp only [Table.upsert, Table.lookup, List.find?_nil, List.map_cons, List.map_nil,
        List.sum_cons, List.sum_nil, Option.map_none, Option.getD_none]
      abel
  | cons row rest ih =>
      by_cases hrow : row.1 = k
      · -- The first row under the key is the one that is written.
        rw [Table.upsert, if_pos hrow]
        simp only [Table.lookup, List.find?_cons, hrow, decide_true, List.map_cons, List.sum_cons,
          Option.map_some, Option.getD_some]
        abel
      · rw [Table.upsert, if_neg hrow, List.map_cons, List.sum_cons, ih]
        simp only [Table.lookup, List.find?_cons, hrow, decide_false, List.map_cons, List.sum_cons]
        abel

theorem sum_setAmount : ((setAmount k m table).map Prod.snd).sum =
    (table.map Prod.snd).sum - (amountAt k table).getD 0 + m := sum_upsert k table _

@[simp] theorem sum_setDefault : ((setDefault k table).map Prod.snd).sum =
    (table.map Prod.snd).sum := by
  have hsame : ((Table.lookup Prod.fst k table).getD (k, 0)).2 = (amountAt k table).getD 0 := by
    unfold amountAt
    rcases Table.lookup Prod.fst k table with _ | row <;> rfl
  rw [setDefault, sum_upsert, hsame, sub_add_cancel]

end Tables

end KeyedSum

end OptionsBot
