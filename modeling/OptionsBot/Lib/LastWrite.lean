import Mathlib.Data.List.Induction
import Mathlib.Logic.Function.Basic

/-!
# The Last Write under a Key

A map that is written entry by entry. Under each key it has the value of the last entry of that
key, and the value it had before where there is none.

## Main definitions

* `lastWrite`: The value of the last entry of a key.

## Theorems

* `lastWrite_append`: The last of two lists of entries.
* `foldl_update_apply`: What a map has under a key after some writes.
-/

namespace OptionsBot

section LastWrite

variable {α κ β : Type} [DecidableEq κ] (key : α → κ) (value : α → β)

/-- The value of the last entry of a key. -/
def lastWrite (k : κ) (entries : List α) : Option β :=
  (entries.filter (fun e => key e = k)).getLast?.map value

theorem lastWrite_append (k : κ) (xs ys : List α) :
    lastWrite key value k (xs ++ ys) =
      (lastWrite key value k ys).or (lastWrite key value k xs) := by
  rw [lastWrite, lastWrite, lastWrite, List.filter_append, List.getLast?_append]
  cases (ys.filter (fun e => key e = k)).getLast? with
  | none => rfl
  | some y => rfl

theorem lastWrite_single (k : κ) (x : α) :
    lastWrite key value k [x] = if key x = k then some (value x) else none := by
  unfold lastWrite
  by_cases h : key x = k
  · simp only [h, List.filter_cons_of_pos, decide_true, List.filter_nil, List.getLast?_singleton,
      Option.map_some, if_true]
  · simp only [h, List.filter_cons, decide_false, Bool.false_eq_true, if_false, List.filter_nil,
      List.getLast?_nil, Option.map_none]

/-- After some writes, a map has the last one under each key. -/
theorem foldl_update_apply (entries : List α) (f : κ → Option β) (k : κ) :
    entries.foldl (fun f e => Function.update f (key e) (some (value e))) f k =
      (lastWrite key value k entries).or (f k) := by
  induction entries using List.reverseRecOn with
  | nil => rfl
  | append_singleton before e ih =>
      rw [List.foldl_append, List.foldl_cons, List.foldl_nil, lastWrite_append, lastWrite_single]
      by_cases h : key e = k
      · rw [if_pos h, ← h, Function.update_self]
        rfl
      · rw [if_neg h, Function.update_of_ne (Ne.symm h), ih, Option.none_or]

end LastWrite

end OptionsBot
