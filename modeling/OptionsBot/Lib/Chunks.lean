import Mathlib.Data.List.Basic

/-!
# Chunks Committed One by One

A list is cut into chunks of a given length, the last one maybe shorter, and the chunks
are committed in order until a commit fails. What is committed is then a prefix of the
list. It is the whole list or nothing exactly if the first commit fails or none does.

## Main definitions

* `chunks`: A list cut into chunks.
* `committed`: The chunks before the first that fails.
* `failure`: How the first that fails does.

## Theorems

* `flatten_chunks`: The chunks together are the list.
* `length_chunks`: How many they are.
* `ne_nil_of_mem_chunks`: None of them is empty.
* `committed_of_failure_none`, `failure_none_iff`: If no commit fails, all are committed.
* `committed_of_failure`: Else those are committed that come before the one that fails.
* `committed_whole_iff`: When what is committed is everything or nothing.
-/

namespace OptionsBot

namespace Batched

section Chunks

variable {α : Type}

/-- A list cut into chunks of length `n`. -/
def chunks (n : Nat) (xs : List α) : List (List α) :=
  (List.range ((xs.length + n - 1) / n)).map (fun i => (xs.drop (i * n)).take n)

theorem length_chunks (n : Nat) (xs : List α) :
    (chunks n xs).length = (xs.length + n - 1) / n := by
  rw [chunks, List.length_map, List.length_range]

/-- The first `k` chunks are the first `k * n` items. -/
theorem flatten_first_chunks (n k : Nat) (xs : List α) :
    ((List.range k).map (fun i => (xs.drop (i * n)).take n)).flatten = xs.take (k * n) := by
  induction k with
  | zero => rw [Nat.zero_mul, List.take_zero, List.range_zero, List.map_nil, List.flatten_nil]
  | succ k ih =>
      rw [List.range_succ, List.map_append, List.flatten_append, ih, List.map_singleton,
        List.flatten_singleton, Nat.succ_mul, List.take_add]

theorem flatten_chunks (n : Nat) (hn : 0 < n) (xs : List α) : (chunks n xs).flatten = xs := by
  rw [chunks, flatten_first_chunks]
  refine List.take_of_length_le ?_
  -- As many chunks as `n` goes into the length, rounded up, have room for all of it.
  have hlt := Nat.lt_mul_div_succ (xs.length + n - 1) hn
  rw [Nat.mul_add, Nat.mul_one, Nat.mul_comm] at hlt
  omega

theorem ne_nil_of_mem_chunks (n : Nat) (hn : 0 < n) (xs c : List α) (hc : c ∈ chunks n xs) :
    c ≠ [] := by
  rcases List.mem_map.mp hc with ⟨i, hi, rfl⟩
  have hlt := List.mem_range.mp hi
  -- A chunk begins before the end of the list, so there is an item for it.
  have hle : (i + 1) * n ≤ xs.length + n - 1 :=
    (Nat.le_div_iff_mul_le hn).mp (Nat.succ_le_of_lt hlt)
  rw [Nat.succ_mul] at hle
  refine List.ne_nil_of_length_pos ?_
  rw [List.length_take, List.length_drop]
  omega

end Chunks

section Commit

variable {ε α : Type} (fails : Nat → Option ε)

/-- The chunks that are committed, when the commits from number `i` on may fail. -/
def committed : Nat → List α → List α
  | _, [] => []
  | i, c :: rest => if (fails i).isSome then [] else c :: committed (i + 1) rest

/-- How the first commit fails that does. -/
def failure : Nat → List α → Option ε
  | _, [] => none
  | i, _ :: rest => (fails i).or (failure (i + 1) rest)

theorem failure_none_iff (i : Nat) (cs : List α) :
    failure fails i cs = none ↔ ∀ j < cs.length, fails (i + j) = none := by
  induction cs generalizing i with
  | nil => exact ⟨fun _ j hj => absurd hj (Nat.not_lt_zero j), fun _ => rfl⟩
  | cons c rest ih =>
      rw [failure, Option.or_eq_none_iff, ih (i + 1)]
      constructor
      · rintro ⟨hfirst, hrest⟩ j hj
        cases j with
        | zero => exact hfirst
        | succ j =>
            rw [← Nat.add_assoc, Nat.add_right_comm]
            exact hrest j (Nat.lt_of_succ_lt_succ hj)
      · intro h
        refine ⟨h 0 (Nat.succ_pos _), fun j hj => ?_⟩
        rw [Nat.add_right_comm]
        exact h (j + 1) (Nat.succ_lt_succ hj)

theorem committed_of_failure_none (i : Nat) (cs : List α) (h : failure fails i cs = none) :
    committed fails i cs = cs := by
  induction cs generalizing i with
  | nil => rfl
  | cons c rest ih =>
      rw [failure, Option.or_eq_none_iff] at h
      rw [committed, h.1, Option.isSome_none, if_neg Bool.false_ne_true, ih (i + 1) h.2]

theorem committed_of_failure (i : Nat) (cs : List α) (h : failure fails i cs ≠ none) :
    ∃ k < cs.length, committed fails i cs = cs.take k := by
  induction cs generalizing i with
  | nil => exact absurd rfl h
  | cons c rest ih =>
      rw [committed]
      split_ifs with hfirst
      · exact ⟨0, Nat.succ_pos _, rfl⟩
      · rw [Option.not_isSome_iff_eq_none] at hfirst
        rw [failure, hfirst, Option.none_or] at h
        rcases ih (i + 1) h with ⟨k, hk, hcommitted⟩
        exact ⟨k + 1, Nat.succ_lt_succ hk, by rw [hcommitted, List.take_succ_cons]⟩

end Commit

section Whole

variable {ε α : Type} (fails : Nat → Option ε)

/-- Of chunks that are not empty nothing is committed exactly if the first commit fails. -/
theorem flatten_committed_nil_iff (cs : List (List α)) (hne : ∀ c ∈ cs, c ≠ []) (hcs : cs ≠ []) :
    (committed fails 0 cs).flatten = [] ↔ (fails 0).isSome = true := by
  rcases cs with _ | ⟨c, rest⟩
  · exact absurd rfl hcs
  · rw [committed]
    split_ifs with hfirst
    · exact ⟨fun _ => hfirst, fun _ => rfl⟩
    · rw [List.flatten_cons, List.append_eq_nil_iff]
      exact ⟨fun h => absurd h.1 (hne c List.mem_cons_self), fun h => absurd h hfirst⟩

theorem length_flatten_committed_lt (cs : List (List α)) (hne : ∀ c ∈ cs, c ≠ [])
    (h : failure fails 0 cs ≠ none) :
    (committed fails 0 cs).flatten.length < cs.flatten.length := by
  rcases committed_of_failure fails 0 cs h with ⟨k, hk, hcommitted⟩
  -- The chunk that fails has an item, and it is not among the committed ones.
  have hsplit := congrArg (fun l => l.flatten.length) (List.take_append_drop k cs)
  have hdrop : 0 < (cs.drop k).flatten.length := by
    rw [List.drop_eq_getElem_cons hk, List.flatten_cons, List.length_append]
    exact Nat.add_pos_left (List.length_pos_iff.mpr (hne _ (List.getElem_mem hk))) _
  simp only [List.flatten_append, List.length_append] at hsplit
  rw [hcommitted]
  omega

/-- What is committed is everything or nothing exactly if the first commit fails or none does. -/
theorem committed_whole_iff (cs : List (List α)) (hne : ∀ c ∈ cs, c ≠ []) (hcs : cs ≠ []) :
    ((committed fails 0 cs).flatten.length = 0 ∨
      (committed fails 0 cs).flatten.length = cs.flatten.length) ↔
      (fails 0).isSome = true ∨ failure fails 0 cs = none := by
  constructor
  · rintro (h | h)
    · exact Or.inl ((flatten_committed_nil_iff fails cs hne hcs).mp (List.length_eq_zero_iff.mp h))
    · by_cases hfail : failure fails 0 cs = none
      · exact Or.inr hfail
      · exact absurd h (Nat.ne_of_lt (length_flatten_committed_lt fails cs hne hfail))
  · rintro (h | h)
    · exact Or.inl (by rw [(flatten_committed_nil_iff fails cs hne hcs).mpr h, List.length_nil])
    · exact Or.inr (by rw [committed_of_failure_none fails 0 cs h])

end Whole

end Batched

end OptionsBot
