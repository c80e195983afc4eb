/-!
# Streams in Buckets

Items that arrive one after another, each in a numbered bucket. Seen as a whole, a
stream has one summary for every bucket from the first item's to the last's. The
items of a bucket are summarized together, and an empty bucket is filled in from
the summary before it.

The summaries need no more than the last one to go on. A next item in the last
bucket joins that summary, and an item in a later bucket puts fillers and a
summary of its own behind it.

## Main definitions

* `entry`: The summary of one bucket.
* `entries`: The summaries of buckets in a row.
* `batch`: The summaries of a stream.
* `fillers`: The summaries of empty buckets in a row.

## Theorems

* `entries_add`: The summaries of a row, in two parts.
* `batch_last`: The last summary is of the last item's bucket.
* `batch_join`: The summaries after an item in the last bucket.
* `batch_advance`: The summaries after an item in a later bucket.
-/

namespace OptionsBot

namespace Buckets

variable {τ σ : Type} (bucket : τ → Int) (summarize : Int → τ → List τ → σ) (fill : Int → σ → σ)

/-- The items of a bucket. -/
def within (items : List τ) (b : Int) : List τ := items.filter (fun x => decide (bucket x = b))

/-- The summary of a bucket, after the summary `prev` of the bucket before. -/
def entry (items : List τ) (prev : σ) (b : Int) : σ :=
  match within bucket items b with
  | [] => fill b prev
  | x :: rest => summarize b x rest

/-- The summaries of the buckets from `b` on. -/
def entries (items : List τ) (prev : σ) (b : Int) : Nat → List σ
  | 0 => []
  | n + 1 =>
    let s := entry bucket summarize fill items prev b
    s :: entries items s (b + 1) n

/-- The summaries from the first item's bucket to the last item's. The first bucket
    has an item, so it does not matter what is said to be before it. -/
def batch (items : List τ) : List σ :=
  match items.head?, items.getLast? with
  | some x, some z => entries bucket summarize fill items (summarize (bucket x) x []) (bucket x)
      ((bucket z - bucket x).toNat + 1)
  | _, _ => []

/-- The summaries of empty buckets from `b` on. -/
def fillers (prev : σ) (b : Int) : Nat → List σ
  | 0 => []
  | n + 1 =>
    let s := fill b prev
    s :: fillers s (b + 1) n

theorem entries_add (items : List τ) (prev : σ) (b : Int) (n m : Nat) :
    entries bucket summarize fill items prev b (n + m) =
      entries bucket summarize fill items prev b n ++
        entries bucket summarize fill items
          ((entries bucket summarize fill items prev b n).getLastD prev) (b + n) m := by
  induction n generalizing prev b with
  | zero =>
      simp only [Nat.zero_add, entries, List.nil_append, List.getLastD_nil, Int.add_zero,
        Int.cast_ofNat_Int]
  | succ n ih =>
      -- The summary that is carried on is that of the first bucket.
      have hb : b + ((n + 1 : Nat) : Int) = b + 1 + n := by omega
      rw [Nat.succ_add, entries, entries, hb, List.cons_append, List.getLastD_cons, ih]

/-- Only what is in the buckets matters. -/
theorem entries_congr (items others : List τ) (prev : σ) (b : Int) (n : Nat)
    (h : ∀ c, b ≤ c → c < b + n → within bucket items c = within bucket others c) :
    entries bucket summarize fill items prev b n =
      entries bucket summarize fill others prev b n := by
  induction n generalizing prev b with
  | zero => rfl
  | succ n ih =>
      have hentry : entry bucket summarize fill items prev b =
          entry bucket summarize fill others prev b := by
        rw [entry, entry, h b (Int.le_refl b) (by omega)]
      rw [entries, entries, hentry, ih _ (b + 1) (fun c hle hlt => h c (by omega) (by omega))]

theorem entries_empty (items : List τ) (prev : σ) (b : Int) (n : Nat)
    (h : ∀ c, b ≤ c → c < b + n → within bucket items c = []) :
    entries bucket summarize fill items prev b n = fillers fill prev b n := by
  induction n generalizing prev b with
  | zero => rfl
  | succ n ih =>
      have hentry : entry bucket summarize fill items prev b = fill b prev := by
        rw [entry, h b (Int.le_refl b) (by omega)]
      rw [entries, fillers, hentry, ih _ (b + 1) (fun c hle hlt => h c (by omega) (by omega))]

theorem within_single (y : τ) (b : Int) :
    within bucket [y] b = if bucket y = b then [y] else [] := by
  simp only [within, List.filter_cons, List.filter_nil, decide_eq_true_eq]

theorem within_append (items : List τ) (y : τ) (b : Int) :
    within bucket (items ++ [y]) b =
      within bucket items b ++ if bucket y = b then [y] else [] := by
  rw [← within_single, within, List.filter_append]
  rfl

theorem within_other (items : List τ) (y : τ) (b : Int) (h : bucket y ≠ b) :
    within bucket (items ++ [y]) b = within bucket items b := by
  rw [within_append, if_neg h, List.append_nil]

theorem within_nil (items : List τ) (b : Int) (h : ∀ x ∈ items, bucket x ≠ b) :
    within bucket items b = [] := by
  rw [within, List.filter_eq_nil_iff]
  intro x hx
  rw [decide_eq_true_iff]
  exact h x hx

theorem batch_nil : batch bucket summarize fill ([] : List τ) = [] := rfl

theorem batch_single (x : τ) :
    batch bucket summarize fill [x] = [summarize (bucket x) x []] := by
  simp only [batch, List.head?_cons, List.getLast?_singleton, Int.sub_self, Int.toNat_zero,
    entries, entry, within_single, if_true]

/-- An item joins the summary of its bucket, if the bucket has one already. -/
theorem entry_join (add : σ → τ → σ)
    (hadd : ∀ b x rest y, summarize b x (rest ++ [y]) = add (summarize b x rest) y)
    (items : List τ) (prev : σ) (y z : τ) (hz : z ∈ items) (hyz : bucket y = bucket z) :
    entry bucket summarize fill (items ++ [y]) prev (bucket z) =
      add (entry bucket summarize fill items prev (bucket z)) y := by
  have hmem : z ∈ within bucket items (bucket z) := by
    rw [within, List.mem_filter, decide_eq_true_iff]
    exact ⟨hz, rfl⟩
  rw [entry, entry, within_append, if_pos hyz]
  -- The bucket holds `z`, so the new item is not its first.
  cases hitems : within bucket items (bucket z) with
  | nil =>
      rw [hitems] at hmem
      exact absurd hmem List.not_mem_nil
  | cons w rest => exact hadd (bucket z) w rest y

/-- A stream that ends with an item starts with one. -/
theorem batch_ends (items : List τ) (z : τ) (hlast : items.getLast? = some z) :
    ∃ x ∈ items, items.head? = some x ∧ z ∈ items := by
  cases items with
  | nil => cases hlast
  | cons x rest =>
      exact ⟨x, List.mem_cons_self, rfl, List.mem_of_getLast? hlast⟩

theorem batch_join (add : σ → τ → σ)
    (hadd : ∀ b x rest y, summarize b x (rest ++ [y]) = add (summarize b x rest) y)
    {items : List τ} {z : τ} (hlast : items.getLast? = some z)
    (hle : ∀ w ∈ items, bucket w ≤ bucket z) (y : τ) (hy : bucket y = bucket z)
    (init : List σ) (s : σ)
    (hbatch : batch bucket summarize fill items = init ++ [s]) :
    batch bucket summarize fill (items ++ [y]) = init ++ [add s y] := by
  rcases batch_ends items z hlast with ⟨x, hx, hhead, hz⟩
  have hspan : bucket x + ((bucket z - bucket x).toNat : Int) = bucket z := by
    have := hle x hx
    omega
  have hnext : (items ++ [y]).head? = some x ∧ (items ++ [y]).getLast? = some y := by
    rw [List.head?_append, hhead]
    exact ⟨rfl, List.getLast?_concat⟩
  simp only [batch, hhead, hlast] at hbatch
  simp only [batch, hnext.1, hnext.2, hy]
  rw [entries_add, hspan, entries, entries] at hbatch ⊢
  -- The buckets before the last one have no new item.
  rw [entries_congr bucket summarize fill (items ++ [y]) items _ _ _
      (fun c _ hlt => within_other bucket items y c (by omega)),
    entry_join bucket summarize fill add hadd items _ y z hz hy]
  rcases List.append_inj' hbatch rfl with ⟨hinit, hs⟩
  cases hs
  rw [hinit]

/-- The last summary is of the last item's bucket, and of items of it. -/
theorem batch_last {items : List τ} {z : τ} (hlast : items.getLast? = some z)
    (hle : ∀ w ∈ items, bucket w ≤ bucket z) : ∃ init x rest,
    batch bucket summarize fill items = init ++ [summarize (bucket z) x rest] := by
  rcases batch_ends items z hlast with ⟨x, hx, hhead, hz⟩
  have hspan : bucket x + ((bucket z - bucket x).toNat : Int) = bucket z := by
    have := hle x hx
    omega
  have hmem : z ∈ within bucket items (bucket z) := by
    rw [within, List.mem_filter, decide_eq_true_iff]
    exact ⟨hz, rfl⟩
  simp only [batch, hhead, hlast]
  rw [entries_add, hspan, entries, entries, entry]
  cases hitems : within bucket items (bucket z) with
  | nil =>
      rw [hitems] at hmem
      exact absurd hmem List.not_mem_nil
  | cons w rest => exact ⟨_, w, rest, rfl⟩

theorem batch_advance {items : List τ} {z : τ} (hlast : items.getLast? = some z)
    (hle : ∀ w ∈ items, bucket w ≤ bucket z) (y : τ) (hy : bucket z < bucket y)
    (init : List σ) (s : σ)
    (hbatch : batch bucket summarize fill items = init ++ [s]) :
    batch bucket summarize fill (items ++ [y]) = init ++ [s] ++
      fillers fill s (bucket z + 1) (bucket y - (bucket z + 1)).toNat ++
        [summarize (bucket y) y []] := by
  rcases batch_ends items z hlast with ⟨x, hx, hhead, _⟩
  have hxz := hle x hx
  have hspan : bucket x + (((bucket z - bucket x).toNat + 1 : Nat) : Int) = bucket z + 1 := by
    omega
  have hcount : (bucket y - bucket x).toNat + 1 =
      (bucket z - bucket x).toNat + 1 + ((bucket y - (bucket z + 1)).toNat + 1) := by omega
  have hnext : (items ++ [y]).head? = some x ∧ (items ++ [y]).getLast? = some y := by
    rw [List.head?_append, hhead]
    exact ⟨rfl, List.getLast?_concat⟩
  have hend : bucket z + 1 + ((bucket y - (bucket z + 1)).toNat : Int) = bucket y := by omega
  simp only [batch, hhead, hlast] at hbatch
  simp only [batch, hnext.1, hnext.2]
  -- The row falls into the old buckets, the empty ones, and the bucket of the new item.
  rw [hcount, entries_add, hspan, entries_congr bucket summarize fill (items ++ [y]) items _ _ _
      (fun c _ hlt => within_other bucket items y c (by omega))]
  rw [hbatch, List.getLastD_concat, entries_add, hend, entries_empty bucket summarize fill
      (items ++ [y]) s (bucket z + 1) _ (fun c hc hlt => ?_)]
  · have hnew : within bucket (items ++ [y]) (bucket y) = [y] := by
      rw [within_append, if_pos rfl, within_nil bucket items (bucket y)
        (fun w hw => by have := hle w hw; omega), List.nil_append]
    simp only [entries, entry, hnew, List.append_assoc]
  · rw [within_other bucket items y c (by omega)]
    exact within_nil bucket items c (fun w hw => by have := hle w hw; omega)

end Buckets

end OptionsBot
