import Mathlib.Algebra.Order.BigOperators.Group.List
import Mathlib.Algebra.Order.Field.Basic
import Mathlib.Data.List.MinMax
import Mathlib.Tactic.Linarith
import Mathlib.Tactic.Ring

/-!
# Metered Withdrawals

An account that fills at a steady rate up to a capacity, and a log of what was taken
out of it. The account is filled only now and then, up to the moment, and what is
taken out is never more than there is.

What may be taken in an interval is then bounded by a full account and what comes in
meanwhile. That is not an invariant by itself. What is: from any moment on, what was
taken and what is left are together no more than that (`Metered.earned`).

What exactly was taken in an interval is known once what flowed over is counted as
well. A ledger does that. Its balance always holds: what is in the account, what has
flowed over and what was taken are what there was and what came in. So in a window
as much was taken as was in the account where the window begins and came in since, less
what is left and what flowed over (`Ledger.window`).

## Main definitions

* `takenIn`: What was taken in an interval.
* `InOrder`: A clock that does not go back.
* `Metered`: An account with its log, by what is in it at a moment.
* `within`: The withdrawals of a window that ends at a moment.
* `Ledger`: What is in an account, and what has flowed over.
* `Ledger.replay`, `Ledger.upTo`: The ledger behind a log, and at a moment of it.

## Theorems

* `Metered.full`, `Metered.fill`, `Metered.take`: A full account, filling and taking.
* `Metered.within_lt`: What a window can hold.
* `within_append`: One more withdrawal in a window.
* `Ledger.fill_fill`: Filling an account in two goes.
* `Ledger.replay_balance`: The balance of a ledger.
* `Ledger.window`: What was taken in a window.
* `Ledger.upTo_later`, `Ledger.upTo_append`: The ledger past the end of a log, and
  after one more withdrawal.
-/

namespace OptionsBot

section Metering

variable {ε K : Type} [Field K] [LinearOrder K] (time amount : ε → K)

/-- What was taken in an interval. -/
def takenIn (log : List ε) (s t : K) : K :=
  ((log.filter (fun e => s ≤ time e ∧ time e ≤ t)).map amount).sum

variable {time amount} {rate capacity level now : K} {log : List ε}

theorem takenIn_append (xs ys : List ε) (s t : K) : takenIn time amount (xs ++ ys) s t =
    takenIn time amount xs s t + takenIn time amount ys s t := by
  rw [takenIn, List.filter_append, List.map_append, List.sum_append, takenIn, takenIn]

theorem takenIn_single (e : ε) (s t : K) :
    takenIn time amount [e] s t = if s ≤ time e ∧ time e ≤ t then amount e else 0 := by
  unfold takenIn
  rw [List.filter_singleton]
  by_cases h : s ≤ time e ∧ time e ≤ t
  · rw [if_pos h, decide_eq_true h]
    simp only [cond_true, List.map_cons, List.map_nil, List.sum_cons, List.sum_nil, add_zero]
  · rw [if_neg h, decide_eq_false h]
    rfl

/-- Behind the last withdrawal an interval may end anywhere. -/
theorem takenIn_past (h : ∀ e ∈ log, time e ≤ now) (s t : K) (ht : now ≤ t) :
    takenIn time amount log s t = takenIn time amount log s now := by
  unfold takenIn
  congr 2
  refine List.filter_congr (fun e he => ?_)
  have hpast := h e he
  rw [decide_eq_decide]
  exact and_congr_right (fun _ => iff_of_true (le_trans hpast ht) hpast)

/-- Behind it, nothing was taken. -/
theorem takenIn_later (h : ∀ e ∈ log, time e ≤ now) (s t : K) (hs : now < s) :
    takenIn time amount log s t = 0 := by
  unfold takenIn
  rw [List.filter_eq_nil_iff.mpr (fun e he => ?_), List.map_nil, List.sum_nil]
  rw [decide_eq_true_eq]
  exact fun hin => absurd (le_trans hin.1 (h e he)) (not_le.mpr hs)

/-- The readings of a clock from a start on, none of them before an earlier one. -/
def InOrder (start : K) (readings : List K) : Prop := (start :: readings).Pairwise (· ≤ ·)

variable (time amount) in
/-- What is in an account, and what was taken from it until now. -/
structure Metered (rate capacity level now : K) (log : List ε) : Prop where
  nonneg : 0 ≤ level
  le_capacity : level ≤ capacity
  past : ∀ e ∈ log, time e ≤ now
  earned : ∀ s ≤ now, level + takenIn time amount log s now ≤ capacity + rate * (now - s)
  window : ∀ s t, s ≤ t → takenIn time amount log s t ≤ capacity + rate * (t - s)

variable (time) in
/-- The number of withdrawals in a window that ends at a moment. -/
def within (width t : K) (log : List ε) : Nat :=
  log.countP (fun e => t - width < time e ∧ time e ≤ t)

variable [IsStrictOrderedRing K]

namespace Metered

/-- A full account that nothing was taken from. -/
theorem full (now : K) (hrate : 0 ≤ rate) (hcapacity : 0 ≤ capacity) :
    Metered time amount rate capacity capacity now [] where
  nonneg := hcapacity
  le_capacity := le_refl capacity
  past := fun _ h => absurd h List.not_mem_nil
  earned := by
    intro s hs
    have := mul_nonneg hrate (sub_nonneg.mpr hs)
    have hnone : takenIn time amount [] s now = 0 := rfl
    linarith
  window := by
    intro s t hst
    have := mul_nonneg hrate (sub_nonneg.mpr hst)
    have hnone : takenIn time amount [] s t = 0 := rfl
    linarith

/-- Filling the account up to a later moment. -/
theorem fill (h : Metered time amount rate capacity level now log) (hrate : 0 ≤ rate) (later : K)
    (hlater : now ≤ later) : Metered time amount rate capacity
      (min capacity (level + (later - now) * rate)) later log where
  nonneg := by
    have := mul_nonneg (sub_nonneg.mpr hlater) hrate
    exact le_min (le_trans h.nonneg h.le_capacity) (by linarith [h.nonneg])
  le_capacity := min_le_left _ _
  past := fun e he => le_trans (h.past e he) hlater
  earned := by
    intro s hs
    -- Nothing was taken since, so an interval that starts behind the last moment is empty.
    rcases le_or_gt s now with hold | hnew
    · rw [takenIn_past h.past s later hlater]
      have hlevel := min_le_right capacity (level + (later - now) * rate)
      have := h.earned s hold
      have hsplit : rate * (later - s) = (later - now) * rate + rate * (now - s) := by ring
      linarith
    · rw [takenIn_later h.past s later hnew]
      have hlevel := min_le_left capacity (level + (later - now) * rate)
      have := mul_nonneg hrate (sub_nonneg.mpr hs)
      linarith
  window := h.window

/-- Taking no more than there is. -/
theorem take (h : Metered time amount rate capacity level now log) (hrate : 0 ≤ rate) (e : ε)
    (he : time e = now) (hpos : 0 ≤ amount e) (hlevel : amount e ≤ level) :
    Metered time amount rate capacity (level - amount e) now (log ++ [e]) where
  nonneg := sub_nonneg.mpr hlevel
  le_capacity := by linarith [h.le_capacity]
  past := by
    intro x hx
    rcases List.mem_append.mp hx with hold | hnew
    · exact h.past x hold
    · rw [List.mem_singleton.mp hnew, he]
  earned := by
    intro s hs
    rw [takenIn_append, takenIn_single, he, if_pos ⟨hs, le_refl now⟩]
    linarith [h.earned s hs]
  window := by
    intro s t hst
    rw [takenIn_append, takenIn_single, he]
    by_cases hin : s ≤ now ∧ now ≤ t
    · -- What is taken now was left before, and the interval goes on to its end.
      rw [if_pos hin, takenIn_past h.past s t hin.2]
      have := h.earned s hin.1
      have hgrows := mul_le_mul_of_nonneg_left (sub_le_sub_right hin.2 s) hrate
      linarith
    · rw [if_neg hin, add_zero]
      exact h.window s t hst

end Metered

section Windows

variable (time) in
/-- What was taken by the end of a window was taken in it, or by its beginning. -/
theorem countP_past (width : K) (hwidth : 0 ≤ width) (t : K) (log : List ε) :
    log.countP (fun e => time e ≤ t) =
      within time width t log + log.countP (fun e => time e ≤ t - width) := by
  unfold within
  induction log with
  | nil => rfl
  | cons e rest ih =>
      simp only [List.countP_cons, ih, decide_eq_true_eq]
      rcases le_or_gt (time e) (t - width) with hearly | hlate
      · have hend : time e ≤ t := by linarith
        rw [if_pos hend, if_neg fun h => absurd hearly (not_le.mpr h.1), if_pos hearly]
        omega
      · by_cases hend : time e ≤ t
        · rw [if_pos hend, if_pos ⟨hlate, hend⟩, if_neg (not_le.mpr hlate)]
          omega
        · rw [if_neg hend, if_neg fun h => hend h.2, if_neg (not_le.mpr hlate), Nat.add_zero,
            Nat.add_zero, Nat.add_zero]

/-- A withdrawal at the end of a log that has room for it keeps to the window. -/
theorem within_append (width : K) (c : Nat) (e : ε) (hpast : ∀ x ∈ log, time x ≤ time e)
    (hwindow : ∀ t, within time width t log ≤ c) (hroom : within time width (time e) log < c)
    (t : K) : within time width t (log ++ [e]) ≤ c := by
  unfold within
  rw [List.countP_append, List.countP_singleton]
  split_ifs with hin
  · -- What is in the window with it is in the one that ends with it.
    rw [decide_eq_true_eq] at hin
    have hle : within time width t log ≤ within time width (time e) log := by
      refine List.countP_mono_left (fun x hx h => ?_)
      rw [decide_eq_true_eq] at h ⊢
      exact ⟨by linarith [h.1, hin.2], hpast x hx⟩
    exact Nat.succ_le_of_lt (lt_of_le_of_lt hle hroom)
  · exact hwindow t

end Windows

end Metering

/-- What is in an account at a moment, and what has flowed over until then. -/
structure Ledger (K : Type) where
  level : K
  lost : K
  now : K

namespace Ledger

variable {ε K : Type} [Field K] [LinearOrder K]

/-- The account filled up to a moment. -/
def fill (rate capacity : K) (a : Ledger K) (t : K) : Ledger K :=
  { level := min capacity (a.level + (t - a.now) * rate)
    lost := a.lost + max 0 (a.level + (t - a.now) * rate - capacity)
    now := t }

def take (a : Ledger K) (x : K) : Ledger K := { a with level := a.level - x }

/-- An account that is full. -/
def full (capacity since : K) : Ledger K := { level := capacity, lost := 0, now := since }

section Replay

variable (time amount : ε → K) (rate capacity : K) (a : Ledger K)

/-- The ledger behind the withdrawals of a log. -/
def replay (log : List ε) : Ledger K :=
  log.foldl (fun a e => (a.fill rate capacity (time e)).take (amount e)) a

/-- The ledger at a moment of a log. -/
def upTo (log : List ε) (t : K) : Ledger K :=
  (a.replay time amount rate capacity (log.filter (fun e => time e ≤ t))).fill rate capacity t

end Replay

variable {time amount : ε → K} {rate capacity : K} {a : Ledger K} {log : List ε} {now : K}

theorem replay_append (xs ys : List ε) : a.replay time amount rate capacity (xs ++ ys) =
    (a.replay time amount rate capacity xs).replay time amount rate capacity ys :=
  List.foldl_append

/-- The whole log is behind a moment. -/
theorem upTo_past (hpast : ∀ e ∈ log, time e ≤ now) : a.upTo time amount rate capacity log now =
    (a.replay time amount rate capacity log).fill rate capacity now := by
  rw [upTo, List.filter_eq_self.mpr fun e he => decide_eq_true (hpast e he)]

variable [IsStrictOrderedRing K]

variable (rate capacity a) in
theorem fill_balance (t : K) : (a.fill rate capacity t).level + (a.fill rate capacity t).lost =
    a.level + a.lost + rate * (t - a.now) := by
  have hsplit : ∀ y : K, min capacity y + max 0 (y - capacity) = y := by
    intro y
    rcases le_total capacity y with hover | hunder
    · rw [min_eq_left hover, max_eq_right (sub_nonneg.mpr hover)]
      ring
    · rw [min_eq_right hunder, max_eq_left (sub_nonpos.mpr hunder), add_zero]
  have h := hsplit (a.level + (t - a.now) * rate)
  simp only [fill]
  linarith

/-- Nothing is gained or lost by filling an account in two goes. -/
theorem fill_fill (hrate : 0 ≤ rate) (t u : K) (htu : t ≤ u) :
    (a.fill rate capacity t).fill rate capacity u = a.fill rate capacity u := by
  have hmore := mul_nonneg (sub_nonneg.mpr htu) hrate
  have hsum : a.level + (u - a.now) * rate =
      a.level + (t - a.now) * rate + (u - t) * rate := by ring
  simp only [fill, hsum]
  rw [Ledger.mk.injEq]
  rcases le_total capacity (a.level + (t - a.now) * rate) with hover | hunder
  · rw [min_eq_left hover, max_eq_right (sub_nonneg.mpr hover), min_eq_left (by linarith),
      min_eq_left (by linarith), max_eq_right (by linarith), max_eq_right (by linarith)]
    exact ⟨rfl, by ring, rfl⟩
  · rw [min_eq_right hunder, max_eq_left (sub_nonpos.mpr hunder), add_zero]
    exact ⟨rfl, rfl, rfl⟩

variable (time amount rate capacity a) in
/-- What is in the account, what has flowed over and what was taken are what there was and what
    came in. -/
theorem replay_balance (log : List ε) : (a.replay time amount rate capacity log).level +
    (a.replay time amount rate capacity log).lost + (log.map amount).sum =
      a.level + a.lost + rate * ((a.replay time amount rate capacity log).now - a.now) := by
  induction log generalizing a with
  | nil =>
      simp only [replay, List.foldl_nil, List.map_nil, List.sum_nil]
      ring
  | cons e rest ih =>
      let next := (a.fill rate capacity (time e)).take (amount e)
      have hcons : a.replay time amount rate capacity (e :: rest) =
          next.replay time amount rate capacity rest := rfl
      have hlevel : next.level = (a.fill rate capacity (time e)).level - amount e := rfl
      have hlost : next.lost = (a.fill rate capacity (time e)).lost := rfl
      have hnow : next.now = time e := rfl
      have hrest := ih next
      have hfill := fill_balance rate capacity a (time e)
      rw [hcons, List.map_cons, List.sum_cons]
      rw [hlevel, hlost, hnow] at hrest
      linarith

variable (time amount rate capacity a) in
theorem upTo_balance (log : List ε) (t : K) : (a.upTo time amount rate capacity log t).level +
    (a.upTo time amount rate capacity log t).lost +
      ((log.filter (fun e => time e ≤ t)).map amount).sum =
        a.level + a.lost + rate * (t - a.now) := by
  let past := log.filter (fun e => time e ≤ t)
  have hfill := fill_balance rate capacity (a.replay time amount rate capacity past) t
  have hreplay := replay_balance time amount rate capacity a past
  rw [upTo, hfill]
  linarith

variable (time rate capacity a) in
/-- Withdrawals of one each: those of a window are what was in the account where it begins and came
    in since, less what is left and what has flowed over. -/
theorem window (hones : ∀ e ∈ log, amount e = 1) (width : K) (hwidth : 0 ≤ width) (t : K) :
    (within time width t log : K) =
      (a.upTo time amount rate capacity log (t - width)).level + rate * width -
        (a.upTo time amount rate capacity log t).level -
        ((a.upTo time amount rate capacity log t).lost -
          (a.upTo time amount rate capacity log (t - width)).lost) := by
  have hsum : ∀ u, ((log.filter (fun e => time e ≤ u)).map amount).sum =
      (log.countP (fun e => time e ≤ u) : K) := by
    intro u
    rw [List.map_congr_left (fun e he => hones e (List.mem_of_mem_filter he)), List.map_const',
      List.sum_replicate, List.countP_eq_length_filter, nsmul_one]
  have hcount := countP_past time width hwidth t log
  have hend := upTo_balance time amount rate capacity a log t
  have hbegin := upTo_balance time amount rate capacity a log (t - width)
  rw [hsum, hcount, Nat.cast_add] at hend
  rw [hsum] at hbegin
  have hsplit : rate * (t - a.now) = rate * (t - width - a.now) + rate * width := by ring
  linarith

/-- Past the end of a log, the account only fills. -/
theorem upTo_later (hrate : 0 ≤ rate) (hpast : ∀ e ∈ log, time e ≤ now) (later : K)
    (hlater : now ≤ later) : a.upTo time amount rate capacity log later =
      (a.upTo time amount rate capacity log now).fill rate capacity later := by
  rw [upTo_past hpast, upTo_past fun e he => le_trans (hpast e he) hlater,
    fill_fill hrate now later hlater]

/-- After one more withdrawal, that much less is left. -/
theorem upTo_append (e : ε) (he : time e = now) (hpast : ∀ x ∈ log, time x ≤ now)
    (hpos : 0 ≤ amount e) : (a.upTo time amount rate capacity (log ++ [e]) now).level =
      (a.upTo time amount rate capacity log now).level - amount e := by
  have hall : ∀ x ∈ log ++ [e], time x ≤ now := by
    intro x hx
    rcases List.mem_append.mp hx with hold | hnew
    · exact hpast x hold
    · rw [List.mem_singleton.mp hnew, he]
  rw [upTo_past hall, upTo_past hpast, replay_append]
  change min capacity (_ - _ + (now - time e) * rate) = _
  rw [he, sub_self, zero_mul, add_zero]
  exact min_eq_right (le_trans (sub_le_self _ hpos) (min_le_left _ _))

end Ledger

end OptionsBot
