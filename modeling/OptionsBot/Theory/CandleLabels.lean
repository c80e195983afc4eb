import OptionsBot.Core.CandleAggregator

/-!
# The Bucket a Tick Is Put Into

A candle is labelled with the start of its bucket in UTC. The bucket itself comes
from the seconds of an instant without a zone, which the host takes for its own
local time, and which are cut off towards zero. The label is a multiple of the
period in any case. It covers the tick just when the tick's seconds into its
period, moved by the host's offset, do not leave the period.

So on a host in UTC every tick since 1970 is covered. With an offset of a period or
more, no tick is that the host reads as since 1970.

## Main definitions

* `AggregatorCall`, `CandleAggregator.call`: The calls an aggregator may receive.
* `CandleAggregator.Labelled`: The current candle is labelled by its bucket.
* `LabelCovers`: A label is on the period's grid, and its period contains an instant.
* `secondsInto`, `ReadInside`: The condition on a tick.

## Theorems

* `truncate_micros`: The seconds of an instant, cut off towards zero.
* `CandleAggregator.labelled_run`: Labels are kept by all calls.
* `CandleAggregator.addTick_current`: The candle a tick is put into.
* `bucket_eq_iff`: The tick's condition in terms of bucket numbers.
* `not_readInside`: An offset of a period or more.
* `addTick_covered_iff`: When the candle covers the tick.
-/

namespace OptionsBot

/-- The calls of an aggregator's interface, a tick with the clock of its host. -/
inductive AggregatorCall where
  | tick (host : DateTime → Int) (t : PriceTick)
  | forceClose
  | popClosed

/-- The microseconds since 1970, in UTC. -/
def DateTime.sinceEpoch (t : DateTime) : Int := t.micros - unixEpoch.micros

/-- An instant is the start of a period, and the period contains another. -/
def LabelCovers (periodS : Int) (start ts : DateTime) : Prop :=
  (∃ k, start = fromTimestamp (k * periodS)) ∧ start ≤ ts ∧ ts < start.shift (periodS * 1000000)

/-- The whole seconds from the start of an instant's period. They are rounded up
    where the host's reading is before 1970, and down elsewhere. -/
def secondsInto (periodS : Int) (host : DateTime → Int) (ts : DateTime) : Int :=
  let into := ts.sinceEpoch % (periodS * 1000000)
  if host ts * 1000000 ≤ ts.sinceEpoch then into / 1000000 else (into + 999999) / 1000000

/-- Moved back by the host's offset, an instant stays in its period. -/
def ReadInside (periodS : Int) (host : DateTime → Int) (ts : DateTime) : Prop :=
  0 ≤ secondsInto periodS host ts - host ts ∧ secondsInto periodS host ts - host ts < periodS

theorem fromTimestamp_micros (s : Int) :
    (fromTimestamp s).micros = unixEpoch.micros + s * 1000000 := rfl

theorem truncate_micros (m : Int) :
    truncate ((m : ℚ) / 1000000) = if 0 ≤ m then m / 1000000 else -(-m / 1000000) := by
  have hfloor : ∀ n : Int, ⌊(n : ℚ) / 1000000⌋ = n / 1000000 :=
    fun n => Rat.floor_intCast_div_natCast n 1000000
  have hsign : (0 : ℚ) ≤ (m : ℚ) / 1000000 ↔ 0 ≤ m := by
    rw [le_div_iff₀ (by norm_num), zero_mul, Int.cast_nonneg_iff]
  unfold truncate
  -- Down to the floor above zero, and up to it below.
  by_cases h : 0 ≤ m
  · rw [if_pos (hsign.mpr h), if_pos h, hfloor]
  · rw [if_neg (fun h' => h (hsign.mp h')), if_neg h, ← neg_div, ← Int.cast_neg, hfloor]

theorem micros_eq (ts : DateTime) : ts.micros = unixEpoch.micros + ts.sinceEpoch := by
  rw [DateTime.sinceEpoch]
  omega

/-- The seconds a host reads, in integers. -/
theorem truncate_timestamp (host : DateTime → Int) (ts : DateTime) :
    truncate (ts.timestamp (host ts)) =
      if host ts * 1000000 ≤ ts.sinceEpoch then (ts.sinceEpoch - host ts * 1000000) / 1000000
      else -((host ts * 1000000 - ts.sinceEpoch) / 1000000) := by
  have hmicros : ts.micros - (unixEpoch.shift (host ts * 1000000)).micros =
      ts.sinceEpoch - host ts * 1000000 := by
    simp only [DateTime.shift, DateTime.sinceEpoch]
    omega
  rw [DateTime.timestamp, DateTime.secondsSince, hmicros, truncate_micros, neg_sub]
  simp only [sub_nonneg]

section Grid

variable {periodS : Int} (hpos : 0 < periodS) (host : DateTime → Int) (ts : DateTime)

/-- The seconds a host reads, from the start of the period on. -/
theorem truncate_period (periodS : Int) (host : DateTime → Int) (ts : DateTime) :
    truncate (ts.timestamp (host ts)) = ts.sinceEpoch / (periodS * 1000000) * periodS +
      (secondsInto periodS host ts - host ts) := by
  -- Microseconds are whole periods, `1000000 * whole`, and what is past the last.
  have hsplit : ts.sinceEpoch = 1000000 * (ts.sinceEpoch / (periodS * 1000000) * periodS) +
      ts.sinceEpoch % (periodS * 1000000) := by
    have h := Int.mul_ediv_add_emod ts.sinceEpoch (periodS * 1000000)
    rw [show 1000000 * (ts.sinceEpoch / (periodS * 1000000) * periodS) =
      periodS * 1000000 * (ts.sinceEpoch / (periodS * 1000000)) by ring]
    exact h.symm
  rw [truncate_timestamp]
  simp only [secondsInto]
  generalize ts.sinceEpoch / (periodS * 1000000) * periodS = whole at hsplit ⊢
  generalize ts.sinceEpoch % (periodS * 1000000) = past at hsplit ⊢
  split_ifs with hread
  · omega
  · omega

include hpos

theorem bucket_eq_iff : truncate (ts.timestamp (host ts)) / periodS =
    ts.sinceEpoch / (periodS * 1000000) ↔ ReadInside periodS host ts := by
  rw [Int.ediv_eq_iff_of_pos hpos, truncate_period periodS host ts, ReadInside]
  -- Both sides ask whether the seconds past the whole periods stay in one period.
  generalize ts.sinceEpoch / (periodS * 1000000) * periodS = whole
  omega

/-- A label on the grid covers what its number of periods counts. -/
theorem covered_label_iff (b : Int) : LabelCovers periodS (fromTimestamp (b * periodS)) ts ↔
    b = ts.sinceEpoch / (periodS * 1000000) := by
  have hmicros : 0 < periodS * 1000000 := by omega
  have hshift : b * (periodS * 1000000) = b * periodS * 1000000 := by ring
  rw [eq_comm, Int.ediv_eq_iff_of_pos hmicros, hshift, LabelCovers, DateTime.le_def,
    DateTime.lt_def]
  simp only [DateTime.shift, fromTimestamp_micros, micros_eq ts]
  constructor
  · rintro ⟨_, hle, hlt⟩
    omega
  · rintro ⟨hle, hlt⟩
    exact ⟨⟨b, rfl⟩, by omega, by omega⟩

theorem not_readInside (hread : host ts * 1000000 ≤ ts.sinceEpoch)
    (hoffset : periodS ≤ host ts ∨ host ts ≤ -periodS) : ¬ ReadInside periodS host ts := by
  have hlt := Int.emod_lt_of_pos ts.sinceEpoch (show 0 < periodS * 1000000 by omega)
  have hnonneg := Int.emod_nonneg ts.sinceEpoch (show periodS * 1000000 ≠ 0 by omega)
  unfold ReadInside
  simp only [secondsInto, if_pos hread]
  rintro ⟨hlow, hhigh⟩
  -- The seconds into the period are between zero and the period.
  rcases hoffset with hahead | hbehind
  · omega
  · omega

end Grid

namespace CandleAggregator

/-- The aggregator after a call. -/
def call (self : CandleAggregator) : AggregatorCall → CandleAggregator
  | .tick host t => (self.addTick host t).agg
  | .forceClose => self.forceClose.1.agg
  | .popClosed => self.popClosed.1

/-- The current candle is labelled with the start of the current bucket. -/
def Labelled (self : CandleAggregator) : Prop :=
  ∀ c, self.current = some c → c.ts = fromTimestamp (self.currentBucket * self.periodS)

variable {self : CandleAggregator}

theorem closeCurrent_none : self.closeCurrent.agg.current = none := by
  unfold closeCurrent
  cases hcurrent : self.current with
  | none => exact hcurrent
  | some c => rfl

/-- The period and the bound, which nothing changes. -/
def fixed (self : CandleAggregator) : Int × Nat := (self.periodS, self.history)

theorem closeCurrent_fixed : self.closeCurrent.agg.fixed = self.fixed := by
  unfold closeCurrent
  cases self.current with
  | none => rfl
  | some c => rfl

theorem fillGap_none (missing : Int) (n : Nat) (h : self.current = none) :
    (self.fillGap missing n).agg.current = none := by
  induction n generalizing self missing with
  | zero => exact h
  | succ n ih =>
      rw [fillGap]
      cases last self.closed with
      | error e => exact h
      | ok prev => exact ih (missing + 1) closeCurrent_none

theorem fillGap_fixed (missing : Int) (n : Nat) :
    (self.fillGap missing n).agg.fixed = self.fixed := by
  induction n generalizing self missing with
  | zero => rfl
  | succ n ih =>
      rw [fillGap]
      cases last self.closed with
      | error e => rfl
      | ok prev => exact (ih (missing + 1)).trans closeCurrent_fixed

theorem gap_none (c : Ohlcv) (bucket : Int) : (self.gap c bucket).agg.current = none :=
  fillGap_none _ _ rfl

theorem gap_fixed (c : Ohlcv) (bucket : Int) : (self.gap c bucket).agg.fixed = self.fixed :=
  fillGap_fixed _ _

theorem openNew_labelled (bucket : Int) (price volume : ℚ) :
    (self.openNew bucket price volume).Labelled := by
  intro c hc
  cases hc
  rfl

theorem labelled_of_none (h : self.current = none) : self.Labelled := by
  intro c hc
  rw [h] at hc
  cases hc

theorem addTick_fixed (host : DateTime → Int) (tick : PriceTick) :
    (self.addTick host tick).agg.fixed = self.fixed := by
  rcases self.addTick_cases host tick with ⟨_, htick⟩ | ⟨c, _, _, htick⟩ | ⟨c, _, _, _, htick⟩ |
    ⟨c, e, _, _, _, htick⟩
  · rw [htick]
    rfl
  · rw [htick]
    rfl
  · rw [htick]
    exact gap_fixed c _
  · rw [htick]
    exact gap_fixed c _

/-- A tick that raises nothing is put into a candle of its bucket. -/
theorem addTick_current (host : DateTime → Int) (tick : PriceTick) (h : self.Labelled)
    (hput : (self.addTick host tick).raised = none) :
    ∃ c, (self.addTick host tick).agg.current = some c ∧
      c.ts = fromTimestamp (self.bucketOf host tick.ts * self.periodS) := by
  rcases self.addTick_cases host tick with ⟨_, htick⟩ | ⟨c, hcurrent, hb, htick⟩ |
    ⟨c, _, _, _, htick⟩ | ⟨c, e, _, _, _, htick⟩
  · rw [htick]
    exact ⟨_, rfl, rfl⟩
  · rw [htick, hb]
    exact ⟨_, rfl, h c hcurrent⟩
  · have hperiod := congrArg Prod.fst (@gap_fixed self c (self.bucketOf host tick.ts))
    rw [htick]
    exact ⟨_, rfl, congrArg (fun p => fromTimestamp (self.bucketOf host tick.ts * p)) hperiod⟩
  · rw [htick] at hput
    cases hput

theorem addTick_labelled (host : DateTime → Int) (tick : PriceTick) (h : self.Labelled) :
    (self.addTick host tick).agg.Labelled := by
  rcases self.addTick_cases host tick with ⟨_, htick⟩ | ⟨c, hcurrent, _, htick⟩ |
    ⟨c, _, _, _, htick⟩ | ⟨c, e, _, _, _, htick⟩
  · rw [htick]
    exact openNew_labelled _ _ _
  · -- The candle takes the tick in and keeps its label.
    rw [htick]
    intro d hd
    cases hd
    exact h c hcurrent
  · rw [htick]
    exact openNew_labelled _ _ _
  · rw [htick]
    exact labelled_of_none (gap_none c _)

theorem call_labelled (action : AggregatorCall) (h : self.Labelled) :
    (self.call action).Labelled := by
  cases action with
  | tick host t => exact addTick_labelled host t h
  | forceClose => exact labelled_of_none closeCurrent_none
  | popClosed => exact h

theorem call_fixed (action : AggregatorCall) : (self.call action).fixed = self.fixed := by
  cases action with
  | tick host t => exact addTick_fixed host t
  | forceClose => exact closeCurrent_fixed
  | popClosed => rfl

theorem addTick_history (host : DateTime → Int) (tick : PriceTick) :
    (self.addTick host tick).agg.history = self.history :=
  congrArg Prod.snd (addTick_fixed host tick)

/-- A new aggregator has no candle. -/
theorem new_eq (timeframe : String) (history : Int) (h : new timeframe history = .ok self) :
    self.current = none ∧ self.closed = [] ∧ (self.history : Int) = history := by
  unfold new at h
  split at h
  · cases h
  · split_ifs at h with hneg
    cases h
    exact ⟨rfl, rfl, Int.toNat_of_nonneg (not_lt.mp hneg)⟩

/-- Labels are kept by all calls, on any host. -/
theorem labelled_run (calls : List AggregatorCall) (h : self.Labelled) :
    (calls.foldl call self).Labelled ∧ (calls.foldl call self).fixed = self.fixed := by
  induction calls generalizing self with
  | nil => exact ⟨h, rfl⟩
  | cons action rest ih =>
      rcases ih (call_labelled action h) with ⟨hlabelled, hfixed⟩
      exact ⟨hlabelled, hfixed.trans (call_fixed action)⟩

end CandleAggregator

/-- After any calls, the candle a tick is put into covers it exactly if the tick, moved
    back by the host's offset, stays in its period. -/
theorem addTick_covered_iff (timeframe : String) (history : Int) (agg : CandleAggregator)
    (hnew : CandleAggregator.new timeframe history = .ok agg) (calls : List AggregatorCall)
    (host : DateTime → Int) (tick : PriceTick)
    (hput : ((calls.foldl CandleAggregator.call agg).addTick host tick).raised = none) :
    ∃ c, ((calls.foldl CandleAggregator.call agg).addTick host tick).agg.current = some c ∧
      (LabelCovers agg.periodS c.ts tick.ts ↔ ReadInside agg.periodS host tick.ts) := by
  rcases CandleAggregator.labelled_run calls (CandleAggregator.labelled_of_none
    (CandleAggregator.new_eq timeframe history hnew).1) with ⟨hlabelled, hfixed⟩
  have hperiod := congrArg Prod.fst hfixed
  simp only [CandleAggregator.fixed] at hperiod
  rcases CandleAggregator.addTick_current host tick hlabelled hput with ⟨c, hc, hts⟩
  -- The label counts the periods the host reads, and it should count those in UTC.
  refine ⟨c, hc, ?_⟩
  rw [hts, hperiod, covered_label_iff agg.periodS_pos, CandleAggregator.bucketOf, hperiod]
  exact bucket_eq_iff agg.periodS_pos host tick.ts

/-- The engine's hourly aggregator. -/
def hourly : CandleAggregator :=
  { timeframe := "1h", history := 512, periodS := 3600, listed := by decide }

/-- Ten past ten in UTC on 12 May 2026. -/
def tenPastTen : PriceTick :=
  { ts := combine (ymdToOrdinal 2026 5 12) (hourMinute 10 10), price := 97000 }

/-- After a tick, a closed candle and an emptied deque, on a host in India: the candle of the tick
    does not cover it. -/
theorem addTick_covered_iff_india :
    ∃ c, (([.tick (fun _ => 19800) tenPastTen, .forceClose, .popClosed].foldl
        CandleAggregator.call hourly).addTick (fun _ => 19800) tenPastTen).agg.current = some c ∧
      ¬ LabelCovers hourly.periodS c.ts tenPastTen.ts := by
  rcases addTick_covered_iff "1h" 512 hourly rfl
    [.tick (fun _ => 19800) tenPastTen, .forceClose, .popClosed] (fun _ => 19800) tenPastTen rfl with
    ⟨c, hcurrent, hiff⟩
  have hmoved : ¬ ReadInside hourly.periodS (fun _ => 19800) tenPastTen.ts := by
    unfold ReadInside
    decide
  exact ⟨c, hcurrent, fun hcovers => hmoved (hiff.mp hcovers)⟩

/-- On a host in India, ten past ten goes into the candle of four o'clock. -/
theorem addTick_not_covered : ∃ agg c, CandleAggregator.new "1h" 512 = .ok agg ∧
    (agg.addTick (fun _ => 19800) tenPastTen).raised = none ∧
    (agg.addTick (fun _ => 19800) tenPastTen).agg.current = some c ∧
    c.ts = combine (ymdToOrdinal 2026 5 12) (hourMinute 4 0) ∧
    ¬ LabelCovers agg.periodS c.ts tenPastTen.ts := by
  have hts : fromTimestamp (hourly.bucketOf (fun _ => 19800) tenPastTen.ts * hourly.periodS) =
      combine (ymdToOrdinal 2026 5 12) (hourMinute 4 0) := by decide +kernel
  refine ⟨hourly, _, rfl, rfl, rfl, hts, ?_⟩
  rw [Ohlcv.opened, hts]
  rintro ⟨_, _, hlt⟩
  exact absurd hlt (by decide)

end OptionsBot
