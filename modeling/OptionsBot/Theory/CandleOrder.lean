import OptionsBot.Theory.CandleLabels
import OptionsBot.Lib.Run

/-!
# The Order of Candles under Late Ticks

A tick outside the current bucket ends the current candle, on whichever side of the
bucket it lies. After one that is later, the candles are in order and their periods
are over. After one that is earlier, the candle that was ended stands before one of
an older bucket, and its own period is still going on.

So the candles stay in order, and none is closed early, on runs whose ticks do not
fall behind the current candle. A tick that goes on to another bucket has to lie
past the start of that bucket, which on a host in UTC it does.

## Main definitions

* `CandleAggregator.kept`: The closed candles, and the current one.
* `Ascending`: The labels of candles increase.
* `Sound`: After a tick the labels increase, and what it closed was over.
* `Forward`: The condition on a tick.
* `CandleAggregator.Ordered`: The invariant of such runs.

## Theorems

* `forward_utc_iff`: The condition on a host in UTC.
* `fillGap_ordered`: Filling a gap keeps the order.
* `addTick_sound`: A tick that meets the condition.
* `addTick_forward`: Only such a tick is sound, where a candle is kept.
* `sound_run`: Whole runs.
-/

namespace OptionsBot

-- The sample runs below compute with rationals.
attribute [local semireducible] Rat.add Rat.sub Rat.mul Rat.inv

/-- The labels of some candles increase, so no two candles share a bucket. -/
def Ascending (cs : List Ohlcv) : Prop := (cs.map Ohlcv.ts).Pairwise (· < ·)

theorem Ascending.sublist {cs ds : List Ohlcv} (h : Ascending ds) (hsub : cs.Sublist ds) :
    Ascending cs := List.Pairwise.sublist (hsub.map Ohlcv.ts) h

theorem ascending_concat (cs : List Ohlcv) (c : Ohlcv) :
    Ascending (cs ++ [c]) ↔ Ascending cs ∧ ∀ d ∈ cs, d.ts < c.ts := by
  rw [Ascending, List.map_append, List.pairwise_append]
  simp only [List.map_cons, List.map_nil, List.mem_cons, List.not_mem_nil, or_false, forall_eq,
    List.mem_map, forall_exists_index, and_imp, forall_apply_eq_imp_iff₂, List.pairwise_singleton,
    true_and]
  exact Iff.rfl

theorem fromTimestamp_lt (a b : Int) : fromTimestamp a < fromTimestamp b ↔ a < b := by
  rw [DateTime.lt_def, fromTimestamp_micros, fromTimestamp_micros]
  omega

theorem fromTimestamp_le (a b : Int) : fromTimestamp a ≤ fromTimestamp b ↔ a ≤ b := by
  rw [DateTime.le_def, fromTimestamp_micros, fromTimestamp_micros]
  omega

/-- The end of a bucket is the start of the next. -/
theorem fromTimestamp_next (periodS b : Int) :
    (fromTimestamp (b * periodS)).shift (periodS * 1000000) =
      fromTimestamp ((b + 1) * periodS) := by
  simp only [DateTime.shift, fromTimestamp, add_mul, one_mul, add_assoc]

/-- A clock in UTC. -/
def utc : DateTime → Int := fun _ => 0

namespace CandleAggregator

/-- The closed candles followed by the current one. -/
def kept (self : CandleAggregator) : List Ohlcv := self.closed ++ self.current.toList

/-- After the tick, the labels increase, and no candle was closed that the tick is not
    past the end of. -/
def Sound (host : DateTime → Int) (self : CandleAggregator) (tick : PriceTick) : Prop :=
  Ascending (self.addTick host tick).agg.kept ∧
    ∀ c ∈ (self.addTick host tick).fired, c.ts.shift (self.periodS * 1000000) ≤ tick.ts

/-- As its host reads it, the tick is not before the current candle. Where it is past
    the candle's end, the bucket it is read into has started at the tick. -/
def Forward (host : DateTime → Int) (self : CandleAggregator) (tick : PriceTick) : Prop :=
  ∀ c, self.current = some c →
    let read := truncate (tick.ts.timestamp (host tick.ts))
    c.ts ≤ fromTimestamp read ∧
      (c.ts.shift (self.periodS * 1000000) ≤ fromTimestamp read →
        fromTimestamp (read / self.periodS * self.periodS) ≤ tick.ts)

/-- All candles are before a bucket. -/
def Before (self : CandleAggregator) (bucket : Int) : Prop :=
  ∀ d ∈ self.closed, d.ts < fromTimestamp (bucket * self.periodS)

/-- The candles are in order, with the current one labelled by its bucket. Without a
    current one there are none, since a gap is only left open where none is kept. -/
structure Ordered (agg : CandleAggregator) : Prop where
  labelled : agg.Labelled
  ascending : Ascending agg.closed
  before : agg.current ≠ none → agg.Before agg.currentBucket
  empty : agg.current = none → agg.closed = []

variable {self : CandleAggregator}

theorem Ordered.kept (h : self.Ordered) : Ascending self.kept := by
  unfold CandleAggregator.kept
  cases hcurrent : self.current with
  | none =>
      rw [h.empty hcurrent]
      exact List.Pairwise.nil
  | some c =>
      refine (ascending_concat self.closed c).mpr ⟨h.ascending, fun d hd => ?_⟩
      rw [h.labelled c hcurrent]
      exact h.before (by rw [hcurrent]; exact Option.some_ne_none c) d hd

/-- A candle of the bucket `b` at the end of an aggregator before it. -/
theorem append_before (c : Ohlcv) (b : Int) (hc : c.ts = fromTimestamp (b * self.periodS))
    (hbefore : self.Before b) :
    ∀ d ∈ dequeAppend self.history self.closed c,
      d.ts < fromTimestamp ((b + 1) * self.periodS) := by
  have hpos := self.periodS_pos
  have hnext : fromTimestamp (b * self.periodS) < fromTimestamp ((b + 1) * self.periodS) := by
    rw [fromTimestamp_lt, add_mul, one_mul]
    omega
  intro d hd
  rcases List.mem_append.mp ((dequeAppend_sublist _ _ _).subset hd) with hin | hlast
  · exact (hbefore d hin).trans hnext
  · rw [List.mem_singleton.mp hlast, hc]
    exact hnext

theorem append_ascending (c : Ohlcv) (b : Int) (hc : c.ts = fromTimestamp (b * self.periodS))
    (hbefore : self.Before b) (hasc : Ascending self.closed) :
    Ascending (dequeAppend self.history self.closed c) := by
  refine Ascending.sublist ((ascending_concat self.closed c).mpr ⟨hasc, fun d hd => ?_⟩)
    (dequeAppend_sublist _ _ _)
  rw [hc]
  exact hbefore d hd

/-- What filling a gap closes carries the labels of the gap. -/
theorem fillGap_fired (missing : Int) (n : Nat) :
    ∀ f ∈ (self.fillGap missing n).fired, ∃ b, missing ≤ b ∧ b < missing + n ∧
      f.ts = fromTimestamp (b * self.periodS) := by
  induction n generalizing self missing with
  | zero => exact fun f hf => absurd hf List.not_mem_nil
  | succ n ih =>
      intro f hf
      cases hlast : last self.closed with
      | error e =>
          rw [fillGap, hlast] at hf
          exact absurd hf List.not_mem_nil
      | ok prev =>
          rw [fillGap_cons missing n prev hlast] at hf
          rcases List.mem_cons.mp hf with heq | hin
          · rw [heq]
            exact ⟨missing, Int.le_refl _, by omega, rfl⟩
          · rcases ih (missing + 1) f hin with ⟨b, hle, hlt, hts⟩
            exact ⟨b, by omega, by omega, hts⟩

/-- Filling a gap keeps the candles in order. If it raises, no candle is kept. -/
theorem fillGap_ordered (missing : Int) (n : Nat) (hbefore : self.Before missing)
    (hasc : Ascending self.closed) :
    Ascending (self.fillGap missing n).agg.closed ∧
      ((self.fillGap missing n).raised = none →
        (self.fillGap missing n).agg.Before (missing + n)) ∧
      ((self.fillGap missing n).raised ≠ none → (self.fillGap missing n).agg.closed = []) := by
  induction n generalizing self missing with
  | zero =>
      refine ⟨hasc, fun _ => ?_, fun h => absurd rfl h⟩
      rw [Int.natCast_zero, Int.add_zero]
      exact hbefore
  | succ n ih =>
      cases hlast : last self.closed with
      | error e =>
          -- Reading the last closed candle fails only if there is none.
          have hempty : self.closed = [] := by
            unfold last at hlast
            split at hlast
            · next hnone => exact List.getLast?_eq_none_iff.mp hnone
            · cases hlast
          rw [fillGap, hlast]
          refine ⟨hasc, fun h => ?_, fun _ => hempty⟩
          cases h
      | ok prev =>
          have hstep := @ih (self.filled missing prev.close) (missing + 1)
            (append_before (Ohlcv.opened self.periodS missing prev.close 0) missing rfl hbefore)
            (append_ascending (Ohlcv.opened self.periodS missing prev.close 0) missing rfl hbefore
              hasc)
          have hcount : missing + ((n + 1 : Nat) : Int) = missing + 1 + n := by omega
          rw [fillGap_cons missing n prev hlast, hcount]
          exact hstep

theorem bucket_le_iff (host : DateTime → Int) (ts : DateTime) (b : Int) :
    fromTimestamp (b * self.periodS) ≤ fromTimestamp (truncate (ts.timestamp (host ts))) ↔
      b ≤ self.bucketOf host ts := by
  rw [fromTimestamp_le, bucketOf, Int.le_ediv_iff_mul_le self.periodS_pos]

/-- The condition on a tick, in bucket numbers. -/
theorem forward_iff (host : DateTime → Int) (tick : PriceTick) (h : self.Labelled) :
    Forward host self tick ↔ self.current ≠ none →
      self.currentBucket = self.bucketOf host tick.ts ∨
        self.currentBucket < self.bucketOf host tick.ts ∧
          fromTimestamp (self.bucketOf host tick.ts * self.periodS) ≤ tick.ts := by
  unfold Forward
  cases hcurrent : self.current with
  | none => exact ⟨fun _ hne => absurd rfl hne, fun _ c hc => by cases hc⟩
  | some c =>
      have hts := h c hcurrent
      have hread : ∀ d : Ohlcv, some c = some d → d = c := fun d hd => (Option.some.inj hd).symm
      constructor
      · intro hforward _
        rcases hforward c rfl with ⟨hle, hstart⟩
        rw [hts, bucket_le_iff] at hle
        -- Past the current bucket is past the candle's end.
        rcases Int.lt_or_eq_of_le hle with hlt | heq
        · refine Or.inr ⟨hlt, hstart ?_⟩
          rw [hts, fromTimestamp_next, bucket_le_iff]
          exact hlt
        · exact Or.inl heq
      · intro hcases d hd
        rw [hread d hd, hts, fromTimestamp_next]
        simp only [bucket_le_iff]
        rcases hcases (Option.some_ne_none c) with heq | ⟨hlt, hstart⟩
        · exact ⟨Int.le_of_eq heq, fun hle => by omega⟩
        · exact ⟨Int.le_of_lt hlt, fun _ => hstart⟩

/-- On a host in UTC, ticks since 1970 only have to be no earlier than the current
    candle. -/
theorem forward_utc_iff (tick : PriceTick) (h : self.Labelled) (hts : 0 ≤ tick.ts.sinceEpoch) :
    Forward utc self tick ↔ ∀ c, self.current = some c → c.ts ≤ tick.ts := by
  have hread : truncate (tick.ts.timestamp (utc tick.ts)) = tick.ts.sinceEpoch / 1000000 := by
    rw [truncate_timestamp, utc, Int.zero_mul, if_pos hts, Int.sub_zero]
  have hstart : ∀ b, fromTimestamp (b * self.periodS) ≤ tick.ts ↔
      fromTimestamp (b * self.periodS) ≤ fromTimestamp (tick.ts.sinceEpoch / 1000000) := by
    intro b
    simp only [DateTime.le_def, fromTimestamp_micros, micros_eq tick.ts]
    omega
  -- A period the host has reached has started, so the second part holds by itself.
  refine forall_congr' (fun c => imp_congr_right (fun hc => ?_))
  simp only [hread, h c hc, hstart, and_iff_left_iff_imp]
  intro _ _
  rw [fromTimestamp_le]
  exact Int.ediv_mul_le _ self.periodS_pos.ne'

theorem ended_before (c : Ohlcv) (hcurrent : self.current = some c) (h : self.Ordered) :
    (self.ended c).Before (self.currentBucket + 1) ∧ Ascending (self.ended c).closed := by
  have hbefore := h.before (by rw [hcurrent]; exact Option.some_ne_none c)
  exact ⟨append_before c self.currentBucket (h.labelled c hcurrent) hbefore,
    append_ascending c self.currentBucket (h.labelled c hcurrent) hbefore h.ascending⟩

/-- The candle of the bucket a gap ends before can be put behind the rest. -/
theorem openNew_ordered (bucket : Int) (price volume : ℚ) (hbefore : self.Before bucket)
    (hasc : Ascending self.closed) : (self.openNew bucket price volume).Ordered :=
  ⟨openNew_labelled bucket price volume, hasc, fun _ => hbefore, fun h => by cases h⟩

/-- The gap up to a later bucket leaves candles in order before it. -/
theorem gap_ordered (c : Ohlcv) (bucket : Int) (hcurrent : self.current = some c)
    (h : self.Ordered) (hlt : self.currentBucket < bucket) :
    Ascending (self.gap c bucket).agg.closed ∧
      ((self.gap c bucket).raised = none → (self.gap c bucket).agg.Before bucket) ∧
      ((self.gap c bucket).raised ≠ none → (self.gap c bucket).agg.closed = []) := by
  have hcount : self.currentBucket + 1 + ((bucket - (self.currentBucket + 1)).toNat : Int) =
      bucket := by omega
  rcases ended_before c hcurrent h with ⟨hbefore, hasc⟩
  have hgap := fillGap_ordered (self.currentBucket + 1)
    (bucket - (self.currentBucket + 1)).toNat hbefore hasc
  rw [hcount] at hgap
  exact hgap

/-- Past the first checks, a tick that goes forward and leaves the bucket is later. -/
theorem forward_later (host : DateTime → Int) (tick : PriceTick) (c : Ohlcv) (h : self.Labelled)
    (hcurrent : self.current = some c) (hb : self.bucketOf host tick.ts ≠ self.currentBucket)
    (hforward : Forward host self tick) : self.currentBucket < self.bucketOf host tick.ts ∧
      fromTimestamp (self.bucketOf host tick.ts * self.periodS) ≤ tick.ts := by
  have hne : self.current ≠ none := by
    rw [hcurrent]
    exact Option.some_ne_none c
  rcases (forward_iff host tick h).mp hforward hne with heq | hlater
  · exact absurd heq.symm hb
  · exact hlater

theorem addTick_ordered (host : DateTime → Int) (tick : PriceTick) (h : self.Ordered)
    (hforward : Forward host self tick) : (self.addTick host tick).agg.Ordered := by
  rcases self.addTick_cases host tick with ⟨hcurrent, htick⟩ | ⟨c, hcurrent, _, htick⟩ |
    ⟨c, hcurrent, hb, hraised, htick⟩ | ⟨c, e, hcurrent, hb, hraised, htick⟩
  · rw [htick]
    refine openNew_ordered _ _ _ (fun d hd => ?_) h.ascending
    rw [h.empty hcurrent] at hd
    exact absurd hd List.not_mem_nil
  · have hlabelled := addTick_labelled host tick h.labelled
    rw [htick] at hlabelled ⊢
    exact ⟨hlabelled, h.ascending,
      fun _ => h.before (by rw [hcurrent]; exact Option.some_ne_none c),
      fun hnone => by cases hnone⟩
  · rcases forward_later host tick c h.labelled hcurrent hb hforward with ⟨hlt, _⟩
    rcases gap_ordered c _ hcurrent h hlt with ⟨hasc, hbefore, _⟩
    rw [htick]
    exact openNew_ordered _ _ _ (hbefore hraised) hasc
  · -- The gap stays open only where nothing is kept, and then nothing is out of order.
    rcases forward_later host tick c h.labelled hcurrent hb hforward with ⟨hlt, _⟩
    rcases gap_ordered c _ hcurrent h hlt with ⟨hasc, _, hempty⟩
    have hnone := @gap_none self c (self.bucketOf host tick.ts)
    rw [htick]
    exact ⟨labelled_of_none hnone, hasc, fun hsome => absurd hnone hsome,
      fun _ => hempty (by rw [hraised]; exact Option.some_ne_none e)⟩

/-- What a tick of another bucket closes: the current candle, and fillers. -/
theorem addTick_fired (host : DateTime → Int) (tick : PriceTick) (c : Ohlcv)
    (hcurrent : self.current = some c) (hb : self.bucketOf host tick.ts ≠ self.currentBucket) :
    (self.addTick host tick).fired = c :: (self.gap c (self.bucketOf host tick.ts)).fired := by
  cases hraised : (self.gap c (self.bucketOf host tick.ts)).raised with
  | none => rw [addTick_filled host tick c hcurrent hb hraised]
  | some e => rw [addTick_raised host tick c hcurrent hb e hraised]

theorem addTick_sound (host : DateTime → Int) (tick : PriceTick) (h : self.Ordered)
    (hforward : Forward host self tick) : Sound host self tick := by
  refine ⟨(addTick_ordered host tick h hforward).kept, fun f hf => ?_⟩
  cases hcurrent : self.current with
  | none =>
      rw [addTick_none host tick hcurrent] at hf
      exact absurd hf List.not_mem_nil
  | some c =>
      by_cases hb : self.bucketOf host tick.ts = self.currentBucket
      · rw [addTick_same host tick c hcurrent hb] at hf
        exact absurd hf List.not_mem_nil
      · rcases forward_later host tick c h.labelled hcurrent hb hforward with ⟨hlt, hstart⟩
        -- Every closed candle is of a bucket before the tick's.
        have hbucket : ∃ b, b + 1 ≤ self.bucketOf host tick.ts ∧
            f.ts = fromTimestamp (b * self.periodS) := by
          rw [addTick_fired host tick c hcurrent hb] at hf
          rcases List.mem_cons.mp hf with heq | hin
          · rw [heq]
            exact ⟨self.currentBucket, hlt, h.labelled c hcurrent⟩
          · rcases fillGap_fired _ _ f hin with ⟨b, _, hend, hts⟩
            exact ⟨b, by omega, hts⟩
        rcases hbucket with ⟨b, hend, hts⟩
        rw [hts, fromTimestamp_next]
        refine le_trans ((fromTimestamp_le _ _).mpr ?_) hstart
        exact mul_le_mul_of_nonneg_right hend self.periodS_pos.le

/-- Where candles are kept, a gap is filled up to its last bucket. -/
theorem fillGap_last (missing : Int) (n : Nat) (hhistory : 1 ≤ self.history)
    (hclosed : self.closed ≠ []) :
    ∃ f ∈ (self.fillGap missing (n + 1)).fired,
      f.ts = fromTimestamp ((missing + n) * self.periodS) := by
  induction n generalizing self missing with
  | zero =>
      rcases last_ready self.closed hclosed with ⟨prev, _, hlast⟩
      rw [fillGap_cons missing 0 prev hlast]
      refine ⟨_, List.mem_cons_self, ?_⟩
      rw [Int.natCast_zero, Int.add_zero]
      rfl
  | succ n ih =>
      rcases last_ready self.closed hclosed with ⟨prev, _, hlast⟩
      rw [fillGap_cons missing (n + 1) prev hlast]
      rcases @ih (self.filled missing prev.close) (missing + 1) hhistory
        (dequeAppend_ne_nil _ _ _ hhistory) with ⟨f, hf, hts⟩
      refine ⟨f, List.mem_cons_of_mem _ hf, ?_⟩
      rw [show missing + ((n + 1 : Nat) : Int) = missing + 1 + n by omega]
      exact hts

/-- A tick that meets the condition is the only sound one, where candles are kept. -/
theorem addTick_forward (host : DateTime → Int) (tick : PriceTick) (h : self.Ordered)
    (hhistory : 1 ≤ self.history) (hsound : Sound host self tick) : Forward host self tick := by
  rw [forward_iff host tick h.labelled]
  intro hne
  rcases Option.ne_none_iff_exists'.mp hne with ⟨c, hcurrent⟩
  by_cases hb : self.bucketOf host tick.ts = self.currentBucket
  · exact Or.inl hb.symm
  refine Or.inr ?_
  have hfired := addTick_fired host tick c hcurrent hb
  rcases Int.lt_or_gt_of_ne hb with hback | hlater
  · -- The ended candle stands right before one of an older bucket.
    exfalso
    have hcount : (self.bucketOf host tick.ts - (self.currentBucket + 1)).toNat = 0 := by omega
    have hgap : self.gap c (self.bucketOf host tick.ts) = { agg := self.ended c } := by
      rw [gap, hcount]
      rfl
    have hasc := hsound.1
    rw [addTick_filled host tick c hcurrent hb (by rw [hgap]), hgap] at hasc
    rcases (ascending_concat _ _).mp hasc with ⟨_, hlt⟩
    rcases Nat.exists_eq_add_of_le' hhistory with ⟨k, hk⟩
    have hmem : c ∈ (self.ended c).closed := by
      change c ∈ dequeAppend self.history self.closed c
      rw [hk, dequeAppend_concat]
      exact List.mem_append_right _ List.mem_cons_self
    have hts := hlt c hmem
    rw [h.labelled c hcurrent] at hts
    have hlabels := (fromTimestamp_lt _ _).mp hts
    exact absurd (lt_of_mul_lt_mul_right hlabels self.periodS_pos.le) (not_lt.mpr hback.le)
  · refine ⟨hlater, ?_⟩
    -- The last candle closed is of the bucket right before the tick's.
    have hlast : ∃ f ∈ (self.addTick host tick).fired,
        f.ts = fromTimestamp ((self.bucketOf host tick.ts - 1) * self.periodS) := by
      rw [hfired, gap]
      cases hn : (self.bucketOf host tick.ts - (self.currentBucket + 1)).toNat with
      | zero =>
          refine ⟨c, List.mem_cons_self, ?_⟩
          rw [h.labelled c hcurrent, show self.currentBucket = self.bucketOf host tick.ts - 1 by
            omega]
      | succ n =>
          rcases @fillGap_last (self.ended c) (self.currentBucket + 1) n hhistory
            (dequeAppend_ne_nil _ _ _ hhistory) with ⟨f, hf, hts⟩
          refine ⟨f, List.mem_cons_of_mem c hf, ?_⟩
          rw [hts, show self.currentBucket + 1 + (n : Int) = self.bucketOf host tick.ts - 1 by
            omega]
          rfl
    rcases hlast with ⟨f, hf, hts⟩
    have hover := hsound.2 f hf
    rw [hts, fromTimestamp_next, Int.sub_add_cancel] at hover
    exact hover

theorem new_ordered (timeframe : String) (history : Int) (h : new timeframe history = .ok self) :
    self.Ordered := by
  rcases new_eq timeframe history h with ⟨hnone, hclosed, _⟩
  refine ⟨labelled_of_none hnone, ?_, fun hne => absurd hnone hne, fun _ => hclosed⟩
  rw [hclosed]
  exact List.Pairwise.nil

theorem sound_along (host : DateTime → Int) (ticks : List PriceTick) (h : self.Ordered)
    (hforward : Along (fun agg t => (addTick agg host t).agg) (Forward host) self ticks) :
    Along (fun agg t => (addTick agg host t).agg) (Sound host) self ticks := by
  induction ticks generalizing self with
  | nil => exact True.intro
  | cons t rest ih =>
      rcases hforward with ⟨hnow, hlater⟩
      exact ⟨addTick_sound host t h hnow, ih (addTick_ordered host t h hnow) hlater⟩

end CandleAggregator

/-- In a run whose ticks all go forward, every tick leaves the candles in order and
    closes none early. Where candles are kept, no other run does. -/
theorem sound_run (timeframe : String) (history : Int) (agg : CandleAggregator)
    (hnew : CandleAggregator.new timeframe history = .ok agg) (host : DateTime → Int)
    (ticks : List PriceTick) :
    (Along (fun s t => (s.addTick host t).agg) (CandleAggregator.Forward host) agg ticks →
      Along (fun s t => (s.addTick host t).agg) (CandleAggregator.Sound host) agg ticks) ∧
    (1 ≤ history →
      Along (fun s t => (s.addTick host t).agg) (CandleAggregator.Sound host) agg ticks →
      Along (fun s t => (s.addTick host t).agg) (CandleAggregator.Forward host) agg ticks) := by
  have hordered := CandleAggregator.new_ordered timeframe history hnew
  refine ⟨CandleAggregator.sound_along host ticks hordered, fun hhistory => ?_⟩
  have hkept : 1 ≤ agg.history := by
    have hbound := (CandleAggregator.new_eq timeframe history hnew).2.2
    omega
  -- With the bound, the two agree on every tick, and such a tick keeps the invariant.
  exact (along_iff _ _ _ (fun s => s.Ordered ∧ 1 ≤ s.history)
    (fun s t hs => ⟨CandleAggregator.addTick_forward host t hs.1 hs.2,
      CandleAggregator.addTick_sound host t hs.1⟩)
    (fun s t hs hforward => ⟨CandleAggregator.addTick_ordered host t hs.1 hforward, by
      rw [CandleAggregator.addTick_history]
      exact hs.2⟩)
    agg ⟨hordered, hkept⟩ ticks).mp

/-- A tick at an hour and a minute of 12 May 2026. -/
def priceAt (hour minute : Int) : PriceTick :=
  { ts := combine (ymdToOrdinal 2026 5 12) (hourMinute hour minute), price := 97000 }

/-- Three hours pass between two ticks. -/
theorem sound_run_gap : Along (fun s t => (s.addTick utc t).agg) (CandleAggregator.Sound utc)
    hourly [priceAt 10 10, priceAt 13 20] := by
  refine (sound_run "1h" 512 hourly rfl utc _).1 ⟨?_, ?_, True.intro⟩
  · intro c hc
    cases hc
  · intro c hc
    cases hc
    exact ⟨by decide, fun _ => by decide⟩

/-- The clock is set back over the hour: the candle of ten o'clock is closed at ten to
    ten, and stands before the one of nine. -/
theorem late_tick_unsound : ∃ agg, CandleAggregator.new "1h" 512 = .ok agg ∧
    ¬ Ascending ((agg.addTick utc (priceAt 10 10)).agg.addTick utc (priceAt 9 50)).agg.kept ∧
    ∃ c ∈ ((agg.addTick utc (priceAt 10 10)).agg.addTick utc (priceAt 9 50)).fired,
      (priceAt 9 50).ts < c.ts := by
  have hkept : (((hourly.addTick utc (priceAt 10 10)).agg.addTick utc (priceAt 9 50)).agg.kept).map
      Ohlcv.ts = [(priceAt 10 0).ts, (priceAt 9 0).ts] := by decide
  have hfired : (((hourly.addTick utc (priceAt 10 10)).agg.addTick utc (priceAt 9 50)).fired).map
      Ohlcv.ts = [(priceAt 10 0).ts] := by decide
  refine ⟨hourly, rfl, ?_, ?_⟩
  · unfold Ascending
    rw [hkept]
    decide
  · have hmem : (priceAt 10 0).ts ∈ (((hourly.addTick utc (priceAt 10 10)).agg.addTick utc
        (priceAt 9 50)).fired).map Ohlcv.ts := by
      rw [hfired]
      exact List.mem_cons_self
    rcases List.mem_map.mp hmem with ⟨c, hc, hts⟩
    refine ⟨c, hc, ?_⟩
    rw [hts]
    decide

end OptionsBot
