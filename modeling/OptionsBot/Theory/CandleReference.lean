import Mathlib.Algebra.BigOperators.Group.List.Basic
import OptionsBot.Lib.Buckets
import OptionsBot.Theory.CandleOrder

/-!
# The Candles of a Tick Stream

What the aggregator computes tick by tick, set against the candles of the whole
stream. A stream in time order is grouped by the floor of its seconds over the
period. The candles handed to the callback, with the current one behind them, are
the candles of the groups, and the closed ones are the last of them.

The aggregator cuts the seconds off towards zero, which is the floor from 1970 on.
Before, it differs in the last second of a period. A stream with a tick there is
not grouped by the floor once that tick has arrived.

## Main definitions

* `floorBucket`, `summarize`, `flatAfter`: The reference, bucket by bucket.
* `reference`: The candles of a stream.
* `CandleAggregator.run`: A stream, tick by tick.
* `CandleAggregator.Matches`: The kept candles are the last of the reference.
* `Floored`: The condition on a tick.
* `CandleAggregator.Summed`: The invariant of a run.

## Theorems

* `summarize_concat`: One more tick in a bucket.
* `fillGap_fillers`: Filling a gap, where candles are kept.
* `summed_tick`: The invariant is kept.
* `summed_run`: It holds of every stream that meets the condition.
* `run_reference_iff`: Exactly such streams match after every tick.
-/

namespace OptionsBot

/-- The floor of an instant's seconds over the period. -/
def floorBucket (periodS : Int) (t : PriceTick) : Int := t.ts.sinceEpoch / (periodS * 1000000)

/-- The candle of a bucket with a first tick and later ones. -/
def summarize (periodS b : Int) (t : PriceTick) (rest : List PriceTick) : Ohlcv :=
  { ts := fromTimestamp (b * periodS)
    openPrice := t.price
    high := (rest.map PriceTick.price).foldl max t.price
    low := (rest.map PriceTick.price).foldl min t.price
    close := (rest.getLastD t).price
    volume := ((t :: rest).map PriceTick.volume).sum
    nTicks := (t :: rest).length }

/-- The flat candle of a bucket without ticks. It counts as one tick without volume. -/
def flatAfter (periodS b : Int) (prev : Ohlcv) : Ohlcv :=
  { ts := fromTimestamp (b * periodS), openPrice := prev.close, high := prev.close,
    low := prev.close, close := prev.close, volume := 0, nTicks := 1 }

/-- The candles of a stream, one for each bucket from the first tick's to the last's. -/
def reference (periodS : Int) (ticks : List PriceTick) : List Ohlcv :=
  Buckets.batch (floorBucket periodS) (summarize periodS) (flatAfter periodS) ticks

/-- Since 1970, or not within the last second of a period. -/
def Floored (periodS : Int) (ts : DateTime) : Prop :=
  0 ≤ ts.sinceEpoch ∨ ts.sinceEpoch % (periodS * 1000000) ≤ periodS * 1000000 - 1000000

theorem floored_iff (periodS : Int) (hpos : 0 < periodS) (ts : DateTime) :
    ReadInside periodS utc ts ↔ Floored periodS ts := by
  have hlt := Int.emod_lt_of_pos ts.sinceEpoch (show 0 < periodS * 1000000 by omega)
  have hnonneg := Int.emod_nonneg ts.sinceEpoch (show periodS * 1000000 ≠ 0 by omega)
  unfold ReadInside Floored
  simp only [secondsInto, utc]
  -- On a host in UTC the seconds past the start leave the period only by rounding up.
  split_ifs with h
  · exact ⟨fun _ => Or.inl (by omega), fun _ => by omega⟩
  · constructor
    · rintro ⟨_, hinside⟩
      exact Or.inr (by omega)
    · rintro (hsince | hfloor)
      · omega
      · omega

theorem summarize_concat (periodS b : Int) (t : PriceTick) (rest : List PriceTick)
    (y : PriceTick) :
    summarize periodS b t (rest ++ [y]) = (summarize periodS b t rest).merge y.price y.volume := by
  simp only [summarize, Ohlcv.merge, List.map_append, List.map_cons, List.map_nil,
    List.foldl_append, List.foldl_cons, List.foldl_nil, List.getLastD_concat, List.sum_cons,
    List.sum_append, List.sum_nil, add_zero, List.length_cons, List.length_append,
    List.length_nil, ← add_assoc]

theorem summarize_single (periodS b : Int) (t : PriceTick) :
    summarize periodS b t [] = Ohlcv.opened periodS b t.price t.volume := by
  simp only [summarize, Ohlcv.opened, List.map_nil, List.foldl_nil, List.getLastD_nil,
    List.map_cons, List.sum_cons, List.sum_nil, add_zero, List.length_cons, List.length_nil]

/-- One more tick, after what has happened before. -/
def Handled.tick (host : DateTime → Int) (r : Handled) (t : PriceTick) : Handled :=
  let next := r.agg.addTick host t
  { agg := next.agg, fired := r.fired ++ next.fired, raised := r.raised.or next.raised }

namespace CandleAggregator

variable {self : CandleAggregator}

/-- A stream, tick by tick, with the candles closed on the way and the first exception. -/
def run (host : DateTime → Int) (self : CandleAggregator) (ticks : List PriceTick) : Handled :=
  ticks.foldl (Handled.tick host) { agg := self }

theorem run_concat (host : DateTime → Int) (ticks : List PriceTick) (t : PriceTick) :
    self.run host (ticks ++ [t]) = (self.run host ticks).tick host t := by
  rw [run, List.foldl_append]
  rfl

theorem run_labelled (ticks : List PriceTick) (hcurrent : self.current = none) :
    (self.run utc ticks).agg.Labelled ∧ (self.run utc ticks).agg.fixed = self.fixed := by
  induction ticks using List.reverseRecOn with
  | nil => exact ⟨labelled_of_none hcurrent, rfl⟩
  | append_singleton front t ih =>
      rw [run_concat]
      exact ⟨addTick_labelled utc t ih.1, (addTick_fixed utc t).trans ih.2⟩

/-- On a host in UTC no tick raises, and the kept candles are the last of the reference. -/
def Matches (self : CandleAggregator) (ticks : List PriceTick) : Prop :=
  (self.run utc ticks).raised = none ∧
    (self.run utc ticks).agg.kept = (reference self.periodS ticks).rtake (self.history + 1)

/-- Filling a gap after some candles of which the last are kept. -/
theorem fillGap_fillers (missing : Int) (n : Nat) (hhistory : 1 ≤ self.history)
    (front : List Ohlcv) (prev : Ohlcv)
    (hclosed : self.closed = (front ++ [prev]).rtake self.history) :
    (self.fillGap missing n).raised = none ∧
      (self.fillGap missing n).fired =
        Buckets.fillers (flatAfter self.periodS) prev missing n ∧
      (self.fillGap missing n).agg.closed = (front ++ [prev] ++
        Buckets.fillers (flatAfter self.periodS) prev missing n).rtake self.history := by
  induction n generalizing self missing front prev with
  | zero => exact ⟨rfl, rfl, by rw [Buckets.fillers, List.append_nil]; exact hclosed⟩
  | succ n ih =>
      have hlast : last self.closed = .ok prev := by
        rcases Nat.exists_eq_add_of_le' hhistory with ⟨k, hk⟩
        rw [hclosed, hk, List.rtake_concat_succ, last, List.getLast?_concat]
      have hnext : (self.filled missing prev.close).closed =
          (front ++ [prev] ++ [flatAfter self.periodS missing prev]).rtake self.history := by
        rw [← dequeAppend_rtake, ← hclosed]
        rfl
      rcases @ih (self.filled missing prev.close) (missing + 1) hhistory
        (front ++ [prev]) (flatAfter self.periodS missing prev) hnext with
        ⟨hraised, hfired, hkept⟩
      rw [fillGap_cons missing n prev hlast]
      refine ⟨hraised, ?_, ?_⟩
      · exact congrArg (List.cons _) hfired
      · have hrow : front ++ [prev] ++
            Buckets.fillers (flatAfter self.periodS) prev missing (n + 1) =
            front ++ [prev] ++ [flatAfter self.periodS missing prev] ++ Buckets.fillers
              (flatAfter self.periodS) (flatAfter self.periodS missing prev) (missing + 1) n := by
          rw [Buckets.fillers, List.append_assoc (front ++ [prev]), List.singleton_append]
        rw [hrow]
        exact hkept

/-- Leaving a bucket closes its candle and the fillers up to the other one. -/
theorem gap_fillers (hhistory : 1 ≤ self.history) (fired : List Ohlcv) (c : Ohlcv) (bucket : Int)
    (hclosed : self.closed = fired.rtake self.history) :
    (self.gap c bucket).raised = none ∧
      (self.gap c bucket).fired = Buckets.fillers (flatAfter self.periodS) c
        (self.currentBucket + 1) (bucket - (self.currentBucket + 1)).toNat ∧
      (self.gap c bucket).agg.closed =
        (fired ++ (c :: (self.gap c bucket).fired)).rtake self.history := by
  have hended : (self.ended c).closed = (fired ++ [c]).rtake self.history := by
    change dequeAppend self.history self.closed c = (fired ++ [c]).rtake self.history
    rw [hclosed, dequeAppend_rtake]
  rcases @fillGap_fillers (self.ended c) (self.currentBucket + 1)
    (bucket - (self.currentBucket + 1)).toNat hhistory fired c hended with
    ⟨hraised, hfired, hkept⟩
  refine ⟨hraised, hfired, ?_⟩
  rw [← List.singleton_append, ← List.append_assoc, gap, hfired]
  exact hkept

/-- What a run over some ticks has reached: the candles closed so far, with the current
    one behind them, are the reference, and the last of them are kept. -/
structure Summed (agg : CandleAggregator) (ticks : List PriceTick) (r : Handled) : Prop where
  raised : r.raised = none
  fixed : r.agg.fixed = agg.fixed
  closed : r.agg.closed = r.fired.rtake agg.history
  empty : ticks = [] → r.agg.current = none ∧ r.fired = []
  grouped : ∀ z, ticks.getLast? = some z → ∃ c, r.agg.current = some c ∧
    r.agg.currentBucket = floorBucket agg.periodS z ∧
    reference agg.periodS ticks = r.fired ++ [c]

theorem Summed.kept {ticks : List PriceTick} {r : Handled} (h : Summed self ticks r) :
    r.agg.kept = (reference self.periodS ticks).rtake (self.history + 1) := by
  unfold CandleAggregator.kept
  rw [h.closed]
  cases hlast : ticks.getLast? with
  | none =>
      have hnil := List.getLast?_eq_none_iff.mp hlast
      rcases h.empty hnil with ⟨hcurrent, hfired⟩
      rw [hcurrent, hfired, hnil, reference, Buckets.batch_nil, List.rtake_nil, List.rtake_nil]
      rfl
  | some z =>
      rcases h.grouped z hlast with ⟨c, hcurrent, _, hreference⟩
      rw [hcurrent, hreference, List.rtake_concat_succ]
      rfl

theorem floorBucket_mono {periodS : Int} (hpos : 0 < periodS) (s t : PriceTick)
    (h : s.ts ≤ t.ts) : floorBucket periodS s ≤ floorBucket periodS t := by
  refine Int.ediv_le_ediv (by omega) ?_
  rw [DateTime.le_def] at h
  simp only [DateTime.sinceEpoch]
  omega

section Next

variable {ticks : List PriceTick} {r : Handled} {t : PriceTick}

/-- What is left to show of a tick: what it closes, and the candle it leaves current. -/
theorem Summed.next (h : Summed self ticks r) {after : Handled}
    (htick : r.agg.addTick utc t = after) (hraised : after.raised = none)
    (hclosed : after.agg.closed = (r.fired ++ after.fired).rtake self.history) (c : Ohlcv)
    (hcurrent : after.agg.current = some c)
    (hbucket : after.agg.currentBucket = floorBucket self.periodS t)
    (hreference : reference self.periodS (ticks ++ [t]) = r.fired ++ after.fired ++ [c]) :
    Summed self (ticks ++ [t]) (r.tick utc t) := by
  have hfixed := @addTick_fixed r.agg utc t
  rw [htick] at hfixed
  rw [Handled.tick, htick]
  refine ⟨?_, hfixed.trans h.fixed, hclosed, fun hne => ?_, fun z hz => ?_⟩
  · rw [h.raised, hraised]
    rfl
  · exact absurd hne (List.append_ne_nil_of_right_ne_nil _ (List.cons_ne_nil t []))
  · rw [List.getLast?_concat] at hz
    cases hz
    exact ⟨c, hcurrent, hbucket, hreference⟩

/-- The first tick opens the first candle. -/
theorem summed_first (h : Summed self [] r)
    (hfloor : r.agg.bucketOf utc t.ts = floorBucket self.periodS t) :
    Summed self [t] (r.tick utc t) := by
  rcases h.empty rfl with ⟨hcurrent, hfired⟩
  have hperiod : r.agg.periodS = self.periodS := congrArg Prod.fst h.fixed
  refine h.next (addTick_none utc t hcurrent) rfl ?_ _ rfl hfloor ?_
  · rw [List.append_nil]
    exact h.closed
  · rw [hfired, reference, List.nil_append, Buckets.batch_single, summarize_single, hfloor, hperiod]
    rfl

/-- A later tick of the last bucket goes into its candle. -/
theorem summed_same {z : PriceTick} (h : Summed self ticks r) (hlast : ticks.getLast? = some z)
    (hle : ∀ w ∈ ticks, floorBucket self.periodS w ≤ floorBucket self.periodS z)
    (hfloor : r.agg.bucketOf utc t.ts = floorBucket self.periodS t)
    (hsame : floorBucket self.periodS t = floorBucket self.periodS z) :
    Summed self (ticks ++ [t]) (r.tick utc t) := by
  rcases h.grouped z hlast with ⟨c, hcurrent, hbucket, hreference⟩
  have htick := addTick_same utc t c hcurrent (by rw [hfloor, hsame, hbucket])
  refine h.next htick rfl ?_ (c.merge t.price t.volume) rfl (hbucket.trans hsame.symm) ?_
  · rw [List.append_nil]
    exact h.closed
  · rw [List.append_nil]
    exact Buckets.batch_join _ _ _ (fun c t => c.merge t.price t.volume)
      (summarize_concat self.periodS) hlast hle t hsame r.fired c hreference

/-- A tick of a later bucket closes the candle, and one for each bucket in between. -/
theorem summed_later {z : PriceTick} (hhistory : 1 ≤ self.history) (h : Summed self ticks r)
    (hlast : ticks.getLast? = some z)
    (hle : ∀ w ∈ ticks, floorBucket self.periodS w ≤ floorBucket self.periodS z)
    (hfloor : r.agg.bucketOf utc t.ts = floorBucket self.periodS t)
    (hlater : floorBucket self.periodS z < floorBucket self.periodS t) :
    Summed self (ticks ++ [t]) (r.tick utc t) := by
  rcases h.grouped z hlast with ⟨c, hcurrent, hbucket, hreference⟩
  have hperiod : r.agg.periodS = self.periodS := congrArg Prod.fst h.fixed
  have hbound : r.agg.history = self.history := congrArg Prod.snd h.fixed
  rcases @gap_fillers r.agg (hbound ▸ hhistory) r.fired c (r.agg.bucketOf utc t.ts)
    (by rw [hbound]; exact h.closed) with ⟨hraised, hfired, hclosed⟩
  have htick := addTick_filled utc t c hcurrent (by rw [hfloor, hbucket]; exact hlater.ne') hraised
  have hopened : (r.agg.gap c (r.agg.bucketOf utc t.ts)).agg.periodS = self.periodS :=
    (congrArg Prod.fst (@gap_fixed r.agg c _)).trans hperiod
  have hgap := Buckets.batch_advance (floorBucket self.periodS) (summarize self.periodS)
    (flatAfter self.periodS) hlast hle t hlater r.fired c hreference
  refine h.next htick rfl ?_ _ rfl hfloor ?_
  · rw [← hbound]
    exact hclosed
  · rw [reference, hgap, hopened, hfired, hperiod, hfloor, hbucket, summarize_single,
      List.append_assoc r.fired [c], List.singleton_append]

end Next

/-- A tick at or after all others, read into its own period, keeps the invariant. -/
theorem summed_tick (ticks : List PriceTick) (r : Handled) (t : PriceTick)
    (hhistory : 1 ≤ self.history) (h : Summed self ticks r)
    (hordered : (ticks ++ [t]).Pairwise (fun s t => s.ts ≤ t.ts))
    (hfloor : Floored self.periodS t.ts) : Summed self (ticks ++ [t]) (r.tick utc t) := by
  have hperiod : r.agg.periodS = self.periodS := congrArg Prod.fst h.fixed
  have hread : r.agg.bucketOf utc t.ts = floorBucket self.periodS t := by
    rw [bucketOf, hperiod, floorBucket, bucket_eq_iff self.periodS_pos, floored_iff _
      self.periodS_pos]
    exact hfloor
  cases hlast : ticks.getLast? with
  | none =>
      cases List.getLast?_eq_none_iff.mp hlast
      exact summed_first h hread
  | some z =>
      rcases List.getLast?_eq_some_iff.mp hlast with ⟨front, hfront⟩
      rcases List.pairwise_append.mp hordered with ⟨hsorted, _, hbefore⟩
      -- In time order the last tick is in the last bucket.
      have hle : ∀ w ∈ ticks, floorBucket self.periodS w ≤ floorBucket self.periodS z := by
        intro w hw
        rw [hfront] at hw hsorted
        rcases List.mem_append.mp hw with hin | heq
        · exact floorBucket_mono self.periodS_pos w z
            ((List.pairwise_append.mp hsorted).2.2 w hin z List.mem_cons_self)
        · exact Int.le_of_eq (by rw [List.mem_singleton.mp heq])
      have hzt : floorBucket self.periodS z ≤ floorBucket self.periodS t :=
        floorBucket_mono self.periodS_pos z t
          (hbefore z (List.mem_of_getLast? hlast) t List.mem_cons_self)
      rcases Int.lt_or_eq_of_le hzt with hlater | hsame
      · exact summed_later hhistory h hlast hle hread hlater
      · exact summed_same h hlast hle hread hsame.symm

theorem summed_run (ticks : List PriceTick) (hhistory : 1 ≤ self.history)
    (hcurrent : self.current = none) (hclosed : self.closed = [])
    (hordered : ticks.Pairwise (fun s t => s.ts ≤ t.ts))
    (hfloor : ∀ t ∈ ticks, Floored self.periodS t.ts) : Summed self ticks (self.run utc ticks) := by
  induction ticks using List.reverseRecOn with
  | nil =>
      refine ⟨rfl, rfl, ?_, fun _ => ⟨hcurrent, rfl⟩, fun z hz => by cases hz⟩
      change self.closed = ([] : List Ohlcv).rtake self.history
      rw [List.rtake_nil]
      exact hclosed
  | append_singleton front t ih =>
      rw [run_concat]
      exact summed_tick front _ t hhistory (ih (List.pairwise_append.mp hordered).1
        (fun s hs => hfloor s (List.mem_append_left _ hs))) hordered
        (hfloor t (List.mem_append_right front List.mem_cons_self))

/-- The label of the current candle gives away the bucket the last tick was read into. -/
theorem matches_floored (front : List PriceTick) (t : PriceTick) (hcurrent : self.current = none)
    (hordered : (front ++ [t]).Pairwise (fun s t => s.ts ≤ t.ts))
    (h : self.Matches (front ++ [t])) : Floored self.periodS t.ts := by
  rcases h with ⟨hraised, hkept⟩
  rw [run_concat, Handled.tick] at hraised hkept
  rw [Option.or_eq_none_iff] at hraised
  rcases run_labelled front hcurrent with ⟨hlabelled, hfixed⟩
  have hperiod : (self.run utc front).agg.periodS = self.periodS := congrArg Prod.fst hfixed
  rcases addTick_current utc t hlabelled hraised.2 with ⟨c, hc, hts⟩
  have hle : ∀ w ∈ front ++ [t], floorBucket self.periodS w ≤ floorBucket self.periodS t := by
    intro w hw
    rcases List.mem_append.mp hw with hin | heq
    · exact floorBucket_mono self.periodS_pos w t
        ((List.pairwise_append.mp hordered).2.2 w hin t List.mem_cons_self)
    · exact Int.le_of_eq (by rw [List.mem_singleton.mp heq])
  rcases Buckets.batch_last (floorBucket self.periodS) (summarize self.periodS)
    (flatAfter self.periodS) List.getLast?_concat hle with ⟨init, x, rest, hlast⟩
  -- Both lists end with a candle: the current one, and the one of the last tick's bucket.
  rw [CandleAggregator.kept, hc, reference, hlast, List.rtake_concat_succ] at hkept
  have hsame := (List.append_inj' hkept rfl).2
  have hlabel : c.ts = fromTimestamp (floorBucket self.periodS t * self.periodS) := by
    rw [(List.cons.inj hsame).1]
    rfl
  rw [hts, hperiod] at hlabel
  have hseconds := congrArg DateTime.micros hlabel
  rw [fromTimestamp_micros, fromTimestamp_micros] at hseconds
  have hbucket : (self.run utc front).agg.bucketOf utc t.ts = floorBucket self.periodS t :=
    Int.eq_of_mul_eq_mul_right self.periodS_pos.ne' (by omega)
  rw [bucketOf, hperiod, floorBucket, bucket_eq_iff self.periodS_pos, floored_iff _
    self.periodS_pos] at hbucket
  exact hbucket

end CandleAggregator

/-- The candles match the reference after every tick of a stream in time order, exactly
    if the floor of every tick is the bucket it is read into. -/
theorem run_reference_iff (timeframe : String) (history : Int) (agg : CandleAggregator)
    (hnew : CandleAggregator.new timeframe history = .ok agg) (hhistory : 1 ≤ history)
    (ticks : List PriceTick) (hordered : ticks.Pairwise (fun s t => s.ts ≤ t.ts)) :
    (∀ front, front <+: ticks → agg.Matches front) ↔
      ∀ t ∈ ticks, Floored agg.periodS t.ts := by
  rcases CandleAggregator.new_eq timeframe history hnew with ⟨hcurrent, hclosed, hbound⟩
  constructor
  · -- The stream up to a tick ends with it, and its last candle shows its bucket.
    intro hmatches t ht
    rcases List.append_of_mem ht with ⟨front, rest, hsplit⟩
    have hfront : front ++ [t] <+: ticks := ⟨rest, by
      rw [hsplit, List.append_assoc, List.singleton_append]⟩
    exact CandleAggregator.matches_floored front t hcurrent
      (hordered.sublist hfront.sublist) (hmatches _ hfront)
  · intro hfloor front hfront
    have hsummed := CandleAggregator.summed_run front (by omega) hcurrent hclosed
      (hordered.sublist hfront.sublist) (fun t ht => hfloor t (hfront.subset ht))
    exact ⟨hsummed.raised, hsummed.kept⟩

/-- After two ticks of one hour, and one three hours later, the candles are those of the reference. -/
theorem run_reference_iff_gap :
    hourly.Matches [priceAt 10 10, priceAt 10 20, priceAt 13 20] :=
  (run_reference_iff "1h" 512 hourly rfl (by decide)
    [priceAt 10 10, priceAt 10 20, priceAt 13 20] (by decide)).mpr
      (fun t ht => Or.inl (by revert t ht; decide)) _ List.prefix_rfl

/-- Half a second before 1970. -/
def lastHalfSecond : PriceTick := { ts := unixEpoch.shift (-500000), price := 97000 }

/-- The half second before 1970 goes into the first hour of 1970. -/
theorem run_not_reference : ∃ agg, CandleAggregator.new "1h" 512 = .ok agg ∧
    [lastHalfSecond].Pairwise (fun s t => s.ts ≤ t.ts) ∧ ¬ agg.Matches [lastHalfSecond] := by
  refine ⟨hourly, rfl, List.pairwise_singleton _ _, fun h => ?_⟩
  have hlabels := congrArg (List.map Ohlcv.ts) h.2
  have hkept : (hourly.run utc [lastHalfSecond]).agg.kept.map Ohlcv.ts = [unixEpoch] := by
    decide +kernel
  have hreference : ((reference hourly.periodS [lastHalfSecond]).rtake (hourly.history + 1)).map
      Ohlcv.ts = [unixEpoch.shift (-3600000000)] := by decide
  rw [hkept, hreference] at hlabels
  exact absurd hlabels (by decide)

end OptionsBot
