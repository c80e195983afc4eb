import Mathlib.Data.List.DropRight
import OptionsBot.Core.Strategy

/-!
# The Candle Aggregator

Ticks into candles of one timeframe. A tick belongs to the bucket its seconds since
1970 fall into. A tick of the current bucket goes into the current candle, and one
of any other bucket ends it: the candle is finalised, the buckets between the two
are filled with flat candles at the close before, and a new candle is opened.

The host's clock enters as its offset from UTC, since a tick's instant has no zone
and its seconds are taken as local time. Finalised candles are kept up to a bound,
and they are also handed to a callback, whose calls are recorded.

## Main definitions

* `Ohlcv`, `PriceTick`: A candle with all its fields, and a price at an instant.
* `CandleAggregator`: The aggregator of one timeframe.
* `Handled`: What a call leaves behind.
* `CandleAggregator.addTick`: One tick.

## Theorems

* `CandleAggregator.periodS_pos`: A timeframe has a positive length.
* `dequeAppend_rtake`: A bounded deque keeps what comes last.
* `CandleAggregator.addTick_cases`: All that a tick can do.
* `CandleAggregator.fillGap_cons`: One filler after another.
* `CandleAggregator.gap_unraised`: Where candles are kept, a gap can be filled.
* `CandleAggregator.tick_current`: What a tick leaves as the current candle.
-/

namespace OptionsBot

/-- `TIMEFRAME_SECONDS`. -/
def timeframeSeconds : List (String × Int) :=
  [("1m", 60), ("5m", 300), ("15m", 900), ("1h", 3600), ("4h", 14400), ("1d", 86400)]

/-- A `Candle` of the aggregator. The strategies read the part it extends. -/
structure Ohlcv extends Candle where
  ts : DateTime
  openPrice : ℚ
  volume : ℚ := 0
  nTicks : Nat := 0

/-- The arguments of `add_tick`. -/
structure PriceTick where
  ts : DateTime
  price : ℚ
  volume : ℚ := 0

/-- `xs.append(x)` on a `deque(maxlen=n)`: the oldest entries give way. -/
def dequeAppend {α : Type} (maxlen : Nat) (xs : List α) (x : α) : List α :=
  (xs ++ [x]).rtake maxlen

theorem dequeAppend_concat {α : Type} (n : Nat) (xs : List α) (x : α) :
    dequeAppend (n + 1) xs x = xs.rtake n ++ [x] := List.rtake_concat_succ xs n x

theorem dequeAppend_ne_nil {α : Type} (n : Nat) (xs : List α) (x : α) (h : 1 ≤ n) :
    dequeAppend n xs x ≠ [] := by
  rcases Nat.exists_eq_add_of_le' h with ⟨k, hk⟩
  rw [hk, dequeAppend_concat]
  exact List.append_ne_nil_of_right_ne_nil _ (List.cons_ne_nil x [])

theorem dequeAppend_sublist {α : Type} (n : Nat) (xs : List α) (x : α) :
    (dequeAppend n xs x).Sublist (xs ++ [x]) := List.drop_sublist _ _

/-- Of a bounded deque that has the last entries of a list, the append has the last
    ones of the longer list. -/
theorem dequeAppend_rtake {α : Type} (n : Nat) (xs : List α) (x : α) :
    dequeAppend n (xs.rtake n) x = (xs ++ [x]).rtake n := by
  cases n with
  | zero => rw [dequeAppend, List.rtake_zero, List.rtake_zero]
  | succ k =>
      -- Cut to `k + 1` and then to `k` is cut to `k`.
      rw [dequeAppend_concat, List.rtake_concat_succ]
      congr 1
      rw [List.rtake, List.rtake, List.rtake, List.drop_drop, List.length_drop]
      congr 1
      omega

/-- `CandleAggregator`, whose period is the one listed for its timeframe. -/
structure CandleAggregator where
  timeframe : String
  history : Nat := 256
  closed : List Ohlcv := []
  current : Option Ohlcv := none
  periodS : Int
  currentBucket : Int := -1
  listed : timeframeSeconds.lookup timeframe = some periodS

/-- A call's aggregator, the candles it handed to `on_close`, and the exception it
    ended with. -/
structure Handled where
  agg : CandleAggregator
  fired : List Ohlcv := []
  raised : Option PyError := none

/-- A tick of the candle's own bucket. -/
def Ohlcv.merge (c : Ohlcv) (price volume : ℚ) : Ohlcv :=
  { c with
    high := max c.high price, low := min c.low price, close := price,
    volume := c.volume + volume, nTicks := c.nTicks + 1 }

/-- `Candle(...)` as `_open_new` builds it, for a bucket of some period. -/
def Ohlcv.opened (periodS bucket : Int) (price volume : ℚ) : Ohlcv :=
  { ts := fromTimestamp (bucket * periodS), openPrice := price, high := price, low := price,
    close := price, volume := volume, nTicks := 1 }

namespace CandleAggregator

/-- `CandleAggregator(timeframe, history=history)`. The text is Python's for a name
    without quotes. -/
def new (timeframe : String) (history : Int) : Except PyError CandleAggregator :=
  match h : timeframeSeconds.lookup timeframe with
  | none => .error (.valueError ("unknown timeframe '" ++ timeframe ++ "'"))
  | some s =>
    if history < 0 then .error (.valueError "maxlen must be non-negative")
    else .ok { timeframe := timeframe, history := history.toNat, periodS := s, listed := h }

variable (self : CandleAggregator)

/-- `_open_new`, whose instant argument is not read. -/
def openNew (bucket : Int) (price volume : ℚ) : CandleAggregator :=
  { self with
    current := some (Ohlcv.opened self.periodS bucket price volume), currentBucket := bucket }

/-- `_close_current`. -/
def closeCurrent : Handled :=
  match self.current with
  | none => { agg := self }
  | some c =>
    { agg := { self with closed := dequeAppend self.history self.closed c, current := none },
      fired := [c] }

/-- The loop over the missing buckets, from `missing` on. It reads `closed[-1]`, which
    raises where no candle is kept. -/
def fillGap (self : CandleAggregator) (missing : Int) : Nat → Handled
  | 0 => { agg := self }
  | n + 1 =>
    match last self.closed with
    | .error e => { agg := self, raised := some e }
    | .ok prev =>
      -- The filler is closed at once, so the next round reads its close.
      let filler := (self.openNew missing prev.close 0).closeCurrent
      let rest := filler.agg.fillGap (missing + 1) n
      { rest with fired := filler.fired ++ rest.fired }

/-- The bucket of an instant, as a host reads it whose clock is `host t` seconds
    ahead of UTC at the local time `t`. -/
def bucketOf (host : DateTime → Int) (ts : DateTime) : Int :=
  truncate (ts.timestamp (host ts)) / self.periodS

def addTick (host : DateTime → Int) (tick : PriceTick) : Handled :=
  let bucket := self.bucketOf host tick.ts
  match self.current with
  | none => { agg := self.openNew bucket tick.price tick.volume }
  | some c =>
    if bucket = self.currentBucket then
      { agg := { self with current := some (c.merge tick.price tick.volume) } }
    else
      -- Also for an earlier bucket, where the loop has nothing to run over.
      let ended := self.closeCurrent
      let filled := ended.agg.fillGap (self.currentBucket + 1)
        (bucket - (self.currentBucket + 1)).toNat
      match filled.raised with
      | some e => { agg := filled.agg, fired := ended.fired ++ filled.fired, raised := some e }
      | none =>
        { agg := filled.agg.openNew bucket tick.price tick.volume,
          fired := ended.fired ++ filled.fired }

/-- `force_close`, with the candle it returns. -/
def forceClose : Handled × Option Ohlcv := (self.closeCurrent, self.current)

/-- `pop_closed`, with the candles it returns. -/
def popClosed : CandleAggregator × List Ohlcv := ({ self with closed := [] }, self.closed)

theorem periodS_pos : 0 < self.periodS := by
  have hlisted := self.listed
  have hall : ∀ p ∈ timeframeSeconds, 0 < p.2 := by decide
  rcases List.lookup_eq_some_iff.mp hlisted with ⟨front, rest, hsplit, _⟩
  refine hall (self.timeframe, self.periodS) ?_
  rw [hsplit]
  exact List.mem_append_right front List.mem_cons_self

variable {self}

theorem addTick_none (host : DateTime → Int) (tick : PriceTick) (h : self.current = none) :
    self.addTick host tick =
      { agg := self.openNew (self.bucketOf host tick.ts) tick.price tick.volume } := by
  unfold addTick
  rw [h]

theorem addTick_same (host : DateTime → Int) (tick : PriceTick) (c : Ohlcv)
    (h : self.current = some c)
    (hb : self.bucketOf host tick.ts = self.currentBucket) :
    self.addTick host tick =
      { agg := { self with current := some (c.merge tick.price tick.volume) } } := by
  unfold addTick
  rw [h]
  simp only [if_pos hb]

/-- The aggregator without the current candle, which is finalised. -/
def ended (self : CandleAggregator) (c : Ohlcv) : CandleAggregator :=
  { self with closed := dequeAppend self.history self.closed c, current := none }

/-- What lies between the current bucket and another one, filled after the current
    candle has ended. -/
def gap (self : CandleAggregator) (c : Ohlcv) (bucket : Int) : Handled :=
  (self.ended c).fillGap (self.currentBucket + 1) (bucket - (self.currentBucket + 1)).toNat

theorem closeCurrent_some (c : Ohlcv) (h : self.current = some c) :
    self.closeCurrent = { agg := self.ended c, fired := [c] } := by
  rw [closeCurrent, h]
  rfl

/-- Leaving a bucket ends its candle and fills the gap before it opens a new one. -/
theorem addTick_filled (host : DateTime → Int) (tick : PriceTick) (c : Ohlcv)
    (h : self.current = some c) (hb : self.bucketOf host tick.ts ≠ self.currentBucket)
    (hraised : (self.gap c (self.bucketOf host tick.ts)).raised = none) :
    self.addTick host tick =
      { agg := (self.gap c (self.bucketOf host tick.ts)).agg.openNew
          (self.bucketOf host tick.ts) tick.price tick.volume,
        fired := c :: (self.gap c (self.bucketOf host tick.ts)).fired } := by
  unfold gap at hraised ⊢
  unfold addTick
  rw [h]
  simp only [if_neg hb, closeCurrent_some c h, hraised]
  rfl

/-- Where the gap cannot be filled, nothing is opened. -/
theorem addTick_raised (host : DateTime → Int) (tick : PriceTick) (c : Ohlcv)
    (h : self.current = some c) (hb : self.bucketOf host tick.ts ≠ self.currentBucket)
    (e : PyError) (hraised : (self.gap c (self.bucketOf host tick.ts)).raised = some e) :
    self.addTick host tick =
      { agg := (self.gap c (self.bucketOf host tick.ts)).agg,
        fired := c :: (self.gap c (self.bucketOf host tick.ts)).fired, raised := some e } := by
  unfold gap at hraised ⊢
  unfold addTick
  rw [h]
  simp only [if_neg hb, closeCurrent_some c h, hraised]
  rfl

/-- All that a tick can do: open the first candle, go into the current one, or leave
    its bucket, with or without getting over the gap. -/
theorem addTick_cases (host : DateTime → Int) (tick : PriceTick) :
    (self.current = none ∧ self.addTick host tick =
      { agg := self.openNew (self.bucketOf host tick.ts) tick.price tick.volume }) ∨
    (∃ c, self.current = some c ∧ self.bucketOf host tick.ts = self.currentBucket ∧
      self.addTick host tick =
        { agg := { self with current := some (c.merge tick.price tick.volume) } }) ∨
    (∃ c, self.current = some c ∧ self.bucketOf host tick.ts ≠ self.currentBucket ∧
      (self.gap c (self.bucketOf host tick.ts)).raised = none ∧ self.addTick host tick =
        { agg := (self.gap c (self.bucketOf host tick.ts)).agg.openNew
            (self.bucketOf host tick.ts) tick.price tick.volume,
          fired := c :: (self.gap c (self.bucketOf host tick.ts)).fired }) ∨
    (∃ c e, self.current = some c ∧ self.bucketOf host tick.ts ≠ self.currentBucket ∧
      (self.gap c (self.bucketOf host tick.ts)).raised = some e ∧ self.addTick host tick =
        { agg := (self.gap c (self.bucketOf host tick.ts)).agg,
          fired := c :: (self.gap c (self.bucketOf host tick.ts)).fired, raised := some e }) := by
  cases h : self.current with
  | none => exact Or.inl ⟨rfl, addTick_none host tick h⟩
  | some c =>
      refine Or.inr ?_
      by_cases hb : self.bucketOf host tick.ts = self.currentBucket
      · exact Or.inl ⟨c, rfl, hb, addTick_same host tick c h hb⟩
      refine Or.inr ?_
      cases hraised : (self.gap c (self.bucketOf host tick.ts)).raised with
      | none => exact Or.inl ⟨c, rfl, hb, hraised, addTick_filled host tick c h hb hraised⟩
      | some e => exact Or.inr ⟨c, e, rfl, hb, hraised, addTick_raised host tick c h hb e hraised⟩

/-- One filler, opened and closed. -/
def filled (self : CandleAggregator) (missing : Int) (price : ℚ) : CandleAggregator :=
  (self.openNew missing price 0).ended (Ohlcv.opened self.periodS missing price 0)

theorem fillGap_cons (missing : Int) (n : Nat) (prev : Ohlcv) (h : last self.closed = .ok prev) :
    self.fillGap missing (n + 1) =
      { (self.filled missing prev.close).fillGap (missing + 1) n with
        fired := Ohlcv.opened self.periodS missing prev.close 0 ::
          ((self.filled missing prev.close).fillGap (missing + 1) n).fired } := by
  rw [fillGap, h]
  rfl

theorem fillGap_unraised (missing : Int) (n : Nat) (hhistory : 1 ≤ self.history)
    (hclosed : self.closed ≠ []) : (self.fillGap missing n).raised = none := by
  induction n generalizing self missing with
  | zero => rfl
  | succ n ih =>
      have hlast : last self.closed = .ok (self.closed.getLast hclosed) := by
        rw [last, List.getLast?_eq_some_getLast hclosed]
      rw [fillGap_cons missing n _ hlast]
      exact ih (missing + 1) hhistory (dequeAppend_ne_nil _ _ _ hhistory)

/-- The candle that has ended is kept, so the loop finds one. -/
theorem gap_unraised (c : Ohlcv) (bucket : Int) (hhistory : 1 ≤ self.history) :
    (self.gap c bucket).raised = none :=
  fillGap_unraised _ _ hhistory (dequeAppend_ne_nil _ _ _ hhistory)

/-- After a tick the current candle is a new one at its price, or the one there was with the tick
    merged into it. -/
theorem tick_current (host : DateTime → Int) (tick : PriceTick) (hhistory : 1 ≤ self.history) :
    (self.addTick host tick).raised = none ∧
      ((∃ bucket, (self.addTick host tick).agg.current =
          some (Ohlcv.opened (self.addTick host tick).agg.periodS bucket tick.price tick.volume)) ∨
        ∃ c, self.current = some c ∧
          (self.addTick host tick).agg.current = some (c.merge tick.price tick.volume)) := by
  rcases addTick_cases host tick with
    ⟨_, hopened⟩ | ⟨c, hc, _, hmerged⟩ | ⟨c, _, _, _, hopened⟩ | ⟨c, e, _, _, hraised, _⟩
  · rw [hopened]
    exact ⟨rfl, Or.inl ⟨_, rfl⟩⟩
  · rw [hmerged]
    exact ⟨rfl, Or.inr ⟨c, hc, rfl⟩⟩
  · rw [hopened]
    exact ⟨rfl, Or.inl ⟨_, rfl⟩⟩
  · rw [gap_unraised c _ hhistory] at hraised
    cases hraised

end CandleAggregator

end OptionsBot
