import Mathlib.Algebra.BigOperators.Group.List.Basic
import Mathlib.Tactic.Linarith
import OptionsBot.Theory.CandleLabels

/-!
# No Candle Lost, No Volume Lost

An aggregator closes candles on its own and when it is told to, fills gaps with candles of no
volume, keeps the finished candles up to a bound, and hands them out and forgets them when it is
asked. The calls may come in any order.

Every candle that is closed is handed out at most once, and in the order of closing. It is lost
when the bound is reached before the next request. So nothing is lost exactly if between two
requests, and since the last, no more candles are closed than are kept. The volume of the ticks
is in the candles in any case, and every candle is one: its low is its least price, its high the
greatest.

## Main definitions

* `Ohlcv.WellFormed`: Open and close lie between low and high.
* `CandleLog`: An aggregator with what it has closed and handed out.
* `CandleLog.call`: A call.
* `CandleLog.Conserves`: The invariant.

## Theorems

* `fillGap_conserves`, `addTick_conserves`: A gap and a tick.
* `call_conserves`: A call keeps the invariant.
* `candles_conserved`: Whole runs, and when no candle is lost.
-/

namespace OptionsBot

/-- Open and close lie between low and high. -/
def Ohlcv.WellFormed (c : Ohlcv) : Prop :=
  (c.low ≤ c.openPrice ∧ c.openPrice ≤ c.high) ∧ c.low ≤ c.close ∧ c.close ≤ c.high

theorem Ohlcv.opened_wellFormed (periodS bucket : Int) (price volume : ℚ) :
    (Ohlcv.opened periodS bucket price volume).WellFormed :=
  ⟨⟨le_refl _, le_refl _⟩, le_refl _, le_refl _⟩

theorem Ohlcv.merge_wellFormed (c : Ohlcv) (price volume : ℚ) (h : c.WellFormed) :
    (c.merge price volume).WellFormed :=
  ⟨⟨(min_le_left _ _).trans h.1.1, h.1.2.trans (le_max_left _ _)⟩,
    min_le_right _ _, le_max_right _ _⟩

/-- The volume of some candles. -/
def volumeOf (cs : List Ohlcv) : ℚ := (cs.map Ohlcv.volume).sum

theorem volumeOf_append (cs ds : List Ohlcv) :
    volumeOf (cs ++ ds) = volumeOf cs + volumeOf ds := by
  rw [volumeOf, List.map_append, List.sum_append]
  rfl

/-- An aggregator with what it has closed, split up at the requests, and what it has handed out at
    these. -/
structure CandleLog where
  agg : CandleAggregator
  batches : List (List Ohlcv) := []
  since : List Ohlcv := []
  popped : List Ohlcv := []

namespace CandleAggregator

variable {self : CandleAggregator}

/-- Filling a gap keeps the last of what it closes, which has no volume. -/
theorem fillGap_conserves (missing : Int) (n : Nat) (since : List Ohlcv)
    (hclosed : self.closed = since.rtake self.history) :
    (self.fillGap missing n).agg.closed =
        (since ++ (self.fillGap missing n).fired).rtake self.history ∧
      volumeOf (self.fillGap missing n).fired = 0 ∧
      ∀ c ∈ (self.fillGap missing n).fired, c.WellFormed := by
  have hnone : ∀ c ∈ ([] : List Ohlcv), c.WellFormed := fun c hc => absurd hc List.not_mem_nil
  induction n generalizing self missing since with
  | zero => exact ⟨by rw [fillGap, List.append_nil, hclosed], rfl, hnone⟩
  | succ n ih =>
      cases hlast : last self.closed with
      | error e =>
          rw [fillGap, hlast]
          exact ⟨by rw [List.append_nil, hclosed], rfl, hnone⟩
      | ok prev =>
          rw [fillGap_cons missing n prev hlast]
          have hnext : (self.filled missing prev.close).closed =
              (since ++ [Ohlcv.opened self.periodS missing prev.close 0]).rtake self.history := by
            rw [← dequeAppend_rtake, ← hclosed]
            rfl
          rcases @ih (self.filled missing prev.close) (missing + 1) _ hnext with
            ⟨hkept, hvolume, hformed⟩
          refine ⟨?_, ?_, ?_⟩
          · refine hkept.trans ?_
            rw [List.append_assoc, List.singleton_append]
            rfl
          · rw [volumeOf, List.map_cons, List.sum_cons]
            exact (zero_add _).trans hvolume
          · intro c hc
            rcases List.mem_cons.mp hc with rfl | hrest
            · exact Ohlcv.opened_wellFormed _ _ _ _
            · exact hformed c hrest

/-- The volume of the current candle. -/
def currentVolume (self : CandleAggregator) : ℚ := volumeOf self.current.toList

/-- Closing the current candle keeps its volume. -/
theorem closeCurrent_conserves (since : List Ohlcv) (hclosed : self.closed = since.rtake self.history)
    (hcurrent : ∀ c ∈ self.current.toList, c.WellFormed) :
    self.closeCurrent.agg.closed = (since ++ self.closeCurrent.fired).rtake self.history ∧
      volumeOf self.closeCurrent.fired + self.closeCurrent.agg.currentVolume =
        self.currentVolume ∧
      ∀ c ∈ self.closeCurrent.fired ++ self.closeCurrent.agg.current.toList, c.WellFormed := by
  cases hc : self.current with
  | none =>
      rw [closeCurrent, hc]
      refine ⟨by rw [List.append_nil]; exact hclosed, zero_add _, fun d hd => ?_⟩
      rw [hc] at hd
      exact absurd hd List.not_mem_nil
  | some c =>
      rw [closeCurrent_some c hc]
      refine ⟨?_, ?_, fun d hd => ?_⟩
      · rw [← dequeAppend_rtake, ← hclosed]
        rfl
      · rw [currentVolume, currentVolume, hc]
        exact add_zero _
      · rw [ended, Option.toList_none, List.append_nil, List.mem_singleton] at hd
        rw [hd]
        exact hcurrent c (by rw [hc]; exact List.mem_cons_self)

/-- A tick puts its volume into the candles, and what it closes is well formed. -/
theorem addTick_conserves (host : DateTime → Int) (tick : PriceTick) (since : List Ohlcv)
    (hhistory : 1 ≤ self.history) (hclosed : self.closed = since.rtake self.history)
    (hcurrent : ∀ c ∈ self.current.toList, c.WellFormed) :
    (self.addTick host tick).agg.closed =
        (since ++ (self.addTick host tick).fired).rtake self.history ∧
      volumeOf (self.addTick host tick).fired + (self.addTick host tick).agg.currentVolume =
        self.currentVolume + tick.volume ∧
      ∀ c ∈ (self.addTick host tick).fired ++ (self.addTick host tick).agg.current.toList,
        c.WellFormed := by
  rcases addTick_cases host tick with
    ⟨hnone, hopened⟩ | ⟨c, hc, _, hmerged⟩ | ⟨c, hc, _, hfilled, hopened⟩ | ⟨c, e, _, _, hraised, _⟩
  · -- The first candle: nothing is closed.
    rw [hopened]
    refine ⟨by rw [List.append_nil]; exact hclosed, ?_, fun d hd => ?_⟩
    · simp only [currentVolume, hnone, openNew, volumeOf, Ohlcv.opened, Option.toList_some,
        Option.toList_none, List.map_cons, List.map_nil, List.sum_cons, List.sum_nil, zero_add,
        add_zero]
    · rw [List.nil_append, openNew, Option.toList_some, List.mem_singleton] at hd
      rw [hd]
      exact Ohlcv.opened_wellFormed _ _ _ _
  · -- A tick of the current candle.
    rw [hmerged]
    refine ⟨by rw [List.append_nil]; exact hclosed, ?_, fun d hd => ?_⟩
    · simp only [currentVolume, hc, volumeOf, Ohlcv.merge, Option.toList_some, List.map_cons,
        List.map_nil, List.sum_cons, List.sum_nil, zero_add, add_zero]
    · rw [List.nil_append, Option.toList_some, List.mem_singleton] at hd
      rw [hd]
      exact c.merge_wellFormed _ _ (hcurrent c (by rw [hc]; exact List.mem_cons_self))
  · -- The current candle is closed, then the gap is filled, then a candle is opened.
    have hended : (self.ended c).closed = (since ++ [c]).rtake self.history := by
      rw [← dequeAppend_rtake, ← hclosed]
      rfl
    rcases fillGap_conserves (self.currentBucket + 1)
        (self.bucketOf host tick.ts - (self.currentBucket + 1)).toNat _ hended with
      ⟨hkept, hvolume, hformed⟩
    rw [hopened]
    refine ⟨?_, ?_, fun d hd => ?_⟩
    · refine hkept.trans ?_
      rw [List.append_assoc, List.singleton_append]
      rfl
    · have hfired : volumeOf (self.gap c (self.bucketOf host tick.ts)).fired = 0 := hvolume
      simp only [currentVolume, hc, openNew, volumeOf, Ohlcv.opened, Option.toList_some,
        List.map_cons, List.map_nil, List.sum_cons, List.sum_nil, add_zero]
      rw [volumeOf] at hfired
      rw [hfired, add_zero]
    · rw [List.cons_append, List.mem_cons, List.mem_append, openNew, Option.toList_some,
        List.mem_singleton] at hd
      rcases hd with rfl | hgap | rfl
      · exact hcurrent d (by rw [hc]; exact List.mem_cons_self)
      · exact hformed d hgap
      · exact Ohlcv.opened_wellFormed _ _ _ _
  · rw [gap_unraised c _ hhistory] at hraised
    cases hraised

end CandleAggregator

/-- What a call brings in. -/
def AggregatorCall.volume : AggregatorCall → ℚ
  | .tick _ t => t.volume
  | _ => 0

namespace CandleLog

/-- All candles that were closed, in order. -/
def fired (log : CandleLog) : List Ohlcv := log.batches.flatten ++ log.since

/-- A call, with what it closes and hands out. -/
def call (log : CandleLog) : AggregatorCall → CandleLog
  | .tick host t =>
    { log with
      agg := (log.agg.addTick host t).agg
      since := log.since ++ (log.agg.addTick host t).fired }
  | .forceClose =>
    { log with
      agg := log.agg.forceClose.1.agg
      since := log.since ++ log.agg.forceClose.1.fired }
  | .popClosed =>
    { agg := log.agg.popClosed.1
      batches := log.batches ++ [log.since]
      since := []
      popped := log.popped ++ log.agg.popClosed.2 }

theorem call_agg (log : CandleLog) (c : AggregatorCall) : (log.call c).agg = log.agg.call c := by
  cases c with
  | tick host t => rfl
  | forceClose => rfl
  | popClosed => rfl

/-- The last of each batch were handed out, the last since then are kept, all volume is in the
    candles, and these are well formed. -/
structure Conserves (history : Nat) (volume : ℚ) (log : CandleLog) : Prop where
  bound : log.agg.history = history
  kept : log.agg.closed = log.since.rtake history
  handed : log.popped = log.batches.flatMap (fun batch => batch.rtake history)
  volumes : volumeOf log.fired + log.agg.currentVolume = volume
  formed : ∀ c ∈ log.fired ++ log.agg.current.toList, c.WellFormed

/-- A call that closes candles and hands out none. -/
theorem handled_conserves (history : Nat) (volume more : ℚ) (log : CandleLog)
    (h : log.Conserves history volume) (done : Handled)
    (hbound : done.agg.history = log.agg.history)
    (hclosed : done.agg.closed = (log.since ++ done.fired).rtake log.agg.history)
    (hvolume : volumeOf done.fired + done.agg.currentVolume = log.agg.currentVolume + more)
    (hformed : ∀ c ∈ done.fired ++ done.agg.current.toList, c.WellFormed) :
    { log with agg := done.agg, since := log.since ++ done.fired : CandleLog }.Conserves history
      (volume + more) := by
  have hfired : { log with agg := done.agg, since := log.since ++ done.fired : CandleLog }.fired =
      log.fired ++ done.fired := (List.append_assoc _ _ _).symm
  refine ⟨hbound.trans h.bound, by rw [← h.bound]; exact hclosed, h.handed, ?_, fun d hd => ?_⟩
  · have hold := h.volumes
    rw [hfired, volumeOf_append]
    linarith
  · rw [hfired, List.append_assoc, List.mem_append] at hd
    rcases hd with hold | hnew
    · exact h.formed d (List.mem_append_left _ hold)
    · exact hformed d hnew

theorem call_conserves (history : Nat) (hhistory : 1 ≤ history) (volume : ℚ) (log : CandleLog)
    (h : log.Conserves history volume) (c : AggregatorCall) :
    (log.call c).Conserves history (volume + c.volume) := by
  have hkept := h.kept
  rw [← h.bound] at hkept
  have hcurrent : ∀ d ∈ log.agg.current.toList, d.WellFormed :=
    fun d hd => h.formed d (List.mem_append_right _ hd)
  cases c with
  | tick host t =>
      rcases log.agg.addTick_conserves host t log.since (hhistory.trans_eq h.bound.symm) hkept
        hcurrent with ⟨hclosed, hvolume, hformed⟩
      exact log.handled_conserves history volume t.volume h (log.agg.addTick host t)
        (congrArg Prod.snd (CandleAggregator.addTick_fixed host t)) hclosed hvolume hformed
  | forceClose =>
      rcases log.agg.closeCurrent_conserves log.since hkept hcurrent with
        ⟨hclosed, hvolume, hformed⟩
      exact log.handled_conserves history volume 0 h log.agg.closeCurrent
        (congrArg Prod.snd CandleAggregator.closeCurrent_fixed) hclosed
        (hvolume.trans (add_zero _).symm) hformed
  | popClosed =>
      -- What was closed since the last request becomes a batch, of which the kept are handed out.
      have hfired : (log.call .popClosed).fired = log.fired := by
        simp only [call, fired, List.flatten_append, List.flatten_singleton, List.append_nil]
      refine ⟨h.bound, ?_, ?_, ?_, ?_⟩
      · exact (List.rtake_nil history).symm
      · rw [call, List.flatMap_append, List.flatMap_singleton, ← h.handed, ← h.kept]
        rfl
      · rw [hfired]
        exact h.volumes.trans (add_zero _).symm
      · rw [hfired]
        exact h.formed

theorem run_conserves (history : Nat) (hhistory : 1 ≤ history) (calls : List AggregatorCall)
    (volume : ℚ) (log : CandleLog) (h : log.Conserves history volume) :
    (calls.foldl call log).Conserves history (volume + (calls.map AggregatorCall.volume).sum) := by
  induction calls generalizing log volume with
  | nil => rw [List.map_nil, List.sum_nil, add_zero]; exact h
  | cons c rest ih =>
      rw [List.map_cons, List.sum_cons, ← add_assoc]
      exact ih _ _ (log.call_conserves history hhistory volume h c)

theorem run_agg (calls : List AggregatorCall) (log : CandleLog) :
    (calls.foldl call log).agg = calls.foldl CandleAggregator.call log.agg := by
  induction calls generalizing log with
  | nil => rfl
  | cons c rest ih => rw [List.foldl_cons, List.foldl_cons, ih, call_agg]

end CandleLog

/-- Of parts of some lists everything is left exactly if each part is the whole list. -/
theorem flatMap_eq_flatten_iff {α : Type} (part : List α → List α)
    (hpart : ∀ xs, (part xs).Sublist xs) (batches : List (List α)) :
    batches.flatMap part = batches.flatten ↔ ∀ xs ∈ batches, part xs = xs := by
  induction batches with
  | nil => exact iff_of_true rfl (fun _ h => absurd h List.not_mem_nil)
  | cons xs rest ih =>
      rw [List.flatMap_cons, List.flatten_cons, List.forall_mem_cons, ← ih]
      constructor
      · intro h
        -- No part is longer than its list, so none can make up for another that is shorter.
        have hrest : (rest.flatMap part).length ≤ rest.flatten.length := by
          clear ih h
          induction rest with
          | nil => exact le_refl _
          | cons ys rest ih =>
              rw [List.flatMap_cons, List.flatten_cons, List.length_append, List.length_append]
              exact Nat.add_le_add (hpart ys).length_le ih
        have hlength := congrArg List.length h
        rw [List.length_append, List.length_append] at hlength
        have hfirst := (hpart xs).length_le
        exact List.append_inj h (by omega)
      · rintro ⟨hfirst, hrest⟩
        rw [hfirst, hrest]

theorem rtake_eq_self_iff {α : Type} (xs : List α) (n : Nat) : xs.rtake n = xs ↔ xs.length ≤ n := by
  constructor
  · intro h
    have hlength := congrArg List.length h
    rw [List.rtake, List.length_drop] at hlength
    omega
  · intro h
    rw [List.rtake, Nat.sub_eq_zero_of_le h, List.drop_zero]

/-- Whatever the order of the calls, none raises, the volume of the ticks is in the candles, these
    are well formed, and what is handed out and then kept was closed, once and in this order. It is
    all that was closed exactly if no more is closed between two requests, or since the last, than
    is kept. -/
theorem candles_conserved (timeframe : String) (history : Int) (agg : CandleAggregator)
    (hnew : CandleAggregator.new timeframe history = .ok agg) (hhistory : 1 ≤ history)
    (calls : List AggregatorCall) :
    let log := calls.foldl CandleLog.call { agg := agg }
    (∀ host t, (log.agg.addTick host t).raised = none) ∧
      volumeOf log.fired + log.agg.currentVolume = (calls.map AggregatorCall.volume).sum ∧
      (∀ c ∈ log.fired ++ log.agg.current.toList, c.WellFormed) ∧
      (log.popped ++ log.agg.closed).Sublist log.fired ∧
      (log.popped ++ log.agg.closed = log.fired ↔
        ∀ batch ∈ log.batches ++ [log.since], (batch.length : Int) ≤ history) := by
  intro log
  rcases CandleAggregator.new_eq timeframe history hnew with ⟨hcurrent, hclosed, hbound⟩
  have hkept : 1 ≤ agg.history := by omega
  have hstart : CandleLog.Conserves agg.history 0 { agg := agg } := by
    refine ⟨rfl, ?_, rfl, ?_, fun c hc => ?_⟩
    · rw [hclosed, List.rtake_nil]
    · rw [CandleAggregator.currentVolume, hcurrent]
      exact add_zero 0
    · simp only [CandleLog.fired, hcurrent] at hc
      exact absurd hc List.not_mem_nil
  have hrun := CandleLog.run_conserves agg.history hkept calls 0 { agg := agg } hstart
  rw [zero_add] at hrun
  have hhanded : log.popped ++ log.agg.closed =
      (log.batches ++ [log.since]).flatMap (fun batch => batch.rtake agg.history) := by
    rw [List.flatMap_append, List.flatMap_singleton, ← hrun.handed, ← hrun.kept]
  have hfired : log.fired = (log.batches ++ [log.since]).flatten := by
    rw [List.flatten_append, List.flatten_singleton, CandleLog.fired]
  have hpart : ∀ xs : List Ohlcv, (xs.rtake agg.history).Sublist xs :=
    fun xs => List.drop_sublist _ _
  refine ⟨fun host t => ?_, hrun.volumes, hrun.formed, ?_, ?_⟩
  · exact (log.agg.tick_current host t (hkept.trans_eq hrun.bound.symm)).1
  · rw [hhanded, hfired]
    generalize log.batches ++ [log.since] = batches
    induction batches with
    | nil => exact List.Sublist.refl []
    | cons xs rest ih => exact (hpart xs).append ih
  · rw [hhanded, hfired, flatMap_eq_flatten_iff _ hpart]
    refine forall₂_congr (fun batch _ => ?_)
    rw [rtake_eq_self_iff]
    omega

/-- An aggregator that keeps one candle, closes two of them and is then asked: of the two the first
    is lost. -/
theorem candles_conserved_lost :
    ∃ (agg : CandleAggregator) (calls : List AggregatorCall),
      CandleAggregator.new "1m" 1 = .ok agg ∧
      (calls.foldl CandleLog.call { agg := agg }).popped ++
        (calls.foldl CandleLog.call { agg := agg }).agg.closed ≠
          (calls.foldl CandleLog.call { agg := agg }).fired := by
  let tick : AggregatorCall := .tick (fun _ => 0) { ts := unixEpoch, price := 97000 }
  let calls : List AggregatorCall := [tick, .forceClose, tick, .forceClose, .popClosed]
  refine ⟨{ timeframe := "1m", history := 1, periodS := 60, listed := rfl }, calls, rfl, fun h => ?_⟩
  have hall := (candles_conserved "1m" 1 _ rfl (by decide) calls).2.2.2.2.mp h
  have htwo := hall _ List.mem_cons_self
  exact absurd htwo (by decide +kernel)

end OptionsBot
