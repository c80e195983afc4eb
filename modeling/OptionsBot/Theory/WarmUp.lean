import OptionsBot.Core.Directional
import OptionsBot.Theory.CandleReference
import OptionsBot.Theory.FeedDelivery
import OptionsBot.Theory.StrikeFallback

/-!
# Warming Up

A process starts without candles, and nothing is read back from before. A trend needs a number of
candles, so for some time after a start the directional strategy can only say that there is not
enough history.

How long that is, is a matter of the clock alone. Each price that is handled opens a candle if it
falls into another bucket than the one before, and closes a candle for each bucket between the
two. So what counts is how far the buckets have moved on, from price to price, and not how many
prices there were: `directional_warm_up`. Two prices with an outage of some hours between them are
as good as a steady feed.

While the clock does not go back, that is the way from the first price to the last. When it does
go back over the end of a bucket, every crossing counts, in either direction.

## Main definitions

* `leap`, `advance`: How far buckets move on, in one step and along a list.
* `TickerFeed.ticks`: The prices of an underlying that a run hands to its aggregators.
* `TickerFeed.bars`: The candles there are after some prices.

## Theorems

* `advance_forward`: The way from the first to the last.
* `CandleAggregator.run_warm`: The candles of an aggregator after some prices.
* `TickerFeed.run_candles`: A run gives its aggregators the prices it handles.
* `directional_warm_up`: When there is not enough history.
-/

namespace OptionsBot

-- The sample evaluation below computes with rationals.
attribute [local semireducible] Rat.add Rat.sub Rat.mul Rat.inv

/-- How many candles a tick adds to those before it. -/
def leap (a b : Int) : Nat := if b = a then 0 else max 1 (b - a).toNat

/-- How far the buckets of some ticks move on. -/
def advance : List Int → Nat
  | a :: b :: rest => leap a b + advance (b :: rest)
  | _ => 0

theorem advance_concat (front : List Int) (a b : Int) :
    advance (front ++ [a] ++ [b]) = advance (front ++ [a]) + leap a b := by
  induction front with
  | nil =>
      change leap a b + 0 = 0 + leap a b
      omega
  | cons x rest ih =>
      cases rest with
      | nil =>
          change leap x a + (leap a b + 0) = leap x a + 0 + leap a b
          omega
      | cons y rest =>
          change leap x y + advance ((y :: rest) ++ [a] ++ [b]) =
            leap x y + advance ((y :: rest) ++ [a]) + leap a b
          rw [ih]
          omega

/-- Buckets that do not go back move on from the first to the last. -/
theorem advance_forward (buckets : List Int) (hordered : buckets.Pairwise (· ≤ ·)) (a z : Int)
    (ha : buckets.head? = some a) (hz : buckets.getLast? = some z) :
    (advance buckets : Int) = z - a := by
  induction buckets generalizing a with
  | nil => cases ha
  | cons x rest ih =>
      have hx : x = a := Option.some.inj ha
      subst hx
      cases rest with
      | nil =>
          have hz : x = z := Option.some.inj hz
          change (0 : Int) = _
          omega
      | cons y rest =>
          rw [List.pairwise_cons] at hordered
          have hle := hordered.1 y List.mem_cons_self
          have hrest := ih hordered.2 y rfl (by rw [← hz, List.getLast?_cons_cons])
          have hleap : (leap x y : Int) = y - x := by
            unfold leap
            split_ifs with heq
            · omega
            · omega
          change ((leap x y + advance (y :: rest) : Nat) : Int) = z - x
          omega

namespace CandleAggregator

variable {self : CandleAggregator}

theorem dequeAppend_length {α : Type} (maxlen : Nat) (xs : List α) (x : α)
    (h : xs.length ≤ maxlen) : (dequeAppend maxlen xs x).length = min maxlen (xs.length + 1) := by
  unfold dequeAppend
  rw [List.rtake, List.length_drop, List.length_append, List.length_singleton]
  omega

/-- Fillers are kept up to the bound. -/
theorem fillGap_length (missing : Int) (n : Nat) (hhistory : 1 ≤ self.history)
    (hclosed : self.closed ≠ []) (hlength : self.closed.length ≤ self.history) :
    (self.fillGap missing n).agg.closed.length = min self.history (self.closed.length + n) := by
  induction n generalizing self missing with
  | zero =>
      change self.closed.length = _
      omega
  | succ n ih =>
      have hlast : last self.closed = .ok (self.closed.getLast hclosed) := by
        rw [last, List.getLast?_eq_some_getLast hclosed]
      rw [fillGap_cons missing n _ hlast]
      have hone : (self.filled missing (self.closed.getLast hclosed).close).closed.length =
          min self.history (self.closed.length + 1) := dequeAppend_length _ _ _ hlength
      have hrest := @ih (self.filled missing (self.closed.getLast hclosed).close) (missing + 1)
        hhistory (dequeAppend_ne_nil _ _ _ hhistory) (by rw [hone]; exact min_le_left _ _)
      refine hrest.trans ?_
      rw [hone]
      change min self.history _ = _
      omega

/-- The candles after some ticks: the closed ones up to the bound, and a current one in the bucket
    of the last tick. -/
structure Warm (agg : CandleAggregator) (fixed : Int × Nat) (buckets : List Int) : Prop where
  same : agg.fixed = fixed
  closed : agg.closed.length = min fixed.2 (advance buckets)
  current : agg.current.isSome = !buckets.isEmpty
  bucket : ∀ b ∈ buckets.getLast?, agg.currentBucket = b

theorem warm_tick (host : DateTime → Int) (tick : PriceTick) (fixed : Int × Nat)
    (buckets : List Int) (hhistory : 1 ≤ fixed.2) (h : self.Warm fixed buckets) :
    (self.addTick host tick).agg.Warm fixed (buckets ++ [self.bucketOf host tick.ts]) := by
  have hkept : self.history = fixed.2 := congrArg Prod.snd h.same
  have hone : 1 ≤ self.history := by omega
  have hsame : (self.addTick host tick).agg.fixed = fixed :=
    (addTick_fixed host tick).trans h.same
  have hsome : (!(buckets ++ [self.bucketOf host tick.ts]).isEmpty) = true := by
    cases buckets <;> rfl
  have hbucket : ∀ b ∈ (buckets ++ [self.bucketOf host tick.ts]).getLast?,
      self.bucketOf host tick.ts = b := by
    intro b hb
    rw [List.getLast?_concat] at hb
    exact Option.some.inj hb
  -- A tick behind others has the bucket of the last one to leave, or to stay in.
  have hbehind : ∀ c, self.current = some c → ∃ front,
      buckets = front ++ [self.currentBucket] := by
    intro c hc
    have hcurrent := h.current
    rw [hc, Option.isSome_some] at hcurrent
    rcases List.eq_nil_or_concat buckets with hnil | ⟨front, b, hfront⟩
    · rw [hnil] at hcurrent
      cases hcurrent
    · refine ⟨front, ?_⟩
      rw [h.bucket b (by rw [hfront, List.concat_eq_append, List.getLast?_concat]; rfl), hfront,
        List.concat_eq_append]
  rcases addTick_cases host tick with
    ⟨hnone, hopened⟩ | ⟨c, hc, hb, hmerged⟩ | ⟨c, hc, hb, _, hopened⟩ | ⟨c, e, _, _, hraised, _⟩
  · have hempty : buckets = [] := by
      have hcurrent := h.current
      rw [hnone] at hcurrent
      cases buckets with
      | nil => rfl
      | cons b rest => cases hcurrent
    refine ⟨hsame, ?_, ?_, ?_⟩
    · rw [hopened, hempty]
      have hclosed := h.closed
      rw [hempty] at hclosed
      exact hclosed
    · rw [hopened, hsome]
      rfl
    · intro b hin
      rw [hopened, ← hbucket b hin]
      rfl
  · rcases hbehind c hc with ⟨front, hfront⟩
    refine ⟨hsame, ?_, ?_, ?_⟩
    · rw [hmerged, hb, hfront, advance_concat, leap, if_pos rfl, Nat.add_zero, ← hfront]
      exact h.closed
    · rw [hmerged, hsome]
      rfl
    · intro b hin
      rw [hmerged, ← hbucket b hin, hb]
  · rcases hbehind c hc with ⟨front, hfront⟩
    have hlength : self.closed.length ≤ self.history := by
      rw [h.closed, hkept]
      exact min_le_left _ _
    have hended : (self.ended c).closed.length = min self.history (self.closed.length + 1) :=
      dequeAppend_length _ _ _ hlength
    have hgap := @fillGap_length (self.ended c) (self.currentBucket + 1)
      (self.bucketOf host tick.ts - (self.currentBucket + 1)).toNat hone
      (dequeAppend_ne_nil _ _ _ hone) (by rw [hended]; exact min_le_left _ _)
    refine ⟨hsame, ?_, ?_, ?_⟩
    · rw [hopened, hfront, advance_concat, leap, if_neg hb, ← hfront]
      refine hgap.trans ?_
      rw [hended, h.closed]
      change min self.history _ = _
      rw [hkept]
      omega
    · rw [hopened, hsome]
      rfl
    · intro b hin
      rw [hopened, ← hbucket b hin]
      rfl
  · rw [gap_unraised c _ hone] at hraised
    cases hraised

/-- After some ticks, the candles are those the buckets have moved on by. -/
theorem run_warm (host : DateTime → Int) (ticks : List PriceTick) (hhistory : 1 ≤ self.history)
    (hcurrent : self.current = none) (hclosed : self.closed = []) :
    (self.run host ticks).agg.Warm self.fixed
      (ticks.map (fun t => self.bucketOf host t.ts)) := by
  induction ticks using List.reverseRecOn with
  | nil =>
      refine ⟨rfl, ?_, ?_, fun _ h => by cases h⟩
      · change self.closed.length = min self.history 0
        rw [hclosed, Nat.min_zero]
        rfl
      · change self.current.isSome = false
        rw [hcurrent]
        rfl
  | append_singleton front t ih =>
      rw [run_concat, List.map_append, List.map_singleton]
      have hnext := warm_tick host t self.fixed _ hhistory ih
      -- The period is the one at the start, and with it the buckets.
      have hperiod : (self.run host front).agg.periodS = self.periodS := congrArg Prod.fst ih.same
      rw [bucketOf, hperiod] at hnext
      exact hnext

end CandleAggregator

namespace TickerFeed

section Runs

variable (loads : String → Option JsonTree) (parse : String → Option ℚ) (host : DateTime → Int)

/-- The price of an underlying that a message carries. -/
def tickOf (u : Underlying) (now : DateTime) (msg : JsonFields) : Option PriceTick :=
  match pricedMark parse msg with
  | none => none
  | some m => if m.1 = u then some { ts := now, price := m.2 } else none

/-- The price that an event hands to the aggregators of an underlying. -/
def ticked (u : Underlying) (s : TickerFeed) : FeedEvent → Option PriceTick
  | .drain now => if s.draining then s.queue.waiting.head?.bind (tickOf parse u now) else none
  | _ => none

/-- The prices that a run hands to them. -/
def ticks (u : Underlying) (s : TickerFeed) : List FeedEvent → List PriceTick
  | [] => []
  | e :: rest => (ticked parse u s e).toList ++ ticks u (step loads parse host s e) rest

variable {loads parse host}

/-- What becomes of the aggregators of an underlying. -/
def Ticks (u : Underlying) (host : DateTime → Int) (s s' : TickerFeed) (ticks : List PriceTick) :
    Prop :=
  (s'.candles u).m15 = ((s.candles u).m15.run host ticks).agg ∧
    (s'.candles u).h1 = ((s.candles u).h1.run host ticks).agg ∧
    ((s'.marks u).isSome = ((s.marks u).isSome || !ticks.isEmpty))

theorem ticks_none (u : Underlying) (s s' : TickerFeed) (hcandles : s'.candles u = s.candles u)
    (hmarks : s'.marks u = s.marks u) : Ticks u host s s' [] := by
  refine ⟨?_, ?_, ?_⟩
  · rw [hcandles]
    rfl
  · rw [hcandles]
    rfl
  · rw [hmarks, List.isEmpty_nil, Bool.not_true, Bool.or_false]

/-- A message hands its price to the aggregators of its underlying. -/
theorem handle_ticks (u : Underlying) (msg : JsonFields) (now : DateTime) (s : TickerFeed)
    (h : s.Tracks) :
    Ticks u host s (s.handle parse host msg now).1 (tickOf parse u now msg).toList := by
  unfold tickOf handle pricedMark
  cases tickerSymbol msg with
  | none => exact ticks_none u s _ rfl rfl
  | some sym =>
      simp only [Option.bind_some]
      cases markUnderlying sym with
      | some v =>
          simp only [setMark]
          cases (markPrice msg).asFloat parse with
          | error e => exact ticks_none u s _ rfl rfl
          | ok price =>
              cases price with
              | none => exact ticks_none u s _ rfl rfl
              | some px =>
                  simp only [Option.map_some]
                  by_cases hv : v = u
                  · subst hv
                    have hraised := ((s.candles v).m15.tick_current host { ts := now, price := px }
                      (h v).1.1).1
                    simp only [if_true, Option.toList_some, Ticks, Function.update_self,
                      UnderlyingCandles.addTick, hraised]
                    exact ⟨rfl, rfl, by simp⟩
                  · simp only [if_neg hv, Option.toList_none]
                    refine ticks_none u s _ ?_ ?_
                    · exact Function.update_of_ne (fun heq => hv heq.symm) _ _
                    · exact Function.update_of_ne (fun heq => hv heq.symm) _ _
      | none =>
          cases quoteFromWsTicker parse msg with
          | error e => exact ticks_none u s _ rfl rfl
          | ok snap =>
              cases snap with
              | none => exact ticks_none u s _ rfl rfl
              | some snap => exact ticks_none u s _ rfl rfl

theorem step_ticks (u : Underlying) (s : TickerFeed) (e : FeedEvent) (h : s.Tracks) :
    Ticks u host s (step loads parse host s e) (ticked parse u s e).toList := by
  cases e with
  | frame raw =>
      simp only [step, pump, ticked]
      cases message loads raw with
      | none => exact ticks_none u s _ rfl rfl
      | some msg => exact ticks_none u s _ rfl rfl
  | drain now =>
      rw [step, drain, ticked]
      by_cases hdraining : s.draining = true
      · rw [if_pos hdraining, if_pos hdraining]
        cases hwaiting : s.queue.waiting.head? with
        | none => exact ticks_none u s s rfl rfl
        | some msg => exact handle_ticks u msg now { s with queue := s.queue.get } h
      · rw [if_neg hdraining, if_neg hdraining]
        exact ticks_none u s s rfl rfl
  | products products => exact ticks_none u s _ rfl rfl
  | tickers tickers => exact ticks_none u s _ rfl rfl

variable (loads parse host)

/-- A run hands the prices it handles to the aggregators of their underlying. -/
theorem run_candles (u : Underlying) (s : TickerFeed) (h : s.Tracks) (events : List FeedEvent) :
    Ticks u host s (events.foldl (step loads parse host) s)
      (ticks loads parse host u s events) := by
  have hrun : ∀ (agg : CandleAggregator) (first : Option PriceTick) (rest : List PriceTick),
      ((agg.run host first.toList).agg.run host rest).agg =
        (agg.run host (first.toList ++ rest)).agg := by
    intro agg first rest
    induction rest using List.reverseRecOn with
    | nil => rw [List.append_nil]; rfl
    | append_singleton front t ih =>
        rw [CandleAggregator.run_concat, ← List.append_assoc, CandleAggregator.run_concat,
          Handled.tick, Handled.tick, ih]
  induction events generalizing s with
  | nil => exact ticks_none u s s rfl rfl
  | cons e rest ih =>
      rcases step_ticks u s e h with ⟨hm15, hh1, hmark⟩
      rcases ih (step loads parse host s e) (step_spec s e h).1 with ⟨hm15', hh1', hmark'⟩
      rw [List.foldl_cons, ticks]
      refine ⟨?_, ?_, ?_⟩
      · rw [hm15', hm15, hrun]
      · rw [hh1', hh1, hrun]
      · rw [hmark', hmark]
        cases ticked parse u s e with
        | none => simp
        | some t => simp

end Runs

/-- The seconds of a timeframe that has an aggregator. -/
def periodOf : Timeframe → Option Int
  | .m15 => some 900
  | .h1 => some 3600
  | _ => none

/-- The buckets of some prices, as the host reads their times. -/
def bucketsOf (host : DateTime → Int) (periodS : Int) (ticks : List PriceTick) : List Int :=
  ticks.map (fun t => truncate (t.ts.timestamp (host t.ts)) / periodS)

/-- The candles of a timeframe after some prices. -/
def bars (host : DateTime → Int) (tf : Timeframe) (ticks : List PriceTick) : Nat :=
  match periodOf tf with
  | none => 0
  | some periodS =>
    if ticks = [] then 0 else min 512 (advance (bucketsOf host periodS ticks)) + 1

end TickerFeed

open TickerFeed (periodOf bucketsOf bars)

namespace CandleAggregator

/-- What an aggregator that was started fresh has after some prices. -/
theorem run_length (self : CandleAggregator) (host : DateTime → Int) (ticks : List PriceTick)
    (periodS : Int) (hfixed : self.fixed = (periodS, 512)) (hcurrent : self.current = none)
    (hclosed : self.closed = []) :
    ((self.run host ticks).agg.closed ++ (self.run host ticks).agg.current.toList).length =
      if ticks = [] then 0 else min 512 (advance (bucketsOf host periodS ticks)) + 1 := by
  have hhistory : self.history = 512 := congrArg Prod.snd hfixed
  have hperiod : self.periodS = periodS := congrArg Prod.fst hfixed
  have hwarm := self.run_warm host ticks (by omega) hcurrent hclosed
  have hcount := hwarm.closed
  have hpresent := hwarm.current
  rw [hfixed] at hcount
  simp only [bucketOf, hperiod] at hcount hpresent
  rw [List.length_append, hcount]
  cases ticks with
  | nil =>
      rw [if_pos rfl]
      cases hlast : (self.run host []).agg.current with
      | none => rfl
      | some c =>
          rw [hlast] at hpresent
          cases hpresent
  | cons t rest =>
      rw [if_neg (List.cons_ne_nil t rest)]
      cases hlast : (self.run host (t :: rest)).agg.current with
      | none =>
          rw [hlast] at hpresent
          cases hpresent
      | some c => rfl

end CandleAggregator

namespace DirectionalStrategy

variable (self : DirectionalStrategy) (market : MarketState) (underlying : Underlying)

/-- Behind the first checks, a decision has another reason. -/
theorem enter_reason (spot : ℚ) (optionType : OptionType) (features : Features) :
    (self.enter market underlying spot optionType features).reason ≠ .missingSpot ∧
      (self.enter market underlying spot optionType features).reason ≠ .insufficientHistory := by
  unfold enter
  simp only
  split_ifs
  · exact ⟨(fun h => by cases h), (fun h => by cases h)⟩
  · split
    · exact ⟨(fun h => by cases h), (fun h => by cases h)⟩
    · split_ifs
      · exact ⟨(fun h => by cases h), (fun h => by cases h)⟩
      · exact ⟨(fun h => by cases h), (fun h => by cases h)⟩

/-- With a price and enough history it fails for neither. -/
theorem evaluateOne_ready (spot : ℚ)
    (hcool : self.context.isUnderlyingInCooldown underlying market.now = false)
    (hspot : market.spot underlying = some spot)
    (hbars : ¬ ((market.candles underlying self.config.entry.timeframe).length : Int) <
      self.config.entry.minBars) (d : Decision)
    (h : self.evaluateOne market underlying = .ok d) :
    d.reason ≠ .missingSpot ∧ d.reason ≠ .insufficientHistory := by
  unfold evaluateOne at h
  simp only [hcool, hspot, hbars, Bool.false_eq_true, if_false] at h
  split at h
  · cases h
  · cases h
    exact ⟨(fun h => by cases h), (fun h => by cases h)⟩
  · split_ifs at h
    · cases h
      exact self.enter_reason market underlying _ _ _
    · cases h
      exact self.enter_reason market underlying _ _ _
    · cases h
      exact ⟨(fun h => by cases h), (fun h => by cases h)⟩

/-- While it cools down it fails for that. -/
theorem evaluateOne_cooling
    (hcool : self.context.isUnderlyingInCooldown underlying market.now = true) :
    ∃ d, self.evaluateOne market underlying = .ok d ∧ d.reason = .cooldownActive := by
  unfold evaluateOne
  simp only [hcool, if_true]
  exact ⟨_, rfl, rfl⟩

/-- Without a price it fails for the price. -/
theorem evaluateOne_priceless
    (hcool : self.context.isUnderlyingInCooldown underlying market.now = false)
    (hspot : market.spot underlying = none) :
    ∃ d, self.evaluateOne market underlying = .ok d ∧ d.reason = .missingSpot := by
  unfold evaluateOne
  simp only [hcool, hspot, Bool.false_eq_true, if_false]
  exact ⟨_, rfl, rfl⟩

/-- With a price and too few candles it fails for the history. -/
theorem evaluateOne_short (spot : ℚ)
    (hcool : self.context.isUnderlyingInCooldown underlying market.now = false)
    (hspot : market.spot underlying = some spot)
    (hbars : ((market.candles underlying self.config.entry.timeframe).length : Int) <
      self.config.entry.minBars) :
    ∃ d, self.evaluateOne market underlying = .ok d ∧ d.reason = .insufficientHistory := by
  unfold evaluateOne
  simp only [hcool, hspot, hbars, Bool.false_eq_true, if_false, if_true]
  exact ⟨_, rfl, rfl⟩

/-- When a decision fails for the price or for the history. -/
theorem evaluateOne_unready :
    ((∃ d, self.evaluateOne market underlying = .ok d ∧ d.reason = .missingSpot) ↔
      self.context.isUnderlyingInCooldown underlying market.now = false ∧
        market.spot underlying = none) ∧
    ((∃ d, self.evaluateOne market underlying = .ok d ∧ d.reason = .insufficientHistory) ↔
      self.context.isUnderlyingInCooldown underlying market.now = false ∧
        market.spot underlying ≠ none ∧
        ((market.candles underlying self.config.entry.timeframe).length : Int) <
          self.config.entry.minBars) := by
  -- A decision that is made has one reason.
  have hone : ∀ r r' : StrategyReason, r ≠ r' →
      (∃ d, self.evaluateOne market underlying = .ok d ∧ d.reason = r) →
      ¬ ∃ d, self.evaluateOne market underlying = .ok d ∧ d.reason = r' := by
    rintro r r' hne ⟨d, hd, rfl⟩ ⟨d', hd', rfl⟩
    rw [hd, Except.ok.injEq] at hd'
    exact hne (congrArg Decision.reason hd')
  by_cases hcool : self.context.isUnderlyingInCooldown underlying market.now = true
  · have hcooling := self.evaluateOne_cooling market underlying hcool
    have hnot : ¬ self.context.isUnderlyingInCooldown underlying market.now = false := by
      rw [hcool]
      exact Bool.noConfusion
    have hmissing := hone .cooldownActive .missingSpot StrategyReason.noConfusion hcooling
    have hhistory := hone .cooldownActive .insufficientHistory StrategyReason.noConfusion hcooling
    exact ⟨iff_of_false hmissing (fun h => hnot h.1), iff_of_false hhistory (fun h => hnot h.1)⟩
  · rw [Bool.not_eq_true] at hcool
    cases hspot : market.spot underlying with
    | none =>
        have hmissing := self.evaluateOne_priceless market underlying hcool hspot
        have hhistory := hone .missingSpot .insufficientHistory StrategyReason.noConfusion hmissing
        exact ⟨iff_of_true hmissing ⟨hcool, rfl⟩, iff_of_false hhistory (fun h => h.2.1 rfl)⟩
    | some spot =>
        by_cases hbars : ((market.candles underlying self.config.entry.timeframe).length : Int) <
            self.config.entry.minBars
        · have hshort := self.evaluateOne_short market underlying spot hcool hspot hbars
          have hmissing := hone .insufficientHistory .missingSpot StrategyReason.noConfusion hshort
          refine ⟨iff_of_false hmissing (fun h => ?_), iff_of_true hshort ⟨hcool, ?_, hbars⟩⟩
          · cases h.2
          · exact Option.some_ne_none spot
        · have hready := self.evaluateOne_ready market underlying spot hcool hspot hbars
          refine ⟨iff_of_false ?_ (fun h => ?_), iff_of_false ?_ (fun h => hbars h.2.2)⟩
          · rintro ⟨d, hd, hr⟩
            exact (hready d hd).1 hr
          · cases h.2
          · rintro ⟨d, hd, hr⟩
            exact (hready d hd).2 hr

end DirectionalStrategy

/-- What a process can decide on after a start: it has no price for an underlying until it has
    handled one, and not enough history until the buckets of the prices it has handled have moved
    on far enough. While its clock does not go back, that is from the first to the last. -/
theorem directional_warm_up (loads : String → Option JsonTree) (parse : String → Option ℚ)
    (host : DateTime → Int) (self : DirectionalStrategy) (maxsize : Int) (events : List FeedEvent)
    (now : DateTime) (usdInrRate : ℚ) (u : Underlying) :
    let s := TickerFeed.start maxsize
    let market := (events.foldl (TickerFeed.step loads parse host) s).market now usdInrRate
    let ticks := s.ticks loads parse host u events
    let tf := self.config.entry.timeframe
    ((∃ d, self.evaluateOne market u = .ok d ∧ d.reason = .missingSpot) ↔
      self.context.isUnderlyingInCooldown u now = false ∧ ticks = []) ∧
    ((∃ d, self.evaluateOne market u = .ok d ∧ d.reason = .insufficientHistory) ↔
      self.context.isUnderlyingInCooldown u now = false ∧ ticks ≠ [] ∧
        (bars host tf ticks : Int) < self.config.entry.minBars) ∧
    ∀ periodS, periodOf tf = some periodS → (bucketsOf host periodS ticks).Pairwise (· ≤ ·) →
      ∀ first last, (bucketsOf host periodS ticks).head? = some first →
        (bucketsOf host periodS ticks).getLast? = some last →
        (bars host tf ticks : Int) = min 512 (last - first) + 1 := by
  intro s market ticks tf
  rcases TickerFeed.run_candles loads parse host u s (TickerFeed.start_tracks maxsize) events with
    ⟨hm15, hh1, hmark⟩
  have hspot : market.spot u = none ↔ ticks = [] := by
    have hstart : (s.marks u).isSome = false := rfl
    rw [hstart, Bool.false_or] at hmark
    rw [← Option.not_isSome_iff_eq_none]
    change ¬ ((events.foldl (TickerFeed.step loads parse host) s).marks u).isSome = true ↔ _
    rw [hmark, Bool.not_eq_true, Bool.not_eq_false', List.isEmpty_iff]
  have hlength : (market.candles u tf).length = bars host tf ticks := by
    change (((events.foldl (TickerFeed.step loads parse host) s).candles u).candles tf).length = _
    cases tf with
    | m15 =>
        simp only [UnderlyingCandles.candles, List.length_map, hm15]
        exact CandleAggregator.run_length _ host _ 900 rfl rfl rfl
    | h1 =>
        simp only [UnderlyingCandles.candles, List.length_map, hh1]
        exact CandleAggregator.run_length _ host _ 3600 rfl rfl rfl
    | h4 => rfl
    | d1 => rfl
  rcases self.evaluateOne_unready market u with ⟨hmissing, hhistory⟩
  refine ⟨?_, ?_, ?_⟩
  · rw [hmissing, hspot]
    exact Iff.rfl
  · rw [hhistory, ne_eq, hspot, hlength]
    exact Iff.rfl
  · intro periodS hperiod hordered first last hfirst hlast
    have hway := advance_forward _ hordered first last hfirst hlast
    have hsome : ticks ≠ [] := by
      intro hnil
      rw [hnil] at hfirst
      cases hfirst
    unfold bars
    rw [hperiod]
    simp only [if_neg hsome]
    omega

/-- A frame with a price, and then the round of the drain loop that handles it, at ten past ten and
    at twenty past one. -/
def outageEvents : List FeedEvent :=
  [.frame "first", .drain (priceAt 10 10).ts, .frame "second", .drain (priceAt 13 20).ts]

/-- Every frame reads as a price. -/
def priceFrame : String → Option JsonTree := fun _ =>
  some (.object [("type", .text "v2/ticker"), ("symbol", .text "BTCUSD"),
    ("mark_price", .integer 97000)])

/-- The prices that are handled. -/
def outageTicks : List PriceTick :=
  (TickerFeed.start 10).ticks priceFrame (fun _ => none) utc .btc outageEvents

theorem outageTicks_buckets : bucketsOf utc 900 outageTicks = [1976200, 1976213] := by
  decide +kernel

/-- The quarters of the outage count: there are fourteen candles of two prices. -/
theorem directional_warm_up_outage : (bars utc .m15 outageTicks : Int) = 14 := by
  have hforward : (bucketsOf utc 900 outageTicks).Pairwise (· ≤ ·) := by
    rw [outageTicks_buckets]
    decide
  have hcount := (directional_warm_up priceFrame (fun _ => none) utc
    DirectionalStrategy.shippedDirectional 10 outageEvents (priceAt 13 20).ts 85 .btc).2.2 900 rfl
    hforward 1976200 1976213 (congrArg List.head? outageTicks_buckets)
    (congrArg List.getLast? outageTicks_buckets)
  exact hcount.trans (by decide)

end OptionsBot
