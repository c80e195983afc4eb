import OptionsBot.Core.TickerFeed
import OptionsBot.Lib.LastWrite
import OptionsBot.Theory.CandleLabels

/-!
# What the Feed Delivers

Between a frame on the wire and the market of a tick stand a queue that drops what it cannot
hold, a loop that takes from it, and two aggregators for each underlying.

Of the messages that arrive, those that are handled and those that still wait are what the
queue has not turned away, in the order of arrival. Whether it ever turns one away depends on
how the frames and the rounds of the drain loop follow each other: no stretch may bring so many
more messages than rounds that the queue cannot hold them.

What the strategies get is up to date with what was handled. The spot price of an underlying is
that of its last ticker with a price, and whatever the time, the last candle of both timeframes
closes at it. The quote of an option is the last that either of two tasks has written.

## Main definitions

* `TickerFeed.acts`, `TickerFeed.handled`: What a run does to the queue, and what it handles.
* `TickerFeed.arrived`: The messages of its frames.
* `pricedMark`: The underlying and the price that a message carries.
* `TickerFeed.written`: The quotes that a run writes.
* `TickerFeed.Tracks`: The last candles close at the marks.

## Theorems

* `feed_lossless_iff`: What is handled and when nothing is lost.
* `feed_market_current`: The market of a tick.
-/

namespace OptionsBot

/-- The underlying of a ticker and its price, as far as it has one that fits a float. -/
def pricedMark (parse : String → Option ℚ) (msg : JsonFields) : Option (Underlying × ℚ) :=
  match (tickerSymbol msg).bind markUnderlying with
  | none => none
  | some u =>
    match (markPrice msg).asFloat parse with
    | .ok price => price.map (fun px => (u, px))
    | .error _ => none

/-- The quote of an option ticker, as far as it can be read. -/
def tickerWrite (parse : String → Option ℚ) (msg : JsonFields) : Option TickerQuote :=
  match tickerSymbol msg with
  | none => none
  | some sym =>
    match markUnderlying sym with
    | some _ => none
    | none =>
      match quoteFromWsTicker parse msg with
      | .ok snap => snap
      | .error _ => none

namespace UnderlyingCandles

/-- The close of the last candle of both timeframes. -/
def CloseAt (cs : UnderlyingCandles) (price : Option ℚ) : Prop :=
  cs.m15.lastClose = price ∧ cs.h1.lastClose = price

theorem addTick_keeps (host : DateTime → Int) (tick : PriceTick) (cs : UnderlyingCandles)
    (h : cs.Keeps) :
    (cs.addTick host tick).2 = none ∧ (cs.addTick host tick).1.Keeps ∧
      (cs.addTick host tick).1.CloseAt (some tick.price) := by
  have hfirst := (cs.m15.tick_current host tick h.1).1
  have hm15 : (cs.m15.addTick host tick).agg.history = cs.m15.history :=
    congrArg Prod.snd (CandleAggregator.addTick_fixed host tick)
  have hh1 : (cs.h1.addTick host tick).agg.history = cs.h1.history :=
    congrArg Prod.snd (CandleAggregator.addTick_fixed host tick)
  simp only [addTick, hfirst]
  refine ⟨(cs.h1.tick_current host tick h.2).1, ⟨?_, ?_⟩,
    cs.m15.addTick_lastClose host tick h.1, cs.h1.addTick_lastClose host tick h.2⟩
  · exact h.1.trans_eq hm15.symm
  · exact h.2.trans_eq hh1.symm

/-- The last candle for the strategies is the current one, if there is one. -/
theorem candles_getLast? (cs : UnderlyingCandles) (price : Option ℚ) (h : cs.CloseAt price)
    (hempty : price = none → cs.m15.closed = [] ∧ cs.h1.closed = []) (tf : Timeframe)
    (htf : tf = .m15 ∨ tf = .h1) : (cs.candles tf).getLast?.map Candle.close = price := by
  have hclose : ∀ agg : CandleAggregator, agg.lastClose = price →
      (price = none → agg.closed = []) →
      ((agg.closed ++ agg.current.toList).map Ohlcv.toCandle).getLast?.map Candle.close =
        price := by
    intro agg hlast hnone
    cases hcurrent : agg.current with
    | none =>
        rw [CandleAggregator.lastClose, hcurrent, Option.map_none] at hlast
        rw [hnone hlast.symm, ← hlast]
        rfl
    | some c =>
        rw [CandleAggregator.lastClose, hcurrent] at hlast
        rw [Option.toList_some, List.map_append, List.map_singleton, List.getLast?_concat, ← hlast]
        rfl
  rcases htf with rfl | rfl
  · exact hclose cs.m15 h.1 (fun hnone => (hempty hnone).1)
  · exact hclose cs.h1 h.2 (fun hnone => (hempty hnone).2)

end UnderlyingCandles

namespace TickerFeed

section Runs

variable (loads : String → Option JsonTree) (parse : String → Option ℚ) (host : DateTime → Int)

/-- What an event does to the queue. A drain loop that has ended takes nothing. -/
def act (s : TickerFeed) : FeedEvent → List (QueueAct JsonFields)
  | .frame raw => (message loads raw).toList.map QueueAct.put
  | .drain _ => if s.draining then [.get] else []
  | _ => []

/-- What a run does to the queue. -/
def acts (s : TickerFeed) : List FeedEvent → List (QueueAct JsonFields)
  | [] => []
  | e :: rest => act loads s e ++ acts (step loads parse host s e) rest

/-- The message that arrives with an event. -/
def arrives : FeedEvent → Option JsonFields
  | .frame raw => message loads raw
  | _ => none

/-- The messages of the frames of a run. -/
def arrived (events : List FeedEvent) : List JsonFields := events.filterMap (arrives loads)

/-- The messages that a run handles. -/
def handled (s : TickerFeed) (events : List FeedEvent) : List JsonFields :=
  s.queue.delivered (acts loads parse host s events)

/-- The quotes that an event writes. -/
def writes (s : TickerFeed) : FeedEvent → List TickerQuote
  | .drain _ =>
    if s.draining then (s.queue.waiting.head?.bind (tickerWrite parse)).toList else []
  | .tickers tickers => (forEach (tickerToSnapshot parse) tickers).1.reduceOption
  | _ => []

/-- The quotes that a run writes, in the order of the writes. -/
def written (s : TickerFeed) : List FeedEvent → List TickerQuote
  | [] => []
  | e :: rest => writes parse s e ++ written (step loads parse host s e) rest

/-- For each underlying, the last candle of both timeframes closes at its mark, and without a mark
    there is no candle. -/
def Tracks (s : TickerFeed) : Prop :=
  ∀ u, (s.candles u).Keeps ∧ (s.candles u).CloseAt (s.marks u) ∧
    (s.marks u = none → (s.candles u).m15.closed = [] ∧ (s.candles u).h1.closed = [])

theorem start_tracks (maxsize : Int) : (start maxsize).Tracks :=
  fun _ => ⟨⟨Nat.one_le_ofNat, Nat.one_le_ofNat⟩, ⟨rfl, rfl⟩, fun _ => ⟨rfl, rfl⟩⟩

variable {loads parse host}

/-- A price becomes the mark of its underlying and the close of its candles. -/
theorem setMark_spec (u : Underlying) (msg : JsonFields) (now : DateTime) (s : TickerFeed)
    (h : s.Tracks) :
    (s.setMark parse host u msg now).1.Tracks ∧
      (s.setMark parse host u msg now).1.queue = s.queue ∧
      (s.setMark parse host u msg now).1.chain = s.chain ∧
      (s.setMark parse host u msg now).1.marks =
        match (markPrice msg).asFloat parse with
        | .ok (some px) => Function.update s.marks u (some px)
        | _ => s.marks := by
  unfold setMark
  cases (markPrice msg).asFloat parse with
  | error e => exact ⟨h, rfl, rfl, rfl⟩
  | ok price =>
      cases price with
      | none => exact ⟨h, rfl, rfl, rfl⟩
      | some px =>
          refine ⟨fun v => ?_, rfl, rfl, rfl⟩
          rcases UnderlyingCandles.addTick_keeps host { ts := now, price := px } (s.candles u)
            (h u).1 with ⟨_, hkeeps, hcloses⟩
          by_cases hv : v = u
          · subst hv
            simp only [Function.update_self]
            exact ⟨hkeeps, hcloses, fun hnone => absurd hnone (Option.some_ne_none px)⟩
          · simp only [Function.update_of_ne hv]
            exact h v

/-- A message sets the mark it carries and writes the quote it carries, and keeps the last candles
    at the marks. -/
theorem handle_spec (msg : JsonFields) (now : DateTime) (s : TickerFeed) (h : s.Tracks) :
    (s.handle parse host msg now).1.Tracks ∧
      (s.handle parse host msg now).1.queue = s.queue ∧
      (s.handle parse host msg now).1.chain =
        s.chain.upsertQuotes (tickerWrite parse msg).toList ∧
      (s.handle parse host msg now).1.marks =
        match pricedMark parse msg with
        | none => s.marks
        | some m => Function.update s.marks m.1 (some m.2) := by
  unfold handle pricedMark tickerWrite
  cases tickerSymbol msg with
  | none => exact ⟨h, rfl, rfl, rfl⟩
  | some sym =>
      simp only [Option.bind_some]
      cases markUnderlying sym with
      | some u =>
          rcases setMark_spec u msg now s h with
            ⟨htracks, hqueue, hchain, hmarks⟩
          refine ⟨htracks, hqueue, hchain, hmarks.trans ?_⟩
          cases (markPrice msg).asFloat parse with
          | error e => rfl
          | ok price =>
              cases price with
              | none => rfl
              | some px => rfl
      | none =>
          cases quoteFromWsTicker parse msg with
          | error e => exact ⟨h, rfl, rfl, rfl⟩
          | ok snap =>
              cases snap with
              | none => exact ⟨h, rfl, rfl, rfl⟩
              | some snap => exact ⟨h, rfl, rfl, rfl⟩

/-- The mark of an underlying after some messages were handled. -/
theorem mark_or (u : Underlying) (msg : JsonFields) (marks : Underlying → Option ℚ) :
    (match pricedMark parse msg with
      | none => marks
      | some m => Function.update marks m.1 (some m.2)) u =
      (lastWrite Prod.fst Prod.snd u ([msg].filterMap (pricedMark parse))).or (marks u) := by
  rw [← foldl_update_apply Prod.fst Prod.snd, List.filterMap_cons, List.filterMap_nil]
  cases pricedMark parse msg with
  | none => rfl
  | some m => rfl

theorem upsertQuotes_apply (chain : ChainCache) (snaps : List TickerQuote) (symbol : String) :
    (chain.upsertQuotes snaps).getQuote symbol =
      (lastWrite TickerQuote.symbol TickerQuote.toQuoteSnapshot symbol snaps).or
        (chain.getQuote symbol) := by
  rw [ChainCache.getQuote, ChainCache.getQuote, ← foldl_update_apply]
  unfold ChainCache.upsertQuotes
  induction snaps generalizing chain with
  | nil => rfl
  | cons snap rest ih =>
      have hwritten : (chain.upsertQuote snap.symbol snap.toQuoteSnapshot).quotes =
          Function.update chain.quotes snap.symbol (some snap.toQuoteSnapshot) := by
        funext t
        rw [Function.update_apply]
        rfl
      rw [List.foldl_cons, List.foldl_cons, ih, hwritten]

/-- What an event does: the acts on the queue, the marks of the message it handles, and the quotes
    it writes. -/
theorem step_spec (s : TickerFeed) (e : FeedEvent) (h : s.Tracks) :
    (step loads parse host s e).Tracks ∧
      (step loads parse host s e).queue = (act loads s e).foldl BoundedQueue.step s.queue ∧
      (∀ u, (step loads parse host s e).marks u =
        (lastWrite Prod.fst Prod.snd u
          ((s.queue.delivered (act loads s e)).filterMap (pricedMark parse))).or (s.marks u)) ∧
      ∀ symbol, (step loads parse host s e).chain.getQuote symbol =
        (lastWrite TickerQuote.symbol TickerQuote.toQuoteSnapshot symbol (writes parse s e)).or
          (s.chain.getQuote symbol) := by
  cases e with
  | frame raw =>
      simp only [step, pump, act, writes]
      cases message loads raw with
      | none => exact ⟨h, rfl, fun u => rfl, fun symbol => rfl⟩
      | some msg => exact ⟨h, rfl, fun u => rfl, fun symbol => rfl⟩
  | drain now =>
      rw [step, drain, act, writes]
      by_cases hdraining : s.draining = true
      · rw [if_pos hdraining, if_pos hdraining, if_pos hdraining]
        cases hwaiting : s.queue.waiting.head? with
        | none =>
            -- Nothing waits: the round ends as it began.
            have hget := s.queue.get_of_nil (List.head?_eq_none_iff.mp hwaiting)
            simp only [List.foldl_cons, List.foldl_nil, BoundedQueue.step, hget,
              BoundedQueue.delivered, hwaiting]
            exact ⟨h, trivial, fun u => rfl, fun symbol => rfl⟩
        | some msg =>
            rcases handle_spec msg now
              { s with queue := s.queue.get } h with ⟨htracks, hqueue, hchain, hmarks⟩
            refine ⟨htracks, hqueue, fun u => ?_, fun symbol => ?_⟩
            · simp only [BoundedQueue.delivered, hwaiting, Option.toList_some, List.append_nil]
              exact (congrFun hmarks u).trans (mark_or u msg s.marks)
            · simp only
              rw [hchain]
              exact upsertQuotes_apply _ _ _
      · rw [if_neg hdraining, if_neg hdraining, if_neg hdraining]
        exact ⟨h, rfl, fun u => rfl, fun symbol => rfl⟩
  | products products => exact ⟨h, rfl, fun u => rfl, fun symbol => rfl⟩
  | tickers tickers => exact ⟨h, rfl, fun u => rfl, fun symbol => upsertQuotes_apply _ _ _⟩

variable (loads parse host)

/-- What a run does. -/
theorem run_spec (s : TickerFeed) (h : s.Tracks) (events : List FeedEvent) :
    (events.foldl (step loads parse host) s).Tracks ∧
      (events.foldl (step loads parse host) s).queue =
        (acts loads parse host s events).foldl BoundedQueue.step s.queue ∧
      (∀ u, (events.foldl (step loads parse host) s).marks u =
        (lastWrite Prod.fst Prod.snd u
          ((handled loads parse host s events).filterMap (pricedMark parse))).or (s.marks u)) ∧
      ∀ symbol, (events.foldl (step loads parse host) s).chain.getQuote symbol =
        (lastWrite TickerQuote.symbol TickerQuote.toQuoteSnapshot symbol
          (written loads parse host s events)).or (s.chain.getQuote symbol) := by
  induction events generalizing s with
  | nil => exact ⟨h, rfl, fun u => rfl, fun symbol => rfl⟩
  | cons e rest ih =>
      rcases step_spec s e h with ⟨htracks, hqueue, hmarks, hquotes⟩
      rcases ih (step loads parse host s e) htracks with ⟨htracks', hqueue', hmarks', hquotes'⟩
      refine ⟨htracks', ?_, fun u => ?_, fun symbol => ?_⟩
      · rw [List.foldl_cons, hqueue', hqueue, acts, List.foldl_append]
      · rw [List.foldl_cons, hmarks', hmarks, ← Option.or_assoc, ← lastWrite_append,
          ← List.filterMap_append]
        congr 3
        rw [handled, handled, acts, BoundedQueue.delivered_append, hqueue]
      · rw [List.foldl_cons, hquotes', hquotes, ← Option.or_assoc, ← lastWrite_append, written]

/-- What a run puts into the queue are the messages of its frames. -/
theorem offered_acts (s : TickerFeed) (events : List FeedEvent) :
    BoundedQueue.offered (acts loads parse host s events) = arrived loads events := by
  induction events generalizing s with
  | nil => rfl
  | cons e rest ih =>
      rw [acts, BoundedQueue.offered_append, ih, arrived, arrived, List.filterMap_cons]
      cases e with
      | frame raw =>
          simp only [act, arrives]
          cases message loads raw with
          | none => rfl
          | some msg => rfl
      | drain now =>
          simp only [act, arrives]
          split_ifs
          · rfl
          · rfl
      | products products => rfl
      | tickers tickers => rfl

end Runs

end TickerFeed

variable (loads : String → Option JsonTree) (parse : String → Option ℚ) (host : DateTime → Int)

/-- In every order of frames, drain rounds and chain refreshes: what is handled and then what
    waits is what of the messages was not turned away, in the order of arrival. None is turned
    away exactly if no stretch of the run puts so many more than it takes that the queue cannot
    hold them, and then every message is handled or waits. -/
theorem feed_lossless_iff (maxsize : Int) (hpos : 0 < maxsize) (events : List FeedEvent) :
    let s := TickerFeed.start maxsize
    let acts := s.acts loads parse host events
    let last := events.foldl (TickerFeed.step loads parse host) s
    s.queue.accepted acts = s.handled loads parse host events ++ last.queue.waiting ∧
      (s.queue.accepted acts).Sublist (TickerFeed.arrived loads events) ∧
      (TickerFeed.arrived loads events).length =
        (s.queue.accepted acts).length + (s.queue.refused acts).length ∧
      (last.queue.waiting.length : Int) ≤ maxsize ∧
      (s.handled loads parse host events ++ last.queue.waiting = TickerFeed.arrived loads events ↔
        Stretches (fun between => BoundedQueue.demand between ≤ maxsize) acts) := by
  intro s acts last
  have htracks : s.Tracks := TickerFeed.start_tracks maxsize
  have hqueue := (TickerFeed.run_spec loads parse host s htracks events).2.1
  have hconserved := s.queue.waiting_append_accepted acts
  rw [← hqueue] at hconserved
  have hoffered := TickerFeed.offered_acts loads parse host s events
  have hlength := s.queue.length_offered acts
  have hsublist := s.queue.accepted_sublist acts
  rw [hoffered] at hlength hsublist
  have hsize : last.queue.maxsize = maxsize := by
    change (events.foldl (TickerFeed.step loads parse host) s).queue.maxsize = maxsize
    rw [hqueue]
    exact s.queue.maxsize_run acts
  refine ⟨hconserved, hsublist, hlength, ?_, ?_⟩
  · rw [← hsize]
    exact last.queue.bounded (by rw [hsize]; exact hpos)
  · refine Iff.trans ?_ (s.queue.refused_nil_iff hpos rfl acts)
    constructor
    · intro hall
      have hsame : s.queue.accepted acts = TickerFeed.arrived loads events := hconserved.trans hall
      rw [hsame] at hlength
      exact List.eq_nil_of_length_eq_zero (by omega)
    · intro hnone
      have hall := s.queue.delivered_of_unrefused acts hnone
      rw [hoffered, ← hqueue] at hall
      exact hall

/-- Two messages in a row are one more than a queue of one can hold, so one is lost. -/
theorem feed_second_lost :
    let loads : String → Option JsonTree := fun _ => some (.object [("type", .text "v2/ticker")])
    let events : List FeedEvent := [.frame "a", .frame "b"]
    let s := TickerFeed.start 1
    ¬ s.handled loads (fun _ => none) (fun _ => 0) events ++
      (events.foldl (TickerFeed.step loads (fun _ => none) (fun _ => 0)) s).queue.waiting =
        TickerFeed.arrived loads events := by
  intro loads events s hall
  have hstretch := (feed_lossless_iff loads (fun _ => none) (fun _ => 0) 1 (by decide)
    events).2.2.2.2.mp hall
  exact absurd (hstretch [] _ [] (List.append_nil _).symm) (by decide)

/-- In every order of frames, drain rounds and chain refreshes, the market of a tick is up to date
    with what was handled: the spot price of an underlying is that of the last ticker with a
    price, the last candle of both timeframes closes at it, and the quote of a symbol is the last
    one written. -/
theorem feed_market_current (maxsize : Int) (events : List FeedEvent) (now : DateTime)
    (usdInrRate : ℚ) :
    let s := TickerFeed.start maxsize
    let market := (events.foldl (TickerFeed.step loads parse host) s).market now usdInrRate
    (∀ u, market.spot u =
      lastWrite Prod.fst Prod.snd u
        ((s.handled loads parse host events).filterMap (pricedMark parse))) ∧
      (∀ u tf, tf = .m15 ∨ tf = .h1 →
        (market.candles u tf).getLast?.map Candle.close = market.spot u) ∧
      ∀ symbol, market.chain.getQuote symbol =
        lastWrite TickerQuote.symbol TickerQuote.toQuoteSnapshot symbol
          (s.written loads parse host events) := by
  intro s market
  have htracks : s.Tracks := TickerFeed.start_tracks maxsize
  rcases TickerFeed.run_spec loads parse host s htracks events with
    ⟨htracks', _, hmarks, hquotes⟩
  refine ⟨fun u => (hmarks u).trans (Option.or_none), fun u tf htf => ?_,
    fun symbol => (hquotes symbol).trans (Option.or_none)⟩
  exact UnderlyingCandles.candles_getLast? _ _ (htracks' u).2.1 (htracks' u).2.2 tf htf

end OptionsBot
