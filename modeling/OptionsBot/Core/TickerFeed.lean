import OptionsBot.Core.CandleAggregator
import OptionsBot.Core.Tickers
import OptionsBot.Lib.Queue

/-!
# The Ticker Feed

What brings prices into the engine. The pump of the WebSocket client reads one frame after the
other and puts the messages into a bounded queue, where a message that finds the queue full is
dropped. The drain loop of the engine takes them out: a ticker of an underlying sets its mark
and goes into its two candle aggregators, a ticker of an option goes into the chain cache. A
third task replaces the instruments of the cache and writes the quotes of a ticker list to it.

The three tasks switch where they wait, which is between two of the events here. Nothing guards
the drain loop but a handler for texts and wrong types around the mark, so any other exception
ends it, while the pump goes on.

How a text is decoded, and what a float makes of a text, are parameters.

## Main definitions

* `markUnderlying`, `tickerSymbol`, `markPrice`: The underlying a symbol stands for, the symbol
  of a ticker and the price it carries.
* `UnderlyingCandles`: The two aggregators of an underlying.
* `TickerFeed`: The queue and what the drain loop keeps.
* `TickerFeed.pump`, `TickerFeed.handle`: A frame, and a message.
* `FeedEvent`, `TickerFeed.step`: What happens next, and what it does.
* `TickerFeed.market`: The market of a tick of the main loop, as far as it comes from here.

## Theorems

* `CandleAggregator.addTick_lastClose`: A price is the close of the current candle.
-/

namespace OptionsBot

/-- `_mark_underlying`. -/
def markUnderlying (symbol : String) : Option Underlying :=
  if symbol = "MARK:BTCUSD" ∨ symbol = "BTCUSD" then some .btc
  else if symbol = "MARK:ETHUSD" ∨ symbol = "ETHUSD" then some .eth
  else none

/-- The symbol of a ticker. Other messages, and tickers whose symbol is no text, have none. -/
def tickerSymbol (msg : JsonFields) : Option String :=
  match msg.get "type", msg.get "symbol" with
  | .text type, .text sym => if type = "v2/ticker" then some sym else none
  | _, _ => none

/-- The value that the drain loop takes for the price of an underlying. -/
def markPrice (msg : JsonFields) : JsonTree :=
  match msg.get "mark_price" with
  | .null =>
    (((msg.get "spot_price").or (msg.get "underlying_mark")).or (msg.get "close")).or
      (msg.get "last_price")
  | mp => mp

/-- The aggregators of an underlying, in the order in which the loop goes through them. -/
structure UnderlyingCandles where
  m15 : CandleAggregator :=
    { timeframe := "15m", history := 512, periodS := 900, listed := rfl }
  h1 : CandleAggregator :=
    { timeframe := "1h", history := 512, periodS := 3600, listed := rfl }

namespace UnderlyingCandles

/-- A price at an instant, for one aggregator after the other. -/
def addTick (host : DateTime → Int) (tick : PriceTick) (cs : UnderlyingCandles) :
    UnderlyingCandles × Option PyError :=
  let first := cs.m15.addTick host tick
  match first.raised with
  | some e => ({ cs with m15 := first.agg }, some e)
  | none =>
    let second := cs.h1.addTick host tick
    ({ m15 := first.agg, h1 := second.agg }, second.raised)

/-- Both aggregators keep finalised candles. -/
def Keeps (cs : UnderlyingCandles) : Prop := 1 ≤ cs.m15.history ∧ 1 ≤ cs.h1.history

/-- The candles of a timeframe for the strategies: the closed ones and the current one. -/
def candles (cs : UnderlyingCandles) : Timeframe → List Candle
  | .m15 => (cs.m15.closed ++ cs.m15.current.toList).map Ohlcv.toCandle
  | .h1 => (cs.h1.closed ++ cs.h1.current.toList).map Ohlcv.toCandle
  | _ => []

end UnderlyingCandles

/-- The queue of the WebSocket client, and what the tasks of the engine keep of it. `draining` is
    whether the drain loop is still running. -/
structure TickerFeed where
  messagesReceived : Nat := 0
  queue : BoundedQueue JsonFields
  draining : Bool := true
  marks : Underlying → Option ℚ := fun _ => none
  candles : Underlying → UnderlyingCandles := fun _ => {}
  chain : ChainCache := .empty

/-- What happens between two points where the tasks wait: a frame is read, the drain loop goes on
    at an instant, or the chain refresh has got its reply. -/
inductive FeedEvent where
  | frame (raw : String)
  | drain (now : DateTime)
  | products (products : List Product)
  | tickers (tickers : List JsonFields)

namespace TickerFeed

/-- The feed at a start, with a client whose queue has the given size. -/
def start (queueMaxsize : Int) : TickerFeed := { queue := .new queueMaxsize }

section Events

variable (loads : String → Option JsonTree)

/-- `_parse`: the object of a frame, if it is one. -/
def parseFrame (raw : String) : Option JsonFields :=
  match loads raw with
  | some (.object fields) => some fields
  | _ => none

/-- The message that a frame puts into the queue, if any. -/
def message (raw : String) : Option JsonFields :=
  match parseFrame loads raw with
  | none => none
  | some msg =>
    match msg.get "type" with
    | .text "heartbeat" => none
    | _ => some msg

/-- A round of `_pump`. -/
def pump (raw : String) (s : TickerFeed) : TickerFeed :=
  let received := { s with messagesReceived := s.messagesReceived + 1 }
  match message loads raw with
  | none => received
  | some msg => { received with queue := s.queue.put msg }

variable (parse : String → Option ℚ) (host : DateTime → Int)

/-- A ticker of an underlying. The handler is one for texts and types: a number that does not fit
    a float goes past it. -/
def setMark (u : Underlying) (msg : JsonFields) (now : DateTime) (s : TickerFeed) :
    TickerFeed × Option PyError :=
  match (markPrice msg).asFloat parse with
  | .error e => (s, some e)
  | .ok none => (s, none)
  | .ok (some px) =>
    let ticked := (s.candles u).addTick host { ts := now, price := px }
    ({ s with
        marks := Function.update s.marks u (some px)
        candles := Function.update s.candles u ticked.1 }, ticked.2)

/-- A message that the drain loop has taken, with the exception it raises. -/
def handle (msg : JsonFields) (now : DateTime) (s : TickerFeed) : TickerFeed × Option PyError :=
  match tickerSymbol msg with
  | none => (s, none)
  | some sym =>
    match markUnderlying sym with
    | some u => s.setMark parse host u msg now
    | none =>
      match quoteFromWsTicker parse msg with
      | .error e => (s, some e)
      | .ok none => (s, none)
      | .ok (some snap) =>
        ({ s with chain := s.chain.upsertQuote snap.symbol snap.toQuoteSnapshot }, none)

/-- A round of `ws_drain_loop`. Without a message it waits for another second. -/
def drain (now : DateTime) (s : TickerFeed) : TickerFeed :=
  if s.draining then
    match s.queue.waiting.head? with
    | none => s
    | some msg =>
      let handled := { s with queue := s.queue.get }.handle parse host msg now
      { handled.1 with draining := handled.2.isNone }
  else s

def step (s : TickerFeed) : FeedEvent → TickerFeed
  | .frame raw => s.pump loads raw
  | .drain now => s.drain parse host now
  | .products products => { s with chain := s.chain.refreshInstruments products }
  | .tickers tickers => { s with chain := (s.chain.refreshQuotes parse tickers).1 }

end Events

/-- The market that a tick of the main loop works with, as far as it comes from the feed. -/
def market (s : TickerFeed) (now : DateTime) (usdInrRate : ℚ) : MarketState :=
  { now := now, chain := s.chain, candlesByTf := fun u tf => (s.candles u).candles tf
    underlyingMarks := s.marks, usdInrRate := usdInrRate }

end TickerFeed

/-- The close of the current candle of an aggregator, if it has one. -/
def CandleAggregator.lastClose (self : CandleAggregator) : Option ℚ :=
  self.current.map (fun c => c.close)

theorem CandleAggregator.addTick_lastClose (self : CandleAggregator) (host : DateTime → Int)
    (tick : PriceTick) (hhistory : 1 ≤ self.history) :
    (self.addTick host tick).agg.lastClose = some tick.price := by
  unfold CandleAggregator.lastClose
  rcases (tick_current host tick hhistory).2 with ⟨bucket, hopened⟩ | ⟨c, _, hmerged⟩
  · rw [hopened]
    rfl
  · rw [hmerged]
    rfl

end OptionsBot
