import OptionsBot.Core.Chain
import OptionsBot.Lib.JsonTree

/-!
# Ticker Decoding

Quotes from what the exchange sends: the entries of a ticker list, which is fetched
as a whole, and the single messages of the ticker feed. Either way the data comes as
an object with two more objects inside of it, one for the prices and one for the
greeks, and each way has a decoder of its own.

The two read the same fields in the same order, so they share `tickerQuote`. They
differ in what they do about an inner object that is something else: the one for the
list asks it for its fields all the same, the one for the feed takes it for empty.

A number that comes as a text goes through a parameter for what a float makes of it.

## Main definitions

* `TickerQuote`: A quote with everything a ticker carries.
* `tickerQuote`: The quote of a ticker, given its two inner values.
* `tickerToSnapshot`: The decoder for an entry of the list.
* `quoteFromWsTicker`: The decoder for a message of the feed.
* `ChainCache.refreshQuotes`: Storing the quotes of a ticker list.
-/

namespace OptionsBot

/-- The quote of a symbol, with everything a ticker carries. -/
structure TickerQuote extends QuoteSnapshot where
  symbol : String
  rho : Option ℚ
  underlyingMark : Option ℚ
  volume24h : Option ℚ
  deriving DecidableEq, Repr

section Decoders

variable (parse : String → Option ℚ)

/-- The quote of a ticker. The inner values are asked for their fields where these
    are read, so that is also where something without fields raises. -/
def tickerQuote (symbol : String) (greeks quotes : JsonTree) (t : JsonFields) :
    Except PyError TickerQuote := do
  let bid ← (((← quotes.fields).get "best_bid").or (t.get "best_bid")).asFloat parse
  let ask ← (((← quotes.fields).get "best_ask").or (t.get "best_ask")).asFloat parse
  let markPrice ← (t.get "mark_price").asFloat parse
  let iv ← (((← greeks.fields).get "iv").or (t.get "iv")).asFloat parse
  let delta ← ((← greeks.fields).get "delta").asFloat parse
  let gamma ← ((← greeks.fields).get "gamma").asFloat parse
  let theta ← ((← greeks.fields).get "theta").asFloat parse
  let vega ← ((← greeks.fields).get "vega").asFloat parse
  let rho ← ((← greeks.fields).get "rho").asFloat parse
  let underlyingMark ← ((t.get "spot_price").or (t.get "underlying_mark")).asFloat parse
  let openInterest ←
    (((t.get "oi_contracts").or (t.get "open_interest")).or (t.get "oi")).asFloat parse
  let volume24h ← ((t.get "volume").or (t.get "volume_24h")).asFloat parse
  .ok
    { bid := bid, ask := ask, markPrice := markPrice, iv := iv, delta := delta, gamma := gamma,
      theta := theta, vega := vega, openInterest := openInterest, symbol := symbol, rho := rho,
      underlyingMark := underlyingMark, volume24h := volume24h }

/-- `_ticker_to_snapshot`. -/
def tickerToSnapshot (t : JsonFields) : Except PyError (Option TickerQuote) :=
  match t.get "symbol" with
  | .text symbol =>
    (tickerQuote parse symbol ((t.get "greeks").or (.object []))
      ((t.get "quotes").or (.object [])) t).map some
  | _ => .ok none

/-- `x if isinstance(x, dict) else {}`. -/
def JsonTree.orEmpty : JsonTree → JsonTree
  | .object fields => .object fields
  | _ => .object []

/-- `_quote_from_ws_ticker`. -/
def quoteFromWsTicker (msg : JsonFields) : Except PyError (Option TickerQuote) :=
  match msg.get "symbol" with
  | .text symbol =>
    match parseSymbol symbol with
    | .error e => .error e
    | .ok none => .ok none
    | .ok (some _) =>
      (tickerQuote parse symbol (msg.get "greeks").orEmpty (msg.get "quotes").orEmpty msg).map some
  | _ => .ok none

namespace ChainCache

/-- The cache with some quotes written to it, one after the other. -/
def upsertQuotes (chain : ChainCache) (snaps : List TickerQuote) : ChainCache :=
  snaps.foldl (fun chain snap => chain.upsertQuote snap.symbol snap.toQuoteSnapshot) chain

/-- `refresh_quotes`, once the tickers are there: the cache it leaves, and how many
    quotes it returns or what it raises. -/
def refreshQuotes (chain : ChainCache) (tickers : List JsonFields) :
    ChainCache × Except PyError Nat :=
  let run := forEach (tickerToSnapshot parse) tickers
  -- An entry without a snapshot is passed over. One that raises ends the loop.
  let snaps := run.1.reduceOption
  (chain.upsertQuotes snaps,
    match run.2 with
    | none => .ok snaps.length
    | some e => .error e)

end ChainCache

end Decoders

end OptionsBot
