import OptionsBot.Core.PortfolioGreeks
import OptionsBot.Core.Tick
import OptionsBot.Core.TradeModes
import OptionsBot.Lib.JsonTree

/-!
# The Whole Row of a Trade

The row of a trade with the columns and notes that no decision reads. They are written at the
entry, by a moved stop, by the refresh after every tick and at the close, and the journal
shows them.

A writer fetches the row afresh and merges its own entries into the notes. What it computes
them from is the row as the tick has loaded it, with its legs. On the columns that decisions
read, each writer is the one of the engine's bookkeeping.

## Main definitions

* `IndicatorSnapshot`: The prices a tick sees of an underlying.
* `JournalNotes`, `TradeRecord`: The notes and the row.
* `refreshOpenTradeRecord`, `persistTrailStopRecord`, `persistExitRecord`: The writers.
* `JournalPage`, `JournalPage.render`: What the journal of a closed trade shows.

## Theorems

* `refreshOpenTradeRecord_trade`, `persistExitRecord_trade`: The writers on the columns that
  decisions read.
* `render_refresh`: The refresh changes nothing the journal shows.
-/

namespace OptionsBot

/-- The last candle of a time frame, and their number. -/
structure CandleStats where
  n : Nat
  last : Option (ℚ × ℚ × ℚ × DateTime)
  deriving DecidableEq

/-- What a tick notes of an underlying: its spot and the last candles. -/
structure IndicatorSnapshot where
  underlying : Underlying
  spot : Option ℚ
  m15 : CandleStats
  h1 : CandleStats
  deriving DecidableEq

/-- The close, high, low and time of the last candle. The time is given, since a candle carries
    the prices only. -/
def candleStats (market : MarketState) (lastTs : Underlying → Timeframe → DateTime)
    (underlying : Underlying) (tf : Timeframe) : CandleStats :=
  let candles := market.candles underlying tf
  { n := candles.length
    last := candles.getLast?.map (fun c => (c.close, c.high, c.low, lastTs underlying tf)) }

def indicatorSnapshotForUnderlying (underlying : Underlying) (market : MarketState)
    (lastTs : Underlying → Timeframe → DateTime) : IndicatorSnapshot :=
  { underlying := underlying
    spot := market.spot underlying
    m15 := candleStats market lastTs underlying .m15
    h1 := candleStats market lastTs underlying .h1 }

/-- The snapshot for the underlying of a trade. -/
def indicatorSnapshotForTrade (trade : Trade) (market : MarketState)
    (lastTs : Underlying → Timeframe → DateTime) : IndicatorSnapshot :=
  indicatorSnapshotForUnderlying trade.underlying market lastTs

/-- The wallet as it was fetched. -/
abbrev WalletSnapshot := JsonFields

/-- A moved stop. -/
structure TrailEvent where
  ts : DateTime
  newStop : ℚ
  wallet : Option WalletSnapshot

inductive OutcomeResult where
  | win
  | loss
  | flat
  deriving DecidableEq, Repr

structure TradeOutcome where
  exitTrigger : ExitTrigger
  realisedPnlInr : ℚ
  result : OutcomeResult
  deriving DecidableEq

/-- The outcome of a close. Up to a millionth it is flat. -/
def tradeOutcome (trigger : ExitTrigger) (realised : ℚ) : TradeOutcome :=
  { exitTrigger := trigger
    realisedPnlInr := realised
    result := if 1 / 1000000 < realised then .win
      else if realised < -(1 / 1000000) then .loss else .flat }

/-- The entries of `trade.notes` that no decision reads. -/
structure JournalNotes where
  rationale : Option String := none
  walletAtEntry : Option WalletSnapshot := none
  indicatorsAtEntry : Option IndicatorSnapshot := none
  entryFillPrices : List (Int × Option ℚ) := []
  entryNetPremiumInr : Option ℚ := none
  tradeLifecycle : Option String := none
  usdInrRate : Option ℚ := none
  lastIndicatorSnapshot : Option IndicatorSnapshot := none
  walletLastTick : Option WalletSnapshot := none
  unrealizedPnlInr : Option ℚ := none
  trailEvents : List TrailEvent := []
  walletAtExit : Option WalletSnapshot := none
  indicatorsAtExit : Option IndicatorSnapshot := none
  outcome : Option TradeOutcome := none
  exitGreeks : List (String × LegGreeks) := []

/-- A row of `signals`, which is written at the entry and never again. -/
structure SignalRow where
  intendedSymbol : String
  intendedStrike : Option ℚ
  intendedExpiry : Option DateTime
  intendedPremiumInr : Option ℚ
  featureVector : Features

/-- A row of `trades`: the columns and notes that decisions read, and the others. -/
structure TradeRecord where
  trade : Trade
  mode : BotMode
  signal : Option SignalRow := none
  feesInr : Option ℚ := none
  deltaPnlInr : Option ℚ := none
  thetaPnlInr : Option ℚ := none
  rMultiple : Option ℚ := none
  slippageBps : Option ℚ := none
  entryIv : Option ℚ := none
  exitIv : Option ℚ := none
  peakPnlInr : Option ℚ := none
  troughPnlInr : Option ℚ := none
  notes : JournalNotes := {}

/-- `refresh_open_trade_notes`, on the row `t` of the trade that the tick has loaded. -/
def refreshOpenTradeRecord (loaded : Trade) (legs : List Leg) (chain : ChainCache)
    (snapshot : IndicatorSnapshot) (wallet : Option WalletSnapshot) (peakPnlInr : Option ℚ)
    (t : TradeRecord) : TradeRecord :=
  let unreal := estimateUnrealizedPnlInr loaded legs chain
  { t with
    trade := match peakPnlInr.or unreal with
      | none => t.trade
      | some peak =>
        { t.trade with
          notes :=
            { t.trade.notes with
              peakPnlInr := some (max (t.trade.notes.peakPnlInr.getD peak) peak) } }
    notes :=
      { t.notes with
        lastIndicatorSnapshot := some snapshot
        -- A wallet is polled once in a while, and the last one stays till the next.
        walletLastTick := wallet.or t.notes.walletLastTick
        unrealizedPnlInr := unreal.or t.notes.unrealizedPnlInr } }

/-- A moved stop, in the notes of the row. -/
def persistTrailStopRecord (newStopPrice : ℚ) (now : DateTime) (wallet : Option WalletSnapshot)
    (t : TradeRecord) : TradeRecord :=
  { t with
    trade := persistTrailStop t.trade newStopPrice
    notes :=
      { t.notes with
        trailEvents := t.notes.trailEvents ++
          [{ ts := now, newStop := newStopPrice, wallet := wallet }] } }

/-- `trade_iv_from_symbols`: the mean of the quoted volatilities. -/
def tradeIvFromSymbols (symbols : List String) (quoteFor : String → Option QuoteSnapshot)
    (chain : Option ChainCache) : Option ℚ :=
  let values := symbols.filterMap (fun symbol =>
    (resolveQuote symbol quoteFor chain).bind QuoteSnapshot.iv)
  if values.isEmpty then none else some (values.sum / values.length)

/-- The part of a leg in the delta's profit, if its delta at entry is known. -/
def legDeltaPnl (trade : Trade) (chain : Option ChainCache) (spotMove usdInrRate : ℚ) (leg : Leg) :
    Option ℚ :=
  ((trade.notes.entryGreeks.find? (fun kv => decide (kv.1 = leg.symbol))).bind
    (fun kv => kv.2.delta)).map (fun delta =>
      let lots : ℚ := if leg.lots ≠ 0 then leg.lots else trade.lots
      delta * spotMove * leg.side.sign * lots * contractMultiplier chain leg.symbol * usdInrRate)

/-- `estimate_delta_pnl_inr`. An underlying that has not moved is worth nothing. -/
def estimateDeltaPnlInr (trade : Trade) (legs : List Leg) (entryPrice exitPrice : Option ℚ)
    (usdInrRate : ℚ) (chain : Option ChainCache) : Option ℚ :=
  match entryPrice, exitPrice with
  | some entry, some exit =>
    if |exit - entry| < 1 / 1000000000000 then some 0
    else
      let parts := legs.filterMap (legDeltaPnl trade chain (exit - entry) usdInrRate)
      if parts.isEmpty then none else some parts.sum
  | _, _ => none

/-- What a close that has succeeded is recorded with. -/
structure ExitContext where
  trigger : ExitTrigger
  result : ExitResult
  wallet : Option WalletSnapshot
  snapshot : IndicatorSnapshot
  quoteFor : String → Option QuoteSnapshot
  chain : ChainCache
  now : DateTime

/-- What `_persist_exit` writes to the row `t`, when the exit has succeeded. -/
def persistExitRecord (loaded : Trade) (legs : List Leg) (c : ExitContext) (t : TradeRecord) :
    TradeRecord :=
  let realised := tradeRealisedPnl loaded c.result
  let symbols := legs.map Leg.symbol
  let exitGreeks := greeksBySymbol symbols c.quoteFor (some c.chain)
  { t with
    trade := { t.trade with
      status := .closed
      exitTs := some (c.result.completedAt.getD c.now)
      realisedPnlInr := some realised
      exitReason := some c.trigger }
    exitIv := (tradeIvFromSymbols symbols c.quoteFor (some c.chain)).or t.exitIv
    deltaPnlInr := (estimateDeltaPnlInr t.trade legs t.trade.notes.entryUnderlyingPrice
      c.snapshot.spot (orFloat t.notes.usdInrRate 85) (some c.chain)).or t.deltaPnlInr
    -- The peak of the notes is the one that the tick before has left.
    peakPnlInr := t.trade.notes.peakPnlInr.or t.peakPnlInr
    notes :=
      { t.notes with
        walletAtExit := c.wallet
        indicatorsAtExit := some c.snapshot
        outcome := some (tradeOutcome c.trigger realised)
        exitGreeks := if exitGreeks.isEmpty then t.notes.exitGreeks else exitGreeks } }

/-- On the columns that decisions read, the refresh is the one of the bookkeeping. -/
theorem refreshOpenTradeRecord_trade (legs : List Leg) (chain : ChainCache)
    (snapshot : IndicatorSnapshot) (wallet : Option WalletSnapshot) (peak : Option ℚ)
    (t : TradeRecord) :
    (refreshOpenTradeRecord t.trade legs chain snapshot wallet peak t).trade =
      refreshOpenTradeNotes t.trade legs chain peak := rfl

/-- On them, a close is the one of the bookkeeping. -/
theorem persistExitRecord_trade (execute : ExitRequest → ExitResult) (legs : List Leg)
    (c : ExitContext) (t : TradeRecord) (nav : NavTracker) (request : ExitRequest)
    (hrequest : exitRequest t.trade legs c.trigger c.now = .ok request)
    (hresult : execute request = c.result) (hsuccess : c.result.success = true) :
    persistExit execute t.trade legs c.trigger nav c.now =
      .ok ((persistExitRecord t.trade legs c t).trade, legs.map (closedLeg c.result),
        { nav with navNow := nav.navNow + tradeRealisedPnl t.trade c.result }) := by
  unfold persistExit
  simp only [hrequest, hresult, hsuccess, Bool.not_true, Bool.false_eq_true, if_false,
    persistExitRecord]

/-- An order of a fill that has a price. -/
structure OrderLine where
  ts : DateTime
  legIdx : Int
  clientOrderId : ClientOrderId
  symbol : String
  side : Side
  qty : ℚ
  filledQty : ℚ
  filledPrice : ℚ

/-- The orders that are recorded of some fills. -/
def orderLines (ts : DateTime) (fills : List LegFill) : List OrderLine :=
  fills.filterMap (fun f => f.avgFillPrice.map (fun price =>
    { ts := ts, legIdx := f.legIdx, clientOrderId := f.clientOrderId, symbol := f.symbol,
      side := f.side, qty := f.qtyRequested, filledQty := f.qtyFilled, filledPrice := price }))

/-- What the journal of a closed trade shows, in its order. -/
structure JournalPage where
  id : Nat
  strategyId : StrategyId
  underlying : Underlying
  lots : Int
  mode : BotMode
  status : TradeStatus
  entryTs : DateTime
  exitTs : Option DateTime
  expiry : Option DateTime
  exitReason : Option ExitTrigger
  realisedPnlInr : Option ℚ
  premiumPaidInr : Option ℚ
  creditReceivedInr : Option ℚ
  feesInr : Option ℚ
  deltaPnlInr : Option ℚ
  thetaPnlInr : Option ℚ
  rMultiple : Option ℚ
  slippageBps : Option ℚ
  peakPnlInr : Option ℚ
  troughPnlInr : Option ℚ
  entryIv : Option ℚ
  exitIv : Option ℚ
  outcome : Option TradeOutcome
  walletAtEntry : Option WalletSnapshot
  walletAtExit : Option WalletSnapshot
  indicatorsAtEntry : Option IndicatorSnapshot
  indicatorsAtExit : Option IndicatorSnapshot
  entryGreeks : List (String × LegGreeks)
  exitGreeks : List (String × LegGreeks)
  trailEvents : List TrailEvent
  signal : Option SignalRow
  legs : List Leg
  orders : List OrderLine
  /-- The entries of the notes that have no section of their own. -/
  error : Option String
  usdInrRate : Option ℚ

/-- `_render`, with the legs by index and the orders by time. -/
def JournalPage.render (t : TradeRecord) (legs : List Leg) (orders : List OrderLine) :
    JournalPage :=
  { id := t.trade.id
    strategyId := t.trade.strategyId
    underlying := t.trade.underlying
    lots := t.trade.lots
    mode := t.mode
    status := t.trade.status
    entryTs := t.trade.entryTs
    exitTs := t.trade.exitTs
    expiry := t.trade.expiry
    exitReason := t.trade.exitReason
    realisedPnlInr := t.trade.realisedPnlInr
    premiumPaidInr := t.trade.premiumPaidInr
    creditReceivedInr := t.trade.creditReceivedInr
    feesInr := t.feesInr
    deltaPnlInr := t.deltaPnlInr
    thetaPnlInr := t.thetaPnlInr
    rMultiple := t.rMultiple
    slippageBps := t.slippageBps
    peakPnlInr := t.peakPnlInr
    troughPnlInr := t.troughPnlInr
    entryIv := t.entryIv
    exitIv := t.exitIv
    outcome := t.notes.outcome
    walletAtEntry := t.notes.walletAtEntry
    walletAtExit := t.notes.walletAtExit
    indicatorsAtEntry := t.notes.indicatorsAtEntry
    indicatorsAtExit := t.notes.indicatorsAtExit
    entryGreeks := t.trade.notes.entryGreeks
    exitGreeks := t.notes.exitGreeks
    trailEvents := t.notes.trailEvents
    signal := t.signal
    legs := legs.insertionSort (fun a b => a.legIdx ≤ b.legIdx)
    orders := orders.insertionSort (fun a b => a.ts.micros ≤ b.ts.micros)
    error := t.trade.notes.error
    usdInrRate := t.notes.usdInrRate }

/-- The refresh changes nothing that the journal of a closed trade shows. -/
theorem render_refresh (loaded : Trade) (legs : List Leg) (chain : ChainCache)
    (snapshot : IndicatorSnapshot) (wallet : Option WalletSnapshot) (peak : Option ℚ)
    (t : TradeRecord) (shown : List Leg) (orders : List OrderLine) :
    JournalPage.render (refreshOpenTradeRecord loaded legs chain snapshot wallet peak t) shown
      orders = JournalPage.render t shown orders := by
  unfold refreshOpenTradeRecord JournalPage.render
  simp only
  split
  · rfl
  · rfl

end OptionsBot
