import OptionsBot.Core.Router

/-!
# Live Executor

Order placement on the exchange: a post-only maker order per leg, polled until
a deadline, then cancelled and replaced by an immediate-or-cancel order, and a
rollback of the whole entry if any leg did not complete.

The exchange is a script per order, so one definition covers every reply and
every error. A leg's run returns the orders it left on the exchange beside the
fill it reports, since the two can differ.

The legs run concurrently, each on its own orders, so the chain a leg reads is
part of its own script and the order in which legs are resumed does not matter.

## Main definitions

* `RestError`: The exceptions of the REST client.
* `makerLimitPrice`, `iocLimitPrice`: The limits of the two orders of a leg.
* `orderToLegFill`: The fill an order report describes.
* `LiveExecutor.submitAndWait`: Place an order and poll it.
* `LiveExecutor.placeEntryLeg`: Both orders of one leg.
* `LiveExecutor.rollbackCall`, `LiveExecutor.rollback`: What the rollback sends.
* `LiveExecutor.submitEntry`: An entry, with what it left on the exchange.

## Theorems

* `iocLimitPrice_isSome`: A quote with a middle has a limit for the second order.
* `orderToLegFill_complete`: What a complete fill says about its report.
* `submitEntry_fills`: Every leg of an entry gets a fill.
-/

namespace OptionsBot

/-- The exceptions a REST call raises. `DeltaRestError` is itself a
    `RuntimeError`, so a handler for the second catches both. -/
inductive RestError where
  | deltaRestError (message : String)
  | runtimeError (message : String)
  | other (message : String)
  deriving DecidableEq

namespace RestError

def message : RestError → String
  | deltaRestError m | runtimeError m | other m => m

/-- Caught by `except DeltaRestError`. -/
def isDeltaRest : RestError → Bool
  | deltaRestError _ => true
  | _ => false

/-- Caught by `except (DeltaRestError, RuntimeError)`. -/
def isRuntime : RestError → Bool
  | other _ => false
  | _ => true

end RestError

inductive OrderType where
  | limitOrder
  | marketOrder
  deriving DecidableEq, Repr

/-- The body of an order submission. -/
structure OrderPayload where
  productId : Int
  size : ℚ
  side : Side
  orderType : OrderType
  limitPrice : Option ℚ := none
  ioc : Bool := false
  postOnly : Bool := false
  reduceOnly : Bool := false
  clientOrderId : ClientOrderId
  deriving DecidableEq

/-- Round to the tick, then to eight digits. -/
def roundTick (value : Option ℚ) (tick : ℚ) : Option ℚ :=
  match value with
  | none => none
  | some v => if tick ≤ 0 then some v else some (roundDigits (roundHalfEven (v / tick) * tick) 8)

def makerLimitPrice (quote : QuoteSnapshot) (side : Side) (tick : ℚ) : Option ℚ :=
  match roundTick (if side = .buy then quote.bid else quote.ask) tick with
  | none => roundTick quote.mid tick
  | some price => some price

def iocLimitPrice (quote : QuoteSnapshot) (side : Side) (slipBps : Nat) (tick : ℚ) : Option ℚ :=
  let slip : ℚ := slipBps / 10000
  match side with
  | .buy =>
    match quote.ask.or quote.mid with
    | none => none
    | some ref => roundTick (some (ref * (1 + slip))) tick
  | .sell =>
    match quote.bid.or quote.mid with
    | none => none
    | some ref => roundTick (some (ref * (1 - slip))) tick

theorem roundTick_isSome (value tick : ℚ) : ∃ price, roundTick (some value) tick = some price := by
  simp only [roundTick]
  split_ifs
  · exact ⟨_, rfl⟩
  · exact ⟨_, rfl⟩

/-- A quote with a middle always has a limit for the second order. -/
theorem iocLimitPrice_isSome (quote : QuoteSnapshot) (side : Side) (slipBps : Nat) (tick mid : ℚ)
    (h : quote.mid = some mid) : ∃ price, iocLimitPrice quote side slipBps tick = some price := by
  cases side with
  | buy =>
      cases hq : quote.ask with
      | none =>
          simp only [iocLimitPrice, hq, h, Option.none_or]
          exact roundTick_isSome _ _
      | some ask =>
          simp only [iocLimitPrice, hq, Option.some_or]
          exact roundTick_isSome _ _
  | sell =>
      cases hq : quote.bid with
      | none =>
          simp only [iocLimitPrice, hq, h, Option.none_or]
          exact roundTick_isSome _ _
      | some bid =>
          simp only [iocLimitPrice, hq, Option.some_or]
          exact roundTick_isSome _ _

/-- The leg an order is placed for, as its fills name it. -/
structure LegTicket where
  symbol : String
  side : Side
  lots : Nat
  legIdx : Int
  clientOrderId : ClientOrderId

/-- The fill an order report describes. -/
def orderToLegFill (order : OrderReport) (t : LegTicket) : LegFill :=
  let filled := order.filledSize.getD 0
  { symbol := t.symbol
    side := t.side
    qtyRequested := t.lots
    qtyFilled := filled
    avgFillPrice := if 0 < filled then order.averageFillPrice else none
    legIdx := t.legIdx
    clientOrderId := t.clientOrderId
    exchangeOrderId := order.id
    state := order.state.getD .«open» }

/-- The fill of a leg nothing is reported for. -/
def rejectedFill (t : LegTicket) (exchangeOrderId : Option Int) : LegFill :=
  { symbol := t.symbol, side := t.side, qtyRequested := t.lots, qtyFilled := 0,
    avgFillPrice := none, legIdx := t.legIdx, clientOrderId := t.clientOrderId,
    exchangeOrderId := exchangeOrderId, state := .rejected }

theorem orderToLegFill_complete (r : OrderReport) (t : LegTicket)
    (h : (orderToLegFill r t).isComplete = true) :
    r.state = some .filled ∧ (t.lots : ℚ) - 1 / 1000000000 ≤ r.filledSize.getD 0 := by
  rw [LegFill.isComplete_iff] at h
  refine ⟨?_, h.2⟩
  have hstate : r.state.getD .«open» = .filled := h.1
  cases hs : r.state with
  | none =>
      rw [hs] at hstate
      cases hstate
  | some s =>
      rw [hs, Option.getD_some] at hstate
      rw [hstate]

/-- How the exchange treats one leg: the chain as the leg reads it, and the two
    orders it may send. -/
structure LegScript where
  chain : ChainCache
  maker : OrderScript RestError
  ioc : OrderScript RestError

/-- What placing a leg leaves behind: its orders on the exchange, the payloads
    sent, and the fill it returns or the exception it raises. -/
structure LegRun where
  maker : Option Order := none
  ioc : Option Order := none
  payloads : List OrderPayload := []
  result : Except RestError LegFill

namespace LiveExecutor

/-- A new order of the size of a ticket. -/
def newOrder (t : LegTicket) : Order := Order.submit t.lots (Nat.cast_nonneg t.lots)

/-- Place an order, and poll it unless the answer already shows it complete.
    Returns the last fill shown. -/
def submitAndWait (t : LegTicket) (exchange : OrderScript RestError) :
    Option Order × Except RestError LegFill :=
  match exchange.placement with
  | .refused e => (none, .error e)
  | .unanswered e => (some (newOrder t), .error e)
  | .answered events id =>
    let order := (newOrder t).run events
    let fill := orderToLegFill (order.report id) t
    if fill.isComplete then (some order, .ok fill)
    else
      let waited := order.pollUntilDone none exchange.polls
      match waited.2 with
      | .error e => (some waited.1, .error e)
      -- No poll was answered, and what the submission has shown stands.
      | .ok none => (some waited.1, .ok fill)
      | .ok (some report) => (some waited.1, .ok (orderToLegFill report t))

/-- Cancel an order. A REST or runtime error is logged and ignored, any other
    exception passes through. -/
def cancelOpenOrder (order : Option Order) (c : Cancellation RestError) :
    Option Order × Except RestError Unit :=
  (order.map (fun o => o.cancel c),
    match c.error with
    | none => .ok ()
    | some e => if e.isRuntime then .ok () else .error e)

/-- The ticket of one of a leg's two orders. -/
def legTicket (strategyId : StrategyId) (tradeId : Nat) (legIdx : Nat) (leg : LegIntent)
    (lots : Nat) (purpose : String) : LegTicket :=
  { symbol := leg.symbol, side := leg.side, lots := lots, legIdx := legIdx,
    clientOrderId := .generated strategyId.value tradeId legIdx purpose }

/-- The maker order of a leg, and its replacement if the maker order does not
    complete in time. -/
def placeEntryLeg (strategyId : StrategyId) (tradeId : Nat) (legIdx : Nat) (leg : LegIntent)
    (lots : Nat) (slipBps : Nat) (script : LegScript) : LegRun :=
  let ticket := legTicket strategyId tradeId legIdx leg lots
  match script.chain.getQuote leg.symbol, script.chain.getInstrument leg.symbol with
  | some quote, some instrument =>
    if quote.mid.isNone then
      { result := .ok (rejectedFill { ticket "entry" with clientOrderId := .missingQuote } none) }
    else
      let makerPayload : OrderPayload :=
        { productId := instrument.productId, size := lots, side := leg.side,
          orderType := .limitOrder,
          limitPrice := makerLimitPrice quote leg.side instrument.tickSize,
          postOnly := true, clientOrderId := (ticket "entry").clientOrderId }
      let maker := submitAndWait (ticket "entry") script.maker
      match maker.2 with
      | .error e => { maker := maker.1, payloads := [makerPayload], result := .error e }
      | .ok fill =>
        if fill.isComplete then
          { maker := maker.1, payloads := [makerPayload], result := .ok fill }
        else
          let cancelled := cancelOpenOrder maker.1 script.maker.cancellation
          match cancelled.2 with
          | .error e => { maker := cancelled.1, payloads := [makerPayload], result := .error e }
          | .ok () =>
            match iocLimitPrice quote leg.side slipBps instrument.tickSize with
            | none =>
              { maker := cancelled.1, payloads := [makerPayload],
                result := .ok (rejectedFill (ticket "entry") fill.exchangeOrderId) }
            | some price =>
              -- The second order is for all the lots again, whatever the first has filled.
              let iocPayload : OrderPayload :=
                { productId := instrument.productId, size := lots, side := leg.side,
                  orderType := .limitOrder, limitPrice := some price, ioc := true,
                  clientOrderId := (ticket "entry_ioc").clientOrderId }
              let ioc := submitAndWait (ticket "entry_ioc") script.ioc
              { maker := cancelled.1, ioc := ioc.1, payloads := [makerPayload, iocPayload],
                result := ioc.2 }
  | _, _ =>
    { result := .ok (rejectedFill { ticket "entry" with clientOrderId := .missingQuote } none) }

/-- What the rollback sends for one fill. -/
inductive RollbackCall where
  | close (symbol : String) (payload : OrderPayload)
  | cancel (symbol : String) (orderId : Option Int) (clientOrderId : ClientOrderId)
      (productId : Option Int)

/-- A filled leg whose symbol is still listed is closed, an unfilled order is
    cancelled by whichever identifier is known, and anything else is skipped. -/
def rollbackCall (chain : ChainCache) (tradeId : Nat) (fill : LegFill) : Option RollbackCall :=
  let instrument := chain.getInstrument fill.symbol
  if 0 < fill.qtyFilled then
    match instrument with
    | none => none
    | some inst =>
      some (.close fill.symbol
        { productId := inst.productId, size := fill.qtyFilled, side := fill.side.flip,
          orderType := .marketOrder, reduceOnly := true,
          clientOrderId := .generated "rollback" tradeId fill.legIdx "rollback" })
  else if fill.exchangeOrderId.isSome then
    some (.cancel fill.symbol fill.exchangeOrderId fill.clientOrderId
      (instrument.map InstrumentRecord.productId))
  else if fill.clientOrderId ≠ .error ∧ fill.clientOrderId ≠ .missingQuote then
    some (.cancel fill.symbol none fill.clientOrderId (instrument.map InstrumentRecord.productId))
  else none

/-- The action recorded for a call and its reply, or the exception that is not
    caught: only the cancel by client order id also catches runtime errors. -/
def rollbackAction (call : RollbackCall) (reply : Option RestError) : Except RestError String :=
  match call, reply with
  | .close symbol _, none => .ok ("rollback_close:" ++ symbol)
  | .cancel symbol _ _ _, none => .ok ("cancel:" ++ symbol)
  | .close symbol _, some e =>
    if e.isDeltaRest then .ok ("rollback_close_failed:" ++ symbol ++ ":" ++ e.message)
    else .error e
  | .cancel symbol orderId _ _, some e =>
    if e.isDeltaRest ∨ (orderId.isNone ∧ e.isRuntime) then
      .ok ("cancel_failed:" ++ symbol ++ ":" ++ e.message)
    else .error e

/-- The rollback of a list of fills, given the reply to each call. -/
def rollback (chain : ChainCache) (tradeId : Nat) (replies : Nat → Option RestError)
    (fills : List LegFill) : Except RestError (List String) :=
  (fills.zipIdx.filterMap (fun p => (rollbackCall chain tradeId p.1).map (fun c => (c, p.2)))).mapM
    (fun p => rollbackAction p.1 (replies p.2))

/-- How the exchange treats an entry: one script per leg, then the chain and the
    replies of the rollback. -/
structure EntryScript where
  legs : Nat → LegScript
  rollbackChain : ChainCache
  rollbackReplies : Nat → Option RestError

/-- The fill that stands for a leg that raised. -/
def raisedFill (lots : Nat) : LegFill :=
  { symbol := "?", side := .buy, qtyRequested := lots, qtyFilled := 0, avgFillPrice := none,
    legIdx := -1, clientOrderId := .error, state := .rejected }

/-- The fill the rollback sees for a leg. -/
def shownFill (lots : Nat) (run : LegRun) : LegFill :=
  match run.result with
  | .ok fill => fill
  | .error _ => raisedFill lots

/-- The runs of an entry's legs. -/
def placeLegs (slipBps : StrategyId → Nat) (req : EntryRequest) (script : EntryScript) :
    List LegRun :=
  req.legs.zipIdx.map (fun p =>
    placeEntryLeg req.strategyId req.tradeId p.2 p.1 req.lots (slipBps req.strategyId)
      (script.legs p.2))

/-- The result of an entry whose legs ran as given. -/
def concludeEntry (req : EntryRequest) (script : EntryScript) (runs : List LegRun) :
    Except RestError EntryResult :=
  let fills := runs.map (shownFill req.lots)
  if fills.any (fun f => !f.isComplete) then
    match rollback script.rollbackChain req.tradeId script.rollbackReplies fills with
    | .ok actions =>
      .ok { success := false, tradeId := req.tradeId, fills := fills,
            error := some "partial_fill_rolled_back", rollbackActions := actions }
    | .error e =>
      if e.isDeltaRest then
        .ok { success := false, tradeId := req.tradeId, fills := fills, error := some e.message }
      else .error e
  else .ok { success := true, tradeId := req.tradeId, fills := fills }

/-- Place all legs, and roll the entry back unless every one is complete. -/
def submitEntry (slipBps : StrategyId → Nat) (req : EntryRequest) (script : EntryScript) :
    Except RestError EntryResult :=
  concludeEntry req script (placeLegs slipBps req script)

/-- Every leg of an entry gets a fill. -/
theorem submitEntry_fills (slipBps : StrategyId → Nat) (req : EntryRequest) (script : EntryScript)
    (result : EntryResult) (h : submitEntry slipBps req script = .ok result) :
    result.fills.length = req.legs.length := by
  have hlen : ((placeLegs slipBps req script).map (shownFill req.lots)).length =
      req.legs.length := by
    rw [List.length_map, placeLegs, List.length_map, List.length_zipIdx]
  unfold submitEntry concludeEntry at h
  simp only at h
  split at h
  · split at h
    · cases h
      exact hlen
    · split at h
      · cases h
        exact hlen
      · cases h
  · cases h
    exact hlen

end LiveExecutor

end OptionsBot
