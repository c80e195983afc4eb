import OptionsBot.Core.Engine
import OptionsBot.Core.LiveExecutor
import OptionsBot.Lib.ReduceOnly

/-!
# Exits on the Exchange

The exit of a trade sends one market order per leg, one after the other, each for
all the lots and allowed only to reduce the position. A leg counts as closed if the
answer shows its order filled. Nothing is polled afterwards, and an exit is a
success only if every leg counts as closed.

The engine keeps an attempt only if it is a success. The orders an attempt has
sent stay on the exchange either way, and fill there in their own time.

## Main definitions

* `ExitLegScript`: How the exchange treats one leg of an exit.
* `LiveExecutor.placeExitLeg`, `LiveExecutor.submitExit`: One leg, and all of them.
* `LiveTrade`: An open trade, and what is left of its legs on the exchange.
* `LiveTrade.attempt`: The engine's exit of a trade.
* `LiveTrade.step`: An attempt, or a later event on an order it has sent.

## Theorems

* `submitExitLegs_cons`: What the first leg gives when no leg raises.
* `placeExitLeg_flat`: A leg with nothing left does not count as closed.
* `placeExitLeg_complete`: What a leg that counts as closed is worth.
-/

namespace OptionsBot

/-- How the exchange treats one leg of an exit: the chain as it is read, what
    becomes of the submission, and the error an order that reduces nothing gets. -/
structure ExitLegScript where
  chain : ChainCache
  placement : Placement RestError
  rejection : String := "reduce_only"

/-- What one leg of an exit leaves behind: the position, the payload sent, and the
    fill it counts as or the exception it raises. -/
structure ExitLegRun where
  book : ReducingBook
  payload : Option OrderPayload := none
  result : Except RestError LegFill

namespace LiveExecutor

/-- The ticket of one leg of an exit, on the other side. -/
def exitTicket (req : ExitRequest) (idx : Nat) (leg : LegIntent) : LegTicket :=
  { symbol := leg.symbol, side := leg.side.flip, lots := req.lots, legIdx := idx,
    clientOrderId := .generated req.strategyId.value req.tradeId idx
      ("exit_" ++ req.trigger.value) }

/-- The fill an answer counts as. A missing state means filled here. -/
def exitFill (order : OrderReport) (t : LegTicket) : LegFill :=
  let filled := order.filledSize.getD 0
  { symbol := t.symbol
    side := t.side
    qtyRequested := t.lots
    qtyFilled := filled
    avgFillPrice := if 0 < filled then some (order.averageFillPrice.getD 0) else none
    legIdx := t.legIdx
    clientOrderId := t.clientOrderId
    exchangeOrderId := order.id
    state := order.state.getD .filled }

/-- Send the order of one leg of an exit. -/
def placeExitLeg (req : ExitRequest) (idx : Nat) (leg : LegIntent) (script : ExitLegScript)
    (book : ReducingBook) : ExitLegRun :=
  let ticket := exitTicket req idx leg
  match script.chain.getInstrument leg.symbol with
  | none =>
    { book := book
      result := .ok (rejectedFill { ticket with clientOrderId := .missingInstrument } none) }
  | some instrument =>
    let payload : OrderPayload :=
      { productId := instrument.productId, size := req.lots, side := ticket.side,
        orderType := .marketOrder, reduceOnly := true, clientOrderId := ticket.clientOrderId }
    let placed := book.place req.lots (Nat.cast_nonneg req.lots)
      (RestError.deltaRestError script.rejection) script.placement
    { book := placed.1
      payload := some payload
      -- The answer to the submission is all that is looked at. Nothing is polled.
      result := match placed.2 with
        | .ok report => .ok (exitFill report ticket)
        | .error e => if e.isDeltaRest then .ok (rejectedFill ticket none) else .error e }

/-- The legs of an exit, from an index on. An exception that is not caught leaves
    the later ones unsent. -/
def submitExitLegs (req : ExitRequest) (script : Nat → ExitLegScript) :
    Nat → List LegIntent → (Nat → ReducingBook) →
      (Nat → ReducingBook) × Except RestError (List LegFill)
  | _, [], books => (books, .ok [])
  | idx, leg :: rest, books =>
    let run := placeExitLeg req idx leg (script idx) (books idx)
    let sent := Function.update books idx run.book
    match run.result with
    | .error e => (sent, .error e)
    | .ok fill =>
      let later := submitExitLegs req script (idx + 1) rest sent
      (later.1, later.2.map (fun fills => fill :: fills))

/-- Send the orders of an exit. It is a success if every leg is complete. -/
def submitExit (req : ExitRequest) (script : Nat → ExitLegScript) (completedAt : DateTime)
    (books : Nat → ReducingBook) : (Nat → ReducingBook) × Except RestError ExitResult :=
  let sent := submitExitLegs req script 0 req.legs books
  (sent.1, sent.2.map (fun fills =>
    { success := fills.all LegFill.isComplete, tradeId := req.tradeId, fills := fills,
      completedAt := some completedAt }))

/-- When no leg raises, the first has a fill, and the later ones are sent on the positions
    with its order placed. -/
theorem submitExitLegs_cons (req : ExitRequest) (script : Nat → ExitLegScript) (idx : Nat)
    (leg : LegIntent) (rest : List LegIntent) (books : Nat → ReducingBook) (fills : List LegFill)
    (hok : (submitExitLegs req script idx (leg :: rest) books).2 = .ok fills) :
    ∃ fill later, (placeExitLeg req idx leg (script idx) (books idx)).result = .ok fill ∧
      fills = fill :: later ∧
      (submitExitLegs req script (idx + 1) rest (Function.update books idx
        (placeExitLeg req idx leg (script idx) (books idx)).book)).2 = .ok later ∧
      (submitExitLegs req script idx (leg :: rest) books).1 =
        (submitExitLegs req script (idx + 1) rest (Function.update books idx
          (placeExitLeg req idx leg (script idx) (books idx)).book)).1 := by
  simp only [submitExitLegs] at hok ⊢
  cases hfill : (placeExitLeg req idx leg (script idx) (books idx)).result with
  | error e =>
      rw [hfill] at hok
      cases hok
  | ok fill =>
      simp only [hfill] at hok ⊢
      cases hlater : (submitExitLegs req script (idx + 1) rest (Function.update books idx
          (placeExitLeg req idx leg (script idx) (books idx)).book)).2 with
      | error e =>
          rw [hlater] at hok
          cases hok
      | ok later =>
          rw [hlater] at hok
          cases hok
          exact ⟨fill, later, rfl, rfl, rfl, trivial⟩

theorem rejectedFill_incomplete (t : LegTicket) (exchangeOrderId : Option Int) :
    (rejectedFill t exchangeOrderId).isComplete = false := by
  rw [← Bool.not_eq_true, LegFill.isComplete_iff]
  exact fun h => OrderState.noConfusion h.1

/-- A leg with nothing left stays as it is and does not count as closed. -/
theorem placeExitLeg_flat (req : ExitRequest) (idx : Nat) (leg : LegIntent)
    (script : ExitLegScript) (book : ReducingBook) (h : book.Flat) :
    (placeExitLeg req idx leg script book).book = book ∧
      ∀ fill, (placeExitLeg req idx leg script book).result = .ok fill →
        fill.isComplete = false := by
  unfold placeExitLeg
  simp only
  split
  · refine ⟨rfl, fun fill hfill => ?_⟩
    cases hfill
    exact rejectedFill_incomplete _ _
  · rcases book.place_flat req.lots (Nat.cast_nonneg req.lots)
      (RestError.deltaRestError script.rejection) script.placement h with ⟨hbook, e, he⟩
    rw [he]
    refine ⟨hbook, fun fill hfill => ?_⟩
    simp only at hfill
    split_ifs at hfill
    cases hfill
    exact rejectedFill_incomplete _ _

/-- The fill an answer counts as is worth what the order has executed. -/
theorem exitFill_cost (o : Order) (id : Option Int) (t : LegTicket) :
    (exitFill (o.report id) t).cost = t.side.sign * o.notional := by
  have havg : (exitFill (o.report id) t).avgFillPrice =
      if 0 < o.executed then some ((o.report id).averageFillPrice.getD 0) else none := rfl
  have hqty : (exitFill (o.report id) t).qtyFilled = o.executed := rfl
  unfold LegFill.cost
  by_cases hpos : 0 < o.executed
  · rcases o.report_price id hpos with ⟨price, hprice, hnotional⟩
    rw [havg, if_pos hpos, hqty, hprice]
    simp only [Option.getD_some]
    rw [mul_assoc, hnotional]
    rfl
  · rw [havg, if_neg hpos, o.notional_zero (le_antisymm (not_lt.mp hpos) o.executed_nonneg),
      mul_zero]

/-- A leg that counts as closed has added its fill to what the exchange has executed. -/
theorem placeExitLeg_complete (req : ExitRequest) (idx : Nat) (leg : LegIntent)
    (script : ExitLegScript) (book : ReducingBook) (fill : LegFill)
    (hfill : (placeExitLeg req idx leg script book).result = .ok fill)
    (hcomplete : fill.isComplete = true) :
    fill.qtyFilled ≤ book.remaining ∧
      fill.cost = leg.side.flip.sign *
        ((placeExitLeg req idx leg script book).book.notional - book.notional) ∧
      (placeExitLeg req idx leg script book).book.remaining = book.remaining - fill.qtyFilled ∧
      fill.qtyRequested = req.lots := by
  unfold placeExitLeg at hfill ⊢
  simp only at hfill ⊢
  split at hfill
  · cases hfill
    rw [rejectedFill_incomplete] at hcomplete
    cases hcomplete
  · split at hfill
    · next report hreport =>
      cases hfill
      rcases book.place_answered _ _ _ _ report hreport with
        ⟨o, id, rfl, hle, hnotional, hremaining⟩
      refine ⟨hle, ?_, hremaining, rfl⟩
      rw [hnotional, add_sub_cancel_right, exitFill_cost]
      rfl
    · split_ifs at hfill
      cases hfill
      rw [rejectedFill_incomplete] at hcomplete
      cases hcomplete

end LiveExecutor

/-- An open trade, and what is left of its legs on the exchange, by the place a leg
    has in an exit. -/
structure LiveTrade where
  trade : Trade
  legs : List Leg
  nav : NavTracker
  books : Nat → ReducingBook

/-- An attempt to exit, or something that happens to an order of an earlier one. -/
inductive ExitEvent where
  | attempt (trigger : ExitTrigger) (now completedAt : DateTime) (script : Nat → ExitLegScript)
  | later (idx k : Nat) (event : OrderEvent)

namespace LiveTrade

variable (s : LiveTrade)

/-- A trade as it is opened, with all of its lots on the exchange. -/
def opened (trade : Trade) (legs : List Leg) (nav : NavTracker) : LiveTrade :=
  { trade := trade, legs := legs, nav := nav
    books := fun _ => ReducingBook.whole trade.lots.toNat (Nat.cast_nonneg _) }

/-- Nothing is left of any leg on the exchange. -/
def AllFlat : Prop := ∀ i, i < s.legs.length → (s.books i).Flat

instance : Decidable s.AllFlat :=
  inferInstanceAs (Decidable (∀ i, i < s.legs.length → (s.books i).Flat))

/-- The engine's exit of the trade. An exit that raises or is no success leaves the
    rows, whatever it has done on the exchange. -/
def attempt (trigger : ExitTrigger) (now completedAt : DateTime) (script : Nat → ExitLegScript) :
    LiveTrade :=
  match exitRequest s.trade s.legs trigger now with
  | .error _ => s
  | .ok req =>
    let sent := LiveExecutor.submitExit req script completedAt s.books
    match sent.2 with
    | .error _ => { s with books := sent.1 }
    | .ok result =>
      match persistExit (fun _ => result) s.trade s.legs trigger s.nav now with
      | .error _ => { s with books := sent.1 }
      | .ok (trade, legs, nav) => { trade := trade, legs := legs, nav := nav, books := sent.1 }

/-- An event. Only an open trade is exited. -/
def step : ExitEvent → LiveTrade
  | .attempt trigger now completedAt script =>
    if s.trade.status = .«open» then s.attempt trigger now completedAt script else s
  | .later idx k event =>
    { s with books := Function.update s.books idx ((s.books idx).advance k event) }

theorem step_open (trigger : ExitTrigger) (now completedAt : DateTime)
    (script : Nat → ExitLegScript) (h : s.trade.status = .«open») :
    s.step (.attempt trigger now completedAt script) = s.attempt trigger now completedAt script :=
  if_pos h

theorem step_not_open (trigger : ExitTrigger) (now completedAt : DateTime)
    (script : Nat → ExitLegScript) (h : s.trade.status ≠ .«open») :
    s.step (.attempt trigger now completedAt script) = s := if_neg h

/-- The cash of all the fills of the orders sent for the legs from a place on. -/
def cashFrom (books : Nat → ReducingBook) : Nat → List Side → ℚ
  | _, [] => 0
  | idx, side :: rest => -(side.flip.sign * (books idx).notional) + cashFrom books (idx + 1) rest

/-- The sides of the legs, in the order of an exit. -/
def sides : List Side := (s.legs.insertionSort (fun a b => a.legIdx ≤ b.legIdx)).map Leg.side

/-- The cash of every fill of every exit order. -/
def exitCash : ℚ := cashFrom s.books 0 s.sides

/-- The cash at entry, from the columns of the trade. -/
def entryCash : ℚ :=
  entryCashflowInr s.trade.premiumPaidInr s.trade.creditReceivedInr s.trade.lots

end LiveTrade

end OptionsBot
