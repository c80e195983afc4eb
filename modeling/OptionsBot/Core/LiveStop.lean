import OptionsBot.Core.LiveExit

/-!
# Stop Orders on the Exchange

A moved trailing stop is sent to the exchange as a cancel and a new stop order. The
cancel names the old order by its client order id. The new order gets an id of its
own, generated where it is sent, and on the side of the leg as it is passed in.

The engine then notes the stop price in the trade, whatever the executor reports.
Only an exception the executor does not catch keeps it from that.

The ids are kept here as the texts that are sent, since the two ids of a stop are
written by different functions. The digest in a generated id is a parameter.

## Main definitions

* `generateClientOrderId`: The id of an order.
* `trailClientId`: The id the engine cancels a stop by.
* `StopOrder`: A stop order, and its life on the exchange.
* `LiveExecutor.updateStop`: Cancel a stop and send the next.
* `GuardedTrade`: A live trade, and the stop orders sent for it.
* `GuardedTrade.trail`: The engine moves the stop of a trade.
* `GuardedTrade.noted`, `GuardedTrade.kept`: The two halves of what that leaves.
* `GuardedTrade.step`: A moved stop, an exit, or an event on the exchange.

## Theorems

* `trailClientId_ne`: No generated id is one the engine cancels by.
* `updateStop_cases`: What moving a stop leaves on the exchange.
* `trail_cases`: What it leaves of the trade.
-/

namespace OptionsBot

/-- The start of a text, in characters. -/
def takeChars (n : Nat) (text : String) : String := String.ofList (text.toList.take n)

/-- The end of a text, in characters. -/
def lastChars (n : Nat) (text : String) : String :=
  String.ofList (text.toList.drop (text.toList.length - n))

def compactStrategy (strategyId : String) : String :=
  match strategyId with
  | "directional" => "dr"
  | "credit_vertical" => "cv"
  | "long_straddle" => "ls"
  | "rollback" => "rb"
  | other => (takeChars 2 other).toLower

def compactPurpose (purpose : String) : String :=
  let token := String.ofList (purpose.toLower.toList.filter Char.isAlphanum)
  if token.isEmpty then "ord" else takeChars 6 token

section ClientId

variable (hexdigest : String → String)

/-- The id of an order. The salt is drawn at random for each. -/
def generateClientOrderId (strategyId : String) (tradeId : Nat) (legIdx : Int)
    (purpose salt : String) : String :=
  let raw := strategyId ++ "|" ++ toString tradeId ++ "|" ++ toString legIdx ++ "|" ++ purpose ++
    "|" ++ salt
  let digest := takeChars 10 (hexdigest raw)
  compactStrategy strategyId ++ "-" ++ lastChars 6 (toString tradeId) ++ "-" ++ toString legIdx ++
    "-" ++ compactPurpose purpose ++ "-" ++ digest

/-- The id the engine cancels a stop by: the trade, the leg, and the present second. -/
def trailClientId (tradeId : Nat) (legIdx time : Int) : String :=
  "trail-" ++ toString tradeId ++ "-" ++ toString legIdx ++ "-" ++ toString time

/-- The id of a stop order. -/
def stopClientId (tradeId : Nat) (newStopPrice : ℚ) (salt : String) : String :=
  generateClientOrderId hexdigest "directional" tradeId 0
    ("trail_" ++ toString (truncate newStopPrice)) salt

/-- A stop order never has an id the engine cancels by: they differ in the first
    character. -/
theorem trailClientId_ne (tradeId tradeId' : Nat) (legIdx time : Int) (newStopPrice : ℚ)
    (salt : String) :
    stopClientId hexdigest tradeId newStopPrice salt ≠ trailClientId tradeId' legIdx time := by
  intro h
  have hd : "dr".toList.head? = some 'd' := by decide
  have ht : "trail-".toList.head? = some 't' := by decide
  have hfirst := congrArg (fun text : String => text.toList.head?) h
  simp only [stopClientId, generateClientOrderId, compactStrategy, trailClientId,
    String.toList_append, List.head?_append, hd, ht, Option.some_or, Option.some.injEq] at hfirst
  cases hfirst

end ClientId

/-- A stop order as it was submitted, and its life on the exchange. -/
structure StopOrder where
  symbol : String
  productId : Int
  size : ℚ
  side : Side
  stopPrice : ℚ
  reduceOnly : Bool
  clientOrderId : String
  order : Order

/-- The stop can still be triggered. -/
def StopOrder.working (o : StopOrder) : Bool := o.order.working

/-- How the exchange treats a moved stop: the chain as it is read, what becomes of
    the cancel, and of the submission. -/
structure StopScript where
  chain : ChainCache
  cancellation : Cancellation RestError := {}
  placement : Placement RestError

/-- What the executor reports of a moved stop. -/
structure StopUpdate where
  ok : Bool
  tradeId : Nat
  error : Option String := none
  clientOrderId : Option String := none
  exchangeOrderId : Option Int := none
  deriving DecidableEq

namespace LiveExecutor

/-- Cancel the stop with an id, if there is one. -/
def cancelStop (clientOrderId : String) (c : Cancellation RestError) (stops : List StopOrder) :
    List StopOrder :=
  stops.map (fun o =>
    if o.clientOrderId = clientOrderId then { o with order := o.order.cancel c } else o)

/-- Cancel a stop and send the next. -/
def updateStop (hexdigest : String → String) (tradeId : Nat) (symbol : String) (side : Side)
    (qty : Int) (newStopPrice : ℚ) (clientOrderId salt : String) (script : StopScript)
    (stops : List StopOrder) : List StopOrder × Except RestError StopUpdate :=
  let kept := cancelStop clientOrderId script.cancellation stops
  let failed (e : RestError) : Except RestError StopUpdate :=
    if e.isDeltaRest then .ok { ok := false, tradeId := tradeId, error := some e.message }
    else .error e
  -- An error of the exchange is logged, and the new stop is sent all the same.
  match script.cancellation.error.filter (fun e => !e.isDeltaRest) with
  | some e => (kept, .error e)
  | none =>
    match script.chain.getInstrument symbol with
    | none => (kept, .ok { ok := false, tradeId := tradeId, error := some "missing_instrument" })
    | some instrument =>
      let newCoid := stopClientId hexdigest tradeId newStopPrice salt
      let sent (events : List OrderEvent) : StopOrder :=
        { symbol := symbol, productId := instrument.productId, size := qty, side := side,
          stopPrice := newStopPrice, reduceOnly := true, clientOrderId := newCoid,
          order := (Order.submit qty.toNat (Nat.cast_nonneg _)).run events }
      match script.placement with
      | .refused e => (kept, failed e)
      | .unanswered e => (sent [] :: kept, failed e)
      | .answered events id =>
        (sent events :: kept,
          .ok { ok := true, tradeId := tradeId, clientOrderId := some newCoid,
                exchangeOrderId := id })

/-- Moving a stop raises before a new one reaches the exchange: at the cancel, or at a
    submission that is refused, with an exception that is not of the exchange. -/
def StopRaises (script : StopScript) (symbol : String) : Prop :=
  (∃ e, script.cancellation.error = some e ∧ e.isDeltaRest = false) ∨
    (script.chain.getInstrument symbol).isSome ∧
      ∃ e, script.placement = .refused e ∧ e.isDeltaRest = false

/-- What moving a stop leaves: an exception and no new order, a report and no new
    order, or a new order on the side that was passed in. -/
theorem updateStop_cases (hexdigest : String → String) (tradeId : Nat) (symbol : String)
    (side : Side) (qty : Int) (newStopPrice : ℚ) (clientOrderId salt : String)
    (script : StopScript) (stops : List StopOrder) :
    let kept := cancelStop clientOrderId script.cancellation stops
    let updated := updateStop hexdigest tradeId symbol side qty newStopPrice clientOrderId salt
      script stops
    (StopRaises script symbol ∧ updated.1 = kept ∧ ∃ e, updated.2 = .error e) ∨
      ¬ StopRaises script symbol ∧
        ((updated.1 = kept ∧ ∃ report, updated.2 = .ok report) ∨
          ∃ o : StopOrder, updated.1 = o :: kept ∧ o.symbol = symbol ∧ o.side = side ∧
            o.stopPrice = newStopPrice ∧
            o.clientOrderId = stopClientId hexdigest tradeId newStopPrice salt ∧
            ((∃ report, updated.2 = .ok report) ∨ o.working = true)) := by
  intro kept updated
  have hshape : updated = updateStop hexdigest tradeId symbol side qty newStopPrice clientOrderId
    salt script stops := rfl
  unfold updateStop at hshape
  simp only at hshape
  rcases hcancel : script.cancellation.error.filter (fun e => !e.isDeltaRest) with _ | e
  · rw [hcancel] at hshape
    -- Past the cancel, only a refused submission can still raise.
    have hquiet : ((script.chain.getInstrument symbol).isSome → ∀ e,
        script.placement = .refused e → e.isDeltaRest = true) → ¬ StopRaises script symbol := by
      rintro hplace (⟨e, he, hnot⟩ | ⟨hsome, e, he, hnot⟩)
      · rw [he, Option.filter_some, hnot] at hcancel
        cases hcancel
      · rw [hplace hsome e he] at hnot
        cases hnot
    rcases hinst : script.chain.getInstrument symbol with _ | instrument
    · rw [hinst] at hshape hquiet
      exact Or.inr ⟨hquiet (fun hsome => by cases hsome),
        Or.inl ⟨congrArg Prod.fst hshape, _, congrArg Prod.snd hshape⟩⟩
    · rw [hinst] at hshape
      rcases hplace : script.placement with e | e | ⟨events, id⟩
      · rw [hplace] at hshape hquiet
        simp only at hshape
        by_cases hdelta : e.isDeltaRest = true
        · rw [if_pos hdelta] at hshape
          refine Or.inr ⟨hquiet (fun _ e' he => ?_),
            Or.inl ⟨congrArg Prod.fst hshape, _, congrArg Prod.snd hshape⟩⟩
          cases he
          exact hdelta
        · rw [if_neg hdelta] at hshape
          refine Or.inl ⟨Or.inr ⟨?_, e, hplace, Bool.eq_false_iff.mpr hdelta⟩,
            congrArg Prod.fst hshape, e, congrArg Prod.snd hshape⟩
          rw [hinst]
          rfl
      · rw [hplace] at hshape hquiet
        exact Or.inr ⟨hquiet (fun _ e' he => by cases he),
          Or.inr ⟨_, congrArg Prod.fst hshape, rfl, rfl, rfl, rfl, Or.inr rfl⟩⟩
      · rw [hplace] at hshape hquiet
        exact Or.inr ⟨hquiet (fun _ e' he => by cases he),
          Or.inr ⟨_, congrArg Prod.fst hshape, rfl, rfl, rfl, rfl,
            Or.inl ⟨_, congrArg Prod.snd hshape⟩⟩⟩
  · rw [hcancel] at hshape
    rcases Option.filter_eq_some_iff.mp hcancel with ⟨he, hnot⟩
    rw [Bool.not_eq_true'] at hnot
    exact Or.inl ⟨Or.inl ⟨e, he, hnot⟩, congrArg Prod.fst hshape, e, congrArg Prod.snd hshape⟩

end LiveExecutor

/-- A live trade, and the stop orders sent for it. -/
structure GuardedTrade where
  live : LiveTrade
  stops : List StopOrder := []

/-- A moved stop, an exit event, or something that happens to a stop order. -/
inductive GuardEvent where
  | trail (newStopPrice : ℚ) (time : Int) (salt : String) (script : StopScript)
  | exit (event : ExitEvent)
  | stop (k : Nat) (event : OrderEvent)

namespace GuardedTrade

variable (hexdigest : String → String) (s : GuardedTrade)

/-- The engine moves the stop of the trade's first leg. The price is noted whether or
    not the executor reports success. -/
def trail (newStopPrice : ℚ) (time : Int) (salt : String) (script : StopScript) : GuardedTrade :=
  match s.live.legs with
  | [] => s
  | leg :: _ =>
    let updated := LiveExecutor.updateStop hexdigest s.live.trade.id leg.symbol leg.side
      s.live.trade.lots newStopPrice (trailClientId s.live.trade.id leg.legIdx time) salt script
      s.stops
    match updated.2 with
    | .error _ => { s with stops := updated.1 }
    | .ok _ =>
      { live := { s.live with trade := persistTrailStop s.live.trade newStopPrice }
        stops := updated.1 }

/-- The trade with a stop price noted. -/
def noted (newStopPrice : ℚ) : LiveTrade :=
  { s.live with trade := persistTrailStop s.live.trade newStopPrice }

/-- The stops after the engine's cancel. -/
def kept (leg : Leg) (time : Int) (script : StopScript) : List StopOrder :=
  LiveExecutor.cancelStop (trailClientId s.live.trade.id leg.legIdx time) script.cancellation
    s.stops

/-- All that moving a stop can do. -/
theorem trail_cases (newStopPrice : ℚ) (time : Int) (salt : String) (script : StopScript)
    (leg : Leg) (rest : List Leg) (hlegs : s.live.legs = leg :: rest) :
    (LiveExecutor.StopRaises script leg.symbol ∧
        s.trail hexdigest newStopPrice time salt script =
          { live := s.live, stops := s.kept leg time script }) ∨
      ¬ LiveExecutor.StopRaises script leg.symbol ∧
        (s.trail hexdigest newStopPrice time salt script =
            { live := s.noted newStopPrice, stops := s.kept leg time script } ∨
          ∃ o : StopOrder, o.symbol = leg.symbol ∧ o.side = leg.side ∧
            o.stopPrice = newStopPrice ∧
            o.clientOrderId = stopClientId hexdigest s.live.trade.id newStopPrice salt ∧
            (s.trail hexdigest newStopPrice time salt script =
                { live := s.noted newStopPrice, stops := o :: s.kept leg time script } ∨
              o.working = true ∧ s.trail hexdigest newStopPrice time salt script =
                { live := s.live, stops := o :: s.kept leg time script })) := by
  unfold trail
  rw [hlegs]
  simp only
  have hcases := LiveExecutor.updateStop_cases hexdigest s.live.trade.id leg.symbol leg.side
    s.live.trade.lots newStopPrice (trailClientId s.live.trade.id leg.legIdx time) salt script
    s.stops
  simp only at hcases
  rcases hcases with ⟨hraises, hstops, e, he⟩ | ⟨hquiet, ⟨hstops, report, hreport⟩ |
    ⟨o, hstops, hsymbol, hside, hprice, hid, hend⟩⟩
  · rw [hstops, he]
    exact Or.inl ⟨hraises, rfl⟩
  · rw [hstops, hreport]
    exact Or.inr ⟨hquiet, Or.inl rfl⟩
  · refine Or.inr ⟨hquiet, Or.inr ⟨o, hsymbol, hside, hprice, hid, ?_⟩⟩
    rw [hstops]
    -- An exception can only come after the order where the answer is lost.
    rcases hupdated : (LiveExecutor.updateStop hexdigest s.live.trade.id leg.symbol leg.side
        s.live.trade.lots newStopPrice (trailClientId s.live.trade.id leg.legIdx time) salt script
        s.stops).2 with e | report
    · rcases hend with ⟨report, hreport⟩ | hworking
      · cases hupdated.symm.trans hreport
      · exact Or.inr ⟨hworking, rfl⟩
    · exact Or.inl rfl

/-- An event. Only the stop of an open trade is moved. -/
def step : GuardEvent → GuardedTrade
  | .trail newStopPrice time salt script =>
    if s.live.trade.status = .«open» then s.trail hexdigest newStopPrice time salt script else s
  | .exit event => { s with live := s.live.step event }
  | .stop k event =>
    { s with stops := s.stops.modify k (fun o => { o with order := o.order.apply event }) }

end GuardedTrade

end OptionsBot
