import OptionsBot.Core.TradeRecord

/-!
# A Tick on the Whole Row

A tick of one trade as in `Core.Tick`, on the row with all of its columns and notes. The
order of its writes is the main loop's: a close is recorded with the notes that the tick
before has left, and the notes of this tick are written after it, to a row that may be
closed by then.

## Main definitions

* `RecordTrack`: The row of a trade, and the engine's record of it.
* `RecordTick`: What a tick meets.
* `RecordTrack.carryOut`, `RecordTrack.tick`: A directive, and the tick.

## Theorems

* `tick_toTrack`: On the columns that decisions read, it is the tick of the trade.
-/

namespace OptionsBot

/-- The row of a trade with its legs, and the engine's record of it, if there is one. -/
structure RecordTrack where
  record : TradeRecord
  legs : List Leg
  runtime : Option PositionRuntime := none

/-- The market at a tick, the times of its last candles, how an exit ends, and the wallets that
    were fetched. -/
structure RecordTick where
  market : MarketState
  lastTs : Underlying → Timeframe → DateTime
  execute : ExitRequest → ExitResult
  wallet : Option WalletSnapshot := none
  walletAtExit : Option WalletSnapshot := none

namespace RecordTick

variable (e : RecordTick)

/-- The tick as the columns that decisions read see it. -/
def toTrackTick (nav : NavTracker) : TrackTick :=
  { market := e.market, execute := e.execute, nav := nav }

/-- What a close at this tick is recorded with. -/
def exitContext (trade : Trade) (trigger : ExitTrigger) (result : ExitResult) : ExitContext :=
  { trigger := trigger
    result := result
    wallet := e.walletAtExit
    snapshot := indicatorSnapshotForTrade trade e.market e.lastTs
    quoteFor := e.market.quoteFor
    chain := e.market.chain
    now := e.market.now }

end RecordTick

namespace RecordTrack

variable (s : RecordTrack) (engine : ExitEngine) (e : RecordTick)

/-- The track of the columns that decisions read. -/
def toTrack : TradeTrack := { trade := s.record.trade, legs := s.legs, runtime := s.runtime }

/-- Carry out a directive. A close drops the engine's record, whether the exit succeeds or
    not. -/
def carryOut (d : ExitDirective) : RecordTrack :=
  match d.kind, d.trigger, d.newStopPrice with
  | .close, some trigger, _ =>
    match exitRequest s.record.trade s.legs trigger e.market.now with
    | .error _ => s
    | .ok request =>
      let result := e.execute request
      -- An exit that fails leaves the row open, but not the engine's record.
      if !result.success then { s with runtime := none }
      else
        { record := persistExitRecord s.record.trade s.legs
            (e.exitContext s.record.trade trigger result) s.record
          legs := s.legs.map (closedLeg result)
          runtime := none }
  | .updateStop, _, some newStopPrice =>
    if s.legs.isEmpty then s
    else { s with record := persistTrailStopRecord newStopPrice e.market.now e.wallet s.record }
  | _, _, _ => s

/-- A tick. The notes are refreshed after the directives, from the trade and the legs that the
    tick has loaded. -/
def tick : RecordTrack :=
  if s.record.trade.status ≠ .«open» then { s with runtime := none }
  else
    match tradeToPositionState s.record.trade s.legs e.market.chain e.market.now with
    | .error _ => s
    | .ok position =>
      match engine.step (s.toTrack.load position) e.market with
      | .error _ => s
      | .ok (next, directives) =>
        let done := directives.foldl (fun t d => t.carryOut e d) { s with runtime := some next }
        -- The peak is the one the step has left, before its directives.
        { done with
          record := refreshOpenTradeRecord s.record.trade s.legs e.market.chain
            (indicatorSnapshotForTrade s.record.trade e.market e.lastTs) e.wallet
            (some (TradeTrack.peakOf next)) done.record }

theorem carryOut_toTrack (nav : NavTracker) (d : ExitDirective) :
    (s.carryOut e d).toTrack = s.toTrack.carryOut (e.toTrackTick nav) d := by
  rcases d with ⟨_, kind, trigger, newStopPrice, _⟩
  cases kind with
  | close =>
      cases trigger with
      | none => rfl
      | some trigger =>
          simp only [carryOut, TradeTrack.carryOut, toTrack, RecordTick.toTrackTick, persistExit]
          cases exitRequest s.record.trade s.legs trigger e.market.now with
          | error err => rfl
          | ok request =>
              dsimp only
              by_cases hsuccess : (e.execute request).success = true
              · simp only [hsuccess, Bool.not_true, Bool.false_eq_true, if_false, persistExitRecord]
                rfl
              · rw [Bool.not_eq_true] at hsuccess
                simp only [hsuccess, Bool.not_false, if_true]
  | updateStop =>
      cases newStopPrice with
      | none => rfl
      | some newStopPrice =>
          simp only [carryOut, TradeTrack.carryOut, toTrack]
          by_cases hempty : s.legs.isEmpty = true
          · simp only [hempty, if_true]
          · simp only [hempty, Bool.false_eq_true, if_false]
            rfl
  | noOp => rfl

theorem foldl_toTrack (nav : NavTracker) (directives : List ExitDirective) :
    (directives.foldl (fun t d => t.carryOut e d) s).toTrack =
      directives.foldl (fun t d => t.carryOut (e.toTrackTick nav) d) s.toTrack := by
  induction directives generalizing s with
  | nil => rfl
  | cons d rest ih => rw [List.foldl_cons, List.foldl_cons, ih, carryOut_toTrack]

/-- On the columns that decisions read, the tick is the one of the trade. -/
theorem tick_toTrack (nav : NavTracker) :
    (s.tick engine e).toTrack = (s.toTrack.tick engine (e.toTrackTick nav)).1 := by
  unfold tick TradeTrack.tick
  by_cases hstatus : s.record.trade.status ≠ .«open»
  · rw [if_pos hstatus, if_pos (show s.toTrack.trade.status ≠ .«open» from hstatus)]
    rfl
  · rw [if_neg hstatus, if_neg (show ¬ s.toTrack.trade.status ≠ .«open» from hstatus)]
    simp only [RecordTick.toTrackTick, show s.toTrack.trade = s.record.trade from rfl,
      show s.toTrack.legs = s.legs from rfl]
    cases tradeToPositionState s.record.trade s.legs e.market.chain e.market.now with
    | error err => rfl
    | ok position =>
        dsimp only
        cases engine.step (s.toTrack.load position) e.market with
        | error err => rfl
        | ok after =>
            have hdone := foldl_toTrack { s with runtime := some after.1 } e nav after.2
            simp only [toTrack, RecordTick.toTrackTick] at hdone
            simp only [toTrack, ← hdone]
            rfl

end RecordTrack

end OptionsBot
