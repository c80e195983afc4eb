import OptionsBot.Core.Engine
import OptionsBot.Core.ExitEngine

/-!
# A Tick of One Trade

What the main loop does with an open trade at a tick: it builds the position from
the rows, puts it into the record the exit engine keeps of the trade, steps the
engine, carries its directives out, and refreshes the notes.

The rows are in the database and the record is in memory. A restart keeps the
first and loses the second.

## Main definitions

* `TradeTrack`: The rows of a trade, and the engine's record of it.
* `TradeTrack.carryOut`: What a directive leads to.
* `TradeTrack.tick`: The tick.
* `TradeTrack.restart`: A restart.

## Theorems

* `TradeTrack.tick_of_step`: A tick that manages the position.
-/

namespace OptionsBot

/-- The rows of a trade, and the engine's record of it, if there is one. -/
structure TradeTrack where
  trade : Trade
  legs : List Leg
  runtime : Option PositionRuntime := none

/-- The market at a tick, and what a close of it meets. -/
structure TrackTick where
  market : MarketState
  execute : ExitRequest → ExitResult
  nav : NavTracker

namespace TradeTrack

variable (s : TradeTrack) (engine : ExitEngine) (e : TrackTick)

/-- The record of the trade with the position of this tick, or a new one. -/
def load (position : PositionState) : PositionRuntime :=
  match s.runtime with
  | none => { position := position }
  | some runtime => { runtime with position := position }

theorem load_position (position : PositionState) : (s.load position).position = position := by
  unfold load
  split
  · rfl
  · rfl

/-- Carry out a directive. A close drops the record, whether the exit succeeds or
    not. -/
def carryOut (d : ExitDirective) : TradeTrack :=
  match d.kind, d.trigger, d.newStopPrice with
  | .close, some trigger, _ =>
    match persistExit e.execute s.trade s.legs trigger e.nav e.market.now with
    | .error _ => s
    | .ok (trade, legs, _) => { trade := trade, legs := legs, runtime := none }
  | .updateStop, _, some newStopPrice =>
    if s.legs.isEmpty then s else { s with trade := persistTrailStop s.trade newStopPrice }
  | _, _, _ => s

/-- The peak a tick leaves in the notes. -/
def peakOf (runtime : PositionRuntime) : ℚ :=
  max runtime.peakPnlInr (orFloat runtime.position.peakPnlInr 0)

/-- A tick, with the directives of the engine. A trade that is not open has no
    record, and a step that raises changes nothing. -/
def tick : TradeTrack × List ExitDirective :=
  if s.trade.status ≠ .«open» then ({ s with runtime := none }, [])
  else
    match tradeToPositionState s.trade s.legs e.market.chain e.market.now with
    | .error _ => (s, [])
    | .ok position =>
      match engine.step (s.load position) e.market with
      | .error _ => (s, [])
      | .ok (next, directives) =>
        let done := directives.foldl (fun t d => t.carryOut e d) { s with runtime := some next }
        -- The notes are refreshed for every row the tick has started with.
        ({ done with
            trade := refreshOpenTradeNotes done.trade s.legs e.market.chain (some (peakOf next)) },
          directives)

/-- A tick that manages the position: the engine's step, its directives carried out,
    and the notes. -/
theorem tick_of_step (hopen : s.trade.status = .«open») (position : PositionState)
    (hview : tradeToPositionState s.trade s.legs e.market.chain e.market.now = .ok position)
    (next : PositionRuntime) (directives : List ExitDirective)
    (hstep : engine.step (s.load position) e.market = .ok (next, directives)) :
    let done := directives.foldl (fun t d => t.carryOut e d) { s with runtime := some next }
    s.tick engine e =
      ({ done with
          trade := refreshOpenTradeNotes done.trade s.legs e.market.chain (some (peakOf next)) },
        directives) := by
  unfold tick
  rw [if_neg (not_not.mpr hopen), hview]
  simp only [hstep]

/-- The process starts again: the rows stay, the record is gone. -/
def restart : TradeTrack := { s with runtime := none }

end TradeTrack

end OptionsBot
