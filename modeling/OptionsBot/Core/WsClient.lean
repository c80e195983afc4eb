import OptionsBot.Lib.Python

/-!
# WebSocket Client

The reconnect loop of the feed's client.

An attempt to connect either fails, or is established and lasts until the connection
drops, or until the client is stopped. Only in the last case does it return. A failure
and a drop both leave it by an exception, and the loop waits, for longer each time,
before it tries again. The wait ends early when the client is stopped.

Everything from outside is in how an attempt ends: whether it was established, the
jitter that was drawn after it, and whether the client was stopped before the wait was
over. A cancelled attempt ends the loop, and so does the stop that one returns for.

## Main definitions

* `WsStats`: The client's counters.
* `AttemptEnd`: How an attempt to connect ends.
* `DeltaWebSocketClient`: The client, with the delays it has waited.
* `DeltaWebSocketClient.nextBackoff`: The delay after the next exception.
* `DeltaWebSocketClient.run`: The reconnect loop.
-/

namespace OptionsBot

structure WsStats where
  connected : Bool := false
  connectionCount : Nat := 0
  reconnects : Nat := 0
  deriving DecidableEq, Repr

/-- How an attempt to connect ends. -/
inductive AttemptEnd where
  | returned
  | raised (established : Bool) (jitter : ℚ) (stops : Bool)
  | cancelled (established : Bool)
  deriving DecidableEq, Repr

/-- The client, as its loop sees it. The delays it has waited out are kept for the record. -/
structure DeltaWebSocketClient where
  initialBackoff : ℚ
  maxBackoff : ℚ
  backoff : ℚ
  stats : WsStats := {}
  delays : List ℚ := []
  deriving DecidableEq, Repr

namespace DeltaWebSocketClient

/-- A client at the start of its loop. -/
def make (initialBackoff maxBackoff : ℚ) : DeltaWebSocketClient :=
  { initialBackoff := initialBackoff, maxBackoff := maxBackoff, backoff := initialBackoff }

/-- `min(max_backoff, max(initial_backoff, backoff * 2 * jitter))`. -/
def nextBackoff (initialBackoff maxBackoff backoff jitter : ℚ) : ℚ :=
  min maxBackoff (max initialBackoff (backoff * 2 * jitter))

/-- What an established connection counts. -/
def connect (self : DeltaWebSocketClient) (established : Bool) : DeltaWebSocketClient :=
  if established then
    { self with
      stats := { self.stats with
        connected := true
        connectionCount := self.stats.connectionCount + 1 } }
  else self

/-- The handler of an exception: after a wait, the delay for the next one is longer. -/
def reconnect (self : DeltaWebSocketClient) (jitter : ℚ) (stops : Bool) : DeltaWebSocketClient :=
  { self with
    stats := { self.stats with connected := false, reconnects := self.stats.reconnects + 1 }
    -- A wait that a stop cuts short is not waited out.
    delays := if stops then self.delays else self.delays ++ [self.backoff]
    backoff := nextBackoff self.initialBackoff self.maxBackoff self.backoff jitter }

/-- `run`, by how its attempts end. -/
def run (self : DeltaWebSocketClient) : List AttemptEnd → DeltaWebSocketClient
  | [] => self
  -- The pump comes back for a stop only, and after a stop there is no other attempt.
  | .returned :: _ => { self.connect true with backoff := self.initialBackoff }
  | .cancelled established :: _ => self.connect established
  | .raised established jitter stops :: rest =>
    let waited := (self.connect established).reconnect jitter stops
    if stops then waited else waited.run rest

end DeltaWebSocketClient

end OptionsBot
