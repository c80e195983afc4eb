import OptionsBot.Lib.Clock
import OptionsBot.Lib.Python
import OptionsBot.Lib.Table

/-!
# Kill Switch

The coordinator of a shutdown, as its calls are interleaved by the event loop.

Tripping the switch is one step. A shutdown is a task of its own: it waits for the
orders of each trade to be cancelled, one trade after the other, then writes the state
file, waits for the callback, and only then leaves its report behind for the calls that
come later. While it waits, any other task may run, and so may another shutdown.

What comes from outside is in the events: what cancelling the orders of a trade returns
or raises, whether the state file can be written, and when a task goes on. An exception
is its `repr`.

## Main definitions

* `KillSwitchReason`: Why the switch was tripped.
* `ShutdownReport`: What a shutdown reports.
* `ShutdownCall`: Where a call of `shutdown` is.
* `KillSwitch`: The switch, its calls, and what they did.
* `KillSwitch.trip`, `KillSwitch.pollFile`: Tripping the switch.
* `KillSwitch.shutdown`: A call, up to where it first waits.
* `KillSwitch.cancelled`, `KillSwitch.notified`: How a call that waits goes on.
* `KillSwitch.step`: What the event loop does next.
-/

namespace OptionsBot

inductive KillSwitchReason where
  | sigterm
  | sigint
  | circuitBreaker
  | operatorFile
  | manual
  | error
  deriving DecidableEq, Repr

structure ShutdownReport where
  requestedAt : DateTime
  completedAt : Option DateTime := none
  reason : KillSwitchReason
  cancellations : List (Int × Nat) := []
  error : Option String := none
  persistedPath : Option String := none
  deriving DecidableEq, Repr

/-- `report.cancellations[trade_id] = cancelled`. -/
def ShutdownReport.record (report : ShutdownReport) (tradeId : Int) (count : Nat) :
    ShutdownReport :=
  { report with
    cancellations :=
      Table.upsert Prod.fst tradeId (fun _ => (tradeId, count)) report.cancellations }

/-- `report.error = f"cancel_all_failed: {exc!r}"`. -/
def ShutdownReport.fail (report : ShutdownReport) (exc : String) : ShutdownReport :=
  { report with error := some ("cancel_all_failed: " ++ exc) }

/-- What is written to the state file. -/
structure ShutdownState where
  reason : KillSwitchReason
  requestedAt : DateTime
  completedAt : Option DateTime
  cancellations : List (Int × Nat)
  error : Option String
  deriving DecidableEq, Repr

/-- Where a call of `shutdown` is: waiting for the orders of a trade to be cancelled with
    some more trades to come, waiting for the callback, back with the report of a call,
    or at its end by an exception. -/
inductive ShutdownCall where
  | cancelling (tradeId : Int) (left : List Int) (report : ShutdownReport)
  | notifying (report : ShutdownReport)
  | returned (call : Nat) (report : ShutdownReport)
  | raised
  deriving DecidableEq, Repr

/-- The switch. A call is known by its place in the list of calls, and the report that is
    left behind by the call that made it. Kept for the record are the sweeps that were
    begun, the cancels that were asked for, what was written to the state file, and the
    callbacks. -/
structure KillSwitch where
  statePath : String
  hasCallback : Bool
  requested : Bool := false
  reason : Option KillSwitchReason := none
  completed : Bool := false
  report : Option (Nat × ShutdownReport) := none
  calls : List ShutdownCall := []
  sweeps : Nat := 0
  cancels : List (Nat × Int) := []
  files : List ShutdownState := []
  callbacks : Nat := 0
  deriving DecidableEq, Repr

/-- What the event loop does: a trip, a look for the operator's file, a call of
    `shutdown`, or one that goes on with what it has waited for. -/
inductive KillSwitchAct where
  | trip (reason : KillSwitchReason)
  | pollFile (present : Bool)
  | shutdown (openTradeIds : List Int)
  | cancelled (call : Nat) (outcome : Except String Nat)
  | notified (call : Nat)

/-- What it does, the time, and whether the state file can be written. -/
structure KillSwitchEvent where
  act : KillSwitchAct
  now : DateTime
  writable : Bool

namespace KillSwitch

/-- A new switch. -/
def make (statePath : String) (hasCallback : Bool) : KillSwitch :=
  { statePath := statePath, hasCallback := hasCallback }

def trip (self : KillSwitch) (reason : KillSwitchReason) : KillSwitch :=
  if self.requested then self else { self with reason := some reason, requested := true }

def pollFile (self : KillSwitch) (present : Bool) : KillSwitch :=
  if present then self.trip .operatorFile else self

/-- The end of a call: its report is left behind and returned. -/
def complete (self : KillSwitch) (call : Nat) (report : ShutdownReport) :
    KillSwitch × ShutdownCall :=
  ({ self with completed := true, report := some (call, report) }, .returned call report)

/-- What follows a sweep, up to where the callback is waited for: the state file is written,
    which is `_persist_state`, and the callback is called. -/
def finishSweep (self : KillSwitch) (call : Nat) (report : ShutdownReport) (now : DateTime)
    (writable : Bool) : KillSwitch × ShutdownCall :=
  if writable then
    let done : ShutdownReport :=
      { report with completedAt := some now, persistedPath := some self.statePath }
    let payload : ShutdownState :=
      { reason := report.reason, requestedAt := report.requestedAt, completedAt := some now,
        cancellations := report.cancellations, error := report.error }
    let written : KillSwitch := { self with files := self.files ++ [payload] }
    if self.hasCallback then
      ({ written with callbacks := written.callbacks + 1 }, .notifying done)
    else written.complete call done
  -- The write has no handler around it.
  else (self, .raised)

/-- The next round of the sweep, up to where the orders of a trade are cancelled. -/
def sweep (self : KillSwitch) (call : Nat) (left : List Int) (report : ShutdownReport)
    (now : DateTime) (writable : Bool) : KillSwitch × ShutdownCall :=
  match left with
  | tradeId :: rest =>
    ({ self with cancels := self.cancels ++ [(call, tradeId)] },
      .cancelling tradeId rest report)
  | [] => self.finishSweep call report now writable

/-- The call of `shutdown` that finds no report: a reason, a report of its own, and the
    sweep, up to where it first waits. -/
def startSweep (self : KillSwitch) (openTradeIds : List Int) (now : DateTime) (writable : Bool) :
    KillSwitch :=
  let reason := self.reason.getD .manual
  let begun : KillSwitch := { self with reason := some reason, sweeps := self.sweeps + 1 }
  let next := begun.sweep self.calls.length openTradeIds
    { requestedAt := now, reason := reason } now writable
  { next.1 with calls := next.1.calls ++ [next.2] }

/-- `shutdown`, up to where it first waits. -/
def shutdown (self : KillSwitch) (openTradeIds : List Int) (now : DateTime) (writable : Bool) :
    KillSwitch :=
  match self.completed, self.report with
  -- The flag is set at the end of a call, so one that is still under way does not show.
  | true, some (maker, report) => { self with calls := self.calls ++ [.returned maker report] }
  | _, _ => self.startSweep openTradeIds now writable

/-- A call goes on from where it has waited. -/
def put (next : KillSwitch × ShutdownCall) (call : Nat) : KillSwitch :=
  { next.1 with calls := next.1.calls.set call next.2 }

/-- The orders of a trade are cancelled, or that raises, which ends the sweep. -/
def cancelled (self : KillSwitch) (call : Nat) (outcome : Except String Nat) (now : DateTime)
    (writable : Bool) : KillSwitch :=
  match self.calls[call]? with
  | some (.cancelling tradeId left report) =>
    match outcome with
    | .ok count => put (self.sweep call left (report.record tradeId count) now writable) call
    -- The handler is around the loop, and the trades that are left are not gone through.
    | .error exc => put (self.finishSweep call (report.fail exc) now writable) call
  | _ => self

/-- The callback is through. What it raises is suppressed. -/
def notified (self : KillSwitch) (call : Nat) : KillSwitch :=
  match self.calls[call]? with
  | some (.notifying report) => put (self.complete call report) call
  | _ => self

def step (self : KillSwitch) (e : KillSwitchEvent) : KillSwitch :=
  match e.act with
  | .trip reason => self.trip reason
  | .pollFile present => self.pollFile present
  | .shutdown openTradeIds => self.shutdown openTradeIds e.now e.writable
  | .cancelled call outcome => self.cancelled call outcome e.now e.writable
  | .notified call => self.notified call

end KillSwitch

end OptionsBot
