import OptionsBot.Core.KillSwitch
import OptionsBot.Lib.Run

/-!
# Concurrent Shutdowns

What comes of several trips and shutdowns of one switch, in any interleaving.

A shutdown leaves its report behind at its very end, and that report is all that keeps
another one from doing the same again. So one that is called while the first still waits
sweeps, writes and calls back a second time and returns a report of its own. And a
shutdown that nothing has tripped sets the reason without tripping the switch, so a trip
that comes later replaces the reason.

## Main definitions

* `settles`: The reason that an event stands for.
* `reasonOf`: The reason of the first event that stands for one.
* `ShutdownOnce`: What is to hold of a switch at any time.
* `InTurn`: A shutdown comes first or behind a report, and a trip in front of them or
  as a shutdown's own.
* `Tidy`: What a switch looks like when all events come in turn.

## Theorems

* `tidy_step`: What an event in turn keeps.
* `once_iff`: Which event may come next.
* `shutdown_once_iff`: Exactly the events out of turn go wrong.
-/

namespace OptionsBot

namespace KillSwitch

/-- The reason that an event stands for: that of a trip, and of a shutdown the manual one. -/
def settles (e : KillSwitchEvent) : Option KillSwitchReason :=
  match e.act with
  | .trip reason => some reason
  | .pollFile present => if present then some .operatorFile else none
  | .shutdown _ => some .manual
  | _ => none

/-- The reason of the first event that stands for one. -/
def reasonOf (events : List KillSwitchEvent) : Option KillSwitchReason :=
  events.findSome? settles

/-- The switch has the reason of the first event, at most one sweep was begun, at most one
    state file written and at most one callback made, and all calls that are back have
    returned the same report, for which there was one of each. -/
structure ShutdownOnce (start : KillSwitch) (events : List KillSwitchEvent) : Prop where
  reason : (events.foldl step start).reason = reasonOf events
  sweeps : (events.foldl step start).sweeps ≤ 1
  files : (events.foldl step start).files.length ≤ 1
  callbacks : (events.foldl step start).callbacks ≤ 1
  same : ∀ maker report maker' report',
    .returned maker report ∈ (events.foldl step start).calls →
      .returned maker' report' ∈ (events.foldl step start).calls →
        maker = maker' ∧ report = report'
  produced : ∀ maker report, .returned maker report ∈ (events.foldl step start).calls →
    (events.foldl step start).sweeps = 1 ∧ (events.foldl step start).files.length = 1 ∧
      (events.foldl step start).callbacks = if start.hasCallback then 1 else 0

/-- A shutdown is the first one, or there is a report. A trip comes before it, or the
    switch is tripped already, or it has the reason that the shutdown has set. -/
def InTurn (self : KillSwitch) (e : KillSwitchEvent) : Prop :=
  match e.act with
  | .trip reason => self.requested = true ∨ self.calls = [] ∨ reason = .manual
  | .pollFile present => present = true → self.requested = true ∨ self.calls = []
  | .shutdown _ => self.calls = [] ∨ self.completed = true
  | _ => True

/-- Where a switch is, as long as its shutdowns come in turn: no shutdown was called, the
    only one is in its sweep or could not write, it waits for the callback, or its report
    is there and every call has returned it. -/
inductive Phase (switch : KillSwitch) : Prop
  | idle (calls : switch.calls = []) (unfinished : switch.completed = false)
      (sweeps : switch.sweeps = 0) (files : switch.files = []) (callbacks : switch.callbacks = 0)
  | sweeping (state : ShutdownCall) (calls : switch.calls = [state])
      (unreported : ∀ maker report, state ≠ .returned maker report)
      (unnotified : ∀ report, state ≠ .notifying report) (unfinished : switch.completed = false)
      (sweeps : switch.sweeps = 1) (files : switch.files = []) (callbacks : switch.callbacks = 0)
  | notifying (report : ShutdownReport) (calls : switch.calls = [.notifying report])
      (unfinished : switch.completed = false) (callback : switch.hasCallback = true)
      (sweeps : switch.sweeps = 1) (files : switch.files.length = 1)
      (callbacks : switch.callbacks = 1)
  | reported (maker : Nat) (report : ShutdownReport) (finished : switch.completed = true)
      (left : switch.report = some (maker, report)) (called : switch.calls ≠ [])
      (calls : ∀ state ∈ switch.calls, state = .returned maker report)
      (sweeps : switch.sweeps = 1) (files : switch.files.length = 1)
      (callbacks : switch.callbacks = if switch.hasCallback then 1 else 0)

/-- A switch whose events come in turn. -/
structure Tidy (start : KillSwitch) (events : List KillSwitchEvent) : Prop where
  reason : (events.foldl step start).reason = reasonOf events
  hasCallback : (events.foldl step start).hasCallback = start.hasCallback
  tripped : (events.foldl step start).requested = true → reasonOf events ≠ none
  unsettled : (events.foldl step start).calls = [] →
    (events.foldl step start).requested = false → reasonOf events = none
  manual : (events.foldl step start).calls ≠ [] →
    (events.foldl step start).requested = false → reasonOf events = some .manual
  phase : Phase (events.foldl step start)

section Steps

variable (self : KillSwitch) (report : ShutdownReport) (now : DateTime) (writable : Bool)

/-- The end of the only sweep. -/
theorem phase_finishSweep (hopen : self.completed = false) (hsweeps : self.sweeps = 1)
    (hfiles : self.files = []) (hcallbacks : self.callbacks = 0) :
    Phase { (self.finishSweep 0 report now writable).1 with
      calls := [(self.finishSweep 0 report now writable).2] } := by
  -- A write that fails ends the call, and without a callback there is nothing to wait for.
  by_cases hwritable : writable = true
  · by_cases hcallback : self.hasCallback = true
    · refine Phase.notifying
        { report with completedAt := some now, persistedPath := some self.statePath }
        ?_ ?_ ?_ ?_ ?_ ?_
      all_goals simp [finishSweep, hwritable, hcallback, hopen, hsweeps, hfiles, hcallbacks]
    · refine Phase.reported 0
        { report with completedAt := some now, persistedPath := some self.statePath }
        ?_ ?_ ?_ ?_ ?_ ?_ ?_
      all_goals simp [finishSweep, complete, hwritable, hcallback, hsweeps, hfiles, hcallbacks]
  · refine Phase.sweeping .raised ?_ ?_ ?_ ?_ ?_ ?_ ?_
    all_goals simp [finishSweep, hwritable, hopen, hsweeps, hfiles, hcallbacks]

/-- A round of it. -/
theorem phase_sweep (left : List Int) (hopen : self.completed = false) (hsweeps : self.sweeps = 1)
    (hfiles : self.files = []) (hcallbacks : self.callbacks = 0) :
    Phase { (self.sweep 0 left report now writable).1 with
      calls := [(self.sweep 0 left report now writable).2] } := by
  cases left with
  | nil => exact self.phase_finishSweep report now writable hopen hsweeps hfiles hcallbacks
  | cons tradeId rest =>
      refine Phase.sweeping (.cancelling tradeId rest report) ?_ ?_ ?_ ?_ ?_ ?_ ?_
      all_goals simp [sweep, hopen, hsweeps, hfiles, hcallbacks]

theorem phase_counts (h : Phase self) :
    self.sweeps ≤ 1 ∧ self.files.length ≤ 1 ∧ self.callbacks ≤ 1 := by
  cases h with
  | idle calls unfinished sweeps files callbacks => simp [sweeps, files, callbacks]
  | sweeping state calls unreported unnotified unfinished sweeps files callbacks =>
      simp [sweeps, files, callbacks]
  | notifying report calls unfinished callback sweeps files callbacks =>
      simp [sweeps, files, callbacks]
  | reported maker report finished left called calls sweeps files callbacks =>
      rw [callbacks]
      split_ifs <;> omega

/-- A trip concerns no call. -/
theorem phase_trip (h : Phase self) (reason : KillSwitchReason) : Phase (self.trip reason) := by
  unfold trip
  by_cases hrequested : self.requested = true
  · rw [if_pos hrequested]
    exact h
  · rw [if_neg hrequested]
    -- It sets the reason and the flag, which no phase is about.
    cases h with
    | idle calls unfinished sweeps files callbacks =>
        exact Phase.idle calls unfinished sweeps files callbacks
    | sweeping state calls unreported unnotified unfinished sweeps files callbacks =>
        exact Phase.sweeping state calls unreported unnotified unfinished sweeps files callbacks
    | notifying report calls unfinished callback sweeps files callbacks =>
        exact Phase.notifying report calls unfinished callback sweeps files callbacks
    | reported maker report finished left called calls sweeps files callbacks =>
        exact Phase.reported maker report finished left called calls sweeps files callbacks

/-- What a sweep and its end leave alone. -/
structure Frame (before after : KillSwitch) : Prop where
  reason : after.reason = before.reason
  requested : after.requested = before.requested
  hasCallback : after.hasCallback = before.hasCallback
  sweeps : after.sweeps = before.sweeps
  calls : after.calls = before.calls

theorem finishSweep_frame (call : Nat) :
    Frame self (self.finishSweep call report now writable).1 := by
  by_cases hwritable : writable = true <;> by_cases hcallback : self.hasCallback = true <;>
    constructor <;> simp [finishSweep, complete, hwritable, hcallback]

theorem sweep_frame (call : Nat) (left : List Int) :
    Frame self (self.sweep call left report now writable).1 := by
  cases left with
  | nil => exact self.finishSweep_frame report now writable call
  | cons tradeId rest => exact ⟨rfl, rfl, rfl, rfl, rfl⟩

/-- A call that goes on is no new call, and settles nothing. -/
structure Continues (before after : KillSwitch) : Prop where
  reason : after.reason = before.reason
  requested : after.requested = before.requested
  hasCallback : after.hasCallback = before.hasCallback
  calls : after.calls = [] ↔ before.calls = []

theorem Continues.refl : Continues self self := ⟨rfl, rfl, rfl, Iff.rfl⟩

theorem put_continues (next : KillSwitch × ShutdownCall) (call : Nat) (h : Frame self next.1) :
    Continues self (put next call) := by
  refine ⟨h.reason, h.requested, h.hasCallback, ?_⟩
  simp [put, h.calls]

theorem cancelled_continues (call : Nat) (outcome : Except String Nat) :
    Continues self (self.cancelled call outcome now writable) := by
  unfold cancelled
  split
  · cases outcome with
    | ok count => exact put_continues self _ call (sweep_frame _ _ _ _ _ _)
    | error exc => exact put_continues self _ call (finishSweep_frame _ _ _ _ _)
  · exact Continues.refl self

theorem notified_continues (call : Nat) : Continues self (self.notified call) := by
  unfold notified
  split
  · exact put_continues self _ call ⟨rfl, rfl, rfl, rfl, rfl⟩
  · exact Continues.refl self

/-- The only call is the first one. -/
theorem sole_call {call : Nat} {sole state : ShutdownCall} (calls : self.calls = [sole])
    (hcall : self.calls[call]? = some state) : call = 0 ∧ state = sole := by
  rw [calls, List.getElem?_singleton] at hcall
  split_ifs at hcall with hfirst
  · exact ⟨hfirst, (Option.some.inj hcall).symm⟩

theorem phase_cancelled (h : Phase self) (call : Nat) (outcome : Except String Nat) :
    Phase (self.cancelled call outcome now writable) := by
  unfold cancelled
  split
  · next tradeId left report hcall =>
    -- A call that waits for a cancel is the only one, and it is in its sweep.
    cases h with
    | idle calls => simp [calls] at hcall
    | notifying report calls => simp [calls, List.getElem?_singleton] at hcall
    | reported maker report finished left called calls =>
        have hstate := calls _ (List.mem_of_getElem? hcall)
        cases hstate
    | sweeping state calls unreported unnotified unfinished sweeps files callbacks =>
        rcases self.sole_call calls hcall with ⟨rfl, -⟩
        cases outcome with
        | ok count =>
            have hsame := self.sweep_frame (report.record tradeId count) now writable 0 left
            simpa [put, hsame.calls, calls] using self.phase_sweep (report.record tradeId count) now
              writable left unfinished sweeps files callbacks
        | error exc =>
            have hsame := self.finishSweep_frame (report.fail exc) now writable 0
            simpa [put, hsame.calls, calls] using self.phase_finishSweep (report.fail exc) now
              writable unfinished sweeps files callbacks
  · exact h

theorem phase_notified (h : Phase self) (call : Nat) : Phase (self.notified call) := by
  unfold notified
  split
  · next report hcall =>
    cases h with
    | idle calls => simp [calls] at hcall
    | sweeping state calls unreported unnotified =>
        exact absurd (self.sole_call calls hcall).2.symm (unnotified report)
    | reported maker report' finished left called calls =>
        have hstate := calls _ (List.mem_of_getElem? hcall)
        cases hstate
    | notifying report' calls unfinished callback sweeps files callbacks =>
        rcases self.sole_call calls hcall with ⟨rfl, -⟩
        refine Phase.reported 0 report ?_ ?_ ?_ ?_ ?_ ?_ ?_
        all_goals simp [put, complete, calls, sweeps, files, callback, callbacks]
  · exact h

/-- A sweep that begins is one more call. -/
theorem startSweep_calls (openTradeIds : List Int) : self.startSweep openTradeIds now writable =
    { (sweep { self with reason := some (self.reason.getD .manual), sweeps := self.sweeps + 1 }
        self.calls.length openTradeIds
        { requestedAt := now, reason := self.reason.getD .manual } now writable).1 with
      calls := self.calls ++
        [(sweep { self with reason := some (self.reason.getD .manual), sweeps := self.sweeps + 1 }
          self.calls.length openTradeIds
          { requestedAt := now, reason := self.reason.getD .manual } now writable).2] } := by
  have hsame := (sweep_frame
    { self with reason := some (self.reason.getD .manual), sweeps := self.sweeps + 1 }
    { requestedAt := now, reason := self.reason.getD .manual } now writable self.calls.length
    openTradeIds).calls
  simp only [startSweep, hsame]

theorem shutdown_new (hnew : self.completed = false) (openTradeIds : List Int) :
    self.shutdown openTradeIds now writable = self.startSweep openTradeIds now writable := by
  simp only [shutdown, hnew]

/-- A shutdown that finds the only call under way is out of turn. -/
theorem busy {sole : ShutdownCall} (calls : self.calls = [sole])
    (unfinished : self.completed = false) : ¬ (self.calls = [] ∨ self.completed = true) := by
  simp [calls, unfinished]

/-- A shutdown that is the first one begins the sweep, and one that finds a report returns
    it. -/
theorem phase_shutdown (h : Phase self) (openTradeIds : List Int)
    (hturn : self.calls = [] ∨ self.completed = true) :
    Phase (self.shutdown openTradeIds now writable) := by
  cases h with
  | idle calls unfinished sweeps files callbacks =>
      have hsweep := phase_sweep
        { self with reason := some (self.reason.getD .manual), sweeps := self.sweeps + 1 }
        { requestedAt := now, reason := self.reason.getD .manual } now writable openTradeIds
        unfinished (by simp [sweeps]) files callbacks
      rw [self.shutdown_new now writable unfinished, startSweep_calls]
      simpa [calls] using hsweep
  | sweeping state calls unreported unnotified unfinished =>
      exact absurd hturn (self.busy calls unfinished)
  | notifying report calls unfinished =>
      exact absurd hturn (self.busy calls unfinished)
  | reported maker report finished left called calls sweeps files callbacks =>
      refine Phase.reported maker report ?_ ?_ ?_ ?_ ?_ ?_ ?_
      all_goals simp [shutdown, finished, left, sweeps, files, callbacks]
      intro state hstate
      rcases hstate with hold | hnew
      · exact calls state hold
      · exact hnew

/-- A sweep that begins settles the reason, if it is not settled yet. -/
theorem startSweep_settles (openTradeIds : List Int) :
    (self.startSweep openTradeIds now writable).reason = some (self.reason.getD .manual) ∧
      (self.startSweep openTradeIds now writable).requested = self.requested ∧
      (self.startSweep openTradeIds now writable).hasCallback = self.hasCallback ∧
      (self.startSweep openTradeIds now writable).sweeps = self.sweeps + 1 := by
  have hsame := sweep_frame
    { self with reason := some (self.reason.getD .manual), sweeps := self.sweeps + 1 }
    { requestedAt := now, reason := self.reason.getD .manual } now writable self.calls.length
    openTradeIds
  rw [startSweep_calls]
  exact ⟨hsame.reason, hsame.requested, hsame.hasCallback, hsame.sweeps⟩

end Steps

theorem reasonOf_snoc (events : List KillSwitchEvent) (e : KillSwitchEvent) :
    reasonOf (events ++ [e]) = (reasonOf events).or (settles e) := by
  simp [reasonOf, List.findSome?_append]

/-- A switch that is settled is so by the first of its events. -/
theorem reasonOf_settled {events : List KillSwitchEvent} (h : reasonOf events ≠ none)
    (e : KillSwitchEvent) : reasonOf (events ++ [e]) = reasonOf events := by
  rw [reasonOf_snoc]
  cases hreason : reasonOf events with
  | none => exact absurd hreason h
  | some reason => rfl

section Runs

variable {start : KillSwitch} {events : List KillSwitchEvent}

/-- A switch with a call is settled. -/
theorem Tidy.settled (h : Tidy start events) (hcalls : (events.foldl step start).calls ≠ []) :
    reasonOf events ≠ none := by
  by_cases hrequested : (events.foldl step start).requested = true
  · exact h.tripped hrequested
  · rw [h.manual hcalls (by simpa using hrequested)]
    exact Option.some_ne_none _

/-- What is to be known of a switch after one more event. -/
theorem tidy_snoc {e : KillSwitchEvent} {after : KillSwitch} {settled : Option KillSwitchReason}
    (hstep : step (events.foldl step start) e = after)
    (hsettled : reasonOf (events ++ [e]) = settled) (hreason : after.reason = settled)
    (hcallback : after.hasCallback = start.hasCallback)
    (htripped : after.requested = true → settled ≠ none)
    (hunsettled : after.calls = [] → after.requested = false → settled = none)
    (hmanual : after.calls ≠ [] → after.requested = false → settled = some .manual)
    (hphase : Phase after) : Tidy start (events ++ [e]) := by
  have hafter : (events ++ [e]).foldl step start = after := by
    rw [List.foldl_append, List.foldl_cons, List.foldl_nil, hstep]
  constructor
  · rw [hafter, hreason, hsettled]
  · rw [hafter, hcallback]
  · rw [hafter, hsettled]
    exact htripped
  · rw [hafter, hsettled]
    exact hunsettled
  · rw [hafter, hsettled]
    exact hmanual
  · rw [hafter]
    exact hphase

/-- What a call that goes on keeps. -/
theorem tidy_continues (h : Tidy start events) (e : KillSwitchEvent) (hnone : settles e = none)
    (hsame : Continues (events.foldl step start) (step (events.foldl step start) e))
    (hphase : Phase (step (events.foldl step start) e)) : Tidy start (events ++ [e]) := by
  have hreason : reasonOf (events ++ [e]) = reasonOf events := by
    rw [reasonOf_snoc, hnone, Option.or_none]
  refine tidy_snoc rfl hreason ?_ ?_ ?_ ?_ ?_ hphase
  · rw [hsame.reason]
    exact h.reason
  · rw [hsame.hasCallback]
    exact h.hasCallback
  · rw [hsame.requested]
    exact h.tripped
  · rw [hsame.requested, hsame.calls]
    exact h.unsettled
  · rw [hsame.requested, ne_eq, hsame.calls]
    exact h.manual

/-- What a trip in turn keeps. -/
theorem tidy_trip (h : Tidy start events) (e : KillSwitchEvent) (reason : KillSwitchReason)
    (hsettles : settles e = some reason)
    (hstep : step (events.foldl step start) e = (events.foldl step start).trip reason)
    (hturn : (events.foldl step start).requested = true ∨
      (events.foldl step start).calls = [] ∨ reason = .manual) : Tidy start (events ++ [e]) := by
  have hphase := phase_trip _ h.phase reason
  by_cases hrequested : (events.foldl step start).requested = true
  · -- The switch is settled, and the trip comes to nothing.
    have hreason := reasonOf_settled (h.tripped hrequested) e
    have hsame : (events.foldl step start).trip reason = events.foldl step start := by
      rw [trip, if_pos hrequested]
    exact tidy_snoc (hstep.trans hsame) hreason h.reason h.hasCallback h.tripped h.unsettled
      h.manual h.phase
  · have hfalse : (events.foldl step start).requested = false := by simpa using hrequested
    have hreason : reasonOf (events ++ [e]) = some reason := by
      rw [reasonOf_snoc, hsettles]
      -- Behind a shutdown that has set the reason, only a manual trip agrees with it.
      by_cases hcalls : (events.foldl step start).calls = []
      · rw [h.unsettled hcalls hfalse, Option.none_or]
      · rcases hturn with htrue | hnone | hmanual
        · exact absurd htrue hrequested
        · exact absurd hnone hcalls
        · rw [h.manual hcalls hfalse, hmanual]
          rfl
    have htrip : (events.foldl step start).trip reason =
        { events.foldl step start with reason := some reason, requested := true } := by
      rw [trip, if_neg hrequested]
    rw [htrip] at hphase
    refine tidy_snoc (hstep.trans htrip) hreason rfl h.hasCallback
      (fun _ => Option.some_ne_none reason) (fun _ hnot => ?_) (fun _ hnot => ?_) hphase
    · cases hnot
    · cases hnot

/-- What the first shutdown keeps. -/
theorem tidy_startSweep (h : Tidy start events) (openTradeIds : List Int) (e : KillSwitchEvent)
    (hsettles : settles e = some .manual)
    (hstep : step (events.foldl step start) e =
      (events.foldl step start).startSweep openTradeIds e.now e.writable)
    (hfirst : (events.foldl step start).calls = [])
    (hphase : Phase ((events.foldl step start).startSweep openTradeIds e.now e.writable)) :
    Tidy start (events ++ [e]) := by
  have hbegun := startSweep_settles (events.foldl step start) e.now e.writable openTradeIds
  have hreason : reasonOf (events ++ [e]) = some ((reasonOf events).getD .manual) := by
    rw [reasonOf_snoc, hsettles]
    cases reasonOf events <;> rfl
  have hcalled :
      ((events.foldl step start).startSweep openTradeIds e.now e.writable).calls ≠ [] := by
    rw [startSweep_calls]
    exact List.concat_ne_nil _ _
  refine tidy_snoc hstep hreason ?_ ?_ (fun _ => Option.some_ne_none _)
    (fun hnone => absurd hnone hcalled) ?_ hphase
  · rw [hbegun.1, h.reason]
  · rw [hbegun.2.2.1, h.hasCallback]
  · intro _ hrequested
    rw [hbegun.2.1] at hrequested
    rw [h.unsettled hfirst hrequested, Option.getD_none]

/-- What a shutdown in turn keeps. -/
theorem tidy_shutdown (h : Tidy start events) (openTradeIds : List Int) (e : KillSwitchEvent)
    (hact : e.act = .shutdown openTradeIds)
    (hturn : (events.foldl step start).calls = [] ∨
      (events.foldl step start).completed = true) : Tidy start (events ++ [e]) := by
  have hstep : step (events.foldl step start) e =
      (events.foldl step start).shutdown openTradeIds e.now e.writable := by
    rw [step, hact]
  have hphase := phase_shutdown _ e.now e.writable h.phase openTradeIds hturn
  cases hcase : h.phase with
  | idle calls unfinished =>
      rw [shutdown_new _ _ _ unfinished] at hstep hphase
      exact tidy_startSweep h openTradeIds e (by rw [settles, hact]) hstep calls hphase
  | sweeping state calls unreported unnotified unfinished =>
      exact absurd hturn (busy _ calls unfinished)
  | notifying report calls unfinished =>
      exact absurd hturn (busy _ calls unfinished)
  | reported maker report finished left called =>
      -- The report is there, and all that is added is a call that has returned it.
      have hreturned : (events.foldl step start).shutdown openTradeIds e.now e.writable =
          { events.foldl step start with
            calls := (events.foldl step start).calls ++ [.returned maker report] } := by
        simp only [shutdown, finished, left]
      have hreason := reasonOf_settled (h.settled called) e
      rw [hreturned] at hphase
      exact tidy_snoc (hstep.trans hreturned) hreason h.reason h.hasCallback h.tripped
        (fun hnone => absurd hnone (List.concat_ne_nil _ _)) (fun _ => h.manual called) hphase

/-- What an event in turn keeps. -/
theorem tidy_step (h : Tidy start events) (e : KillSwitchEvent)
    (hturn : InTurn (events.foldl step start) e) : Tidy start (events ++ [e]) := by
  unfold InTurn at hturn
  cases hact : e.act with
  | trip reason =>
      rw [hact] at hturn
      exact tidy_trip h e reason (by rw [settles, hact]) (by rw [step, hact]) hturn
  | pollFile present =>
      rw [hact] at hturn
      cases present with
      | false =>
          -- A look that finds no file is none.
          have hstep : step (events.foldl step start) e = events.foldl step start := by
            rw [step, hact]
            rfl
          refine tidy_continues h e (by rw [settles, hact]; rfl) ?_ ?_
          · rw [hstep]
            exact Continues.refl _
          · rw [hstep]
            exact h.phase
      | true =>
          refine tidy_trip h e .operatorFile (by rw [settles, hact]; rfl)
            (by rw [step, hact]; rfl) ?_
          rcases hturn rfl with hrequested | hnone
          · exact Or.inl hrequested
          · exact Or.inr (Or.inl hnone)
  | shutdown openTradeIds =>
      rw [hact] at hturn
      exact tidy_shutdown h openTradeIds e hact hturn
  | cancelled call outcome =>
      have hstep : step (events.foldl step start) e =
          (events.foldl step start).cancelled call outcome e.now e.writable := by
        rw [step, hact]
      refine tidy_continues h e (by rw [settles, hact]) ?_ ?_
      · rw [hstep]
        exact cancelled_continues _ _ _ _ _
      · rw [hstep]
        exact phase_cancelled _ _ _ h.phase _ _
  | notified call =>
      have hstep : step (events.foldl step start) e = (events.foldl step start).notified call := by
        rw [step, hact]
      refine tidy_continues h e (by rw [settles, hact]) ?_ ?_
      · rw [hstep]
        exact notified_continues _ _
      · rw [hstep]
        exact phase_notified _ h.phase _

/-- A tidy switch has shut down once at most. -/
theorem Tidy.once (h : Tidy start events) : ShutdownOnce start events := by
  have hreturned : ∀ maker report, .returned maker report ∈ (events.foldl step start).calls →
      (events.foldl step start).report = some (maker, report) ∧
        (events.foldl step start).sweeps = 1 ∧ (events.foldl step start).files.length = 1 ∧
          (events.foldl step start).callbacks = if start.hasCallback then 1 else 0 := by
    intro maker report hmem
    cases h.phase with
    | idle calls => simp [calls] at hmem
    | sweeping state calls unreported =>
        rw [calls] at hmem
        exact absurd (List.mem_singleton.mp hmem).symm (unreported maker report)
    | notifying report calls => simp [calls] at hmem
    | reported maker' report' finished left called calls sweeps files callbacks =>
        have hsame := calls _ hmem
        cases hsame
        rw [h.hasCallback] at callbacks
        exact ⟨left, sweeps, files, callbacks⟩
  have hcounts := phase_counts _ h.phase
  -- There is one report, so what was returned is that.
  refine ⟨h.reason, hcounts.1, hcounts.2.1, hcounts.2.2, ?_,
    fun maker report hmem => (hreturned maker report hmem).2⟩
  intro maker report maker' report' hmem hmem'
  have hsame := (hreturned maker report hmem).1.symm.trans (hreturned maker' report' hmem').1
  simpa using hsame

/-- A trip out of turn replaces the reason. -/
theorem once_trip (h : Tidy start events) (e : KillSwitchEvent) (reason : KillSwitchReason)
    (hstep : step (events.foldl step start) e = (events.foldl step start).trip reason)
    (honce : ShutdownOnce start (events ++ [e])) :
    (events.foldl step start).requested = true ∨ (events.foldl step start).calls = [] ∨
      reason = .manual := by
  by_cases hrequested : (events.foldl step start).requested = true
  · exact Or.inl hrequested
  · by_cases hcalls : (events.foldl step start).calls = []
    · exact Or.inr (Or.inl hcalls)
    · -- The shutdown has settled the reason, and the trip sets another one.
      have hkept := honce.reason
      rw [List.foldl_append, List.foldl_cons, List.foldl_nil, hstep, trip, if_neg hrequested,
        reasonOf_settled (h.settled hcalls), h.manual hcalls (by simpa using hrequested)] at hkept
      exact Or.inr (Or.inr (by simpa using hkept))

/-- A shutdown out of turn begins a second sweep. -/
theorem once_shutdown (h : Tidy start events) (openTradeIds : List Int) (e : KillSwitchEvent)
    (hact : e.act = .shutdown openTradeIds) (honce : ShutdownOnce start (events ++ [e])) :
    (events.foldl step start).calls = [] ∨ (events.foldl step start).completed = true := by
  have hsecond : ∀ state, (events.foldl step start).calls = [state] →
      (events.foldl step start).completed = false → (events.foldl step start).sweeps = 1 →
        False := by
    intro state _ unfinished sweeps
    have hsweeps := honce.sweeps
    rw [List.foldl_append, List.foldl_cons, List.foldl_nil, step, hact] at hsweeps
    simp only [shutdown_new _ _ _ unfinished] at hsweeps
    rw [(startSweep_settles _ _ _ _).2.2.2, sweeps] at hsweeps
    omega
  cases h.phase with
  | idle calls => exact Or.inl calls
  | sweeping state calls unreported unnotified unfinished sweeps =>
      exact absurd sweeps (fun h1 => hsecond state calls unfinished h1)
  | notifying report calls unfinished callback sweeps =>
      exact absurd sweeps (fun h1 => hsecond _ calls unfinished h1)
  | reported maker report finished => exact Or.inr finished

/-- Behind events in turn, one more is right exactly if it is in turn. -/
theorem once_iff (h : Tidy start events) (e : KillSwitchEvent) :
    ShutdownOnce start (events ++ [e]) ↔ InTurn (events.foldl step start) e := by
  refine ⟨fun honce => ?_, fun hturn => (tidy_step h e hturn).once⟩
  unfold InTurn
  cases hact : e.act with
  | trip reason => exact once_trip h e reason (by rw [step, hact]) honce
  | pollFile present =>
      intro hpresent
      rcases once_trip h e .operatorFile (by rw [step, hact, hpresent]; rfl) honce with
        hrequested | hnone | hmanual
      · exact Or.inl hrequested
      · exact Or.inr hnone
      · cases hmanual
  | shutdown openTradeIds => exact once_shutdown h openTradeIds e hact honce
  | cancelled call outcome => trivial
  | notified call => trivial

end Runs

theorem tidy_make (statePath : String) (hasCallback : Bool) :
    Tidy (make statePath hasCallback) [] where
  reason := rfl
  hasCallback := rfl
  tripped := fun h => by cases h
  unsettled := fun _ _ => rfl
  manual := fun h => absurd rfl h
  phase := Phase.idle rfl rfl rfl rfl rfl

end KillSwitch

open KillSwitch (ShutdownOnce InTurn make)

/-- A switch has shut down once at most at all times, exactly if all that is done to it comes
    in turn. -/
theorem shutdown_once_iff (statePath : String) (hasCallback : Bool)
    (events : List KillSwitchEvent) :
    Throughout (ShutdownOnce (make statePath hasCallback)) events ↔
      Along KillSwitch.step InTurn (make statePath hasCallback) events :=
  throughout_iff_along KillSwitch.step _ InTurn _ (KillSwitch.Tidy (make statePath hasCallback))
    (KillSwitch.tidy_make statePath hasCallback).once (KillSwitch.tidy_make statePath hasCallback)
    (fun _ e h => KillSwitch.once_iff h e)
    (fun _ e h hturn => KillSwitch.tidy_step h e hturn) events

/-- A trip, and two shutdowns of which the second begins before the first is through. -/
def overlapping : List KillSwitchEvent :=
  [⟨.trip .sigterm, ⟨0⟩, true⟩, ⟨.shutdown [7], ⟨0⟩, true⟩, ⟨.shutdown [7], ⟨1⟩, true⟩,
    ⟨.cancelled 0 (.ok 2), ⟨2⟩, true⟩, ⟨.cancelled 1 (.ok 0), ⟨3⟩, true⟩]

theorem shutdown_twice : ¬ ∀ (statePath : String) (hasCallback : Bool)
    (events : List KillSwitchEvent), ShutdownOnce (make statePath hasCallback) events := by
  intro h
  exact absurd (h "runtime/shutdown.json" false overlapping).files (by decide)

end OptionsBot
