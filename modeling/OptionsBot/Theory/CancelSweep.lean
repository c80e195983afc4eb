import OptionsBot.Core.KillSwitch

/-!
# Cancel Sweeps

Whether a shutdown gets to all trades, when the orders of some cannot be cancelled.

The handler of the sweep is around the whole of it, so the first cancel that raises is
the last one: what comes after it in the list is not asked for, and its orders stay
open. That one is reported. A sweep is as it should be where only the last trade of the
list can fail.

## Main definitions

* `Cancel`: A trade with what cancelling its orders comes to.
* `shutdownAlone`: A shutdown from its call to its return.
* `SweepRight`: What a shutdown is to do.
* `swept`: What a sweep does to its report, and the trades it gets to.

## Theorems

* `shutdownAlone_swept`: A shutdown does what its sweep does.
* `swept_all_iff`, `swept_append`: How far a sweep gets.
* `lookup_swept`: What it records of a trade.
* `shutdown_right_iff`: Exactly a trade that fails in front of another goes wrong.
-/

namespace OptionsBot

/-- A trade of a shutdown, what cancelling its orders returns or raises, and when. -/
structure Cancel where
  tradeId : Int
  outcome : Except String Nat
  now : DateTime

def Cancel.succeeds (c : Cancel) : Prop := ∃ count, c.outcome = .ok count

theorem Cancel.fails {c : Cancel} {exc : String} (h : c.outcome = .error exc) : ¬ c.succeeds := by
  rintro ⟨count, hcount⟩
  rw [h] at hcount
  cases hcount

namespace KillSwitch

/-- A cancel of a call is through. -/
def cancelEvent (call : Nat) (c : Cancel) : KillSwitchEvent :=
  { act := .cancelled call c.outcome, now := c.now, writable := true }

/-- A shutdown of some trades from its call to its return, where the state file can be
    written. -/
def shutdownAlone (self : KillSwitch) (cancels : List Cancel) (now : DateTime) : KillSwitch :=
  ({ act := .shutdown (cancels.map Cancel.tradeId), now := now, writable := true } ::
    (cancels.map (cancelEvent self.calls.length) ++
      [{ act := .notified self.calls.length, now := now, writable := true }])).foldl step self

/-- A shutdown returns, has asked for a cancel for every trade, and reports the count of
    each that succeeded and the error of each that failed. Of a trade that is in the list
    more than once it reports the last count. -/
structure SweepRight (switch : KillSwitch) (cancels : List Cancel) (now : DateTime) : Prop where
  attempted : (switch.shutdownAlone cancels now).cancels =
    switch.cancels ++ (cancels.map Cancel.tradeId).map (fun id => (switch.calls.length, id))
  reported : ∃ report, (switch.shutdownAlone cancels now).calls[switch.calls.length]? =
      some (.returned switch.calls.length report) ∧
    (∀ before c after count, cancels = before ++ c :: after → c.outcome = .ok count →
      (∀ later ∈ after, later.tradeId = c.tradeId → ¬ later.succeeds) →
        Table.lookup Prod.fst c.tradeId report.cancellations = some (c.tradeId, count)) ∧
    ∀ c ∈ cancels, ∀ exc, c.outcome = .error exc →
      ∃ front back, report.error = some (front ++ exc ++ back)

/-- What a sweep does to its report, and the trades it asks for. -/
def swept (report : ShutdownReport) : List Cancel → ShutdownReport × List Int
  | [] => (report, [])
  | c :: rest =>
    match c.outcome with
    | .ok count =>
      let next := swept (report.record c.tradeId count) rest
      (next.1, c.tradeId :: next.2)
    | .error exc => (report.fail exc, [c.tradeId])

/-- What the end of a sweep leaves of its report. -/
structure Reported (report done : ShutdownReport) : Prop where
  cancellations : done.cancellations = report.cancellations
  error : done.error = report.error

section Runs

variable (self : KillSwitch) (call : Nat) (report done : ShutdownReport) (now : DateTime)

theorem finishSweep_spec : ∃ done, Reported report done ∧
    ((self.finishSweep call report now true).2 = .notifying done ∨
      (self.finishSweep call report now true).2 = .returned call done) ∧
    (self.finishSweep call report now true).1.cancels = self.cancels ∧
    (self.finishSweep call report now true).1.calls = self.calls := by
  refine ⟨{ report with completedAt := some now, persistedPath := some self.statePath },
    ⟨rfl, rfl⟩, ?_⟩
  by_cases hcallback : self.hasCallback = true <;> simp [finishSweep, complete, hcallback]

/-- A call that is past its sweep. -/
def Past : Prop := self.calls[call]? = some (.notifying done) ∨
  self.calls[call]? = some (.returned call done)

/-- A call that is past its sweep has no more cancels to wait for. -/
theorem cancelled_past (h : self.Past call done) (outcome : Except String Nat) (writable : Bool) :
    self.cancelled call outcome now writable = self := by
  rcases h with h | h <;> simp [cancelled, h]

theorem past_run (h : self.Past call done) (cancels : List Cancel) (last : KillSwitchEvent)
    (hlast : last.act = .notified call) :
    ((cancels.map (cancelEvent call) ++ [last]).foldl step self).cancels = self.cancels ∧
      ((cancels.map (cancelEvent call) ++ [last]).foldl step self).calls[call]? =
        some (.returned call done) := by
  induction cancels with
  | nil =>
      -- What waits for its callback returns now, and what has returned does nothing.
      rcases h with h | h
      · have hbound := (List.getElem?_eq_some_iff.mp h).1
        simp [step, hlast, notified, h, put, complete, List.getElem?_set_self hbound]
      · simp [step, hlast, notified, h]
  | cons c rest ih =>
      have hsame : step self (cancelEvent call c) = self :=
        self.cancelled_past call done c.now h c.outcome true
      rw [List.map_cons, List.cons_append, List.foldl_cons, hsame]
      exact ih

/-- The end of a sweep, and what a call does from there. -/
theorem finishSweep_run (hbound : call < self.calls.length) (cancels : List Cancel)
    (last : KillSwitchEvent) (hlast : last.act = .notified call) :
    ((cancels.map (cancelEvent call) ++ [last]).foldl step
        (put (self.finishSweep call report now true) call)).cancels = self.cancels ∧
      ∃ done, Reported report done ∧ ((cancels.map (cancelEvent call) ++ [last]).foldl step
        (put (self.finishSweep call report now true) call)).calls[call]? =
          some (.returned call done) := by
  rcases self.finishSweep_spec call report now with ⟨done, hdone, hstate, hcancels, hcalls⟩
  have hpast : (put (self.finishSweep call report now true) call).Past call done := by
    unfold Past put
    simp only [hcalls, List.getElem?_set_self hbound, Option.some.injEq]
    exact hstate
  have hrun := past_run _ call done hpast cancels last hlast
  exact ⟨hrun.1.trans hcancels, done, hdone, hrun.2⟩

/-- A sweep asks for the first of its trades. -/
theorem swept_head (c : Cancel) (cancels : List Cancel) :
    (swept report (c :: cancels)).2 = c.tradeId :: (swept report (c :: cancels)).2.tail := by
  cases houtcome : c.outcome <;> simp [swept, houtcome]

/-- A cancel that is counted takes the sweep on. -/
theorem step_counted (c : Cancel) (left : List Int) (count : Nat)
    (h : self.calls[call]? = some (.cancelling c.tradeId left report))
    (hcount : c.outcome = .ok count) : step self (cancelEvent call c) =
      put (self.sweep call left (report.record c.tradeId count) c.now true) call := by
  simp [step, cancelEvent, cancelled, h, hcount]

/-- A cancel that raises ends it. -/
theorem step_failed (c : Cancel) (left : List Int) (exc : String)
    (h : self.calls[call]? = some (.cancelling c.tradeId left report))
    (hexc : c.outcome = .error exc) : step self (cancelEvent call c) =
      put (self.finishSweep call (report.fail exc) c.now true) call := by
  simp [step, cancelEvent, cancelled, h, hexc]

/-- A cancel that raises is the last one of its call. -/
theorem failed_run (c : Cancel) (cancels : List Cancel) (exc : String)
    (hexc : c.outcome = .error exc)
    (last : KillSwitchEvent) (hlast : last.act = .notified call)
    (h : self.calls[call]? = some (.cancelling c.tradeId (cancels.map Cancel.tradeId) report)) :
    (((c :: cancels).map (cancelEvent call) ++ [last]).foldl step self).cancels =
        self.cancels ++ (swept report (c :: cancels)).2.tail.map (fun id => (call, id)) ∧
      ∃ done, Reported (swept report (c :: cancels)).1 done ∧
        (((c :: cancels).map (cancelEvent call) ++ [last]).foldl step self).calls[call]? =
          some (.returned call done) := by
  have hbound := (List.getElem?_eq_some_iff.mp h).1
  have hrun := self.finishSweep_run call (report.fail exc) c.now hbound cancels last hlast
  rw [List.map_cons, List.cons_append, List.foldl_cons, self.step_failed call report c _ exc h hexc]
  simpa [swept, hexc] using hrun

/-- From a cancel that it waits for on, a call does what its sweep does. -/
theorem sweep_run (c : Cancel) (cancels : List Cancel) (last : KillSwitchEvent)
    (hlast : last.act = .notified call)
    (h : self.calls[call]? = some (.cancelling c.tradeId (cancels.map Cancel.tradeId) report)) :
    (((c :: cancels).map (cancelEvent call) ++ [last]).foldl step self).cancels =
        self.cancels ++ (swept report (c :: cancels)).2.tail.map (fun id => (call, id)) ∧
      ∃ done, Reported (swept report (c :: cancels)).1 done ∧
        (((c :: cancels).map (cancelEvent call) ++ [last]).foldl step self).calls[call]? =
          some (.returned call done) := by
  induction cancels generalizing self report c with
  | nil =>
      have hbound := (List.getElem?_eq_some_iff.mp h).1
      cases houtcome : c.outcome with
      | ok count =>
          have hrun := self.finishSweep_run call (report.record c.tradeId count) c.now hbound []
            last hlast
          rw [List.map_cons, List.cons_append, List.foldl_cons,
            self.step_counted call report c [] count h houtcome, sweep]
          simpa [swept, houtcome] using hrun
      | error exc =>
          exact self.failed_run call report c [] exc houtcome last hlast h
  | cons next rest ih =>
      have hbound := (List.getElem?_eq_some_iff.mp h).1
      cases houtcome : c.outcome with
      | ok count =>
          rw [List.map_cons, List.cons_append, List.foldl_cons]
          -- The call waits for the next trade now, which it has asked for.
          have hstep := self.step_counted call report c _ count h houtcome
          have hrun := ih (step self (cancelEvent call c)) (report.record c.tradeId count) next
            (by rw [hstep]; simp [put, sweep, hbound])
          have hasked : (step self (cancelEvent call c)).cancels =
              self.cancels ++ [(call, next.tradeId)] := by
            rw [hstep]
            rfl
          have hswept : swept report (c :: next :: rest) =
              ((swept (report.record c.tradeId count) (next :: rest)).1,
                c.tradeId :: (swept (report.record c.tradeId count) (next :: rest)).2) := by
            rw [swept, houtcome]
          rw [hrun.1, hasked, hswept, List.tail_cons, swept_head, List.map_cons,
            List.append_assoc]
          exact ⟨rfl, hrun.2⟩
      | error exc =>
          exact self.failed_run call report c (next :: rest) exc houtcome last hlast h

/-- A shutdown does what its sweep does. -/
theorem shutdownAlone_swept (hnew : self.completed = false) (cancels : List Cancel) :
    ∃ report, report.cancellations = [] ∧ report.error = none ∧
      (self.shutdownAlone cancels now).cancels =
        self.cancels ++ (swept report cancels).2.map (fun id => (self.calls.length, id)) ∧
      ∃ done, Reported (swept report cancels).1 done ∧
        (self.shutdownAlone cancels now).calls[self.calls.length]? =
          some (.returned self.calls.length done) := by
  let reason := self.reason.getD .manual
  let report : ShutdownReport := { requestedAt := now, reason := reason }
  let begun : KillSwitch := { self with reason := some reason, sweeps := self.sweeps + 1 }
  let next := begun.sweep self.calls.length (cancels.map Cancel.tradeId) report now true
  have hstep : self.shutdown (cancels.map Cancel.tradeId) now true =
      { next.1 with calls := next.1.calls ++ [next.2] } := by
    simp only [shutdown, hnew, startSweep, next, begun, report, reason]
  refine ⟨report, rfl, rfl, ?_⟩
  unfold shutdownAlone
  rw [List.foldl_cons]
  simp only [step]
  rw [hstep]
  cases cancels with
  | nil =>
      rcases begun.finishSweep_spec self.calls.length report now with
        ⟨done, hdone, hstate, hcancels, hcalls⟩
      have hpast : Past { next.1 with calls := next.1.calls ++ [next.2] } self.calls.length
          done := by
        have hsame : next = begun.finishSweep self.calls.length report now true := rfl
        unfold Past
        simp only [hsame, hcalls, begun, List.getElem?_concat_length, Option.some.injEq]
        exact hstate
      have hrun := past_run _ self.calls.length done hpast []
        { act := .notified self.calls.length, now := now, writable := true } rfl
      refine ⟨?_, done, hdone, hrun.2⟩
      rw [hrun.1, swept, List.map_nil, List.append_nil]
      exact hcancels
  | cons c rest =>
      have hrun := sweep_run { next.1 with calls := next.1.calls ++ [next.2] } self.calls.length
        report c rest { act := .notified self.calls.length, now := now, writable := true } rfl
        (by simp [next, sweep, begun])
      refine ⟨?_, hrun.2⟩
      have hasked : next.1.cancels = self.cancels ++ [(self.calls.length, c.tradeId)] := rfl
      rw [hrun.1, swept_head, List.map_cons, hasked, List.append_assoc]
      rfl

end Runs

section Swept

variable (report : ShutdownReport)

/-- A sweep gets to every trade exactly if none fails but the last. -/
theorem swept_all_iff (cancels : List Cancel) :
    (swept report cancels).2 = cancels.map Cancel.tradeId ↔
      ∀ c ∈ cancels.dropLast, c.succeeds := by
  induction cancels generalizing report with
  | nil => simp [swept]
  | cons c rest ih =>
      cases houtcome : c.outcome with
      | ok count =>
          have hsucceeds : c.succeeds := ⟨count, houtcome⟩
          cases rest with
          | nil => simp [swept, houtcome]
          | cons d after =>
              have hrest := ih (report.record c.tradeId count)
              rw [swept, houtcome]
              simpa [hsucceeds] using hrest
      | error exc =>
          -- It has been asked for, so only what comes behind it is missing.
          have hfails := Cancel.fails houtcome
          cases rest with
          | nil => simp [swept, houtcome]
          | cons d after => simp [swept, houtcome, hfails]

/-- Trades that succeed are recorded, and the sweep goes on behind them. -/
theorem swept_append (before rest : List Cancel) (h : ∀ c ∈ before, c.succeeds) :
    ∃ recorded, (swept report (before ++ rest)).1 = (swept recorded rest).1 := by
  induction before generalizing report with
  | nil => exact ⟨report, rfl⟩
  | cons c more ih =>
      rcases h c List.mem_cons_self with ⟨count, hcount⟩
      rcases ih (report.record c.tradeId count) (fun x hx => h x (List.mem_cons_of_mem _ hx)) with
        ⟨recorded, hrecorded⟩
      exact ⟨recorded, by rw [← hrecorded, List.cons_append, swept, hcount]⟩

/-- What is recorded of a trade stays where it does not succeed again. -/
theorem lookup_swept (id : Int) (cancels : List Cancel)
    (h : ∀ c ∈ cancels, c.tradeId = id → ¬ c.succeeds) :
    Table.lookup Prod.fst id (swept report cancels).1.cancellations =
      Table.lookup Prod.fst id report.cancellations := by
  induction cancels generalizing report with
  | nil => rfl
  | cons c rest ih =>
      have hrest := fun r => ih r (fun x hx => h x (List.mem_cons_of_mem _ hx))
      cases houtcome : c.outcome with
      | ok count =>
          have hother : id ≠ c.tradeId := by
            intro hsame
            exact h c List.mem_cons_self hsame.symm ⟨count, houtcome⟩
          rw [swept, houtcome]
          simp only [hrest, ShutdownReport.record]
          exact Table.lookup_upsert_of_ne _ _ _ _ rfl id hother
      | error exc =>
          rw [swept, houtcome]
          rfl

end Swept

/-- A shutdown is right exactly if no trade fails that another one comes after. -/
theorem shutdown_right_iff (self : KillSwitch) (hnew : self.completed = false)
    (cancels : List Cancel) (now : DateTime) :
    SweepRight self cancels now ↔ ∀ c ∈ cancels.dropLast, c.succeeds := by
  rcases self.shutdownAlone_swept now hnew cancels with
    ⟨report, hnone, hnoError, hcancels, done, hdone, hreturned⟩
  constructor
  · intro hright
    have hsame := List.append_cancel_left (hcancels.symm.trans hright.attempted)
    exact (swept_all_iff report cancels).mp
      (List.map_injective_iff.mpr (Prod.mk_right_injective _) hsame)
  · intro hall
    refine ⟨?_, done, hreturned, ?_, ?_⟩
    · rw [hcancels, (swept_all_iff report cancels).mpr hall]
    · rintro before c after count rfl hcount hlater
      have hbefore : ∀ x ∈ before, x.succeeds := by
        intro x hx
        refine hall x ?_
        rw [List.dropLast_append_of_ne_nil (List.cons_ne_nil c after)]
        exact List.mem_append_left _ hx
      rcases swept_append report before (c :: after) hbefore with ⟨recorded, hrecorded⟩
      rw [hdone.cancellations, hrecorded, swept, hcount]
      simp only [lookup_swept _ c.tradeId after hlater]
      exact Table.lookup_upsert_self _ _ _ _ rfl
    · intro c hc exc hexc
      rcases List.mem_iff_append.mp hc with ⟨before, after, rfl⟩
      -- It is the last one, since it fails.
      have hlast : after = [] := by
        by_contra hne
        refine Cancel.fails hexc (hall c ?_)
        rw [List.dropLast_append_of_ne_nil (List.cons_ne_nil c after),
          List.dropLast_cons_of_ne_nil hne]
        exact List.mem_append_right _ List.mem_cons_self
      subst hlast
      have hbefore : ∀ x ∈ before, x.succeeds := by
        intro x hx
        refine hall x ?_
        rw [List.dropLast_concat]
        exact hx
      rcases swept_append report before [c] hbefore with ⟨recorded, hrecorded⟩
      refine ⟨"cancel_all_failed: ", "", ?_⟩
      rw [hdone.error, hrecorded, swept, hexc, String.append_empty]
      rfl

end KillSwitch

open KillSwitch (SweepRight shutdown_right_iff)

/-- A switch that nothing has happened to. -/
def freshSwitch : KillSwitch := KillSwitch.make "runtime/shutdown.json" false

def midnight : DateTime := combine 739383 0

/-- The orders of two trades, where those of the second cannot be cancelled. -/
theorem shutdown_right_iff_last : SweepRight freshSwitch
    [⟨1, .ok 2, midnight⟩, ⟨2, .error "RuntimeError('network down')", midnight⟩] midnight :=
  (shutdown_right_iff freshSwitch rfl _ midnight).mpr (by
    intro c hc
    rw [List.mem_singleton.mp hc]
    exact ⟨2, rfl⟩)

/-- The orders of two trades, where those of the first cannot be cancelled. The second one
    is left alone. -/
theorem shutdown_aborts : ¬ ∀ (switch : KillSwitch) (cancels : List Cancel) (now : DateTime),
    switch.completed = false → SweepRight switch cancels now := by
  intro h
  have hright := h freshSwitch
    [⟨1, .error "RuntimeError('network down')", midnight⟩, ⟨2, .ok 2, midnight⟩] midnight rfl
  exact absurd hright.attempted (by decide)

end OptionsBot
