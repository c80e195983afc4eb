import OptionsBot.Core.NavState
import OptionsBot.Lib.Run

/-!
# The Running Engine

The engine process together with what outlives it. The trades, the account
history and the marker files survive a restart. The account value in memory, the
dates of the two daily jobs and a nightly run that is under way do not.

The main loop and the nightly loop are tasks of one process that switch where
they wait, and a resume is a process of its own. So the events are what happens
between two such points, each can follow each, and a run in any order covers
every interleaving. A nightly run is two events: it reads its arguments, and
later it writes its row.

An event that raises leaves the state as it is.

## Main definitions

* `EngineState`: The process and what outlives it.
* `boot`: A start.
* `EngineState.risk`: The gate as the engine holds it.
* `EngineState.exitIn`: A close, whose session may fail.
* `EngineEvent`: What can happen next.
* `EngineState.step`: What it does.

## Theorems

* `exit_booked`, `exit_cases`, `entry_appends`, `entry_cases`, `sync_cases`,
  `dailyStart_cases`, `dailyWrite_cases`: What each event can change.
* `exit_filled`: What a filled exit adds to the account value.
* `sync_frame`: What a sync leaves alone.
* `lt_nextTradeId`: No trade has the next id.
* `step_history`, `step_rows`: What the events leave alone that do not write to it.
* `step_app`: No event but a restart changes the configuration.
* `step_marker`: No event removes the breaker's marker.
* `step_flag`: No event but a restart clears the flag in memory.
* `boot_value`: What a start takes the account to be worth.
* `boot_flag`: When a start has the flag.
-/

namespace OptionsBot

/-- The engine process, and the database and files it works on. -/
structure EngineState where
  app : AppConfig
  trades : List (Trade × List Leg)
  navHistory : NavTable
  runtimeDir : RuntimeDir
  nav : NavTracker
  now : DateTime
  lastIstTradingDate : Option Int := none
  lastDailyIstDate : Option Int := none
  pendingDaily : Option NavSnapshot := none

/-- A start: the account value from the database, and the flag from the marker as
    well. -/
def boot (app : AppConfig) (trades : List (Trade × List Leg)) (navHistory : NavTable)
    (runtimeDir : RuntimeDir) (now : DateTime) : EngineState :=
  let loaded := loadNavTracker (trades.map Prod.fst) navHistory app.effectiveNavInr now
  { app := app, trades := trades, navHistory := navHistory, runtimeDir := runtimeDir, now := now
    -- The marker alone is enough: the rows are not asked.
    nav := if runtimeDir.circuitBreaker then { loaded with circuitBreakerTripped := true }
      else loaded }

/-- What happens to the engine between two points where a task waits. -/
inductive EngineEvent where
  | clock (now : DateTime)
  | rollDay
  | updateNav (newNav : ℚ)
  | exit (execute : ExitRequest → ExitResult) (tradeId : Nat) (trigger : ExitTrigger)
  | entry (execute : EntryRequest → EntryResult) (intent : Intent) (input : GateInput)
      (market : MarketState)
  | sync
  | raisePeak
  | dailyStart
  | dailyWrite
  | shutdown
  | resume (confirm : Bool)
  | restart (app : AppConfig)

/-- The event may write to the history of account values. -/
def EngineEvent.WritesHistory : EngineEvent → Prop
  | .sync | .dailyWrite | .resume _ => True
  | _ => False

/-- The event may write to the trades. -/
def EngineEvent.WritesTrades : EngineEvent → Prop
  | .exit _ _ _ | .entry _ _ _ _ => True
  | _ => False

namespace EngineState

variable (s : EngineState)

/-- The gate on the account value of the process. -/
def risk : RiskManager :=
  { cfg := s.app.globalConfig, nav := s.nav, strategies := s.app.strategyById,
    requireLiveEnabled := s.app.isLive }

def rollDay : EngineState :=
  let rolled := maybeRollIstTradingDay s.nav s.now s.lastIstTradingDate
  { s with nav := rolled.1, lastIstTradingDate := some rolled.2 }

/-- Close an open trade. -/
def exit (execute : ExitRequest → ExitResult) (tradeId : Nat) (trigger : ExitTrigger) :
    EngineState :=
  match s.trades.find? (fun row => row.1.id = tradeId ∧ row.1.status = .«open») with
  | none => s
  | some row =>
    match persistExit execute row.1 row.2 trigger s.nav s.now with
    | .error _ => s
    | .ok (trade, legs, nav) =>
      { s with
        trades := Table.upsert (fun r => r.1.id) tradeId (fun _ => (trade, legs)) s.trades
        nav := nav }

/-- The id of the next trade row, past every id there is. -/
def nextTradeId : Nat := (s.trades.map (fun row => row.1.id)).foldr max 0 + 1

/-- How the database session of an exit ends: with its commit, with an exception
    and a rollback, or early because the trade row is gone. -/
inductive SessionOutcome where
  | committed
  | raised
  | missing
  deriving DecidableEq, Repr

/-- Close an open trade, with the session that writes its rows ending one way or
    another. The account value has moved before the session is opened. -/
def exitIn (outcome : SessionOutcome) (execute : ExitRequest → ExitResult) (tradeId : Nat)
    (trigger : ExitTrigger) : EngineState :=
  match outcome with
  | .committed => s.exit execute tradeId trigger
  -- The exception also ends the main loop's task, while the process goes on.
  | .raised => { s with nav := (s.exit execute tradeId trigger).nav }
  | .missing =>
    { s with
      trades := s.trades.filter (fun row => ¬(row.1.id = tradeId ∧ row.1.status = .«open»))
      nav := (s.exit execute tradeId trigger).nav }

/-- Put an intent through the gate, and open a trade on it when it is approved. -/
def entry (execute : EntryRequest → EntryResult) (intent : Intent) (input : GateInput)
    (market : MarketState) : EngineState :=
  match s.risk.gate intent input with
  | .error _ => s
  | .ok sizing =>
    if sizing.approved then
      match persistEntryAndExecute execute s.nextTradeId intent sizing market
        input.quoteFor input.chain s.app.globalConfig.execution.makerLimitTimeoutSeconds with
      | .error _ => s
      | .ok row => { s with trades := s.trades ++ [row] }
    else s

def sync : EngineState :=
  match syncCircuitBreakerFromRisk s.navHistory s.nav s.risk s.runtimeDir s.now with
  | .error _ => s
  | .ok (table, nav, dir) => { s with navHistory := table, nav := nav, runtimeDir := dir }

/-- The nightly loop between 22:35 and 23:00 in India, once a date, reading what
    the run is called with. The loop waits for a run that is under way. -/
def dailyStart : EngineState :=
  let nowIst := utcToIst s.now
  if s.pendingDaily.isSome then s
  else if nowIst.timeOfDay < hourMinute 22 35 ∨ hourMinute 23 0 ≤ nowIst.timeOfDay then s
  else if s.lastDailyIstDate = some nowIst.date then s
  else
    { s with
      pendingDaily := some
        { tradingDate := nowIst.date, navInr := s.nav.navNow,
          peakNavInr := max s.nav.peakNav s.nav.navNow,
          circuitBreakerTripped := s.nav.circuitBreakerTripped } }

/-- The nightly run that was started writes its row. -/
def dailyWrite : EngineState :=
  match s.pendingDaily with
  | none => s
  | some args =>
    match persistNav s.navHistory args with
    -- The date is not marked as done, so a run that raises is followed by another.
    | .error _ => { s with pendingDaily := none }
    | .ok (table, snapshot) =>
      { s with navHistory := table, pendingDaily := none,
               lastDailyIstDate := some snapshot.tradingDate }

/-- The operator's resume, with its report. -/
def resume (confirm : Bool) : ResumeReport × EngineState :=
  let result := ResumeService.evaluate s.navHistory s.runtimeDir confirm
  (result.1, { s with navHistory := result.2.1, runtimeDir := result.2.2 })

def step (s : EngineState) : EngineEvent → EngineState
  | .clock now => { s with now := now }
  | .rollDay => s.rollDay
  -- The tracker's own method, here for any value in either direction.
  | .updateNav newNav => { s with nav := s.nav.updateNav newNav }
  | .exit execute tradeId trigger => s.exit execute tradeId trigger
  | .entry execute intent input market => s.entry execute intent input market
  | .sync => s.sync
  | .raisePeak => { s with nav := { s.nav with peakNav := max s.nav.peakNav s.nav.navNow } }
  | .dailyStart => s.dailyStart
  | .dailyWrite => s.dailyWrite
  | .shutdown => { s with runtimeDir := { s.runtimeDir with shutdown := true } }
  | .resume confirm => (s.resume confirm).2
  -- A restart may come with another configuration.
  | .restart app => boot app s.trades s.navHistory s.runtimeDir s.now

variable {s}

/-- An exit leaves the state alone, writes an open row back as it was, or closes
    it and books its profit. -/
theorem exit_booked (execute : ExitRequest → ExitResult) (tradeId : Nat) (trigger : ExitTrigger) :
    s.exit execute tradeId trigger = s ∨
      ∃ row ∈ s.trades, row.1.id = tradeId ∧ row.1.status = .«open» ∧
        ∃ request, exitRequest row.1 row.2 trigger s.now = .ok request ∧
          ((execute request).success = false ∧
            s.exit execute tradeId trigger = { s with
              trades := Table.upsert (fun r => r.1.id) tradeId (fun _ => row) s.trades } ∨
          (execute request).success = true ∧
            s.exit execute tradeId trigger = { s with
              trades := Table.upsert (fun r => r.1.id) tradeId
                (fun _ => ({ row.1 with
                    status := .closed
                    exitTs := some ((execute request).completedAt.getD s.now)
                    realisedPnlInr := some (tradeRealisedPnl row.1 (execute request))
                    exitReason := some trigger },
                  row.2.map (closedLeg (execute request)))) s.trades
              nav := { s.nav with
                navNow := s.nav.navNow + tradeRealisedPnl row.1 (execute request) } }) := by
  unfold exit
  split
  · exact Or.inl rfl
  · next row hfind =>
    split
    · exact Or.inl rfl
    · next trade legs nav hexit =>
      refine Or.inr ⟨row, List.mem_of_find?_eq_some hfind, ?_⟩
      have hopen := List.find?_some hfind
      simp only [decide_eq_true_eq] at hopen
      refine ⟨hopen.1, hopen.2, ?_⟩
      rcases persistExit_cases execute row.1 trade row.2 legs trigger s.nav nav s.now hexit with
        ⟨request, hrequest, ⟨hfailed, rfl, rfl, rfl⟩ | ⟨hclosed, rfl, rfl, rfl⟩⟩
      · exact ⟨request, hrequest, Or.inl ⟨hfailed, rfl⟩⟩
      · exact ⟨request, hrequest, Or.inr ⟨hclosed, rfl⟩⟩

/-- The exit of an open trade that is filled moves the account value by its profit. -/
theorem exit_filled (hids : (s.trades.map (fun row => row.1.id)).Nodup)
    (execute : ExitRequest → ExitResult) (trigger : ExitTrigger) (row : Trade × List Leg)
    (hrow : row ∈ s.trades) (hopen : row.1.status = .«open») (request : ExitRequest)
    (hrequest : exitRequest row.1 row.2 trigger s.now = .ok request)
    (hsuccess : (execute request).success = true) :
    (s.exit execute row.1.id trigger).nav.navNow =
      s.nav.navNow + tradeRealisedPnl row.1 (execute request) := by
  unfold exit
  split
  · next hfind =>
    have hnone := List.find?_eq_none.mp hfind row hrow
    exact absurd (decide_eq_true ⟨rfl, hopen⟩) hnone
  · next found hfind =>
    have hfound := List.find?_some hfind
    simp only [decide_eq_true_eq] at hfound
    have hsame : found = row :=
      List.inj_on_of_nodup_map hids (List.mem_of_find?_eq_some hfind) hrow hfound.1
    subst hsame
    unfold persistExit
    simp only [hrequest, hsuccess, Bool.not_true, Bool.false_eq_true, if_false]

/-- An exit moves the trades and the account value, and keeps the flag. -/
theorem exit_cases (execute : ExitRequest → ExitResult) (tradeId : Nat) (trigger : ExitTrigger) :
    ∃ trades nav, s.exit execute tradeId trigger = { s with trades := trades, nav := nav } ∧
      nav.circuitBreakerTripped = s.nav.circuitBreakerTripped := by
  rcases exit_booked (s := s) execute tradeId trigger with
    hsame | ⟨row, _, _, _, request, _, ⟨_, hkept⟩ | ⟨_, hclosed⟩⟩
  · exact ⟨s.trades, s.nav, hsame, rfl⟩
  · exact ⟨_, s.nav, hkept, rfl⟩
  · exact ⟨_, _, hclosed, rfl⟩

/-- An intent leaves the state alone, or appends a row under a new id. -/
theorem entry_appends (execute : EntryRequest → EntryResult) (intent : Intent) (input : GateInput)
    (market : MarketState) :
    s.entry execute intent input market = s ∨
      ∃ row : Trade × List Leg, row.1.id = s.nextTradeId ∧ row.1.status ≠ .closed ∧
        s.entry execute intent input market = { s with trades := s.trades ++ [row] } := by
  unfold entry
  split
  · exact Or.inl rfl
  · split_ifs
    · split
      · exact Or.inl rfl
      · next row hrow =>
        rcases persistEntryAndExecute_row _ _ _ _ _ _ _ _ row hrow with ⟨hid, hstatus⟩
        exact Or.inr ⟨row, hid, hstatus, rfl⟩
    · exact Or.inl rfl

/-- An intent moves the trades only. -/
theorem entry_cases (execute : EntryRequest → EntryResult) (intent : Intent) (input : GateInput)
    (market : MarketState) :
    ∃ trades, s.entry execute intent input market = { s with trades := trades } := by
  rcases entry_appends (s := s) execute intent input market with hsame | ⟨_, _, _, heq⟩
  · exact ⟨s.trades, hsame⟩
  · exact ⟨_, heq⟩

/-- No trade has the next id. -/
theorem lt_nextTradeId (row : Trade × List Leg) (h : row ∈ s.trades) :
    row.1.id < s.nextTradeId := by
  unfold nextTradeId
  generalize s.trades = rows at h ⊢
  induction rows with
  | nil => exact absurd h List.not_mem_nil
  | cons a rest ih =>
      rw [List.map_cons, List.foldr_cons, Nat.lt_succ_iff]
      rcases List.mem_cons.mp h with rfl | hrest
      · exact le_max_left _ _
      · exact (Nat.lt_succ_iff.mp (ih hrest)).trans (le_max_right _ _)

/-- A nightly run that starts reads the flag in memory. -/
theorem dailyStart_cases : s.dailyStart = s ∨
    ∃ args, s.dailyStart = { s with pendingDaily := some args } ∧
      args.circuitBreakerTripped = s.nav.circuitBreakerTripped := by
  unfold dailyStart
  simp only
  split_ifs
  · exact Or.inl rfl
  · exact Or.inl rfl
  · exact Or.inl rfl
  · exact Or.inr ⟨_, rfl, rfl⟩

/-- A nightly run that writes was under way, and writes what it was called with,
    unless the table refuses. -/
theorem dailyWrite_cases : s.dailyWrite = s ∨ s.dailyWrite = { s with pendingDaily := none } ∨
    ∃ args r, s.pendingDaily = some args ∧
      s.dailyWrite = { s with navHistory := s.navHistory.write r, pendingDaily := none,
                              lastDailyIstDate := some args.tradingDate } ∧
      r.tradingDate = args.tradingDate ∧ r.navInr = args.navInr ∧
      r.circuitBreakerTripped = args.circuitBreakerTripped := by
  unfold dailyWrite
  -- Without a run under way there is nothing to write.
  rcases hpending : s.pendingDaily with _ | args
  · exact Or.inl rfl
  · refine Or.inr ?_
    rcases hrow : persistNav s.navHistory args with e | ⟨table, snapshot⟩
    · exact Or.inl (by simp only [hrow])
    · rcases persistNav_ok _ _ _ _ hrow with ⟨r, hwritten, hshown, hdate, hnav, hflag⟩
      refine Or.inr ⟨args, r, rfl, ?_, hdate, hnav, hflag⟩
      simp only [hrow, hwritten, hshown]

/-- A sync leaves the state alone or trips the breaker. -/
theorem sync_cases : s.sync = s ∨ (s.nav.circuitBreakerTripped = false ∧
    persistCircuitBreakerTrip s.navHistory s.nav s.runtimeDir s.now =
      .ok (s.sync.navHistory, s.sync.nav, s.sync.runtimeDir)) := by
  by_cases hflag : s.nav.circuitBreakerTripped = true
  -- The three ways out before the trip: the flag is set, the caps raise, or do not fire.
  · refine Or.inl ?_
    unfold sync syncCircuitBreakerFromRisk
    rw [if_pos hflag]
  · rcases hcaps : s.risk.evaluateCaps with e | cap
    · refine Or.inl ?_
      unfold sync syncCircuitBreakerFromRisk
      simp only [if_neg hflag, hcaps]
    · by_cases hstatus : cap.status = .circuitBreaker
      · rcases htrip : persistCircuitBreakerTrip s.navHistory s.nav s.runtimeDir s.now with
          e | ⟨table, nav, dir⟩
        · refine Or.inl ?_
          unfold sync syncCircuitBreakerFromRisk
          simp only [if_neg hflag, hcaps, if_neg (not_not.mpr hstatus), htrip]
        · refine Or.inr ⟨Bool.not_eq_true _ ▸ hflag, ?_⟩
          unfold sync syncCircuitBreakerFromRisk
          simp only [if_neg hflag, hcaps, if_neg (not_not.mpr hstatus), htrip]
      · refine Or.inl ?_
        unfold sync syncCircuitBreakerFromRisk
        simp only [if_neg hflag, hcaps, if_pos hstatus]

/-- A sync leaves the trades, the account value and the clock as they are. -/
theorem sync_frame : s.sync.trades = s.trades ∧ s.sync.nav.navNow = s.nav.navNow ∧
    s.sync.app = s.app ∧ s.sync.now = s.now ∧ s.sync.pendingDaily = s.pendingDaily := by
  unfold sync
  split
  · exact ⟨rfl, rfl, rfl, rfl, rfl⟩
  · next table nav dir hsync =>
    refine ⟨rfl, ?_, rfl, rfl, rfl⟩
    unfold syncCircuitBreakerFromRisk at hsync
    split_ifs at hsync
    · cases hsync
      rfl
    · split at hsync
      · cases hsync
      · split_ifs at hsync
        · cases hsync
          rfl
        · rw [(persistCircuitBreakerTrip_ok _ _ _ _ _ _ _ hsync).1]
          rfl

/-- A sync that sets the flag writes the marker. -/
theorem sync_trips (hflag : s.nav.circuitBreakerTripped = false)
    (htrip : s.sync.nav.circuitBreakerTripped = true) :
    s.sync.runtimeDir.circuitBreaker = true := by
  rcases sync_cases (s := s) with hsame | ⟨_, hpersist⟩
  · rw [hsame, hflag] at htrip
    exact absurd htrip Bool.false_ne_true
  · exact (persistCircuitBreakerTrip_ok _ _ _ _ _ _ _ hpersist).2.1

/-- A sync under the flag does nothing. -/
theorem sync_flagged (h : s.nav.circuitBreakerTripped = true) : s.sync = s := by
  rcases sync_cases (s := s) with hsame | ⟨hclear, _⟩
  · exact hsame
  · rw [h] at hclear
    exact absurd hclear Bool.noConfusion

/-- No other event writes to the history. -/
theorem step_history (e : EngineEvent) (h : ¬ e.WritesHistory) :
    (s.step e).navHistory = s.navHistory := by
  cases e with
  | exit execute tradeId trigger =>
      rcases exit_cases (s := s) execute tradeId trigger with ⟨_, _, heq, _⟩
      rw [step, heq]
  | entry execute intent input market =>
      rcases entry_cases (s := s) execute intent input market with ⟨_, heq⟩
      rw [step, heq]
  | dailyStart =>
      rcases dailyStart_cases (s := s) with heq | ⟨_, heq, _⟩ <;> rw [step, heq]
  | sync => exact absurd trivial h
  | dailyWrite => exact absurd trivial h
  | resume confirm => exact absurd trivial h
  | _ => rfl

/-- No other event writes to the trades. -/
theorem step_rows (e : EngineEvent) (h : ¬ e.WritesTrades) : (s.step e).trades = s.trades := by
  cases e with
  | exit execute tradeId trigger => exact absurd trivial h
  | entry execute intent input market => exact absurd trivial h
  | sync => exact (sync_frame (s := s)).1
  | dailyStart =>
      rcases dailyStart_cases (s := s) with heq | ⟨_, heq, _⟩ <;> rw [step, heq]
  | dailyWrite =>
      rcases dailyWrite_cases (s := s) with heq | heq | ⟨_, _, _, heq, _⟩ <;> rw [step, heq]
  | _ => rfl

/-- No event but a restart changes the configuration. -/
theorem step_app (e : EngineEvent) (he : ∀ app, e ≠ .restart app) : (s.step e).app = s.app := by
  cases e with
  | exit execute tradeId trigger =>
      rcases exit_cases (s := s) execute tradeId trigger with ⟨_, _, heq, _⟩
      rw [step, heq]
  | entry execute intent input market =>
      rcases entry_cases (s := s) execute intent input market with ⟨_, heq⟩
      rw [step, heq]
  | sync => exact (sync_frame (s := s)).2.2.1
  | dailyStart =>
      rcases dailyStart_cases (s := s) with heq | ⟨_, heq, _⟩ <;> rw [step, heq]
  | dailyWrite =>
      rcases dailyWrite_cases (s := s) with heq | heq | ⟨_, _, _, heq, _⟩ <;> rw [step, heq]
  | restart app => exact absurd rfl (he app)
  | _ => rfl

/-- No event removes the breaker's marker. -/
theorem step_marker (e : EngineEvent) (h : s.runtimeDir.circuitBreaker = true) :
    (s.step e).runtimeDir.circuitBreaker = true := by
  cases e with
  | clock now => exact h
  | rollDay => exact h
  | updateNav newNav => exact h
  | exit execute tradeId trigger =>
      rcases exit_cases (s := s) execute tradeId trigger with ⟨_, _, heq, _⟩
      rw [step, heq]
      exact h
  | entry execute intent input market =>
      rcases entry_cases (s := s) execute intent input market with ⟨_, heq⟩
      rw [step, heq]
      exact h
  | sync =>
      rcases sync_cases (s := s) with hsame | ⟨_, hpersist⟩
      · rw [step, hsame]
        exact h
      · exact (persistCircuitBreakerTrip_ok _ _ _ _ _ _ _ hpersist).2.1
  | raisePeak => exact h
  | dailyStart =>
      rcases dailyStart_cases (s := s) with heq | ⟨_, heq, _⟩ <;> rw [step, heq] <;> exact h
  | dailyWrite =>
      rcases dailyWrite_cases (s := s) with heq | heq | ⟨_, _, _, heq, _⟩ <;> rw [step, heq] <;>
        exact h
  | shutdown => exact h
  | resume confirm => exact (ResumeService.evaluate_runtimeDir _ _ confirm).trans h
  | restart app => exact h

/-- No event but a restart clears the flag in memory. -/
theorem step_flag (e : EngineEvent) (he : ∀ app, e ≠ .restart app)
    (h : s.nav.circuitBreakerTripped = true) : (s.step e).nav.circuitBreakerTripped = true := by
  cases e with
  | clock now => exact h
  | rollDay => exact (maybeRollIstTradingDay_breaker _ _ _).trans h
  | updateNav newNav => exact h
  | exit execute tradeId trigger =>
      rcases exit_cases (s := s) execute tradeId trigger with ⟨_, _, heq, hflag⟩
      rw [step, heq]
      exact hflag.trans h
  | entry execute intent input market =>
      rcases entry_cases (s := s) execute intent input market with ⟨_, heq⟩
      rw [step, heq]
      exact h
  | sync => rw [step, sync_flagged h]; exact h
  | raisePeak => exact h
  | dailyStart =>
      rcases dailyStart_cases (s := s) with heq | ⟨_, heq, _⟩ <;> rw [step, heq] <;> exact h
  | dailyWrite =>
      rcases dailyWrite_cases (s := s) with heq | heq | ⟨_, _, _, heq, _⟩ <;> rw [step, heq] <;>
        exact h
  | shutdown => exact h
  | resume confirm => exact h
  | restart app => exact absurd rfl (he app)

/-- A start has the realised account value, under the peak of the latest row. -/
theorem boot_value (app : AppConfig) (trades : List (Trade × List Leg)) (table : NavTable)
    (dir : RuntimeDir) (now : DateTime) :
    (boot app trades table dir now).nav.navNow =
        app.effectiveNavInr + sumRealisedPnlInr (trades.map Prod.fst) ∧
      (boot app trades table dir now).nav.peakNav =
        match table.latest with
        | none => app.effectiveNavInr + sumRealisedPnlInr (trades.map Prod.fst)
        | some m => max (app.effectiveNavInr + sumRealisedPnlInr (trades.map Prod.fst))
          m.peakNavInr := by
  unfold boot loadNavTracker
  simp only
  rcases table.latest with _ | m <;> split_ifs <;> exact ⟨rfl, rfl⟩

/-- A start has the flag of the marker or of the latest row. -/
theorem boot_flag (app : AppConfig) (trades : List (Trade × List Leg)) (table : NavTable)
    (dir : RuntimeDir) (now : DateTime)
    (h : dir.circuitBreaker = true ∨
      ∃ m, table.latest = some m ∧ m.circuitBreakerTripped = true) :
    (boot app trades table dir now).nav.circuitBreakerTripped = true := by
  unfold boot
  by_cases hmarker : dir.circuitBreaker = true
  · simp only [if_pos hmarker]
  · rcases h with hdir | ⟨m, hlatest, hflag⟩
    · exact absurd hdir hmarker
    · simp only [if_neg hmarker]
      exact (loadNavTracker_flag _ table _ now m hlatest).trans hflag

end EngineState

end OptionsBot
