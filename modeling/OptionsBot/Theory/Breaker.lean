import OptionsBot.Core.Runtime

/-!
# The Circuit Breaker over Whole Runs

A tripped breaker is held by two things, the flag in memory and the marker file,
and each event keeps both, so no intent is approved again.

The row of the account history is a third home, and a weaker one. A nightly run
that read its arguments before the trip writes its row after it, and the row then
says the breaker is clear. With no such run under way at the trip, and no row
dated ahead of it, the latest row stays flagged until a resume is confirmed, and
a start without the marker would still find the breaker tripped.

That also settles the resume. It clears the row and removes the marker of a
shutdown, which is another file. The breaker's own marker is one of the two
things that hold the breaker, and the next start reads it.

## Main definitions

* `EngineState.BreakerHeld`: The flag and the marker.
* `NavTable.FlaggedFrom`, `EngineState.RowHeld`: The rows, and what keeps them.
* `ResumedRun`: A trip, a resume that reports it cleared, and a restart.
* `UnblockedUnlessFallen`: What the resume is for.

## Theorems

* `gate_held_iff`: When a held breaker is not what rejects an intent.
* `step_held`: Every event keeps the breaker held.
* `tripped_never_approved`: After a trip no intent is approved.
* `dailyWrite_row`: What a nightly run leaves on its row.
* `tripped_row_survives`: When the row alone is enough at a start.
* `resumed_unblocked_iff`: When a resume lets intents past the breaker.
-/

namespace OptionsBot

-- The sample runs below compute with rationals.
attribute [local semireducible] Rat.add Rat.sub Rat.mul Rat.inv

/-- The breaker is held by the flag in memory and by the marker. -/
structure EngineState.BreakerHeld (s : EngineState) : Prop where
  flag : s.nav.circuitBreakerTripped = true
  marker : s.runtimeDir.circuitBreaker = true

theorem step_held (s : EngineState) (e : EngineEvent) (h : s.BreakerHeld) :
    (s.step e).BreakerHeld := by
  refine ⟨?_, EngineState.step_marker e h.marker⟩
  by_cases he : ∃ app, e = .restart app
  · rcases he with ⟨app, rfl⟩
    exact EngineState.boot_flag app s.trades s.navHistory s.runtimeDir s.now (Or.inl h.marker)
  · exact EngineState.step_flag e (fun app happ => he ⟨app, happ⟩) h.flag

/-- A held breaker stays held over a run. -/
theorem run_held (guard : EngineState → EngineEvent → Prop) (s t : EngineState)
    (hrun : Run EngineState.step guard s t) (h : s.BreakerHeld) : t.BreakerHeld :=
  hrun.invariant EngineState.BreakerHeld (fun a e _ ha => step_held a e ha) h

/-- The state after a trip, whatever the account value was. -/
theorem persisted_held (s : EngineState) (table : NavTable) (nav : NavTracker) (dir : RuntimeDir)
    (h : persistCircuitBreakerTrip s.navHistory s.nav s.runtimeDir s.now = .ok (table, nav, dir)) :
    EngineState.BreakerHeld { s with navHistory := table, nav := nav, runtimeDir := dir } := by
  rcases persistCircuitBreakerTrip_ok _ _ _ _ _ _ _ h with ⟨hnav, hdir, _⟩
  refine ⟨?_, hdir⟩
  simp only [hnav, NavTracker.tripBreaker]

/-- Under the flag the gate answers with the breaker, unless the window is closed
    or the caps cannot be evaluated. -/
theorem gate_held_iff (self : RiskManager) (hflag : self.nav.circuitBreakerTripped = true)
    (intent : Intent) (input : GateInput) :
    (∀ r, self.gate intent input = .ok r → r.decision ≠ .circuitBreaker) ↔
      self.window.isOpen input.nowUtc = false ∨
        (self.nav.peakNav ≤ 0 ∧ self.nav.navNow = 0) := by
  have hraise := self.caps.evaluate_raises_iff self.nav
  by_cases hopen : self.window.isOpen input.nowUtc = true
  · rcases hcaps : self.evaluateCaps with e | cap
    · -- The caps raise, and so does the gate.
      have hzero : self.nav.peakNav ≤ 0 ∧ self.nav.navNow = 0 := by
        refine hraise.mp (fun r hr => ?_)
        rw [RiskManager.evaluateCaps, hr] at hcaps
        cases hcaps
      refine ⟨fun _ => Or.inr hzero, fun _ r hr => ?_⟩
      unfold RiskManager.gate at hr
      simp only [hopen, hcaps, Bool.not_true, Bool.false_eq_true, if_false, reduceCtorEq] at hr
    · have hstatus : cap.status = .circuitBreaker :=
        self.caps.evaluate_tripped self.nav cap hflag hcaps
      have hgate : ∃ r, self.gate intent input = .ok r ∧ r.decision = .circuitBreaker := by
        unfold RiskManager.gate
        simp only [hopen, hcaps, hstatus, capToDecision, Bool.not_true, Bool.false_eq_true,
          if_false, ne_eq, reduceCtorEq, not_false_eq_true, if_true]
        exact ⟨_, rfl, rfl⟩
      constructor
      · intro hother
        rcases hgate with ⟨r, hr, hdec⟩
        exact absurd hdec (hother r hr)
      · rintro (hshut | hzero)
        · rw [hopen] at hshut
          exact absurd hshut Bool.noConfusion
        · exact absurd hcaps (hraise.mpr hzero cap)
  · rw [Bool.not_eq_true] at hopen
    refine ⟨fun _ => Or.inl hopen, fun _ r hr => ?_⟩
    unfold RiskManager.gate at hr
    simp only [hopen, Bool.not_false, if_true, Except.ok.injEq] at hr
    rw [← hr]
    exact RiskDecision.noConfusion

/-- Under the flag the gate approves nothing. -/
theorem gate_flag_rejects (self : RiskManager) (hflag : self.nav.circuitBreakerTripped = true)
    (intent : Intent) (input : GateInput) (r : SizingResult)
    (h : self.gate intent input = .ok r) : r.approved = false := by
  by_contra happroved
  rw [Bool.not_eq_false] at happroved
  rcases self.gate_approved intent input r h happroved with ⟨_, ⟨cap, hcap, hok⟩, _⟩
  have hstatus := self.caps.evaluate_tripped self.nav cap hflag hcap
  rw [hok] at hstatus
  exact CapStatus.noConfusion hstatus

/-- After a trip that was persisted, and with no confirmed resume, the gate never
    approves an intent. -/
theorem tripped_never_approved (s t : EngineState) (table : NavTable) (nav : NavTracker)
    (dir : RuntimeDir)
    (hpersist : persistCircuitBreakerTrip s.navHistory s.nav s.runtimeDir s.now =
      .ok (table, nav, dir))
    (hrun : Run EngineState.step (fun _ e => e ≠ .resume true)
      { s with navHistory := table, nav := nav, runtimeDir := dir } t)
    (intent : Intent) (input : GateInput) (r : SizingResult)
    (hgate : t.risk.gate intent input = .ok r) : r.approved = false := by
  have hheld : t.BreakerHeld := run_held _ _ _ hrun (persisted_held s table nav dir hpersist)
  exact gate_flag_rejects t.risk hheld.flag intent input r hgate

/-- Noon in India on a Tuesday. -/
def lossNoon : DateTime := combine (ymdToOrdinal 2026 5 12) (hourMinute 6 30)

/-- A call bought for 12000 rupees, of an account of 67000. -/
def lossTrade : Trade × List Leg :=
  ({ id := 1, strategyId := .directional, underlying := .btc,
     expiry := some (combine (ymdToOrdinal 2026 5 13) (hourMinute 17 30)),
     entryTs := lossNoon, lots := 1, premiumPaidInr := some 12000 },
   [{ tradeId := 1, strategyId := .directional, legIdx := 0, symbol := "C-BTC-97000-130526",
      optionType := some .call, strike := some 97000, side := .buy, lots := 1,
      entryPrice := some 12000 }])

/-- The call is sold for 500. -/
def lossExit (req : ExitRequest) : ExitResult :=
  { success := true, tradeId := req.tradeId,
    fills := [{ symbol := "C-BTC-97000-130526", side := .sell, qtyRequested := 1, qtyFilled := 1,
                avgFillPrice := some 500, legIdx := 0,
                clientOrderId := .generated "directional" 1 0 "exit_premium_stop" }] }

/-- The engine after the loss, with 55500 left. -/
def lossState : EngineState :=
  (boot shippedConfig [lossTrade] {} {} lossNoon).exit lossExit 1 .premiumStop

def lossIntent : Intent :=
  { strategyId := .directional, underlying := .btc, bucket := .d2
    legs := [{ symbol := "C-BTC-97000-130526", side := .buy, optionType := .call, strike := 97000,
               expiry := combine (ymdToOrdinal 2026 5 13) (hourMinute 17 30) }]
    requestedLots := 1, rationale := "directional_call_atr_breakout"
    targetPremiumInr := some 100 }

def lossInput : GateInput :=
  { nowUtc := lossNoon, accounting := { openCountTotal := 0, openCountByStrategy := fun _ => 0 } }

/-- The night after the trip: the account recovers, the nightly run writes its
    row, and the engine is restarted in the morning. -/
def lossNight : List EngineEvent :=
  [.updateNav 70000, .clock (combine (ymdToOrdinal 2026 5 12) (hourMinute 17 10)), .dailyStart,
   .dailyWrite, .clock (combine (ymdToOrdinal 2026 5 13) (hourMinute 6 30)), .restart shippedConfig,
   .rollDay]

/-- The engine after the trip. -/
def lossTripped : EngineState :=
  { lossState with
    navHistory := lossState.sync.navHistory
    nav := lossState.sync.nav
    runtimeDir := lossState.sync.runtimeDir }

theorem lossState_trips : persistCircuitBreakerTrip lossState.navHistory lossState.nav
    lossState.runtimeDir lossState.now =
      .ok (lossState.sync.navHistory, lossState.sync.nav, lossState.sync.runtimeDir) := by
  have hclear : lossState.nav.circuitBreakerTripped = false := by decide
  have htrip : lossState.sync.nav.circuitBreakerTripped = true := by decide
  rcases EngineState.sync_cases (s := lossState) with hsame | ⟨_, hpersist⟩
  · rw [hsame, hclear] at htrip
    exact absurd htrip Bool.false_ne_true
  · exact hpersist

theorem tripped_never_approved_lossState : ∃ r,
    (lossNight.foldl EngineState.step lossTripped).risk.gate lossIntent lossInput = .ok r ∧
      r.approved = false := by
  have hrun : Run EngineState.step (fun _ e => e ≠ .resume true) lossTripped
      (lossNight.foldl EngineState.step lossTripped) := by
    refine Run.ofEvents lossNight (fun e he _ => ?_) lossTripped
    simp only [lossNight, List.mem_cons, List.not_mem_nil, or_false] at he
    rcases he with rfl | rfl | rfl | rfl | rfl | rfl | rfl <;>
      exact fun h => EngineEvent.noConfusion h
  have hgate : ∃ r, (lossNight.foldl EngineState.step lossTripped).risk.gate lossIntent lossInput =
      .ok r := by
    have hok : ((lossNight.foldl EngineState.step lossTripped).risk.gate lossIntent
        lossInput).isOk = true := by decide
    rcases h : (lossNight.foldl EngineState.step lossTripped).risk.gate lossIntent lossInput with
      e | r
    · rw [h] at hok
      cases hok
    · exact ⟨r, rfl⟩
  rcases hgate with ⟨r, hr⟩
  exact ⟨r, hr, tripped_never_approved lossState _ _ _ _ lossState_trips hrun lossIntent lossInput r
    hr⟩

/-- A nightly run writes the flag it read when it started, whatever has happened
    to the breaker since. -/
theorem dailyWrite_row (s : EngineState) (args : NavSnapshot)
    (hpending : s.pendingDaily = some args) (hnav : 0 ≤ args.navInr) :
    ∃ r ∈ s.dailyWrite.navHistory.rows,
      r.tradingDate = args.tradingDate ∧
        r.circuitBreakerTripped = args.circuitBreakerTripped := by
  have hwrite : ∃ table snapshot, persistNav s.navHistory args = .ok (table, snapshot) := by
    unfold persistNav NavTable.commit
    simp only [dif_pos hnav]
    exact ⟨_, _, rfl⟩
  rcases hwrite with ⟨table, snapshot, hrow⟩
  rcases persistNav_ok _ _ _ _ hrow with ⟨r, hwritten, _, hdate, _, hflag⟩
  refine ⟨r, ?_, hdate, hflag⟩
  unfold EngineState.dailyWrite
  simp only [hpending, hrow, hwritten]
  exact s.navHistory.write_self r

/-- There is a row from a date on, and each says the breaker is tripped. -/
structure NavTable.FlaggedFrom (date : Int) (table : NavTable) : Prop where
  all : ∀ r ∈ table.rows, date ≤ r.tradingDate → r.circuitBreakerTripped = true
  some : ∃ r ∈ table.rows, date ≤ r.tradingDate

theorem write_flaggedFrom (date : Int) (table : NavTable) (r : NavHistory)
    (h : table.FlaggedFrom date) (hflag : r.circuitBreakerTripped = true) :
    (table.write r).FlaggedFrom date := by
  refine ⟨fun x hx hdate => ?_, ?_⟩
  · rcases table.mem_write r x hx with rfl | ⟨hold, _⟩
    · exact hflag
    · exact h.all x hold hdate
  · rcases h.some with ⟨x, hx, hdate⟩
    by_cases hsame : x.tradingDate = r.tradingDate
    · exact ⟨r, table.write_self r, hsame ▸ hdate⟩
    · exact ⟨x, table.write_other r x hx hsame, hdate⟩

/-- From a date on the rows, the flag in memory and a nightly run under way all
    say the breaker is tripped. -/
structure EngineState.RowHeld (date : Int) (s : EngineState) : Prop where
  flag : s.nav.circuitBreakerTripped = true
  rows : s.navHistory.FlaggedFrom date
  pending : ∀ args, s.pendingDaily = some args → args.circuitBreakerTripped = true

/-- What holds the row does not need the marker. -/
theorem step_rowHeld (date : Int) (s : EngineState) (e : EngineEvent) (he : e ≠ .resume true)
    (h : s.RowHeld date) : (s.step e).RowHeld date := by
  have hflag : (∀ app, e ≠ .restart app) → (s.step e).nav.circuitBreakerTripped = true :=
    fun happ => EngineState.step_flag e happ h.flag
  cases e with
  | clock now => exact ⟨h.flag, h.rows, h.pending⟩
  | rollDay => exact ⟨hflag (fun _ => EngineEvent.noConfusion), h.rows, h.pending⟩
  | updateNav newNav => exact ⟨h.flag, h.rows, h.pending⟩
  | exit execute tradeId trigger =>
      rcases EngineState.exit_cases (s := s) execute tradeId trigger with ⟨_, _, heq, hkept⟩
      rw [EngineState.step, heq]
      exact ⟨hkept.trans h.flag, h.rows, h.pending⟩
  | entry execute intent input market =>
      rcases EngineState.entry_cases (s := s) execute intent input market with ⟨_, heq⟩
      rw [EngineState.step, heq]
      exact ⟨h.flag, h.rows, h.pending⟩
  | sync =>
      rw [EngineState.step, EngineState.sync_flagged h.flag]
      exact h
  | raisePeak => exact ⟨h.flag, h.rows, h.pending⟩
  | dailyStart =>
      rcases EngineState.dailyStart_cases (s := s) with heq | ⟨args, heq, hread⟩
      · rw [EngineState.step, heq]
        exact h
      · rw [EngineState.step, heq]
        refine ⟨h.flag, h.rows, fun a ha => ?_⟩
        cases ha
        exact hread.trans h.flag
  | dailyWrite =>
      rcases EngineState.dailyWrite_cases (s := s) with heq | heq |
        ⟨args, r, hpending, heq, _, _, hread⟩
      · rw [EngineState.step, heq]
        exact h
      · rw [EngineState.step, heq]
        exact ⟨h.flag, h.rows, fun a ha => by cases ha⟩
      · rw [EngineState.step, heq]
        exact ⟨h.flag,
          write_flaggedFrom date s.navHistory r h.rows (hread.trans (h.pending args hpending)),
          fun a ha => by cases ha⟩
  | shutdown => exact ⟨h.flag, h.rows, h.pending⟩
  | resume confirm =>
      cases confirm with
      | true => exact absurd rfl he
      | false =>
          refine ⟨h.flag, ?_, h.pending⟩
          have hsame := ResumeService.evaluate_unconfirmed s.navHistory s.runtimeDir
          simp only [EngineState.step, EngineState.resume, hsame]
          exact h.rows
  | restart app =>
      have hlatest := s.navHistory.latest_from date _ h.rows.all h.rows.some
      exact ⟨EngineState.boot_flag app s.trades s.navHistory s.runtimeDir s.now (Or.inr hlatest),
        h.rows, fun a ha => by cases ha⟩

/-- After a trip with no nightly run under way and no row dated ahead, the account
    history alone makes every start a tripped one, until a resume is confirmed. -/
theorem tripped_row_survives (s t : EngineState) (table : NavTable) (nav : NavTracker)
    (dir : RuntimeDir)
    (hpersist : persistCircuitBreakerTrip s.navHistory s.nav s.runtimeDir s.now =
      .ok (table, nav, dir))
    (hdates : ∀ r ∈ s.navHistory.rows, r.tradingDate ≤ (utcToIst s.now).date)
    (hidle : s.pendingDaily = none)
    (hrun : Run EngineState.step (fun _ e => e ≠ .resume true)
      { s with navHistory := table, nav := nav, runtimeDir := dir } t)
    (trades : List Trade) (baseNavInr : ℚ) (now : DateTime) :
    (loadNavTracker trades t.navHistory baseNavInr now).circuitBreakerTripped = true := by
  rcases persistCircuitBreakerTrip_ok _ _ _ _ _ _ _ hpersist with
    ⟨hnav, _, r, rfl, hdate, _, hflag⟩
  have hrows : (s.navHistory.write r).FlaggedFrom (utcToIst s.now).date := by
    refine ⟨fun x hx hahead => ?_, r, s.navHistory.write_self r, hdate.ge⟩
    rcases s.navHistory.mem_write r x hx with rfl | ⟨hold, hother⟩
    · exact hflag
    · -- An old row of the date of the trip was replaced, and there is none ahead.
      rw [hdate] at hother
      exact absurd (le_antisymm (hdates x hold) hahead) hother
  have hstart : EngineState.RowHeld (utcToIst s.now).date
      { s with navHistory := s.navHistory.write r, nav := nav, runtimeDir := dir } := by
    refine ⟨?_, hrows, fun args hargs => ?_⟩
    · simp only [hnav, NavTracker.tripBreaker]
    · rw [hidle] at hargs
      cases hargs
  have hend := hrun.invariant (EngineState.RowHeld (utcToIst s.now).date)
    (fun a e he ha => step_rowHeld _ a e he ha) hstart
  rcases t.navHistory.latest_from _ _ hend.rows.all hend.rows.some with ⟨m, hm, htripped⟩
  exact (loadNavTracker_flag trades t.navHistory baseNavInr now m hm).trans htripped

/-- A run in which the engine trips the breaker from `s`, a confirmed resume at
    `t` reports it cleared, and the engine is restarted and goes on to `u`. -/
structure ResumedRun (s t u : EngineState) : Prop where
  clear : s.nav.circuitBreakerTripped = false
  trips : (s.step .sync).nav.circuitBreakerTripped = true
  before : Run EngineState.step (fun _ _ => True) (s.step .sync) t
  cleared : (t.resume true).1.cleared = true
  restarted : ∃ stopped app,
    Run EngineState.step (fun _ _ => True) (t.resume true).2 stopped ∧
      Run EngineState.step (fun _ _ => True) (stopped.step (.restart app)) u

/-- The breaker rejects the intent only if the account value is lower than it was
    at the resume. -/
def UnblockedUnlessFallen (t u : EngineState) (intent : Intent) (input : GateInput) : Prop :=
  u.nav.navNow < t.nav.navNow ∨
    ∀ r, u.risk.gate intent input = .ok r → r.decision ≠ .circuitBreaker

/-- A resume, confirmed and reported as cleared, leaves the breaker held. -/
theorem resumed_held (s t u : EngineState) (h : ResumedRun s t u) : u.BreakerHeld := by
  rcases h.restarted with ⟨stopped, app, hafter, hon⟩
  have htripped : (s.step .sync).BreakerHeld :=
    ⟨h.trips, EngineState.sync_trips h.clear h.trips⟩
  have hresumed : t.BreakerHeld := run_held _ _ _ h.before htripped
  have hstopped : stopped.BreakerHeld :=
    run_held _ _ _ hafter (step_held t (.resume true) hresumed)
  exact run_held _ _ _ hon (step_held stopped (.restart app) hstopped)

/-- After a resume and a restart the breaker is not what rejects an intent just
    when the account value has fallen, the window is closed, or the account is
    at zero under no positive peak. -/
theorem resumed_unblocked_iff (s t u : EngineState) (h : ResumedRun s t u) (intent : Intent)
    (input : GateInput) :
    UnblockedUnlessFallen t u intent input ↔
      u.nav.navNow < t.nav.navNow ∨ u.risk.window.isOpen input.nowUtc = false ∨
        (u.nav.peakNav ≤ 0 ∧ u.nav.navNow = 0) := by
  have hheld := resumed_held s t u h
  unfold UnblockedUnlessFallen
  rw [gate_held_iff u.risk hheld.flag intent input]
  exact Iff.rfl


/-- The run of the loss, resumed and restarted at once. -/
theorem lossState_resumed : ResumedRun lossState lossState.sync
    ((lossState.sync.resume true).2.step (.restart shippedConfig)) where
  clear := by decide
  trips := by decide
  before := Run.refl _
  cleared := by decide
  restarted := ⟨(lossState.sync.resume true).2, shippedConfig, Run.refl _, Run.refl _⟩

/-- At noon, with the account value unchanged and a peak that is positive, the intent stays
    blocked. -/
theorem resumed_unblocked_iff_lossState :
    ¬ UnblockedUnlessFallen lossState.sync
      ((lossState.sync.resume true).2.step (.restart shippedConfig)) lossIntent lossInput := by
  rw [resumed_unblocked_iff lossState lossState.sync _ lossState_resumed lossIntent lossInput]
  decide

/-- At noon, with the account value unchanged, the breaker still rejects the
    intent after the resume. -/
theorem resume_leaves_blocked : ¬ ∀ (s t u : EngineState), ResumedRun s t u →
    ∀ (intent : Intent) (input : GateInput), UnblockedUnlessFallen t u intent input := by
  intro hall
  have hheld := resumed_held _ _ _ lossState_resumed
  rcases hall _ _ _ lossState_resumed lossIntent lossInput with hfallen | hother
  · exact absurd hfallen (by decide)
  · rcases (gate_held_iff _ hheld.flag lossIntent lossInput).mp hother with hshut | ⟨_, hzero⟩
    · exact absurd hshut (by decide)
    · exact absurd hzero (by decide)

end OptionsBot
