import OptionsBot.Theory.Breaker

/-!
# What a Resume Clears, and Who Still Sees It

A resume is a process of its own. It reads the latest row in one database
session and clears its flag in a second, and the engine can take any number of
steps in between and afterwards. The engine never reads the row again while it
runs: it works from the flag in memory, which a resume does not reach.

So the first result follows the flag. Every row that makes a resume worth
confirming was written by a process that had the flag, and a process keeps its
flag. From then on the one step that can undo the resume is a nightly run, which
writes the flag back. The breaker cannot trip again, because it never stopped
being tripped.

The second result is about the readers of the rows. A start and a resume look at
the latest row, the go-live gate at all of them. They agree as long as a tripped
row means a tripped latest row, and that is kept by every write that does not
leave an untripped row on top of a tripped one.

## Main definitions

* `NavTable.FlaggedOn`: The row of a date is tripped.
* `LatestHeld`: What a running engine's memory says about the latest row.
* `ResumeKept`: A step after a resume does not undo it.
* `ReadersAgree`: A start, a resume and the go-live gate see the same breaker.
* `EngineState.TripDue`: The next sync writes a trip.
* `WriteCoherent`, `CoherentStep`: The writes that keep them in agreement.

## Theorems

* `step_latestHeld`: Every event keeps a tripped latest row held in memory.
* `resume_kept_iff`: Exactly which step undoes a resume.
* `readersAgree_iff`: What agreement means for the rows.
* `sync_history`, `dailyWrite_history`: What a sync and a nightly run write.
* `write_agree_iff`, `step_agree_iff`: When a write keeps the agreement, and when
  an event does.
* `run_readersAgree`: Coherent steps keep the readers in agreement.
-/

namespace OptionsBot

-- The sample runs below compute with rationals.
attribute [local semireducible] Rat.add Rat.sub Rat.mul Rat.inv

/-- The row of a date is tripped. -/
def NavTable.FlaggedOn (table : NavTable) (date : Int) : Prop :=
  ∃ r ∈ table.rows, r.tradingDate = date ∧ r.circuitBreakerTripped = true

instance (table : NavTable) (date : Int) : Decidable (table.FlaggedOn date) :=
  inferInstanceAs (Decidable (∃ r ∈ table.rows, r.tradingDate = date ∧
    r.circuitBreakerTripped = true))

/-- The lifetime cap fires on the account value, whatever the flag says. -/
def EngineState.drawdownBreached (s : EngineState) : Bool :=
  match s.risk.caps.evaluate { s.nav with circuitBreakerTripped := false } with
  | .ok r => r.status = .circuitBreaker
  | .error _ => false

/-- A tripped latest row, and a nightly run that read a tripped flag, are those of
    a process that has the flag in memory. -/
structure LatestHeld (s : EngineState) : Prop where
  row : ∀ m, s.navHistory.latest = some m → m.circuitBreakerTripped = true →
    s.nav.circuitBreakerTripped = true
  pending : ∀ args, s.pendingDaily = some args → args.circuitBreakerTripped = true →
    s.nav.circuitBreakerTripped = true

theorem boot_latestHeld (app : AppConfig) (trades : List (Trade × List Leg)) (table : NavTable)
    (dir : RuntimeDir) (now : DateTime) : LatestHeld (boot app trades table dir now) where
  row := fun m hm hflag =>
    EngineState.boot_flag app trades table dir now (Or.inr ⟨m, hm, hflag⟩)
  pending := fun args hargs => by cases hargs

theorem step_latestHeld (s : EngineState) (e : EngineEvent) (h : LatestHeld s) :
    LatestHeld (s.step e) := by
  cases e with
  | clock now => exact ⟨h.row, h.pending⟩
  | rollDay =>
      have hflag := maybeRollIstTradingDay_breaker s.nav s.now s.lastIstTradingDate
      exact ⟨fun m hm ht => hflag.trans (h.row m hm ht), fun a ha ht =>
        hflag.trans (h.pending a ha ht)⟩
  | updateNav newNav => exact ⟨h.row, h.pending⟩
  | exit execute tradeId trigger =>
      rcases EngineState.exit_cases (s := s) execute tradeId trigger with ⟨_, _, heq, hflag⟩
      rw [EngineState.step, heq]
      exact ⟨fun m hm ht => hflag.trans (h.row m hm ht), fun a ha ht =>
        hflag.trans (h.pending a ha ht)⟩
  | entry execute intent input market =>
      rcases EngineState.entry_cases (s := s) execute intent input market with ⟨_, heq⟩
      rw [EngineState.step, heq]
      exact ⟨h.row, h.pending⟩
  | sync =>
      rcases EngineState.sync_cases (s := s) with hsame | ⟨_, hpersist⟩
      · rw [EngineState.step, hsame]
        exact h
      · -- A trip sets the flag in memory, whatever the rows say.
        rcases persistCircuitBreakerTrip_ok _ _ _ _ _ _ _ hpersist with ⟨hnav, _⟩
        have hflag : s.sync.nav.circuitBreakerTripped = true := by
          rw [hnav]
          rfl
        exact ⟨fun _ _ _ => hflag, fun _ _ _ => hflag⟩
  | raisePeak => exact ⟨h.row, h.pending⟩
  | dailyStart =>
      rcases EngineState.dailyStart_cases (s := s) with heq | ⟨args, heq, hread⟩
      · rw [EngineState.step, heq]
        exact h
      · rw [EngineState.step, heq]
        -- What the nightly run has read is the flag in memory.
        refine ⟨h.row, fun a ha ht => ?_⟩
        cases ha
        exact hread.symm.trans ht
  | dailyWrite =>
      rcases EngineState.dailyWrite_cases (s := s) with heq | heq |
        ⟨args, r, hpending, heq, _, _, hread⟩
      · rw [EngineState.step, heq]
        exact h
      · rw [EngineState.step, heq]
        exact ⟨h.row, fun a ha => by cases ha⟩
      · rw [EngineState.step, heq]
        refine ⟨fun m hm ht => ?_, fun a ha => by cases ha⟩
        -- The row it writes carries the flag it read some steps before.
        rcases s.navHistory.latest_write r m hm with rfl | ⟨hold, _⟩
        · exact h.pending args hpending (hread.symm.trans ht)
        · exact h.row m hold ht
  | shutdown => exact ⟨h.row, h.pending⟩
  | resume confirm =>
      refine ⟨fun m hm ht => ?_, h.pending⟩
      simp only [EngineState.step, EngineState.resume, ResumeService.evaluate] at hm
      split at hm
      · exact h.row m hm ht
      · next latest hlatest =>
        split_ifs at hm
        · exact h.row m hm ht
        · -- The row that is cleared is the latest, and nothing lies above it.
          rcases s.navHistory.latest_write _ m hm with rfl | ⟨hold, _⟩
          · cases ht
          · exact h.row m hold ht
        · exact h.row m hm ht
  | restart app =>
      exact boot_latestHeld app s.trades s.navHistory s.runtimeDir s.now

/-- A step leaves every date without a tripped row without one, unless the
    drawdown cap, not breached at the resume, is breached now. -/
def ResumeKept (resumed s : EngineState) (e : EngineEvent) : Prop :=
  ∀ date, (s.step e).navHistory.FlaggedOn date →
    s.navHistory.FlaggedOn date ∨
      (resumed.drawdownBreached = false ∧ s.drawdownBreached = true)

/-- A nightly run about to write a tripped row where there is none: it read the
    flag, the table takes its value, and the row of its date is not tripped. -/
def NightlyTrips (s : EngineState) (e : EngineEvent) : Prop :=
  e = .dailyWrite ∧ ∃ args, s.pendingDaily = some args ∧ args.circuitBreakerTripped = true ∧
    0 ≤ args.navInr ∧ ¬ s.navHistory.FlaggedOn args.tradingDate

/-- A confirmed resume whose first session is at `s` and whose second is at `t`,
    beside an engine that was started some time before and goes on until `u`
    without a restart. -/
structure ResumedBeside (s t u : EngineState) (resumed : EngineState) : Prop where
  started : ∃ app trades table dir now,
    Run EngineState.step (fun _ _ => True) (boot app trades table dir now) s
  between : Run EngineState.step (fun _ e => ∀ app, e ≠ .restart app) s t
  cleared : ∃ date, ResumeService.readTripped s.navHistory = some date ∧
    resumed = { t with
      navHistory := ResumeService.clearRow t.navHistory date
      runtimeDir := (ResumeService.maybeRemoveMarker t.runtimeDir).1 }
  after : Run EngineState.step (fun _ e => ∀ app, e ≠ .restart app) resumed u

theorem flag_of_running (s t : EngineState)
    (hrun : Run EngineState.step (fun _ e => ∀ app, e ≠ .restart app) s t)
    (h : s.nav.circuitBreakerTripped = true) : t.nav.circuitBreakerTripped = true :=
  hrun.invariant (fun a => a.nav.circuitBreakerTripped = true)
    (fun _ e he ha => EngineState.step_flag e he ha) h

/-- The engine beside a resume has the flag in memory, before and after it. -/
theorem resumedBeside_flag (s t u resumed : EngineState) (h : ResumedBeside s t u resumed) :
    u.nav.circuitBreakerTripped = true := by
  rcases h.started with ⟨app, trades, table, dir, now, hrun⟩
  have hheld : LatestHeld s :=
    hrun.invariant LatestHeld (fun a e _ ha => step_latestHeld a e ha)
      (boot_latestHeld app trades table dir now)
  rcases h.cleared with ⟨date, hread, hresumed⟩
  rcases ResumeService.readTripped_row s.navHistory date hread with
    ⟨latest, hlatest, _, _, hflag⟩
  have ht := flag_of_running s t h.between (hheld.row latest hlatest hflag)
  refine flag_of_running resumed u h.after ?_
  rw [hresumed]
  exact ht

/-- A write leaves the other dates as they are. -/
theorem flaggedOn_write (table : NavTable) (r : NavHistory) (date : Int)
    (h : (table.write r).FlaggedOn date) :
    table.FlaggedOn date ∨ (date = r.tradingDate ∧ r.circuitBreakerTripped = true) := by
  rcases h with ⟨x, hx, hdate, hflag⟩
  rcases table.mem_write r x hx with rfl | ⟨hold, _⟩
  · exact Or.inr ⟨hdate.symm, hflag⟩
  · exact Or.inl ⟨x, hold, hdate, hflag⟩

/-- Under the flag in memory, the one step that makes a row a tripped one is a
    nightly run's. -/
theorem step_flaggedOn (s : EngineState) (e : EngineEvent)
    (hflag : s.nav.circuitBreakerTripped = true) (date : Int)
    (h : (s.step e).navHistory.FlaggedOn date) :
    s.navHistory.FlaggedOn date ∨ NightlyTrips s e := by
  by_cases hold : s.navHistory.FlaggedOn date
  · exact Or.inl hold
  refine Or.inr ?_
  cases e with
  | sync =>
      -- Under the flag in memory a sync does not write.
      rw [EngineState.step, EngineState.sync_flagged hflag] at h
      exact absurd h hold
  | dailyWrite =>
      rcases EngineState.dailyWrite_cases (s := s) with heq | heq |
        ⟨args, r, hpending, heq, hdate, hnav, hread⟩
      · rw [EngineState.step, heq] at h
        exact absurd h hold
      · rw [EngineState.step, heq] at h
        exact absurd h hold
      · rw [EngineState.step, heq] at h
        rcases flaggedOn_write s.navHistory r date h with h | ⟨hd, hr⟩
        · exact absurd h hold
        · refine ⟨rfl, args, hpending, hread.symm.trans hr, hnav ▸ r.nav_nonneg, ?_⟩
          rw [← hdate, ← hd]
          exact hold
  | resume confirm =>
      simp only [EngineState.step, EngineState.resume, ResumeService.evaluate] at h
      split at h
      · exact absurd h hold
      · next latest _ =>
        split_ifs at h
        · exact absurd h hold
        · -- The row a resume writes is not tripped.
          rcases flaggedOn_write s.navHistory _ date h with h | ⟨_, hr⟩
          · exact absurd h hold
          · cases hr
        · exact absurd h hold
  | _ =>
      rw [EngineState.step_history] at h
      · exact absurd h hold
      · exact id

/-- Beside a running engine a resume is undone by exactly one kind of step: a
    nightly run that writes the flag it read from memory over an untripped row,
    with no drawdown to answer for. -/
theorem resume_kept_iff (s t u resumed : EngineState) (h : ResumedBeside s t u resumed)
    (e : EngineEvent) :
    ResumeKept resumed u e ↔
      (NightlyTrips u e → resumed.drawdownBreached = false ∧ u.drawdownBreached = true) := by
  constructor
  · rintro hkept ⟨rfl, args, hpending, hread, hnav, hclear⟩
    rcases dailyWrite_row u args hpending hnav with ⟨r, hr, hdate, hflag⟩
    rcases hkept args.tradingDate ⟨r, hr, hdate, hflag.trans hread⟩ with hold | hnew
    · exact absurd hold hclear
    · exact hnew
  · intro hcond date hdate
    rcases step_flaggedOn u e (resumedBeside_flag s t u resumed h) date hdate with hold | htrips
    · exact Or.inl hold
    · exact Or.inr (hcond htrips)

/-- A second call, bought for 100. -/
def gainTrade : Trade × List Leg :=
  ({ id := 2, strategyId := .directional, underlying := .btc,
     expiry := some (combine (ymdToOrdinal 2026 5 13) (hourMinute 17 30)),
     entryTs := lossNoon, lots := 1, premiumPaidInr := some 100 },
   [{ tradeId := 2, strategyId := .directional, legIdx := 0, symbol := "C-BTC-98000-130526",
      optionType := some .call, strike := some 98000, side := .buy, lots := 1,
      entryPrice := some 100 }])

/-- It is sold for 12000. -/
def gainExit (req : ExitRequest) : ExitResult :=
  { success := true, tradeId := req.tradeId,
    fills := [{ symbol := "C-BTC-98000-130526", side := .sell, qtyRequested := 1, qtyFilled := 1,
                avgFillPrice := some 12000, legIdx := 0,
                clientOrderId := .generated "directional" 2 0 "exit_target" }] }

/-- The engine with both calls, tripped by the loss on the first. -/
def lossGain : EngineState :=
  ((boot shippedConfig [lossTrade, gainTrade] {} {} lossNoon).exit lossExit 1 .premiumStop).sync

/-- The same when a resume has cleared the row. -/
def lossResumed : EngineState :=
  { lossGain with
    navHistory := ResumeService.clearRow lossGain.navHistory (ymdToOrdinal 2026 5 12)
    runtimeDir := (ResumeService.maybeRemoveMarker lossGain.runtimeDir).1 }

/-- The evening after: the second call brings the loss back, and the nightly run
    starts. -/
def lossEvening : List EngineEvent :=
  [.exit gainExit 2 .target, .clock (combine (ymdToOrdinal 2026 5 12) (hourMinute 17 10)),
   .dailyStart]

theorem loss_resumedBeside : ResumedBeside lossGain lossGain
    (lossEvening.foldl EngineState.step lossResumed) lossResumed where
  started := by
    refine ⟨shippedConfig, [lossTrade, gainTrade], {}, {}, lossNoon, ?_⟩
    exact Run.ofEvents [EngineEvent.exit lossExit 1 .premiumStop, EngineEvent.sync]
      (fun _ _ _ => trivial) _
  between := Run.refl _
  cleared := ⟨ymdToOrdinal 2026 5 12, by decide, rfl⟩
  after := by
    refine Run.ofEvents lossEvening (fun e he _ app happ => ?_) lossResumed
    rw [happ] at he
    simp only [lossEvening, List.mem_cons, reduceCtorEq, List.not_mem_nil, or_self] at he

/-- The nightly run is about to trip a row that is not tripped, and the cap is not breached, so its
    write does not keep the resume. -/
theorem resume_kept_iff_loss :
    ¬ ResumeKept lossResumed (lossEvening.foldl EngineState.step lossResumed) .dailyWrite := by
  intro hkept
  have hcalm : (lossEvening.foldl EngineState.step lossResumed).drawdownBreached = false := by
    decide
  have htrips : NightlyTrips (lossEvening.foldl EngineState.step lossResumed) .dailyWrite :=
    ⟨rfl, _, rfl, by decide, by decide, by decide⟩
  have hbreached :=
    ((resume_kept_iff _ _ _ _ loss_resumedBeside .dailyWrite).mp hkept htrips).2
  rw [hcalm] at hbreached
  cases hbreached

/-- With the loss won back, the nightly run trips the row again. -/
theorem nightly_undoes_resume : ¬ ∀ (s t u resumed : EngineState), ResumedBeside s t u resumed →
    ∀ e : EngineEvent, (∀ app, e ≠ .restart app) → ResumeKept resumed u e := by
  intro hall
  have hkept := hall _ _ _ _ loss_resumedBeside .dailyWrite (fun _ h => EngineEvent.noConfusion h)
    (ymdToOrdinal 2026 5 12) (by decide)
  have hclear : ¬ (lossEvening.foldl EngineState.step lossResumed).navHistory.FlaggedOn
      (ymdToOrdinal 2026 5 12) := by decide
  have hcalm : (lossEvening.foldl EngineState.step lossResumed).drawdownBreached = false := by
    decide
  rcases hkept with hold | ⟨_, hbreached⟩
  · exact hclear hold
  · rw [hcalm] at hbreached
    cases hbreached

/-- The latest row is a tripped one. -/
def NavTable.LatestTripped (table : NavTable) : Prop :=
  ∃ m, table.latest = some m ∧ m.circuitBreakerTripped = true

/-- A start and a resume see the same breaker, and the go-live gate's check passes
    just when they see it clear. -/
def ReadersAgree (table : NavTable) : Prop :=
  ∀ (trades : List Trade) (baseNavInr : ℚ) (now : DateTime) (runtimeDir : RuntimeDir)
    (confirm : Bool),
    (ResumeService.evaluate table runtimeDir confirm).1.breakerWasTripped =
        (loadNavTracker trades table baseNavInr now).circuitBreakerTripped ∧
      (GoLiveGate.checkCircuitBreaker table).passed =
        !(loadNavTracker trades table baseNavInr now).circuitBreakerTripped

/-- A write after which a tripped row still means a tripped latest row. A tripped
    row goes on top, or below a tripped one. An untripped row goes below another,
    or no other row is tripped. -/
def WriteCoherent (table : NavTable) (date : Int) (tripped : Bool) : Prop :=
  if tripped then (∀ x ∈ table.rows, x.tradingDate ≤ date) ∨ table.LatestTripped
  else (∃ x ∈ table.rows, date < x.tradingDate) ∨
    ∀ x ∈ table.rows, x.circuitBreakerTripped = true → x.tradingDate = date

/-- The next sync trips the breaker, and the table takes its row. -/
def EngineState.TripDue (s : EngineState) : Prop :=
  s.nav.circuitBreakerTripped = false ∧ s.drawdownBreached = true ∧ 0 ≤ s.nav.navNow

instance (s : EngineState) : Decidable s.TripDue :=
  inferInstanceAs (Decidable (s.nav.circuitBreakerTripped = false ∧ s.drawdownBreached = true ∧
    0 ≤ s.nav.navNow))

/-- An event whose write, if it makes one, is coherent: the row of a trip, the row
    of a nightly run, or the row a confirmed resume clears. -/
def CoherentStep (s : EngineState) : EngineEvent → Prop
  | .sync => s.TripDue → WriteCoherent s.navHistory (utcToIst s.now).date true
  | .dailyWrite => ∀ args, s.pendingDaily = some args → 0 ≤ args.navInr →
      WriteCoherent s.navHistory args.tradingDate args.circuitBreakerTripped
  | .resume true => ∀ date, ResumeService.readTripped s.navHistory = some date →
      WriteCoherent s.navHistory date false
  | _ => True

/-- A start has the flag of the latest row, and a resume reports it. -/
theorem readers_latest (table : NavTable) (trades : List Trade) (baseNavInr : ℚ) (now : DateTime)
    (runtimeDir : RuntimeDir) (confirm : Bool) :
    ((loadNavTracker trades table baseNavInr now).circuitBreakerTripped = true ↔
        table.LatestTripped) ∧
      (ResumeService.evaluate table runtimeDir confirm).1.breakerWasTripped =
        (loadNavTracker trades table baseNavInr now).circuitBreakerTripped := by
  unfold loadNavTracker ResumeService.evaluate NavTable.LatestTripped
  rcases table.latest with _ | latest
  · refine ⟨⟨fun h => Bool.noConfusion h, ?_⟩, rfl⟩
    rintro ⟨m, hm, _⟩
    cases hm
  · refine ⟨⟨fun h => ⟨latest, rfl, h⟩, fun ⟨m, hm, hflag⟩ => ?_⟩, ?_⟩
    · cases hm
      exact hflag
    · simp only
      split_ifs <;> rfl

/-- The readers agree just when a tripped row means a tripped latest row. -/
theorem readersAgree_iff (table : NavTable) :
    ReadersAgree table ↔
      ∀ r ∈ table.rows, r.circuitBreakerTripped = true → table.LatestTripped := by
  have hcheck : (GoLiveGate.checkCircuitBreaker table).passed = true ↔
      ∀ r ∈ table.rows, ¬ r.circuitBreakerTripped = true := by
    unfold GoLiveGate.checkCircuitBreaker
    rcases hfind : table.rows.find? NavHistory.circuitBreakerTripped with _ | tripped
    · exact ⟨fun _ => List.find?_eq_none.mp hfind, fun _ => rfl⟩
    · refine ⟨fun h => (by cases h), fun h => ?_⟩
      exact absurd (List.find?_some hfind) (h tripped (List.mem_of_find?_eq_some hfind))
  constructor
  · intro hagree r hr hflag
    have hread := readers_latest table [] 0 ⟨0⟩ {} false
    rw [← hread.1]
    have hpassed := (hagree [] 0 ⟨0⟩ {} false).2
    -- The check fails on the row, so the start must see the breaker.
    by_contra hclear
    rw [Bool.not_eq_true] at hclear
    rw [hclear] at hpassed
    exact absurd hflag (hcheck.mp hpassed r hr)
  · intro hrows trades baseNavInr now runtimeDir confirm
    have hread := readers_latest table trades baseNavInr now runtimeDir confirm
    refine ⟨hread.2, ?_⟩
    rw [Bool.eq_iff_iff, hcheck, Bool.not_eq_true', ← Bool.not_eq_true, hread.1]
    constructor
    · rintro hnone ⟨m, hm, hflag⟩
      exact hnone m (Table.latest_mem NavHistory.tradingDate table.rows m hm) hflag
    · intro hclear r hr hflag
      exact hclear (hrows r hr hflag)

/-- What a write does to the agreement. -/
theorem write_agree_iff (table : NavTable) (r : NavHistory) (h : ReadersAgree table) :
    ReadersAgree (table.write r) ↔
      WriteCoherent table r.tradingDate r.circuitBreakerTripped := by
  rw [readersAgree_iff] at h ⊢
  rcases Table.latest_isSome NavHistory.tradingDate (table.write r).rows r (table.write_self r)
    with ⟨m, hm⟩
  have hmax := fun x hx => Table.key_le_latest NavHistory.tradingDate (table.write r).rows m x hm hx
  have hlatest := table.latest_write r m hm
  have hread : (table.write r).LatestTripped ↔ m.circuitBreakerTripped = true := by
    refine ⟨fun ⟨x, hx, hflag⟩ => ?_, fun hflag => ⟨m, hm, hflag⟩⟩
    rw [NavTable.latest, hm, Option.some.injEq] at hx
    rw [hx]
    exact hflag
  simp only [hread]
  unfold WriteCoherent
  by_cases hflag : r.circuitBreakerTripped = true
  · rw [if_pos hflag]
    constructor
    · intro hall
      rcases hlatest with rfl | ⟨hold, _⟩
      · -- The new row is on top.
        refine Or.inl (fun x hx => ?_)
        by_cases hsame : x.tradingDate = m.tradingDate
        · exact hsame.le
        · exact hmax x (table.write_other m x hx hsame)
      · exact Or.inr ⟨m, hold, hall r (table.write_self r) hflag⟩
    · rintro hcoherent x _ _
      rcases hlatest with rfl | ⟨hold, hlt⟩
      · exact hflag
      · -- The new row is below the top, and the top one is the old latest.
        rcases hcoherent with htop | ⟨old, hold', hflag'⟩
        · have hmem := Table.latest_mem NavHistory.tradingDate table.rows m hold
          exact absurd (htop m hmem) (not_le.mpr hlt)
        · rw [hold, Option.some.injEq] at hold'
          rw [hold']
          exact hflag'
  · rw [if_neg hflag]
    constructor
    · intro hall
      rcases hlatest with rfl | ⟨hold, hlt⟩
      · -- The new row is on top and untripped, so no other row can be tripped.
        refine Or.inr (fun x hx hx' => ?_)
        by_contra hne
        exact hflag (hall x (table.write_other m x hx hne) hx')
      · exact Or.inl ⟨m, Table.latest_mem NavHistory.tradingDate table.rows m hold, hlt⟩
    · rintro hcoherent x hx hx'
      rcases table.mem_write r x hx with rfl | ⟨hold, hne⟩
      · exact absurd hx' hflag
      · rcases hlatest with rfl | ⟨hlm, _⟩
        · rcases hcoherent with ⟨y, hy, hlt⟩ | hnone
          · have hle := hmax y (table.write_other m y hy hlt.ne')
            exact absurd hle (not_le.mpr hlt)
          · exact absurd (hnone x hold hx') hne
        · rcases h x hold hx' with ⟨old, hold', hflag'⟩
          rw [hlm, Option.some.injEq] at hold'
          rw [hold']
          exact hflag'

/-- A sync writes a tripped row of today when a trip is due, and nothing else. -/
theorem sync_history (s : EngineState) :
    (¬ s.TripDue ∧ s.sync.navHistory = s.navHistory) ∨
      (s.TripDue ∧ ∃ r, s.sync.navHistory = s.navHistory.write r ∧
        r.tradingDate = (utcToIst s.now).date ∧ r.navInr = s.nav.navNow ∧
        r.circuitBreakerTripped = true) := by
  by_cases hflag : s.nav.circuitBreakerTripped = true
  · refine Or.inl ⟨fun hdue => ?_, by rw [EngineState.sync_flagged hflag]⟩
    exact Bool.noConfusion (hdue.1.symm.trans hflag)
  rw [Bool.not_eq_true] at hflag
  have hsame : { s.nav with circuitBreakerTripped := false } = s.nav := by rw [← hflag]
  have hbreached : s.drawdownBreached = (match s.risk.evaluateCaps with
      | .ok r => decide (r.status = .circuitBreaker)
      | .error _ => false) := by
    rw [EngineState.drawdownBreached, hsame]
    rfl
  unfold EngineState.TripDue EngineState.sync syncCircuitBreakerFromRisk
  rw [hbreached]
  rcases hcaps : s.risk.evaluateCaps with e | cap
  · refine Or.inl ⟨fun hdue => Bool.noConfusion hdue.2.1, ?_⟩
    simp only [hflag, Bool.false_eq_true, if_false]
  by_cases hstatus : cap.status = .circuitBreaker
  · by_cases hnav : 0 ≤ s.nav.navNow
    · refine Or.inr ⟨⟨hflag, decide_eq_true hstatus, hnav⟩, ?_⟩
      simp only [hflag, Bool.false_eq_true, if_false, hstatus, ne_eq, not_true_eq_false,
        persistCircuitBreakerTrip, NavTable.commit, dif_pos hnav]
      exact ⟨_, rfl, rfl, rfl, rfl⟩
    · refine Or.inl ⟨fun hdue => hnav hdue.2.2, ?_⟩
      simp only [hflag, Bool.false_eq_true, if_false, hstatus, ne_eq, not_true_eq_false,
        persistCircuitBreakerTrip, NavTable.commit, dif_neg hnav]
  · refine Or.inl ⟨fun hdue => hstatus (of_decide_eq_true hdue.2.1), ?_⟩
    simp only [hflag, Bool.false_eq_true, if_false, ne_eq, hstatus, not_false_eq_true, if_true]

/-- A nightly run that is under way writes what it was called with, unless the
    account value is negative. -/
theorem dailyWrite_history (s : EngineState) :
    (s.pendingDaily = none ∧ s.dailyWrite.navHistory = s.navHistory) ∨
      ∃ args, s.pendingDaily = some args ∧
        ((args.navInr < 0 ∧ s.dailyWrite.navHistory = s.navHistory) ∨
          (0 ≤ args.navInr ∧ ∃ r, s.dailyWrite.navHistory = s.navHistory.write r ∧
            r.tradingDate = args.tradingDate ∧ r.navInr = args.navInr ∧
            r.circuitBreakerTripped = args.circuitBreakerTripped)) := by
  unfold EngineState.dailyWrite
  rcases hpending : s.pendingDaily with _ | args
  · exact Or.inl ⟨rfl, rfl⟩
  · refine Or.inr ⟨args, rfl, ?_⟩
    by_cases hnav : 0 ≤ args.navInr
    · refine Or.inr ⟨hnav, ?_⟩
      simp only [persistNav, NavTable.commit, dif_pos hnav]
      exact ⟨_, rfl, rfl, rfl, rfl⟩
    · refine Or.inl ⟨not_le.mp hnav, ?_⟩
      simp only [persistNav, NavTable.commit, dif_neg hnav]

/-- Exactly the coherent events keep the readers in agreement. -/
theorem step_agree_iff (s : EngineState) (e : EngineEvent) (h : ReadersAgree s.navHistory) :
    ReadersAgree (s.step e).navHistory ↔ CoherentStep s e := by
  cases e with
  | sync =>
      rcases sync_history s with ⟨hdue, hsame⟩ | ⟨hdue, r, hwrite, hdate, _, hflag⟩
      · rw [EngineState.step, hsame]
        exact iff_of_true h (fun htrip => absurd htrip hdue)
      · rw [EngineState.step, hwrite, write_agree_iff s.navHistory r h, hdate, hflag]
        exact ⟨fun hw _ => hw, fun hw => hw hdue⟩
  | dailyWrite =>
      rw [EngineState.step, CoherentStep]
      rcases dailyWrite_history s with ⟨hnone, hsame⟩ |
        ⟨args, hpending, ⟨hneg, hsame⟩ | ⟨hnav, r, hwrite, hdate, _, hflag⟩⟩
      · rw [hsame, hnone]
        exact iff_of_true h (fun _ harg => by cases harg)
      · rw [hsame]
        refine iff_of_true h (fun a harg ha => ?_)
        cases hpending.symm.trans harg
        exact absurd ha (not_le.mpr hneg)
      · rw [hwrite, write_agree_iff s.navHistory r h, hdate, hflag, hpending]
        simp only [Option.some.injEq, forall_eq', hnav, true_implies]
  | resume confirm =>
      rcases confirm with _ | _
      · rw [EngineState.step, EngineState.resume, ResumeService.evaluate_unconfirmed]
        exact iff_of_true h trivial
      rw [EngineState.step, EngineState.resume]
      simp only [CoherentStep]
      rcases hread : ResumeService.readTripped s.navHistory with _ | date
      · rw [ResumeService.evaluate_untripped _ _ _ hread]
        exact iff_of_true h (fun _ hd => by cases hd)
      · -- A resume writes over the row its first session has read.
        rw [(ResumeService.evaluate_sessions _ s.runtimeDir date hread).2]
        simp only [ResumeService.clearRow, Option.some.injEq, forall_eq']
        rcases ResumeService.readTripped_row s.navHistory date hread with
          ⟨row, _, hrow, hdate, _⟩
        rw [hrow]
        simp only
        rw [write_agree_iff s.navHistory _ h, hdate]
  | _ =>
      rw [EngineState.step_history]
      · exact iff_of_true h trivial
      · exact id

/-- From a start on an empty history, coherent steps keep the readers in
    agreement. -/
theorem run_readersAgree (app : AppConfig) (trades : List (Trade × List Leg)) (dir : RuntimeDir)
    (now : DateTime) (t : EngineState)
    (hrun : Run EngineState.step CoherentStep (boot app trades {} dir now) t) :
    ReadersAgree t.navHistory := by
  refine hrun.invariant (fun s => ReadersAgree s.navHistory)
    (fun s e hcoherent hs => (step_agree_iff s e hs).mpr hcoherent) ?_
  refine (readersAgree_iff {}).mpr (fun r hr => ?_)
  cases hr

/-- A resume on the day of the trip leaves the readers in agreement. -/
theorem run_readersAgree_loss : ReadersAgree (lossGain.step (.resume true)).navHistory := by
  refine run_readersAgree shippedConfig [lossTrade, gainTrade] {} lossNoon _ ?_
  refine Run.cons _ (EngineEvent.exit lossExit 1 .premiumStop) _ trivial
    (Run.cons _ EngineEvent.sync _ ?_ (Run.single _ (EngineEvent.resume true) ?_))
  · intro _
    refine Or.inl (fun x hx => ?_)
    cases hx
  · intro date hread
    have htripped : ResumeService.readTripped lossGain.navHistory =
        some (ymdToOrdinal 2026 5 12) := by
      decide
    cases htripped.symm.trans hread
    have hone : ∀ x ∈ lossGain.navHistory.rows, x.circuitBreakerTripped = true →
        x.tradingDate = ymdToOrdinal 2026 5 12 := by
      decide
    exact Or.inr hone

/-- A trip, the nightly run of the next day under the flag, and a resume. -/
def lossDays : List EngineEvent :=
  [.exit lossExit 1 .premiumStop, .sync,
   .clock (combine (ymdToOrdinal 2026 5 13) (hourMinute 17 10)), .dailyStart, .dailyWrite,
   .resume true]

/-- After them a start sees the breaker clear, and the go-live gate a tripped row. -/
theorem resume_splits_readers : ¬ ∀ (app : AppConfig) (trades : List (Trade × List Leg))
    (dir : RuntimeDir) (now : DateTime) (t : EngineState),
    Run EngineState.step (fun _ _ => True) (boot app trades {} dir now) t →
      ReadersAgree t.navHistory := by
  intro hall
  have hagree := hall shippedConfig [lossTrade] {} lossNoon _
    (Run.ofEvents lossDays (fun _ _ _ => trivial) _)
  exact absurd (hagree [] 0 lossNoon {} false).2 (by decide)

end OptionsBot
