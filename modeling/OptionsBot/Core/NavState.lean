import OptionsBot.Core.Engine
import OptionsBot.Core.Window
import OptionsBot.Lib.Table

/-!
# Account History and the Circuit Breaker

The rows of `nav_history` and everything that reads or writes them: rebuilding
the running account value at a start, the roll of its anchors at a new day in
India, the trip of the circuit breaker, the nightly snapshot, and the operator's
resume.

The table's two constraints are fields. A row has no negative account value, so a
writer that would store one raises, and a date has at most one row.

The breaker has three homes: the flag in memory, the flag of the latest row, and
a marker file. A trip writes all three. A resume clears the second, and of the
marker files it removes another one.

## Main definitions

* `NavHistory`, `NavTable`: The table.
* `RuntimeDir`: The marker files.
* `loadNavTracker`: The account value at a start.
* `maybeRollIstTradingDay`: The roll at a new day.
* `persistCircuitBreakerTrip`, `syncCircuitBreakerFromRisk`: The trip.
* `persistNav`: The nightly snapshot.
* `GoLiveGate.checkCircuitBreaker`: The go-live gate's look at the breaker.
* `ResumeService.evaluate`: The resume.
* `ResumeService.readTripped`, `ResumeService.clearRow`: Its two database
  sessions.

## Theorems

* `write_self`, `write_other`, `mem_write`: The rows after a write.
* `row_of_mem`: A row is the one of its date.
* `latest_write`: The latest row after a write.
* `latest_from`: What the rows from a date on say about the latest.
* `persistCircuitBreakerTrip_ok`: What a trip leaves in memory and on disk.
* `maybeRollIstTradingDay_value`, `maybeRollIstTradingDay_breaker`: A roll keeps
  the account value, the peak and the flag.
* `readTripped_row`: The first session reads the row of its date.
* `evaluate_sessions`, `evaluate_untripped`: A confirmed resume is its two
  sessions, or does nothing.
* `evaluate_rows`: A resume keeps the values of the rows.
* `evaluate_runtimeDir`: A resume keeps the breaker's marker.
* `evaluate_unconfirmed`: Without confirmation a resume keeps the table.
-/

namespace OptionsBot

/-- A row of `nav_history`, with the check constraint on its account value. -/
structure NavHistory where
  tradingDate : Int
  navInr : ℚ
  peakNavInr : ℚ
  drawdownFromPeakPct : ℚ := 0
  circuitBreakerTripped : Bool := false
  nav_nonneg : 0 ≤ navInr

/-- The table `nav_history`. Trading dates are unique. -/
structure NavTable where
  rows : List NavHistory := []
  unique : (rows.map NavHistory.tradingDate).Nodup := by exact List.nodup_nil

namespace NavTable

variable (table : NavTable)

/-- The row of a trading date. -/
def row (tradingDate : Int) : Option NavHistory :=
  Table.lookup NavHistory.tradingDate tradingDate table.rows

/-- The row of the latest trading date. -/
def latest : Option NavHistory := Table.latest NavHistory.tradingDate table.rows

/-- Write a row under its trading date. -/
def write (r : NavHistory) : NavTable :=
  { rows := Table.upsert NavHistory.tradingDate r.tradingDate (fun _ => r) table.rows
    unique := Table.nodup_upsert NavHistory.tradingDate r.tradingDate (fun _ => r)
      (fun _ => rfl) table.rows table.unique }

/-- Write the columns of a trading date, unless the check constraint refuses. -/
def commit (tradingDate : Int) (navInr peakNavInr drawdown : ℚ) (tripped : Bool) :
    Except PyError NavTable :=
  if h : 0 ≤ navInr then
    .ok (table.write
      { tradingDate := tradingDate, navInr := navInr, peakNavInr := peakNavInr,
        drawdownFromPeakPct := drawdown, circuitBreakerTripped := tripped, nav_nonneg := h })
  else .error (.integrityError "ck_nav_history_nav_nonneg")

theorem write_self (r : NavHistory) : r ∈ (table.write r).rows :=
  Table.upsert_written NavHistory.tradingDate r.tradingDate (fun _ => r) table.rows

theorem write_other (r x : NavHistory) (hx : x ∈ table.rows)
    (hdate : x.tradingDate ≠ r.tradingDate) : x ∈ (table.write r).rows :=
  Table.mem_upsert_of_ne NavHistory.tradingDate r.tradingDate (fun _ => r) table.rows x hx hdate

/-- A row after a write is the one written, or an old one of another date. -/
theorem mem_write (r x : NavHistory) (h : x ∈ (table.write r).rows) :
    x = r ∨ (x ∈ table.rows ∧ x.tradingDate ≠ r.tradingDate) := by
  by_cases hdate : x.tradingDate = r.tradingDate
  · exact Or.inl (List.inj_on_of_nodup_map (table.write r).unique h (table.write_self r) hdate)
  · rcases Table.mem_upsert NavHistory.tradingDate r.tradingDate (fun _ => r) table.rows x h with
      hold | hnew | ⟨_, _, _, hnew⟩
    · exact Or.inr ⟨hold, hdate⟩
    · exact Or.inl hnew
    · exact Or.inl hnew

theorem commit_ok (tradingDate : Int) (navInr peakNavInr drawdown : ℚ) (tripped : Bool)
    (written : NavTable)
    (h : table.commit tradingDate navInr peakNavInr drawdown tripped = .ok written) :
    ∃ r, written = table.write r ∧ r.tradingDate = tradingDate ∧ r.navInr = navInr ∧
      r.peakNavInr = peakNavInr ∧ r.circuitBreakerTripped = tripped := by
  unfold commit at h
  split_ifs at h
  cases h
  exact ⟨_, rfl, rfl, rfl, rfl, rfl⟩

theorem row_of_mem (r : NavHistory) (hr : r ∈ table.rows) : table.row r.tradingDate = some r :=
  Table.lookup_of_mem NavHistory.tradingDate table.rows table.unique r hr

/-- The latest row after a write is the one written, or it was the latest before. -/
theorem latest_write (r m : NavHistory) (h : (table.write r).latest = some m) :
    m = r ∨ (table.latest = some m ∧ r.tradingDate < m.tradingDate) := by
  have hmem := Table.latest_mem NavHistory.tradingDate _ m h
  have hle := Table.key_le_latest NavHistory.tradingDate _ m r h (table.write_self r)
  rcases table.mem_write r m hmem with rfl | ⟨hold, hne⟩
  · exact Or.inl rfl
  · refine Or.inr ⟨?_, lt_of_le_of_ne hle (Ne.symm hne)⟩
    rcases Table.latest_isSome NavHistory.tradingDate table.rows m hold with ⟨old, hlatest⟩
    have hold' := Table.latest_mem NavHistory.tradingDate table.rows old hlatest
    have hmo := Table.key_le_latest NavHistory.tradingDate table.rows old m hlatest hold
    -- The old latest row is still there, unless it is the one written over.
    have hom : old.tradingDate ≤ m.tradingDate := by
      by_cases hsame : old.tradingDate = r.tradingDate
      · rw [hsame]
        exact hle
      · exact Table.key_le_latest NavHistory.tradingDate _ m old h
          (table.write_other r old hold' hsame)
    rw [NavTable.latest, hlatest,
      List.inj_on_of_nodup_map table.unique hold' hold (le_antisymm hom hmo)]

/-- What holds of every row from a date on holds of the latest, if there is such
    a row. -/
theorem latest_from (date : Int) (P : NavHistory → Prop)
    (hall : ∀ r ∈ table.rows, date ≤ r.tradingDate → P r)
    (hsome : ∃ r ∈ table.rows, date ≤ r.tradingDate) : ∃ m, table.latest = some m ∧ P m := by
  rcases hsome with ⟨r, hr, hdate⟩
  rcases Table.latest_isSome NavHistory.tradingDate table.rows r hr with ⟨m, hm⟩
  have hle := Table.key_le_latest NavHistory.tradingDate table.rows m r hm hr
  exact ⟨m, hm, hall m (Table.latest_mem NavHistory.tradingDate table.rows m hm)
    (hdate.trans hle)⟩

end NavTable

/-- The marker files of the runtime directory, and whether each exists. -/
structure RuntimeDir where
  circuitBreaker : Bool := false
  shutdown : Bool := false
  deriving DecidableEq

/-- The realised profit of the closed trades. -/
def sumRealisedPnlInr (trades : List Trade) : ℚ :=
  ((trades.filter (fun t => t.status = .closed)).map (fun t => t.realisedPnlInr.getD 0)).sum

/-- The account value at a start: the starting capital and the realised profit,
    under the peak and the flag of the latest row. -/
def loadNavTracker (trades : List Trade) (table : NavTable) (baseNavInr : ℚ)
    (nowUtc : DateTime) : NavTracker :=
  let navNow := baseNavInr + sumRealisedPnlInr trades
  let todayIst := (utcToIst nowUtc).date
  let navOpenToday := match table.row todayIst, table.row (todayIst - 1) with
    | some today, _ => today.navInr
    | none, some yesterday => yesterday.navInr
    | none, none => navNow
  let weekStart := todayIst - weekday todayIst
  match table.latest with
  | none =>
    { navNow := navNow, navOpenToday := navOpenToday, navOpenWeek := navOpenToday,
      peakNav := navNow }
  | some latest =>
    { navNow := navNow
      navOpenToday := navOpenToday
      -- A latest row of this week stands for the week's opening.
      navOpenWeek := if weekStart ≤ latest.tradingDate then latest.navInr else navOpenToday
      peakNav := max navNow latest.peakNavInr
      circuitBreakerTripped := latest.circuitBreakerTripped }

/-- Roll the anchors when the date in India is a new one. The day of the week is
    the one of the UTC date. -/
def maybeRollIstTradingDay (nav : NavTracker) (nowUtc : DateTime) (lastIstDate : Option Int) :
    NavTracker × Int :=
  let today := (utcToIst nowUtc).date
  let rolled := match lastIstDate with
    | some date => if date < today then nav.rollDay (weekday nowUtc.date) else nav
    | none => nav
  (rolled, today)

/-- Trip the breaker: today's row, the flag in memory, and the marker. A row that
    exists keeps the higher peak. -/
def persistCircuitBreakerTrip (table : NavTable) (nav : NavTracker) (runtimeDir : RuntimeDir)
    (nowUtc : DateTime) : Except PyError (NavTable × NavTracker × RuntimeDir) :=
  let tradingDate := (utcToIst nowUtc).date
  -- The drawdown is stored as a negative fraction, the nightly run stores a percentage.
  let dd := pctChange nav.navNow nav.peakNav
  let peak := match table.row tradingDate with
    | none => nav.peakNav
    | some row => max row.peakNavInr nav.peakNav
  match table.commit tradingDate nav.navNow peak dd true with
  | .error e => .error e
  | .ok written => .ok (written, nav.tripBreaker, { runtimeDir with circuitBreaker := true })

/-- Trip the breaker when the lifetime cap fires and it is not tripped yet. -/
def syncCircuitBreakerFromRisk (table : NavTable) (nav : NavTracker) (risk : RiskManager)
    (runtimeDir : RuntimeDir) (nowUtc : DateTime) :
    Except PyError (NavTable × NavTracker × RuntimeDir) :=
  if nav.circuitBreakerTripped then .ok (table, nav, runtimeDir)
  else
    match risk.evaluateCaps with
    | .error e => .error e
    | .ok cap =>
      if cap.status ≠ .circuitBreaker then .ok (table, nav, runtimeDir)
      else persistCircuitBreakerTrip table nav runtimeDir nowUtc

/-- What the nightly run is called with, and what its report shows. -/
structure NavSnapshot where
  tradingDate : Int
  navInr : ℚ
  peakNavInr : ℚ
  drawdownFromPeakPct : ℚ := 0
  circuitBreakerTripped : Bool
  deriving DecidableEq

/-- The nightly row, from the values the run was called with. Its drawdown is a
    positive percentage, and its flag overwrites the row's. -/
def persistNav (table : NavTable) (args : NavSnapshot) : Except PyError (NavTable × NavSnapshot) :=
  let dd := if 0 < args.peakNavInr then
    max 0 ((args.peakNavInr - args.navInr) / args.peakNavInr * 100) else 0
  match table.commit args.tradingDate args.navInr args.peakNavInr dd args.circuitBreakerTripped with
  | .error e => .error e
  | .ok written => .ok (written, { args with drawdownFromPeakPct := dd })

/-- What the go-live gate says about the breaker. -/
inductive GoLiveDetail where
  /-- no circuit-breaker rows tripped -/
  | noneTripped
  /-- circuit-breaker tripped on that trading date, run `make resume` first -/
  | trippedOn (tradingDate : Int)
  deriving DecidableEq, Repr

/-- A check in the report of the go-live gate. -/
structure GoLiveCheck where
  name : String
  passed : Bool
  detail : GoLiveDetail
  deriving DecidableEq, Repr

/-- The go-live gate's check of the breaker: no row at all may be tripped. -/
def GoLiveGate.checkCircuitBreaker (table : NavTable) : GoLiveCheck :=
  match table.rows.find? NavHistory.circuitBreakerTripped with
  | none => { name := "circuit_breaker_clean", passed := true, detail := .noneTripped }
  | some tripped =>
    { name := "circuit_breaker_clean", passed := false,
      detail := .trippedOn tripped.tradingDate }

/-- The notes of a resume report. -/
inductive ResumeNote where
  /-- no NAV history rows found; nothing to resume from -/
  | noRows
  /-- circuit breaker is not currently tripped -/
  | notTripped
  /-- circuit breaker cleared on that trading date -/
  | cleared (tradingDate : Int)
  /-- breaker is tripped; pass --confirm to clear -/
  | passConfirm
  deriving DecidableEq, Repr

structure ResumeReport where
  navInr : Option ℚ := none
  peakNavInr : Option ℚ := none
  drawdownPct : Option ℚ := none
  tradingDate : Option Int := none
  breakerWasTripped : Bool := false
  cleared : Bool := false
  confirmed : Bool
  markerRemoved : Bool := false
  notes : List ResumeNote := []
  deriving DecidableEq

namespace ResumeService

/-- Remove a marker, if it is there. It is the one of a shutdown, not the one a
    trip writes. -/
def maybeRemoveMarker (runtimeDir : RuntimeDir) : RuntimeDir × Bool :=
  ({ runtimeDir with shutdown := false }, runtimeDir.shutdown)

/-- The state of the breaker on the latest row, cleared when confirmed. -/
def evaluate (table : NavTable) (runtimeDir : RuntimeDir) (confirm : Bool) :
    ResumeReport × NavTable × RuntimeDir :=
  match table.latest with
  | none => ({ confirmed := confirm, notes := [.noRows] }, table, runtimeDir)
  | some latest =>
    let report : ResumeReport :=
      { navInr := some latest.navInr, peakNavInr := some latest.peakNavInr,
        drawdownPct := some latest.drawdownFromPeakPct, tradingDate := some latest.tradingDate,
        breakerWasTripped := latest.circuitBreakerTripped, confirmed := confirm }
    if !latest.circuitBreakerTripped then
      ({ report with notes := [.notTripped] }, table, runtimeDir)
    else if confirm then
      -- A start reads the row and the breaker's marker. Only the row is cleared.
      let removed := maybeRemoveMarker runtimeDir
      ({ report with
          cleared := true
          markerRemoved := removed.2
          notes := [.cleared latest.tradingDate] },
        table.write { latest with circuitBreakerTripped := false }, removed.1)
    else ({ report with notes := [.passConfirm] }, table, runtimeDir)

/-- The first database session of a resume: the date of the latest row, if that
    row is tripped. -/
def readTripped (table : NavTable) : Option Int :=
  (table.latest.filter NavHistory.circuitBreakerTripped).map NavHistory.tradingDate

/-- The second session: the row of that date as it is by now, with its flag
    cleared. -/
def clearRow (table : NavTable) (tradingDate : Int) : NavTable :=
  match table.row tradingDate with
  | none => table
  | some row => table.write { row with circuitBreakerTripped := false }

/-- The first session reads the latest row, which is the row of its date. -/
theorem readTripped_row (table : NavTable) (tradingDate : Int)
    (h : readTripped table = some tradingDate) :
    ∃ latest, table.latest = some latest ∧ table.row tradingDate = some latest ∧
      latest.tradingDate = tradingDate ∧ latest.circuitBreakerTripped = true := by
  rcases Option.map_eq_some_iff.mp h with ⟨latest, hfilter, hdate⟩
  rcases Option.filter_eq_some_iff.mp hfilter with ⟨hlatest, hflag⟩
  have hrow := table.row_of_mem latest
    (Table.latest_mem NavHistory.tradingDate table.rows latest hlatest)
  rw [hdate] at hrow
  exact ⟨latest, hlatest, hrow, hdate, hflag⟩

/-- A confirmed resume is its two sessions, one right after the other. -/
theorem evaluate_sessions (table : NavTable) (runtimeDir : RuntimeDir) (tradingDate : Int)
    (h : readTripped table = some tradingDate) :
    (evaluate table runtimeDir true).1.cleared = true ∧
      (evaluate table runtimeDir true).2 =
        (clearRow table tradingDate, (maybeRemoveMarker runtimeDir).1) := by
  rcases readTripped_row table tradingDate h with ⟨latest, hlatest, hrow, _, hflag⟩
  unfold evaluate clearRow
  simp only [hlatest, hflag, hrow, Bool.not_true, Bool.false_eq_true, if_false, if_true, and_self]

/-- A resume that reads no tripped row changes nothing. -/
theorem evaluate_untripped (table : NavTable) (runtimeDir : RuntimeDir) (confirm : Bool)
    (h : readTripped table = none) :
    (evaluate table runtimeDir confirm).2 = (table, runtimeDir) := by
  rw [readTripped, Option.map_eq_none_iff] at h
  unfold evaluate
  rcases hlatest : table.latest with _ | latest
  · rfl
  · rw [hlatest] at h
    have hflag : latest.circuitBreakerTripped = false := by
      rw [← Bool.not_eq_true]
      intro ht
      rw [Option.filter_eq_none_iff] at h
      exact h latest rfl ht
    simp only [hflag, Bool.not_false, if_true]

/-- A resume keeps the date and the values of every row. -/
theorem evaluate_rows (table : NavTable) (runtimeDir : RuntimeDir) (confirm : Bool) (r : NavHistory)
    (hr : r ∈ (evaluate table runtimeDir confirm).2.1.rows) :
    ∃ old ∈ table.rows, old.tradingDate = r.tradingDate ∧ old.navInr = r.navInr := by
  unfold evaluate at hr
  split at hr
  · exact ⟨r, hr, rfl, rfl⟩
  · next latest hlatest =>
    simp only at hr
    split_ifs at hr
    · exact ⟨r, hr, rfl, rfl⟩
    · rcases table.mem_write _ r hr with rfl | ⟨hold, _⟩
      · exact ⟨latest, Table.latest_mem NavHistory.tradingDate table.rows latest hlatest, rfl, rfl⟩
      · exact ⟨r, hold, rfl, rfl⟩
    · exact ⟨r, hr, rfl, rfl⟩

/-- A resume, confirmed or not, leaves the breaker's marker where it is. -/
theorem evaluate_runtimeDir (table : NavTable) (runtimeDir : RuntimeDir) (confirm : Bool) :
    (evaluate table runtimeDir confirm).2.2.circuitBreaker = runtimeDir.circuitBreaker := by
  unfold evaluate
  split
  · rfl
  · simp only
    split_ifs <;> rfl

/-- A resume that is not confirmed leaves the table as it is. -/
theorem evaluate_unconfirmed (table : NavTable) (runtimeDir : RuntimeDir) :
    (evaluate table runtimeDir false).2.1 = table := by
  unfold evaluate
  split
  · rfl
  · simp only [Bool.false_eq_true, if_false]
    split_ifs <;> rfl

end ResumeService

theorem persistCircuitBreakerTrip_ok (table written : NavTable) (nav nav' : NavTracker)
    (dir dir' : RuntimeDir) (nowUtc : DateTime)
    (h : persistCircuitBreakerTrip table nav dir nowUtc = .ok (written, nav', dir')) :
    nav' = nav.tripBreaker ∧ dir'.circuitBreaker = true ∧
      ∃ r, written = table.write r ∧ r.tradingDate = (utcToIst nowUtc).date ∧
        r.navInr = nav.navNow ∧ r.circuitBreakerTripped = true := by
  unfold persistCircuitBreakerTrip at h
  simp only at h
  split at h
  · cases h
  · next hcommit =>
    cases h
    rcases table.commit_ok _ _ _ _ _ _ hcommit with ⟨r, hwritten, hdate, hnav, _, hflag⟩
    exact ⟨rfl, rfl, r, hwritten, hdate, hnav, hflag⟩

/-- The nightly row says of the breaker what the run was called with. -/
theorem persistNav_ok (table written : NavTable) (args snapshot : NavSnapshot)
    (h : persistNav table args = .ok (written, snapshot)) :
    ∃ r, written = table.write r ∧ snapshot.tradingDate = args.tradingDate ∧
      r.tradingDate = args.tradingDate ∧ r.navInr = args.navInr ∧
      r.circuitBreakerTripped = args.circuitBreakerTripped := by
  unfold persistNav at h
  simp only at h
  split at h
  · cases h
  · next hcommit =>
    cases h
    rcases table.commit_ok _ _ _ _ _ _ hcommit with ⟨r, hwritten, hdate, hnav, _, hflag⟩
    exact ⟨r, hwritten, rfl, hdate, hnav, hflag⟩

/-- Under a latest row that is flagged, a start has the flag. -/
theorem loadNavTracker_flag (trades : List Trade) (table : NavTable) (baseNavInr : ℚ)
    (nowUtc : DateTime) (m : NavHistory) (h : table.latest = some m) :
    (loadNavTracker trades table baseNavInr nowUtc).circuitBreakerTripped =
      m.circuitBreakerTripped := by
  unfold loadNavTracker
  simp only [h]

/-- A roll moves the anchors only. -/
theorem maybeRollIstTradingDay_value (nav : NavTracker) (nowUtc : DateTime)
    (lastIstDate : Option Int) :
    (maybeRollIstTradingDay nav nowUtc lastIstDate).1.navNow = nav.navNow ∧
      (maybeRollIstTradingDay nav nowUtc lastIstDate).1.peakNav = nav.peakNav := by
  unfold maybeRollIstTradingDay
  simp only
  split
  · split_ifs <;> exact ⟨rfl, rfl⟩
  · exact ⟨rfl, rfl⟩

theorem maybeRollIstTradingDay_breaker (nav : NavTracker) (nowUtc : DateTime)
    (lastIstDate : Option Int) :
    (maybeRollIstTradingDay nav nowUtc lastIstDate).1.circuitBreakerTripped =
      nav.circuitBreakerTripped := by
  unfold maybeRollIstTradingDay
  simp only
  split
  · split_ifs <;> rfl
  · rfl

end OptionsBot
