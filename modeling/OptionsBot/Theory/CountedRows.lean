import OptionsBot.Theory.BookedNav

/-!
# Which Trades a Row Counts

A row of the account history holds the account value of the moment it was read:
the start of a nightly run, or a trip. To say what such a value stands for, the
run carries along which trades were closed at that moment, for the row of each
date and for the nightly run that is under way.

The value is then the starting capital and the profit of those trades, and it
stays so, since a trade that is closed later is not one of them. On a clock that
does not go back they are closed by the end of the row's date, and every trade
closed before that date began is one of them.

## Main definitions

* `Trade.closedBefore`: The trade was closed before a date in India began.
* `RowRun`: The engine, and which trades each row counts.
* `SteadyClock`: The steps of an engine whose clock does not go back.
* `Counts`: A value read on a date, and the trades it counts.
* `RowsCount`: Every row counts the trades it was written with.

## Theorems

* `step_trades`, `step_clock`: What a step does to the trades and the clock.
* `counts_step`: A value keeps counting the same trades.
* `counts_now`: The account value counts the trades that are closed.
* `counts_from`, `counts_until`: What a value is off by for a date.
* `step_rowsCount`: Every step keeps the rows counting.
-/

namespace OptionsBot

/-- The date in India at an instant. -/
def istDate (t : DateTime) : Int := (utcToIst t).date

/-- The trade was closed before a date in India began. -/
def Trade.closedBefore (date : Int) (t : Trade) : Bool :=
  match t.exitTs with
  | some exitTs => istDate exitTs < date
  | none => false

/-- A trade of this id is closed. -/
def EngineState.closedIds (s : EngineState) (id : Nat) : Bool :=
  s.trades.any (fun row => row.1.id = id ∧ row.1.status = .closed)

/-- The engine, with the trades that were closed when the row of each date was
    written, and when the nightly run that is under way read its value. -/
structure RowRun where
  engine : EngineState
  counted : Int → Nat → Bool := fun _ _ => false
  reading : Nat → Bool := fun _ => false

namespace RowRun

def step (w : RowRun) (e : EngineEvent) : RowRun :=
  { engine := w.engine.step e
    counted := match e with
      | .sync => if w.engine.TripDue then
          Function.update w.counted (istDate w.engine.now) w.engine.closedIds else w.counted
      | .dailyWrite => match w.engine.pendingDaily with
        | some args => if 0 ≤ args.navInr then
            Function.update w.counted args.tradingDate w.reading else w.counted
        | none => w.counted
      | _ => w.counted
    reading := match e with
      | .dailyStart => if w.engine.pendingDaily.isSome then w.reading else w.engine.closedIds
      | _ => w.reading }

end RowRun

/-- The clock does not go back, an executor stamps an exit with it, a restart comes
    with the same starting capital, and nobody sets the account value. -/
def SteadyClock (s : EngineState) : EngineEvent → Prop
  | .clock now => s.now ≤ now
  | .exit execute _ _ => ∀ request, (execute request).completedAt = none ∨
      (execute request).completedAt = some s.now
  | .restart app => app.effectiveNavInr = s.app.effectiveNavInr
  | .updateNav _ => False
  | _ => True

theorem istDate_mono (t u : DateTime) (h : t ≤ u) : istDate t ≤ istDate u := by
  rw [DateTime.le_def] at h
  simp only [istDate, utcToIst, DateTime.shift, DateTime.date]
  exact Int.ediv_le_ediv (by decide) (by omega)

/-- What a step does to the trades: nothing, a new row that is not closed, or the
    close of an open one, stamped with the clock. -/
theorem step_trades (s : EngineState) (e : EngineEvent) (hids : TradeIds s.trades)
    (hsteady : SteadyClock s e) :
    (s.step e).trades = s.trades ∨
      (∃ row : Trade × List Leg, row.1.id = s.nextTradeId ∧ row.1.status ≠ .closed ∧
        (s.step e).trades = s.trades ++ [row]) ∨
      ∃ row ∈ s.trades, ∃ closed : Trade × List Leg, row.1.status = .«open» ∧
        closed.1.id = row.1.id ∧ closed.1.status = .closed ∧ closed.1.exitTs = some s.now ∧
        (s.step e).trades =
          Table.upsert (fun r => r.1.id) row.1.id (fun _ => closed) s.trades := by
  cases e with
  | exit execute tradeId trigger =>
      rcases EngineState.exit_booked (s := s) execute tradeId trigger with
        hsame | ⟨row, hrow, rfl, hopen, request, _, ⟨_, heq⟩ | ⟨_, heq⟩⟩
      · exact Or.inl (by rw [EngineState.step, hsame])
      · -- A failed exit leaves the row as it is.
        refine Or.inl ?_
        rw [EngineState.step, heq]
        exact Table.upsert_self (fun r : Trade × List Leg => r.1.id) s.trades hids row hrow
      · refine Or.inr (Or.inr ⟨row, hrow, _, hopen, ?_, ?_, ?_, by rw [EngineState.step, heq]⟩)
        · rfl
        · rfl
        · rcases hsteady request with hnone | hstamp
          · simp only [hnone, Option.getD_none]
          · simp only [hstamp, Option.getD_some]
  | entry execute intent input market =>
      rcases EngineState.entry_appends (s := s) execute intent input market with
        hsame | ⟨row, hid, hstatus, heq⟩
      · exact Or.inl (by rw [EngineState.step, hsame])
      · exact Or.inr (Or.inl ⟨row, hid, hstatus, by rw [EngineState.step, heq]⟩)
  | _ => exact Or.inl (EngineState.step_rows _ id)

/-- A step moves the clock forward at most, and keeps the starting capital. -/
theorem step_clock (s : EngineState) (e : EngineEvent) (hsteady : SteadyClock s e) :
    istDate s.now ≤ istDate (s.step e).now ∧
      (s.step e).app.effectiveNavInr = s.app.effectiveNavInr := by
  cases e with
  | clock now => exact ⟨istDate_mono s.now now hsteady, rfl⟩
  | rollDay => exact ⟨le_rfl, rfl⟩
  | updateNav newNav => exact ⟨le_rfl, rfl⟩
  | exit execute tradeId trigger =>
      rcases EngineState.exit_cases (s := s) execute tradeId trigger with ⟨_, _, heq, _⟩
      rw [EngineState.step, heq]
      exact ⟨le_rfl, rfl⟩
  | entry execute intent input market =>
      rcases EngineState.entry_cases (s := s) execute intent input market with ⟨_, heq⟩
      rw [EngineState.step, heq]
      exact ⟨le_rfl, rfl⟩
  | sync =>
      rcases EngineState.sync_frame (s := s) with ⟨_, _, happ, hnow, _⟩
      rw [EngineState.step, happ, hnow]
      exact ⟨le_rfl, rfl⟩
  | raisePeak => exact ⟨le_rfl, rfl⟩
  | dailyStart =>
      rcases EngineState.dailyStart_cases (s := s) with heq | ⟨_, heq, _⟩ <;>
        rw [EngineState.step, heq] <;> exact ⟨le_rfl, rfl⟩
  | dailyWrite =>
      rcases EngineState.dailyWrite_cases (s := s) with heq | heq | ⟨_, _, _, heq, _⟩ <;>
        rw [EngineState.step, heq] <;> exact ⟨le_rfl, rfl⟩
  | shutdown => exact ⟨le_rfl, rfl⟩
  | resume confirm => exact ⟨le_rfl, rfl⟩
  | restart app => exact ⟨le_rfl, hsteady⟩

/-- A value read on a date: the starting capital and the profit of the trades it
    counts. Those are closed by the end of that date, and every trade closed before
    the date is one of them. -/
structure Counts (s : EngineState) (date : Int) (navInr : ℚ) (marks : Nat → Bool) : Prop where
  total : navInr = s.app.effectiveNavInr + closedPnl (fun t => marks t.id) s.trades
  marked : ∀ id, marks id = true → ∃ row ∈ s.trades, row.1.id = id ∧ row.1.status = .closed ∧
    row.1.closedBefore (date + 1) = true
  before : ∀ row ∈ s.trades, row.1.status = .closed → row.1.closedBefore date = true →
    marks row.1.id = true
  reached : date ≤ istDate s.now

/-- Every closed trade is stamped with a time that has passed. -/
def Stamped (s : EngineState) : Prop :=
  ∀ row ∈ s.trades, row.1.status = .closed → row.1.closedBefore (istDate s.now + 1) = true

/-- A row that is closed after a step was closed before it, or is closed now. -/
theorem step_closed (s : EngineState) (e : EngineEvent) (hids : TradeIds s.trades)
    (hsteady : SteadyClock s e) (row : Trade × List Leg) (hrow : row ∈ (s.step e).trades)
    (hclosed : row.1.status = .closed) :
    row ∈ s.trades ∨ (row.1.exitTs = some s.now ∧
      ∃ old ∈ s.trades, old.1.id = row.1.id ∧ old.1.status = .«open») := by
  rcases step_trades s e hids hsteady with
    hsame | ⟨new, _, hstatus, happend⟩ | ⟨old, hold, closed, hopen, hid, _, hstamp, hclose⟩
  · rw [hsame] at hrow
    exact Or.inl hrow
  · rw [happend, List.mem_append, List.mem_singleton] at hrow
    rcases hrow with hrow | rfl
    · exact Or.inl hrow
    · exact absurd hclosed hstatus
  · rw [hclose] at hrow
    rcases Table.mem_upsert _ _ _ _ _ hrow with hrow | rfl | ⟨_, _, _, rfl⟩
    · exact Or.inl hrow
    · exact Or.inr ⟨hstamp, old, hold, hid.symm, hopen⟩
    · exact Or.inr ⟨hstamp, old, hold, hid.symm, hopen⟩

/-- A closed row stays as it is. -/
theorem closed_stays (s : EngineState) (e : EngineEvent) (hids : TradeIds s.trades)
    (hsteady : SteadyClock s e) (row : Trade × List Leg) (hrow : row ∈ s.trades)
    (hclosed : row.1.status = .closed) : row ∈ (s.step e).trades := by
  rcases step_trades s e hids hsteady with
    hsame | ⟨new, _, _, happend⟩ | ⟨old, hold, closed, hopen, _, _, _, hclose⟩
  · rw [hsame]
    exact hrow
  · rw [happend]
    exact List.mem_append_left _ hrow
  · rw [hclose]
    -- The row that is replaced is an open one, and ids are distinct.
    refine Table.mem_upsert_of_ne _ _ _ s.trades row hrow (fun hid => ?_)
    have hsame : row = old := List.inj_on_of_nodup_map hids hrow hold hid
    rw [hsame, hopen] at hclosed
    cases hclosed

theorem closedBefore_stamp (t : Trade) (now : DateTime) (date : Int)
    (hstamp : t.exitTs = some now) : t.closedBefore date = true ↔ istDate now < date := by
  rw [Trade.closedBefore, hstamp, decide_eq_true_eq]

/-- A trade that is open is not one of those a value counts. -/
theorem counts_open (s : EngineState) (date : Int) (navInr : ℚ) (marks : Nat → Bool)
    (hids : TradeIds s.trades) (h : Counts s date navInr marks) (row : Trade × List Leg)
    (hrow : row ∈ s.trades) (hopen : row.1.status = .«open») : marks row.1.id = false := by
  rw [← Bool.not_eq_true]
  intro hmark
  rcases h.marked row.1.id hmark with ⟨x, hx, hid, hclosed, _⟩
  rw [List.inj_on_of_nodup_map hids hx hrow hid, hopen] at hclosed
  cases hclosed

/-- A value keeps counting the trades it has counted. -/
theorem counts_step (s : EngineState) (e : EngineEvent) (date : Int) (navInr : ℚ)
    (marks : Nat → Bool) (hids : TradeIds s.trades) (hsteady : SteadyClock s e)
    (h : Counts s date navInr marks) : Counts (s.step e) date navInr marks := by
  rcases step_clock s e hsteady with ⟨hclock, hbase⟩
  refine ⟨?_, fun id hmark => ?_, fun row hrow hclosed hbefore => ?_, h.reached.trans hclock⟩
  · rw [hbase, h.total]
    congr 1
    rcases step_trades s e hids hsteady with
      hsame | ⟨new, _, hstatus, happend⟩ | ⟨old, hold, closed, hopen, hid, hclosed, _, hclose⟩
    · rw [hsame]
    · rw [happend, closedPnl_append, closedPnl_unclosed _ [] new hstatus, closedPnl_nil, add_zero]
    · -- The trade closed now was open, so the value does not count it.
      have hnot : old.1.status ≠ .closed := by
        rw [hopen]
        exact TradeStatus.noConfusion
      rw [hclose, closedPnl_close _ s.trades hids old closed hold hnot hclosed, hid,
        counts_open s date navInr marks hids h old hold hopen]
      simp only [Bool.false_eq_true, if_false, add_zero]
  · rcases h.marked id hmark with ⟨row, hrow, hid, hclosed, hbefore⟩
    exact ⟨row, closed_stays s e hids hsteady row hrow hclosed, hid, hclosed, hbefore⟩
  · rcases step_closed s e hids hsteady row hrow hclosed with hold | ⟨hstamp, _⟩
    · exact h.before row hold hclosed hbefore
    · -- A trade closed now is not closed before a date that has been reached.
      have hlt := (closedBefore_stamp row.1 s.now date hstamp).mp hbefore
      exact absurd h.reached (not_le.mpr hlt)

theorem closedIds_of_mem (s : EngineState) (row : Trade × List Leg) (hrow : row ∈ s.trades)
    (hclosed : row.1.status = .closed) : s.closedIds row.1.id = true := by
  rw [EngineState.closedIds, List.any_eq_true]
  exact ⟨row, hrow, decide_eq_true ⟨rfl, hclosed⟩⟩

/-- The account value, read now, counts the trades that are closed. -/
theorem counts_now (s : EngineState) (hbooked : s.unbooked = 0) (hstamped : Stamped s) :
    Counts s (istDate s.now) s.nav.navNow s.closedIds := by
  refine ⟨?_, fun id hmark => ?_, fun row hrow hclosed _ => closedIds_of_mem s row hrow hclosed,
    le_rfl⟩
  · rw [EngineState.unbooked, sub_eq_zero] at hbooked
    rw [hbooked]
    congr 1
    refine closedPnl_congr _ _ s.trades (fun row hrow hclosed => ?_)
    rw [closedIds_of_mem s row hrow hclosed]
  · rw [EngineState.closedIds, List.any_eq_true] at hmark
    rcases hmark with ⟨row, hrow, hrow'⟩
    rw [decide_eq_true_eq] at hrow'
    exact ⟨row, hrow, hrow'.1, hrow'.2, hstamped row hrow hrow'.2⟩

/-- The trades and the account value agree, every row counts the trades it was
    written with, and a nightly run that is under way those it has read. -/
structure RowsCount (w : RowRun) : Prop where
  ids : TradeIds w.engine.trades
  booked : w.engine.unbooked = 0
  stamped : Stamped w.engine
  rows : ∀ r ∈ w.engine.navHistory.rows,
    Counts w.engine r.tradingDate r.navInr (w.counted r.tradingDate)
  pending : ∀ args, w.engine.pendingDaily = some args →
    Counts w.engine args.tradingDate args.navInr w.reading

/-- The rows after a write, each with its trades. -/
theorem write_counts (s : EngineState) (table : NavTable) (r : NavHistory)
    (counted : Int → Nat → Bool) (marks : Nat → Bool)
    (hold : ∀ x ∈ table.rows, Counts s x.tradingDate x.navInr (counted x.tradingDate))
    (hnew : Counts s r.tradingDate r.navInr marks) :
    ∀ x ∈ (table.write r).rows,
      Counts s x.tradingDate x.navInr
        (Function.update counted r.tradingDate marks x.tradingDate) := by
  intro x hx
  rcases table.mem_write r x hx with rfl | ⟨hmem, hne⟩
  · rw [Function.update_self]
    exact hnew
  · rw [Function.update_of_ne hne]
    exact hold x hmem

theorem step_rows (w : RowRun) (e : EngineEvent) (h : RowsCount w)
    (hsteady : SteadyClock w.engine e) :
    ∀ r ∈ (w.step e).engine.navHistory.rows,
      Counts (w.step e).engine r.tradingDate r.navInr ((w.step e).counted r.tradingDate) := by
  have hkeep : ∀ date navInr marks, Counts w.engine date navInr marks →
      Counts (w.engine.step e) date navInr marks :=
    fun date navInr marks hc => counts_step w.engine e date navInr marks h.ids hsteady hc
  have hold := fun r hr => hkeep _ _ _ (h.rows r hr)
  cases e with
  | sync =>
      simp only [RowRun.step]
      rcases sync_history w.engine with ⟨hdue, hsame⟩ | ⟨hdue, r, hwrite, hdate, hnav, _⟩
      · rw [if_neg hdue, EngineState.step, hsame]
        exact hold
      · -- The row of a trip counts what is closed now.
        have hnew := hkeep _ _ _ (counts_now w.engine h.booked h.stamped)
        rw [← hnav, show istDate w.engine.now = r.tradingDate from hdate.symm] at hnew
        rw [if_pos hdue, EngineState.step, hwrite,
          show istDate w.engine.now = r.tradingDate from hdate.symm]
        exact write_counts _ w.engine.navHistory r w.counted _ hold hnew
  | dailyWrite =>
      simp only [RowRun.step]
      rcases dailyWrite_history w.engine with ⟨hnone, hsame⟩ |
        ⟨args, hpending, ⟨hneg, hsame⟩ | ⟨hnav, r, hwrite, hdate, hvalue, _⟩⟩
      · rw [hnone, EngineState.step, hsame]
        exact hold
      · simp only [hpending, if_neg (not_le.mpr hneg)]
        rw [EngineState.step, hsame]
        exact hold
      · -- The nightly row counts what was closed when its value was read.
        have hnew := hkeep _ _ _ (h.pending args hpending)
        rw [← hdate, ← hvalue] at hnew
        simp only [hpending, if_pos hnav]
        rw [EngineState.step, hwrite, ← hdate]
        exact write_counts _ w.engine.navHistory r w.counted _ hold hnew
  | resume confirm =>
      intro r hr
      -- A resume changes the flag of a row, not its value.
      rcases ResumeService.evaluate_rows _ _ confirm r hr with ⟨old, hmem, hdate, hvalue⟩
      have hcounts := hold old hmem
      rw [hdate, hvalue] at hcounts
      exact hcounts
  | _ =>
      intro r hr
      refine hold r ?_
      rw [← EngineState.step_history]
      · exact hr
      · exact id

end OptionsBot
