import OptionsBot.Theory.Resumed

/-!
# What a Close Adds to the Account

The account value lives in memory, the profits it is made of in the trade rows,
and a close changes both: the memory first, the row in a database session after
it. A start adds up the rows again.

The realised profit of the closed trades is taken part by part, for any condition
on a trade, since a close adds its profit to every part its row belongs to and
leaves the others alone. The whole is the part of all trades.

The account value and the rows agree at a start and stay in agreement through
every step, a session that fails included, with one exception: a close that has
booked a profit in memory and whose session does not commit.

## Main definitions

* `closedPnl`: The realised profit of a part of the trades.
* `TradeIds`: No two trades have the same id.
* `NavBooked`: The account value is the starting capital and what the rows say.
* `BookingEvent`, `EngineState.bookStep`: Closes with any outcome of their
  session, and everything else.
* `SessionBooked`: The session commits, or there is nothing to book.

## Theorems

* `closedPnl_close`, `closedPnl_append`: What a close and an entry add.
* `bookStep_tradeIds`: The ids stay distinct.
* `bookStep_navBooked_iff`: Exactly which step loses the agreement.
* `run_navBooked`: Runs of the other steps keep it, across restarts.
-/

namespace OptionsBot

/-- The realised profit of the closed trades that meet a condition. -/
def closedPnl (p : Trade → Bool) (trades : List (Trade × List Leg)) : ℚ :=
  sumRealisedPnlInr ((trades.map Prod.fst).filter p)

section ClosedPnl

variable (p q : Trade → Bool) (trades : List (Trade × List Leg))

theorem closedPnl_all :
    sumRealisedPnlInr (trades.map Prod.fst) = closedPnl (fun _ => true) trades := by
  rw [closedPnl, List.filter_true]

@[simp] theorem closedPnl_nil : closedPnl p [] = 0 := rfl

@[simp] theorem closedPnl_cons (row : Trade × List Leg) :
    closedPnl p (row :: trades) =
      (if row.1.status = .closed ∧ p row.1 = true then row.1.realisedPnlInr.getD 0 else 0) +
        closedPnl p trades := by
  unfold closedPnl sumRealisedPnlInr
  rw [List.map_cons, List.filter_cons]
  by_cases hp : p row.1 = true
  · rw [if_pos hp, List.filter_cons]
    by_cases hclosed : row.1.status = .closed
    · rw [if_pos (decide_eq_true hclosed), if_pos ⟨hclosed, hp⟩, List.map_cons, List.sum_cons]
    · rw [if_neg (by rwa [decide_eq_true_eq]), if_neg (fun h => hclosed h.1), zero_add]
  · rw [if_neg hp, if_neg (fun h => hp h.2), zero_add]

theorem closedPnl_append (more : List (Trade × List Leg)) :
    closedPnl p (trades ++ more) = closedPnl p trades + closedPnl p more := by
  induction trades with
  | nil => rw [List.nil_append, closedPnl_nil, zero_add]
  | cons row rest ih => rw [List.cons_append, closedPnl_cons, closedPnl_cons, ih, add_assoc]

/-- A trade that is not closed adds nothing. -/
theorem closedPnl_unclosed (row : Trade × List Leg) (h : row.1.status ≠ .closed) :
    closedPnl p (row :: trades) = closedPnl p trades := by
  rw [closedPnl_cons, if_neg (fun hc => h hc.1), zero_add]

theorem closedPnl_congr (h : ∀ row ∈ trades, row.1.status = .closed → p row.1 = q row.1) :
    closedPnl p trades = closedPnl q trades := by
  induction trades with
  | nil => rfl
  | cons row rest ih =>
      rw [closedPnl_cons, closedPnl_cons, ih (fun r hr => h r (List.mem_cons_of_mem row hr))]
      by_cases hclosed : row.1.status = .closed
      · rw [h row List.mem_cons_self hclosed]
      · rw [if_neg (fun hc => hclosed hc.1), if_neg (fun hc => hclosed hc.1)]

end ClosedPnl

/-- No two trades have the same id. -/
def TradeIds (trades : List (Trade × List Leg)) : Prop :=
  (trades.map (fun row => row.1.id)).Nodup

instance (trades : List (Trade × List Leg)) : Decidable (TradeIds trades) :=
  inferInstanceAs (Decidable (trades.map (fun row => row.1.id)).Nodup)

/-- Closing an open trade adds its profit to the parts its row now belongs to. -/
theorem closedPnl_close (p : Trade → Bool) (trades : List (Trade × List Leg))
    (hids : TradeIds trades) (row closed : Trade × List Leg) (hrow : row ∈ trades)
    (hopen : row.1.status ≠ .closed) (hclosed : closed.1.status = .closed) :
    closedPnl p (Table.upsert (fun r => r.1.id) row.1.id (fun _ => closed) trades) =
      closedPnl p trades + (if p closed.1 = true then closed.1.realisedPnlInr.getD 0 else 0) := by
  rcases Table.upsert_replaces (fun r : Trade × List Leg => r.1.id) (fun _ => closed) trades hids
    row hrow with ⟨before, after, hrows, hupsert⟩
  rw [hupsert, hrows, closedPnl_append, closedPnl_append, closedPnl_unclosed p after row hopen,
    closedPnl_cons]
  simp only [hclosed, true_and]
  ring

/-- The account value is the starting capital and the realised profit of the closed
    rows, and a start would compute the same. -/
structure NavBooked (s : EngineState) : Prop where
  value : s.nav.navNow = s.app.effectiveNavInr + sumRealisedPnlInr (s.trades.map Prod.fst)
  restart : (boot s.app s.trades s.navHistory s.runtimeDir s.now).nav.navNow = s.nav.navNow

/-- What the account value has that the rows do not show. -/
def EngineState.unbooked (s : EngineState) : ℚ :=
  s.nav.navNow - (s.app.effectiveNavInr + closedPnl (fun _ => true) s.trades)

theorem navBooked_iff (s : EngineState) : NavBooked s ↔ s.unbooked = 0 := by
  have hboot := (EngineState.boot_value s.app s.trades s.navHistory s.runtimeDir s.now).1
  rw [EngineState.unbooked, ← closedPnl_all, sub_eq_zero]
  exact ⟨fun h => h.value, fun h => ⟨h, hboot.trans h.symm⟩⟩

/-- A close whose session ends one way or another, or any other event. -/
inductive BookingEvent where
  | exit (outcome : EngineState.SessionOutcome) (execute : ExitRequest → ExitResult)
      (tradeId : Nat) (trigger : ExitTrigger)
  | other (e : EngineEvent)

/-- What the event does. -/
def EngineState.bookStep (s : EngineState) : BookingEvent → EngineState
  | .exit outcome execute tradeId trigger => s.exitIn outcome execute tradeId trigger
  | .other e => s.step e

/-- The tracker's own setter, which nothing in the engine calls. -/
def BookingEvent.IsUpdateNav (e : BookingEvent) : Prop :=
  ∃ newNav, e = .other (.updateNav newNav)

/-- The session commits, or there is nothing for it to book: no open trade, an exit
    that is not sent or fails, or one without profit or loss. -/
def SessionBooked (s : EngineState) : BookingEvent → Prop
  | .exit outcome execute tradeId trigger => outcome = .committed ∨
      ∀ row ∈ s.trades, row.1.id = tradeId → row.1.status = .«open» →
        ∀ request, exitRequest row.1 row.2 trigger s.now = .ok request →
          (execute request).success = true → tradeRealisedPnl row.1 (execute request) = 0
  | .other _ => True

/-- A close keeps the ids distinct, and an open trade is the only one of its id. -/
theorem exit_tradeIds (s : EngineState) (execute : ExitRequest → ExitResult) (tradeId : Nat)
    (trigger : ExitTrigger) (h : TradeIds s.trades) :
    TradeIds (s.exit execute tradeId trigger).trades := by
  rcases EngineState.exit_booked (s := s) execute tradeId trigger with
    hsame | ⟨row, _, hid, _, _, _, ⟨_, heq⟩ | ⟨_, heq⟩⟩
  · rw [hsame]
    exact h
  · rw [heq]
    refine Table.nodup_upsert (fun r : Trade × List Leg => r.1.id) tradeId _ (fun _ => ?_) _ h
    exact hid
  · rw [heq]
    refine Table.nodup_upsert (fun r : Trade × List Leg => r.1.id) tradeId _ (fun _ => ?_) _ h
    exact hid

theorem step_tradeIds (s : EngineState) (e : EngineEvent) (h : TradeIds s.trades) :
    TradeIds (s.step e).trades := by
  cases e with
  | exit execute tradeId trigger => exact exit_tradeIds s execute tradeId trigger h
  | entry execute intent input market =>
      rcases EngineState.entry_appends (s := s) execute intent input market with
        hsame | ⟨row, hid, _, heq⟩
      · rw [EngineState.step, hsame]
        exact h
      · rw [EngineState.step, heq, TradeIds, List.map_append, List.nodup_append']
        refine ⟨h, List.nodup_singleton _, fun id hmem hnew => ?_⟩
        -- The new id is past every id there is.
        rcases List.mem_map.mp hmem with ⟨old, hold, rfl⟩
        rw [List.map_singleton, List.mem_singleton, hid] at hnew
        exact absurd hnew (EngineState.lt_nextTradeId old hold).ne
  | _ =>
      rw [EngineState.step_rows]
      · exact h
      · exact id

/-- A close books in its row what it adds to the account value. -/
theorem exit_unbooked (s : EngineState) (hids : TradeIds s.trades)
    (execute : ExitRequest → ExitResult) (tradeId : Nat) (trigger : ExitTrigger) :
    (s.exit execute tradeId trigger).unbooked = s.unbooked := by
  rcases EngineState.exit_booked (s := s) execute tradeId trigger with
    hsame | ⟨row, hrow, rfl, hopen, request, _, ⟨_, heq⟩ | ⟨_, heq⟩⟩
  · rw [hsame]
  · -- A failed exit leaves the row as it is.
    have hself := Table.upsert_self (fun r : Trade × List Leg => r.1.id) s.trades hids row hrow
    rw [heq, hself]
  · have hnotclosed : row.1.status ≠ .closed := by
      rw [hopen]
      exact TradeStatus.noConfusion
    rw [heq, EngineState.unbooked, EngineState.unbooked]
    simp only
    rw [closedPnl_close _ s.trades hids row _ hrow hnotclosed rfl]
    simp only [if_true, Option.getD_some]
    ring

/-- No step but the tracker's own setter changes what is unbooked, and a restart
    leaves nothing unbooked. -/
theorem step_unbooked (s : EngineState) (e : EngineEvent) (hids : TradeIds s.trades)
    (he : ∀ newNav, e ≠ .updateNav newNav) (h : s.unbooked = 0) : (s.step e).unbooked = 0 := by
  cases e with
  | clock now => exact h
  | rollDay =>
      rw [EngineState.unbooked, EngineState.step, EngineState.rollDay,
        (maybeRollIstTradingDay_value s.nav s.now s.lastIstTradingDate).1]
      exact h
  | updateNav newNav => exact absurd rfl (he newNav)
  | exit execute tradeId trigger =>
      exact (exit_unbooked s hids execute tradeId trigger).trans h
  | entry execute intent input market =>
      rcases EngineState.entry_appends (s := s) execute intent input market with
        hsame | ⟨row, _, hstatus, heq⟩
      · rw [EngineState.step, hsame]
        exact h
      · -- An entry adds an open row, which has no profit yet.
        rw [EngineState.step, heq, EngineState.unbooked]
        simp only
        rw [closedPnl_append, closedPnl_unclosed _ [] row hstatus, closedPnl_nil, add_zero]
        exact h
  | sync =>
      rcases EngineState.sync_frame (s := s) with ⟨htrades, hnow, happ, _⟩
      rw [EngineState.unbooked, EngineState.step, htrades, hnow, happ]
      exact h
  | raisePeak => exact h
  | dailyStart =>
      rcases EngineState.dailyStart_cases (s := s) with heq | ⟨_, heq, _⟩ <;>
        rw [EngineState.step, heq] <;> exact h
  | dailyWrite =>
      rcases EngineState.dailyWrite_cases (s := s) with heq | heq | ⟨_, _, _, heq, _⟩ <;>
        rw [EngineState.step, heq] <;> exact h
  | shutdown => exact h
  | resume confirm => exact h
  | restart app =>
      have hboot := (EngineState.boot_value app s.trades s.navHistory s.runtimeDir s.now).1
      rw [EngineState.unbooked, EngineState.step, hboot, closedPnl_all, sub_eq_zero]
      rfl

/-- A close whose session does not commit leaves unbooked what it has added to the
    account value. The row that is gone was an open one. -/
theorem exitIn_unbooked (s : EngineState) (outcome : EngineState.SessionOutcome)
    (execute : ExitRequest → ExitResult) (tradeId : Nat) (trigger : ExitTrigger)
    (hlost : outcome ≠ .committed) :
    (s.exitIn outcome execute tradeId trigger).unbooked =
      s.unbooked + ((s.exit execute tradeId trigger).nav.navNow - s.nav.navNow) := by
  cases outcome with
  | committed => exact absurd rfl hlost
  | raised =>
      rw [EngineState.exitIn, EngineState.unbooked, EngineState.unbooked]
      ring
  | missing =>
      have hgone : closedPnl (fun _ => true) (s.trades.filter
          (fun row => ¬(row.1.id = tradeId ∧ row.1.status = .«open»))) =
            closedPnl (fun _ => true) s.trades := by
        -- The rows that are dropped are open, and have nothing realised.
        induction s.trades with
        | nil => rfl
        | cons row rest ih =>
            rw [List.filter_cons]
            by_cases hopen : row.1.id = tradeId ∧ row.1.status = .«open»
            · have hunclosed : row.1.status ≠ .closed := by
                rw [hopen.2]
                exact TradeStatus.noConfusion
              rw [if_neg (by simp only [hopen, and_self, not_true_eq_false, decide_false,
                Bool.false_eq_true, not_false_eq_true]), ih,
                closedPnl_unclosed _ rest row hunclosed]
            · rw [if_pos (by simp only [hopen, not_false_eq_true, decide_true]), closedPnl_cons,
                closedPnl_cons, ih]
      rw [EngineState.exitIn, EngineState.unbooked, EngineState.unbooked, hgone]
      ring

/-- What an exit adds to the account value is what its trade realises. -/
theorem exit_adds_nothing_iff (s : EngineState) (hids : TradeIds s.trades)
    (execute : ExitRequest → ExitResult) (tradeId : Nat) (trigger : ExitTrigger) :
    (s.exit execute tradeId trigger).nav.navNow = s.nav.navNow ↔
      ∀ row ∈ s.trades, row.1.id = tradeId → row.1.status = .«open» →
        ∀ request, exitRequest row.1 row.2 trigger s.now = .ok request →
          (execute request).success = true → tradeRealisedPnl row.1 (execute request) = 0 := by
  constructor
  · rintro hsame row hrow rfl hopen request hrequest hsuccess
    rw [EngineState.exit_filled hids execute trigger row hrow hopen request hrequest hsuccess]
      at hsame
    linarith
  · intro hnone
    rcases EngineState.exit_booked (s := s) execute tradeId trigger with
      hsame | ⟨row, hrow, hid, hopen, request, hrequest, ⟨_, heq⟩ | ⟨hsuccess, heq⟩⟩
    · rw [hsame]
    · rw [heq]
    · rw [heq, hnone row hrow hid hopen request hrequest hsuccess]
      exact add_zero _

/-- Exactly the steps whose session books what there is to book keep the account
    value and the rows in agreement. -/
theorem bookStep_navBooked_iff (s : EngineState) (e : BookingEvent) (hids : TradeIds s.trades)
    (he : ¬ e.IsUpdateNav) (h : NavBooked s) : NavBooked (s.bookStep e) ↔ SessionBooked s e := by
  rw [navBooked_iff] at h ⊢
  cases e with
  | other e =>
      refine iff_of_true (step_unbooked s e hids (fun newNav heq => he ⟨newNav, ?_⟩) h) trivial
      rw [heq]
  | exit outcome execute tradeId trigger =>
      rw [EngineState.bookStep, SessionBooked, ← exit_adds_nothing_iff s hids]
      by_cases hcommitted : outcome = .committed
      · rw [hcommitted]
        exact iff_of_true ((exit_unbooked s hids execute tradeId trigger).trans h) (Or.inl rfl)
      · rw [exitIn_unbooked s outcome execute tradeId trigger hcommitted, h, zero_add, sub_eq_zero]
        exact ⟨Or.inr, fun hor => hor.resolve_left hcommitted⟩

/-- Any step keeps the ids distinct, a row that is gone included. -/
theorem bookStep_tradeIds (s : EngineState) (e : BookingEvent) (h : TradeIds s.trades) :
    TradeIds (s.bookStep e).trades := by
  cases e with
  | other e => exact step_tradeIds s e h
  | exit outcome execute tradeId trigger =>
      cases outcome with
      | committed => exact exit_tradeIds s execute tradeId trigger h
      | raised => exact h
      | missing => exact h.sublist (List.filter_sublist.map _)

/-- From any start, the account value and the closed rows agree through every run
    whose sessions book what there is to book. -/
theorem run_navBooked (app : AppConfig) (trades : List (Trade × List Leg)) (table : NavTable)
    (dir : RuntimeDir) (now : DateTime) (hids : TradeIds trades) (t : EngineState)
    (hrun : Run EngineState.bookStep (fun s e => ¬ e.IsUpdateNav ∧ SessionBooked s e)
      (boot app trades table dir now) t) : NavBooked t := by
  have hboth : TradeIds t.trades ∧ NavBooked t := by
    refine hrun.invariant (fun s => TradeIds s.trades ∧ NavBooked s) (fun s e hg hs => ?_) ?_
    · exact ⟨bookStep_tradeIds s e hs.1, (bookStep_navBooked_iff s e hs.1 hg.1 hs.2).mpr hg.2⟩
    · refine ⟨hids, (navBooked_iff _).mpr ?_⟩
      have hboot := (EngineState.boot_value app trades table dir now).1
      rw [EngineState.unbooked, hboot, closedPnl_all, sub_eq_zero]
      rfl
  exact hboth.2

/-- Both calls are closed, and both sessions commit. -/
theorem run_navBooked_gain :
    NavBooked (((boot shippedConfig [lossTrade, gainTrade] {} {} lossNoon).exitIn .committed
      gainExit 2 .target).exitIn .committed lossExit 1 .premiumStop) := by
  refine run_navBooked shippedConfig [lossTrade, gainTrade] {} {} lossNoon (by decide) _ ?_
  refine Run.cons _ (BookingEvent.exit .committed gainExit 2 .target) _ ⟨?_, Or.inl rfl⟩
    (Run.single _ (BookingEvent.exit .committed lossExit 1 .premiumStop) ⟨?_, Or.inl rfl⟩)
  · rintro ⟨_, h⟩
    cases h
  · rintro ⟨_, h⟩
    cases h

/-- When the session raises, the loss is in memory and in no row. -/
theorem raised_session_unbooked : ¬ ∀ (app : AppConfig) (trades : List (Trade × List Leg))
    (table : NavTable) (dir : RuntimeDir) (now : DateTime), TradeIds trades →
      ∀ t : EngineState,
        Run EngineState.bookStep (fun _ e => ¬ e.IsUpdateNav) (boot app trades table dir now) t →
          NavBooked t := by
  intro hall
  have hbooked := hall shippedConfig [lossTrade] {} {} lossNoon (by decide) _
    (Run.single _ (BookingEvent.exit .raised lossExit 1 .premiumStop) (by
      rintro ⟨_, h⟩
      cases h))
  exact absurd hbooked.value (by decide +kernel)

end OptionsBot
