import OptionsBot.Core.Nightly
import OptionsBot.Theory.ClosedRows
import OptionsBot.Theory.DailyRows

/-!
# The Reports of Many Nights

The rows of a date are written by a run that has read the trades some time before, while the main
loop goes on closing trades. A run may raise and be followed by another, and a process may end in
the middle of one.

Still the rows of a date are never a mixture. They are what one look at the trades has found: there
is a row for each strategy that had closed a trade of the date by then, one for all together, and
no other. What makes a later run cover an earlier one is that the columns of a closed trade stay as
they are in every step of the main loop, so that no strategy drops out.

The look is taken in a run that was begun between 22:35 and 23:00 in India, and by a process only
until one of its runs has come through. So a trade of the date that is closed after the last look
is in no row, on that date or any other.

## Main definitions

* `NightlyDesk.Shows`: The rows of a date are those of some trades.
* `NightlyDesk.Looked`: A run has looked at the trades.
* `NightlyDesk.Consistent`: What holds after every event.

## Theorems

* `computePerStrategy_covers`: More trades have the rows of some, and maybe others.
* `closed_daily_stays`: The main loop leaves the columns of a closed trade as they are.
* `step_consistent`: An event keeps it.
* `nightly_reports`: The rows after any run of the system.
-/

namespace OptionsBot

-- The sample run below computes with rationals.
attribute [local semireducible] Rat.add Rat.sub Rat.mul Rat.inv

/-- Trades that have all closed ones of others have their rows too. -/
theorem computePerStrategy_covers (before after : List DailyTrade) (tradingDate : Int)
    (h : ∀ t ∈ before, t.status = .closed → t ∈ after) :
    ∀ stats ∈ computePerStrategy before tradingDate,
      ∃ stats' ∈ computePerStrategy after tradingDate, stats'.strategyId = stats.strategyId := by
  intro stats hstats
  rcases List.mem_cons.mp hstats with hglobal | hstrategy
  · refine ⟨_, List.mem_cons_self, ?_⟩
    rw [hglobal, summarise_strategyId, summarise_strategyId]
  · rcases List.mem_map.mp ((strategyStats_perm _).mem_iff.mp hstrategy) with ⟨group, hgroup, heq⟩
    rcases (Table.mem_group DailyTrade.strategyId _ group).mp hgroup with ⟨hitems, hsome⟩
    rcases List.exists_mem_of_ne_nil _ hsome with ⟨t, ht⟩
    rw [hitems] at ht
    rcases List.mem_filter.mp ht with ⟨hday, hname⟩
    rcases (mem_dayTrades _ _ _).mp hday with ⟨hin, hclosed, hexit⟩
    have hday' : t ∈ dayTrades after tradingDate :=
      (mem_dayTrades _ _ _).mpr ⟨h t hin hclosed, hclosed, hexit⟩
    rcases List.mem_map.mp (Table.key_mem_group DailyTrade.strategyId _ t hday') with
      ⟨group', hgroup', hkey⟩
    refine ⟨summarise group'.1 group'.2, List.mem_cons_of_mem _
      ((strategyStats_perm _).mem_iff.mpr (List.mem_map_of_mem hgroup')), ?_⟩
    rw [← heq, summarise_strategyId, summarise_strategyId, hkey]
    exact of_decide_eq_true hname

theorem refresh_daily (loaded : LoadedRow) (t : DeskTick) (peak : Option ℚ) (row : DeskRow) :
    (row.refresh loaded t peak).daily = row.daily := by
  dsimp only [DeskRow.refresh, refreshOpenTradeRecord]
  -- A peak goes into the notes, which the report does not read.
  generalize peak.or (estimateUnrealizedPnlInr loaded.trade loaded.legs t.market.chain) = noted
  cases noted with
  | none => rfl
  | some p => rfl

/-- What the report reads of a closed trade stays as it is. -/
theorem closed_daily_stays (s : MainLoop) (h : MainLoop.Fits s) (e : DeskEvent) (t : DailyTrade)
    (ht : t ∈ s.rows.map DeskRow.daily) (hclosed : t.status = .closed) :
    t ∈ (s.step e).rows.map DeskRow.daily := by
  rcases List.mem_map.mp ht with ⟨row, hrow, rfl⟩
  have hkept : ∀ (id : Nat) (f : DeskRow → DeskRow), (row.id = id → (f row).daily = row.daily) →
      (s.step e).rows = modifyRow id f s.rows →
      row.daily ∈ (s.step e).rows.map DeskRow.daily := by
    intro id f hf hrows
    rw [hrows]
    by_cases hid : row.id = id
    · exact List.mem_map.mpr ⟨f row, (mem_modifyRow _ _ _ _).mpr (Or.inl ⟨row, hrow, hid, rfl⟩),
        hf hid⟩
    · exact List.mem_map.mpr ⟨row, (mem_modifyRow _ _ _ _).mpr (Or.inr ⟨hrow, hid⟩), rfl⟩
  cases s.step_cases e with
  | quiet hrows hpending => rw [hrows]; exact ht
  | loaded hrows hpending => rw [hrows]; exact ht
  | managed p pending hs f hf hrows hpending =>
      -- A position that is managed is of a row that is not closed.
      have hunclosed := h.pending.unclosed p (by rw [hs]; exact List.mem_cons_self) row hrow
      exact hkept _ f (fun hid => absurd hclosed (hunclosed hid)) hrows
  | refreshed t loaded pending peaks chain hs he hrows hpending =>
      exact hkept _ _ (fun _ => refresh_daily _ _ _ row) hrows
  | entered new hid hopen hfile hrows hpending =>
      rw [hrows, List.map_append]
      exact List.mem_append_left _ ht

namespace NightlyDesk

/-- Both loops, before there is any row of a report. -/
def start (desk : MainLoop) (navHistory : NavTable) : NightlyDesk :=
  { desk := desk, db := { navHistory := navHistory } }

/-- The rows of a date are those of the trades, and there are no others. -/
def Shows (s : NightlyDesk) (tradingDate : Int) (counted : List DailyTrade) : Prop :=
  ∀ row, (row ∈ s.db.dailyPnl.rows ∧ row.tradingDate = tradingDate) ↔
    ∃ stats ∈ computePerStrategy counted tradingDate, row = ⟨tradingDate, stats⟩

/-- The loop has found the hour on that date. -/
def Checked (events : List NightlyEvent) (tradingDate : Int) : Prop :=
  ∃ before nowUtc nav peak tripped after,
    events = before ++ .check nowUtc nav peak tripped :: after ∧ InHour nowUtc ∧
      (utcToIst nowUtc).date = tradingDate

section Runs

variable (s₀ : NightlyDesk)

/-- A run of the date, begun in the hour, has looked at the trades. They are all closed by now. -/
def Looked (events : List NightlyEvent) (s : NightlyDesk) (tradingDate : Int)
    (counted : List DailyTrade) : Prop :=
  ∃ before fault after args, events = before ++ .go fault :: after ∧ fault ≠ some .session ∧
    (before.foldl step s₀).run = some ⟨args, .begun⟩ ∧ args.tradingDate = tradingDate ∧
    Checked before tradingDate ∧ counted = (before.foldl step s₀).trades ∧
    ∀ t ∈ counted, t.status = .closed → t ∈ s.trades

/-- What holds after every event. -/
structure Consistent (events : List NightlyEvent) (s : NightlyDesk) : Prop where
  fits : MainLoop.Fits s.desk
  shown : ∀ tradingDate, (∀ row ∈ s.db.dailyPnl.rows, row.tradingDate ≠ tradingDate) ∨
    ∃ counted, Looked s₀ events s tradingDate counted ∧ Shows s tradingDate counted
  pending : ∀ args stats, s.run = some ⟨args, .read stats⟩ →
    (∃ counted, Looked s₀ events s args.tradingDate counted ∧
      stats = computePerStrategy counted args.tradingDate) ∧
    ∀ row ∈ s.db.dailyPnl.rows, row.tradingDate = args.tradingDate →
      ∃ new ∈ stats, new.strategyId = row.stats.strategyId
  written : ∀ args, s.run = some ⟨args, .rowsWritten⟩ →
    ∃ row ∈ s.db.dailyPnl.rows, row.tradingDate = args.tradingDate
  checked : ∀ run, s.run = some run → Checked events run.args.tradingDate ∧
    s.lastDailyIstDate ≠ some run.args.tradingDate
  done : ∀ tradingDate, s.lastDailyIstDate = some tradingDate →
    ∃ row ∈ s.db.dailyPnl.rows, row.tradingDate = tradingDate

theorem checked_concat (events : List NightlyEvent) (e : NightlyEvent) (tradingDate : Int)
    (h : Checked events tradingDate) : Checked (events ++ [e]) tradingDate := by
  rcases h with ⟨before, nowUtc, nav, peak, tripped, after, heq, hin⟩
  refine ⟨before, nowUtc, nav, peak, tripped, after ++ [e], ?_, hin⟩
  rw [heq, List.append_assoc, List.cons_append]

/-- A look stays, as long as the trades it has seen do. -/
theorem looked_concat (events : List NightlyEvent) (e : NightlyEvent) (s s' : NightlyDesk)
    (tradingDate : Int) (counted : List DailyTrade)
    (hkeeps : ∀ t ∈ s.trades, t.status = .closed → t ∈ s'.trades)
    (h : Looked s₀ events s tradingDate counted) :
    Looked s₀ (events ++ [e]) s' tradingDate counted := by
  rcases h with ⟨before, fault, after, args, heq, hfault, hrun, hdate, hchecked, hcounted, hkept⟩
  refine ⟨before, fault, after ++ [e], args, ?_, hfault, hrun, hdate, hchecked, hcounted,
    fun t ht hclosed => hkeeps t (hkept t ht hclosed) hclosed⟩
  rw [heq, List.append_assoc, List.cons_append]

/-- An event that leaves the rows as they are, and no run that has read, keeps what is shown. -/
theorem shown_concat (events : List NightlyEvent) (e : NightlyEvent) (s s' : NightlyDesk)
    (hkeeps : ∀ t ∈ s.trades, t.status = .closed → t ∈ s'.trades)
    (hrows : s'.db.dailyPnl = s.db.dailyPnl) (h : Consistent s₀ events s) (tradingDate : Int) :
    (∀ row ∈ s'.db.dailyPnl.rows, row.tradingDate ≠ tradingDate) ∨
      ∃ counted, Looked s₀ (events ++ [e]) s' tradingDate counted ∧
        Shows s' tradingDate counted := by
  unfold Shows
  rw [hrows]
  rcases h.shown tradingDate with hnone | ⟨counted, hlooked, hshows⟩
  · exact Or.inl hnone
  · exact Or.inr ⟨counted, looked_concat s₀ events e s s' tradingDate counted hkeeps hlooked,
      hshows⟩

/-- With no run under way there is nothing else to keep. -/
theorem idle_consistent (events : List NightlyEvent) (e : NightlyEvent) (s s' : NightlyDesk)
    (hfits : MainLoop.Fits s'.desk)
    (hkeeps : ∀ t ∈ s.trades, t.status = .closed → t ∈ s'.trades)
    (hrows : s'.db.dailyPnl = s.db.dailyPnl) (hrun : s'.run = none)
    (hlast : ∀ tradingDate, s'.lastDailyIstDate = some tradingDate →
      ∃ row ∈ s.db.dailyPnl.rows, row.tradingDate = tradingDate)
    (h : Consistent s₀ events s) : Consistent s₀ (events ++ [e]) s' where
  fits := hfits
  shown := shown_concat s₀ events e s s' hkeeps hrows h
  pending := by
    intro args stats hsome
    rw [hrun] at hsome
    cases hsome
  written := by
    intro args hsome
    rw [hrun] at hsome
    cases hsome
  checked := by
    intro run hsome
    rw [hrun] at hsome
    cases hsome
  done := by
    rw [hrows]
    exact hlast

/-- A step of the main loop. -/
theorem desk_consistent (events : List NightlyEvent) (s : NightlyDesk) (e : DeskEvent)
    (h : Consistent s₀ events s) :
    Consistent s₀ (events ++ [.desk e]) { s with desk := s.desk.step e } := by
  have hkeeps := closed_daily_stays s.desk h.fits e
  refine ⟨s.desk.fits_step e h.fits, shown_concat s₀ events _ s _ hkeeps rfl h, ?_, h.written, ?_,
    h.done⟩
  · intro args stats hsome
    rcases h.pending args stats hsome with ⟨⟨counted, hlooked, hstats⟩, hcovers⟩
    exact ⟨⟨counted, looked_concat s₀ events _ s _ _ counted hkeeps hlooked, hstats⟩, hcovers⟩
  · intro run hsome
    rcases h.checked run hsome with ⟨hchecked, hne⟩
    exact ⟨checked_concat events _ _ hchecked, hne⟩

/-- A look at the clock. -/
theorem check_consistent (events : List NightlyEvent) (s : NightlyDesk) (nowUtc : DateTime)
    (nav peak : ℚ) (tripped : Bool) (h : Consistent s₀ events s) :
    Consistent s₀ (events ++ [.check nowUtc nav peak tripped])
      (s.check nowUtc nav peak tripped) := by
  unfold check
  simp only
  by_cases hdue : s.run = none ∧ InHour nowUtc ∧ s.lastDailyIstDate ≠ some (utcToIst nowUtc).date
  · rw [if_pos hdue]
    refine ⟨h.fits, shown_concat s₀ events _ s _ (fun _ ht _ => ht) rfl h, ?_, ?_, ?_, h.done⟩
    · intro args stats hsome
      cases hsome
    · intro args hsome
      cases hsome
    · intro run hsome
      cases hsome
      exact ⟨⟨events, nowUtc, nav, peak, tripped, [], rfl, hdue.2.1, rfl⟩, hdue.2.2⟩
  · rw [if_neg hdue]
    refine ⟨h.fits, shown_concat s₀ events _ s s (fun _ ht _ => ht) rfl h, ?_, h.written, ?_, h.done⟩
    · intro args stats hsome
      rcases h.pending args stats hsome with ⟨⟨counted, hlooked, hstats⟩, hcovers⟩
      exact ⟨⟨counted, looked_concat s₀ events _ s s _ counted (fun _ ht _ => ht) hlooked,
        hstats⟩, hcovers⟩
    · intro run hsome
      rcases h.checked run hsome with ⟨hchecked, hne⟩
      exact ⟨checked_concat events _ _ hchecked, hne⟩

/-- A run looks at the trades. What is shown of its date was found among them. -/
theorem read_consistent (events : List NightlyEvent) (s : NightlyDesk)
    (hs : s = events.foldl step s₀) (fault : Option DailyFault) (hfault : fault ≠ some .session)
    (args : NavSnapshot) (hrun : s.run = some ⟨args, .begun⟩) (h : Consistent s₀ events s) :
    Consistent s₀ (events ++ [.go fault]) { s with
      run := some ⟨args, .read (computePerStrategy s.trades args.tradingDate)⟩ } := by
  rcases h.checked _ hrun with ⟨hchecked, hne⟩
  refine ⟨h.fits, shown_concat s₀ events _ s _ (fun _ ht _ => ht) rfl h, ?_, ?_, ?_, h.done⟩
  · intro args' stats hsome
    cases hsome
    refine ⟨⟨s.trades, ⟨events, fault, [], args, rfl, hfault, hs ▸ hrun, rfl, hchecked,
      by rw [hs], fun _ ht _ => ht⟩, rfl⟩, ?_⟩
    intro row hrow hdate
    rcases h.shown args.tradingDate with hnone | ⟨counted, hlooked, hshows⟩
    · exact absurd hdate (hnone row hrow)
    · rcases hlooked with ⟨_, _, _, _, _, _, _, _, _, _, hkept⟩
      rcases (hshows row).mp ⟨hrow, hdate⟩ with ⟨stats, hstats, heq⟩
      rcases computePerStrategy_covers counted s.trades args.tradingDate hkept stats hstats with
        ⟨new, hnew, hname⟩
      exact ⟨new, hnew, by rw [hname, heq]⟩
  · intro args' hsome
    cases hsome
  · intro run hsome
    cases hsome
    exact ⟨checked_concat events _ _ hchecked, hne⟩

/-- A run writes its rows, in place of all that was shown of its date. -/
theorem write_consistent (events : List NightlyEvent) (s : NightlyDesk)
    (fault : Option DailyFault) (args : NavSnapshot) (stats : List StrategyDailyStats)
    (hrun : s.run = some ⟨args, .read stats⟩) (dailyPnl : DailyPnlTable)
    (hwritten : s.db.dailyPnl.persistDailyPnl args.tradingDate stats = .ok dailyPnl)
    (h : Consistent s₀ events s) :
    Consistent s₀ (events ++ [.go fault]) { s with
      db := { s.db with dailyPnl := dailyPnl }, run := some ⟨args, .rowsWritten⟩ } := by
  rcases h.checked _ hrun with ⟨hchecked, hne⟩
  rcases h.pending args stats hrun with ⟨⟨counted, hlooked, hstats⟩, hcovers⟩
  subst hstats
  rcases s.db.dailyPnl.persistDailyPnl_ok args.tradingDate _
    (computePerStrategy_names counted args.tradingDate) with ⟨table, htable, hrows⟩
  rw [htable, Except.ok.injEq] at hwritten
  subst hwritten
  have hmem := Table.mem_upsertAll_iff DailyPnl.key s.db.dailyPnl.rows _ s.db.dailyPnl.unique
    (written_keys counted args.tradingDate)
  rw [← hrows] at hmem
  have hglobal : (⟨args.tradingDate, summarise globalKey (dayTrades counted args.tradingDate)⟩ :
      DailyPnl) ∈ table.rows :=
    (hmem _).mpr (Or.inl (List.mem_map_of_mem List.mem_cons_self))
  -- A row of another date is under another key.
  have hother : ∀ row : DailyPnl, row.tradingDate ≠ args.tradingDate →
      (row ∈ table.rows ↔ row ∈ s.db.dailyPnl.rows) := by
    intro row hdate
    rw [hmem]
    constructor
    · rintro (hin | hin)
      · rcases List.mem_map.mp hin with ⟨stats, _, heq⟩
        exact absurd (heq ▸ rfl) hdate
      · exact hin.1
    · intro hin
      refine Or.inr ⟨hin, fun new hnew hkey => ?_⟩
      rcases List.mem_map.mp hnew with ⟨stats, _, heq⟩
      rw [← heq] at hkey
      exact hdate (Prod.mk.inj hkey).1
  refine ⟨h.fits, fun tradingDate => ?_, ?_, ?_, ?_, ?_⟩
  · by_cases hdate : tradingDate = args.tradingDate
    · subst hdate
      refine Or.inr ⟨counted,
        looked_concat s₀ events _ s _ _ counted (fun _ ht _ => ht) hlooked, fun row => ?_⟩
      change row ∈ table.rows ∧ _ ↔ _
      rw [hmem]
      constructor
      · rintro ⟨hin | ⟨hin, hne⟩, hdate⟩
        · rcases List.mem_map.mp hin with ⟨stats, hstats, heq⟩
          exact ⟨stats, hstats, heq.symm⟩
        · -- An old row of the date would be under the name of a new one.
          rcases hcovers row hin hdate with ⟨new, hnew, hname⟩
          refine absurd ?_ (hne _ (List.mem_map_of_mem hnew))
          rw [DailyPnl.key, hdate, ← hname]
          rfl
      · rintro ⟨stats, hstats, heq⟩
        exact ⟨Or.inl (List.mem_map.mpr ⟨stats, hstats, heq.symm⟩), by rw [heq]⟩
    · rcases h.shown tradingDate with hnone | ⟨counted', hlooked', hshows⟩
      · refine Or.inl fun row hrow heq => ?_
        exact hnone row ((hother row (heq ▸ hdate)).mp hrow) heq
      · refine Or.inr ⟨counted',
          looked_concat s₀ events _ s _ _ counted' (fun _ ht _ => ht) hlooked', fun row => ?_⟩
        rw [← hshows row]
        change row ∈ table.rows ∧ _ ↔ _
        constructor
        · rintro ⟨hin, heq⟩
          exact ⟨(hother row (heq ▸ hdate)).mp hin, heq⟩
        · rintro ⟨hin, heq⟩
          exact ⟨(hother row (heq ▸ hdate)).mpr hin, heq⟩
  · intro args' stats hsome
    cases hsome
  · intro args' hsome
    cases hsome
    exact ⟨_, hglobal, rfl⟩
  · intro run hsome
    cases hsome
    exact ⟨checked_concat events _ _ hchecked, hne⟩
  · intro tradingDate hlast
    rcases h.done tradingDate hlast with ⟨row, hrow, heq⟩
    refine ⟨row, (hother row ?_).mpr hrow, heq⟩
    intro hsame
    exact hne (by rw [hlast, ← heq, hsame])

/-- A step of a run. -/
theorem go_consistent (events : List NightlyEvent) (s : NightlyDesk)
    (hs : s = events.foldl step s₀) (fault : Option DailyFault) (h : Consistent s₀ events s) :
    Consistent s₀ (events ++ [.go fault]) (s.go fault) := by
  have hraised := idle_consistent s₀ events (.go fault) s { s with run := none }
    h.fits (fun _ ht _ => ht) rfl rfl h.done h
  unfold go
  cases hrun : s.run with
  | none =>
      have hsame : ({ s with run := none } : NightlyDesk) = s := by rw [← hrun]
      rw [hsame] at hraised
      exact hraised
  | some run =>
      rcases run with ⟨args, stage⟩
      by_cases hfault : fault = some .session
      · cases stage <;> simp only [hfault, if_true] <;> exact hfault ▸ hraised
      · cases stage with
        | begun =>
            simp only [hfault, if_false]
            exact read_consistent s₀ events s hs fault hfault args hrun h
        | read stats =>
            simp only [hfault, if_false]
            cases hwritten : s.db.dailyPnl.persistDailyPnl args.tradingDate stats with
            | error e => exact hraised
            | ok dailyPnl => exact write_consistent s₀ events s fault args stats hrun _ hwritten h
        | rowsWritten =>
            simp only [hfault, if_false]
            cases persistNav s.db.navHistory args with
            | error e => exact hraised
            | ok written =>
                simp only
                split_ifs
                · exact idle_consistent s₀ events _ s _ h.fits (fun _ ht _ => ht) rfl rfl h.done h
                · refine idle_consistent s₀ events _ s _ h.fits (fun _ ht _ => ht) rfl rfl ?_ h
                  intro tradingDate hlast
                  cases hlast
                  exact h.written args hrun

theorem start_consistent (desk : MainLoop) (navHistory : NavTable) (hfits : MainLoop.Fits desk) :
    Consistent (start desk navHistory) [] (start desk navHistory) where
  fits := hfits
  shown := fun _ => Or.inl fun row hrow => absurd hrow List.not_mem_nil
  pending := by
    intro args stats hsome
    cases hsome
  written := by
    intro args hsome
    cases hsome
  checked := by
    intro run hsome
    cases hsome
  done := by
    intro tradingDate hlast
    cases hlast

theorem step_consistent (events : List NightlyEvent) (e : NightlyEvent)
    (h : Consistent s₀ events (events.foldl step s₀)) :
    Consistent s₀ (events ++ [e]) (step (events.foldl step s₀) e) := by
  cases e with
  | desk e => exact desk_consistent s₀ events _ e h
  | check nowUtc nav peak tripped => exact check_consistent s₀ events _ nowUtc nav peak tripped h
  | go fault => exact go_consistent s₀ events _ rfl fault h
  | restart =>
      refine idle_consistent s₀ events .restart (events.foldl step s₀) _
        ⟨h.fits.ids, h.fits.filed, MainLoop.manageable_nil _⟩ (fun _ ht _ => ht) rfl rfl ?_ h
      intro tradingDate hlast
      cases hlast

theorem run_consistent (h : Consistent s₀ [] s₀) (events : List NightlyEvent) :
    Consistent s₀ events (events.foldl step s₀) := by
  induction events using List.reverseRecOn with
  | nil => exact h
  | append_singleton events e ih =>
      rw [List.foldl_concat]
      exact step_consistent s₀ events e ih

end Runs

/-- After any run of the system, a date has no rows, or those that one look at the trades has
    found: a row for all trades that were closed on that date by then, whose columns are the sums
    over these trades, one for each strategy among them, and no other. The look was taken by a run
    that was begun in the hour of that date, and all that it has counted is still as it was. A date
    that counts as done has rows. -/
theorem nightly_reports (desk : MainLoop) (navHistory : NavTable) (hfits : MainLoop.Fits desk)
    (events : List NightlyEvent) :
    (∀ tradingDate,
      (∀ row ∈ (events.foldl step (start desk navHistory)).db.dailyPnl.rows,
        row.tradingDate ≠ tradingDate) ∨
      ∃ counted,
        Looked (start desk navHistory) events (events.foldl step (start desk navHistory))
          tradingDate counted ∧
        Shows (events.foldl step (start desk navHistory)) tradingDate counted ∧
        ∃ row ∈ (events.foldl step (start desk navHistory)).db.dailyPnl.rows,
          row.key = (tradingDate, globalKey) ∧
          row.stats.totals = ((dayTrades counted tradingDate).map DailyTrade.totals).sum) ∧
    ∀ tradingDate,
      (events.foldl step (start desk navHistory)).lastDailyIstDate = some tradingDate →
      ∃ row ∈ (events.foldl step (start desk navHistory)).db.dailyPnl.rows,
        row.tradingDate = tradingDate := by
  have h := run_consistent _ (start_consistent desk navHistory hfits) events
  refine ⟨fun tradingDate => ?_, h.done⟩
  rcases h.shown tradingDate with hnone | ⟨counted, hlooked, hshows⟩
  · exact Or.inl hnone
  · refine Or.inr ⟨counted, hlooked, hshows, _,
      ((hshows _).mpr ⟨_, List.mem_cons_self, rfl⟩).1, ?_, summarise_totals _ _⟩
    rw [DailyPnl.key, summarise_strategyId]

/-- The puts are closed in the morning, and the report of the night is cut short after its rows are
    written. The next one starts a minute later. -/
def putNight : List NightlyEvent :=
  let check : Int → NightlyEvent := fun minute =>
    .check (combine 739749 (hourMinute 17 minute)) 100000 100000 false
  (MainLoop.putEvents 13).map .desk ++
    [check 10, .go none, .go none, .go (some .session), check 11, .go none, .go none, .go none]

/-- The night has rows for the puts. -/
theorem nightly_reports_puts :
    (putNight.foldl step (start MainLoop.putLoop {})).lastDailyIstDate = some 739749 ∧
      ∃ row ∈ (putNight.foldl step (start MainLoop.putLoop {})).db.dailyPnl.rows,
        row.tradingDate = 739749 :=
  have hdone : (putNight.foldl step (start MainLoop.putLoop {})).lastDailyIstDate = some 739749 :=
    by decide +kernel
  ⟨hdone, (nightly_reports MainLoop.putLoop {} MainLoop.putLoop_fits putNight).2 739749 hdone⟩

end NightlyDesk

end OptionsBot
