import Mathlib.Algebra.Group.Prod
import OptionsBot.Core.Daily

/-!
# The Rows of a Day

The global row of a day is computed from all its trades, the rows of the
strategies from a part each. The parts are those of a grouping by name, so each
trade is in one of them, and the columns that are sums over trades add up.

A run may be repeated, with another account value each time: the job is tried
again when writing that value fails. The rows of the day are written before it,
under names that are distinct. So the first run adds them or changes what was
there, and every further one finds them as they are.

## Main definitions

* `DailyDb.runOn`: A run for a date.
* `DailyRowsRight`: What the rows of a day are, after any number of runs.

## Theorems

* `strategyStats_totals`: The rows of the strategies add up.
* `summarise_consistent`: What holds in every row.
* `runOn_rows`: What a run writes.
* `dailyRows_right`: The rows are right.
-/

namespace OptionsBot

/-- A run for a date, whatever else it is called with. -/
def DailyDb.runOn (trades : List DailyTrade) (tradingDate : Int) (db : DailyDb)
    (args : NavSnapshot) : DailyDb :=
  (db.run trades { args with tradingDate := tradingDate }).1

/-- The rows of a day: the first one is the sum of the others, each is consistent, and one run or
    many leave the same table, with one row for each and the rows of other days. -/
structure DailyRowsRight (trades : List DailyTrade) (tradingDate : Int) (db : DailyDb)
    (first : NavSnapshot) (again : List NavSnapshot) : Prop where
  sum : ∃ global rest, computePerStrategy trades tradingDate = global :: rest ∧
    global.strategyId = globalKey ∧ (∀ s ∈ rest, s.strategyId ≠ globalKey) ∧
    global.totals = (rest.map StrategyDailyStats.totals).sum
  consistent : ∀ s ∈ computePerStrategy trades tradingDate,
    s.nWins + s.nLosses ≤ s.nTrades ∧ s.netPnlInr = s.grossPnlInr - s.feesInr
  rerun : ((first :: again).foldl (DailyDb.runOn trades tradingDate) db).dailyPnl =
    (DailyDb.runOn trades tradingDate db first).dailyPnl
  single : ∀ s ∈ computePerStrategy trades tradingDate,
    (DailyDb.runOn trades tradingDate db first).dailyPnl.rows.filter
      (fun row => row.key = (tradingDate, s.strategyId)) =
        [{ tradingDate := tradingDate, stats := s }]
  others : ∀ row ∈ db.dailyPnl.rows,
    (∀ s ∈ computePerStrategy trades tradingDate, row.key ≠ (tradingDate, s.strategyId)) →
    row ∈ (DailyDb.runOn trades tradingDate db first).dailyPnl.rows
  fresh : (∀ row ∈ db.dailyPnl.rows, row.tradingDate ≠ tradingDate) →
    (DailyDb.runOn trades tradingDate db first).dailyPnl.rows = db.dailyPnl.rows ++
      (computePerStrategy trades tradingDate).map (DailyPnl.mk tradingDate)

section Stats

variable (trades : List DailyTrade)

/-- The rows of the strategies add up to the row of all trades. -/
theorem strategyStats_totals (strategyId : String) :
    (summarise strategyId trades).totals =
      ((strategyStats trades).map StrategyDailyStats.totals).sum := by
  have hgroup : ∀ group ∈ groupByStrategy trades, (summarise group.1 group.2).totals =
      KeyedSum.sumAt DailyTrade.strategyId DailyTrade.totals group.1 trades := by
    intro group hmem
    rw [summarise_totals, ((Table.mem_group _ _ group).mp hmem).1]
    rfl
  calc (summarise strategyId trades).totals
      = (trades.map DailyTrade.totals).sum := summarise_totals strategyId trades
    _ = (((groupByStrategy trades).map Prod.fst).map (fun name =>
          KeyedSum.sumAt DailyTrade.strategyId DailyTrade.totals name trades)).sum :=
        (KeyedSum.sum_sumAt DailyTrade.strategyId DailyTrade.totals _
          (Table.nodup_group _ trades) trades (Table.key_mem_group _ trades)).symm
    _ = (((groupByStrategy trades).map (fun group => summarise group.1 group.2)).map
          StrategyDailyStats.totals).sum := by
        rw [List.map_map, List.map_map]
        exact congrArg List.sum (List.map_congr_left (fun group hmem => (hgroup group hmem).symm))
    _ = ((strategyStats trades).map StrategyDailyStats.totals).sum :=
        ((strategyStats_perm trades).map _).sum_eq.symm

/-- No profit is above and below zero. -/
theorem length_wins_losses (realised : List ℚ) :
    (realised.filter (fun r => 0 < r)).length + (realised.filter (fun r => r < 0)).length ≤
      realised.length := by
  induction realised with
  | nil => exact le_refl 0
  | cons r rest ih =>
      simp only [List.filter_cons, decide_eq_true_eq, List.length_cons]
      by_cases hwin : 0 < r
      · rw [if_pos hwin, if_neg (not_lt.mpr hwin.le), List.length_cons]
        omega
      · rw [if_neg hwin]
        split_ifs
        · rw [List.length_cons]
          omega
        · omega

/-- What holds in a row, whatever its trades. -/
theorem summarise_consistent (strategyId : String) :
    (summarise strategyId trades).nWins + (summarise strategyId trades).nLosses ≤
      (summarise strategyId trades).nTrades ∧
    (summarise strategyId trades).netPnlInr =
      (summarise strategyId trades).grossPnlInr - (summarise strategyId trades).feesInr := by
  have hcolumns := summarise_columns strategyId trades
  simp only [StrategyDailyStats.totals, Prod.mk.injEq] at hcolumns
  rcases hcolumns with ⟨⟨hn, hwins, hlosses⟩, hgross, hnet, hfees, _, _⟩
  constructor
  · rw [hn, hwins, hlosses]
    have hle := length_wins_losses (trades.map (fun t => orFloat t.realisedPnlInr 0))
    rw [List.length_map] at hle
    exact_mod_cast hle
  · rw [hnet, hgross, hfees]

end Stats

section Runs

variable (trades : List DailyTrade) (tradingDate : Int) (db : DailyDb) (args : NavSnapshot)

/-- What a run writes does not depend on the account value it is called with. -/
theorem runOn_rows : (DailyDb.runOn trades tradingDate db args).dailyPnl.rows =
    Table.upsertAll DailyPnl.key db.dailyPnl.rows
      ((computePerStrategy trades tradingDate).map (DailyPnl.mk tradingDate)) := by
  rcases db.dailyPnl.persistDailyPnl_ok tradingDate (computePerStrategy trades tradingDate)
    (computePerStrategy_names trades tradingDate) with ⟨written, hwritten, hrows⟩
  unfold DailyDb.runOn DailyDb.run
  simp only [hwritten]
  -- The account value is written after the rows, and may be refused.
  split
  · exact hrows
  · exact hrows

/-- The rows that a run writes are under distinct keys. -/
theorem written_keys : (((computePerStrategy trades tradingDate).map
    (DailyPnl.mk tradingDate)).map DailyPnl.key).Nodup := by
  have hnames := (computePerStrategy_names trades tradingDate).map
    (f := Prod.mk tradingDate) (Prod.mk_right_injective tradingDate)
  rw [List.map_map] at hnames ⊢
  exact hnames

/-- Two tables with the same rows are one. -/
theorem dailyPnl_ext {a b : DailyPnlTable} (h : a.rows = b.rows) : a = b := by
  cases a
  cases b
  cases h
  rfl

theorem runOn_again (args' : NavSnapshot) :
    (DailyDb.runOn trades tradingDate (DailyDb.runOn trades tradingDate db args) args').dailyPnl =
      (DailyDb.runOn trades tradingDate db args).dailyPnl := by
  refine dailyPnl_ext ?_
  rw [runOn_rows trades tradingDate (DailyDb.runOn trades tradingDate db args) args',
    runOn_rows trades tradingDate db args]
  exact Table.upsertAll_again DailyPnl.key _ _ db.dailyPnl.unique (written_keys trades tradingDate)

/-- Nor do any number of further runs change the table. -/
theorem runs_again (again : List NavSnapshot) :
    ((args :: again).foldl (DailyDb.runOn trades tradingDate) db).dailyPnl =
      (DailyDb.runOn trades tradingDate db args).dailyPnl := by
  induction again generalizing db args with
  | nil => rfl
  | cons args' rest ih =>
      exact (ih (DailyDb.runOn trades tradingDate db args) args').trans
        (runOn_again trades tradingDate db args args')

/-- Whatever the trades and their strategies, and whatever the table had, the rows of a day are
    right after any number of runs. -/
theorem dailyRows_right (again : List NavSnapshot) :
    DailyRowsRight trades tradingDate db args again := by
  have hnames := computePerStrategy_names trades tradingDate
  have hwritten : ∀ s ∈ computePerStrategy trades tradingDate,
      { tradingDate := tradingDate, stats := s } ∈
        (DailyDb.runOn trades tradingDate db args).dailyPnl.rows := by
    intro s hs
    rw [runOn_rows]
    exact Table.upsertAll_written DailyPnl.key _ _ (written_keys trades tradingDate) _
      (List.mem_map_of_mem hs)
  refine ⟨⟨_, _, rfl, summarise_strategyId _ _, ?_, strategyStats_totals _ _⟩, ?_,
    runs_again trades tradingDate db args again, ?_, ?_, ?_⟩
  · intro s hs hglobal
    simp only [computePerStrategy, List.map_cons, summarise_strategyId] at hnames
    rw [← hglobal] at hnames
    exact (List.nodup_cons.mp hnames).1 (List.mem_map_of_mem hs)
  · intro s hs
    -- Each row is the statistics of some trades.
    rcases List.mem_cons.mp hs with rfl | hrest
    · exact summarise_consistent _ _
    · rcases List.mem_map.mp hrest with ⟨group, _, rfl⟩
      exact summarise_consistent _ _
  · intro s hs
    exact Table.filter_key DailyPnl.key _
      (DailyDb.runOn trades tradingDate db args).dailyPnl.unique _ (hwritten s hs)
  · -- A row under another key is not touched.
    intro row hrow hother
    rw [runOn_rows]
    refine Table.mem_upsertAll_of_ne DailyPnl.key _ _ row hrow (fun new hnew => ?_)
    rcases List.mem_map.mp hnew with ⟨s, hs, rfl⟩
    exact hother s hs
  · -- With no row of the date every key is new.
    intro hdate
    rw [runOn_rows]
    refine Table.upsertAll_append DailyPnl.key _ _ (written_keys trades tradingDate)
      (fun row hrow new hnew hsame => ?_)
    rcases List.mem_map.mp hnew with ⟨s, _, rfl⟩
    exact hdate row hrow (Prod.mk.inj hsame).1

end Runs

end OptionsBot
