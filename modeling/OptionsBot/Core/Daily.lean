import Mathlib.Data.List.Sort
import Mathlib.Data.String.Basic
import OptionsBot.Core.NavState
import OptionsBot.Lib.KeyedSum

/-!
# The Nightly Report

The statistics of a trading day, one row for all trades together and one for each
strategy that has closed any, and the table they are written to.

A day of a report is a date in India, passed by the nightly job. The trades of the
day are those with an exit between two midnights of that date, and the exits are
stored on the UTC clock.

The rows of the table are unique by date and strategy. A run looks the rows of its
date up once, and then changes those it has found and adds the others.

## Main definitions

* `DailyTrade`: What the report reads of a trade.
* `StrategyDailyStats`, `summarise`: The statistics of some trades.
* `dayTrades`, `computePerStrategy`: Those of a day.
* `DailyPnlTable`, `persistDailyPnl`: The table, and a write to it.
* `DailyDb.run`: A run of the job.

## Theorems

* `summarise_totals`: The columns are sums over the trades.
* `mem_dayTrades`: Which trades a day has.
* `computePerStrategy_names`: The rows of a day have distinct names.
* `DailyPnlTable.persistDailyPnl_ok`: Such rows can be written.
-/

namespace OptionsBot

/-- `GLOBAL_KEY`: the name of the row for all trades. -/
def globalKey : String := "__global__"

/-- The columns of a row of `trades` that the report reads. No strategy has the name of the
    global row. -/
structure DailyTrade where
  strategyId : String
  status : TradeStatus
  exitTs : Option DateTime := none
  realisedPnlInr : Option ℚ := none
  feesInr : Option ℚ := none
  deltaPnlInr : Option ℚ := none
  thetaPnlInr : Option ℚ := none
  rMultiple : Option ℚ := none
  slippageBps : Option ℚ := none
  named : strategyId ≠ globalKey := by decide

/-- The statistics of a strategy's trades on a day. -/
structure StrategyDailyStats where
  strategyId : String
  nTrades : Int := 0
  nWins : Int := 0
  nLosses : Int := 0
  grossPnlInr : ℚ := 0
  netPnlInr : ℚ := 0
  feesInr : ℚ := 0
  deltaPnlInr : ℚ := 0
  thetaPnlInr : ℚ := 0
  avgR : Option ℚ := none
  winRate : Option ℚ := none
  avgSlippageBps : Option ℚ := none
  deriving DecidableEq, Repr

/-- `statistics.fmean`, of some values at least. -/
def fmean (values : List ℚ) : Option ℚ :=
  if values.isEmpty then none else some (values.sum / values.length)

/-- The statistics of some trades. A column that is empty counts for nothing. -/
def summarise (strategyId : String) (trades : List DailyTrade) : StrategyDailyStats :=
  if trades.isEmpty then { strategyId := strategyId }
  else
    let realised := trades.map (fun t => orFloat t.realisedPnlInr 0)
    let fees := trades.map (fun t => orFloat t.feesInr 0)
    let wins := realised.filter (fun r => 0 < r)
    let losses := realised.filter (fun r => r < 0)
    let n := trades.length
    { strategyId := strategyId
      nTrades := n
      nWins := wins.length
      nLosses := losses.length
      grossPnlInr := realised.sum
      netPnlInr := realised.sum - fees.sum
      feesInr := fees.sum
      deltaPnlInr := (trades.map (fun t => orFloat t.deltaPnlInr 0)).sum
      thetaPnlInr := (trades.map (fun t => orFloat t.thetaPnlInr 0)).sum
      avgR := fmean (trades.filterMap DailyTrade.rMultiple)
      winRate := if n = 0 then none else some (wins.length / n)
      avgSlippageBps := fmean (trades.filterMap DailyTrade.slippageBps) }

/-- What the columns that add up have for a trade: one trade, won, lost or neither, and its
    amounts. -/
def DailyTrade.totals (t : DailyTrade) : (Int × Int × Int) × ℚ × ℚ × ℚ × ℚ × ℚ :=
  let realised := orFloat t.realisedPnlInr 0
  let fees := orFloat t.feesInr 0
  ((1, if 0 < realised then 1 else 0, if realised < 0 then 1 else 0),
    realised, realised - fees, fees, orFloat t.deltaPnlInr 0, orFloat t.thetaPnlInr 0)

/-- The columns that add up. -/
def StrategyDailyStats.totals (s : StrategyDailyStats) : (Int × Int × Int) × ℚ × ℚ × ℚ × ℚ × ℚ :=
  ((s.nTrades, s.nWins, s.nLosses),
    s.grossPnlInr, s.netPnlInr, s.feesInr, s.deltaPnlInr, s.thetaPnlInr)

/-- One more item, or none, counts one or nothing. -/
theorem length_consIf (p : Prop) [Decidable p] (x : ℚ) (rest : List ℚ) :
    (((if p then x :: rest else rest).length : Nat) : Int) =
      (if p then 1 else 0) + (rest.length : Int) := by
  split_ifs
  · rw [List.length_cons, Nat.cast_add, Nat.cast_one, add_comm]
  · rw [zero_add]

/-- The columns, with or without a trade. -/
theorem summarise_columns (strategyId : String) (trades : List DailyTrade) :
    (summarise strategyId trades).totals =
      (((trades.length : Int),
        (((trades.map (fun t => orFloat t.realisedPnlInr 0)).filter (fun r => 0 < r)).length : Int),
        (((trades.map (fun t => orFloat t.realisedPnlInr 0)).filter (fun r => r < 0)).length : Int)),
        (trades.map (fun t => orFloat t.realisedPnlInr 0)).sum,
        (trades.map (fun t => orFloat t.realisedPnlInr 0)).sum -
          (trades.map (fun t => orFloat t.feesInr 0)).sum,
        (trades.map (fun t => orFloat t.feesInr 0)).sum,
        (trades.map (fun t => orFloat t.deltaPnlInr 0)).sum,
        (trades.map (fun t => orFloat t.thetaPnlInr 0)).sum) := by
  cases trades with
  | nil =>
      simp only [summarise, StrategyDailyStats.totals, List.isEmpty_nil, if_true, List.map_nil,
        List.filter_nil, List.length_nil, List.sum_nil, Nat.cast_zero, sub_self]
  | cons t rest => rfl

/-- The statistics of some trades are sums over them. -/
theorem summarise_totals (strategyId : String) (trades : List DailyTrade) :
    (summarise strategyId trades).totals = (trades.map DailyTrade.totals).sum := by
  induction trades with
  | nil =>
      rw [summarise_columns]
      simp only [List.map_nil, List.filter_nil, List.length_nil, List.sum_nil, Nat.cast_zero,
        sub_self]
      rfl
  | cons t rest ih =>
      rw [summarise_columns] at ih ⊢
      rw [List.map_cons (f := DailyTrade.totals), List.sum_cons, ← ih, DailyTrade.totals]
      simp only [List.map_cons, List.sum_cons, List.length_cons, List.filter_cons,
        Prod.mk_add_mk, Prod.mk.injEq, decide_eq_true_eq]
      refine ⟨⟨?_, ?_, ?_⟩, trivial, ?_, trivial⟩
      · exact_mod_cast Nat.add_comm _ _
      · exact length_consIf _ _ _
      · exact length_consIf _ _ _
      · exact add_sub_add_comm _ _ _ _

/-- The closed trades with an exit from the midnight a date begins with to the next one. -/
def dayTrades (trades : List DailyTrade) (tradingDate : Int) : List DailyTrade :=
  let start := combine tradingDate 0
  let «end» := start.shift microsPerDay
  -- Both midnights are compared with the UTC clock.
  trades.filter (fun t => t.status = .closed ∧ ∃ exitTs ∈ t.exitTs, start ≤ exitTs ∧ exitTs < «end»)

/-- The trades of each strategy that has any, in the order they come. -/
def groupByStrategy (trades : List DailyTrade) : List (String × List DailyTrade) :=
  Table.group DailyTrade.strategyId trades

/-- The statistics of each strategy, by name. -/
def strategyStats (trades : List DailyTrade) : List StrategyDailyStats :=
  ((groupByStrategy trades).insertionSort (fun a b => a.1 ≤ b.1)).map
    (fun group => summarise group.1 group.2)

/-- The statistics of a day: those of all its trades, then those of each strategy. -/
def computePerStrategy (trades : List DailyTrade) (tradingDate : Int) : List StrategyDailyStats :=
  let closed := dayTrades trades tradingDate
  summarise globalKey closed :: strategyStats closed

/-- The trades of a day, by the UTC date of their exit. -/
theorem mem_dayTrades (trades : List DailyTrade) (tradingDate : Int) (t : DailyTrade) :
    t ∈ dayTrades trades tradingDate ↔
      t ∈ trades ∧ t.status = .closed ∧ ∃ exitTs, t.exitTs = some exitTs ∧
        exitTs.date = tradingDate := by
  have hdate : ∀ e : DateTime, (combine tradingDate 0 ≤ e ∧
      e < (combine tradingDate 0).shift microsPerDay) ↔ e.date = tradingDate := by
    intro e
    simp only [DateTime.le_def, DateTime.lt_def, combine, DateTime.shift, DateTime.date,
      microsPerDay]
    omega
  simp only [dayTrades, List.mem_filter, decide_eq_true_eq, Option.mem_def, hdate]

theorem summarise_strategyId (strategyId : String) (trades : List DailyTrade) :
    (summarise strategyId trades).strategyId = strategyId := by
  unfold summarise
  split_ifs
  · rfl
  · rfl

/-- The statistics of each strategy are those of the groups, in some order. -/
theorem strategyStats_perm (trades : List DailyTrade) :
    (strategyStats trades).Perm
      ((groupByStrategy trades).map (fun group => summarise group.1 group.2)) :=
  (List.perm_insertionSort _ _).map _

/-- The statistics of a day are under distinct names. -/
theorem computePerStrategy_names (trades : List DailyTrade) (tradingDate : Int) :
    ((computePerStrategy trades tradingDate).map StrategyDailyStats.strategyId).Nodup := by
  have hnames : ((strategyStats (dayTrades trades tradingDate)).map
      StrategyDailyStats.strategyId).Perm
      ((groupByStrategy (dayTrades trades tradingDate)).map Prod.fst) := by
    refine ((strategyStats_perm _).map _).trans (List.Perm.of_eq ?_)
    rw [List.map_map]
    exact List.map_congr_left (fun group _ => summarise_strategyId group.1 group.2)
  simp only [computePerStrategy, List.map_cons, summarise_strategyId]
  refine List.nodup_cons.mpr ⟨fun hmem => ?_, hnames.nodup_iff.mpr (Table.nodup_group _ _)⟩
  -- A group has a trade, and no trade has the global name.
  rcases List.mem_map.mp (hnames.mem_iff.mp hmem) with ⟨group, hgroup, hname⟩
  rcases (Table.mem_group _ _ group).mp hgroup with ⟨hitems, hsome⟩
  rcases List.exists_mem_of_ne_nil _ hsome with ⟨t, ht⟩
  rw [hitems] at ht
  have hid := (List.mem_filter.mp ht).2
  rw [decide_eq_true_eq, hname] at hid
  exact t.named hid

/-- A row of `daily_pnl`. -/
structure DailyPnl where
  tradingDate : Int
  stats : StrategyDailyStats
  deriving DecidableEq, Repr

/-- What a row is unique by. -/
def DailyPnl.key (row : DailyPnl) : Int × String := (row.tradingDate, row.stats.strategyId)

/-- The table `daily_pnl`, with its unique constraint. -/
structure DailyPnlTable where
  rows : List DailyPnl := []
  unique : (rows.map DailyPnl.key).Nodup := by exact List.nodup_nil

namespace DailyPnlTable

variable (table : DailyPnlTable)

/-- The row of a strategy, among those of a date. -/
def existing (tradingDate : Int) (strategyId : String) : Option DailyPnl :=
  Table.lookup (fun row => row.stats.strategyId) strategyId
    (table.rows.filter (fun row => row.tradingDate = tradingDate))

/-- The rows after a row is changed, if there was one, or added. -/
def put (tradingDate : Int) (rows : List DailyPnl) (stats : StrategyDailyStats) : List DailyPnl :=
  match table.existing tradingDate stats.strategyId with
  | none => rows ++ [{ tradingDate := tradingDate, stats := stats }]
  | some _ =>
    Table.upsert DailyPnl.key (tradingDate, stats.strategyId)
      (fun _ => { tradingDate := tradingDate, stats := stats }) rows

/-- Write the statistics of a day. The unique constraint is looked at last. -/
def persistDailyPnl (tradingDate : Int) (perStrategy : List StrategyDailyStats) :
    Except PyError DailyPnlTable :=
  if perStrategy.isEmpty then .ok table
  else
    -- Which rows exist is looked up once, before the first is written.
    let rows := perStrategy.foldl (table.put tradingDate) table.rows
    if h : (rows.map DailyPnl.key).Nodup then .ok { rows := rows, unique := h }
    else .error (.integrityError "uq_daily_pnl_date_strategy")

/-- The row of a strategy on a date is the one under both. -/
theorem existing_eq (tradingDate : Int) (strategyId : String) :
    table.existing tradingDate strategyId =
      Table.lookup DailyPnl.key (tradingDate, strategyId) table.rows := by
  unfold existing Table.lookup
  rw [List.find?_filter]
  refine congrArg (fun p => List.find? p table.rows) (funext fun row => ?_)
  simp only [DailyPnl.key, Prod.mk.injEq, Bool.decide_and, Bool.decide_eq_true]

/-- As long as no row is written twice, what is looked up at the start is what there is. -/
theorem foldl_put (tradingDate : Int) (perStrategy : List StrategyDailyStats)
    (hdistinct : (perStrategy.map StrategyDailyStats.strategyId).Nodup) (rows : List DailyPnl)
    (hrows : ∀ s ∈ perStrategy, table.existing tradingDate s.strategyId = none →
      (tradingDate, s.strategyId) ∉ rows.map DailyPnl.key) :
    perStrategy.foldl (table.put tradingDate) rows =
      Table.upsertAll DailyPnl.key rows (perStrategy.map (DailyPnl.mk tradingDate)) := by
  induction perStrategy generalizing rows with
  | nil => rfl
  | cons s rest ih =>
      rw [List.map_cons, List.nodup_cons] at hdistinct
      have hput : table.put tradingDate rows s =
          Table.upsert DailyPnl.key (tradingDate, s.strategyId)
            (fun _ => { tradingDate := tradingDate, stats := s }) rows := by
        unfold put
        cases hexisting : table.existing tradingDate s.strategyId with
        | some row => rfl
        | none =>
            -- No row of that name, so one is appended either way.
            refine (Table.upsert_append DailyPnl.key (tradingDate, s.strategyId)
              (fun _ => DailyPnl.mk tradingDate s) rows (fun r hr hkey => ?_)).symm
            have hmem : r.key ∈ rows.map DailyPnl.key := List.mem_map_of_mem hr
            rw [hkey] at hmem
            exact hrows s List.mem_cons_self hexisting hmem
      rw [List.foldl_cons, hput]
      refine ih hdistinct.2 _ (fun s' hs' hnone hmem => ?_)
      rcases (Table.mem_keys_upsert DailyPnl.key (tradingDate, s.strategyId) _ (fun _ => rfl) rows
        _).mp hmem with hsame | hold
      · exact hdistinct.1 (by
          rw [← (Prod.mk.inj hsame).2]
          exact List.mem_map_of_mem hs')
      · exact hrows s' (List.mem_cons_of_mem _ hs') hnone hold

/-- Statistics under distinct names can be written, and are rows afterwards. -/
theorem persistDailyPnl_ok (tradingDate : Int) (perStrategy : List StrategyDailyStats)
    (hdistinct : (perStrategy.map StrategyDailyStats.strategyId).Nodup) :
    ∃ written, table.persistDailyPnl tradingDate perStrategy = .ok written ∧
      written.rows = Table.upsertAll DailyPnl.key table.rows
        (perStrategy.map (DailyPnl.mk tradingDate)) := by
  have hfold := table.foldl_put tradingDate perStrategy hdistinct table.rows (by
    intro s _ hnone hmem
    rcases List.mem_map.mp hmem with ⟨row, hrow, hkey⟩
    rcases Table.lookup_isSome DailyPnl.key table.rows row hrow with ⟨found, hfound⟩
    rw [hkey, ← table.existing_eq, hnone] at hfound
    cases hfound)
  have hunique := Table.nodup_upsertAll DailyPnl.key table.rows
    (perStrategy.map (DailyPnl.mk tradingDate)) table.unique
  unfold persistDailyPnl
  cases perStrategy with
  | nil => exact ⟨table, rfl, rfl⟩
  | cons s rest =>
      rw [← hfold] at hunique
      refine ⟨{ rows := (s :: rest).foldl (table.put tradingDate) table.rows, unique := hunique },
        ?_, hfold⟩
      simp only [List.isEmpty_cons, Bool.false_eq_true, if_false]
      rw [dif_pos hunique]

end DailyPnlTable

structure DailyReport where
  tradingDate : Int
  nav : NavSnapshot
  perStrategy : List StrategyDailyStats

/-- The two tables that a run writes. -/
structure DailyDb where
  dailyPnl : DailyPnlTable := {}
  navHistory : NavTable := {}

/-- A run of the job. The two tables are written in sessions of their own. -/
def DailyDb.run (db : DailyDb) (trades : List DailyTrade) (args : NavSnapshot) :
    DailyDb × Except PyError DailyReport :=
  let perStrategy := computePerStrategy trades args.tradingDate
  match db.dailyPnl.persistDailyPnl args.tradingDate perStrategy with
  | .error e => (db, .error e)
  | .ok dailyPnl =>
    match persistNav db.navHistory args with
    | .error e => ({ db with dailyPnl := dailyPnl }, .error e)
    | .ok (navHistory, nav) =>
      ({ dailyPnl := dailyPnl, navHistory := navHistory },
        .ok { tradingDate := args.tradingDate, nav := nav, perStrategy := perStrategy })

end OptionsBot
