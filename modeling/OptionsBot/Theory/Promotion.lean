import OptionsBot.Core.Promotion
import OptionsBot.Theory.DeskBookkeeping

/-!
# Live Trades Need Evidence

A strategy starts dry. The one way from there to a live trade is through the go-live gate, which
asks for closed dry trades on enough days, for no tripped row in the account history, and for
more. But the gate reads the database bit by bit while the engine writes to it, it writes a file
that it has read long before, and the process that trades live has read the files at its start.

In every order of all this, a trade is live only if its strategy has what the gate asks for in
the database at that moment, and the step of a gate on that strategy has found no tripped row.
What holds it together is that a closed trade keeps the columns the gate counts by, so that what
a check has seen is still there later.

Two things are needed. A YAML text that the gate has written is read back as what it was written
from. And each file holds the strategy it is named after: the gate finds the file by its name and
sets the flag of whatever strategy is in it.

## Main definitions

* `DeskRow.Kept`: What a write to a row keeps.
* `Evidence`: The dry trades that the gate asks for.
* `PromotionDesk.Named`, `PromotionDesk.Unpromoted`: Where a run starts.
* `PromotionDesk.Vets`: A step of a gate that finds no tripped row.
* `GateRun.Sound`, `PromotionDesk.Sound`: What holds of a gate under way, and of everything.

## Theorems

* `step_rows_kept`: What a step of the main loop does to the rows.
* `evidence_kept`: Evidence stays.
* `sound_step`: Every event keeps it all.
* `live_needs_evidence`: What is live has the evidence.
-/

namespace OptionsBot

-- The sample run below computes with rationals.
attribute [local semireducible] Rat.add Rat.sub Rat.mul Rat.inv

/-- A write that keeps the mode and the strategy of a row, and of a closed row the status and the
    time of its exit. -/
structure DeskRow.Kept (row row' : DeskRow) : Prop where
  mode : row'.record.mode = row.record.mode
  strategyId : row'.record.trade.strategyId = row.record.trade.strategyId
  closed : row.isClosed → row'.record.trade.status = row.record.trade.status ∧
    row'.record.trade.exitTs = row.record.trade.exitTs

/-- The days and the closed dry trades that the gate asks for. -/
structure Evidence (id : StrategyId) (rows : List DeskRow) : Prop where
  days : (checkThresholds id).1 ≤ (dryDays id (rows.map DeskRow.record)).card
  trades : (checkThresholds id).2 ≤ (closedDryTrades id (rows.map DeskRow.record)).length

namespace MainLoop

section Rows

theorem kept_refl (row : DeskRow) : row.Kept row := ⟨rfl, rfl, fun _ => ⟨rfl, rfl⟩⟩

theorem kept_refresh (loaded : LoadedRow) (t : DeskTick) (peak : Option ℚ) (row : DeskRow) :
    row.Kept (row.refresh loaded t peak) := by
  have hcolumns : ∀ a b : Trade, a.bare = b.bare →
      a.strategyId = b.strategyId ∧ a.status = b.status ∧ a.exitTs = b.exitTs := by
    intro a b h
    exact ⟨show a.bare.strategyId = b.bare.strategyId from congrArg Trade.strategyId h,
      show a.bare.status = b.bare.status from congrArg Trade.status h,
      show a.bare.exitTs = b.bare.exitTs from congrArg Trade.exitTs h⟩
  rcases hcolumns _ _ (congrArg Prod.fst (refresh_core loaded t peak row)) with
    ⟨hid, hstatus, hexit⟩
  exact ⟨rfl, hid, fun _ => ⟨hstatus, hexit⟩⟩

/-- The rows of a step: those there were, each kept, and the ones of an entry behind them. -/
def RowsKept (rows rows' : List DeskRow) (added : List DeskRow) : Prop :=
  ∃ g : DeskRow → DeskRow, rows' = rows.map g ++ added ∧ ∀ row ∈ rows, row.Kept (g row)

theorem rowsKept_refl (rows : List DeskRow) : RowsKept rows rows [] :=
  ⟨id, by rw [List.map_id, List.append_nil], fun row _ => kept_refl row⟩

theorem rowsKept_modify (id : Nat) (f : DeskRow → DeskRow) (rows : List DeskRow)
    (hf : ∀ row ∈ rows, row.id = id → row.Kept (f row)) :
    RowsKept rows (modifyRow id f rows) [] := by
  refine ⟨fun row => if row.id = id then f row else row, (List.append_nil _).symm, ?_⟩
  intro row hrow
  by_cases hid : row.id = id
  · simp only [if_pos hid]
    exact hf row hrow hid
  · simp only [if_neg hid]
    exact kept_refl row

variable (s : MainLoop)

/-- A directive for a row that is not closed. -/
theorem carryOut_kept (t : DeskTick) (loaded : LoadedRow) (answer : ManageAnswer)
    (acc : CarriedOut) (d : ExitDirective)
    (hopen : ∀ row ∈ acc.rows, row.id = loaded.trade.id → ¬row.isClosed) :
    RowsKept acc.rows (carryOut t loaded answer acc d).rows [] := by
  unfold carryOut
  split
  · exact rowsKept_refl _
  · split
    · split
      · exact rowsKept_refl _
      · split
        · exact rowsKept_refl _
        · split_ifs
          · exact rowsKept_refl _
          · exact rowsKept_refl _
          · -- A close writes the columns of a closed row, but to an open one.
            refine rowsKept_modify _ _ _ fun row hrow hid => ?_
            exact ⟨rfl, rfl, fun hclosed => absurd hclosed (hopen row hrow hid)⟩
    · split_ifs
      · exact rowsKept_refl _
      · exact rowsKept_refl _
      · exact rowsKept_modify _ _ _ fun row _ _ => ⟨rfl, rfl, fun _ => ⟨rfl, rfl⟩⟩
    · exact rowsKept_refl _

/-- The row of a position that is still to be managed is not closed. -/
theorem pending_open (h : Tracked s) (p : LoadedRow × PositionState) (hp : p ∈ s.phase.pending)
    (row : DeskRow) (hrow : row ∈ s.rows) (hid : row.id = p.1.trade.id) : ¬row.isClosed := by
  rcases h.current p hp with ⟨hopen, now, hnow, hcore⟩
  have hsame : row = now := List.inj_on_of_nodup_map h.ids hrow hnow
    (hid.trans (core_id now p.1 hcore).symm)
  intro hclosed
  have hstatus : row.record.trade.status = p.1.trade.status :=
    congrArg (fun r : Trade × List Leg => r.1.status) (hsame ▸ hcore)
  rw [DeskRow.isClosed, hstatus, hopen] at hclosed
  cases hclosed

theorem manage_kept (h : Tracked s) (answer : ManageAnswer) :
    RowsKept s.rows (s.manage answer).rows [] := by
  unfold manage
  split
  · exact rowsKept_refl _
  · next t loaded row position pending peaks hphase =>
    have hmem : (row, position) ∈ s.phase.pending := by
      rw [hphase]
      exact List.mem_cons_self
    simp only
    split
    · exact rowsKept_refl _
    · next directives hstep =>
      rcases t.engine.step_single _ _ _ _ hstep with rfl | ⟨d, rfl⟩
      · exact rowsKept_refl _
      · exact carryOut_kept _ row answer { rows := s.rows, runtime := some _ } d
          fun old hold hid => s.pending_open h _ hmem old hold hid
  · exact rowsKept_refl _

/-- A step of the main loop keeps every row, and adds at most the row of an entry. -/
theorem step_rows_kept (h : Tracked s) (e : DeskEvent) :
    ∃ added, RowsKept s.rows (s.step e).rows added ∧
      ∀ row ∈ added, ∃ a, e = .enter a ∧ row.record.mode = a.mode ∧
        row.record.trade.strategyId = a.intent.strategyId := by
  have hnone : ∀ s' : MainLoop, RowsKept s.rows s'.rows [] → ∃ added, RowsKept s.rows s'.rows added ∧
      ∀ row ∈ added, ∃ a, e = .enter a ∧ row.record.mode = a.mode ∧
        row.record.trade.strategyId = a.intent.strategyId :=
    fun s' hs' => ⟨[], hs', fun row hrow => absurd hrow List.not_mem_nil⟩
  cases e with
  | load t =>
      refine hnone _ ?_
      simp only [step]
      split
      · unfold load
        simp only
        split <;> exact rowsKept_refl _
      · exact rowsKept_refl _
  | manage answer => exact hnone _ (s.manage_kept h answer)
  | refresh chain commits =>
      refine hnone _ ?_
      simp only [step, refresh]
      split
      · exact rowsKept_refl _
      · split_ifs
        · exact rowsKept_refl _
        · exact rowsKept_modify _ _ _ fun row _ _ => kept_refresh _ _ _ row
      · exact rowsKept_refl _
  | enter a =>
      simp only [step, enter]
      split
      · next t _ =>
        refine ⟨_, ⟨id, by rw [List.map_id], fun row _ => kept_refl row⟩, fun row hrow => ?_⟩
        rcases List.mem_map.mp hrow with ⟨opened, hopened, rfl⟩
        refine ⟨a, rfl, ?_, ?_⟩
        · unfold entryRecord
          simp only
          split
          · split <;> rfl
          · rfl
        · rw [entryRecord_trade]
          rcases openTrade_row s.nextId a.intent a.sizing t.market (some t.market.quoteFor)
            (some a.chain) a.outcome with hempty | ⟨one, hone, -, hid⟩
          · rw [hempty] at hopened
            exact absurd hopened List.not_mem_nil
          · rw [hone, List.mem_singleton] at hopened
            rw [hopened]
            exact hid
      · exact ⟨[], rowsKept_refl _, fun row hrow => absurd hrow List.not_mem_nil⟩
  | sleep =>
      refine hnone _ ?_
      simp only [step]
      split <;> exact rowsKept_refl _

end Rows

end MainLoop

/-- A trade that counts. -/
theorem mem_closedDryTrades (id : StrategyId) (trades : List TradeRecord) (t : TradeRecord) :
    t ∈ closedDryTrades id trades ↔
      t ∈ trades ∧ t.trade.strategyId = id ∧ t.trade.status = .closed ∧ t.mode = .dry := by
  rw [closedDryTrades, List.mem_filter, decide_eq_true_iff]

/-- A day that counts. -/
theorem mem_dryDays (id : StrategyId) (trades : List TradeRecord) (day : Int) :
    day ∈ dryDays id trades ↔
      ∃ t ∈ closedDryTrades id trades, t.trade.exitTs.map DateTime.date = some day := by
  rw [dryDays, List.mem_toFinset, List.mem_filterMap]

/-- The trades that count keep the columns they count by. -/
theorem counts_kept (id : StrategyId) (rows rows' added : List DeskRow)
    (hkept : MainLoop.RowsKept rows rows' added) :
    (dryDays id (rows.map DeskRow.record)).card ≤ (dryDays id (rows'.map DeskRow.record)).card ∧
      (closedDryTrades id (rows.map DeskRow.record)).length ≤
        (closedDryTrades id (rows'.map DeskRow.record)).length := by
  rcases hkept with ⟨g, rfl, hg⟩
  have hcounts : ∀ row ∈ rows, (row.record.trade.strategyId = id ∧
      row.record.trade.status = .closed ∧ row.record.mode = .dry) →
      (g row).record.trade.strategyId = id ∧ (g row).record.trade.status = .closed ∧
        (g row).record.mode = .dry := by
    intro row hrow hcount
    have hrow' := hg row hrow
    refine ⟨hrow'.strategyId.trans hcount.1, ?_, hrow'.mode.trans hcount.2.2⟩
    exact (hrow'.closed hcount.2.1).1.trans hcount.2.1
  constructor
  · refine Finset.card_le_card fun day hday => ?_
    rw [mem_dryDays] at hday ⊢
    rcases hday with ⟨t, ht, hexit⟩
    rw [mem_closedDryTrades] at ht
    rcases List.mem_map.mp ht.1 with ⟨row, hrow, rfl⟩
    refine ⟨(g row).record, ?_, ?_⟩
    · rw [mem_closedDryTrades]
      refine ⟨?_, hcounts row hrow ht.2⟩
      exact List.mem_map_of_mem (List.mem_append_left _ (List.mem_map_of_mem hrow))
    · rw [((hg row hrow).closed ht.2.2.1).2]
      exact hexit
  · rw [closedDryTrades, closedDryTrades, ← List.countP_eq_length_filter,
      ← List.countP_eq_length_filter, List.map_append, List.countP_append, List.countP_map,
      List.map_map, List.countP_map]
    refine le_add_right (List.countP_mono_left fun row hrow hcount => ?_)
    rw [Function.comp_apply, decide_eq_true_iff] at hcount ⊢
    exact hcounts row hrow hcount

/-- Evidence stays. -/
theorem evidence_kept (id : StrategyId) (rows rows' added : List DeskRow)
    (hkept : MainLoop.RowsKept rows rows' added) (h : Evidence id rows) : Evidence id rows' :=
  ⟨h.days.trans (counts_kept id rows rows' added hkept).1,
    h.trades.trans (counts_kept id rows rows' added hkept).2⟩

/-- What the gate writes of a file is read back as it was written. -/
def Yaml.ReadsBack (yaml : Yaml) : Prop :=
  ∀ text tree (fields : JsonFields), yaml.load text = .ok tree →
    tree.or (.object []) = .object fields →
      yaml.load (yaml.dump (.object (fields.set "enabled_live" (.flag true)))) =
        .ok (.object (fields.set "enabled_live" (.flag true)))

/-- What a gate that is still under way has to go on: what is left are the last of its steps, the
    fields it has read are of its strategy and can be written, and the checks that it has passed
    hold. -/
structure GateRun.Sound (yaml : Yaml) (C : StrategyId → Prop) (rows : List DeskRow)
    (run : GateRun) : Prop where
  left : run.left <:+ [.integrity, .breaker, .minDays, .minTrades, .entryIv, .write]
  strategy : ∀ name id, classOf name run.payload = .ok id → id = run.strategy
  dumps : yaml.load (yaml.dump run.promoted) = .ok run.promoted
  breaker : .breaker ∉ run.left → run.report.passed = true → C run.strategy
  days : .minDays ∉ run.left → run.report.passed = true →
    (checkThresholds run.strategy).1 ≤ (dryDays run.strategy (rows.map DeskRow.record)).card
  trades : .minTrades ∉ run.left → run.report.passed = true →
    (checkThresholds run.strategy).2 ≤
      (closedDryTrades run.strategy (rows.map DeskRow.record)).length

/-- What a stage has found, if all checks have passed after it. -/
structure GateRun.Found (run : GateRun) (w : GateWorld) (stage : GateStage) : Prop where
  before : run.report.passed = true
  breaker : stage = .breaker → ∀ r ∈ w.navHistory.rows, r.circuitBreakerTripped = false
  days : stage = .minDays →
    (checkThresholds run.strategy).1 ≤ (dryDays run.strategy w.trades).card
  trades : stage = .minTrades →
    (checkThresholds run.strategy).2 ≤ (closedDryTrades run.strategy w.trades).length

namespace PromotionDesk

/-- Each file of a strategy is named after the strategy that it holds. -/
def Named (yaml : Yaml) (dir : ConfigDir) : Prop :=
  ∀ files, dir.strategies = some files → ∀ file ∈ files, file.IsYaml → ∀ fields id,
    readYaml yaml (some file.text) = .ok fields → classOf file.name fields = .ok id →
      file.name = id.fileName

/-- Every file that the loader takes for a strategy with the flag is of one of some strategies. -/
def FlagsIn (yaml : Yaml) (models : ConfigModels) (P : StrategyId → Prop) (dir : ConfigDir) : Prop :=
  ∀ files, dir.strategies = some files → ∀ file ∈ files, file.IsYaml → ∀ cfg,
    loadStrategyConfig yaml models file = .ok cfg → cfg.base.enabledLive = true → P cfg.id

/-- Where a run starts: no process and no gate is running, each strategy file is named after the id
    in it, no file has the flag, no trade is live, the loop is between two ticks, and no two rows
    have one id. -/
structure Unpromoted (yaml : Yaml) (models : ConfigModels) (s : PromotionDesk) : Prop where
  app : s.app = none
  gates : s.gates = []
  named : Named yaml s.dir
  flags : FlagsIn yaml models (fun _ => False) s.dir
  dry : ∀ row ∈ s.loop.rows, row.record.mode = .dry
  phase : s.loop.phase = .idle
  ids : (s.loop.rows.map DeskRow.id).Nodup

/-- The event is the step of a gate on that strategy that looks for tripped rows, and there are
    none. -/
def Vets (s : PromotionDesk) (e : PromotionEvent) (id : StrategyId) : Prop :=
  ∃ i integrity run, e = .check i integrity ∧ s.gates[i]? = some run ∧ run.strategy = id ∧
    run.left.head? = some .breaker ∧ ∀ r ∈ s.navHistory.rows, r.circuitBreakerTripped = false

/-- What a strategy that is live has to show. -/
def Shown (C : StrategyId → Prop) (rows : List DeskRow) (id : StrategyId) : Prop :=
  Evidence id rows ∧ C id

/-- What is live has shown what it has to, in the files, in the process and among the trades. -/
structure Sound (yaml : Yaml) (models : ConfigModels) (C : StrategyId → Prop) (s : PromotionDesk) :
    Prop where
  tracked : s.loop.Tracked
  named : Named yaml s.dir
  flags : FlagsIn yaml models (Shown C s.loop.rows) s.dir
  running : ∀ app, s.app = some app → ∀ cfg ∈ app.strategies, cfg.base.enabledLive = true →
    Shown C s.loop.rows cfg.id
  rows : ∀ row ∈ s.loop.rows, row.record.mode = .live →
    Shown C s.loop.rows row.record.trade.strategyId
  gates : ∀ run ∈ s.gates, run.left ≠ [] → run.Sound yaml C s.loop.rows

end PromotionDesk

section Gate

variable (yaml : Yaml) (parseFloat : String → Option ℚ) (parseInt : String → Option Int)

theorem add_passed (report : GateReport) (name : String) (ok : Bool) (detail : GateFinding)
    (h : (report.add name ok detail).passed = true) : report.passed = true ∧ ok = true := by
  unfold GateReport.passed GateReport.add at h
  rw [List.all_append, Bool.and_eq_true] at h
  refine ⟨h.1, ?_⟩
  simpa only [List.all_cons, List.all_nil, Bool.and_true] using h.2

/-- What a stage has found, and that only the last one writes. -/
theorem act_found (run : GateRun) (w : GateWorld) (stage : GateStage) (report : GateReport)
    (dir : ConfigDir) (h : run.act yaml parseFloat parseInt w stage = .ok (report, dir)) :
    (report.passed = true → run.Found w stage) ∧
      (dir = w.dir ∨ stage = .write ∧ run.report.passed = true ∧
        dir = w.dir.write run.strategy.fileName (yaml.dump run.promoted)) := by
  -- A check that does not bear on the evidence.
  have hother : stage ≠ .breaker → stage ≠ .minDays → stage ≠ .minTrades →
      run.report.passed = true → run.Found w stage := by
    intro hb hd ht hpassed
    exact ⟨hpassed, fun h => absurd h hb, fun h => absurd h hd, fun h => absurd h ht⟩
  cases stage with
  | integrity =>
      cases h
      refine ⟨fun hpassed => ?_, Or.inl rfl⟩
      refine hother (by decide) (by decide) (by decide) ?_
      unfold GoLiveGate.checkDbIntegrity at hpassed
      split at hpassed <;> exact (add_passed _ _ _ _ hpassed).1
  | breaker =>
      cases h
      refine ⟨fun hpassed => ?_, Or.inl rfl⟩
      rcases add_passed _ _ _ _ hpassed with ⟨hbefore, hok⟩
      refine ⟨hbefore, fun _ r hr => ?_, fun h => (nomatch h), fun h => (nomatch h)⟩
      unfold GoLiveGate.checkCircuitBreaker at hok
      split at hok
      · next hnone =>
        have hclean := List.find?_eq_none.mp hnone r hr
        rwa [Bool.not_eq_true] at hclean
      · cases hok
  | minDays =>
      cases h
      refine ⟨fun hpassed => ?_, Or.inl rfl⟩
      rcases add_passed _ _ _ _ hpassed with ⟨hbefore, hok⟩
      exact ⟨hbefore, fun h => (nomatch h), fun _ => of_decide_eq_true hok, fun h => (nomatch h)⟩
  | minTrades =>
      cases h
      refine ⟨fun hpassed => ?_, Or.inl rfl⟩
      rcases add_passed _ _ _ _ hpassed with ⟨hbefore, hok⟩
      exact ⟨hbefore, fun h => (nomatch h), fun h => (nomatch h), fun _ => of_decide_eq_true hok⟩
  | entryIv =>
      rcases hcheck : GoLiveGate.checkEntryIvCoverage yaml parseFloat parseInt run.strategy w
        run.report with e | report'
      · rw [GateRun.act, hcheck] at h
        cases h
      · rw [GateRun.act, hcheck] at h
        cases h
        refine ⟨fun hpassed => ?_, Or.inl rfl⟩
        refine hother (by decide) (by decide) (by decide) ?_
        unfold GoLiveGate.checkEntryIvCoverage at hcheck
        split at hcheck
        · cases hcheck
        · cases hcheck
          exact (add_passed _ _ _ _ hpassed).1
        · simp only at hcheck
          split_ifs at hcheck
          all_goals
            cases hcheck
            exact (add_passed _ _ _ _ hpassed).1
  | write =>
      unfold GateRun.act at h
      simp only at h
      split_ifs at h with hwrites
      · cases h
        rw [Bool.and_eq_true] at hwrites
        exact ⟨fun _ => hother (by decide) (by decide) (by decide) hwrites.1,
          Or.inr ⟨rfl, hwrites.1, rfl⟩⟩
      · cases h
        exact ⟨hother (by decide) (by decide) (by decide), Or.inl rfl⟩

theorem fileName_injective (a b : StrategyId) (h : a.fileName = b.fileName) : a = b := by
  cases a <;> cases b <;> first | rfl | exact absurd h (by decide)

theorem fileName_isYaml (id : StrategyId) (text : String) :
    ConfigFile.IsYaml { name := id.fileName, text := text } := by
  change ".yaml".toList <:+ id.fileName.toList
  cases id <;> decide

theorem ofName_value (name : String) (id : StrategyId) (h : StrategyId.ofName name = some id) :
    id.value = name := by
  have hfound := List.find?_some h
  exact of_decide_eq_true hfound

/-- The model of a class makes a strategy of that class. -/
theorem validate_id (models : ConfigModels) (id : StrategyId) (raw : JsonFields)
    (cfg : StrategyConfig) (h : models.validate id raw = .ok cfg) : cfg.id = id := by
  unfold ConfigModels.validate at h
  cases id with
  | directional =>
      simp only at h
      cases hraw : models.directional raw with
      | error e =>
          rw [hraw] at h
          cases h
      | ok c =>
          rw [hraw] at h
          cases h
          rfl
  | creditVertical =>
      simp only at h
      cases hraw : models.creditVertical raw with
      | error e =>
          rw [hraw] at h
          cases h
      | ok c =>
          rw [hraw] at h
          cases h
          rfl
  | longStraddle =>
      simp only at h
      cases hraw : models.longStraddle raw with
      | error e =>
          rw [hraw] at h
          cases h
      | ok c =>
          rw [hraw] at h
          cases h
          rfl

/-- A strategy that is loaded is of the class that the field `id` of its file names. -/
theorem loadStrategyConfig_class (models : ConfigModels) (file : ConfigFile) (cfg : StrategyConfig)
    (h : loadStrategyConfig yaml models file = .ok cfg) :
    ∃ raw, readYaml yaml (some file.text) = .ok raw ∧ classOf file.name raw = .ok cfg.id ∧
      models.validate cfg.id raw = .ok cfg := by
  unfold loadStrategyConfig at h
  split at h
  · cases h
  · next raw hraw =>
    split at h
    · cases h
    · next id hclass =>
      cases hvalid : models.validate id raw with
      | error e =>
          rw [hvalid] at h
          cases h
      | ok c =>
          rw [hvalid] at h
          cases h
          have hid := validate_id models id raw cfg hvalid
          rw [hid]
          exact ⟨raw, hraw, hclass, hvalid⟩

/-- The class does not depend on the flag. -/
theorem classOf_set (name name' : String) (raw : JsonFields) (value : JsonTree) (id : StrategyId) :
    classOf name (raw.set "enabled_live" value) = .ok id ↔ classOf name' raw = .ok id := by
  unfold classOf
  rw [JsonFields.get_set_of_ne raw "enabled_live" "id" value (by decide)]
  cases JsonFields.get raw "id" with
  | text v =>
      simp only
      cases StrategyId.ofName v <;> simp only [reduceCtorEq, Except.ok.injEq]
  | _ => exact Iff.intro (fun h => nomatch h) (fun h => nomatch h)

/-- A file has the class of the strategy it names. -/
theorem classOf_named (file name : String) (raw : JsonFields) (id : StrategyId)
    (hname : JsonFields.get raw "id" = .text name) (hid : StrategyId.ofName name = some id) :
    classOf file raw = .ok id := by
  unfold classOf
  rw [hname]
  simp only [hid]

/-- Only an object has fields. -/
theorem object_of_fields (tree : JsonTree) (fields : JsonFields) (h : tree.fields = .ok fields) :
    tree = .object fields := by
  cases tree with
  | object fields' =>
      cases h
      rfl
  | _ => cases h

/-- A gate that begins has read the fields of its strategy. -/
theorem begin_sound (C : StrategyId → Prop) (rows : List DeskRow) (dir : ConfigDir)
    (hnamed : PromotionDesk.Named yaml dir)
    (hdump : yaml.ReadsBack)
    (strategyId : String) (dryRun : Bool) (run : GateRun)
    (h : GoLiveGate.begin yaml dir strategyId dryRun = .ok (.inr run)) :
    run.Sound yaml C rows := by
  unfold GoLiveGate.begin at h
  simp only at h
  split at h
  · cases h
  · next id _ =>
    split at h
    · cases h
    · next file hfile =>
      split at h
      · cases h
      · next tree htree =>
        split at h
        · cases h
        · next payload hpayload =>
          cases h
          have hobject := object_of_fields _ _ hpayload
          -- No check has been made yet.
          have hall : ∀ stage : GateStage,
              stage ∈ [GateStage.integrity, .breaker, .minDays, .minTrades, .entryIv, .write] := by
            intro stage
            cases stage <;> decide
          refine ⟨List.suffix_refl _, fun name id' hclass => ?_, hdump _ _ _ htree hobject,
            fun h => absurd (hall _) h, fun h => absurd (hall _) h, fun h => absurd (hall _) h⟩
          -- The file is the one of the strategy's name, and holds what it is named after.
          rcases Option.bind_eq_some_iff.mp hfile with ⟨files, hfiles, hlookup⟩
          rcases Table.mem_of_lookup ConfigFile.name _ files file hlookup with ⟨hmem, hname⟩
          have hyaml : file.IsYaml := by
            have hfile' := fileName_isYaml id file.text
            rwa [← hname] at hfile'
          have hread : readYaml yaml (some file.text) = .ok payload := by
            by_cases htruthy : tree.truthy = true
            · rw [JsonTree.or, if_pos htruthy] at hobject
              unfold readYaml
              simp only [htree, hobject]
            · rw [JsonTree.or, if_neg htruthy] at hobject
              cases hobject
              cases hclass
          refine fileName_injective _ _ ?_
          rw [← hname]
          refine (hnamed files hfiles file hmem hyaml payload id' hread ?_).symm
          have hsame := (classOf_set file.name name payload .null id').mpr hclass
          exact (classOf_set file.name file.name payload .null id').mp hsame

/-- The next step of a gate keeps it, if its look for tripped rows leads to what it should. -/
theorem step_sound (C : StrategyId → Prop) (rows : List DeskRow) (run : GateRun) (w : GateWorld)
    (hw : w.trades = rows.map DeskRow.record) (h : run.Sound yaml C rows)
    (hC : run.left.head? = some .breaker →
      (∀ r ∈ w.navHistory.rows, r.circuitBreakerTripped = false) → C run.strategy)
    (hleft : (run.step yaml parseFloat parseInt w).1.left ≠ []) :
    (run.step yaml parseFloat parseInt w).1.Sound yaml C rows := by
  unfold GateRun.step at hleft ⊢
  rcases hlist : run.left with _ | ⟨stage, rest⟩
  · rw [hlist] at hleft
    simp only at hleft
    rw [hlist] at hleft
    exact absurd rfl hleft
  · rw [hlist] at hleft
    simp only at hleft ⊢
    rcases hact : run.act yaml parseFloat parseInt w stage with e | ⟨report, dir⟩
    · rw [hact] at hleft
      exact absurd rfl hleft
    · simp only
      have hfound := (act_found yaml parseFloat parseInt run w stage report dir hact).1
      have hhead : run.left.head? = some stage := by rw [hlist]; rfl
      -- A stage that is no longer left is this one, or was not left before.
      have hnotin : ∀ other : GateStage, other ∉ rest → stage = other ∨ other ∉ run.left := by
        intro other hrest
        by_cases hsame : stage = other
        · exact Or.inl hsame
        · refine Or.inr fun hmem => ?_
          rw [hlist] at hmem
          rcases List.mem_cons.mp hmem with heq | hin
          · exact hsame heq.symm
          · exact hrest hin
      refine ⟨?_, h.strategy, h.dumps, fun hnot hpassed => ?_, fun hnot hpassed => ?_,
        fun hnot hpassed => ?_⟩
      · have hsuffix := h.left
        rw [hlist] at hsuffix
        exact (List.suffix_cons stage rest).trans hsuffix
      · rcases hnotin .breaker hnot with rfl | hbefore
        · exact hC hhead ((hfound hpassed).breaker rfl)
        · exact h.breaker hbefore (hfound hpassed).before
      · rcases hnotin .minDays hnot with rfl | hbefore
        · rw [← hw]
          exact (hfound hpassed).days rfl
        · exact h.days hbefore (hfound hpassed).before
      · rcases hnotin .minTrades hnot with rfl | hbefore
        · rw [← hw]
          exact (hfound hpassed).trades rfl
        · exact h.trades hbefore (hfound hpassed).before

/-- A gate that writes has only that left, so its strategy has shown what it has to. -/
theorem write_shown (C : StrategyId → Prop) (rows : List DeskRow) (run : GateRun)
    (h : run.Sound yaml C rows) (hwrite : run.left.head? = some .write)
    (hpassed : run.report.passed = true) : PromotionDesk.Shown C rows run.strategy := by
  have hlast : ∀ left ∈ [GateStage.integrity, .breaker, .minDays, .minTrades, .entryIv,
      .write].tails, left.head? = some .write → left = [.write] := by decide
  have hleft := hlast run.left ((List.mem_tails _ _).mpr h.left) hwrite
  exact ⟨⟨h.days (by rw [hleft]; decide) hpassed, h.trades (by rw [hleft]; decide) hpassed⟩,
    h.breaker (by rw [hleft]; decide) hpassed⟩

/-- What a gate writes is read back as a file of its strategy. -/
theorem written_class (C : StrategyId → Prop) (rows : List DeskRow)
    (run : GateRun) (h : run.Sound yaml C rows) (name : String) (raw : JsonFields)
    (id : StrategyId) (hread : readYaml yaml (some (yaml.dump run.promoted)) = .ok raw)
    (hclass : classOf name raw = .ok id) : id = run.strategy := by
  unfold readYaml at hread
  simp only [h.dumps] at hread
  cases hread
  exact h.strategy name id ((classOf_set name name _ _ _).mp hclass)

end Gate

namespace PromotionDesk

variable (yaml : Yaml) (models : ConfigModels) (parseFloat : String → Option ℚ)
  (parseInt : String → Option Int) (C : StrategyId → Prop)

theorem shown_kept (rows rows' added : List DeskRow) (hkept : MainLoop.RowsKept rows rows' added)
    (id : StrategyId) (h : Shown C rows id) : Shown C rows' id :=
  ⟨evidence_kept id rows rows' added hkept h.1, h.2⟩

/-- The checks that a gate has passed still hold when the rows are kept. -/
theorem gate_kept (rows rows' added : List DeskRow) (hkept : MainLoop.RowsKept rows rows' added)
    (run : GateRun) (h : run.Sound yaml C rows) : run.Sound yaml C rows' := by
  have hmono := counts_kept run.strategy rows rows' added hkept
  exact ⟨h.left, h.strategy, h.dumps, h.breaker,
    fun hnot hpassed => (h.days hnot hpassed).trans hmono.1,
    fun hnot hpassed => (h.trades hnot hpassed).trans hmono.2⟩

/-- What changes neither files nor gates, and at most keeps the rows and adds some that have shown
    what they have to. -/
theorem sound_of_kept (s s' : PromotionDesk) (added : List DeskRow) (h : Sound yaml models C s)
    (hkept : MainLoop.RowsKept s.loop.rows s'.loop.rows added) (htracked : s'.loop.Tracked)
    (hdir : s'.dir = s.dir) (happ : s'.app = s.app ∨ s'.app = none) (hgates : s'.gates = s.gates)
    (hadded : ∀ row ∈ added, row.record.mode = .live →
      Shown C s.loop.rows row.record.trade.strategyId) : Sound yaml models C s' := by
  have hshown := fun id => shown_kept C s.loop.rows s'.loop.rows added hkept id
  refine ⟨htracked, hdir ▸ h.named, ?_, fun app happ' cfg hcfg hlive => ?_, ?_, ?_⟩
  · rw [hdir]
    intro files hfiles file hfile hyaml cfg hload hlive
    exact hshown _ (h.flags files hfiles file hfile hyaml cfg hload hlive)
  · rcases happ with hsame | hnone
    · exact hshown _ (h.running app (hsame.symm.trans happ') cfg hcfg hlive)
    · rw [hnone] at happ'
      cases happ'
  · intro row hrow hlive
    rcases hkept with ⟨g, hrows, hg⟩
    rw [hrows] at hrow
    rcases List.mem_append.mp hrow with hold | hnew
    · rcases List.mem_map.mp hold with ⟨old, hmem, rfl⟩
      rw [(hg old hmem).strategyId]
      exact hshown _ (h.rows old hmem ((hg old hmem).mode.symm.trans hlive))
    · exact hshown _ (hadded row hnew hlive)
  · rw [hgates]
    intro run hrun hleft
    exact gate_kept yaml C _ _ added hkept run (h.gates run hrun hleft)

variable (s : PromotionDesk)

/-- A step of the main loop that is no entry. -/
theorem desk_sound (h : Sound yaml models C s) (e : DeskEvent) (hentry : ∀ a, e ≠ .enter a) :
    Sound yaml models C { s with loop := s.loop.step e } := by
  rcases s.loop.step_rows_kept h.tracked e with ⟨added, hkept, hadded⟩
  refine sound_of_kept yaml models C s _ added h hkept (s.loop.tracked_step h.tracked e) rfl
    (Or.inl rfl) rfl fun row hrow _ => ?_
  rcases hadded row hrow with ⟨a, ha, _⟩
  exact absurd ha (hentry a)

/-- An entry. A live one has come through a gate that asks for the flag. -/
theorem enter_sound (h : Sound yaml models C s) (nav : NavTracker) (input : GateInput)
    (a : EntryInput) : Sound yaml models C (s.enter nav input a) := by
  have hquiet : ∀ loop : MainLoop, loop.rows = s.loop.rows → loop.Tracked →
      Sound yaml models C { s with loop := loop } := by
    intro loop hrows htracked
    refine sound_of_kept yaml models C s _ [] h ?_ htracked rfl (Or.inl rfl) rfl
      fun row hrow => absurd hrow List.not_mem_nil
    change MainLoop.RowsKept s.loop.rows loop.rows []
    rw [hrows]
    exact MainLoop.rowsKept_refl _
  unfold enter
  split
  · exact h
  · next app happ =>
    rcases hgate : (app.riskManager nav).gate a.intent input with e | sizing
    · exact hquiet { s.loop with phase := .ended } rfl
        (MainLoop.tracked_nil _ h.tracked.ids rfl)
    · simp only
      split_ifs with happroved
      · let opened : EntryInput := { a with sizing := sizing, mode := app.mode }
        rcases s.loop.step_rows_kept h.tracked (.enter opened) with ⟨added, hkept, hadded⟩
        refine sound_of_kept yaml models C s _ added h hkept
          (s.loop.tracked_step h.tracked (.enter opened)) rfl (Or.inl rfl) rfl
          fun row hrow hlive => ?_
        rcases hadded row hrow with ⟨a', ha', hmode, hid⟩
        cases ha'
        have hislive : app.isLive = true := by
          by_contra hdry
          have hmode' : app.mode = .dry := if_neg hdry
          rw [hmode] at hlive
          exact absurd (hmode'.symm.trans hlive) (by decide)
        rcases (app.riskManager nav).gate_live_enabled a.intent input sizing hgate happroved
          hislive with ⟨cfg, hcfg, hflag⟩
        have hfound := List.find?_some hcfg
        rw [hid]
        have hshown := h.running app happ cfg (List.mem_of_find?_eq_some hcfg) hflag
        rw [of_decide_eq_true hfound] at hshown
        exact hshown
      · exact h

/-- A start reads the files, so what it has the flag of is of a strategy with the flag there. -/
theorem start_sound (h : Sound yaml models C s) (settings : Settings) :
    Sound yaml models C (s.start yaml models settings) := by
  have hstopped : Sound yaml models C { s with loop := { rows := s.loop.rows }, app := none } :=
    sound_of_kept yaml models C s _ [] h (MainLoop.rowsKept_refl _)
      (MainLoop.tracked_nil _ h.tracked.ids rfl) rfl (Or.inr rfl) rfl
      fun row hrow => absurd hrow List.not_mem_nil
  unfold start
  rcases hload : loadAll yaml models s.dir settings with e | app
  · exact hstopped
  · refine ⟨hstopped.tracked, h.named, h.flags, fun app' happ' cfg hcfg hlive => ?_, h.rows,
      h.gates⟩
    cases happ'
    have hstrategies := (loadAll_strategies yaml models s.dir settings app hload).1
    rcases (loadStrategyConfigs_ok_iff yaml models s.dir app.strategies).mp hstrategies with
      ⟨files, hfiles, hmapM, _⟩
    rcases mem_mapM_ok _ _ _ hmapM cfg hcfg with ⟨file, hfile, hcfgs⟩
    rcases List.mem_filter.mp ((List.mem_insertionSort _).mp hfile) with ⟨hmem, hyaml⟩
    exact h.flags files hfiles file hmem (of_decide_eq_true hyaml) cfg hcfgs hlive

/-- The next step of a gate. -/
theorem check_sound (h : Sound yaml models C s) (i : Nat)
    (integrity : Except String (Option String))
    (hC : ∀ id, s.Vets (.check i integrity) id → C id) :
    Sound yaml models C (s.check yaml parseFloat parseInt i integrity) := by
  unfold check
  rcases hget : s.gates[i]? with _ | run
  · exact h
  · simp only
    have hrun : run ∈ s.gates := List.mem_of_getElem? hget
    let w : GateWorld :=
      { dir := s.dir, trades := s.loop.rows.map DeskRow.record, navHistory := s.navHistory,
        integrity := integrity }
    -- The files are as they were, or the gate has written the one of its strategy.
    have hdir : (run.step yaml parseFloat parseInt w).2 = s.dir ∨
        run.left.head? = some .write ∧ run.report.passed = true ∧
          (run.step yaml parseFloat parseInt w).2 =
            s.dir.write run.strategy.fileName (yaml.dump run.promoted) := by
      unfold GateRun.step
      rcases hlist : run.left with _ | ⟨stage, rest⟩
      · exact Or.inl rfl
      · simp only
        rcases hact : run.act yaml parseFloat parseInt w stage with e | ⟨report, dir⟩
        · exact Or.inl rfl
        · rcases (act_found yaml parseFloat parseInt run w stage report dir hact).2 with
            hsame | ⟨rfl, hpassed, hwritten⟩
          · exact Or.inl hsame
          · exact Or.inr ⟨rfl, hpassed, hwritten⟩
    have hgates : ∀ run' ∈ s.gates.set i (run.step yaml parseFloat parseInt w).1,
        run'.left ≠ [] → run'.Sound yaml C s.loop.rows := by
      intro run' hrun' hleft
      rcases List.mem_or_eq_of_mem_set hrun' with hold | rfl
      · exact h.gates run' hold hleft
      · have hrunning : run.left ≠ [] := by
          intro hnil
          unfold GateRun.step at hleft
          rw [hnil] at hleft
          exact hleft hnil
        refine step_sound yaml parseFloat parseInt C s.loop.rows run w rfl
          (h.gates run hrun hrunning) (fun hhead hclean => ?_) hleft
        exact hC _ ⟨i, integrity, run, rfl, hget, rfl, hhead, hclean⟩
    rcases hdir with hsame | ⟨hwrite, hpassed, hwritten⟩
    · refine ⟨h.tracked, ?_, ?_, h.running, h.rows, hgates⟩
      · change Named yaml (run.step yaml parseFloat parseInt w).2
        rw [hsame]
        exact h.named
      · change FlagsIn yaml models (Shown C s.loop.rows) (run.step yaml parseFloat parseInt w).2
        rw [hsame]
        exact h.flags
    · have hsound := h.gates run hrun (fun hnil => by rw [hnil] at hwrite; cases hwrite)
      have hshown := write_shown yaml C s.loop.rows run hsound hwrite hpassed
      -- A file after the write is an old one, or the one written.
      have hfiles : ∀ files, (s.dir.write run.strategy.fileName
          (yaml.dump run.promoted)).strategies = some files → ∀ file ∈ files,
          (∃ old, s.dir.strategies = some old ∧ file ∈ old) ∨
            file = { name := run.strategy.fileName, text := yaml.dump run.promoted } := by
        intro files hfiles file hfile
        rcases Option.map_eq_some_iff.mp hfiles with ⟨old, hold, rfl⟩
        rcases Table.mem_upsert ConfigFile.name _ _ old file hfile with hmem | hnew | ⟨_, _, _, hnew⟩
        · exact Or.inl ⟨old, hold, hmem⟩
        · exact Or.inr hnew
        · exact Or.inr hnew
      refine ⟨h.tracked, ?_, ?_, h.running, h.rows, hgates⟩
      · change Named yaml (run.step yaml parseFloat parseInt w).2
        rw [hwritten]
        intro files hnew file hfile hyaml fields id hread hclass
        rcases hfiles files hnew file hfile with ⟨old, hold, hmem⟩ | rfl
        · exact h.named old hold file hmem hyaml fields id hread hclass
        · rw [written_class yaml C s.loop.rows run hsound _ fields id hread hclass]
      · change FlagsIn yaml models (Shown C s.loop.rows) (run.step yaml parseFloat parseInt w).2
        rw [hwritten]
        intro files hnew file hfile hyaml cfg hload hlive
        rcases hfiles files hnew file hfile with ⟨old, hold, hmem⟩ | rfl
        · exact h.flags old hold file hmem hyaml cfg hload hlive
        · rcases loadStrategyConfig_class yaml models _ cfg hload with ⟨raw, hread, hclass, _⟩
          rw [written_class yaml C s.loop.rows run hsound _ raw cfg.id hread hclass]
          exact hshown

/-- Every event keeps it, if the look of a gate for tripped rows leads to what it should. -/
theorem sound_step (hdump : yaml.ReadsBack) (h : Sound yaml models C s) (e : PromotionEvent)
    (hC : ∀ id, s.Vets e id → C id) :
    Sound yaml models C (s.step yaml models parseFloat parseInt e) := by
  have hsame : ∀ s' : PromotionDesk, s'.loop = s.loop → s'.dir = s.dir → s'.app = s.app →
      s'.gates = s.gates → Sound yaml models C s' := by
    intro s' hloop hdir happ hgates
    refine sound_of_kept yaml models C s s' [] h ?_ (hloop ▸ h.tracked) hdir (Or.inl happ) hgates
      fun row hrow => absurd hrow List.not_mem_nil
    rw [hloop]
    exact MainLoop.rowsKept_refl _
  cases e with
  | start settings => exact s.start_sound yaml models C h settings
  | stop =>
      exact sound_of_kept yaml models C s _ [] h (MainLoop.rowsKept_refl _)
        (MainLoop.tracked_nil _ h.tracked.ids rfl) rfl (Or.inr rfl) rfl
        fun row hrow => absurd hrow List.not_mem_nil
  | desk e =>
      simp only [step]
      split
      · exact h
      · exact h
      · next e' hentry => exact s.desk_sound yaml models C h _ hentry
  | enter nav input a => exact s.enter_sound yaml models C h nav input a
  | navHistory table => exact hsame _ rfl rfl rfl rfl
  | goLive strategyId dryRun =>
      simp only [step, goLive]
      split
      · next run hbegin =>
        refine ⟨h.tracked, h.named, h.flags, h.running, h.rows, fun run' hrun' hleft => ?_⟩
        rcases List.mem_append.mp hrun' with hold | hnew
        · exact h.gates run' hold hleft
        · rw [List.mem_singleton.mp hnew]
          exact begin_sound yaml C s.loop.rows s.dir h.named hdump strategyId dryRun run hbegin
      · exact h
  | check i integrity => exact s.check_sound yaml models parseFloat parseInt C h i integrity hC

/-- A run keeps it, if every look of a gate for tripped rows leads to what it should. -/
theorem sound_along (hdump : yaml.ReadsBack) (events : List PromotionEvent)
    (hC : ∀ before e after, events = before ++ e :: after → ∀ id,
      (before.foldl (step yaml models parseFloat parseInt) s).Vets e id → C id)
    (h : Sound yaml models C s) :
    Sound yaml models C (events.foldl (step yaml models parseFloat parseInt) s) := by
  induction events generalizing s with
  | nil => exact h
  | cons e rest ih =>
      refine ih (s.step yaml models parseFloat parseInt e)
        (fun before e' after hsplit id => ?_)
        (s.sound_step yaml models parseFloat parseInt C hdump h e (hC [] e rest rfl))
      exact hC (e :: before) e' after (by rw [hsplit, List.cons_append]) id

/-- In every order of engine steps, starts, gate steps and writes to the account history: a trade
    is live, or a process has the flag of a strategy, only if the database has the days and the
    closed dry trades that the gate asks of the strategy, and the step of a gate on it has found
    no tripped row. -/
theorem live_needs_evidence (hdump : yaml.ReadsBack) (h : Unpromoted yaml models s)
    (events : List PromotionEvent) :
    let t := events.foldl (step yaml models parseFloat parseInt) s
    let vetted := fun id => ∃ before e after, events = before ++ e :: after ∧
      (before.foldl (step yaml models parseFloat parseInt) s).Vets e id
    (∀ row ∈ t.loop.rows, row.record.mode = .live →
      Evidence row.record.trade.strategyId t.loop.rows ∧ vetted row.record.trade.strategyId) ∧
    ∀ app, t.app = some app → ∀ cfg ∈ app.strategies, cfg.base.enabledLive = true →
      Evidence cfg.id t.loop.rows ∧ vetted cfg.id := by
  intro t vetted
  have hstart : Sound yaml models vetted s := by
    refine ⟨MainLoop.tracked_nil _ h.ids (by rw [h.phase]; rfl), h.named, ?_, ?_, ?_, ?_⟩
    · intro files hfiles file hfile hyaml cfg hload hlive
      exact (h.flags files hfiles file hfile hyaml cfg hload hlive).elim
    · intro app happ
      rw [h.app] at happ
      cases happ
    · intro row hrow hlive
      rw [h.dry row hrow] at hlive
      cases hlive
    · intro run hrun
      rw [h.gates] at hrun
      exact absurd hrun List.not_mem_nil
  have hend := s.sound_along yaml models parseFloat parseInt vetted hdump events
    (fun before e after hsplit id hvets => ⟨before, e, after, hsplit, hvets⟩) hstart
  exact ⟨hend.rows, hend.running⟩

end PromotionDesk

section Sample

/-- A straddle strategy that is the only one, with what its file has to have. -/
def straddleText : String :=
  "id: long_straddle\nrisk_weight: 1.0\nrisk_per_trade_pct: 0.01\nmax_lots_cap: 10\n"

def straddleRaw : JsonFields :=
  [("id", .text "long_straddle"), ("risk_weight", .real 1), ("risk_per_trade_pct", .real (1 / 100)),
    ("max_lots_cap", .integer 10)]

/-- The file before and after its promotion, and an empty mapping before and after it. -/
def straddleYaml : Yaml :=
  { load := fun text =>
      if text = straddleText then .ok (.object straddleRaw)
      else if text = straddleText ++ "enabled_live: true\n" then
        .ok (.object (straddleRaw ++ [("enabled_live", .flag true)]))
      else if text = "{}\n" then .ok (.object [])
      else if text = "enabled_live: true\n" then .ok (.object [("enabled_live", .flag true)])
      else .error "not a file of the sample"
    dump := fun
      | .object [_] => "enabled_live: true\n"
      | _ => straddleText ++ "enabled_live: true\n" }

/-- The fields that are no section of the file. -/
def straddleFields : List String :=
  ["id", "enabled_live", "risk_weight", "risk_per_trade_pct", "max_lots_cap"]

/-- The model of the straddle, for files without sections. The weight, the share and the cap have to
    be there and within their bounds, the flag may be missing, and no other field is allowed. -/
def straddleModel (raw : JsonFields) : Except String LongStraddleConfig :=
  match raw.getOr "enabled_live" (.flag false), raw.get "risk_weight",
      raw.get "risk_per_trade_pct", raw.get "max_lots_cap" with
  | .flag live, .real weight, .real pct, .integer cap =>
    if h : (0 < weight ∧ weight ≤ 1) ∧ (0 < pct ∧ pct < 1) ∧ 1 ≤ cap then
      if raw.all (fun field => decide (field.1 ∈ straddleFields)) then
        -- The shipped sections are the ones of a file without sections.
        .ok { enabledLive := live, riskWeight := weight, riskPerTradePct := pct, maxLotsCap := cap
              weight_bounds := h.1, perTrade_bounds := h.2.1, maxLotsCap_pos := h.2.2
              premiumCap_pos := optPos_none
              setup := shippedLongStraddleConfig.setup, expiry := shippedLongStraddleExpiry
              desk := shippedLongStraddleConfig.desk, exits := shippedLongStraddleExits }
      else .error "Extra inputs are not permitted"
    else .error "Input should be within its bounds"
  | _, _, _, _ => .error "Field required"

def straddleModels : ConfigModels :=
  { globalConfig := fun raw =>
      if raw.isEmpty then .ok defaultGlobalConfig else .error "not in the sample"
    directional := fun _ => .error "not in the sample"
    creditVertical := fun _ => .error "not in the sample"
    longStraddle := straddleModel }

/-- Fourteen closed dry straddles, each exited on a day of its own. -/
def straddleDesk : PromotionDesk :=
  { loop :=
      { rows := (List.range 14).map (fun n =>
          { record :=
              { trade := { id := n, strategyId := .longStraddle, underlying := .btc, expiry := none
                           entryTs := combine n 0, exitTs := some (combine n 0)
                           status := .closed, lots := 1 }
                mode := .dry
                entryIv := some (1 / 2) }
            legs := [] }) }
    navHistory := {}
    dir := { globalYaml := some "{}\n"
             strategies := some [{ name := "long_straddle.yaml", text := straddleText }] } }

/-- The gate is run to its end, and the engine is started in live mode. -/
def straddleEvents : List PromotionEvent :=
  .goLive "long_straddle" false :: List.replicate 6 (.check 0 (.ok (some "ok"))) ++
    [.start { isLive := true }]

def straddleEnd : PromotionDesk :=
  straddleEvents.foldl
    (PromotionDesk.step straddleYaml straddleModels (fun _ => none) (fun _ => none)) straddleDesk

theorem straddleYaml_readsBack : straddleYaml.ReadsBack := by
  intro text tree fields hload hobject
  change (if text = straddleText then _ else if text = _ then _ else if text = _ then _
    else if text = _ then _ else _) = _ at hload
  split_ifs at hload <;> cases hload <;> cases hobject <;> rfl

theorem straddleDesk_unpromoted :
    straddleDesk.Unpromoted straddleYaml straddleModels := by
  refine ⟨rfl, rfl, ?_, ?_, ?_, rfl, by decide⟩
  · intro files hfiles file hfile _ fields id hread hclass
    cases hfiles
    rw [List.mem_singleton] at hfile
    subst hfile
    cases hread
    rw [classOf_named _ "long_straddle" _ .longStraddle rfl (by decide)] at hclass
    cases hclass
    decide
  · intro files hfiles file hfile _ cfg hload hlive
    cases hfiles
    rw [List.mem_singleton] at hfile
    subst hfile
    have hdry : (loadStrategyConfig straddleYaml straddleModels
        { name := "long_straddle.yaml", text := straddleText }).toOption.all
          (fun c => !c.base.enabledLive) = true := by decide +kernel
    rw [hload] at hdry
    change (!cfg.base.enabledLive) = true at hdry
    rw [hlive] at hdry
    cases hdry
  · intro row hrow
    rcases List.mem_map.mp hrow with ⟨n, _, rfl⟩
    rfl

/-- After the gate and the start, the process has the flag, and the database the trades. -/
theorem live_needs_evidence_straddle :
    (∃ app, straddleEnd.app = some app ∧ ∃ cfg ∈ app.strategies, cfg.base.enabledLive = true) ∧
      Evidence .longStraddle straddleEnd.loop.rows := by
  have hflag : straddleEnd.app.any (fun app => app.strategies.any (fun cfg =>
      cfg.base.enabledLive && decide (cfg.id = .longStraddle))) = true := by decide +kernel
  have hshown : ∀ app, straddleEnd.app = some app → ∀ cfg ∈ app.strategies,
      cfg.base.enabledLive = true → Evidence cfg.id straddleEnd.loop.rows ∧ _ :=
    (PromotionDesk.live_needs_evidence straddleYaml straddleModels (fun _ => none) (fun _ => none)
      straddleDesk straddleYaml_readsBack straddleDesk_unpromoted straddleEvents).2
  rcases (Option.any_eq_true _ _).mp hflag with ⟨app, happ, hstrategies⟩
  rcases List.any_eq_true.mp hstrategies with ⟨cfg, hcfg, hboth⟩
  rw [Bool.and_eq_true, decide_eq_true_iff] at hboth
  have hevidence := (hshown app happ cfg hcfg hboth.1).1
  rw [hboth.2] at hevidence
  exact ⟨⟨app, happ, cfg, hcfg, hboth.1⟩, hevidence⟩

end Sample

end OptionsBot
