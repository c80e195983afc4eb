import Mathlib.Data.List.ReduceOption
import OptionsBot.Theory.NamelessTrades

/-!
# Simulated Trades in a Live Engine

A database keeps the trades of both modes, and the checks before a strategy goes live
count the dry ones in it. So an engine in live mode starts on rows that were opened by the
simulator. It should decide as if they were not there.

It does when none of them is open and the closed ones add up to nothing that is not there
otherwise. The first keeps them out of what is loaded, counted, quoted, exited and added
up at a tick. The second is what they do to the account value at every start. An open one
is exited like any other, by the executor there is, which sends real orders.

## Main definitions

* `ofMode`: The rows of a mode.
* `Shut`: No simulated trade is open.
* `dryPnl`: What the simulated trades have realised.
* `Alike`: Two engines that differ in simulated trades only.

## Theorems

* `exits_ofMode`: The exits of a tick pass the simulated rows over.
* `tick_alike`, `step_alike`: What alike engines do.
-/

namespace OptionsBot

/-- The rows that were opened in a mode. -/
def ofMode (mode : BotMode) (rows : List ModeRow) : List ModeRow :=
  rows.filter (fun row => row.mode = mode)

theorem ofMode_cons (mode : BotMode) (row : ModeRow) (rest : List ModeRow) :
    ofMode mode (row :: rest) =
      if row.mode = mode then row :: ofMode mode rest else ofMode mode rest := by
  unfold ofMode
  rw [List.filter_cons]
  simp only [decide_eq_true_eq]

/-- No simulated trade is open. -/
def Shut (rows : List ModeRow) : Prop := ∀ row ∈ ofMode .dry rows, row.isOpen = false

instance (rows : List ModeRow) : Decidable (Shut rows) :=
  inferInstanceAs (Decidable (∀ row ∈ ofMode .dry rows, row.isOpen = false))

/-- What the simulated trades have realised. -/
def dryPnl (rows : List ModeRow) : ℚ :=
  sumRealisedPnlInr ((ofMode .dry rows).map (fun row => row.track.trade))

section Exits

variable (t : ModeTick) (market : MarketState)

/-- A row that is not open is passed over. -/
theorem manageRow_shut (row : ModeRow) (pass : ExitPass) (h : row.isOpen = false) :
    t.manageRow market row pass = ((row, none), pass) := by
  have hclosed : ¬ row.isOpen = true := by
    rw [h]
    exact Bool.false_ne_true
  unfold ModeTick.manageRow
  rw [if_neg hclosed, ite_self]

theorem manageRow_mode (row : ModeRow) (pass : ExitPass) :
    (t.manageRow market row pass).1.1.mode = row.mode := by
  unfold ModeTick.manageRow
  split_ifs
  · rfl
  · split
    · rfl
    · split
      · rfl
      · rfl
  · rfl

theorem refreshRow_mode (managed : ModeRow × Option ℚ) :
    (ModeTick.refreshRow market managed).mode = managed.1.mode := by
  rcases managed with ⟨row, _ | peak⟩
  · rfl
  · rfl

/-- Managing the rows is managing those of live mode. -/
theorem manageRows_ofMode (rows : List ModeRow) (h : Shut rows) (pass : ExitPass) :
    (t.manageRows market rows pass).2 = (t.manageRows market (ofMode .live rows) pass).2 ∧
      (t.manageRows market rows pass).1.filter (fun managed => managed.1.mode = .live) =
        (t.manageRows market (ofMode .live rows) pass).1 ∧
      (t.manageRows market rows pass).1.filter (fun managed => managed.1.mode = .dry) =
        (ofMode .dry rows).map (fun row => (row, none)) := by
  induction rows generalizing pass with
  | nil => exact ⟨rfl, rfl, rfl⟩
  | cons row rest ih =>
      have hrest : Shut rest := by
        intro r hr
        refine h r (List.mem_filter.mpr ⟨List.mem_cons_of_mem row (List.mem_filter.mp hr).1, ?_⟩)
        exact (List.mem_filter.mp hr).2
      have hmode := manageRow_mode t market row pass
      simp only [ModeTick.manageRows, ofMode, List.filter_cons, hmode]
      cases hrow : row.mode with
      | live =>
          rcases ih hrest (t.manageRow market row pass).2 with ⟨hpass, hlive, hdry⟩
          simp only [decide_true, if_true, reduceCtorEq, decide_false, Bool.false_eq_true, if_false,
            ModeTick.manageRows]
          refine ⟨hpass, ?_, hdry⟩
          rw [hlive]
          rfl
      | dry =>
          -- A simulated row is not open, so the pass goes on as it came.
          have hshut : row.isOpen = false :=
            h row (List.mem_filter.mpr ⟨List.mem_cons_self, decide_eq_true hrow⟩)
          rw [manageRow_shut t market row pass hshut]
          rcases ih hrest pass with ⟨hpass, hlive, hdry⟩
          simp only [decide_true, if_true, reduceCtorEq, decide_false, Bool.false_eq_true, if_false,
            List.map_cons]
          exact ⟨hpass, hlive, congrArg (List.cons _) hdry⟩

/-- The open rows are those of live mode. -/
theorem filter_isOpen (rows : List ModeRow) (h : Shut rows) :
    rows.filter ModeRow.isOpen = (ofMode .live rows).filter ModeRow.isOpen := by
  unfold ofMode
  rw [List.filter_filter]
  refine List.filter_congr (fun row hrow => ?_)
  cases hmode : row.mode with
  | live => rw [decide_eq_true rfl, Bool.and_true]
  | dry => rw [h row (List.mem_filter.mpr ⟨hrow, decide_eq_true hmode⟩), Bool.false_and]

/-- The exits of a tick are those of the rows of live mode, and leave the others alone. -/
theorem exits_ofMode (rows : List ModeRow) (h : Shut rows) (nav : NavTracker) :
    (t.exits market rows nav).2 = (t.exits market (ofMode .live rows) nav).2 ∧
      ofMode .live (t.exits market rows nav).1 = (t.exits market (ofMode .live rows) nav).1 ∧
      ofMode .dry (t.exits market rows nav).1 = ofMode .dry rows := by
  rcases manageRows_ofMode t market rows h { nav := nav } with ⟨hpass, hlive, hdry⟩
  unfold ModeTick.exits
  rw [← filter_isOpen rows h]
  split_ifs with hviewed
  · simp only [← hpass]
    -- A raise skips the refresh of the rows, which does not change their modes either.
    split_ifs
    · refine ⟨rfl, ?_, ?_⟩
      · rw [← hlive, ofMode, List.filter_map]
        rfl
      · rw [ofMode, List.filter_map]
        have hmap := congrArg (List.map Prod.fst) hdry
        rw [List.map_map] at hmap
        exact hmap.trans (List.map_id _)
    · have hrefresh : ∀ mode, (fun row : ModeRow => decide (row.mode = mode)) ∘
          ModeTick.refreshRow market = fun managed => decide (managed.1.mode = mode) := by
        intro mode
        funext managed
        rw [Function.comp_apply, refreshRow_mode]
      refine ⟨rfl, ?_, ?_⟩
      · rw [← hlive, ofMode, List.filter_map, hrefresh]
      · rw [ofMode, List.filter_map, hrefresh, hdry, List.map_map]
        exact List.map_id _
  · exact ⟨rfl, rfl, rfl⟩

end Exits

/-- The rows of live mode, their ids wiped. -/
def liveView (rows : List ModeRow) : List ModeRow := (ofMode .live rows).map ModeRow.withoutId

/-- Two engines in live mode that differ in simulated trades only. None of these is open, and they
    have realised the same. -/
structure Alike (s s' : ModeEngine) : Prop where
  account : s.account = s'.account
  isLive : s.account.app.isLive = true
  rows : liveView s.rows = liveView s'.rows
  shut : Shut s.rows
  shut' : Shut s'.rows
  pnl : dryPnl s.rows = dryPnl s'.rows

section View

variable (rows rows' : List ModeRow)

/-- The pairs of open rows, up to their ids. -/
theorem openPairs_liveView (h : Shut rows) :
    ((rows.filter ModeRow.isOpen).map ModeRow.pair).map rowWithoutId =
      ((liveView rows).filter ModeRow.isOpen).map ModeRow.pair := by
  rw [filter_isOpen rows h, liveView, List.filter_map, List.map_map, List.map_map]
  rfl

/-- The counts are those of the rows of live mode. -/
theorem openCount_liveView (h : Shut rows) (p : StrategyId → Bool) :
    openCount p (rows.map ModeRow.pair) = openCount p ((liveView rows).map ModeRow.pair) := by
  -- Only open rows count.
  have hopen : ∀ rows : List ModeRow, openCount p (rows.map ModeRow.pair) =
      openCount p ((rows.filter ModeRow.isOpen).map ModeRow.pair) := by
    intro rows
    unfold openCount
    rw [List.countP_map, List.countP_map, List.countP_filter]
    refine List.countP_congr (fun row _ => ?_)
    simp only [Function.comp_apply, ModeRow.pair, ModeRow.isOpen, Bool.and_eq_true]
    tauto
  rw [hopen, hopen (liveView rows), ← openPairs_liveView rows h, openCount_withoutId]

theorem marketOf_liveView (t : ModeTick) (h : Shut rows) :
    t.marketOf rows = t.marketOf (liveView rows) := by
  rw [liveView, marketOf_withoutId]
  unfold ModeTick.marketOf
  rw [filter_isOpen rows h]

/-- The exits of a tick, on the view. -/
theorem exits_liveView (t : ModeTick) (market : MarketState) (h : Shut rows) (nav : NavTracker) :
    liveView (t.exits market rows nav).1 = (t.exits market (liveView rows) nav).1 ∧
      (t.exits market rows nav).2 = (t.exits market (liveView rows) nav).2 := by
  rcases exits_ofMode t market rows h nav with ⟨hpass, hlive, _⟩
  unfold liveView
  rw [exits_withoutId, hlive, hpass]
  exact ⟨rfl, rfl⟩

end View

section Alike

/-- The greeks of the book do not depend on ids. -/
theorem portfolioBook_congr (s : EngineState) (t : EntryTick)
    (openRows openRows' : List (Trade × List Leg))
    (h : openRows.map rowWithoutId = openRows'.map rowWithoutId) :
    s.portfolioBook t openRows = s.portfolioBook t openRows' := by
  unfold EngineState.portfolioBook
  rw [← fromOpenTrades_withoutId openRows, h, fromOpenTrades_withoutId]

/-- Rows that are appended in live mode. -/
theorem ofMode_opened (rows : List ModeRow) (opened : List (Trade × List Leg)) :
    ofMode .live (rows ++ opened.map (ModeRow.ofPair .live)) =
        ofMode .live rows ++ opened.map (ModeRow.ofPair .live) ∧
      ofMode .dry (rows ++ opened.map (ModeRow.ofPair .live)) = ofMode .dry rows := by
  have hmode : ∀ row ∈ opened.map (ModeRow.ofPair .live), row.mode = .live := by
    intro row hrow
    rcases List.mem_map.mp hrow with ⟨pair, _, rfl⟩
    rfl
  unfold ofMode
  rw [List.filter_append, List.filter_append]
  refine ⟨congrArg _ (List.filter_eq_self.mpr (fun row hrow => ?_)), ?_⟩
  · exact decide_eq_true (hmode row hrow)
  · refine (congrArg _ (List.filter_eq_nil_iff.mpr (fun row hrow => ?_))).trans
      (List.append_nil _)
    rw [hmode row hrow]
    exact Bool.false_ne_true

theorem liveView_opened (rows : List ModeRow) (opened : List (Trade × List Leg)) :
    liveView (rows ++ opened.map (ModeRow.ofPair .live)) =
      liveView rows ++ (opened.map rowWithoutId).map (ModeRow.ofPair .live) := by
  rw [liveView, (ofMode_opened rows opened).1, List.map_append, List.map_map, List.map_map]
  rfl

theorem Alike.openCount {s s' : ModeEngine} (h : Alike s s') (p : StrategyId → Bool) :
    openCount p (s.rows.map ModeRow.pair) = openCount p (s'.rows.map ModeRow.pair) := by
  rw [openCount_liveView s.rows h.shut, h.rows, ← openCount_liveView s'.rows h.shut']

/-- What two loops over the same intents leave that have asked the gate the same and opened the
    same rows up to their ids. -/
theorem entered_alike (s s' : ModeEngine) (h : Alike s s') (attempts : List EntryAttempt)
    (after after' : EngineState × List GateCall) (opened opened' : List (Trade × List Leg))
    (hopened : after.1.trades = s.rows.map ModeRow.pair ++ opened)
    (hopened' : after'.1.trades = s'.rows.map ModeRow.pair ++ opened')
    (hsame : opened.map rowWithoutId = opened'.map rowWithoutId)
    (hinputs : after.2.map GateCall.input = after'.2.map GateCall.input) :
    (s.entered attempts after).2 = (s'.entered attempts after').2 ∧
      Alike (s.entered attempts after).1 (s'.entered attempts after').1 := by
  have hmode : s.account.app.mode = .live := if_pos h.isLive
  -- The rows of a tick are those past the ones it began with.
  have hdrop : after.1.trades.drop s.rows.length = opened := by
    rw [hopened]
    exact List.drop_left' (List.length_map _)
  have hdrop' : after'.1.trades.drop s'.rows.length = opened' := by
    rw [hopened']
    exact List.drop_left' (List.length_map _)
  unfold ModeEngine.entered
  simp only [hdrop, hdrop', hinputs, ← h.account, hmode]
  refine ⟨trivial, rfl, h.isLive, ?_, ?_, ?_, ?_⟩
  · rw [liveView_opened, liveView_opened, h.rows, hsame]
  · rw [Shut, (ofMode_opened s.rows opened).2]
    exact h.shut
  · rw [Shut, (ofMode_opened s'.rows opened').2]
    exact h.shut'
  · rw [dryPnl, dryPnl, (ofMode_opened s.rows opened).2, (ofMode_opened s'.rows opened').2]
    exact h.pnl

/-- The entries of a tick. -/
theorem enter_alike (s s' : ModeEngine) (h : Alike s s') (t : ModeTick) (market : MarketState)
    (openRows openRows' : List (Trade × List Leg)) (sent : List Sent)
    (hopen : openRows.map rowWithoutId = openRows'.map rowWithoutId) :
    (s.enter t market openRows sent).2 = (s'.enter t market openRows' sent).2 ∧
      Alike (s.enter t market openRows sent).1 (s'.enter t market openRows' sent).1 := by
  have hengine : s'.engine = { s.engine with trades := s'.rows.map ModeRow.pair } := by
    rw [ModeEngine.engine, ModeEngine.engine, h.account]
  unfold ModeEngine.enter
  rw [hengine]
  dsimp only
  rcases gateIntents_withoutId
    { market := market, bookChain := t.bookChain, attempts := t.attempts market sent } openRows
    openRows' (s.engine.portfolioBook
      { market := market, bookChain := t.bookChain, attempts := t.attempts market sent } openRows)
    (t.attempts market sent) s.engine (s'.rows.map ModeRow.pair) h.openCount with
    ⟨opened, opened', hopened, hopened', hsame, hinputs⟩
  rw [portfolioBook_congr s.engine _ openRows openRows' hopen] at hopened hinputs hopened' ⊢
  exact entered_alike s s' h (t.attempts market sent) _ _ opened opened' hopened hopened' hsame
    hinputs

/-- What alike engines show is the same. -/
theorem Alike.shown {s s' : ModeEngine} (h : Alike s s')
    (gates : List (Except PyError SizingResult)) (sent : List Sent) :
    s.shown gates sent = s'.shown gates sent := by
  unfold ModeEngine.shown
  rw [h.account, accountingSnapshot_congr _ _ h.openCount]

/-- A tick. -/
theorem tick_alike (s s' : ModeEngine) (h : Alike s s') (t : ModeTick) :
    (s.tick t).2 = (s'.tick t).2 ∧ Alike (s.tick t).1 (s'.tick t).1 := by
  have hmarket : t.marketOf s.rows = t.marketOf s'.rows := by
    rw [marketOf_liveView s.rows t h.shut, h.rows, ← marketOf_liveView s'.rows t h.shut']
  have hopen : ((s.rows.filter ModeRow.isOpen).map ModeRow.pair).map rowWithoutId =
      ((s'.rows.filter ModeRow.isOpen).map ModeRow.pair).map rowWithoutId := by
    rw [openPairs_liveView s.rows h.shut, h.rows, ← openPairs_liveView s'.rows h.shut']
  unfold ModeEngine.tick
  simp only [← hmarket, ← h.account]
  generalize t.marketOf s.rows = market
  rcases exits_liveView s.rows t market h.shut s.account.nav with ⟨hview, hpass⟩
  rcases exits_liveView s'.rows t market h.shut' s.account.nav with ⟨hview', hpass'⟩
  rw [← h.rows] at hview' hpass'
  have hdry := (exits_ofMode t market s.rows h.shut s.account.nav).2.2
  have hdry' := (exits_ofMode t market s'.rows h.shut' s.account.nav).2.2
  have hexited : Alike
      { account := { s.account with nav := (t.exits market s.rows s.account.nav).2.nav }
        rows := (t.exits market s.rows s.account.nav).1 }
      { account := { s.account with nav := (t.exits market s'.rows s.account.nav).2.nav }
        rows := (t.exits market s'.rows s.account.nav).1 } := by
    refine ⟨by rw [hpass, hpass'], h.isLive, hview.trans hview'.symm, ?_, ?_, ?_⟩
    · rw [Shut, hdry]
      exact h.shut
    · rw [Shut, hdry']
      exact h.shut'
    · rw [dryPnl, dryPnl, hdry, hdry']
      exact h.pnl
  have hsamePass := hpass.trans hpass'.symm
  rw [← hsamePass] at hexited ⊢
  split_ifs
  · exact ⟨hexited.shown _ _, hexited⟩
  · rcases enter_alike _ _ hexited t market _ _ (t.exits market s.rows s.account.nav).2.sent hopen
      with ⟨hentries, hentered⟩
    rw [← hentries]
    exact ⟨hentered.shown _ _, hentered⟩

end Alike

section Start

theorem sumRealisedPnlInr_cons (trade : Trade) (rest : List Trade) :
    sumRealisedPnlInr (trade :: rest) =
      (if trade.status = .closed then trade.realisedPnlInr.getD 0 else 0) +
        sumRealisedPnlInr rest := by
  unfold sumRealisedPnlInr
  by_cases hclosed : trade.status = .closed
  · rw [if_pos hclosed, List.filter_cons, if_pos (decide_eq_true hclosed), List.map_cons,
      List.sum_cons]
  · rw [if_neg hclosed, List.filter_cons, if_neg (by rwa [decide_eq_true_eq]), zero_add]

/-- The realised profit of the rows is that of the two modes. -/
theorem sumRealisedPnlInr_modes (rows : List ModeRow) :
    sumRealisedPnlInr ((rows.map ModeRow.pair).map Prod.fst) =
      sumRealisedPnlInr (((liveView rows).map ModeRow.pair).map Prod.fst) + dryPnl rows := by
  unfold liveView dryPnl
  induction rows with
  | nil => exact (add_zero _).symm
  | cons row rest ih =>
      rw [List.map_cons, List.map_cons, sumRealisedPnlInr_cons, ih, ofMode_cons, ofMode_cons]
      cases hmode : row.mode with
      | live =>
          have hdry : ¬ BotMode.live = BotMode.dry := BotMode.noConfusion
          rw [if_pos rfl, if_neg hdry, List.map_cons, List.map_cons, List.map_cons,
            sumRealisedPnlInr_cons, add_assoc]
          rfl
      | dry =>
          have hlive : ¬ BotMode.dry = BotMode.live := BotMode.noConfusion
          rw [if_neg hlive, if_pos rfl, List.map_cons, sumRealisedPnlInr_cons]
          exact add_left_comm _ _ _

/-- A start takes the trades to be worth what the closed ones have realised. -/
theorem boot_congr (app : AppConfig) (trades trades' : List (Trade × List Leg)) (table : NavTable)
    (dir : RuntimeDir) (now : DateTime)
    (h : sumRealisedPnlInr (trades.map Prod.fst) = sumRealisedPnlInr (trades'.map Prod.fst)) :
    { boot app trades table dir now with trades := [] } =
      { boot app trades' table dir now with trades := [] } := by
  unfold boot loadNavTracker
  rw [h]

/-- The rows as a start finds them, of a mode. -/
theorem ofMode_restart (mode : BotMode) (rows : List ModeRow) :
    ofMode mode (rows.map (fun row => { row with track := row.track.restart })) =
      (ofMode mode rows).map (fun row => { row with track := row.track.restart }) := by
  unfold ofMode
  rw [List.filter_map]
  rfl

/-- A start on rows that differ in simulated trades only. -/
theorem boot_alike (app : LiveConfig) (rows rows' : List ModeRow) (table : NavTable)
    (dir : RuntimeDir) (now : DateTime)
    (hrows : (liveView rows).map ModeRow.pair = (liveView rows').map ModeRow.pair)
    (hshut : Shut rows) (hshut' : Shut rows') (hpnl : dryPnl rows = dryPnl rows') :
    Alike (ModeEngine.boot app rows table dir now) (ModeEngine.boot app rows' table dir now) := by
  have hview : ∀ rows : List ModeRow,
      liveView (rows.map (fun row => { row with track := row.track.restart })) =
        ((liveView rows).map ModeRow.pair).map (ModeRow.ofPair .live) := by
    intro rows
    rw [liveView, liveView, ofMode_restart, List.map_map, List.map_map, List.map_map]
    refine List.map_congr_left (fun row hrow => ?_)
    have hmode : row.mode = .live := of_decide_eq_true (List.mem_filter.mp hrow).2
    rcases row with ⟨mode, track⟩
    cases hmode
    rfl
  have hshutAfter : ∀ rows : List ModeRow, Shut rows →
      Shut (rows.map (fun row => { row with track := row.track.restart })) := by
    intro rows h row hrow
    rw [ofMode_restart] at hrow
    rcases List.mem_map.mp hrow with ⟨before, hbefore, rfl⟩
    exact h before hbefore
  have hpnlAfter : ∀ rows : List ModeRow,
      dryPnl (rows.map (fun row => { row with track := row.track.restart })) = dryPnl rows := by
    intro rows
    rw [dryPnl, ofMode_restart, List.map_map]
    rfl
  refine ⟨boot_congr _ _ _ _ _ _ ?_, app.2, ?_, hshutAfter rows hshut, hshutAfter rows' hshut', ?_⟩
  · rw [sumRealisedPnlInr_modes rows, sumRealisedPnlInr_modes rows', hrows, hpnl]
  · rw [ModeEngine.boot, ModeEngine.boot, hview, hview, hrows]
  · rw [ModeEngine.boot, ModeEngine.boot, hpnlAfter, hpnlAfter, hpnl]

end Start

/-- Any event. -/
theorem step_alike (s s' : ModeEngine) (h : Alike s s') (e : ModeEvent) :
    (s.step e).2 = (s'.step e).2 ∧ Alike (s.step e).1 (s'.step e).1 := by
  cases e with
  | tick t => exact tick_alike s s' h t
  | account e =>
      have happ : (s.account.step e.engineEvent).app = s.account.app :=
        EngineState.step_app e.engineEvent (fun app he => by cases e <;> cases he)
      have hafter : Alike { s with account := s.account.step e.engineEvent }
          { s' with account := s'.account.step e.engineEvent } :=
        ⟨by rw [h.account], by rw [happ]; exact h.isLive, h.rows, h.shut, h.shut', h.pnl⟩
      exact ⟨hafter.shown [] [], hafter⟩
  | restart app =>
      have hafter := boot_alike app s.rows s'.rows s.account.navHistory s.account.runtimeDir
        s.account.now (by rw [h.rows]) h.shut h.shut' h.pnl
      simp only [ModeEngine.step, ← h.account]
      exact ⟨hafter.shown [] [], hafter⟩

section Sent

variable (t : ModeTick) (market : MarketState)

/-- What a directive sends is for the row it is carried out for. -/
theorem carryOut_sent (mode : BotMode) (acc : TradeTrack × ExitPass) (d : ExitDirective) :
    ∀ o ∈ (t.carryOut market mode acc d).2.sent, o ∈ acc.2.sent ∨ o.mode = mode := by
  have hhead : ∀ (instruction : Instruction) (sent : List Sent),
      ∀ o ∈ ({ mode := mode, instruction := instruction } :: sent : List Sent),
        o ∈ sent ∨ o.mode = mode := by
    intro instruction sent o ho
    rcases List.mem_cons.mp ho with rfl | hlater
    · exact Or.inr rfl
    · exact Or.inl hlater
  unfold ModeTick.carryOut
  split_ifs
  · exact fun o ho => Or.inl ho
  · split
    · unfold ModeTick.sendExit
      split
      · exact fun o ho => Or.inl ho
      · simp only
        split
        · exact hhead _ _
        · split
          · exact hhead _ _
          · exact hhead _ _
    · unfold ModeTick.sendStop
      split
      · exact fun o ho => Or.inl ho
      · simp only
        split
        · exact hhead _ _
        · exact hhead _ _
    · exact fun o ho => Or.inl ho

/-- What managing a row sends is for the row. -/
theorem manageRow_sent (row : ModeRow) (pass : ExitPass) :
    ∀ o ∈ (t.manageRow market row pass).2.sent, o ∈ pass.sent ∨ o.mode = row.mode := by
  unfold ModeTick.manageRow
  split_ifs
  · exact fun o ho => Or.inl ho
  · split
    · exact fun o ho => Or.inl ho
    · split
      · exact fun o ho => Or.inl ho
      · next next directives _ =>
        simp only
        exact List.foldlRecOn (motive := fun acc : TradeTrack × ExitPass =>
            ∀ o ∈ acc.2.sent, o ∈ pass.sent ∨ o.mode = row.mode) directives _
          (fun o ho => Or.inl ho) (fun acc hacc d _ o ho =>
            (carryOut_sent t market row.mode acc d o ho).elim (hacc o) Or.inr)
  · exact fun o ho => Or.inl ho

/-- Rows of one mode send for that mode. -/
theorem manageRows_sent (mode : BotMode) (rows : List ModeRow)
    (hmode : ∀ row ∈ rows, row.mode = mode) (pass : ExitPass)
    (hpass : ∀ o ∈ pass.sent, o.mode = mode) :
    ∀ o ∈ (t.manageRows market rows pass).2.sent, o.mode = mode := by
  induction rows generalizing pass with
  | nil => exact hpass
  | cons row rest ih =>
      refine ih (fun r hr => hmode r (List.mem_cons_of_mem row hr)) _ (fun o ho => ?_)
      rcases manageRow_sent t market row pass o ho with hold | hnew
      · exact hpass o hold
      · exact hnew.trans (hmode row List.mem_cons_self)

/-- With no simulated trade open, the exits of a tick are for trades of live mode. -/
theorem exits_sent (rows : List ModeRow) (h : Shut rows) (nav : NavTracker) :
    ∀ o ∈ (t.exits market rows nav).2.sent, o.mode = .live := by
  have hmode : ∀ row ∈ ofMode .live rows, row.mode = .live :=
    fun row hrow => of_decide_eq_true (List.mem_filter.mp hrow).2
  rw [(exits_ofMode t market rows h nav).1]
  have hsent := manageRows_sent t market .live (ofMode .live rows) hmode { nav := nav }
    (fun o ho => absurd ho List.not_mem_nil)
  unfold ModeTick.exits
  split_ifs
  · simp only
    split_ifs
    · exact hsent
    · exact hsent
  · exact fun o ho => absurd ho List.not_mem_nil

theorem entrySent_mode (mode : BotMode) (makerTimeoutSeconds : ℚ) (a : EntryAttempt)
    (gate : Except PyError SizingResult) (o : Sent)
    (h : entrySent mode makerTimeoutSeconds a gate = some o) : o.mode = mode := by
  unfold entrySent at h
  split at h
  · cases h
  · split_ifs at h
    split at h
    · cases h
    · cases h
    · cases h
      rfl

/-- The entries of a tick are for trades of the engine's mode. -/
theorem entered_sent (s : ModeEngine) (attempts : List EntryAttempt)
    (after : EngineState × List GateCall) :
    ∀ o ∈ (s.entered attempts after).2.2, o.mode = s.account.app.mode := by
  intro o ho
  unfold ModeEngine.entered at ho
  rw [List.reduceOption_mem_iff] at ho
  rcases List.mem_iff_getElem.mp ho with ⟨i, hi, hget⟩
  rw [List.getElem_zipWith] at hget
  exact entrySent_mode _ _ _ _ o hget

end Sent

/-- With no simulated trade open, a live engine asks the executor for live trades only. -/
theorem step_sent (s : ModeEngine) (hisLive : s.account.app.isLive = true) (hshut : Shut s.rows)
    (e : ModeEvent) : ∀ o ∈ (s.step e).2.sent, o.mode = .live := by
  cases e with
  | tick t =>
      simp only [ModeEngine.step, ModeEngine.tick]
      have hexits := exits_sent t (t.marketOf s.rows) s.rows hshut s.account.nav
      split_ifs
      · exact fun o ho => hexits o (List.mem_reverse.mp ho)
      · intro o ho
        rcases List.mem_append.mp ho with hexit | hentry
        · exact hexits o (List.mem_reverse.mp hexit)
        · exact (entered_sent _ _ _ o hentry).trans (if_pos hisLive)
  | account e => exact fun o ho => absurd ho List.not_mem_nil
  | restart app => exact fun o ho => absurd ho List.not_mem_nil

theorem alike_unwinding : Unwinding ModeEngine.step Alike :=
  ⟨fun s s' e h => (step_alike s s' h e).1, fun s s' e h => (step_alike s s' h e).2⟩

/-- The databases have the same trades of live mode. -/
def SameLive (rows rows' : List ModeRow) : Prop :=
  (ofMode .live rows).map ModeRow.pair = (ofMode .live rows').map ModeRow.pair

theorem liveView_of_sameLive (rows rows' : List ModeRow) (hlive : SameLive rows rows') :
    (liveView rows).map ModeRow.pair = (liveView rows').map ModeRow.pair := by
  have hpairs := congrArg (List.map rowWithoutId) hlive
  rw [List.map_map, List.map_map] at hpairs
  rw [liveView, liveView, List.map_map, List.map_map]
  exact hpairs

/-- With no simulated trade open in either of two databases, and the same realised by the simulated
    trades of both, engines in live mode that are booted on them decide the same along all
    events, and ask the executor for nothing on behalf of a simulated trade. -/
theorem decisions_alike (app : LiveConfig) (rows rows' : List ModeRow) (table : NavTable)
    (dir : RuntimeDir) (now : DateTime) (events : List ModeEvent) (hlive : SameLive rows rows')
    (hshut : Shut rows) (hshut' : Shut rows') (hpnl : dryPnl rows = dryPnl rows') :
    decisions app rows table dir now events = decisions app rows' table dir now events ∧
      ∀ shown ∈ decisions app rows table dir now events, ∀ o ∈ shown.sent, o.mode = .live := by
  have hstart := boot_alike app rows rows' table dir now (liveView_of_sameLive rows rows' hlive)
    hshut hshut' hpnl
  refine ⟨?_, fun shown hshown => ?_⟩
  · simp only [decisions]
    rw [hstart.shown [] [], alike_unwinding.shown_eq _ _ hstart events]
  · rcases List.mem_cons.mp hshown with rfl | hlater
    · exact fun o ho => absurd ho List.not_mem_nil
    · -- A state is alike to itself as long as it is alike to anything.
      refine shown_forall (fun s => Alike s s) (fun shown => ∀ o ∈ shown.sent, o.mode = .live)
        (fun s e h => ⟨(step_alike s s h e).2, step_sent s h.isLive h.shut e⟩) _ ?_ events shown
        hlater
      exact ⟨rfl, hstart.isLive, rfl, hstart.shut, hstart.shut, rfl⟩

end OptionsBot
