import OptionsBot.Theory.ForcedExit
import OptionsBot.Theory.SimulatedTrades
import OptionsBot.Theory.TrailStop

/-!
# One Database for Both Modes

Whether an engine in live mode sees the simulated trades of its database is decided by what
it shows on two databases that have the same live ones. It sees none of them if none is
open and they have realised the same in both. It sees them otherwise: what they have
realised is in the account value at the start, and an open one is exited, at its expiry if
not before, by orders on the exchange.

## Main definitions

* `Instruction.isOrder`: An instruction that leads to an order.
* `Unseen`: Engines in live mode decide the same on two databases, and send nothing for a
  simulated trade.
* `Recorded`: Every open row is one whose entry was recorded.

## Theorems

* `manage_at_expiry`, `step_at_expiry`: At its expiry a position is closed.
* `manageRows_closes`: A row that expires at a tick is exited by it.
* `simulated_unseen`: When the simulated trades are not seen.
-/

namespace OptionsBot

-- The sample runs below compute with rationals.
attribute [local semireducible] Rat.add Rat.sub Rat.mul Rat.inv

/-- The instruction leads to an order. An exit or an entry without legs does not. -/
def Instruction.isOrder : Instruction → Bool
  | exit _ _ legs _ _ => !legs.isEmpty
  | stop _ _ _ _ => true
  | entry _ _ legs _ _ => !legs.isEmpty

/-- Whatever the configuration, the history and the events, engines in live mode decide the same on
    two databases, and send no order for a simulated trade. -/
def Unseen (rows rows' : List ModeRow) : Prop :=
  ∀ (app : LiveConfig) (table : NavTable) (dir : RuntimeDir) (now : DateTime)
    (events : List ModeEvent),
    decisions app rows table dir now events = decisions app rows' table dir now events ∧
      ∀ shown ∈ decisions app rows table dir now events, ∀ o ∈ shown.sent,
        o.instruction.isOrder = true → o.mode = .live

/-- Every open row has an expiry and a leg, as an entry leaves it that is recorded. -/
def Recorded (rows : List ModeRow) : Prop :=
  ∀ row ∈ rows, row.isOpen = true →
    (∃ expiry, row.track.trade.expiry = some expiry) ∧ row.track.legs ≠ []

section AtExpiry

/-- At its expiry, every strategy closes a position. -/
theorem manage_at_expiry (strategy : Strategy) (position : PositionState) (market : MarketState)
    (h : market.now = position.expiry) :
    strategy.manage position market = [.closeFor .forceCloseExpiry] := by
  have hhours : position.expiry.hoursSince market.now = 0 := by
    rw [h, DateTime.hoursSince, sub_self, Int.cast_zero, zero_div]
  have hclose : Action.closeFor .forceCloseExpiry ∈ strategy.manage position market := by
    cases strategy with
    | directional self =>
        refine (self.manage_force_iff position market).mpr ?_
        rw [hhours]
        exact self.config.exits.forceClose_pos.le
    | creditVertical self =>
        refine (self.manage_force_iff position market).mpr ?_
        rw [h, CreditVerticalStrategy.daysToExpiry, sub_self]
        exact self.config.exits.forceClose_bounds.1
    | longStraddle self =>
        refine (self.manage_force_iff position market).mpr ?_
        rw [hhours]
        exact self.config.exits.forceClose_pos.le
  rcases strategy.manage_single position market with ⟨action, hmanage, _⟩
  rw [hmanage, List.mem_singleton] at hclose
  rw [hmanage, hclose]

/-- A step at the expiry of a position closes it. -/
theorem step_at_expiry (engine : ExitEngine) (runtime : PositionRuntime) (market : MarketState)
    (strategy : Strategy) (hget : engine.registry.get runtime.position.strategyId = .ok strategy)
    (h : market.now = runtime.position.expiry) :
    ∃ next d, engine.step runtime market = .ok (next, [d]) ∧ d.kind = .close ∧
      d.trigger = some .forceCloseExpiry := by
  have hmanage := manage_at_expiry strategy (ExitEngine.refreshed strategy runtime market).position
    market (by rw [ExitEngine.refreshed_expiry, h])
  rcases engine.step_ok runtime market strategy hget with ⟨action, hone, _, hstep⟩
  rw [hmanage, List.singleton_inj] at hone
  rw [hstep, ← hone]
  exact ⟨_, _, rfl, rfl, rfl⟩

end AtExpiry

section Calm

variable (t : ModeTick) (market : MarketState)

theorem exitRequest_expiry (trade : Trade) (legs : List Leg) (trigger : ExitTrigger)
    (now expiry : DateTime) (h : trade.expiry = some expiry) :
    ∃ req, exitRequest trade legs trigger now = .ok req ∧ req.legs.length = legs.length := by
  rcases mapM_isOk (exitLeg trade now) (legs.insertionSort (fun a b => a.legIdx ≤ b.legIdx))
    (fun leg _ => by rw [exitLeg, h]; exact ⟨_, rfl⟩) with ⟨intents, hintents⟩
  refine ⟨_, by rw [exitRequest, hintents], ?_⟩
  rw [length_mapM_ok _ _ _ hintents, List.length_insertionSort]

/-- Where the exchange answers, the exit of a row with an expiry does not raise. -/
theorem sendExit_calm (hanswer : ∀ sent, ∃ result, t.answer sent = .ok result) (mode : BotMode)
    (trigger : ExitTrigger) (track : TradeTrack) (pass : ExitPass) (expiry : DateTime)
    (h : track.trade.expiry = some expiry) :
    ∃ req : ExitRequest, (t.sendExit market mode trigger track pass).2.sent =
        { mode := mode, instruction := req.instruction } :: pass.sent ∧
      req.legs.length = track.legs.length ∧
      (t.sendExit market mode trigger track pass).2.raised = pass.raised := by
  rcases exitRequest_expiry track.trade track.legs trigger market.now expiry h with
    ⟨req, hreq, hlength⟩
  refine ⟨req, ?_⟩
  unfold ModeTick.sendExit
  rw [hreq]
  rcases hanswer ({ mode := mode, instruction := req.instruction } :: pass.sent) with
    ⟨result, hresult⟩
  simp only [hresult, persistExit, hreq]
  split_ifs
  · exact ⟨rfl, hlength, rfl⟩
  · exact ⟨rfl, hlength, rfl⟩

/-- So is the move of its stop. -/
theorem sendStop_calm (hanswer : ∀ sent, ∃ result, t.answer sent = .ok result) (mode : BotMode)
    (newStopPrice : ℚ) (track : TradeTrack) (pass : ExitPass) :
    (∀ o ∈ pass.sent, o ∈ (t.sendStop mode newStopPrice track pass).2.sent) ∧
      (t.sendStop mode newStopPrice track pass).2.raised = pass.raised := by
  unfold ModeTick.sendStop
  split
  · exact ⟨fun o ho => ho, rfl⟩
  · simp only
    split
    · next e herror =>
      rcases hanswer _ with ⟨result, hresult⟩
      cases hresult.symm.trans herror
    · exact ⟨fun o ho => List.mem_cons_of_mem _ ho, rfl⟩

/-- And carrying out any directive. -/
theorem carryOut_calm (hanswer : ∀ sent, ∃ result, t.answer sent = .ok result) (mode : BotMode)
    (track : TradeTrack) (pass : ExitPass) (d : ExitDirective) (expiry : DateTime)
    (h : track.trade.expiry = some expiry) :
    (∀ o ∈ pass.sent, o ∈ (t.carryOut market mode (track, pass) d).2.sent) ∧
      (t.carryOut market mode (track, pass) d).2.raised = pass.raised := by
  unfold ModeTick.carryOut
  split_ifs
  · exact ⟨fun o ho => ho, rfl⟩
  · split
    · next trigger _ _ =>
      rcases sendExit_calm t market hanswer mode trigger track pass expiry h with
        ⟨req, hsent, _, hraised⟩
      refine ⟨fun o ho => ?_, hraised⟩
      rw [hsent]
      exact List.mem_cons_of_mem _ ho
    · exact sendStop_calm t hanswer mode _ track pass
    · exact ⟨fun o ho => ho, rfl⟩

theorem view_expiry (row : ModeRow) (chain : ChainCache) (now expiry : DateTime)
    (h : row.track.trade.expiry = some expiry) :
    ∃ position, row.view chain now = .ok position ∧ position.expiry = expiry := by
  rcases tradeToPositionState_open row.track.trade row.track.legs chain now expiry h with
    ⟨position, hposition, hexpiry, _⟩
  exact ⟨position, hposition, hexpiry⟩

variable (hanswer : ∀ sent, ∃ result, t.answer sent = .ok result)
  (hregistry : ∀ id, ∃ strategy, t.engine.registry.get id = .ok strategy)

include hanswer hregistry

/-- A row raises nothing, and drops nothing that was sent. -/
theorem manageRow_calm (row : ModeRow) (pass : ExitPass)
    (hrow : row.isOpen = true → ∃ expiry, row.track.trade.expiry = some expiry) :
    (∀ o ∈ pass.sent, o ∈ (t.manageRow market row pass).2.sent) ∧
      (t.manageRow market row pass).2.raised = pass.raised := by
  unfold ModeTick.manageRow
  split_ifs with _ hopen
  · exact ⟨fun o ho => ho, rfl⟩
  · rcases hrow hopen with ⟨expiry, hexpiry⟩
    rcases view_expiry row market.chain market.now expiry hexpiry with ⟨position, hposition, _⟩
    rcases hregistry (row.track.load position).position.strategyId with ⟨strategy, hget⟩
    rcases t.engine.step_ok (row.track.load position) market strategy hget with
      ⟨action, _, _, hstep⟩
    rw [hposition]
    simp only
    rcases hdone : t.engine.step (row.track.load position) market with e | ⟨next, directives⟩
    · rw [hdone] at hstep
      cases hstep
    · simp only
      rcases t.engine.step_single _ next market directives hdone with rfl | ⟨d, rfl⟩
      · exact ⟨fun o ho => ho, rfl⟩
      · exact carryOut_calm t market hanswer row.mode { row.track with runtime := some next } pass d
          expiry hexpiry
  · exact ⟨fun o ho => ho, rfl⟩

/-- A row that expires at the tick is exited, by an order if it has a leg. -/
theorem manageRow_closes (row : ModeRow) (pass : ExitPass) (hpass : pass.raised = false)
    (hopen : row.isOpen = true) (hexpiry : row.track.trade.expiry = some market.now)
    (hlegs : row.track.legs ≠ []) :
    ∃ o ∈ (t.manageRow market row pass).2.sent, o.mode = row.mode ∧
      o.instruction.isOrder = true := by
  rcases view_expiry row market.chain market.now market.now hexpiry with
    ⟨position, hposition, hnow⟩
  rcases hregistry (row.track.load position).position.strategyId with ⟨strategy, hget⟩
  rcases step_at_expiry t.engine (row.track.load position) market strategy hget
    (by rw [TradeTrack.load_position, hnow]) with ⟨next, d, hstep, hkind, htrigger⟩
  unfold ModeTick.manageRow
  rw [if_neg (by rw [hpass]; exact Bool.false_ne_true), if_pos hopen, hposition]
  -- The close is the one directive, so the row's turn is the sending of its exit.
  simp only [hstep, List.foldl_cons, List.foldl_nil]
  unfold ModeTick.carryOut
  rw [if_neg (by rw [hpass]; exact Bool.false_ne_true), hkind, htrigger]
  rcases sendExit_calm t market hanswer row.mode .forceCloseExpiry
    { row.track with runtime := some next } pass market.now hexpiry with ⟨req, hsent, hlength, _⟩
  simp only [hsent]
  refine ⟨_, List.mem_cons_self, rfl, ?_⟩
  change (!req.legs.isEmpty) = true
  rw [Bool.not_eq_true', List.isEmpty_eq_false_iff, ← List.length_pos_iff, hlength]
  exact List.length_pos_iff.mpr hlegs

/-- So the rows of a tick are all managed, and those that expire at it are exited. -/
theorem manageRows_closes (rows : List ModeRow) (pass : ExitPass) (hpass : pass.raised = false)
    (hrows : ∀ row ∈ rows, row.isOpen = true → ∃ expiry, row.track.trade.expiry = some expiry) :
    (∀ o ∈ pass.sent, o ∈ (t.manageRows market rows pass).2.sent) ∧
      (t.manageRows market rows pass).2.raised = false ∧
      ∀ row ∈ rows, row.isOpen = true → row.track.trade.expiry = some market.now →
        row.track.legs ≠ [] → ∃ o ∈ (t.manageRows market rows pass).2.sent,
          o.mode = row.mode ∧ o.instruction.isOrder = true := by
  -- A row before raises nothing, so the turn of each comes, and none after takes back
  -- what was sent for it.
  induction rows generalizing pass with
  | nil => exact ⟨fun o ho => ho, hpass, fun row hrow => absurd hrow List.not_mem_nil⟩
  | cons first rest ih =>
      rcases manageRow_calm t market hanswer hregistry first pass (hrows first List.mem_cons_self)
        with ⟨hkept, hraised⟩
      rcases ih (t.manageRow market first pass).2 (hraised.trans hpass)
        (fun row hrow => hrows row (List.mem_cons_of_mem first hrow)) with
        ⟨hlater, hcalm, hcloses⟩
      refine ⟨fun o ho => hlater o (hkept o ho), hcalm, fun row hrow hopen hexpiry hlegs => ?_⟩
      rcases List.mem_cons.mp hrow with rfl | hin
      · rcases manageRow_closes t market hanswer hregistry row pass hpass hopen hexpiry hlegs with
          ⟨o, ho, hmode, horder⟩
        exact ⟨o, hlater o ho, hmode, horder⟩
      · exact hcloses row hin hopen hexpiry hlegs

/-- A tick exits the rows that expire at it, of either mode. -/
theorem tick_closes (s : ModeEngine)
    (hrows : ∀ row ∈ s.rows, row.isOpen = true → ∃ expiry, row.track.trade.expiry = some expiry)
    (row : ModeRow) (hrow : row ∈ s.rows) (hopen : row.isOpen = true)
    (hexpiry : row.track.trade.expiry = some t.market.now) (hlegs : row.track.legs ≠ []) :
    ∃ o ∈ (s.tick t).2.sent, o.mode = row.mode ∧ o.instruction.isOrder = true := by
  rcases manageRows_closes t (t.marketOf s.rows) hanswer hregistry s.rows
    { nav := s.account.nav } rfl hrows with ⟨_, hcalm, hcloses⟩
  rcases hcloses row hrow hopen hexpiry hlegs with ⟨o, ho, hmode, horder⟩
  have hviewed : ((s.rows.filter ModeRow.isOpen).all (fun row =>
      (row.view (t.marketOf s.rows).chain (t.marketOf s.rows).now).isOk)) = true := by
    refine List.all_eq_true.mpr (fun r hr => ?_)
    rcases hrows r (List.mem_filter.mp hr).1 (List.mem_filter.mp hr).2 with ⟨expiry, hexpiry⟩
    rcases view_expiry r (t.marketOf s.rows).chain (t.marketOf s.rows).now expiry hexpiry with
      ⟨position, hposition, _⟩
    rw [hposition]
    rfl
  have hexits : (t.exits (t.marketOf s.rows) s.rows s.account.nav).2 =
      (t.manageRows (t.marketOf s.rows) s.rows { nav := s.account.nav }).2 := by
    unfold ModeTick.exits
    rw [if_pos hviewed]
    simp only [hcalm, Bool.false_eq_true, if_false]
  refine ⟨o, ?_, hmode, horder⟩
  unfold ModeEngine.tick
  simp only [hexits, hcalm, Bool.false_eq_true, if_false]
  exact List.mem_append_left _ (List.mem_reverse.mpr ho)

end Calm

/-- The three strategies with their shipped values. -/
def shippedEngine : ExitEngine :=
  { registry :=
      { strategies := [.directional { config := shippedDirectionalConfig },
          .creditVertical shippedCreditVertical,
          .longStraddle { config := shippedLongStraddleConfig }]
        distinct := by decide } }

/-- A tick at an instant, on an empty chain, of an exchange that fills every exit. -/
def tickAt (now : DateTime) : ModeTick :=
  { engine := shippedEngine
    market := { now := now, chain := ChainCache.empty, candlesByTf := fun _ _ => []
                underlyingMarks := fun _ => none }
    answer := fun _ => .ok { success := true, tradeId := 0 }
    bookChain := ChainCache.empty
    attempts := fun _ _ => [] }

/-- The shipped configuration in live mode. -/
def shippedLive : LiveConfig := ⟨{ shippedConfig with isLive := true }, rfl⟩

section Seen

variable (rows rows' : List ModeRow)

/-- Two databases that start at the same account value have the same realised by their simulated
    trades. -/
theorem dryPnl_of_unseen (hlive : SameLive rows rows') (h : Unseen rows rows') :
    dryPnl rows = dryPnl rows' := by
  have hstart := (h shippedLive {} {} { micros := 0 } []).1
  simp only [decisions, shownAlong, List.cons.injEq, and_true] at hstart
  have hnav := congrArg Decisions.navNow hstart
  simp only [ModeEngine.shown, ModeEngine.boot, (EngineState.boot_value _ _ _ _ _).1] at hnav
  rw [sumRealisedPnlInr_modes rows, sumRealisedPnlInr_modes rows',
    liveView_of_sameLive rows rows' hlive] at hnav
  linarith

/-- An open simulated trade is exited at its expiry, by an order if it has a leg. -/
theorem shut_of_unseen (h : Unseen rows rows') (hrecorded : Recorded rows) : Shut rows := by
  intro row hrow
  rcases List.mem_filter.mp hrow with ⟨hmem, hdry⟩
  by_contra hnot
  rw [Bool.not_eq_false] at hnot
  rcases hrecorded row hmem hnot with ⟨⟨expiry, hexpiry⟩, hlegs⟩
  have hopen : ∀ row ∈ (ModeEngine.boot shippedLive rows {} {} { micros := 0 }).rows,
      row.isOpen = true → ∃ expiry, row.track.trade.expiry = some expiry := by
    intro row hrow hopen
    rcases List.mem_map.mp hrow with ⟨stored, hstored, rfl⟩
    exact (hrecorded stored hstored hopen).1
  rcases tick_closes (tickAt expiry) (fun _ => ⟨_, rfl⟩)
    (fun id => by cases id <;> exact ⟨_, rfl⟩) _ hopen
    { row with track := row.track.restart } (List.mem_map_of_mem hmem) hnot hexpiry hlegs with
    ⟨o, ho, hmode, horder⟩
  have hsent := (h shippedLive {} {} { micros := 0 } [.tick (tickAt expiry)]).2
    _ (List.mem_cons_of_mem _ List.mem_cons_self) o ho horder
  rw [hmode, of_decide_eq_true hdry] at hsent
  cases hsent

theorem Unseen.symm (h : Unseen rows rows') : Unseen rows' rows := by
  intro app table dir now events
  rcases h app table dir now events with ⟨hsame, hsent⟩
  exact ⟨hsame.symm, by rw [← hsame]; exact hsent⟩

end Seen

/-- On two databases with the same live trades: if no simulated trade is open in either and the
    simulated trades of both have realised the same, engines in live mode see nothing of them;
    and these conditions are needed, if the open rows are those of recorded entries. -/
theorem simulated_unseen (rows rows' : List ModeRow) (hlive : SameLive rows rows') :
    (Shut rows → Shut rows' → dryPnl rows = dryPnl rows' → Unseen rows rows') ∧
      (Recorded rows → Recorded rows' → Unseen rows rows' →
        Shut rows ∧ Shut rows' ∧ dryPnl rows = dryPnl rows') := by
  refine ⟨fun hshut hshut' hpnl app table dir now events => ?_,
    fun hrecorded hrecorded' h => ⟨shut_of_unseen rows rows' h hrecorded,
      shut_of_unseen rows' rows h.symm hrecorded', dryPnl_of_unseen rows rows' hlive h⟩⟩
  rcases decisions_alike app rows rows' table dir now events hlive hshut hshut' hpnl with
    ⟨hsame, hsent⟩
  exact ⟨hsame, fun shown hshown o ho _ => hsent shown hshown o ho⟩

/-- A closed simulated trade. -/
def closedDry (id : Nat) (realisedPnlInr : ℚ) : ModeRow :=
  { mode := .dry
    track :=
      { trade :=
          { id := id, strategyId := .directional, underlying := .btc
            expiry := some (stampedExpiry (ymdToOrdinal 2026 5 12))
            entryTs := combine (ymdToOrdinal 2026 5 12) (hourMinute 6 0)
            status := .closed, lots := 1, realisedPnlInr := some realisedPnlInr }
        legs := [] } }

/-- An open trade on one call that expires on 13 May 2026. -/
def openCall (id : Nat) (mode : BotMode) : ModeRow :=
  { mode := mode
    track :=
      { trade :=
          { id := id, strategyId := .directional, underlying := .btc
            expiry := some (stampedExpiry (ymdToOrdinal 2026 5 13))
            entryTs := combine (ymdToOrdinal 2026 5 12) (hourMinute 10 0)
            lots := 1, premiumPaidInr := some 400 }
        legs := [{ tradeId := id, strategyId := .directional, legIdx := 0
                   symbol := "C-BTC-97000-130526", optionType := some .call, strike := some 97000
                   side := .buy, lots := 1, entryPrice := some 400 }] } }

/-- What a live engine shows that is booted on the rows the evening before, and then has a tick at
    the expiry of the call. -/
def shownAtExpiry (rows : List ModeRow) : List Decisions :=
  decisions shippedLive rows {} {} (stampedExpiry (ymdToOrdinal 2026 5 12))
    [.tick (tickAt (stampedExpiry (ymdToOrdinal 2026 5 13)))]

/-- Simulated trades that have realised 100 in one trade or in two, beside a live call: the live
    engine shows the same, and exits the call. -/
theorem simulated_unseen_closed :
    shownAtExpiry [closedDry 1 100, openCall 3 .live] =
        shownAtExpiry [closedDry 1 60, closedDry 2 40, openCall 3 .live] ∧
      (shownAtExpiry [closedDry 1 100, openCall 3 .live]).flatMap
        (fun shown => shown.sent.map Sent.mode) = [.live] := by
  refine ⟨?_, by decide⟩
  exact ((simulated_unseen [closedDry 1 100, openCall 3 .live]
    [closedDry 1 60, closedDry 2 40, openCall 3 .live] rfl).1 (by decide) (by decide)
    (by decide) shippedLive {} {} _ _).1

/-- A database with a simulated trade that has realised 100 and one that is open, and an empty one:
    the live engine starts at another account value, counts an open trade, and at its expiry sends
    an order for it. -/
theorem open_simulated_exited :
    SameLive [closedDry 1 100, openCall 2 .dry] [] ∧
      ¬ Unseen [closedDry 1 100, openCall 2 .dry] [] ∧
      (shownAtExpiry [closedDry 1 100, openCall 2 .dry]).map (fun shown =>
          (shown.navNow, shown.accounting.openCountTotal,
            shown.sent.map (fun o => (o.mode, o.instruction.isOrder)))) =
        [(67100, 1, []), (66700, 0, [(.dry, true)])] ∧
      (shownAtExpiry []).map (fun shown =>
          (shown.navNow, shown.accounting.openCountTotal,
            shown.sent.map (fun o => (o.mode, o.instruction.isOrder)))) =
        [(67000, 0, []), (67000, 0, [])] := by
  refine ⟨rfl, fun h => ?_, by decide, by decide⟩
  have hsame : shownAtExpiry [closedDry 1 100, openCall 2 .dry] = shownAtExpiry [] :=
    (h shippedLive {} {} _ _).1
  have hcounts := congrArg (List.map (fun shown : Decisions => shown.sent.length)) hsame
  exact absurd hcounts (by decide)

end OptionsBot
