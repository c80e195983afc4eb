import OptionsBot.Theory.PositionTrades
import OptionsBot.Theory.TrailStop

/-!
# The Stops of the Report

The report on the open positions says of each whether it is at its premium stop and whether it is
at the stop of its underlying. The exit engine decides on the same stops, but it has other data:
the report reads the signal, the entry price of the exchange and two tickers, and the engine reads
the row, its notes and the quotes of its chain.

Where the two see the same prices they agree on the first stop. On the second they differ in one
condition. The engine takes it only if the option costs no more than at its entry, and the report
does not ask for that.

## Main definitions

* `OpenPositionRow.Measured`: The flags of a row are those of its other columns.
* `DirectionalStrategy.Undisturbed`: None of the exits that come before the stops is due.
* `SamePrices`: The report and the engine see the same prices.
* `PositionState.Holds`: A position on an option, with the notes of its entry.

## Theorems

* `positionRow_measured`, `mem_report_rows`: What is shown of a position.
* `reportStops_of_mem`: The stops of the report are the configured ones.
* `DirectionalStrategy.underlyingStopped_iff`, `DirectionalStrategy.manage_stops`: When the
  strategy takes its stops.
* `OpenPositionRow.Measured.explained`, `refreshed_explained`: What the two know of a trade.
* `report_flags_stops`: The flags of the report and the answer of the engine, after any run.
-/

namespace OptionsBot

section Row

variable (parse : String → Option ℚ)

/-- What is shown of a position comes from the trade that was found, and the flags are those of
    the columns next to them. -/
structure OpenPositionRow.Measured (stops : ReportStops) (p : OpenPosition)
    (found : Option TradeRecord) (shown : OpenPositionRow) : Prop where
  symbol : shown.productSymbol = p.productSymbol
  optionType : shown.optionType = optionTypeFromSymbol p.productSymbol
  signalSpot : shown.signalSpot =
    (((found.bind TradeRecord.signal).map SignalRow.featureVector).getD []).float parse "spot"
  signalAtr : shown.signalAtr =
    (((found.bind TradeRecord.signal).map SignalRow.featureVector).getD []).float parse "atr"
  underlyingSl : shown.atUnderlyingSl = true ↔ ∃ kind entrySpot entryAtr spotNow,
    shown.optionType = some kind ∧ shown.signalSpot = some entrySpot ∧
      shown.signalAtr = some entryAtr ∧ shown.currentSpot = some spotNow ∧
      (underlyingSlMetrics kind entrySpot entryAtr spotNow stops.underlyingAtrMult).reached = true
  premiumSl : shown.atPremiumSl = true ↔ ∃ entry mark,
    shown.exchangeEntryPrice = some entry ∧ shown.optionMark = some mark ∧ 0 < entry ∧
      mark ≤ entry * (1 - stops.premiumDdPct)

theorem reached_iff (kind : Option OptionType) (entrySpot entryAtr spotNow : Option ℚ) (mult : ℚ) :
    (Option.map UnderlyingSl.reached (match kind, entrySpot, entryAtr, spotNow with
      | some k, some e, some a, some n => some (underlyingSlMetrics k e a n mult)
      | _, _, _, _ => none)).getD false = true ↔
      ∃ k e a n, kind = some k ∧ entrySpot = some e ∧ entryAtr = some a ∧ spotNow = some n ∧
        (underlyingSlMetrics k e a n mult).reached = true := by
  cases kind <;> cases entrySpot <;> cases entryAtr <;> cases spotNow <;> simp

theorem drawnDown_iff (entry mark : Option ℚ) (pct : ℚ) :
    (Option.map (fun x : ℚ × ℚ => decide (x.2 ≤ x.1 * (1 - pct))) (match entry, mark with
      | some e, some m => if 0 < e then some (e, m) else none
      | _, _ => none)).getD false = true ↔
      ∃ e m, entry = some e ∧ mark = some m ∧ 0 < e ∧ m ≤ e * (1 - pct) := by
  cases entry with
  | none => simp
  | some e =>
      cases mark with
      | none => simp
      | some m => by_cases he : 0 < e <;> simp [he]

theorem positionRow_measured (rest : PositionRest) (trades : List TradeRecord)
    (stops : ReportStops) (p : OpenPosition) (y : OpenPositionRow × List String)
    (h : positionRow parse rest trades stops p = .ok y) :
    y.1.Measured parse stops p
      (if p.productSymbol = "" then none else findTradeForSymbol trades p.productSymbol) := by
  unfold positionRow at h
  simp only at h
  generalize (if p.productSymbol = "" then none
    else findTradeForSymbol trades p.productSymbol) = found at h ⊢
  -- Whichever tickers are asked for, the row is made of what they answer.
  split at h
  all_goals
    revert y
    refine of_bind_ok fun spot y hy => ?_
    split at hy
  all_goals
    revert y
    refine of_bind_ok fun mark y hy => ?_
    cases hy
    exact ⟨rfl, rfl, rfl, rfl, reached_iff _ _ _ _ _, drawnDown_iff _ _ _⟩

/-- A row of the report is what is shown of a position. -/
theorem mem_report_rows (rest : PositionRest) (trades : List TradeRecord)
    (configs : List StrategyConfig) (optionsOnly : Bool) (report : OpenPositionsReport)
    (shown : OpenPositionRow)
    (h : buildOpenPositionsReport parse rest trades configs optionsOnly = .ok report)
    (hshown : shown ∈ report.rows) :
    ∃ p errors, positionRow parse rest trades (reportStops configs) p = .ok (shown, errors) := by
  unfold buildOpenPositionsReport at h
  split at h
  · cases h
    cases hshown
  · simp only at h
    generalize hrows : List.mapM (positionRow parse rest trades (reportStops configs)) _ = rows at h
    cases rows with
    | error e => cases h
    | ok rows =>
        cases h
        rcases List.mem_map.mp hshown with ⟨⟨row, errors⟩, hmem, rfl⟩
        rcases mem_mapM_ok _ _ _ hrows _ hmem with ⟨p, _, hp⟩
        exact ⟨p, errors, hp⟩

/-- The stops of the report are those of the one directional strategy that is configured. -/
theorem reportStops_of_mem (configs : List StrategyConfig)
    (hids : (configs.map StrategyConfig.id).Nodup) (config : DirectionalConfig)
    (hmem : .directional config ∈ configs) :
    reportStops configs = { premiumDdPct := config.exits.premiumDrawdownPct
                            underlyingAtrMult := config.exits.underlyingAtrMultStop } := by
  unfold reportStops
  induction configs with
  | nil => cases hmem
  | cons first others ih =>
      rw [List.map_cons, List.nodup_cons] at hids
      rcases List.mem_cons.mp hmem with rfl | hrest
      · rfl
      · cases first with
        | directional other =>
            -- A second one would have the id of the first.
            exact absurd (List.mem_map_of_mem (f := StrategyConfig.id) hrest) hids.1
        | creditVertical _ => exact ih hids.2 hrest
        | longStraddle _ => exact ih hids.2 hrest

end Row

namespace ExitEngine

/-- The refresh gives the first leg of a directional position the middle price of its quote. -/
theorem refreshed_quoted (self : DirectionalStrategy) (runtime : PositionRuntime)
    (market : MarketState) (leg : LegState) (others : List LegState) (mid : ℚ)
    (hlegs : runtime.position.legStates = leg :: others)
    (hquote : market.quoteMid leg.symbol = some mid) :
    (refreshed (.directional self) runtime market).position.legStates =
      { leg with currentMid := some mid } :: others := by
  unfold refreshed refreshPositionState PositionRuntime.refreshLeg
  unfold PositionRuntime.refreshTrailStop PositionRuntime.refreshUnderlying
  simp only [hlegs, hquote]
  cases runtime.position.entryPremiumInr with
  | none =>
      simp only
      split
      · rfl
      · rfl
  | some entry =>
      simp only
      split
      · rfl
      · rfl

end ExitEngine

namespace DirectionalStrategy

/-- None of the exits that come before the two stops is due, and no trailing stop is reached. -/
structure Undisturbed (config : DirectionalConfig) (position : PositionState)
    (market : MarketState) (mid entry : ℚ) : Prop where
  early : config.exits.forceCloseHoursBeforeExpiry < position.expiry.hoursSince market.now
  greeks : ∀ leg ∈ position.legStates, deskGreekExit config.desk position leg market = none
  target : mid < (1 + config.exits.targetR) * entry
  trail : ∀ stop ∈ position.currentTrailStopPrice, stop < mid

variable (self : DirectionalStrategy) (position : PositionState) (market : MarketState)
  (leg : LegState) (mid entry : ℚ)

/-- The stop of the underlying is the one that the report measures, on an option that costs no
    more than at its entry. -/
theorem underlyingStopped_iff (cfg : DirectionalExits) (kind : OptionType) (spot atr : ℚ)
    (hkind : leg.optionType = some kind) (hspot : position.entryUnderlyingPrice = some spot)
    (hatr : position.entryAtr = some atr) :
    underlyingStopped cfg position leg market mid entry = true ↔
      (∃ n, market.spot position.underlying = some n ∧
        (underlyingSlMetrics kind spot atr n cfg.underlyingAtrMultStop).reached = true) ∧
      mid ≤ entry := by
  unfold underlyingStopped underlyingSlMetrics
  rw [hspot, hatr]
  cases market.spot position.underlying with
  | none => simp
  | some n => simp [hkind, and_comm]

theorem manage_stops (others : List LegState) (hlegs : position.legStates = leg :: others)
    (hmid : leg.currentMid = some mid) (hentry : position.entryPremiumInr = some entry)
    (h : Undisturbed self.config position market mid entry) :
    (self.manage position market = [.closeFor .premiumStop] ↔
      mid ≤ (1 - self.config.exits.premiumDrawdownPct) * entry) ∧
    ((1 - self.config.exits.premiumDrawdownPct) * entry < mid →
      (self.manage position market = [.closeFor .underlyingStop] ↔
        underlyingStopped self.config.exits position leg market mid entry = true)) := by
  have hmanage : self.manage position market =
      [self.managePriced position market leg mid entry] := by
    unfold manage
    rw [if_neg (not_le.mpr h.early)]
    simp only [hlegs, hentry, hmid]
  have hgreeks := h.greeks leg (by rw [hlegs]; exact List.mem_cons_self)
  have htrail : ¬ ∃ stop ∈ position.currentTrailStopPrice, mid ≤ stop :=
    fun ⟨stop, hstop, hle⟩ => absurd (h.trail stop hstop) (not_lt.mpr hle)
  -- The greeks, the target and the trailing stop are tested first, or between the two stops.
  rw [hmanage]
  unfold managePriced
  simp only [hgreeks, if_neg (not_le.mpr h.target), if_neg htrail]
  by_cases hdown : mid ≤ (1 - self.config.exits.premiumDrawdownPct) * entry
  · rw [if_pos hdown]
    exact ⟨iff_of_true rfl hdown, fun habove => absurd hdown (not_le.mpr habove)⟩
  · rw [if_neg hdown]
    -- What is left are the stop of the underlying, a new stop, and nothing.
    by_cases hstop : underlyingStopped self.config.exits position leg market mid entry = true
    · rw [if_pos hstop]
      exact ⟨iff_of_false (by decide) hdown, fun _ => iff_of_true rfl hstop⟩
    · rw [if_neg hstop]
      split
      · exact ⟨iff_of_false (fun heq => nomatch heq) hdown,
          fun _ => iff_of_false (fun heq => nomatch heq) hstop⟩
      · exact ⟨iff_of_false (fun heq => nomatch heq) hdown,
          fun _ => iff_of_false (fun heq => nomatch heq) hstop⟩

end DirectionalStrategy

/-- The report and the engine see the same prices: of the underlying, of the option, and of its
    entry. -/
structure SamePrices (shown : OpenPositionRow) (position : PositionState) (market : MarketState)
    (mid entry : ℚ) : Prop where
  spot : market.spot position.underlying = shown.currentSpot
  quote : market.quoteMid shown.productSymbol = some mid
  mark : shown.optionMark = some mid
  premium : position.entryPremiumInr = some entry
  paid : shown.exchangeEntryPrice = some entry

/-- A feature that is a number is read as that number. -/
theorem Features.float_num (parse : String → Option ℚ) (fv : Features) (key : String) (x : ℚ)
    (h : fv.get key = some (.num (some x))) : fv.float parse key = some x := by
  rw [Features.float, h]
  rfl

section Flags

variable {parse : String → Option ℚ} {stops : ReportStops} {p : OpenPosition}
  {shown : OpenPositionRow} {row : DeskRow} {signal : SignalRow} {q : ParsedSymbol} {spot atr : ℚ}

/-- Of a trade that explains itself, the report reads the option and what the signal has noted. -/
theorem OpenPositionRow.Measured.explained (h : shown.Measured parse stops p (some row.record))
    (hexplained : row.atEntry.Explained signal q spot atr)
    (hintended : signal.intendedSymbol = p.productSymbol) :
    shown.optionType = some q.optionType ∧ shown.signalSpot = some spot ∧
      shown.signalAtr = some atr := by
  have hsignal : row.record.signal = some signal := hexplained.recorded
  have hparse := hexplained.symbol
  rw [hintended] at hparse
  rcases optionParts_of_parse _ q hparse with ⟨strike, date, hparts⟩
  refine ⟨?_, ?_, ?_⟩
  · rw [h.optionType, hparts.optionType]
  · rw [h.signalSpot, Option.bind_some, hsignal]
    exact Features.float_num parse _ "spot" spot hexplained.spot.1
  · rw [h.signalAtr, Option.bind_some, hsignal]
    exact Features.float_num parse _ "atr" atr hexplained.atr.1

/-- At the entry price and the mark of an option, its first flag is the drawdown of its price. -/
theorem OpenPositionRow.Measured.premium_iff {found : Option TradeRecord} {mid entry : ℚ}
    (h : shown.Measured parse stops p found) (hmark : shown.optionMark = some mid)
    (hpaid : shown.exchangeEntryPrice = some entry) (hpositive : 0 < entry) :
    shown.atPremiumSl = true ↔ mid ≤ (1 - stops.premiumDdPct) * entry := by
  rw [h.premiumSl, hmark, hpaid, mul_comm]
  constructor
  · rintro ⟨e, m, he, hm, _, hle⟩
    cases he
    cases hm
    exact hle
  · exact fun hle => ⟨entry, mid, rfl, rfl, hpositive, hle⟩

theorem OpenPositionRow.Measured.underlying_iff {found : Option TradeRecord} {kind : OptionType}
    (h : shown.Measured parse stops p found)
    (hread : shown.optionType = some kind ∧ shown.signalSpot = some spot ∧
      shown.signalAtr = some atr) :
    shown.atUnderlyingSl = true ↔ ∃ n, shown.currentSpot = some n ∧
      (underlyingSlMetrics kind spot atr n stops.underlyingAtrMult).reached = true := by
  rw [h.underlyingSl, hread.1, hread.2.1, hread.2.2]
  constructor
  · rintro ⟨k, e, a, n, hk, he, ha, hn, hreached⟩
    cases hk
    cases he
    cases ha
    exact ⟨n, hn, hreached⟩
  · exact fun ⟨n, hn, hreached⟩ => ⟨kind, spot, atr, n, rfl, rfl, rfl, hn, hreached⟩

/-- A position on an option, with what is noted of its entry and the prices of the option. -/
structure PositionState.Holds (position : PositionState) (q : ParsedSymbol)
    (spot atr mid entry : ℚ) : Prop where
  leg : ∃ leg others, position.legStates = leg :: others ∧ leg.optionType = some q.optionType ∧
    leg.currentMid = some mid
  spot : position.entryUnderlyingPrice = some spot
  atr : position.entryAtr = some atr
  premium : position.entryPremiumInr = some entry
  positive : 0 < entry

/-- The engine manages a trade that explains itself with the notes that the report reads. -/
theorem refreshed_explained (self : DirectionalStrategy)
    (hexplained : row.atEntry.Explained signal q spot atr) (chain : ChainCache) (now : DateTime)
    (runtime : PositionRuntime) (market : MarketState) (mid entry : ℚ)
    (hview : tradeToPositionState row.record.trade row.legs chain now = .ok runtime.position)
    (hpremium : runtime.position.entryPremiumInr = some entry)
    (hquote : market.quoteMid signal.intendedSymbol = some mid) :
    (ExitEngine.refreshed (.directional self) runtime market).position.Holds q spot atr mid
      entry := by
  rcases (tradeToPositionState_ok_iff _ _ _ _ _).mp hview with ⟨expiry, _, hposition⟩
  rcases (ExitEngine.refreshed_frame (.directional self) runtime market).1 with
    ⟨_, _, _, _, hframe⟩
  have hpaid : row.record.trade.premiumPaidInr = some entry := by
    rw [← hposition] at hpremium
    exact hpremium
  -- A premium that was paid was paid for a leg, so there is one to manage.
  rcases hexplained.paid entry hpaid with ⟨hpositive, hbought⟩
  refine ⟨?_, ?_, ?_, ?_, hpositive⟩
  · rcases hlegs : row.legs with _ | ⟨leg, others⟩
    · refine absurd ?_ hbought
      change row.legs.map Leg.contract = []
      rw [hlegs]
      rfl
    · have hcontract : leg.contract = (signal.intendedSymbol, some q.optionType) := by
        refine hexplained.legs leg.contract ?_
        change leg.contract ∈ row.legs.map Leg.contract
        rw [hlegs]
        exact List.mem_cons_self
      have hstates : runtime.position.legStates =
          legState chain leg :: others.map (legState chain) := by
        rw [← hposition, hlegs]
        rfl
      have hprice : market.quoteMid (legState chain leg).symbol = some mid := by
        rw [show (legState chain leg).symbol = signal.intendedSymbol from
          congrArg Prod.fst hcontract]
        exact hquote
      exact ⟨_, _, ExitEngine.refreshed_quoted self runtime market _ _ mid hstates hprice,
        congrArg Prod.snd hcontract, rfl⟩
  · rw [hframe, ← hposition]
    exact hexplained.spot.2
  · rw [hframe, ← hposition]
    exact hexplained.atr.2
  · rw [hframe]
    exact hpremium

end Flags

namespace MainLoop

variable (s : MainLoop)

/-- After any run that began with an empty book, let the report have a row for the option that a
    trade was for, and let the engine manage that trade at the same prices. If nothing else is
    due, the answer is the premium stop exactly if the row flags it, and otherwise the stop of the
    underlying exactly if the row flags that one and the option costs no more than at its entry. -/
theorem report_flags_stops (hrows : s.rows = []) (events : List LifeEvent)
    (hdecided : Along live Decided s events) (row : DeskRow)
    (hrow : row ∈ (events.foldl live s).rows)
    (parse : String → Option ℚ) (rest : PositionRest) (configs : List StrategyConfig)
    (hids : (configs.map StrategyConfig.id).Nodup) (self : DirectionalStrategy)
    (hconfig : .directional self.config ∈ configs) (optionsOnly : Bool)
    (report : OpenPositionsReport) (shown : OpenPositionRow)
    (hreport : buildOpenPositionsReport parse rest
      ((events.foldl live s).rows.map DeskRow.record) configs optionsOnly = .ok report)
    (hshown : shown ∈ report.rows)
    (hfound : findTradeForSymbol ((events.foldl live s).rows.map DeskRow.record)
      shown.productSymbol = some row.record)
    (hsymbol : row.record.SignalFor (· = shown.productSymbol))
    (chain : ChainCache) (now : DateTime) (runtime : PositionRuntime) (market : MarketState)
    (hview : tradeToPositionState row.record.trade row.legs chain now = .ok runtime.position)
    (mid entry : ℚ) (hsame : SamePrices shown runtime.position market mid entry)
    (hquiet : DirectionalStrategy.Undisturbed self.config
      (ExitEngine.refreshed (.directional self) runtime market).position market mid entry) :
    (self.manage (ExitEngine.refreshed (.directional self) runtime market).position market =
        [.closeFor .premiumStop] ↔ shown.atPremiumSl = true) ∧
      (shown.atPremiumSl = false →
        (self.manage (ExitEngine.refreshed (.directional self) runtime market).position market =
          [.closeFor .underlyingStop] ↔ shown.atUnderlyingSl = true ∧ mid ≤ entry)) := by
  rcases hsymbol with ⟨hdirectional, signal, hsignal, hintended⟩
  have hsound := s.explained_run (s.entriesSound_nil hrows) events hdecided
  -- The notes of the row and the features of its signal have come from one decision.
  rcases (hsound.sound row hrow).2 hdirectional with ⟨signal', q, spot, atr, hexplained⟩
  have hsignals : signal' = signal := Option.some.inj (hexplained.recorded.symm.trans hsignal)
  rw [hsignals] at hexplained
  rcases mem_report_rows parse rest _ configs optionsOnly report shown hreport hshown with
    ⟨p, errors, hposition⟩
  have hmeasured : shown.Measured parse (reportStops configs) p _ :=
    positionRow_measured parse rest _ _ p _ hposition
  rw [hmeasured.symbol] at hintended hfound
  have hparse := hexplained.symbol
  rw [hintended] at hparse
  rcases optionParts_of_parse _ q hparse with ⟨strike, date, hparts⟩
  rw [if_neg hparts.nonempty, hfound, reportStops_of_mem configs hids self.config hconfig]
    at hmeasured
  have hquote : market.quoteMid signal.intendedSymbol = some mid := by
    rw [hintended, ← hmeasured.symbol]
    exact hsame.quote
  have hholds := refreshed_explained self hexplained chain now runtime market mid entry hview
    hsame.premium hquote
  have hspot : market.spot (ExitEngine.refreshed (.directional self) runtime
      market).position.underlying = shown.currentSpot := by
    rcases (ExitEngine.refreshed_frame (.directional self) runtime market).1 with
      ⟨_, _, _, _, hframe⟩
    rw [hframe]
    exact hsame.spot
  have hdown := hmeasured.premium_iff hsame.mark hsame.paid hholds.positive
  rcases hholds.leg with ⟨leg, others, hlegs, hkind, hmid⟩
  have hanswer := self.manage_stops _ market leg mid entry others hlegs hmid hholds.premium hquiet
  refine ⟨hanswer.1.trans hdown.symm, fun habove => ?_⟩
  have hlt : (1 - self.config.exits.premiumDrawdownPct) * entry < mid := by
    refine not_le.mp fun hle => ?_
    rw [hdown.mpr hle] at habove
    cases habove
  -- Both measure the stop of the underlying alike, and only the engine asks for the price too.
  rw [hanswer.2 hlt, DirectionalStrategy.underlyingStopped_iff _ market leg mid entry _
    q.optionType spot atr hkind hholds.spot hholds.atr, hspot,
    hmeasured.underlying_iff (hmeasured.explained hexplained hintended)]

/-- The call of the breakout as the exchange lists it, and the tickers after a fall. -/
def breakoutPosition : OpenPosition :=
  { productSymbol := "C-BTC-97000-130526", size := some 1, entryPrice := some 1 }

def fallenRest : PositionRest :=
  { getPositions := .ok [breakoutPosition]
    getTicker := fun symbol => .ok [("mark_price",
      if symbol = "BTCUSD" then .integer 96000 else .real (9 / 10))]
    getOrders := fun _ => .ok [] }

/-- The market after the fall. -/
def fallenMarket : MarketState :=
  { breakoutMarket with
    quoteFor := fun _ => some { markPrice := some (9 / 10) }
    underlyingMarks := fun _ => some 96000 }

/-- The underlying has fallen by more than its range. The report flags the stop, and the engine
    closes the trade by it. -/
theorem report_flags_breakout : ∃ (shown : OpenPositionRow) (position : PositionState),
    shown.atPremiumSl = false ∧ shown.atUnderlyingSl = true ∧
      (loneStrategy shippedDirectionalExpiry .btc).manage (ExitEngine.refreshed
        (.directional (loneStrategy shippedDirectionalExpiry .btc)) { position := position }
          fallenMarket).position fallenMarket = [.closeFor .underlyingStop] := by
  have hcolumns : (breakoutEvents.foldl live breakoutLoop).rows.map (fun row =>
      (row.record.trade.strategyId, row.record.signal.map SignalRow.intendedSymbol,
        row.record.trade.premiumPaidInr, row.record.trade.expiry)) =
      [(.directional, some "C-BTC-97000-130526", some 1,
        some (combine (ymdToOrdinal 2026 5 13) (hourMinute 17 30)))] := by
    decide +kernel
  let answer := buildOpenPositionsReport (fun _ => none) fallenRest
    ((breakoutEvents.foldl live breakoutLoop).rows.map DeskRow.record)
    [.directional (loneStrategy shippedDirectionalExpiry .btc).config] true
  have hprices : answer.toOption.map (fun report => report.rows.map (fun shown =>
      (shown.productSymbol, shown.currentSpot, shown.optionMark, shown.exchangeEntryPrice))) =
      some [("C-BTC-97000-130526", some 96000, some (9 / 10), some 1)] := by
    decide +kernel
  have hflags : answer.toOption.map (fun report => report.rows.map (fun shown =>
      (shown.atPremiumSl, shown.atUnderlyingSl))) = some [(false, true)] := by
    decide +kernel
  have hfinds : (findTradeForSymbol ((breakoutEvents.foldl live breakoutLoop).rows.map
      DeskRow.record) "C-BTC-97000-130526").isSome = true := by
    decide +kernel
  rcases List.map_eq_singleton_iff.mp hcolumns with ⟨row, hrows, hcolumn⟩
  simp only [Prod.mk.injEq] at hcolumn
  rcases hcolumn with ⟨hdirectional, hsignal, hpremium, hexpiry⟩
  rcases Option.map_eq_some_iff.mp hsignal with ⟨signal, hsignal, hintended⟩
  rcases Option.map_eq_some_iff.mp hprices with ⟨report, hanswer, hrow⟩
  rcases List.map_eq_singleton_iff.mp hrow with ⟨shown, hshown, hshows⟩
  rw [hanswer, Option.map_some, hshown, Option.some.injEq, List.map_singleton,
    List.singleton_inj, Prod.mk.injEq] at hflags
  simp only [Prod.mk.injEq] at hshows
  have hfound : findTradeForSymbol ((breakoutEvents.foldl live breakoutLoop).rows.map
      DeskRow.record) "C-BTC-97000-130526" = some row.record := by
    rcases Option.isSome_iff_exists.mp hfinds with ⟨t, ht⟩
    have hmem := findTradeForSymbol_mem _ _ t ht
    rw [hrows, List.map_singleton, List.mem_singleton] at hmem
    rw [ht, hmem]
  rcases tradeToPositionState_open row.record.trade row.legs breakoutMarket.chain
    breakoutMarket.now _ hexpiry with ⟨position, hview, hpexpiry, _, _, _⟩
  have hentry := (tradeToPositionState_eq _ _ _ _ _ hview).2.1
  have hquiet : DirectionalStrategy.Undisturbed (loneStrategy shippedDirectionalExpiry .btc).config
      (ExitEngine.refreshed (.directional (loneStrategy shippedDirectionalExpiry .btc))
        { position := position } fallenMarket).position fallenMarket (9 / 10) 1 := by
    refine ⟨?_, fun leg _ => if_pos ⟨rfl, rfl⟩, ?_, fun stop hstop => ?_⟩
    · rw [ExitEngine.refreshed_expiry, hpexpiry]
      decide +kernel
    · decide +kernel
    · rw [(refreshed_trailStop _ _ _).2] at hstop
      cases hstop
  exact ⟨shown, position, hflags.1, hflags.2,
    ((report_flags_stops breakoutLoop rfl breakoutEvents breakout_decided row
      (hrows ▸ List.mem_singleton_self row) (fun _ => none) fallenRest
      [.directional (loneStrategy shippedDirectionalExpiry .btc).config] (List.nodup_singleton _)
      (loneStrategy shippedDirectionalExpiry .btc) (List.mem_singleton_self _) true report shown
      (ok_of_toOption _ _ hanswer) (hshown ▸ List.mem_singleton_self shown)
      (hshows.1 ▸ hfound) ⟨hdirectional, signal, hsignal, hintended.trans hshows.1.symm⟩
      breakoutMarket.chain breakoutMarket.now { position := position } fallenMarket hview (9 / 10) 1
      ⟨hshows.2.1.symm, hshows.1 ▸ rfl, hshows.2.2.1, hentry.trans hpremium,
        hshows.2.2.2⟩ hquiet).2 hflags.1).mpr ⟨hflags.2, by norm_num⟩⟩

end MainLoop

end OptionsBot
