import OptionsBot.Core.LiveTick
import OptionsBot.Core.RecordTrack
import OptionsBot.Lib.Run
import OptionsBot.Theory.RestartedTrail

/-!
# The Peak of a Closed Trade

The exit engine measures the profit of a directional trade at every tick that quotes its
first leg, and its record keeps the greatest. The notes get the record's peak at the end of
the tick, and a close writes the peak of the notes to the column.

So the column has the peak of the ticks before the close. A profit at the closing tick comes
too late, and on a trade that closes at its first tick there is no peak at all. A record
starts at zero, so a trade that was never in profit has a peak of zero.

## Main definitions

* `tickPnl`: The profit of a trade at the prices of a tick.
* `RecordTrack.observed`, `observedAlong`: What the engine observes at a tick, and along ticks.
* `RecordTrack.Fresh`: A directional trade that no tick has seen.
* `PeakRecorded`: The column is the greatest profit observed, and the notes' peak never falls.
* `PeakedBefore`: The greatest profit was observed in time.

## Theorems

* `carryOut_cases`: What a directive does to the peaks.
* `max_peakOf`: The peak that a tick leaves in the notes.
* `Held.run`: What the ticks before the close leave.
* `Held.closing`: What the close writes.
* `notes_along`: The peak in the notes never falls.
* `peakRecorded_iff`: When the column has the greatest profit observed.
-/

namespace OptionsBot

-- The sample runs below compute with rationals.
attribute [local semireducible] Rat.add Rat.sub Rat.mul Rat.inv

/-- The profit of a trade at the price that a tick has for its first leg. -/
def tickPnl (trade : Trade) (legs : List Leg) (market : MarketState) : Option ℚ :=
  match legs, trade.premiumPaidInr with
  | leg :: _, some entry =>
    (market.quoteMid leg.symbol).map (fun mid => (mid - entry) * trade.lots)
  | _, _ => none

/-- The view of a trade has the trade's profit. -/
theorem view_profit (trade : Trade) (legs : List Leg) (chain : ChainCache) (now : DateTime)
    (market : MarketState) (position : PositionState)
    (hview : tradeToPositionState trade legs chain now = .ok position) :
    position.profitAt market = tickPnl trade legs market := by
  rcases (tradeToPositionState_ok_iff _ _ _ _ _).mp hview with ⟨expiry, _, rfl⟩
  unfold PositionState.profitAt tickPnl
  -- A profit takes a leg and a premium.
  cases legs with
  | nil => rfl
  | cons leg rest =>
      dsimp only [List.map_cons]
      cases trade.premiumPaidInr with
      | none => rfl
      | some entry => rfl

/-- Whether a trade has a view is up to its expiry and its legs. -/
theorem view_of_view (trade trade' : Trade) (legs : List Leg) (chain chain' : ChainCache)
    (now now' : DateTime) (position : PositionState) (hexpiry : trade'.expiry = trade.expiry)
    (hview : tradeToPositionState trade legs chain now = .ok position) :
    ∃ position', tradeToPositionState trade' legs chain' now' = .ok position' := by
  have hok : ∀ expiry, tradeExpiry trade legs now = .ok expiry →
      ∃ expiry', tradeExpiry trade' legs now' = .ok expiry' := by
    intro expiry h
    unfold tradeExpiry at h ⊢
    rw [hexpiry]
    cases htrade : trade.expiry with
    | some e => exact ⟨e, rfl⟩
    | none =>
        rw [htrade] at h
        cases legs with
        | nil => exact ⟨now', rfl⟩
        | cons leg rest =>
            simp only [expiryFromLegSymbol] at h ⊢
            cases hparse : parseSymbol leg.symbol with
            | error err =>
                rw [hparse] at h
                cases h
            | ok parsed => exact ⟨_, rfl⟩
  rcases (tradeToPositionState_ok_iff _ _ _ _ _).mp hview with ⟨expiry, h, _⟩
  rcases hok expiry h with ⟨expiry', h'⟩
  exact ⟨_, (tradeToPositionState_ok_iff _ _ _ _ _).mpr ⟨expiry', h', rfl⟩⟩

namespace RecordTrack

variable (s : RecordTrack) (engine : ExitEngine) (e : RecordTick)

/-- The profit that the exit engine observes at a tick: it looks at open directional trades, at
    the price of the first leg. -/
def observed : Option ℚ :=
  if s.record.trade.status ≠ .«open» then none
  else
    match tradeToPositionState s.record.trade s.legs e.market.chain e.market.now with
    | .error _ => none
    | .ok position =>
      match engine.registry.get position.strategyId with
      | .ok (.directional _) => position.profitAt e.market
      | _ => none

/-- The profits observed along some ticks. -/
def observedAlong (engine : ExitEngine) : RecordTrack → List RecordTick → List ℚ
  | _, [] => []
  | s, e :: rest => (s.observed engine e).toList ++ observedAlong engine (s.tick engine e) rest

/-- The row of a directional trade as its entry leaves it, before any tick. -/
structure Fresh (s : RecordTrack) : Prop where
  strategy : s.record.trade.strategyId = .directional
  isOpen : s.record.trade.status = .«open»
  note : s.record.trade.notes.peakPnlInr = none
  column : s.record.peakPnlInr = none
  runtime : s.runtime = none

/-- After some ticks, the column has the greatest profit observed at any of them, and the peak
    in the notes has never fallen. -/
structure PeakRecorded (s : RecordTrack) (engine : ExitEngine) (ticks : List RecordTick) :
    Prop where
  column : (ticks.foldl (fun t e => t.tick engine e) s).record.peakPnlInr =
    (observedAlong engine s ticks).max?
  notes : Along (fun t e => t.tick engine e)
    (fun t e => ∀ p ∈ t.record.trade.notes.peakPnlInr,
      ∃ q ∈ (t.tick engine e).record.trade.notes.peakPnlInr, p ≤ q) s ticks

/-- The profits at the prices of some ticks. -/
def pnls (ticks : List RecordTick) : List ℚ :=
  ticks.filterMap (fun e => tickPnl s.record.trade s.legs e.market)

/-- There was a tick before the closing one, and the greatest profit is zero, or positive and
    was seen before the closing tick. Or there was none, and the closing tick saw no profit. -/
def PeakedBefore (earlier : List RecordTick) (last : RecordTick) : Prop :=
  (earlier = [] ∧ tickPnl s.record.trade s.legs last.market = none) ∨
    (earlier ≠ [] ∧ ∃ m ∈ s.pnls (earlier ++ [last]), (∀ x ∈ s.pnls (earlier ++ [last]), x ≤ m) ∧
      (m = 0 ∨ 0 ≤ m ∧ m ∈ s.pnls earlier))

/-- A directive keeps the peaks and the columns, or closes the trade and writes the notes' peak
    to the column. -/
theorem carryOut_cases (d : ExitDirective) :
    ((s.carryOut e d).legs = s.legs ∧ (s.carryOut e d).record.peakPnlInr = s.record.peakPnlInr ∧
      ∃ stop, (s.carryOut e d).record.trade = { s.record.trade with
        notes := { s.record.trade.notes with currentTrailStopPrice := stop } }) ∨
    ((s.carryOut e d).record.trade.status = .closed ∧
      (s.carryOut e d).record.trade.notes = s.record.trade.notes ∧
      (s.carryOut e d).record.peakPnlInr =
        s.record.trade.notes.peakPnlInr.or s.record.peakPnlInr) := by
  unfold carryOut
  split
  · split
    · exact Or.inl ⟨rfl, rfl, s.record.trade.notes.currentTrailStopPrice, rfl⟩
    · simp only
      split_ifs
      · exact Or.inl ⟨rfl, rfl, s.record.trade.notes.currentTrailStopPrice, rfl⟩
      · exact Or.inr ⟨rfl, rfl, rfl⟩
  · split_ifs
    · exact Or.inl ⟨rfl, rfl, s.record.trade.notes.currentTrailStopPrice, rfl⟩
    · exact Or.inl ⟨rfl, rfl, _, rfl⟩
  · exact Or.inl ⟨rfl, rfl, s.record.trade.notes.currentTrailStopPrice, rfl⟩

/-- A directive keeps the peak in the notes. -/
theorem carryOut_note (d : ExitDirective) :
    (s.carryOut e d).record.trade.notes.peakPnlInr = s.record.trade.notes.peakPnlInr := by
  rcases s.carryOut_cases e d with ⟨_, _, stop, htrade⟩ | ⟨_, hnotes, _⟩
  · rw [htrade]
  · rw [hnotes]

theorem carryOuts_note (directives : List ExitDirective) :
    (directives.foldl (fun t d => t.carryOut e d) s).record.trade.notes.peakPnlInr =
      s.record.trade.notes.peakPnlInr := by
  induction directives generalizing s with
  | nil => rfl
  | cons d rest ih => rw [List.foldl_cons, ih, carryOut_note]

/-- A tick with a view steps the engine and carries one directive out, and then refreshes the
    notes with the peak of the engine's record. -/
theorem tick_of_view (self : DirectionalStrategy)
    (hget : engine.registry.get .directional = .ok (.directional self))
    (hdir : s.record.trade.strategyId = .directional)
    (hopen : s.record.trade.status = .«open») (position : PositionState)
    (hview : tradeToPositionState s.record.trade s.legs e.market.chain e.market.now =
      .ok position) :
    ∃ next d, next.position = (s.toTrack.seen self position e.market).position ∧
      next.peakPnlInr = (s.toTrack.seen self position e.market).peakPnlInr ∧
      s.tick engine e =
        { ({ s with runtime := some next } : RecordTrack).carryOut e d with
          record := refreshOpenTradeRecord s.record.trade s.legs e.market.chain
            (indicatorSnapshotForTrade s.record.trade e.market e.lastTs) e.wallet
            (some (TradeTrack.peakOf next))
            (({ s with runtime := some next } : RecordTrack).carryOut e d).record } := by
  rcases TradeTrack.tick_managed s.toTrack engine self (e.toTrackTick
    { navNow := 0, navOpenToday := 0, navOpenWeek := 0, peakNav := 0 }) hget hdir position hview
    with ⟨next, d, hstep, hposition, hpeak⟩
  refine ⟨next, d, hposition, hpeak, ?_⟩
  unfold tick
  rw [if_neg (not_not.mpr hopen), hview]
  dsimp only
  rw [show engine.step (s.toTrack.load position) e.market = .ok (next, [d]) from hstep]
  rfl

/-- The peak in the notes after a tick that observes a profit, or none. -/
def noteAfter (note pnl : Option ℚ) : ℚ := pnl.elim (note.getD 0) (max (note.getD 0))

/-- The peak a tick leaves in the notes, if the notes had the peak of the record before. -/
theorem max_peakOf (self : DirectionalStrategy) (position : PositionState)
    (next : PositionRuntime) (market : MarketState) (track : TradeTrack)
    (hnoted : track.Noted) (hnonneg : ∀ p ∈ track.trade.notes.peakPnlInr, 0 ≤ p)
    (hshown : position.peakPnlInr = track.trade.notes.peakPnlInr)
    (hposition : next.position = (track.seen self position market).position)
    (hpeak : next.peakPnlInr = (track.seen self position market).peakPnlInr) :
    max (track.trade.notes.peakPnlInr.getD (TradeTrack.peakOf next)) (TradeTrack.peakOf next) =
      noteAfter track.trade.notes.peakPnlInr (position.profitAt market) := by
  rcases track.seen_eq self position market with ⟨hseen, hseenPeak, _⟩
  have hzero : track.trade.notes.peakPnlInr = none → track.peakOnRecord = 0 := fun hnone => by
    rcases hnoted.noted with hzero | ⟨peak, hpeak, _⟩
    · exact hzero
    · rw [hnone] at hpeak
      cases hpeak
  have hle : ∀ p, track.trade.notes.peakPnlInr = some p → track.peakOnRecord ≤ p := fun p hp => by
    rcases hnoted.noted with hzero | ⟨peak, hpeak, hle⟩
    · rw [hzero]
      exact hnonneg p hp
    · cases hp.symm.trans hpeak
      exact hle
  unfold TradeTrack.peakOf noteAfter
  rw [hposition, hpeak, hseen, hseenPeak]
  dsimp only
  rw [hshown]
  cases hprofit : position.profitAt market with
  | none =>
      cases hnote : track.trade.notes.peakPnlInr with
      | none =>
          dsimp only [Option.getD_none, Option.elim_none, orFloat]
          rw [hzero hnote, max_self, max_self]
      | some p =>
          dsimp only [Option.getD_some, Option.elim_none]
          rw [orFloat_some_zero, max_eq_right (hle p hnote), max_self]
  | some pnl =>
      dsimp only [Option.elim_some]
      rw [orFloat_some_zero, max_self]
      cases hnote : track.trade.notes.peakPnlInr with
      | none =>
          rw [Option.getD_none, Option.getD_none, max_self, hzero hnote]
      | some p =>
          rw [Option.getD_some, Option.getD_some, ← max_assoc, max_eq_left (hle p hnote)]

/-- A tick leaves a row alone that is not open. -/
theorem tick_not_open (h : s.record.trade.status ≠ .«open») :
    (s.tick engine e).record = s.record := by
  unfold tick
  rw [if_pos h]

theorem run_not_open (ticks : List RecordTick) (h : s.record.trade.status ≠ .«open») :
    (ticks.foldl (fun t e => t.tick engine e) s).record = s.record := by
  induction ticks generalizing s with
  | nil => rfl
  | cons e rest ih =>
      have hrow := s.tick_not_open engine e h
      rw [List.foldl_cons, ih (s.tick engine e) (by rw [hrow]; exact h), hrow]

/-- An open directional trade between two ticks, with the columns of its start, no peak in its
    own column, and the peak of the engine's record in its notes. -/
structure Held (start s : RecordTrack) (peak : Option ℚ) : Prop where
  isOpen : s.record.trade.status = .«open»
  strategy : s.record.trade.strategyId = .directional
  expiry : s.record.trade.expiry = start.record.trade.expiry
  premium : s.record.trade.premiumPaidInr = start.record.trade.premiumPaidInr
  lots : s.record.trade.lots = start.record.trade.lots
  legs : s.legs = start.legs
  column : s.record.peakPnlInr = none
  note : s.record.trade.notes.peakPnlInr = peak
  nonneg : ∀ p ∈ peak, 0 ≤ p
  noted : s.toTrack.Noted

theorem Fresh.held (h : s.Fresh) : Held s s none where
  isOpen := h.isOpen
  strategy := h.strategy
  expiry := rfl
  premium := rfl
  lots := rfl
  legs := rfl
  column := h.column
  note := h.note
  nonneg := fun _ hp => nomatch hp
  noted := TradeTrack.noted_of_none s.toTrack h.runtime

section Run

variable (start : RecordTrack) (self : DirectionalStrategy)
  (hget : engine.registry.get .directional = .ok (.directional self))
  (hview : ∃ chain now position,
    tradeToPositionState start.record.trade start.legs chain now = .ok position)

theorem noteAfter_nonneg (note pnl : Option ℚ) (h : ∀ p ∈ note, 0 ≤ p) :
    0 ≤ noteAfter note pnl := by
  have hnote : 0 ≤ note.getD 0 := by
    cases note with
    | none => exact le_rfl
    | some p => exact h p rfl
  cases pnl with
  | none => exact hnote
  | some pnl => exact hnote.trans (le_max_left _ _)

include hview in
/-- A trade that is held has a view at every tick. -/
theorem Held.view (note : Option ℚ) (h : Held start s note) :
    ∃ position, tradeToPositionState s.record.trade s.legs e.market.chain e.market.now =
      .ok position := by
  rcases hview with ⟨chain, now, position, hstart⟩
  rw [h.legs]
  exact view_of_view _ _ _ _ _ _ _ position h.expiry hstart

theorem Held.pnl (note : Option ℚ) (h : Held start s note) (market : MarketState) :
    tickPnl s.record.trade s.legs market = tickPnl start.record.trade start.legs market := by
  unfold tickPnl
  rw [h.premium, h.lots, h.legs]

include hget hview in
/-- What the engine observes of a trade that is held is the profit at the tick's prices. -/
theorem Held.observed (note : Option ℚ) (h : Held start s note) :
    s.observed engine e = tickPnl start.record.trade start.legs e.market := by
  rcases h.view s e start hview note with ⟨position, hposition⟩
  have hid := (tradeToPositionState_eq _ _ _ _ _ hposition).1
  unfold RecordTrack.observed
  rw [if_neg (not_not.mpr h.isOpen), hposition]
  dsimp only
  rw [hid, h.strategy, hget]
  dsimp only
  rw [view_profit _ _ _ _ _ _ hposition, h.pnl s start note]

include hget hview in
/-- A tick that leaves the trade open notes the profit it has observed. -/
theorem Held.tick (note : Option ℚ) (h : Held start s note)
    (hopen : (s.tick engine e).record.trade.status = .«open») :
    Held start (s.tick engine e)
      (some (noteAfter note (tickPnl start.record.trade start.legs e.market))) := by
  rcases h.view s e start hview note with ⟨position, hposition⟩
  rcases s.tick_of_view engine e self hget h.strategy h.isOpen position hposition with
    ⟨next, d, hnext, hpeak, htick⟩
  have hnoteAfter := max_peakOf self position next e.market s.toTrack h.noted
    (fun p hp => h.nonneg p (by rw [← h.note]; exact hp))
    (TradeTrack.view_peak _ _ _ _ _ hposition) hnext hpeak
  rw [view_profit _ _ _ _ _ _ hposition, show s.toTrack.trade = s.record.trade from rfl,
    h.pnl s start, h.note] at hnoteAfter
  have hnoted := (TradeTrack.tick_noted s.toTrack engine self (e.toTrackTick
    { navNow := 0, navOpenToday := 0, navOpenWeek := 0, peakNav := 0 }) hget h.strategy h.noted).2
  rw [← s.tick_toTrack engine e] at hnoted
  rcases ({ s with runtime := some next } : RecordTrack).carryOut_cases e d with
    ⟨hlegs, hcolumn, stop, htrade⟩ | ⟨hclosed, _⟩
  · have hrow : (s.tick engine e).record.trade = { s.record.trade with
        notes := { s.record.trade.notes with
          currentTrailStopPrice := stop
          peakPnlInr := some (noteAfter note
            (tickPnl start.record.trade start.legs e.market)) } } := by
      rw [htick]
      simp only [refreshOpenTradeRecord, htrade, Option.some_or]
      rw [h.note, hnoteAfter]
    refine ⟨hopen, ?_, ?_, ?_, ?_, ?_, ?_, ?_, ?_, hnoted⟩
    · rw [hrow]; exact h.strategy
    · rw [hrow]; exact h.expiry
    · rw [hrow]; exact h.premium
    · rw [hrow]; exact h.lots
    · rw [htick]; exact hlegs.trans h.legs
    · rw [htick]; exact hcolumn.trans h.column
    · rw [hrow]
    · intro p hp
      rw [← Option.some.inj hp]
      exact noteAfter_nonneg note _ h.nonneg
  · -- A row that is closed by the directive is not open after the refresh.
    rw [htick] at hopen
    simp only [refreshOpenTradeRecord, Option.some_or] at hopen
    rw [hclosed] at hopen
    cases hopen

/-- The peak in the notes after some ticks. -/
def peakAfter (ticks : List RecordTick) (note : Option ℚ) : Option ℚ :=
  ticks.foldl (fun n e =>
    some (noteAfter n (tickPnl start.record.trade start.legs e.market))) note

include hget hview in
/-- Ticks that leave the trade open note the profits they have observed, one by one. -/
theorem Held.run (ticks : List RecordTick) (note : Option ℚ) (h : Held start s note)
    (hopen : (ticks.foldl (fun t e => t.tick engine e) s).record.trade.status = .«open») :
    Held start (ticks.foldl (fun t e => t.tick engine e) s) (start.peakAfter ticks note) ∧
      observedAlong engine s ticks = start.pnls ticks := by
  induction ticks generalizing s note with
  | nil => exact ⟨h, rfl⟩
  | cons e rest ih =>
      rw [List.foldl_cons] at hopen ⊢
      -- A tick that closed the trade would leave it closed to the end.
      have hstill : (s.tick engine e).record.trade.status = .«open» := by
        by_contra hclosed
        rw [run_not_open _ engine rest hclosed] at hopen
        exact hclosed hopen
      rcases ih (s.tick engine e) _ (h.tick s engine e start self hget hview note hstill) hopen with
        ⟨hheld, hobserved⟩
      refine ⟨hheld, ?_⟩
      rw [observedAlong, hobserved, h.observed s engine e start self hget hview note, pnls, pnls,
        List.filterMap_cons]
      cases tickPnl start.record.trade start.legs e.market with
      | none => rfl
      | some pnl => rfl

include hget hview in
/-- The close writes the peak that the notes had before its tick. -/
theorem Held.closing (last : RecordTick) (note : Option ℚ) (h : Held start s note)
    (hclosed : (s.tick engine last).record.trade.status = .closed) :
    (s.tick engine last).record.peakPnlInr = note := by
  rcases h.view s last start hview note with ⟨position, hposition⟩
  rcases s.tick_of_view engine last self hget h.strategy h.isOpen position hposition with
    ⟨next, d, _, _, htick⟩
  rcases ({ s with runtime := some next } : RecordTrack).carryOut_cases last d with
    ⟨_, _, stop, htrade⟩ | ⟨_, _, hcolumn⟩
  · -- A directive that keeps the columns keeps the trade open too.
    rw [htick] at hclosed
    simp only [refreshOpenTradeRecord, Option.some_or] at hclosed
    rw [htrade] at hclosed
    exact absurd (h.isOpen.symm.trans hclosed) TradeStatus.noConfusion
  · rw [htick]
    simp only [refreshOpenTradeRecord]
    rw [hcolumn]
    simp only [h.note, h.column, Option.or_none]

end Run

/-- A tick never lowers the peak in the notes. -/
theorem tick_note_le (p : ℚ) (hp : p ∈ s.record.trade.notes.peakPnlInr) :
    ∃ q ∈ (s.tick engine e).record.trade.notes.peakPnlInr, p ≤ q := by
  unfold tick
  split_ifs
  · exact ⟨p, hp, le_rfl⟩
  · split
    · exact ⟨p, hp, le_rfl⟩
    · split
      · exact ⟨p, hp, le_rfl⟩
      · next next directives _ =>
        simp only [refreshOpenTradeRecord, Option.some_or]
        refine ⟨_, rfl, ?_⟩
        rw [carryOuts_note, Option.mem_def.mp hp, Option.getD_some]
        exact le_max_left _ _

/-- Ticks that close a directional trade have found it with a view and its strategy
    registered. -/
theorem stepped_of_closed (ticks : List RecordTick)
    (hdir : s.record.trade.strategyId = .directional)
    (hopen : s.record.trade.status = .«open»)
    (hclosed : (ticks.foldl (fun t e => t.tick engine e) s).record.trade.status = .closed) :
    (∃ self, engine.registry.get .directional = .ok (.directional self)) ∧
      ∃ chain now position,
        tradeToPositionState s.record.trade s.legs chain now = .ok position := by
  induction ticks generalizing s with
  | nil => exact absurd (hopen.symm.trans hclosed) TradeStatus.noConfusion
  | cons e rest ih =>
      cases hview : tradeToPositionState s.record.trade s.legs e.market.chain e.market.now with
      | error err =>
          -- Without a view the tick changes nothing, so a later one has closed the trade.
          have hsame : s.tick engine e = s := by
            unfold tick
            rw [if_neg (not_not.mpr hopen), hview]
          rw [List.foldl_cons, hsame] at hclosed
          exact ih s hdir hopen hclosed
      | ok position =>
          refine ⟨?_, _, _, position, hview⟩
          cases hget : engine.registry.get .directional with
          | ok strategy =>
              have hid := engine.registry.get_id .directional strategy hget
              cases strategy with
              | directional self => exact ⟨self, rfl⟩
              | creditVertical _ => cases hid
              | longStraddle _ => cases hid
          | error err =>
              -- Without the strategy no tick of the trade gets past the engine's step.
              have hsame : s.tick engine e = s := by
                unfold tick
                rw [if_neg (not_not.mpr hopen), hview]
                dsimp only
                unfold ExitEngine.step
                rw [TradeTrack.load_position, (tradeToPositionState_eq _ _ _ _ _ hview).1, hdir,
                  hget]
              rw [List.foldl_cons, hsame] at hclosed
              rcases (ih s hdir hopen hclosed).1 with ⟨self, hself⟩
              cases hget.symm.trans hself

theorem observedAlong_append (xs ys : List RecordTick) :
    observedAlong engine s (xs ++ ys) = observedAlong engine s xs ++
      observedAlong engine (xs.foldl (fun t e => t.tick engine e) s) ys := by
  induction xs generalizing s with
  | nil => rfl
  | cons e rest ih =>
      rw [List.cons_append, observedAlong, ih, observedAlong, List.append_assoc, List.foldl_cons]

/-- Along any ticks, the peak in the notes never falls. -/
theorem notes_along (ticks : List RecordTick) :
    Along (fun t e => t.tick engine e)
      (fun t e => ∀ p ∈ t.record.trade.notes.peakPnlInr,
        ∃ q ∈ (t.tick engine e).record.trade.notes.peakPnlInr, p ≤ q) s ticks := by
  induction ticks generalizing s with
  | nil => trivial
  | cons e rest ih => exact ⟨s.tick_note_le engine e, ih (s.tick engine e)⟩

theorem peakAfter_some (start : RecordTrack) (ticks : List RecordTick) (p : ℚ) :
    start.peakAfter ticks (some p) = some ((start.pnls ticks).foldl max p) := by
  induction ticks generalizing p with
  | nil => rfl
  | cons e rest ih =>
      rw [peakAfter, List.foldl_cons, ← peakAfter, ih, pnls, pnls, List.filterMap_cons]
      cases tickPnl start.record.trade start.legs e.market with
      | none => rfl
      | some pnl => rfl

/-- After a tick, the notes have the greatest profit so far, or zero. -/
theorem peakAfter_none (start : RecordTrack) (ticks : List RecordTick) (hne : ticks ≠ []) :
    start.peakAfter ticks none = some ((start.pnls ticks).foldl max 0) := by
  rw [← peakAfter_some]
  cases ticks with
  | nil => exact absurd rfl hne
  | cons e rest => rfl

end RecordTrack

/-- A running maximum is the start or an item, and no less than either. -/
theorem foldl_max_spec (xs : List ℚ) (p : ℚ) :
    (xs.foldl max p = p ∨ xs.foldl max p ∈ xs) ∧ p ≤ xs.foldl max p ∧
      ∀ x ∈ xs, x ≤ xs.foldl max p := by
  induction xs generalizing p with
  | nil => exact ⟨Or.inl rfl, le_rfl, fun _ hx => absurd hx List.not_mem_nil⟩
  | cons x rest ih =>
      rcases ih (max p x) with ⟨hmem, hle, hall⟩
      rw [List.foldl_cons]
      refine ⟨?_, (le_max_left p x).trans hle, fun y hy => ?_⟩
      · rcases hmem with heq | hrest
        · rw [heq]
          rcases max_choice p x with hp | hx
          · exact Or.inl hp
          · exact Or.inr (List.mem_cons.mpr (Or.inl hx))
        · exact Or.inr (List.mem_cons_of_mem x hrest)
      · rcases List.mem_cons.mp hy with rfl | hrest
        · exact (le_max_right p y).trans hle
        · exact hall y hrest

/-- The greatest of some profits is the running maximum from zero over the first of them exactly
    if it is zero, or not negative and one of the first. -/
theorem max_eq_running_iff (first rest : List ℚ) :
    some (first.foldl max 0) = (first ++ rest).max? ↔
      ∃ m ∈ first ++ rest, (∀ x ∈ first ++ rest, x ≤ m) ∧ (m = 0 ∨ 0 ≤ m ∧ m ∈ first) := by
  rcases foldl_max_spec first 0 with ⟨hmem, hzero, hall⟩
  rw [eq_comm, List.max?_eq_some_iff]
  constructor
  · rintro ⟨hin, hle⟩
    exact ⟨_, hin, hle, hmem.imp id (fun h => ⟨hzero, h⟩)⟩
  · rintro ⟨m, hin, hle, hm⟩
    -- Such a greatest profit is the running maximum: each bounds the other.
    have heq : first.foldl max 0 = m := by
      refine le_antisymm ?_ ?_
      · rcases hmem with h0 | hfirst
        · rw [h0]
          rcases hm with rfl | ⟨hm, _⟩
          · exact le_rfl
          · exact hm
        · exact hle _ (List.mem_append_left _ hfirst)
      · rcases hm with rfl | ⟨_, hfirst⟩
        · exact hzero
        · exact hall m hfirst
    rw [heq]
    exact ⟨hin, hle⟩

/-- The column of a closed directional trade has the greatest profit observed exactly if that
    was observed in time. -/
theorem peakRecorded_iff (s : RecordTrack) (engine : ExitEngine) (earlier : List RecordTick)
    (last : RecordTick) (hfresh : s.Fresh)
    (hopen : (earlier.foldl (fun t e => t.tick engine e) s).record.trade.status = .«open»)
    (hclosed : ((earlier ++ [last]).foldl (fun t e => t.tick engine e) s).record.trade.status =
      .closed) :
    s.PeakRecorded engine (earlier ++ [last]) ↔ s.PeakedBefore earlier last := by
  rcases s.stepped_of_closed engine _ hfresh.strategy hfresh.isOpen hclosed with
    ⟨⟨self, hget⟩, hview⟩
  rcases hfresh.held.run s engine s self hget hview earlier none hopen with ⟨hheld, hobserved⟩
  rw [List.foldl_append, List.foldl_cons, List.foldl_nil] at hclosed
  have hcolumn := hheld.closing _ engine s self hget hview last _ hclosed
  have hall : RecordTrack.observedAlong engine s (earlier ++ [last]) =
      s.pnls earlier ++ (tickPnl s.record.trade s.legs last.market).toList := by
    rw [RecordTrack.observedAlong_append, hobserved, RecordTrack.observedAlong,
      RecordTrack.observedAlong, hheld.observed _ engine last s self hget hview, List.append_nil]
  have hpnls : s.pnls (earlier ++ [last]) =
      s.pnls earlier ++ (tickPnl s.record.trade s.legs last.market).toList := by
    rw [RecordTrack.pnls, RecordTrack.pnls, List.filterMap_append]
    cases hpnl : tickPnl s.record.trade s.legs last.market with
    | none => simp only [List.filterMap_cons, List.filterMap_nil, hpnl, Option.toList_none]
    | some pnl => simp only [List.filterMap_cons, List.filterMap_nil, hpnl, Option.toList_some]
  have hiff : s.PeakRecorded engine (earlier ++ [last]) ↔
      s.peakAfter earlier none =
        (s.pnls earlier ++ (tickPnl s.record.trade s.legs last.market).toList).max? := by
    rw [← hcolumn, ← hall]
    constructor
    · intro h
      rw [← h.column, List.foldl_append, List.foldl_cons, List.foldl_nil]
    · intro h
      refine ⟨?_, RecordTrack.notes_along s engine _⟩
      rw [List.foldl_append, List.foldl_cons, List.foldl_nil]
      exact h
  rw [hiff, RecordTrack.PeakedBefore, hpnls]
  rcases eq_or_ne earlier [] with rfl | hne
  · -- A trade that closes at its first tick has no peak in its notes yet.
    rw [or_iff_left (fun h => h.1 rfl)]
    cases tickPnl s.record.trade s.legs last.market with
    | none => exact iff_of_true rfl ⟨rfl, rfl⟩
    | some pnl => exact iff_of_false (fun h => nomatch h) (fun h => nomatch h.2)
  · rw [s.peakAfter_none earlier hne, max_eq_running_iff]
    exact ⟨fun h => Or.inr ⟨hne, h⟩, fun h => h.elim (fun h => absurd h.1 hne) And.right⟩

/-- Three puts bought at 100, before any tick. -/
def putRecord : RecordTrack :=
  { record := { trade := TradeTrack.putTrade.trade, mode := .live }
    legs := TradeTrack.putTrade.legs }

/-- The put at a price, with an hour left or a day, and an exchange that fills every exit. -/
def soldTick (mid : ℚ) (day : Nat) : RecordTick :=
  { market :=
      { (optionTick mid).market with now := combine (ymdToOrdinal 2026 5 day) (hourMinute 9 0) }
    lastTs := fun _ _ => combine (ymdToOrdinal 2026 5 day) (hourMinute 9 0)
    execute := fun req => { success := true, tradeId := req.tradeId } }

/-- The put has been at 120, and is closed before its expiry at 110. -/
theorem peakRecorded_put :
    putRecord.PeakRecorded trailEngine ([soldTick 120 12] ++ [soldTick 110 13]) := by
  refine (peakRecorded_iff putRecord trailEngine [soldTick 120 12] (soldTick 110 13)
    ⟨rfl, rfl, rfl, rfl, rfl⟩ (by decide +kernel) (by decide +kernel)).mpr
      (Or.inr ⟨List.cons_ne_nil _ _, 60, ?_⟩)
  decide +kernel

/-- The put has been at 120, and is closed before its expiry at 150. -/
theorem peak_of_close_missed :
    ([soldTick 120 12, soldTick 150 13].foldl (fun t e => t.tick trailEngine e)
        putRecord).record.peakPnlInr = some 60 ∧
      RecordTrack.observedAlong trailEngine putRecord [soldTick 120 12, soldTick 150 13] =
        [60, 150] ∧
      ¬ ∀ (s : RecordTrack) (engine : ExitEngine) (earlier : List RecordTick) (last : RecordTick),
        s.Fresh → (earlier.foldl (fun t e => t.tick engine e) s).record.trade.status = .«open» →
        ((earlier ++ [last]).foldl (fun t e => t.tick engine e) s).record.trade.status = .closed →
        s.PeakRecorded engine (earlier ++ [last]) := by
  refine ⟨by decide +kernel, by decide +kernel, fun h => ?_⟩
  have hcolumn := (h putRecord trailEngine [soldTick 120 12] (soldTick 150 13)
    ⟨rfl, rfl, rfl, rfl, rfl⟩ (by decide +kernel) (by decide +kernel)).column
  exact absurd hcolumn (by decide +kernel)

end OptionsBot
