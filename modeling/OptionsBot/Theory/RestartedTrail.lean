import OptionsBot.Core.Tick
import OptionsBot.Theory.Ratchet

/-!
# What a Restart Forgets of a Trail

The peak profit and the trailing stop of a trade are kept twice, in the engine's
record and in the notes. A restart keeps the notes and loses the record, and the
view of the trade is rebuilt from the notes. But before `manage` sees the view,
the refresh writes the record's peak and stop over it, and the record is new.

The uninterrupted engine and the restarted one are followed side by side over the
same ticks. They stay alike in rows, the restarted record knowing no more profit
than the other, as long as three things hold at every tick: no stop had been set
before the restart, a priced tick finds the profit back at the old peak, and a
stop that is set now is set where the other sets it. These are exactly the ticks
at which `manage` sees the same and the directives are the same.

## Main definitions

* `PositionState.profitAt`: The profit of a position at a tick's prices.
* `SameLevel`: Two records set a proposed stop alike.
* `TradeTrack.managed`: The position `manage` sees at a tick.
* `SameTick`, `SameRun`: The two engines decide alike.
* `Recovered`, `RecoveredRun`: The restart has lost nothing that matters.
* `Alike`: The two engines' states after a restart.
* `Noted`: The notes have the peak of the record.

## Theorems

* `refreshed_eq`: The position `manage` sees, and the record's peak.
* `sameLevel_iff`: The levels two records set a proposed stop at.
* `sameTick_iff`: When two engines that are alike decide alike.
* `tick_noted`: Every tick notes the peak.
* `alike_tick`: Engines that decide alike stay alike.
* `restart_same_iff`: Exactly when a restart changes nothing.
-/

namespace OptionsBot

-- The sample runs below compute with rationals.
attribute [local semireducible] Rat.add Rat.sub Rat.mul Rat.inv

/-- The profit of a position at the tick's price of its first leg. -/
def PositionState.profitAt (position : PositionState) (market : MarketState) : Option ℚ :=
  match position.legStates, position.entryPremiumInr with
  | leg :: _, some entry =>
    (market.quoteMid leg.symbol).map (fun mid => (mid - entry) * position.lots)
  | _, _ => none

/-- The position with the tick's price of its first leg. -/
def PositionState.pricedAt (position : PositionState) (market : MarketState) : PositionState :=
  match position.legStates with
  | [] => position
  | leg :: rest =>
    match market.quoteMid leg.symbol with
    | none => position
    | some mid => { position with legStates := { leg with currentMid := some mid } :: rest }

/-- The level the underlying's extreme implies does not reach past a proposed stop. -/
def Slack (self : DirectionalStrategy) (entry : ℚ) (runtime : PositionRuntime) : Prop :=
  ∀ level, chandelierLevel self runtime = some level →
    if runtime.position.IsCall then level ≤ entry else entry ≤ level

/-- The underlying's extremes on two records imply the same level, or none that
    reaches past a proposed stop. -/
def SameLevel (self : DirectionalStrategy) (entry : ℚ) (a b : PositionRuntime) : Prop :=
  chandelierLevel self a = chandelierLevel self b ∨ Slack self entry a ∧ Slack self entry b

theorem maybeApplyChandelier_level (self : DirectionalStrategy) (entry : ℚ)
    (runtime : PositionRuntime) :
    ExitEngine.maybeApplyChandelier (.directional self) entry runtime =
      match chandelierLevel self runtime with
      | none => entry
      | some level =>
        if runtime.position.IsCall then max entry level else min entry level := by
  unfold ExitEngine.maybeApplyChandelier chandelierLevel
  rcases hatr : runtime.position.entryAtr with _ | atr
  · rfl
  · rcases hpeak : runtime.peakUnderlying with _ | peak
    · rfl
    · rcases hlegs : runtime.position.legStates with _ | ⟨leg, rest⟩
      · rfl
      · have hiff : runtime.position.IsCall ↔ leg.optionType = some .call := by
          unfold PositionState.IsCall
          rw [hlegs]
          exact Iff.rfl
        simp only [hiff]
        by_cases hcall : leg.optionType = some .call
        · simp only [if_pos hcall]
        · simp only [if_neg hcall]

/-- Two records of one position set a proposed stop alike just when the extremes
    imply the same level or none that reaches past it. -/
theorem sameLevel_iff (self : DirectionalStrategy) (entry : ℚ) (a b : PositionRuntime)
    (hcall : a.position.IsCall ↔ b.position.IsCall) :
    ExitEngine.maybeApplyChandelier (.directional self) entry a =
      ExitEngine.maybeApplyChandelier (.directional self) entry b ↔ SameLevel self entry a b := by
  rw [maybeApplyChandelier_level, maybeApplyChandelier_level]
  unfold SameLevel Slack
  rcases chandelierLevel self a with _ | x <;> rcases chandelierLevel self b with _ | y <;>
    by_cases hb : b.position.IsCall <;> simp [hcall, hb]
  all_goals grind

/-- What the refresh makes of a record: a new peak where the position has a profit,
    and a position that shows the record's peak there, and always its stop. -/
theorem refreshed_eq (self : DirectionalStrategy) (r : PositionRuntime) (market : MarketState) :
    (ExitEngine.refreshed (.directional self) r market).position =
        { r.position.pricedAt market with
          peakPnlInr := match r.position.profitAt market with
            | some pnl => some (max r.peakPnlInr pnl)
            | none => r.position.peakPnlInr
          currentTrailStopPrice := r.lastTrailStop } ∧
      (ExitEngine.refreshed (.directional self) r market).peakPnlInr =
        match r.position.profitAt market with
        | some pnl => max r.peakPnlInr pnl
        | none => r.peakPnlInr := by
  have hunder : ∀ x : PositionRuntime, (x.refreshUnderlying market).position = x.position ∧
      (x.refreshUnderlying market).peakPnlInr = x.peakPnlInr ∧
      (x.refreshUnderlying market).lastTrailStop = x.lastTrailStop := by
    intro x
    rcases x.refreshUnderlying_frame market with ⟨_, _, heq⟩
    rw [heq]
    exact ⟨rfl, rfl, rfl⟩
  unfold ExitEngine.refreshed ExitEngine.refreshPositionState PositionRuntime.refreshTrailStop
  simp only [hunder]
  unfold PositionRuntime.refreshLeg PositionState.pricedAt PositionState.profitAt
  -- By the first leg, its price, and the entry premium.
  rcases r with ⟨⟨_, _, _, _, _, _, entry, _, _, _, _, _, _, legs, _⟩, _, _, _, _, _, _, _⟩
  rcases legs with _ | ⟨leg, rest⟩
  · exact ⟨rfl, rfl⟩
  · rcases entry with _ | entry
    · simp only
      rcases market.quoteMid leg.symbol with _ | mid <;> exact ⟨rfl, rfl⟩
    · simp only
      rcases market.quoteMid leg.symbol with _ | mid <;> exact ⟨rfl, rfl⟩

namespace TradeTrack

variable (s : TradeTrack)

/-- The stop on the engine's record of the trade. -/
def stopOnRecord : Option ℚ := s.runtime.bind PositionRuntime.lastTrailStop

/-- The peak profit on the engine's record, zero on a new one. -/
def peakOnRecord : ℚ := (s.runtime.map PositionRuntime.peakPnlInr).getD 0

/-- The record `manage` is called with, for the view of a tick. -/
def seen (self : DirectionalStrategy) (position : PositionState) (market : MarketState) :
    PositionRuntime :=
  ExitEngine.refreshed (.directional self) (s.load position) market

/-- The position `manage` sees at a tick. -/
def managed (self : DirectionalStrategy) (market : MarketState) : Option PositionState :=
  if s.trade.status ≠ .«open» then none
  else
    match tradeToPositionState s.trade s.legs market.chain market.now with
    | .error _ => none
    | .ok position => some (s.seen self position market).position

theorem load_eq (position : PositionState) :
    (s.load position).position = position ∧ (s.load position).peakPnlInr = s.peakOnRecord ∧
      (s.load position).lastTrailStop = s.stopOnRecord := by
  unfold load peakOnRecord stopOnRecord
  rcases s.runtime with _ | r <;> exact ⟨rfl, rfl, rfl⟩

/-- The position `manage` sees: the view with the tick's price, the record's peak
    where there is a profit, and the record's stop. -/
theorem seen_eq (self : DirectionalStrategy) (position : PositionState) (market : MarketState) :
    (s.seen self position market).position =
        { position.pricedAt market with
          peakPnlInr := match position.profitAt market with
            | some pnl => some (max s.peakOnRecord pnl)
            | none => position.peakPnlInr
          currentTrailStopPrice := s.stopOnRecord } ∧
      (s.seen self position market).peakPnlInr =
        (match position.profitAt market with
        | some pnl => max s.peakOnRecord pnl
        | none => s.peakOnRecord) ∧
      (s.seen self position market).lastTrailStop = s.stopOnRecord := by
  rcases s.load_eq position with ⟨hposition, hpeak, hstop⟩
  have href := refreshed_eq self (s.load position) market
  have hlast := (refreshed_trailStop self (s.load position) market).1
  rw [hposition, hpeak, hstop] at href
  rw [hstop] at hlast
  exact ⟨href.1, href.2, hlast⟩

/-- The notes have the peak of the record, which is no loss. -/
structure Noted (s : TradeTrack) : Prop where
  nonneg : 0 ≤ s.peakOnRecord
  noted : s.peakOnRecord = 0 ∨
    ∃ peak, s.trade.notes.peakPnlInr = some peak ∧ s.peakOnRecord ≤ peak

theorem noted_of_none (h : s.runtime = none) : Noted s := by
  have hpeak : s.peakOnRecord = 0 := by
    unfold peakOnRecord
    rw [h]
    rfl
  exact ⟨hpeak.ge, Or.inl hpeak⟩

/-- Two engines with the same rows. The second record knows no more profit than the
    first, and has no stop or the same. -/
structure Alike (old new : TradeTrack) : Prop where
  trade : new.trade = old.trade
  legs : new.legs = old.legs
  nonneg : 0 ≤ new.peakOnRecord
  peak : new.peakOnRecord ≤ old.peakOnRecord
  stop : new.stopOnRecord = none ∨ new.stopOnRecord = old.stopOnRecord

theorem alike_of_records (old new : TradeTrack) (htrade : new.trade = old.trade)
    (hlegs : new.legs = old.legs)
    (hrecords : 0 ≤ (new.runtime.map PositionRuntime.peakPnlInr).getD 0 ∧
      (new.runtime.map PositionRuntime.peakPnlInr).getD 0 ≤
        (old.runtime.map PositionRuntime.peakPnlInr).getD 0 ∧
      (new.runtime.bind PositionRuntime.lastTrailStop = none ∨
        new.runtime.bind PositionRuntime.lastTrailStop =
          old.runtime.bind PositionRuntime.lastTrailStop)) : Alike old new where
  trade := htrade
  legs := hlegs
  nonneg := hrecords.1
  peak := hrecords.2.1
  stop := hrecords.2.2

theorem restart_alike (h : s.Noted) : Alike s s.restart where
  trade := rfl
  legs := rfl
  nonneg := le_rfl
  peak := h.nonneg
  stop := Or.inl rfl

/-- At a tick, `manage` sees the same peak and the same stop, and the engines pass on
    the same directives. -/
structure SameTick (engine : ExitEngine) (self : DirectionalStrategy) (old new : TradeTrack)
    (e : TrackTick) : Prop where
  peak : (new.managed self e.market).map PositionState.peakPnlInr =
    (old.managed self e.market).map PositionState.peakPnlInr
  stop : (new.managed self e.market).map PositionState.currentTrailStopPrice =
    (old.managed self e.market).map PositionState.currentTrailStopPrice
  directives : (new.tick engine e).2 = (old.tick engine e).2

/-- At a tick that manages the position: no stop was set, or one has been set since
    the restart; a price that gives a profit finds it back at the old peak; and where a
    stop is proposed, the underlying's extremes imply the same level, or none that
    reaches past the proposal. -/
def Recovered (self : DirectionalStrategy) (old new : TradeTrack) (e : TrackTick) : Prop :=
  old.trade.status = .«open» → ∀ position,
    tradeToPositionState old.trade old.legs e.market.chain e.market.now = .ok position →
      (old.stopOnRecord = none ∨ new.stopOnRecord ≠ none) ∧
      (∀ pnl, position.profitAt e.market = some pnl →
        old.peakOnRecord ≤ max new.peakOnRecord pnl) ∧
      ∀ entry, Action.trailTo entry ∈
          self.manage (old.seen self position e.market).position e.market →
        SameLevel self entry (new.seen self position e.market) (old.seen self position e.market)

/-- A tick of both engines. -/
def tickBoth (engine : ExitEngine) (both : TradeTrack × TradeTrack) (e : TrackTick) :
    TradeTrack × TradeTrack :=
  ((both.1.tick engine e).1, (both.2.tick engine e).1)

/-- The two engines decide alike at every tick. -/
def SameRun (engine : ExitEngine) (self : DirectionalStrategy) (old new : TradeTrack)
    (ticks : List TrackTick) : Prop :=
  Along (tickBoth engine) (fun both e => SameTick engine self both.1 both.2 e) (old, new) ticks

/-- The restart has lost nothing that matters at any tick. -/
def RecoveredRun (engine : ExitEngine) (self : DirectionalStrategy) (old new : TradeTrack)
    (ticks : List TrackTick) : Prop :=
  Along (tickBoth engine) (fun both e => Recovered self both.1 both.2 e) (old, new) ticks

section Tick

variable (engine : ExitEngine) (self : DirectionalStrategy) (old new : TradeTrack) (e : TrackTick)

/-- A trade is managed at a tick if it is open and has a view. -/
theorem managed_cases :
    s.managed self e.market = none ∨ s.trade.status = .«open» ∧ ∃ position,
      tradeToPositionState s.trade s.legs e.market.chain e.market.now = .ok position := by
  unfold managed
  by_cases hopen : s.trade.status = .«open»
  · rw [if_neg (not_not.mpr hopen)]
    rcases tradeToPositionState s.trade s.legs e.market.chain e.market.now with err | position
    · exact Or.inl rfl
    · exact Or.inr ⟨hopen, position, rfl⟩
  · rw [if_pos hopen]
    exact Or.inl rfl

/-- A tick that manages no position leaves the rows, and the record of an open trade. -/
theorem tick_unmanaged (h : s.managed self e.market = none) :
    (s.tick engine e).2 = [] ∧ (s.tick engine e).1.trade = s.trade ∧
      (s.tick engine e).1.legs = s.legs ∧
      (s.tick engine e).1.runtime = if s.trade.status = .«open» then s.runtime else none := by
  unfold managed at h
  unfold tick
  by_cases hopen : s.trade.status = .«open»
  · rw [if_neg (not_not.mpr hopen)] at h ⊢
    rw [if_pos hopen]
    rcases hview : tradeToPositionState s.trade s.legs e.market.chain e.market.now with
      err | position
    · exact ⟨rfl, rfl, rfl, rfl⟩
    · rw [hview] at h
      cases h
  · rw [if_pos hopen, if_neg hopen]
    exact ⟨rfl, rfl, rfl, rfl⟩

theorem Alike.view (h : Alike old new) (position : PositionState)
    (hview : tradeToPositionState old.trade old.legs e.market.chain e.market.now = .ok position) :
    tradeToPositionState new.trade new.legs e.market.chain e.market.now = .ok position := by
  rw [h.trade, h.legs]
  exact hview

theorem managed_of_view (hopen : s.trade.status = .«open») (position : PositionState)
    (hview : tradeToPositionState s.trade s.legs e.market.chain e.market.now = .ok position) :
    s.managed self e.market = some (s.seen self position e.market).position := by
  unfold managed
  rw [if_neg (not_not.mpr hopen), hview]

theorem managed_alike (h : Alike old new) (hnone : old.managed self e.market = none) :
    new.managed self e.market = none := by
  rcases managed_cases new self e with hnew | ⟨hopen, position, hview⟩
  · exact hnew
  · rw [h.trade] at hopen
    rw [h.trade, h.legs] at hview
    rw [managed_of_view old self e hopen position hview] at hnone
    cases hnone

/-- The view of a directional trade is stepped by its strategy. -/
theorem load_registered (hget : engine.registry.get .directional = .ok (.directional self))
    (hdir : s.trade.strategyId = .directional) (position : PositionState)
    (hview : tradeToPositionState s.trade s.legs e.market.chain e.market.now = .ok position) :
    engine.registry.get (s.load position).position.strategyId = .ok (.directional self) := by
  rw [(s.load_eq position).1, (tradeToPositionState_eq _ _ _ _ _ hview).1, hdir]
  exact hget

/-- Two records that show `manage` the same position, and set a proposed stop at the
    same level, pass on the same directive. -/
theorem step_pair (position : PositionState)
    (hold : engine.registry.get (old.load position).position.strategyId = .ok (.directional self))
    (hnew : engine.registry.get (new.load position).position.strategyId = .ok (.directional self))
    (hseen : (new.seen self position e.market).position =
      (old.seen self position e.market).position)
    (hstop : new.stopOnRecord = old.stopOnRecord)
    (hlevel : ∀ entry, Action.trailTo entry ∈
        self.manage (old.seen self position e.market).position e.market →
      ExitEngine.maybeApplyChandelier (.directional self) entry (new.seen self position e.market) =
        ExitEngine.maybeApplyChandelier (.directional self) entry
          (old.seen self position e.market)) :
    ∃ nextOld nextNew d,
      engine.step (old.load position) e.market = .ok (nextOld, [d]) ∧
      engine.step (new.load position) e.market = .ok (nextNew, [d]) ∧
      nextOld.position = (old.seen self position e.market).position ∧
      nextOld.peakPnlInr = (old.seen self position e.market).peakPnlInr ∧
      nextNew.position = (old.seen self position e.market).position ∧
      nextNew.peakPnlInr = (new.seen self position e.market).peakPnlInr ∧
      nextNew.lastTrailStop = nextOld.lastTrailStop := by
  have hlastOld := (old.seen_eq self position e.market).2.2
  have hlastNew := (new.seen_eq self position e.market).2.2
  have hsame : (new.seen self position e.market).lastTrailStop =
      (old.seen self position e.market).lastTrailStop := by
    rw [hlastNew, hlastOld, hstop]
  rcases step_plain engine self (old.load position) (old.seen self position e.market) e.market hold
    rfl with ⟨action, hmanage, hcases⟩
  rcases step_plain engine self (new.load position) (new.seen self position e.market) e.market hnew
    rfl with ⟨action', hmanage', hcases'⟩
  rw [hseen] at hmanage' hcases'
  have haction : action' = action := List.singleton_inj.mp (hmanage'.symm.trans hmanage)
  subst haction
  -- Both engines are in the same of the three cases.
  rcases hcases with ⟨trigger, rfl, hstep⟩ | ⟨entry, rfl, _, hstep⟩ | ⟨rfl, hstep⟩
  · rcases hcases' with ⟨trigger', htrigger, hstep'⟩ | ⟨_, hother, _⟩ | ⟨hother, _⟩
    · cases htrigger
      exact ⟨_, _, _, hstep, hstep', rfl, rfl, hseen, rfl, hsame⟩
    · cases hother
    · cases hother
  · rcases hcases' with ⟨_, hother, _⟩ | ⟨entry', hentry, _, hstep'⟩ | ⟨hother, _⟩
    · cases hother
    · cases hentry
      have hmem : Action.trailTo entry ∈
          self.manage (old.seen self position e.market).position e.market := by
        rw [hmanage]
        exact List.mem_singleton.mpr rfl
      rw [hlevel entry hmem] at hstep'
      exact ⟨_, _, _, hstep, hstep', rfl, rfl, rfl, rfl, rfl⟩
    · cases hother
  · rcases hcases' with ⟨_, hother, _⟩ | ⟨_, hother, _⟩ | ⟨_, hstep'⟩
    · cases hother
    · cases hother
    · exact ⟨_, _, _, hstep, hstep', rfl, rfl, hseen, rfl, hsame⟩

/-- `manage` sees the same position just when the records agree on the stop, and on
    the peak where the tick gives a profit. -/
theorem seen_position_iff (position : PositionState) (market : MarketState)
    (hpeak : new.peakOnRecord ≤ old.peakOnRecord) :
    ((new.seen self position market).position.peakPnlInr =
          (old.seen self position market).position.peakPnlInr ↔
        ∀ pnl, position.profitAt market = some pnl →
          old.peakOnRecord ≤ max new.peakOnRecord pnl) ∧
      ((new.seen self position market).position.currentTrailStopPrice =
          (old.seen self position market).position.currentTrailStopPrice ↔
        new.stopOnRecord = old.stopOnRecord) := by
  rw [(new.seen_eq self position market).1, (old.seen_eq self position market).1]
  refine ⟨?_, Iff.rfl⟩
  rcases position.profitAt market with _ | pnl
  · -- Without a profit the position keeps the peak of the view, which both share.
    exact iff_of_true rfl (fun _ h => by cases h)
  · simp only [Option.some.injEq, forall_eq']
    constructor
    · intro heq
      rw [heq]
      exact le_max_left _ _
    · intro hle
      exact le_antisymm (max_le_max_right pnl hpeak) (max_le hle (le_max_right _ _))

/-- Two records of a position have it under the same option. -/
theorem seen_isCall (position : PositionState) (market : MarketState) :
    (new.seen self position market).position.IsCall ↔
      (old.seen self position market).position.IsCall := by
  rw [(new.seen_eq self position market).1, (old.seen_eq self position market).1]
  exact Iff.rfl

theorem seen_position_of (position : PositionState) (market : MarketState)
    (hpeak : (new.seen self position market).position.peakPnlInr =
      (old.seen self position market).position.peakPnlInr)
    (hstop : new.stopOnRecord = old.stopOnRecord) :
    (new.seen self position market).position = (old.seen self position market).position := by
  rw [(new.seen_eq self position market).1, (old.seen_eq self position market).1] at hpeak ⊢
  simp only at hpeak
  rw [hpeak, hstop]

/-- Where a stop is proposed, the directive carries the level it is set at. -/
theorem tick_trail (hget : engine.registry.get .directional = .ok (.directional self))
    (hdir : s.trade.strategyId = .directional) (hopen : s.trade.status = .«open»)
    (position : PositionState)
    (hview : tradeToPositionState s.trade s.legs e.market.chain e.market.now = .ok position)
    (entry : ℚ) (hmem : Action.trailTo entry ∈
      self.manage (s.seen self position e.market).position e.market) :
    (s.tick engine e).2.map ExitDirective.newStopPrice =
      [some (ExitEngine.maybeApplyChandelier (.directional self) entry
        (s.seen self position e.market))] := by
  have hreg := load_registered s engine self e hget hdir position hview
  rcases step_plain engine self (s.load position) (s.seen self position e.market) e.market hreg rfl
    with ⟨action, hmanage, hcases⟩
  rw [hmanage, List.mem_singleton] at hmem
  rcases hcases with ⟨_, hother, _⟩ | ⟨entry', hentry, _, hstep⟩ | ⟨hother, _⟩
  · cases hmem.trans hother
  · cases hmem.trans hentry
    rw [s.tick_of_step engine e hopen position hview _ _ hstep]
    rfl
  · cases hmem.trans hother

/-- Where the restart has lost nothing that matters, the records show `manage` the
    same, and set a proposed stop alike. -/
theorem recovered_seen (h : Alike old new) (hrecovered : Recovered self old new e)
    (hopen : old.trade.status = .«open») (position : PositionState)
    (hview : tradeToPositionState old.trade old.legs e.market.chain e.market.now = .ok position) :
    new.stopOnRecord = old.stopOnRecord ∧
      (new.seen self position e.market).position = (old.seen self position e.market).position ∧
      ∀ entry, Action.trailTo entry ∈
          self.manage (old.seen self position e.market).position e.market →
        ExitEngine.maybeApplyChandelier (.directional self) entry
            (new.seen self position e.market) =
          ExitEngine.maybeApplyChandelier (.directional self) entry
            (old.seen self position e.market) := by
  rcases hrecovered hopen position hview with ⟨hunset, hback, hlevel⟩
  -- The new stop is the old one or none, and none only where the old one is.
  have hstops : new.stopOnRecord = old.stopOnRecord := by
    rcases h.stop with hnone | hsame
    · rcases hunset with hnone' | hset
      · rw [hnone, hnone']
      · exact absurd hnone hset
    · exact hsame
  have hpeak := (seen_position_iff self old new position e.market h.peak).1.mpr hback
  have hcall := seen_isCall self old new position e.market
  exact ⟨hstops, seen_position_of self old new position e.market hpeak hstops,
    fun entry hmem => (sameLevel_iff self entry _ _ hcall).mpr (hlevel entry hmem)⟩

/-- Two engines that are alike decide alike at a tick just when the restart has lost
    nothing that matters there. -/
theorem sameTick_iff (hget : engine.registry.get .directional = .ok (.directional self))
    (hdir : old.trade.strategyId = .directional) (h : Alike old new) :
    SameTick engine self old new e ↔ Recovered self old new e := by
  rcases managed_cases old self e with hnone | ⟨hopen, position, hview⟩
  · -- Neither engine manages the position.
    have hnone' := managed_alike self old new e h hnone
    have hold := tick_unmanaged old engine self e hnone
    have hnew := tick_unmanaged new engine self e hnone'
    refine iff_of_true ⟨?_, ?_, ?_⟩ (fun hopen position hview => ?_)
    · rw [hnone, hnone']
    · rw [hnone, hnone']
    · rw [hold.1, hnew.1]
    · rw [managed_of_view old self e hopen position hview] at hnone
      cases hnone
  · have hopen' : new.trade.status = .«open» := h.trade ▸ hopen
    have hview' := Alike.view old new e h position hview
    have hmanagedOld := managed_of_view old self e hopen position hview
    have hmanagedNew := managed_of_view new self e hopen' position hview'
    constructor
    · -- The peak and the stop are seen in the positions, the level in the directives.
      rintro ⟨hpeak, hstop, hdirectives⟩ _ p hp
      cases hview.symm.trans hp
      rw [hmanagedOld, hmanagedNew, Option.map_some, Option.map_some, Option.some.injEq]
        at hpeak hstop
      rcases seen_position_iff self old new position e.market h.peak with ⟨hpeakIff, hstopIff⟩
      have hstops := hstopIff.mp hstop
      have hseen := seen_position_of self old new position e.market hpeak hstops
      have hcall := seen_isCall self old new position e.market
      refine ⟨?_, hpeakIff.mp hpeak, fun entry hmem => ?_⟩
      · rw [hstops]
        exact em (old.stopOnRecord = none)
      · have hold := tick_trail old engine self e hget hdir hopen position hview entry hmem
        rw [← hseen] at hmem
        have hnew := tick_trail new engine self e hget (h.trade ▸ hdir) hopen' position hview'
          entry hmem
        rw [hdirectives, hold, List.singleton_inj, Option.some.injEq] at hnew
        exact (sameLevel_iff self entry _ _ hcall).mp hnew.symm
    · intro hrecovered
      rcases recovered_seen self old new e h hrecovered hopen position hview with
        ⟨hstops, hseen, hlevel⟩
      rcases step_pair engine self old new e position
          (load_registered old engine self e hget hdir position hview)
          (load_registered new engine self e hget (h.trade ▸ hdir) position hview')
          hseen hstops hlevel with ⟨_, _, d, hstepOld, hstepNew, _⟩
      refine ⟨?_, ?_, ?_⟩
      · rw [hmanagedOld, hmanagedNew, hseen]
      · rw [hmanagedOld, hmanagedNew, hseen]
      · rw [old.tick_of_step engine e hopen position hview _ _ hstepOld,
          new.tick_of_step engine e hopen' position hview' _ _ hstepNew]

/-- Carrying a directive out reads the rows and drops the record or keeps it. -/
theorem carryOut_pair (d : ExitDirective) (htrade : new.trade = old.trade)
    (hlegs : new.legs = old.legs) :
    (new.carryOut e d).trade = (old.carryOut e d).trade ∧
      (new.carryOut e d).legs = (old.carryOut e d).legs ∧
      ((new.carryOut e d).runtime = new.runtime ∧ (old.carryOut e d).runtime = old.runtime ∨
        (new.carryOut e d).runtime = none ∧ (old.carryOut e d).runtime = none) := by
  unfold carryOut
  rw [htrade, hlegs]
  split
  · split
    · exact ⟨htrade, hlegs, Or.inl ⟨rfl, rfl⟩⟩
    · exact ⟨rfl, rfl, Or.inr ⟨rfl, rfl⟩⟩
  · split_ifs
    · exact ⟨htrade, hlegs, Or.inl ⟨rfl, rfl⟩⟩
    · exact ⟨rfl, rfl, Or.inl ⟨rfl, rfl⟩⟩
  · exact ⟨htrade, hlegs, Or.inl ⟨rfl, rfl⟩⟩

/-- A directive leaves the trade with its strategy, and the record as it was or none. -/
theorem carryOut_keeps (d : ExitDirective) :
    (s.carryOut e d).trade.strategyId = s.trade.strategyId ∧
      ((s.carryOut e d).runtime = s.runtime ∨ (s.carryOut e d).runtime = none) := by
  unfold carryOut
  split
  · split
    · exact ⟨rfl, Or.inl rfl⟩
    · next hexit =>
      rcases persistExit_cases _ _ _ _ _ _ _ _ _ hexit with
        ⟨_, _, ⟨_, rfl, _⟩ | ⟨_, rfl, _⟩⟩ <;> exact ⟨rfl, Or.inr rfl⟩
  · split_ifs
    · exact ⟨rfl, Or.inl rfl⟩
    · exact ⟨rfl, Or.inl rfl⟩
  · exact ⟨rfl, Or.inl rfl⟩

/-- A tick with a view carries one directive out and notes the peak of its record. -/
theorem tick_managed (hget : engine.registry.get .directional = .ok (.directional self))
    (hdir : s.trade.strategyId = .directional) (position : PositionState)
    (hview : tradeToPositionState s.trade s.legs e.market.chain e.market.now = .ok position) :
    ∃ next d, engine.step (s.load position) e.market = .ok (next, [d]) ∧
      next.position = (s.seen self position e.market).position ∧
      next.peakPnlInr = (s.seen self position e.market).peakPnlInr := by
  have hreg := load_registered s engine self e hget hdir position hview
  rcases step_plain engine self (s.load position) (s.seen self position e.market) e.market hreg rfl
    with ⟨_, _, ⟨_, _, hstep⟩ | ⟨_, _, _, hstep⟩ | ⟨_, hstep⟩⟩
  · exact ⟨_, _, hstep, rfl, rfl⟩
  · exact ⟨_, _, hstep, rfl, rfl⟩
  · exact ⟨_, _, hstep, rfl, rfl⟩

/-- The record's peak after a tick is no lower than before. -/
theorem seen_peak_le (position : PositionState) (market : MarketState) :
    s.peakOnRecord ≤ (s.seen self position market).peakPnlInr := by
  rw [(s.seen_eq self position market).2.1]
  rcases position.profitAt market with _ | pnl
  · exact le_rfl
  · exact le_max_left _ _

/-- A tick keeps the strategy, and notes the peak of the record it leaves. -/
theorem tick_noted (hget : engine.registry.get .directional = .ok (.directional self))
    (hdir : s.trade.strategyId = .directional) (h : Noted s) :
    (s.tick engine e).1.trade.strategyId = .directional ∧ Noted (s.tick engine e).1 := by
  rcases s.managed_cases self e with hnone | ⟨hopen, view, hview⟩
  · rcases tick_unmanaged s engine self e hnone with ⟨_, htrade, _, hruntime⟩
    refine ⟨htrade ▸ hdir, ?_⟩
    rcases ite_eq_or_eq (s.trade.status = .«open») s.runtime none with hkept | hgone
    · have hpeak : (s.tick engine e).1.peakOnRecord = s.peakOnRecord := by
        unfold peakOnRecord
        rw [hruntime.trans hkept]
      exact ⟨hpeak.symm ▸ h.nonneg, by rw [hpeak, htrade]; exact h.noted⟩
    · exact noted_of_none _ (hruntime.trans hgone)
  · rcases tick_managed s engine self e hget hdir view hview with ⟨next, d, hstep, _, hpeak⟩
    rw [s.tick_of_step engine e hopen view hview next [d] hstep]
    simp only [List.foldl_cons, List.foldl_nil]
    rcases carryOut_keeps { s with runtime := some next } e d with ⟨hid, hruntime⟩
    refine ⟨hid.trans hdir, ?_⟩
    have hnonneg : 0 ≤ next.peakPnlInr := by
      rw [hpeak]
      exact h.nonneg.trans (s.seen_peak_le self view e.market)
    -- The note is no lower than the peak the record shows.
    have hle : ∀ x : ℚ, next.peakPnlInr ≤ max x (peakOf next) :=
      fun x => (le_max_left _ _).trans (le_max_right _ _)
    rcases hruntime with hkept | hgone
    · refine ⟨?_, Or.inr ⟨_, rfl, ?_⟩⟩
      · unfold peakOnRecord
        rw [hkept]
        exact hnonneg
      · unfold peakOnRecord
        rw [hkept]
        exact hle _
    · exact noted_of_none _ hgone

/-- The view of a trade shows the peak in its notes. -/
theorem view_peak (trade : Trade) (legs : List Leg) (chain : ChainCache) (now : DateTime)
    (position : PositionState)
    (hview : tradeToPositionState trade legs chain now = .ok position) :
    position.peakPnlInr = trade.notes.peakPnlInr := by
  rcases (tradeToPositionState_ok_iff _ _ _ _ _).mp hview with ⟨expiry, _, rfl⟩
  rfl

/-- Records with the same position at a tick leave the same peak in the notes. Where
    the tick gives no profit, the notes have the old peak already. -/
theorem peakOf_pair (h : Alike old new) (hnoted : Noted old) (position : PositionState)
    (hview : tradeToPositionState old.trade old.legs e.market.chain e.market.now = .ok position)
    (hseen : (new.seen self position e.market).position =
      (old.seen self position e.market).position) :
    peakOf (new.seen self position e.market) = peakOf (old.seen self position e.market) ∧
      (new.seen self position e.market).peakPnlInr ≤
        (old.seen self position e.market).peakPnlInr := by
  rcases new.seen_eq self position e.market with ⟨hposNew, hpeakNew, _⟩
  rcases old.seen_eq self position e.market with ⟨hposOld, hpeakOld, _⟩
  have hshown := congrArg PositionState.peakPnlInr hseen
  unfold peakOf
  rw [hshown]
  rw [hposNew, hposOld] at hshown
  rw [hpeakNew, hpeakOld, hposOld]
  rcases hprofit : position.profitAt e.market with _ | pnl
  · simp only
    refine ⟨?_, h.peak⟩
    rw [view_peak _ _ _ _ _ hview]
    -- A peak of zero may not be noted, any other one is in the notes of the trade.
    rcases hnoted.noted with hzero | ⟨peak, hpeak, hle⟩
    · rw [hzero, le_antisymm (hzero ▸ h.peak) h.nonneg]
    · rw [hpeak, orFloat_some_zero, max_eq_right hle, max_eq_right (h.peak.trans hle)]
  · simp only [hprofit, Option.some.injEq] at hshown ⊢
    rw [hshown]
    exact ⟨rfl, le_rfl⟩

/-- Engines that are alike stay alike over a tick at which nothing that matters is
    lost. -/
theorem alike_tick (hget : engine.registry.get .directional = .ok (.directional self))
    (hdir : old.trade.strategyId = .directional) (hnoted : Noted old) (h : Alike old new)
    (hrecovered : Recovered self old new e) :
    Alike (old.tick engine e).1 (new.tick engine e).1 := by
  rcases managed_cases old self e with hnone | ⟨hopen, position, hview⟩
  · -- Both records are kept, or the trade is not open and both are dropped.
    rcases tick_unmanaged old engine self e hnone with ⟨_, htradeOld, hlegsOld, hruntimeOld⟩
    rcases tick_unmanaged new engine self e (managed_alike self old new e h hnone) with
      ⟨_, htradeNew, hlegsNew, hruntimeNew⟩
    rw [h.trade] at hruntimeNew
    refine alike_of_records _ _ ?_ ?_ ?_
    · rw [htradeNew, htradeOld, h.trade]
    · rw [hlegsNew, hlegsOld, h.legs]
    · rw [hruntimeNew, hruntimeOld]
      by_cases hopen : old.trade.status = .«open»
      · rw [if_pos hopen, if_pos hopen]
        exact ⟨h.nonneg, h.peak, h.stop⟩
      · rw [if_neg hopen, if_neg hopen]
        exact ⟨le_rfl, le_rfl, Or.inl rfl⟩
  · have hopen' : new.trade.status = .«open» := h.trade ▸ hopen
    have hview' := Alike.view old new e h position hview
    rcases recovered_seen self old new e h hrecovered hopen position hview with
      ⟨hstops, hseen, hlevel⟩
    rcases step_pair engine self old new e position
        (load_registered old engine self e hget hdir position hview)
        (load_registered new engine self e hget (h.trade ▸ hdir) position hview')
        hseen hstops hlevel with
      ⟨nextOld, nextNew, d, hstepOld, hstepNew, hposOld, hpeakOld, hposNew, hpeakNew, hlast⟩
    rcases peakOf_pair self old new e h hnoted position hview hseen with ⟨hpeakOf, hpeak⟩
    -- The notes get the same peak, and the directive does the same to the rows.
    have hnotes : peakOf nextNew = peakOf nextOld := by
      unfold peakOf at hpeakOf ⊢
      rw [hposNew, hposOld, hpeakNew, hpeakOld, ← hpeakOf, hseen]
    rw [old.tick_of_step engine e hopen position hview nextOld [d] hstepOld,
      new.tick_of_step engine e hopen' position hview' nextNew [d] hstepNew]
    simp only [List.foldl_cons, List.foldl_nil]
    rcases carryOut_pair { old with runtime := some nextOld } { new with runtime := some nextNew }
      e d h.trade h.legs with ⟨htrade, hlegs, hruntime⟩
    refine alike_of_records _ _ ?_ hlegs ?_
    · rw [htrade, hnotes, h.legs]
    · rcases hruntime with ⟨hnew, hold⟩ | ⟨hnew, hold⟩
      · simp only
        rw [hnew, hold]
        refine ⟨?_, ?_, Or.inr hlast⟩
        · exact (h.nonneg.trans (new.seen_peak_le self position e.market)).trans hpeakNew.ge
        · exact hpeakNew.le.trans (hpeak.trans hpeakOld.ge)
      · simp only
        rw [hnew, hold]
        exact ⟨le_rfl, le_rfl, Or.inl rfl⟩

/-- Two engines that are alike decide alike at every tick just when the restart has
    lost nothing that matters at any. -/
theorem sameRun_iff (hget : engine.registry.get .directional = .ok (.directional self))
    (hdir : old.trade.strategyId = .directional) (hnoted : Noted old) (h : Alike old new)
    (ticks : List TrackTick) :
    SameRun engine self old new ticks ↔ RecoveredRun engine self old new ticks := by
  refine along_iff (tickBoth engine) _ _
    (fun both => both.1.trade.strategyId = .directional ∧ Noted both.1 ∧ Alike both.1 both.2)
    (fun both x hinv => ?_) (fun both x hinv hrecovered => ?_) (old, new) ⟨hdir, hnoted, h⟩ ticks
  · exact sameTick_iff engine self both.1 both.2 x hget hinv.1 hinv.2.2
  · rcases tick_noted both.1 engine self x hget hinv.1 hinv.2.1 with ⟨hdir', hnoted'⟩
    exact ⟨hdir', hnoted',
      alike_tick engine self both.1 both.2 x hget hinv.1 hinv.2.1 hinv.2.2 hrecovered⟩

/-- Whatever ticks a trade has been through, the restarted engine then decides as
    the uninterrupted one just when nothing that matters is lost at any later tick. -/
theorem restart_same_iff (start : TradeTrack)
    (hget : engine.registry.get .directional = .ok (.directional self))
    (hdir : start.trade.strategyId = .directional) (hfresh : start.runtime = none)
    (hrun : Run (fun a x => (a.tick engine x).1) (fun _ _ => True) start s)
    (ticks : List TrackTick) :
    SameRun engine self s s.restart ticks ↔ RecoveredRun engine self s s.restart ticks := by
  have hkept := hrun.invariant (fun a => a.trade.strategyId = .directional ∧ Noted a)
    (fun a x _ ha => tick_noted a engine self x hget ha.1 ha.2)
    ⟨hdir, start.noted_of_none hfresh⟩
  exact sameRun_iff engine self s s.restart hget hkept.1 hkept.2 (s.restart_alike hkept.2) ticks

end Tick

/-- Three puts bought at 100 with the underlying at 100000, not stepped yet. -/
def putTrade : TradeTrack :=
  { trade :=
      { id := 1, strategyId := .directional, underlying := .btc,
        expiry := some (combine (ymdToOrdinal 2026 5 13) (hourMinute 10 0)),
        entryTs := combine (ymdToOrdinal 2026 5 12) (hourMinute 9 30), lots := 3,
        premiumPaidInr := some 100,
        notes := { entryUnderlyingPrice := some 100000, entryAtr := some 200 } }
    legs :=
      [{ tradeId := 1, strategyId := .directional, legIdx := 0, symbol := "BTC-100000-130526",
         optionType := some .put, strike := some 100000, side := .buy, lots := 3,
         entryPrice := some 100 }] }

/-- The put at a price. -/
def putTick (mid : ℚ) : TrackTick :=
  { market := (optionTick mid).market
    execute := fun req => { success := false, tradeId := req.tradeId }
    nav := { navNow := 0, navOpenToday := 0, navOpenWeek := 0, peakNav := 0 } }

/-- The put has been at 120 when the process starts again, and is at 150 then. -/
theorem restart_same_iff_above : SameRun trailEngine trailStrategy
    (putTrade.tick trailEngine (putTick 120)).1
    (putTrade.tick trailEngine (putTick 120)).1.restart [putTick 150] := by
  refine (restart_same_iff (putTrade.tick trailEngine (putTick 120)).1 trailEngine trailStrategy
    putTrade rfl rfl rfl (Run.single _ _ trivial) [putTick 150]).mpr ⟨?_, trivial⟩
  intro hopen position hview
  have hstop : (putTrade.tick trailEngine (putTick 120)).1.stopOnRecord = none := by decide
  have hpeak : (putTrade.tick trailEngine (putTick 120)).1.peakOnRecord = 60 := by decide
  have hmanaged : ((putTrade.tick trailEngine (putTick 120)).1.managed trailStrategy
      (putTick 150).market).map (fun p => trailStrategy.manage p (putTick 150).market) =
        some [.noOp] := by decide
  have hprofit : (tradeToPositionState (putTrade.tick trailEngine (putTick 120)).1.trade
      (putTrade.tick trailEngine (putTick 120)).1.legs (putTick 150).market.chain
      (putTick 150).market.now).map (fun p => p.profitAt (putTick 150).market) =
        .ok (some 150) := by decide
  rw [managed_of_view _ trailStrategy (putTick 150) hopen position hview, Option.map_some,
    Option.some.injEq] at hmanaged
  rw [hview] at hprofit
  refine ⟨Or.inl hstop, fun pnl hpnl => ?_, fun entry hmem => ?_⟩
  · cases (Except.ok.inj hprofit).symm.trans hpnl
    rw [hpeak]
    exact le_max_of_le_right (by norm_num)
  · rw [hmanaged] at hmem
    cases List.mem_singleton.mp hmem

/-- At 201 the stop is set at 100. Had the process not started again, the put would
    be closed at 90. -/
theorem restart_forgets_stop :
    ¬ ∀ (engine : ExitEngine) (self : DirectionalStrategy) (start s : TradeTrack),
      engine.registry.get .directional = .ok (.directional self) →
      start.trade.strategyId = .directional → start.runtime = none →
      Run (fun a x => (a.tick engine x).1) (fun _ _ => True) start s →
      ∀ ticks, SameRun engine self s s.restart ticks := by
  intro hall
  rcases hall trailEngine trailStrategy putTrade (putTrade.tick trailEngine (putTick 201)).1
    rfl rfl rfl (Run.single _ _ trivial) [putTick 90] with ⟨⟨_, _, hdirectives⟩, _⟩
  have hold : ((putTrade.tick trailEngine (putTick 201)).1.tick trailEngine (putTick 90)).2.map
      ExitDirective.trigger = [some .trailBreakeven] := by decide
  have hnew : ((putTrade.tick trailEngine (putTick 201)).1.restart.tick trailEngine
      (putTick 90)).2.map ExitDirective.trigger = [none] := by decide
  rw [hdirectives, hold] at hnew
  cases hnew

end TradeTrack

end OptionsBot
