import OptionsBot.Core.MainRun
import OptionsBot.Core.RecordTrack

/-!
# A Lone Row in the Main Loop

The tick of a single row, and the main loop when that row is the only one. The tick takes what
happens to a row between two refreshes as one step; the loop takes a step for each write, and
can end at each. A tick that goes through leaves the row, its legs and the engine's record as
the tick of the row does, so what holds along the ticks of a row holds of it in the loop.

## Main definitions

* `RecordTrack.toLoop`: The loop with one row.
* `DeskTick.calmAnswer`, `DeskTick.loneEvents`: A tick in which no write fails.
* `Shows`: The rows and the record of the loop are those of a track.

## Theorems

* `carryOut_lone`: A directive.
* `load_lone`, `manage_lone`, `refresh_lone`: The steps of the tick.
* `lone_tick`: The tick.
-/

namespace OptionsBot

variable (s : RecordTrack) (t : DeskTick) (execute : ExitRequest → ExitResult)
  (walletAtExit : Option WalletSnapshot)

/-- The row of a trade, as the only one of the loop. -/
def RecordTrack.toLoop : MainLoop :=
  { rows := [{ record := s.record, legs := s.legs }]
    runtimes := fun id => if id = s.record.trade.id then s.runtime else none }

def RecordTrack.toLoaded : LoadedRow := { trade := s.record.trade, legs := s.legs }

/-- The tick of the loop as one of its rows meets it, with an exchange that answers every
    exit. -/
def DeskTick.toRecordTick : RecordTick :=
  { market := t.market, lastTs := t.lastTs, execute := execute, wallet := t.wallet,
    walletAtExit := walletAtExit }

/-- Every exit is answered, every session commits and every file is written. -/
def DeskTick.calmAnswer : ManageAnswer :=
  { chain := t.market.chain, exit := fun request => .ok (execute request), wallet := walletAtExit }

/-- The steps up to the refresh of a lone row. -/
def DeskTick.loneEvents : List DeskEvent :=
  let answer := t.calmAnswer execute walletAtExit
  [.load t, .manage answer, .manage answer, .refresh t.market.chain true]

namespace MainLoop

/-- Some rows and the engine's record are those of a track. -/
def Shows (rows : List DeskRow) (runtime : Option PositionRuntime) (s : RecordTrack) : Prop :=
  (∃ row, rows = [row] ∧ row.record = s.record ∧ row.legs = s.legs) ∧ runtime = s.runtime

theorem modifyRow_single (id : Nat) (f : DeskRow → DeskRow) (row : DeskRow) (h : row.id = id) :
    modifyRow id f [row] = [f row] := by
  rw [modifyRow, List.map_singleton, if_pos h]

/-- A directive that does not raise does to a lone row what it does to the track. -/
theorem carryOut_lone (d : ExitDirective) (done : CarriedOut)
    (hdone : carryOut t s.toLoaded (t.calmAnswer execute walletAtExit)
      { rows := s.toLoop.rows, runtime := s.runtime } d = done) (hgoes : done.raised = false) :
    Shows done.rows done.runtime (s.carryOut (t.toRecordTick execute walletAtExit) d) := by
  subst hdone
  rcases d with ⟨_, kind, trigger, newStopPrice, _⟩
  cases kind with
  | close =>
      cases trigger with
      | none => exact ⟨⟨_, rfl, rfl, rfl⟩, rfl⟩
      | some trigger =>
          simp only [carryOut, RecordTrack.carryOut, RecordTrack.toLoaded, DeskTick.toRecordTick,
            DeskTick.calmAnswer, Bool.false_eq_true, if_false] at hgoes ⊢
          cases hrequest : exitRequest s.record.trade s.legs trigger t.market.now with
          | error err =>
              -- A request that cannot be made ends the loop, where the track goes on.
              rw [hrequest] at hgoes
              cases hgoes
          | ok request =>
              dsimp only
              by_cases hsuccess : (execute request).success = true
              · simp only [hsuccess, Bool.not_true, Bool.false_eq_true, if_false]
                exact ⟨⟨_, modifyRow_single _ _ { record := s.record, legs := s.legs } rfl,
                  rfl, rfl⟩, rfl⟩
              · rw [Bool.not_eq_true] at hsuccess
                simp only [hsuccess, Bool.not_false, if_true]
                exact ⟨⟨_, rfl, rfl, rfl⟩, rfl⟩
  | updateStop =>
      cases newStopPrice with
      | none => exact ⟨⟨_, rfl, rfl, rfl⟩, rfl⟩
      | some newStopPrice =>
          simp only [carryOut, RecordTrack.carryOut, RecordTrack.toLoaded, DeskTick.toRecordTick,
            DeskTick.calmAnswer, Bool.false_eq_true, if_false]
          by_cases hempty : s.legs.isEmpty = true
          · simp only [hempty, if_true]
            exact ⟨⟨_, rfl, rfl, rfl⟩, rfl⟩
          · simp only [hempty, Bool.false_eq_true, if_false, Bool.not_true, Bool.or_false]
            exact ⟨⟨_, modifyRow_single _ _ { record := s.record, legs := s.legs } rfl,
              rfl, rfl⟩, rfl⟩
  | noOp => exact ⟨⟨_, rfl, rfl, rfl⟩, rfl⟩

theorem step_ended (loop : MainLoop) (h : loop.phase = .ended) (e : DeskEvent) :
    loop.step e = loop := by
  cases e with
  | load t => simp only [step, h]
  | manage answer => simp only [step, manage, h]
  | refresh chain commits => simp only [step, refresh, h]
  | enter a => simp only [step, enter, h]
  | sleep => simp only [step, h]

theorem run_ended (loop : MainLoop) (h : loop.phase = .ended) (events : List DeskEvent) :
    events.foldl step loop = loop := by
  induction events with
  | nil => rfl
  | cons e rest ih => rw [List.foldl_cons, loop.step_ended h, ih]

/-- The tick with the quotes of a lone row. -/
def viewed : DeskTick := { t with market := marketOf t [s.toLoaded] }

/-- The start of a tick on a lone open row. -/
theorem load_lone (hopen : s.record.trade.status = .«open») :
    s.toLoop.step (.load t) =
      match tradeToPositionState s.record.trade s.legs t.market.chain t.market.now with
      | .error _ => { s.toLoop with phase := .ended }
      | .ok position =>
        { s.toLoop with
          phase := .managing (viewed s t) [s.toLoaded] [(s.toLoaded, position)] [] } := by
  have hloaded : s.toLoop.loadOpen = [s.toLoaded] := by
    simp only [loadOpen, RecordTrack.toLoop, List.filter_cons, hopen, decide_true, if_true,
      List.filter_nil, List.map_singleton]
    rfl
  have hstep : s.toLoop.step (.load t) = s.toLoop.load t := rfl
  rw [hstep, load, hloaded]
  simp only [List.mapM_cons, List.mapM_nil, RecordTrack.toLoaded]
  cases tradeToPositionState s.record.trade s.legs t.market.chain t.market.now with
  | error err => rfl
  | ok position =>
      -- The only other records are those of trades that are not loaded, and there are none.
      have hruntimes : (fun id => if [s.toLoaded].any (fun row => row.trade.id = id)
          then s.toLoop.runtimes id else none) = s.toLoop.runtimes := by
        funext id
        simp only [List.any_cons, List.any_nil, Bool.or_false, decide_eq_true_eq,
          RecordTrack.toLoaded, RecordTrack.toLoop]
        by_cases hid : s.record.trade.id = id
        · rw [if_pos hid]
        · rw [if_neg hid, if_neg (Ne.symm hid)]
      exact congrArg (fun runtimes => ({ s.toLoop with
        runtimes := runtimes
        phase := .managing (viewed s t) [s.toLoaded] [(s.toLoaded, position)] [] } : MainLoop))
        hruntimes

theorem view_tradeId (trade : Trade) (legs : List Leg) (chain : ChainCache) (now : DateTime)
    (position : PositionState) (h : tradeToPositionState trade legs chain now = .ok position) :
    position.tradeId = trade.id := by
  rcases (tradeToPositionState_ok_iff _ _ _ _ _).mp h with ⟨expiry, _, rfl⟩
  rfl

theorem runtimeFor_lone (position : PositionState) (h : position.tradeId = s.record.trade.id) :
    s.toLoop.runtimeFor position = s.toTrack.load position := by
  unfold runtimeFor TradeTrack.load
  rw [h]
  simp only [RecordTrack.toLoop, if_true]
  rfl

theorem carryOuts_id (e : RecordTick) (directives : List ExitDirective) (track : RecordTrack) :
    (directives.foldl (fun track d => track.carryOut e d) track).record.trade.id =
      track.record.trade.id := by
  induction directives generalizing track with
  | nil => rfl
  | cons d rest ih =>
      rw [List.foldl_cons, ih]
      unfold RecordTrack.carryOut
      split
      · split
        · rfl
        · dsimp only
          split
          · rfl
          · rfl
      · split
        · rfl
        · rfl
      · rfl

/-- What the directives of a step do to a lone row. -/
def carriedOut (next : PositionRuntime) (directives : List ExitDirective) : CarriedOut :=
  directives.foldl (carryOut (viewed s t) s.toLoaded (t.calmAnswer execute walletAtExit))
    { rows := s.toLoop.rows, runtime := some next }

/-- The management of a lone row. -/
theorem manage_lone (position : PositionState) (h : position.tradeId = s.record.trade.id) :
    step { s.toLoop with
        phase := .managing (viewed s t) [s.toLoaded] [(s.toLoaded, position)] [] }
        (.manage (t.calmAnswer execute walletAtExit)) =
      match t.engine.step (s.toTrack.load position) (viewed s t).market with
      | .error _ => { s.toLoop with phase := .ended }
      | .ok (next, directives) =>
        let done := carriedOut s t execute walletAtExit next directives
        { rows := done.rows
          runtimes := Function.update s.toLoop.runtimes s.record.trade.id done.runtime
          phase := if done.raised then .ended
            else .managing (viewed s t) [s.toLoaded] []
              [(s.record.trade.id, TradeTrack.peakOf next)] } := by
  rw [← runtimeFor_lone s position h]
  rfl

theorem carriedOut_shows (next : PositionRuntime) (directives : List ExitDirective)
    (hsingle : directives = [] ∨ ∃ d, directives = [d])
    (hgoes : (carriedOut s t execute walletAtExit next directives).raised = false) :
    Shows (carriedOut s t execute walletAtExit next directives).rows
      (carriedOut s t execute walletAtExit next directives).runtime
      (directives.foldl
        (fun track d => track.carryOut ((viewed s t).toRecordTick execute walletAtExit) d)
        { s with runtime := some next }) := by
  rcases hsingle with rfl | ⟨d, rfl⟩
  · exact ⟨⟨_, rfl, rfl, rfl⟩, rfl⟩
  · exact carryOut_lone { s with runtime := some next } (viewed s t) execute walletAtExit d _ rfl
      hgoes

/-- The end of the tick: nothing is left to manage, and the row is refreshed. -/
theorem refresh_lone (next : PositionRuntime) (done : CarriedOut) (track : RecordTrack)
    (hdone : Shows done.rows done.runtime track)
    (hid : track.record.trade.id = s.record.trade.id) (after : MainLoop)
    (hafter : [.manage (t.calmAnswer execute walletAtExit), .refresh t.market.chain true].foldl step
      { rows := done.rows
        runtimes := Function.update s.toLoop.runtimes s.record.trade.id done.runtime
        phase := .managing (viewed s t) [s.toLoaded] []
          [(s.record.trade.id, TradeTrack.peakOf next)] } = after) :
    Shows after.rows (after.runtimes s.record.trade.id)
      { track with
        record := refreshOpenTradeRecord s.record.trade s.legs t.market.chain
          (indicatorSnapshotForTrade s.record.trade (viewed s t).market t.lastTs) t.wallet
          (some (TradeTrack.peakOf next)) track.record } := by
  rcases hdone with ⟨⟨row, hrows, hrecord, hlegs⟩, hruntime⟩
  have hrow : row.id = s.record.trade.id := by
    rw [DeskRow.id, hrecord]
    exact hid
  have hpeak : (Table.lookup Prod.fst s.record.trade.id
      [(s.record.trade.id, TradeTrack.peakOf next)]).map Prod.snd =
      some (TradeTrack.peakOf next) := by
    simp only [Table.lookup, List.find?_cons, decide_true, Option.map_some]
  have hrefreshed : after.rows = [DeskRow.refresh s.toLoaded (viewed s t)
      (some (TradeTrack.peakOf next)) row] := by
    rw [← hpeak, ← modifyRow_single _ _ row hrow, ← hrows, ← hafter]
    rfl
  refine ⟨⟨_, hrefreshed, ?_, hlegs⟩, ?_⟩
  · rw [← hrecord]
    rfl
  · rw [← hruntime, ← hafter]
    exact Function.update_self _ _ _

/-- A tick that goes through does to a lone open row what the tick of the track does. -/
theorem lone_tick (hopen : s.record.trade.status = .«open») (after : MainLoop)
    (hafter : (t.loneEvents execute walletAtExit).foldl step s.toLoop = after)
    (hgoes : after.phase ≠ .ended) :
    Shows after.rows (after.runtimes s.record.trade.id)
      (s.tick t.engine ((viewed s t).toRecordTick execute walletAtExit)) := by
  unfold DeskTick.loneEvents at hafter
  rw [List.foldl_cons, load_lone s t hopen] at hafter
  unfold RecordTrack.tick
  rw [if_neg (not_not.mpr hopen),
    show ((viewed s t).toRecordTick execute walletAtExit).market = (viewed s t).market from rfl,
    show (viewed s t).market.chain = t.market.chain from rfl,
    show (viewed s t).market.now = t.market.now from rfl]
  -- Whatever raises ends the loop, so each case but the last is against `hgoes`.
  cases hview : tradeToPositionState s.record.trade s.legs t.market.chain t.market.now with
  | error err =>
      rw [hview, run_ended _ rfl] at hafter
      exact absurd (congrArg MainLoop.phase hafter.symm) hgoes
  | ok position =>
      rw [hview] at hafter
      dsimp only at hafter ⊢
      rw [List.foldl_cons, manage_lone s t execute walletAtExit position
        (view_tradeId _ _ _ _ _ hview)] at hafter
      cases hstep : t.engine.step (s.toTrack.load position) (viewed s t).market with
      | error err =>
          rw [hstep, run_ended _ rfl] at hafter
          exact absurd (congrArg MainLoop.phase hafter.symm) hgoes
      | ok result =>
          rcases result with ⟨next, directives⟩
          rw [hstep] at hafter
          dsimp only at hafter ⊢
          cases hraised : (carriedOut s t execute walletAtExit next directives).raised with
          | true =>
              rw [hraised, if_pos rfl, run_ended _ rfl] at hafter
              exact absurd (congrArg MainLoop.phase hafter.symm) hgoes
          | false =>
              rw [hraised, if_neg Bool.false_ne_true] at hafter
              exact refresh_lone s t execute walletAtExit next _ _
                (carriedOut_shows s t execute walletAtExit next directives
                  (t.engine.step_single _ _ _ _ hstep) hraised)
                (carryOuts_id _ directives { s with runtime := some next }) after hafter

end MainLoop

end OptionsBot
