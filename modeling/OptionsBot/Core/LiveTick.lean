import OptionsBot.Core.EntryLoop
import OptionsBot.Core.LiveExit
import OptionsBot.Core.Tick

/-!
# Ticks Against the Exchange

A trade as the main loop drives it with the live executor: the rows of the trade,
the exit engine's record of it, and what the exchange holds of the position that
was opened for it. The holdings are kept by the place of a leg in the intent the
trade was opened on. They do not depend on any row.

A tick sends the exit that `manage` asks for, with the legs the rows have. Between
ticks the exchange goes on by itself: orders of earlier exits fill, and so do orders
of the entry that are still working.

## Main definitions

* `LiveTrack`: A trade's rows and record, and its position on the exchange.
* `LiveTick`, `LiveEvent`: A tick, and what else can happen.
* `LiveTrack.request`: The exit a tick sends.
* `LiveTrack.tick`, `LiveTrack.step`: A tick, and any event.

## Theorems

* `TradeTrack.tick_closed`, `tick_closed`: A tick closes an open trade on the success of the exit
  it sends.
* `request_cases`: The exit of a tick is that of its one directive.
* `tick_of_success`: A tick whose exit is a success closes the trade.
* `tick_not_open`: A trade that is not open is left as it is.
-/

namespace OptionsBot

/-- The rows of a trade with the engine's record of it, and what the exchange holds of each leg
    of the intent. -/
structure LiveTrack where
  track : TradeTrack
  books : Nat → ReducingBook

/-- A tick, and how the exchange treats the orders of an exit it sends. -/
structure LiveTick where
  market : MarketState
  nav : NavTracker
  completedAt : DateTime
  script : Nat → ExitLegScript

/-- A tick, a restart, something that happens to an order of an exit, or a fill of an order of
    the entry. -/
inductive LiveEvent where
  | tick (e : LiveTick)
  | restart
  | later (idx k : Nat) (event : OrderEvent)
  | entryFill (idx : Nat) (qty : ℚ)

namespace LiveTrack

variable (s : LiveTrack) (engine : ExitEngine) (e : LiveTick)

/-- The exit a directive asks for. -/
def exitOf (market : MarketState) (d : ExitDirective) : Option ExitRequest :=
  match d.kind, d.trigger with
  | .close, some trigger =>
    match exitRequest s.track.trade s.track.legs trigger market.now with
    | .error _ => none
    | .ok req => some req
  | _, _ => none

/-- The exit a tick sends, if there is one. -/
def request (market : MarketState) : Option ExitRequest :=
  if s.track.trade.status ≠ .«open» then none
  else
    match tradeToPositionState s.track.trade s.track.legs market.chain market.now with
    | .error _ => none
    | .ok position =>
      match engine.step (s.track.load position) market with
      | .error _ => none
      | .ok (_, directives) => directives.findSome? (s.exitOf market)

/-- The tick of the rows, with the answer to its exit. -/
def answered (result : ExitResult) : TrackTick :=
  { market := e.market, execute := fun _ => result, nav := e.nav }

/-- A tick. An exception out of the executor ends the process, which starts again. -/
def tick : LiveTrack :=
  match s.request engine e.market with
  | none =>
    { s with track := (s.track.tick engine (answered e { success := false, tradeId := 0 })).1 }
  | some req =>
    let sent := LiveExecutor.submitExit req e.script e.completedAt s.books
    match sent.2 with
    | .error _ => { track := s.track.restart, books := sent.1 }
    | .ok result => { track := (s.track.tick engine (answered e result)).1, books := sent.1 }

def step : LiveEvent → LiveTrack
  | .tick e => s.tick engine e
  | .restart => { s with track := s.track.restart }
  | .later idx k event =>
    { s with books := Function.update s.books idx ((s.books idx).advance k event) }
  | .entryFill idx qty =>
    if h : 0 ≤ qty then
      { s with books := Function.update s.books idx ((s.books idx).grow qty h) }
    else s

end LiveTrack

namespace TradeTrack

variable (s : TradeTrack) (engine : ExitEngine) (e : TrackTick)

/-- A directive that closes an open trade is a close whose exit is a success. -/
theorem carryOut_closed (d : ExitDirective) (hopen : s.trade.status = .«open»)
    (hclosed : (s.carryOut e d).trade.status = .closed) :
    d.kind = .close ∧ ∃ trigger req, d.trigger = some trigger ∧
      exitRequest s.trade s.legs trigger e.market.now = .ok req ∧
      (e.execute req).success = true := by
  have hstill : s.trade.status ≠ .closed := by
    rw [hopen]
    exact TradeStatus.noConfusion
  unfold carryOut at hclosed
  split at hclosed
  · next trigger hkind htrigger =>
    refine ⟨hkind, trigger, ?_⟩
    cases hexit : persistExit e.execute s.trade s.legs trigger e.nav e.market.now with
    | error err =>
        rw [hexit] at hclosed
        exact absurd hclosed hstill
    | ok after =>
        rw [hexit] at hclosed
        rcases persistExit_cases e.execute s.trade after.1 s.legs after.2.1 trigger e.nav after.2.2
          e.market.now hexit with ⟨req, hreq, ⟨_, htrade, _⟩ | ⟨hsuccess, _⟩⟩
        · exact absurd (htrade ▸ hclosed) hstill
        · exact ⟨req, htrigger, hreq, hsuccess⟩
  · split_ifs at hclosed
    · exact absurd hclosed hstill
    · exact absurd hclosed hstill
  · exact absurd hclosed hstill

/-- A tick that closes an open trade has sent the exit of its one directive, with success. -/
theorem tick_closed (hopen : s.trade.status = .«open»)
    (hclosed : (s.tick engine e).1.trade.status = .closed) :
    ∃ position next d trigger req,
      tradeToPositionState s.trade s.legs e.market.chain e.market.now = .ok position ∧
        engine.step (s.load position) e.market = .ok (next, [d]) ∧
        d.kind = .close ∧ d.trigger = some trigger ∧
        exitRequest s.trade s.legs trigger e.market.now = .ok req ∧
        (e.execute req).success = true := by
  have hstill : s.trade.status ≠ .closed := by
    rw [hopen]
    exact TradeStatus.noConfusion
  unfold tick at hclosed
  rw [if_neg (not_not.mpr hopen)] at hclosed
  cases hview : tradeToPositionState s.trade s.legs e.market.chain e.market.now with
  | error err =>
      rw [hview] at hclosed
      exact absurd hclosed hstill
  | ok position =>
      rw [hview] at hclosed
      dsimp only at hclosed
      cases hstep : engine.step (s.load position) e.market with
      | error err =>
          rw [hstep] at hclosed
          exact absurd hclosed hstill
      | ok after =>
          rw [hstep] at hclosed
          dsimp only at hclosed
          rw [refreshOpenTradeNotes_status] at hclosed
          rcases engine.step_single (s.load position) after.1 e.market after.2 hstep with
            hnone | ⟨d, hd⟩
          · rw [hnone] at hclosed
            exact absurd hclosed hstill
          · rw [hd] at hclosed
            rcases carryOut_closed { s with runtime := some after.1 } e d hopen hclosed with
              ⟨hkind, trigger, req, htrigger, hreq, hsuccess⟩
            exact ⟨position, after.1, d, trigger, req, rfl, by rw [hstep, ← hd], hkind, htrigger,
              hreq, hsuccess⟩

end TradeTrack

namespace LiveTrack

variable (s : LiveTrack) (engine : ExitEngine) (e : LiveTick)

/-- The exit of a tick is that of its one directive, made of the rows. -/
theorem request_cases (market : MarketState) (req : ExitRequest)
    (h : s.request engine market = some req) :
    s.track.trade.status = .«open» ∧ ∃ position next d trigger,
      tradeToPositionState s.track.trade s.track.legs market.chain market.now = .ok position ∧
        engine.step (s.track.load position) market = .ok (next, [d]) ∧
        d.kind = .close ∧ d.trigger = some trigger ∧
        exitRequest s.track.trade s.track.legs trigger market.now = .ok req := by
  unfold request at h
  split_ifs at h with hopen
  refine ⟨not_not.mp hopen, ?_⟩
  split at h
  · cases h
  · next position hview =>
    split at h
    · cases h
    · next next directives hstep =>
      rcases engine.step_single _ next market directives hstep with rfl | ⟨d, rfl⟩
      · cases h
      · rw [List.findSome?_singleton] at h
        unfold exitOf at h
        split at h
        · next trigger hkind htrigger =>
          split at h
          · cases h
          · next req' hreq =>
            cases h
            exact ⟨position, next, d, trigger, hview, hstep, hkind, htrigger, hreq⟩
        · cases h

/-- A tick closes an open trade on the success of the exit it sends. -/
theorem tick_closed (hopen : s.track.trade.status = .«open»)
    (hclosed : (s.tick engine e).track.trade.status = .closed) :
    ∃ req result, s.request engine e.market = some req ∧
      (LiveExecutor.submitExit req e.script e.completedAt s.books).2 = .ok result ∧
      result.success = true ∧
      (s.tick engine e).books =
        (LiveExecutor.submitExit req e.script e.completedAt s.books).1 := by
  unfold tick at hclosed ⊢
  cases hreq : s.request engine e.market with
  | none =>
      -- Without an exit of its own there is no success either.
      rw [hreq] at hclosed
      rcases s.track.tick_closed engine _ hopen hclosed with ⟨_, _, _, _, _, _, _, _, _, _, hok⟩
      cases hok
  | some req =>
      rw [hreq] at hclosed
      dsimp only at hclosed ⊢
      cases hsent : (LiveExecutor.submitExit req e.script e.completedAt s.books).2 with
      | error err =>
          rw [hsent] at hclosed
          exact absurd hclosed (by
            rw [show s.track.restart.trade.status = .«open» from hopen]
            exact TradeStatus.noConfusion)
      | ok result =>
          rw [hsent] at hclosed
          rcases s.track.tick_closed engine _ hopen hclosed with
            ⟨_, _, _, _, _, _, _, _, _, _, hok⟩
          exact ⟨req, result, rfl, hsent, hok, rfl⟩

/-- A tick whose exit is a success closes the trade. -/
theorem tick_of_success (req : ExitRequest) (result : ExitResult)
    (hreq : s.request engine e.market = some req)
    (hsent : (LiveExecutor.submitExit req e.script e.completedAt s.books).2 = .ok result)
    (hsuccess : result.success = true) :
    (s.tick engine e).track.trade.status = .closed ∧
      (s.tick engine e).books =
        (LiveExecutor.submitExit req e.script e.completedAt s.books).1 := by
  rcases s.request_cases engine e.market req hreq with
    ⟨hopen, position, next, d, trigger, hview, hstep, hkind, htrigger, hrows⟩
  unfold tick
  rw [hreq]
  dsimp only
  rw [hsent]
  refine ⟨?_, rfl⟩
  dsimp only [answered]
  unfold TradeTrack.tick
  rw [if_neg (not_not.mpr hopen), hview]
  dsimp only
  rw [hstep]
  simp only [refreshOpenTradeNotes_status, List.foldl_cons, List.foldl_nil, TradeTrack.carryOut,
    hkind, htrigger, persistExit, hrows, hsuccess, Bool.not_true, Bool.false_eq_true, if_false]

/-- A trade that is not open is left as it is. -/
theorem tick_not_open (h : s.track.trade.status ≠ .«open») :
    (s.tick engine e).track.trade = s.track.trade ∧ (s.tick engine e).books = s.books := by
  have hreq : s.request engine e.market = none := by
    unfold request
    rw [if_pos h]
  unfold tick
  rw [hreq]
  unfold TradeTrack.tick
  rw [if_pos h]
  exact ⟨rfl, rfl⟩

end LiveTrack

end OptionsBot
