import OptionsBot.Core.LiveStop
import OptionsBot.Theory.ExitRetry

/-!
# The Stop Orders of a Trade

A trade should have at most one stop order working on the exchange, on the side
that closes its leg and at the price its notes record, and none once it is closed.

Nothing of it survives a stop that is moved. A new stop is sent on the side of the
leg itself, and its price is noted also when no order has come of it. The cancel
names an id no stop has, so the stops before it stay, and an exit cancels none. Only
a stop that is moved in vain, with an exception the executor does not catch, leaves
everything as it was.

## Main definitions

* `StopsSound`: The stops of a trade are as they should be.
* `Bare`: No stop is working, and an open trade records none.
* `Ours`: Every stop has a generated id.
* `TrailRaises`: Moving the stop raises before an order reaches the exchange.

## Theorems

* `run_stop_stays`: No moved stop and no exit takes a stop off the exchange.
* `stopsSound_step_iff`: When an event leaves a bare trade's stops sound.
* `stopsSound_iff`: Exactly the runs in which they stay sound.
-/

namespace OptionsBot

namespace GuardedTrade

variable (hexdigest : String → String) (s : GuardedTrade)

/-- The stops of a trade are as they should be. -/
structure StopsSound (s : GuardedTrade) : Prop where
  one : (s.stops.filter StopOrder.working).length ≤ 1
  side : ∀ o ∈ s.stops, o.working = true → o.reduceOnly = true ∧
    ∀ leg ∈ s.live.legs, leg.symbol = o.symbol → o.side = leg.side.flip
  noted : ∀ o ∈ s.stops, o.working = true →
    s.live.trade.notes.currentTrailStopPrice = some o.stopPrice
  recorded : s.live.trade.status = .«open» → ∀ price,
    s.live.trade.notes.currentTrailStopPrice = some price →
      ∃ o ∈ s.stops, o.working = true ∧ o.stopPrice = price
  closed : s.live.trade.status = .closed → ∀ o ∈ s.stops, o.working = false

/-- No stop is working, and an open trade records none. -/
structure Bare (s : GuardedTrade) : Prop where
  idle : ∀ o ∈ s.stops, o.working = false
  unset : s.live.trade.status = .«open» → s.live.trade.notes.currentTrailStopPrice = none

/-- Moving the stop of an open trade raises before an order reaches the exchange. -/
def TrailRaises (s : GuardedTrade) : GuardEvent → Prop
  | .trail _ _ _ script => s.live.trade.status = .«open» → ∀ leg, s.live.legs.head? = some leg →
      LiveExecutor.StopRaises script leg.symbol
  | _ => True

theorem Bare.sound (h : s.Bare) : s.StopsSound where
  one := by
    rw [List.filter_eq_nil_iff.mpr (fun o ho => Bool.eq_false_iff.mp (h.idle o ho))]
    exact Nat.zero_le 1
  side o ho hworking := absurd hworking (Bool.eq_false_iff.mp (h.idle o ho))
  noted o ho hworking := absurd hworking (Bool.eq_false_iff.mp (h.idle o ho))
  recorded hopen price hprice := by
    rw [h.unset hopen] at hprice
    cases hprice
  closed _ := h.idle

/-- A cancel changes no order that is done or has another id. -/
theorem cancelStop_eq (clientOrderId : String) (c : Cancellation RestError)
    (stops : List StopOrder)
    (h : ∀ o ∈ stops, o.working = false ∨ o.clientOrderId ≠ clientOrderId) :
    LiveExecutor.cancelStop clientOrderId c stops = stops := by
  refine (List.map_congr_left (fun o ho => ?_)).trans (List.map_id stops)
  rcases h o ho with hdone | hother
  · have hsame : { o with order := o.order.cancel c } = o := by
      rw [o.order.cancel_terminal c hdone]
    rw [hsame, ite_self]
    rfl
  · rw [if_neg hother]
    rfl

/-- What is in a list with one item changed was there, or is the change of an item. -/
theorem mem_modify (f : StopOrder → StopOrder) (stops : List StopOrder) (k : Nat) (o : StopOrder)
    (h : o ∈ stops.modify k f) : o ∈ stops ∨ ∃ a ∈ stops, f a = o := by
  rcases List.mem_iff_getElem?.mp h with ⟨i, hi⟩
  rw [List.getElem?_modify, Option.map_eq_map, Option.map_eq_some_iff] at hi
  rcases hi with ⟨a, ha, hchange⟩
  have hmem := List.mem_of_getElem? ha
  split_ifs at hchange
  · exact Or.inr ⟨a, hmem, hchange⟩
  · exact Or.inl (hchange ▸ hmem)

/-- An exit event leaves the trade row, or closes the trade. -/
theorem step_trade (live : LiveTrade) (e : ExitEvent) :
    (live.step e).trade = live.trade ∨ (live.step e).trade.status = .closed := by
  cases e with
  | attempt trigger now completedAt script =>
      by_cases hopen : live.trade.status = .«open»
      · rw [live.step_open _ _ _ _ hopen]
        rcases live.attempt_cases trigger now completedAt script with ⟨hsame, _⟩ | ⟨hclosed, _⟩
        · exact Or.inl hsame
        · exact Or.inr hclosed
      · rw [live.step_not_open _ _ _ _ hopen]
        exact Or.inl rfl
  | later idx k event => exact Or.inl rfl

/-- Every stop has an id that is generated where it is sent. -/
def Ours : Prop :=
  ∀ o ∈ s.stops, ∃ (tradeId : Nat) (newStopPrice : ℚ) (salt : String),
    o.clientOrderId = stopClientId hexdigest tradeId newStopPrice salt

/-- The engine's cancel hits none of the stops. -/
theorem kept_eq (leg : Leg) (time : Int) (script : StopScript) (h : s.Ours hexdigest) :
    s.kept leg time script = s.stops := by
  refine cancelStop_eq _ _ s.stops (fun o ho => Or.inr ?_)
  rcases h o ho with ⟨tradeId, newStopPrice, salt, hid⟩
  rw [hid]
  exact trailClientId_ne hexdigest tradeId s.live.trade.id leg.legIdx time newStopPrice salt

/-- Moving the stop of a trade adds at most one order to the stops. -/
theorem trail_stops (newStopPrice : ℚ) (time : Int) (salt : String) (script : StopScript)
    (h : s.Ours hexdigest) :
    (s.trail hexdigest newStopPrice time salt script).stops = s.stops ∨
      ∃ o, o.clientOrderId = stopClientId hexdigest s.live.trade.id newStopPrice salt ∧
        (s.trail hexdigest newStopPrice time salt script).stops = o :: s.stops := by
  rcases hlegs : s.live.legs with _ | ⟨leg, rest⟩
  · rw [trail, hlegs]
    exact Or.inl rfl
  · have hkept := s.kept_eq hexdigest leg time script h
    rcases s.trail_cases hexdigest newStopPrice time salt script leg rest hlegs with
      ⟨_, htrail⟩ | ⟨_, htrail | ⟨o, _, _, _, hid, htrail | ⟨_, htrail⟩⟩⟩
    · rw [htrail]
      exact Or.inl hkept
    · rw [htrail]
      exact Or.inl hkept
    · rw [htrail]
      exact Or.inr ⟨o, hid, congrArg (fun stops => o :: stops) hkept⟩
    · rw [htrail]
      exact Or.inr ⟨o, hid, congrArg (fun stops => o :: stops) hkept⟩

/-- Nothing the bot does takes a stop off the exchange, no later stop and no exit. -/
theorem run_stop_stays (start : GuardedTrade) (hours : start.Ours hexdigest) (o : StopOrder)
    (ho : o ∈ start.stops)
    (hrun : Run (step hexdigest) (fun _ e => ∀ k event, e ≠ .stop k event) start s) :
    o ∈ s.stops := by
  refine (hrun.invariant (fun a => a.Ours hexdigest ∧ o ∈ a.stops) (fun a e hbot ha => ?_)
    ⟨hours, ho⟩).2
  cases e with
  | trail newStopPrice time salt script =>
      simp only [step]
      split
      · -- An order that is added is one of the bot's own, so the next cancel misses it too.
        rcases a.trail_stops hexdigest newStopPrice time salt script ha.1 with
          hsame | ⟨added, hid, hadded⟩
        · exact ⟨fun x hx => ha.1 x (hsame ▸ hx), hsame ▸ ha.2⟩
        · refine ⟨fun x hx => ?_, hadded ▸ List.mem_cons_of_mem added ha.2⟩
          rw [hadded] at hx
          rcases List.mem_cons.mp hx with rfl | hold
          · exact ⟨_, _, _, hid⟩
          · exact ha.1 x hold
      · exact ha
  | exit event => exact ha
  | stop k event => exact absurd rfl (hbot k event)

/-- A stop working on the side of its leg is unsound. -/
theorem unsound_of_side (o : StopOrder) (ho : o ∈ s.stops) (hworking : o.working = true)
    (leg : Leg) (hleg : leg ∈ s.live.legs) (hsymbol : o.symbol = leg.symbol)
    (hside : o.side = leg.side) : ¬ s.StopsSound := by
  intro hsound
  have hflip := (hsound.side o ho hworking).2 leg hleg hsymbol.symm
  rw [hside] at hflip
  cases hcase : leg.side with
  | buy =>
      rw [hcase] at hflip
      cases hflip
  | sell =>
      rw [hcase] at hflip
      cases hflip

/-- A price recorded for an open trade without a working stop is unsound. -/
theorem unsound_of_record (hopen : s.live.trade.status = .«open») (price : ℚ)
    (hprice : s.live.trade.notes.currentTrailStopPrice = some price)
    (hidle : ∀ o ∈ s.stops, o.working = false) : ¬ s.StopsSound := by
  intro hsound
  rcases hsound.recorded hopen price hprice with ⟨o, ho, hworking, _⟩
  rw [hidle o ho] at hworking
  cases hworking

section Trail

variable (newStopPrice : ℚ) (time : Int) (salt : String) (script : StopScript) (leg : Leg)
  (rest : List Leg) (hlegs : s.live.legs = leg :: rest)

include hlegs

/-- A stop that is moved without raising leaves a bare trade's stops unsound: its
    price is recorded without an order, or its order is on the side of the leg. -/
theorem trail_unsound (hbare : s.Bare) (hopen : s.live.trade.status = .«open»)
    (hquiet : ¬ LiveExecutor.StopRaises script leg.symbol) :
    ¬ (s.trail hexdigest newStopPrice time salt script).StopsSound := by
  have hleg : leg ∈ s.live.legs := by
    rw [hlegs]
    exact List.mem_cons_self
  have hkept : s.kept leg time script = s.stops :=
    cancelStop_eq _ _ s.stops (fun o ho => Or.inl (hbare.idle o ho))
  rcases s.trail_cases hexdigest newStopPrice time salt script leg rest hlegs with
    ⟨hraises, _⟩ | ⟨_, htrail | ⟨o, hsymbol, hside, _, _, htrail | ⟨hworking, htrail⟩⟩⟩
  · exact absurd hraises hquiet
  · rw [htrail, hkept]
    exact unsound_of_record _ hopen newStopPrice rfl hbare.idle
  · rw [htrail, hkept]
    -- A working order is on the wrong side, and a price without one is on record.
    cases hworking : o.working with
    | true => exact unsound_of_side _ o List.mem_cons_self hworking leg hleg hsymbol hside
    | false =>
        refine unsound_of_record _ hopen newStopPrice rfl (fun x hx => ?_)
        rcases List.mem_cons.mp hx with rfl | hold
        · exact hworking
        · exact hbare.idle x hold
  · rw [htrail]
    exact unsound_of_side _ o List.mem_cons_self hworking leg hleg hsymbol hside

/-- A stop that is moved and raises leaves a bare trade as it was. -/
theorem trail_raises (hbare : s.Bare) (hraises : LiveExecutor.StopRaises script leg.symbol) :
    s.trail hexdigest newStopPrice time salt script = s := by
  have hkept : s.kept leg time script = s.stops :=
    cancelStop_eq _ _ s.stops (fun o ho => Or.inl (hbare.idle o ho))
  rcases s.trail_cases hexdigest newStopPrice time salt script leg rest hlegs with
    ⟨_, htrail⟩ | ⟨hquiet, _⟩
  · rw [htrail, hkept]
  · exact absurd hraises hquiet

end Trail

/-- A stop that is moved leaves a trade without legs as it was. -/
theorem trail_no_legs (newStopPrice : ℚ) (time : Int) (salt : String) (script : StopScript)
    (hlegs : s.live.legs = []) : s.trail hexdigest newStopPrice time salt script = s := by
  unfold trail
  rw [hlegs]

/-- An event at which moving the stop raises, or that moves none, leaves a bare trade
    bare. -/
theorem bare_step (e : GuardEvent) (hbare : s.Bare) (hraises : s.TrailRaises e) :
    (s.step hexdigest e).Bare := by
  cases e with
  | trail newStopPrice time salt script =>
      simp only [step]
      split
      · next hopen =>
        rcases hlegs : s.live.legs with _ | ⟨leg, rest⟩
        · rw [s.trail_no_legs hexdigest newStopPrice time salt script hlegs]
          exact hbare
        · rw [s.trail_raises hexdigest newStopPrice time salt script leg rest hlegs hbare
            (hraises hopen leg (by rw [hlegs]; rfl))]
          exact hbare
      · exact hbare
  | exit event =>
      -- A trade that is still open has its notes as they were.
      refine ⟨hbare.idle, fun hopen => ?_⟩
      simp only [step] at hopen ⊢
      rcases step_trade s.live event with hsame | hclosed
      · rw [hsame] at hopen ⊢
        exact hbare.unset hopen
      · rw [hclosed] at hopen
        cases hopen
  | stop k event =>
      -- An order that is done takes no further event.
      refine ⟨fun o ho => ?_, hbare.unset⟩
      rcases mem_modify _ _ _ _ ho with hold | ⟨a, ha, rfl⟩
      · exact hbare.idle o hold
      · have hdone := hbare.idle a ha
        unfold StopOrder.working at hdone ⊢
        rw [a.order.apply_terminal event hdone]
        exact hdone

/-- An event leaves a bare trade's stops sound just when it moves no stop, or raises
    doing so. -/
theorem stopsSound_step_iff (e : GuardEvent) (hbare : s.Bare) :
    (s.step hexdigest e).StopsSound ↔ s.TrailRaises e := by
  constructor
  · intro hsound
    cases e with
    | trail newStopPrice time salt script =>
        intro hopen leg hleg
        -- The stop goes to the first leg. If that does not raise, the trade is unsound.
        by_contra hquiet
        rcases List.head?_eq_some_iff.mp hleg with ⟨rest, hlegs⟩
        refine s.trail_unsound hexdigest newStopPrice time salt script leg rest hlegs hbare hopen
          hquiet ?_
        have hstep : s.step hexdigest (.trail newStopPrice time salt script) =
            s.trail hexdigest newStopPrice time salt script := if_pos hopen
        rw [← hstep]
        exact hsound
    | exit event => trivial
    | stop k event => trivial
  · exact fun hraises => (s.bare_step hexdigest e hbare hraises).sound

/-- The stops of a trade that is opened without one stay sound over any events just
    when every stop that is moved raises before an order reaches the exchange. -/
theorem stopsSound_iff (hstops : s.stops = [])
    (hunset : s.live.trade.notes.currentTrailStopPrice = none) (events : List GuardEvent) :
    Along (step hexdigest) (fun a e => (a.step hexdigest e).StopsSound) s events ↔
      Along (step hexdigest) TrailRaises s events := by
  refine along_iff (step hexdigest) _ TrailRaises Bare
    (fun a e ha => a.stopsSound_step_iff hexdigest e ha)
    (fun a e ha hraises => a.bare_step hexdigest e ha hraises) s ⟨?_, fun _ => hunset⟩ events
  rw [hstops]
  exact fun o ho => absurd ho List.not_mem_nil

/-- A call of one lot, bought for 150. -/
def boughtCall : GuardedTrade :=
  { live := LiveTrade.opened
      { id := 1, strategyId := .directional, underlying := .btc,
        expiry := some (combine (ymdToOrdinal 2026 5 13) (hourMinute 10 0)),
        entryTs := combine (ymdToOrdinal 2026 5 12) (hourMinute 9 30), lots := 1,
        premiumPaidInr := some 150 }
      [{ tradeId := 1, strategyId := .directional, legIdx := 0, symbol := "C-BTC-97000-130526",
         optionType := some .call, strike := some 97000, side := .buy, lots := 1,
         entryPrice := some 150 }]
      { navNow := 0, navOpenToday := 0, navOpenWeek := 0, peakNav := 0 } }

/-- The stop of the call is moved to 150, with a given answer to the new order. -/
def stopAt150 (placement : Placement RestError) : GuardEvent :=
  .trail 150 1778580000 "salt" { chain := LiveTrade.straddleChain, placement := placement }

/-- The connection is closed when the stop is sent, and later the call is sold. -/
theorem stopsSound_iff_refused : Along (step (fun text => text))
    (fun a e => (a.step (fun text => text) e).StopsSound) boughtCall
    [stopAt150 (.refused (.runtimeError "client has been closed")),
      .exit (LiveTrade.straddleExit (fun _ => true))] := by
  refine (stopsSound_iff (fun text => text) boughtCall rfl rfl _).mpr ⟨?_, trivial, trivial⟩
  intro _ leg hleg
  cases hleg
  exact Or.inr ⟨by decide, _, rfl, rfl⟩

/-- The stop is taken. It is there to buy a second call. -/
theorem stop_on_wrong_side : ¬ ∀ (hexdigest : String → String) (s : GuardedTrade)
    (events : List GuardEvent), s.stops = [] →
    s.live.trade.notes.currentTrailStopPrice = none →
    Along (step hexdigest) (fun a e => (a.step hexdigest e).StopsSound) s events := by
  intro hall
  have hsound := (hall (fun text => text) boughtCall [stopAt150 (.answered [] (some 7))] rfl rfl).1
  have hshape : ((boughtCall.step (fun text => text)
      (stopAt150 (.answered [] (some 7)))).stops.map
        (fun o => (o.working, o.symbol, o.side))) = [(true, "C-BTC-97000-130526", .buy)] := by
    decide
  have hlegs : ((boughtCall.step (fun text => text)
      (stopAt150 (.answered [] (some 7)))).live.legs.map (fun leg => (leg.symbol, leg.side))) =
        [("C-BTC-97000-130526", .buy)] := by
    decide
  rcases List.map_eq_singleton_iff.mp hshape with ⟨o, ho, hfields⟩
  rcases List.map_eq_singleton_iff.mp hlegs with ⟨leg, hleg, hpair⟩
  rw [Prod.mk.injEq, Prod.mk.injEq] at hfields
  rw [Prod.mk.injEq] at hpair
  refine unsound_of_side _ o ?_ hfields.1 leg ?_ ?_ ?_ hsound
  · rw [ho]
    exact List.mem_singleton.mpr rfl
  · rw [hleg]
    exact List.mem_singleton.mpr rfl
  · rw [hfields.2.1, hpair.1]
  · rw [hfields.2.2, hpair.2]

end GuardedTrade

end OptionsBot
