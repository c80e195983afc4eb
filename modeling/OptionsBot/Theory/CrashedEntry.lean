import OptionsBot.Core.LiveTick
import OptionsBot.Theory.ExitRetry
import OptionsBot.Theory.RiskBudget
import OptionsBot.Theory.TrailStop

/-!
# An Entry the Process Did Not Survive

A trade's row is committed before its orders are sent and its legs after they have
filled. Whatever happens in between, a row that is later marked closed should mean
that the exchange holds nothing of it.

A crash, or a database that fails, leaves an open row without legs, and the orders
stay on the exchange. The next process drives that row like any other: before its
expiry it is told to close, the exit has an order for each leg row, which is none,
and an exit without orders counts as complete. So the trade is closed and the
position stays. With its legs on record, an exit closes a trade only if every order
of it is complete, and then no more than the tolerance of a complete fill is left,
unless the exchange held more than the lots of the row.

## Main definitions

* `LiveTrack.ClosedHeld`: The trade is closed and the exchange holds some of it.
* `LiveTrack.ExitCovered`: What a tick that exits finds, and when an entry order may
  still fill.

## Theorems

* `remaining_submitExitLegs_complete`: What a complete exit leaves of each leg.
* `openTrade_not_closed`: No end of an entry leaves a closed row.
* `tick_closed_flat`: What a closing tick leaves on the exchange.
* `closed_never_held`: No run under the condition closes a trade that is held.
* `legless_tick_closes`: A row without legs is closed with nothing sent.
-/

namespace OptionsBot

-- The sample runs below compute with rationals.
attribute [local semireducible] Rat.add Rat.sub Rat.mul Rat.inv

namespace LiveExecutor

variable (req : ExitRequest) (script : Nat → ExitLegScript)

/-- A complete exit has taken the lots of the request off every leg, up to the tolerance of a
    complete fill. -/
theorem remaining_submitExitLegs_complete (legs : List LegIntent) (idx : Nat)
    (books : Nat → ReducingBook) (fills : List LegFill)
    (hok : (submitExitLegs req script idx legs books).2 = .ok fills)
    (hall : fills.all LegFill.isComplete = true) (i : Nat) (hi : i < legs.length) :
    ((submitExitLegs req script idx legs books).1 (idx + i)).remaining ≤
      (books (idx + i)).remaining - req.lots + 1 / 1000000000 := by
  induction legs generalizing idx books fills i with
  | nil => exact absurd hi (Nat.not_lt_zero i)
  | cons leg rest ih =>
      rcases submitExitLegs_cons req script idx leg rest books fills hok with
        ⟨fill, later, hfill, rfl, hlater, hbooks⟩
      rw [hbooks]
      rw [List.all_cons, Bool.and_eq_true] at hall
      cases i with
      | zero =>
          -- The orders of the later legs leave this one alone.
          simp only [Nat.add_zero]
          rw [submitExitLegs_before req script rest (idx + 1) _ idx
            (Nat.lt_succ_self idx), Function.update_self]
          rcases placeExitLeg_complete req idx leg (script idx) (books idx) fill hfill hall.1
            with ⟨_, _, hleft, hlots⟩
          have hfilled := ((LegFill.isComplete_iff fill).mp hall.1).2
          rw [hlots] at hfilled
          rw [hleft]
          linarith
      | succ i =>
          have hrest := ih (idx + 1) _ later hlater hall.2 i (Nat.lt_of_succ_lt_succ hi)
          rw [Function.update_of_ne (by omega),
            show idx + 1 + i = idx + (i + 1) by omega] at hrest
          exact hrest

end LiveExecutor

/-- No end of an entry leaves a closed row. -/
theorem openTrade_not_closed (outcome : EntryOutcome) (tradeId : Nat) (intent : Intent)
    (sizing : SizingResult) (market : MarketState)
    (quoteFor : Option (String → Option QuoteSnapshot)) (chain : Option ChainCache)
    (row : Trade × List Leg)
    (hrow : row ∈ (openTrade outcome tradeId intent sizing market quoteFor chain).rows) :
    row.1.status ≠ .closed := by
  unfold openTrade at hrow
  split at hrow
  · exact absurd hrow List.not_mem_nil
  · next first rest _ =>
    have hopen : (newTrade tradeId intent first rest sizing market).status ≠ .closed :=
      TradeStatus.noConfusion
    cases outcome with
    | unwritten => exact absurd hrow List.not_mem_nil
    | interrupted =>
        rw [List.mem_singleton.mp hrow]
        exact hopen
    | answered result raises =>
        simp only at hrow
        split at hrow
        · rw [List.mem_singleton.mp hrow]
          exact hopen
        · next recorded hrecorded =>
          rw [List.mem_singleton.mp hrow]
          -- What comes back leaves the row open or errored.
          rcases (recordEntry_frame _ _ _ _ _ _ recorded hrecorded).2.2.2.2 with herrored | hsame
          · rw [herrored]
            exact TradeStatus.noConfusion
          · rw [hsame]
            exact hopen

namespace LiveTrack

/-- The trade is closed and the exchange holds more of one of its `n` legs than the tolerance of a
    complete fill. -/
def ClosedHeld (n : Nat) (s : LiveTrack) : Prop :=
  s.track.trade.status = .closed ∧ ∃ i, i < n ∧ 1 / 1000000000 < (s.books i).remaining

/-- A tick that exits finds a row for every leg the exchange holds, and no more held than the lots
    it exits; and no order of the entry fills once the trade is closed. -/
def ExitCovered (n : Nat) (engine : ExitEngine) (s : LiveTrack) : LiveEvent → Prop
  | .tick e => ∀ req, s.request engine e.market = some req → ∀ i, i < n →
      (i < s.track.legs.length ∧ (s.books i).remaining ≤ req.lots) ∨
        (s.books i).remaining ≤ 1 / 1000000000
  | .restart => True
  | .later _ _ _ => True
  | .entryFill _ _ => s.track.trade.status ≠ .closed

variable (n : Nat) (engine : ExitEngine) (s : LiveTrack)

/-- What a tick that closes the trade leaves of each leg. -/
theorem tick_closed_flat (e : LiveTick) (hopen : s.track.trade.status = .«open»)
    (hcovered : s.ExitCovered n engine (.tick e))
    (hclosed : (s.tick engine e).track.trade.status = .closed) (i : Nat) (hi : i < n) :
    ((s.tick engine e).books i).remaining ≤ 1 / 1000000000 := by
  rcases s.tick_closed engine e hopen hclosed with ⟨req, result, hreq, hsent, hsuccess, hbooks⟩
  rcases s.request_cases engine e.market req hreq with ⟨_, _, _, _, trigger, _, _, _, _, hrows⟩
  have hlength : req.legs.length = s.track.legs.length :=
    (LiveTrade.exitRequest_sides { trade := s.track.trade, legs := s.track.legs, nav := e.nav
                                   books := s.books } trigger e.market.now req hrows).2
  rw [hbooks]
  unfold LiveExecutor.submitExit at hsent ⊢
  dsimp only at hsent ⊢
  cases hfills : (LiveExecutor.submitExitLegs req e.script 0 req.legs s.books).2 with
  | error err =>
      rw [hfills] at hsent
      cases hsent
  | ok fills =>
      rw [hfills] at hsent
      cases hsent
      -- A held leg has a row, and its order takes what is held. One that is not held gets no more.
      rcases hcovered req hreq i hi with ⟨hrow, hheld⟩ | hflat
      · have hleft := LiveExecutor.remaining_submitExitLegs_complete req e.script req.legs 0 s.books
          fills hfills hsuccess i (hlength ▸ hrow)
        rw [Nat.zero_add] at hleft
        linarith
      · exact (LiveExecutor.remaining_submitExitLegs_le req e.script req.legs 0 s.books i).trans
          hflat

/-- A step under the condition does not close a trade that is held. -/
theorem step_not_closedHeld (e : LiveEvent) (hcovered : s.ExitCovered n engine e)
    (h : ¬ s.ClosedHeld n) : ¬ (s.step engine e).ClosedHeld n := by
  cases e with
  | tick e =>
      rintro ⟨hclosed, i, hi, hheld⟩
      by_cases hopen : s.track.trade.status = .«open»
      · have hflat := s.tick_closed_flat n engine e hopen hcovered hclosed i hi
        exact absurd hheld (not_lt.mpr hflat)
      · rcases s.tick_not_open engine e hopen with ⟨htrade, hbooks⟩
        refine h ⟨?_, i, hi, ?_⟩
        · rw [← htrade]
          exact hclosed
        · rw [← hbooks]
          exact hheld
  | restart => exact h
  | later idx k event =>
      rintro ⟨hclosed, i, hi, hheld⟩
      -- A late fill of an exit order takes from its leg and adds to none.
      refine h ⟨hclosed, i, hi, lt_of_lt_of_le hheld ?_⟩
      simp only [step]
      by_cases hidx : i = idx
      · rw [hidx, Function.update_self]
        exact (s.books idx).remaining_advance_le k event
      · rw [Function.update_of_ne hidx]
  | entryFill idx qty =>
      rintro ⟨hclosed, _⟩
      refine hcovered ?_
      simp only [step] at hclosed
      split_ifs at hclosed
      · exact hclosed
      · exact hclosed

/-- However the entry of a trade has ended, whatever its orders hold on the exchange then, and
    whatever happens after it: if every tick that exits finds a leg row for each leg that is held,
    and no more held than its lots, and no order of the entry fills after the trade is closed, then
    the trade is never closed while the exchange holds some of it. -/
theorem closed_never_held (outcome : EntryOutcome) (tradeId : Nat) (intent : Intent)
    (sizing : SizingResult) (market : MarketState)
    (quoteFor : Option (String → Option QuoteSnapshot)) (chain : Option ChainCache)
    (row : Trade × List Leg)
    (hrow : row ∈ (openTrade outcome tradeId intent sizing market quoteFor chain).rows)
    (books : Nat → ReducingBook)
    (hrun : Run (step · engine) (ExitCovered intent.legs.length engine)
      { track := { trade := row.1, legs := row.2 }, books := books } s) :
    ¬ s.ClosedHeld intent.legs.length := by
  refine hrun.invariant (fun a => ¬ a.ClosedHeld intent.legs.length)
    (fun a e hcovered ha => a.step_not_closedHeld intent.legs.length engine e hcovered ha) ?_
  rintro ⟨hclosed, _⟩
  exact openTrade_not_closed outcome tradeId intent sizing market quoteFor chain row hrow hclosed

/-- An exit of a row without legs sends nothing and closes the trade, whatever is held. -/
theorem legless_tick_closes (e : LiveTick) (req : ExitRequest) (hlegs : s.track.legs = [])
    (hreq : s.request engine e.market = some req) :
    (s.tick engine e).track.trade.status = .closed ∧ (s.tick engine e).books = s.books := by
  rcases s.request_cases engine e.market req hreq with ⟨_, _, _, _, trigger, _, _, _, _, hrows⟩
  have hnone : req.legs = [] := by
    rw [exitRequest, hlegs] at hrows
    cases hrows
    rfl
  have hsent : LiveExecutor.submitExit req e.script e.completedAt s.books =
      (s.books, .ok { success := true, tradeId := req.tradeId, fills := []
                      completedAt := some e.completedAt }) := by
    unfold LiveExecutor.submitExit
    rw [hnone]
    rfl
  have hafter := s.tick_of_success engine e req _ hreq (by rw [hsent]) rfl
  rw [hsent] at hafter
  exact hafter

/-- The sizing of one call. -/
def oneCall : SizingResult := { decision := .approved, intent := callIntent, sizedLots := 1 }

/-- The rows the entry of the call leaves. -/
def callRows (outcome : EntryOutcome) : List (Trade × List Leg) :=
  (openTrade outcome 1 callIntent oneCall callMarket none none).rows

/-- The entry fills, is recorded, and raises after that. -/
def recordedCall : EntryOutcome :=
  .answered (callEntry (entryRequest 1 callIntent oneCall 30)) true

/-- The row of the recorded entry, with its leg, and the row of one that was interrupted. -/
def recordedRow : Trade × List Leg := (callRows recordedCall).head (by decide)

def interruptedRow : Trade × List Leg := (callRows .interrupted).head (by decide)

/-- One call is on the exchange. -/
def callTrack (row : Trade × List Leg) : LiveTrack :=
  { track := { trade := row.1, legs := row.2 }
    books := fun _ => ReducingBook.whole 1 zero_le_one }

/-- A tick at the expiry of the call, at which an order of an exit fills. -/
def callExpiry : LiveTick :=
  { market := { callMarket with now := combine (ymdToOrdinal 2026 5 13) (hourMinute 17 30) }
    nav := { navNow := 0, navOpenToday := 0, navOpenWeek := 0, peakNav := 0 }
    completedAt := combine (ymdToOrdinal 2026 5 13) (hourMinute 17 30)
    script := fun _ => { chain := callChain
                         placement := .answered [.fill 1 420, .mark .filled] (some 1) } }

/-- The entry is recorded before the process ends, and at the expiry the call is sold. -/
theorem closed_never_held_recorded :
    ((callTrack recordedRow).step trailEngine (.tick callExpiry)).track.trade.status = .closed ∧
      ¬ ((callTrack recordedRow).step trailEngine (.tick callExpiry)).ClosedHeld
        callIntent.legs.length := by
  have hlots : ((callTrack recordedRow).request trailEngine callExpiry.market).all
      (fun req => decide ((1 : ℚ) ≤ req.lots)) = true := by decide
  refine ⟨by decide, ?_⟩
  refine closed_never_held trailEngine _ recordedCall 1 callIntent oneCall callMarket none none
    recordedRow (List.head_mem _) _
    (Run.single (callTrack recordedRow) (LiveEvent.tick callExpiry) ?_)
  intro req hreq i hi
  rw [hreq, Option.all_some, decide_eq_true_eq] at hlots
  have hleft : ((callTrack recordedRow).books i).remaining ≤ 1 := sub_le_self 1 (le_refl 0)
  exact Or.inl ⟨lt_of_lt_of_le hi (by decide), hleft.trans hlots⟩

/-- The process ends after the order of the call has filled and before its leg is recorded. At the
    expiry the next one closes the trade, and the call stays on the exchange. -/
theorem interrupted_entry_closed :
    interruptedRow ∈ (openTrade .interrupted 1 callIntent oneCall callMarket none none).rows ∧
      ((callTrack interruptedRow).step trailEngine (.tick callExpiry)).ClosedHeld
        callIntent.legs.length := by
  have hstatus :
      ((callTrack interruptedRow).step trailEngine (.tick callExpiry)).track.trade.status =
        .closed := by decide
  have hheld : 1 / 1000000000 <
      (((callTrack interruptedRow).step trailEngine (.tick callExpiry)).books 0).remaining := by
    decide
  exact ⟨List.head_mem _, hstatus, 0, by decide, hheld⟩

end LiveTrack

end OptionsBot
