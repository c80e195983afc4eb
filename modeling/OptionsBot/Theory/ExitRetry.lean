import OptionsBot.Core.LiveExit
import OptionsBot.Lib.Run

/-!
# An Exit That Is Tried Again

An exit that is no success is given up as a whole and tried again as a whole: the
next attempt sends an order for every leg, also for those the last one has closed.
Such an order reduces nothing, so the exchange rejects it, and a rejected leg does
not count as closed. An attempt is a success only while something is left of every
leg.

So a trade whose legs are all flat on the exchange stays open whatever is tried,
and the cash of its exit fills is never booked. An attempt that does close the
trade books exactly the fills of its own orders.

## Main definitions

* `ExitSettles`: What an attempt should do with a trade that is flat already.

## Theorems

* `submitExitLegs_complete`: What a success takes, and what it is worth.
* `attempt_cases`: All an attempt can do.
* `attempt_books_iff`: When a closed trade has booked every exit fill.
* `flat_stays_open`: A flat trade stays open and flat, whatever is tried.
* `exitSettles_iff`: Exactly when every attempt settles.
-/

namespace OptionsBot

-- The sample runs below compute with rationals.
attribute [local semireducible] Rat.add Rat.sub Rat.mul Rat.inv

namespace LiveExecutor

variable (req : ExitRequest) (script : Nat → ExitLegScript)

/-- The legs from a place on leave the positions before it alone. -/
theorem submitExitLegs_before (legs : List LegIntent) (idx : Nat) (books : Nat → ReducingBook)
    (i : Nat) (hi : i < idx) : (submitExitLegs req script idx legs books).1 i = books i := by
  induction legs generalizing idx books with
  | nil => rfl
  | cons leg rest ih =>
      have hsent : ∀ book, Function.update books idx book i = books i :=
        fun book => Function.update_of_ne hi.ne book books
      simp only [submitExitLegs]
      split
      · exact hsent _
      · exact (ih (idx + 1) _ (Nat.lt_succ_of_lt hi)).trans (hsent _)

/-- The cash of the legs from a place on depends on their positions only. -/
theorem cashFrom_congr (books books' : Nat → ReducingBook) (sides : List Side) (idx : Nat)
    (h : ∀ i, idx ≤ i → books i = books' i) :
    LiveTrade.cashFrom books idx sides = LiveTrade.cashFrom books' idx sides := by
  induction sides generalizing idx with
  | nil => rfl
  | cons side rest ih =>
      unfold LiveTrade.cashFrom
      rw [h idx le_rfl, ih (idx + 1) (fun i hi => h i (Nat.le_of_succ_le hi))]

/-- If every leg counts as closed, something was left of each, and the fills are
    what the orders have added to the cash. -/
theorem submitExitLegs_complete (legs : List LegIntent) (idx : Nat) (books : Nat → ReducingBook)
    (fills : List LegFill) (hok : (submitExitLegs req script idx legs books).2 = .ok fills)
    (hall : fills.all LegFill.isComplete = true) :
    (∀ i, i < legs.length → ¬ (books (idx + i)).Flat) ∧
      LiveTrade.cashFrom (submitExitLegs req script idx legs books).1 idx
          (legs.map LegIntent.side) =
        LiveTrade.cashFrom books idx (legs.map LegIntent.side) + exitCashflowInr fills := by
  induction legs generalizing idx books fills with
  | nil =>
      cases hok
      exact ⟨fun i hi => absurd hi (Nat.not_lt_zero i), (add_zero _).symm⟩
  | cons leg rest ih =>
      rcases submitExitLegs_cons req script idx leg rest books fills hok with
        ⟨fill, later, hfill, rfl, hlater, hbooks⟩
      rw [hbooks]
      rw [List.all_cons, Bool.and_eq_true] at hall
      -- The positions the later legs find differ at the place of this leg only.
      rcases ih (idx + 1) _ later hlater hall.2 with ⟨hleft, hcash⟩
      rcases placeExitLeg_complete req idx leg (script idx) (books idx) fill hfill hall.1 with
        ⟨_, hcost, _⟩
      refine ⟨fun i hi hflat => ?_, ?_⟩
      · -- A leg counts as closed only if its own order has found something left.
        cases i with
        | zero =>
            have hnot := (placeExitLeg_flat req idx leg (script idx) (books idx) hflat).2
              fill hfill
            rw [hall.1] at hnot
            cases hnot
        | succ i =>
            refine hleft i (Nat.lt_of_succ_lt_succ hi) ?_
            rw [Function.update_of_ne (by omega)]
            rwa [show idx + 1 + i = idx + (i + 1) by omega]
      · -- The later orders leave the position of this leg alone.
        simp only [List.map_cons, LiveTrade.cashFrom]
        rw [hcash, submitExitLegs_before req script rest (idx + 1) _ idx (Nat.lt_succ_self idx),
          Function.update_self, cashFrom_congr _ books _ (idx + 1)
            (fun i hi => Function.update_of_ne (Nat.ne_of_gt hi) _ _)]
        unfold exitCashflowInr
        rw [List.map_cons, List.sum_cons, hcost]
        ring

/-- Sending the orders of an exit leaves no more of any leg than there was. -/
theorem remaining_submitExitLegs_le (legs : List LegIntent) (idx : Nat)
    (books : Nat → ReducingBook) (i : Nat) :
    ((submitExitLegs req script idx legs books).1 i).remaining ≤ (books i).remaining := by
  induction legs generalizing idx books with
  | nil => exact le_rfl
  | cons leg rest ih =>
      have hrun : (placeExitLeg req idx leg (script idx) (books idx)).book.remaining ≤
          (books idx).remaining := by
        unfold placeExitLeg
        simp only
        split
        · exact le_rfl
        · exact ReducingBook.remaining_place_le _ _ _ _ _
      have hsent : (Function.update books idx
          (placeExitLeg req idx leg (script idx) (books idx)).book i).remaining ≤
            (books i).remaining := by
        by_cases hi : i = idx
        · rw [hi, Function.update_self]
          exact hrun
        · rw [Function.update_of_ne hi]
      simp only [submitExitLegs]
      -- An order that raises ends the loop with what it has sent so far.
      split
      · exact hsent
      · exact (ih (idx + 1) _).trans hsent

end LiveExecutor

namespace LiveTrade

variable (s : LiveTrade)

/-- The legs of an exit request are those of the trade, in order. -/
theorem exitRequest_sides (trigger : ExitTrigger) (now : DateTime) (req : ExitRequest)
    (h : exitRequest s.trade s.legs trigger now = .ok req) :
    req.legs.map LegIntent.side = s.sides ∧ req.legs.length = s.legs.length := by
  unfold exitRequest at h
  rcases hmap : (s.legs.insertionSort (fun a b => a.legIdx ≤ b.legIdx)).mapM
      (exitLeg s.trade now) with e | intents
  · rw [hmap] at h
    cases h
  · rw [hmap] at h
    cases h
    refine ⟨?_, ?_⟩
    · refine map_mapM_ok (exitLeg s.trade now) LegIntent.side Leg.side (fun leg li hli => ?_) _ _
        hmap
      unfold exitLeg at hli
      simp only at hli
      -- The two branches differ in the expiry of the leg only.
      split at hli
      · cases hli
        rfl
      · rcases hexpiry : expiryFromLegSymbol leg.symbol now with e | expiry
        · rw [hexpiry] at hli
          cases hli
        · rw [hexpiry] at hli
          cases hli
          rfl
    · rw [length_mapM_ok _ _ _ hmap, List.length_insertionSort]

/-- Closing the rows does not change the order and the sides of the legs. -/
theorem sides_closed (result : ExitResult) (next : LiveTrade)
    (h : next.legs = s.legs.map (closedLeg result)) : next.sides = s.sides := by
  unfold sides
  rw [h, ← List.map_insertionSort (fun a b : Leg => a.legIdx ≤ b.legIdx) _ (closedLeg result) s.legs
    (fun _ _ _ _ => Iff.rfl), List.map_map]
  rfl

section Attempt

variable (trigger : ExitTrigger) (now completedAt : DateTime) (script : Nat → ExitLegScript)

/-- All an attempt can do: leave the rows, or close the trade, if something is left
    of every leg, and book what its own orders have added to the cash. -/
theorem attempt_cases :
    ((s.attempt trigger now completedAt script).trade = s.trade ∧
        (s.attempt trigger now completedAt script).legs = s.legs) ∨
      ((s.attempt trigger now completedAt script).trade.status = .closed ∧
        (s.attempt trigger now completedAt script).legs.length = s.legs.length ∧
        (∀ i, i < s.legs.length → ¬ (s.books i).Flat) ∧
        ∃ cash, (s.attempt trigger now completedAt script).trade.realisedPnlInr =
            some (s.entryCash + cash) ∧
          (s.attempt trigger now completedAt script).exitCash = s.exitCash + cash) := by
  unfold attempt
  rcases hreq : exitRequest s.trade s.legs trigger now with e | req
  · exact Or.inl ⟨rfl, rfl⟩
  · simp only
    rcases hsent : (LiveExecutor.submitExit req script completedAt s.books).2 with e | result
    · exact Or.inl ⟨rfl, rfl⟩
    · simp only
      rcases hexit : persistExit (fun _ => result) s.trade s.legs trigger s.nav now with
        e | ⟨trade, legs, nav⟩
      · exact Or.inl ⟨rfl, rfl⟩
      · simp only
        rcases persistExit_cases _ _ _ _ _ _ _ _ _ hexit with
          ⟨_, _, ⟨_, htrade, hlegs, _⟩ | ⟨hsuccess, htrade, hlegs, _⟩⟩
        · exact Or.inl ⟨htrade, hlegs⟩
        · right
          -- A success has the fills of all legs, each of them complete.
          rcases hfills : (LiveExecutor.submitExitLegs req script 0 req.legs s.books).2 with
            e | fills
          · simp only [LiveExecutor.submitExit, hfills] at hsent
            cases hsent
          · simp only [LiveExecutor.submitExit, hfills] at hsent
            cases hsent
            rcases exitRequest_sides s trigger now req hreq with ⟨hsides, hlength⟩
            rcases LiveExecutor.submitExitLegs_complete req script req.legs 0 s.books fills hfills
              hsuccess with ⟨hleft, hcash⟩
            rw [hsides] at hcash
            refine ⟨?_, ?_, fun i hi => ?_, exitCashflowInr fills, ?_, ?_⟩
            · rw [htrade]
            · rw [hlegs, List.length_map]
            · have hnot := hleft i (hlength.symm ▸ hi)
              rwa [Nat.zero_add] at hnot
            · rw [htrade]
              rfl
            · unfold exitCash
              rw [sides_closed s _ _ hlegs]
              exact hcash

/-- An attempt leaves no more of any leg than there was. -/
theorem remaining_attempt_le (i : Nat) :
    ((s.attempt trigger now completedAt script).books i).remaining ≤ (s.books i).remaining := by
  unfold attempt
  split
  · exact le_rfl
  · next req _ =>
    have hsent := LiveExecutor.remaining_submitExitLegs_le req script req.legs 0 s.books i
    simp only
    split
    · exact hsent
    · split
      · exact hsent
      · exact hsent

/-- An attempt on a flat trade leaves the rows. -/
theorem attempt_flat (hlegs : 0 < s.legs.length) (hflat : s.AllFlat) :
    (s.attempt trigger now completedAt script).trade = s.trade ∧
      (s.attempt trigger now completedAt script).legs = s.legs := by
  rcases s.attempt_cases trigger now completedAt script with hsame | ⟨_, _, hleft, _⟩
  · exact hsame
  · exact absurd (hflat 0 hlegs) (hleft 0 hlegs)

/-- An attempt that closes a trade books every exit fill there is just when the
    fills of the earlier attempts are worth nothing. -/
theorem attempt_books_iff (hopen : s.trade.status = .«open»)
    (hclosed : (s.attempt trigger now completedAt script).trade.status = .closed) :
    (s.attempt trigger now completedAt script).trade.realisedPnlInr =
        some (s.entryCash + (s.attempt trigger now completedAt script).exitCash) ↔
      s.exitCash = 0 := by
  rcases s.attempt_cases trigger now completedAt script with
    ⟨hsame, _⟩ | ⟨_, _, _, cash, hbook, hcash⟩
  · rw [hsame, hopen] at hclosed
    cases hclosed
  · rw [hbook, hcash, Option.some.injEq, add_right_inj, eq_comm, add_eq_right]

end Attempt

/-- An attempt on a flat trade closes it and books every exit fill. -/
def ExitSettles (s : LiveTrade) : ExitEvent → Prop
  | .attempt trigger now completedAt script =>
    s.trade.status = .«open» → s.AllFlat →
      (s.step (.attempt trigger now completedAt script)).trade.status = .closed ∧
      (s.step (.attempt trigger now completedAt script)).trade.realisedPnlInr =
        some (s.entryCash + (s.step (.attempt trigger now completedAt script)).exitCash)
  | .later _ _ _ => True

/-- An attempt on an open trade finds something left of a leg. -/
def SomethingLeft (s : LiveTrade) : ExitEvent → Prop
  | .attempt _ _ _ _ => s.trade.status = .«open» → ¬ s.AllFlat
  | .later _ _ _ => True

theorem step_legs (e : ExitEvent) : (s.step e).legs.length = s.legs.length := by
  cases e with
  | attempt trigger now completedAt script =>
      by_cases hopen : s.trade.status = .«open»
      · rw [s.step_open _ _ _ _ hopen]
        rcases s.attempt_cases trigger now completedAt script with ⟨_, hsame⟩ | ⟨_, hlength, _⟩
        · rw [hsame]
        · exact hlength
      · rw [s.step_not_open _ _ _ _ hopen]
  | later idx k event => rfl

theorem remaining_step_le (e : ExitEvent) (i : Nat) :
    ((s.step e).books i).remaining ≤ (s.books i).remaining := by
  cases e with
  | attempt trigger now completedAt script =>
      by_cases hopen : s.trade.status = .«open»
      · rw [s.step_open _ _ _ _ hopen]
        exact s.remaining_attempt_le trigger now completedAt script i
      · rw [s.step_not_open _ _ _ _ hopen]
  | later idx k event =>
      simp only [step]
      by_cases hi : i = idx
      · rw [hi, Function.update_self]
        exact (s.books idx).remaining_advance_le k event
      · rw [Function.update_of_ne hi]

/-- A trade that is flat while it is open stays both, whatever is tried. -/
theorem flat_stays_open (start : LiveTrade) (hlegs : 0 < start.legs.length)
    (hopen : start.trade.status = .«open») (hflat : start.AllFlat)
    (hrun : Run step (fun _ _ => True) start s) : s.trade.status = .«open» ∧ s.AllFlat := by
  refine (hrun.invariant
    (fun a => 0 < a.legs.length ∧ a.trade.status = .«open» ∧ a.AllFlat)
    (fun a e _ ha => ⟨?_, ?_, ?_⟩) ⟨hlegs, hopen, hflat⟩).2
  · rw [a.step_legs e]
    exact ha.1
  · cases e with
    | attempt trigger now completedAt script =>
        have hsame := (a.attempt_flat trigger now completedAt script ha.1 ha.2.2).1
        rw [a.step_open _ _ _ _ ha.2.1, hsame]
        exact ha.2.1
    | later idx k event => exact ha.2.1
  · intro i hi
    rw [a.step_legs e] at hi
    exact (ha.2.2 i hi).of_le (a.remaining_step_le e i)

/-- An attempt on a flat trade never settles it. -/
theorem exitSettles_iff_somethingLeft (e : ExitEvent) (hlegs : 0 < s.legs.length) :
    s.ExitSettles e ↔ s.SomethingLeft e := by
  cases e with
  | attempt trigger now completedAt script =>
      constructor
      · intro hsettles hopen hflat
        have hclosed := (hsettles hopen hflat).1
        have hsame := (s.attempt_flat trigger now completedAt script hlegs hflat).1
        rw [s.step_open _ _ _ _ hopen, hsame, hopen] at hclosed
        cases hclosed
      · -- There is nothing to show of a trade that is not flat.
        intro hleft hopen hflat
        exact absurd hflat (hleft hopen)
  | later idx k event => exact Iff.rfl

/-- In any sequence of attempts and fills, every attempt settles just when none finds
    the trade flat. -/
theorem exitSettles_iff (hlegs : 0 < s.legs.length) (events : List ExitEvent) :
    Along step ExitSettles s events ↔ Along step SomethingLeft s events := by
  refine along_iff step ExitSettles SomethingLeft (fun a => 0 < a.legs.length)
    (fun a e ha => a.exitSettles_iff_somethingLeft e ha) (fun a e ha _ => ?_) s hlegs events
  rw [a.step_legs e]
  exact ha

/-- The instruments of a straddle. -/
def straddleChain : ChainCache :=
  ChainCache.empty.refreshInstruments
    [{ contractType := some "call_options", symbol := some "C-BTC-97000-130526", id := some 1,
       contractValue := some (1 / 1000), lotSize := none, tickSize := none, state := none },
     { contractType := some "put_options", symbol := some "P-BTC-97000-130526", id := some 2,
       contractValue := some (1 / 1000), lotSize := none, tickSize := none, state := none }]

/-- A straddle of one lot, bought for 300. -/
def straddle : LiveTrade :=
  opened
    { id := 1, strategyId := .longStraddle, underlying := .btc,
      expiry := some (combine (ymdToOrdinal 2026 5 13) (hourMinute 10 0)),
      entryTs := combine (ymdToOrdinal 2026 5 12) (hourMinute 9 30), lots := 1,
      premiumPaidInr := some 300 }
    [{ tradeId := 1, strategyId := .longStraddle, legIdx := 0, symbol := "C-BTC-97000-130526",
       optionType := some .call, strike := some 97000, side := .buy, lots := 1,
       entryPrice := some 150 },
     { tradeId := 1, strategyId := .longStraddle, legIdx := 1, symbol := "P-BTC-97000-130526",
       optionType := some .put, strike := some 97000, side := .buy, lots := 1,
       entryPrice := some 150 }]
    { navNow := 0, navOpenToday := 0, navOpenWeek := 0, peakNav := 0 }

/-- An attempt at which the first order fills at 200 and the second at 80, as far as
    they are taken. -/
def straddleExit (taken : Nat → Bool) : ExitEvent :=
  .attempt .premiumStop (combine (ymdToOrdinal 2026 5 12) (hourMinute 10 0))
    (combine (ymdToOrdinal 2026 5 12) (hourMinute 10 0)) (fun idx =>
      { chain := straddleChain
        placement :=
          if taken idx then
            .answered [.fill 1 (if idx = 0 then 200 else 80), .mark .filled] (some idx)
          else .refused (.deltaRestError "rate limited") })

/-- After an attempt at which no order is taken, one closes the straddle. -/
theorem exitSettles_iff_straddle : Along step ExitSettles straddle
    [straddleExit (fun _ => false), straddleExit (fun _ => true)] := by
  refine (exitSettles_iff straddle (by decide) _).mpr ⟨fun _ => ?_, fun _ => ?_, trivial⟩
  · decide
  · decide

/-- The call is sold at the first attempt and the put at the second. The third finds
    nothing to do, and the straddle stays open. -/
theorem straddle_stays_open : ¬ ∀ (s : LiveTrade) (events : List ExitEvent),
    0 < s.legs.length → Along step ExitSettles s events := by
  intro hall
  rcases hall straddle [straddleExit (fun idx => idx = 0), straddleExit (fun _ => true),
    straddleExit (fun _ => true)] (by decide) with ⟨_, _, hsettles, _⟩
  have hopen : ((straddle.step (straddleExit (fun idx => idx = 0))).step
      (straddleExit (fun _ => true))).trade.status = .«open» := by decide
  have hflat : ((straddle.step (straddleExit (fun idx => idx = 0))).step
      (straddleExit (fun _ => true))).AllFlat := by decide
  have hstill : (((straddle.step (straddleExit (fun idx => idx = 0))).step
      (straddleExit (fun _ => true))).step (straddleExit (fun _ => true))).trade.status =
        .«open» := by decide
  have hclosed := (hsettles hopen hflat).1
  rw [straddleExit] at hstill
  cases hstill.symm.trans hclosed

end LiveTrade

end OptionsBot
