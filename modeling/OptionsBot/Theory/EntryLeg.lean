import OptionsBot.Core.LiveExecutor

/-!
# What One Entry Leg Leaves on the Exchange

A leg sends up to two orders, and the second is for all the lots again. Whether
the leg stays within its size therefore depends on what the first order executed
before, during or after its cancel, which the leg does not look at.

A leg ends in one of five ways, told apart by what the leg is shown, and each
way fixes which orders are on the exchange and which fill is returned. All later
results go through that list rather than through the code.

## Main definitions

* `LegCall`: The arguments of `placeEntryLeg`, with the exchange's script.
* `LegCall.ends`: Which of the five ways the leg ends in.
* `LegCall.finalMaker`, `LegCall.finalIoc`: Its orders once everything settled.
* `LegCall.Accounted`: The leg stays within its size, and a complete fill
  accounts for everything executed.

## Theorems

* `submitAndWait_spec`: A fill that is returned was shown by an order of the
  requested size.
* `submitAndWait_done`, `submitAndWait_complete`: A complete fill is all its
  order will ever execute, at the price of all its fills.
* `run_eq`: What the leg leaves behind, for each way it ends.
* `placeEntryLeg_accounted_iff`: Exactly when a leg is accounted for.
* `accounted_of_unfilled`: A leg whose maker order the exchange never fills is.
-/

namespace OptionsBot

namespace LiveExecutor

/-- A fill that is returned was shown by the order, now or earlier. -/
theorem submitAndWait_spec (t : LegTicket) (x : OrderScript RestError) (fill : LegFill)
    (h : (submitAndWait t x).2 = .ok fill) :
    ∃ o r, (submitAndWait t x).1 = some o ∧ fill = orderToLegFill r t ∧ Shows r o := by
  unfold submitAndWait at h ⊢
  cases hp : x.placement with
  | refused e =>
      simp only [hp, reduceCtorEq] at h
  | unanswered e =>
      simp only [hp, reduceCtorEq] at h
  | answered events id =>
      simp only [hp] at h ⊢
      by_cases hc : (orderToLegFill (((newOrder t).run events).report id) t).isComplete = true
      · rw [if_pos hc] at h ⊢
        cases h
        exact ⟨_, _, rfl, rfl, Shows.now _ id⟩
      · rw [if_neg hc] at h ⊢
        rcases hw : (((newOrder t).run events).pollUntilDone none x.polls).2 with e | ⟨_ | report⟩
        · simp only [hw, reduceCtorEq] at h
        · simp only [hw] at h ⊢
          cases h
          -- No poll found the order: the fill is the one in the answer.
          rcases Order.pollUntilDone_run x.polls ((newOrder t).run events) none with ⟨later, hl⟩
          refine ⟨_, _, rfl, rfl, ?_⟩
          rw [hl]
          exact (Shows.now _ id).run later
        · simp only [hw] at h ⊢
          cases h
          refine ⟨_, _, rfl, rfl, ?_⟩
          exact Order.pollUntilDone_shows x.polls _ none (fun r hr => by cases hr) report hw

theorem submitAndWait_size (t : LegTicket) (x : OrderScript RestError) (o : Order)
    (h : (submitAndWait t x).1 = some o) : o.size = t.lots := by
  have hnew : (newOrder t).size = t.lots := rfl
  unfold submitAndWait at h
  cases hp : x.placement with
  | refused e =>
      simp only [hp, reduceCtorEq] at h
  | unanswered e =>
      simp only [hp, Option.some.injEq] at h
      rw [← h, hnew]
  | answered events id =>
      simp only [hp] at h
      rcases Order.pollUntilDone_run x.polls ((newOrder t).run events) none with ⟨later, hl⟩
      by_cases hc : (orderToLegFill (((newOrder t).run events).report id) t).isComplete = true
      · rw [if_pos hc] at h
        cases h
        rw [Order.run_size, hnew]
      · rw [if_neg hc] at h
        have ho : (((newOrder t).run events).pollUntilDone none x.polls).1 = o := by
          split at h <;> simpa only [Option.some.injEq] using h
        rw [← ho, hl, Order.run_size, Order.run_size, hnew]

/-- Of an order that the exchange never fills, nothing is executed. -/
theorem submitAndWait_unfilled (t : LegTicket) (x : OrderScript RestError) (hx : x.Unfilled)
    (o : Order) (h : (submitAndWait t x).1 = some o) : o.executed = 0 := by
  have hnew : (newOrder t).executed = 0 := rfl
  unfold submitAndWait at h
  cases hp : x.placement with
  | refused e =>
      simp only [hp, reduceCtorEq] at h
  | unanswered e =>
      simp only [hp, Option.some.injEq] at h
      rw [← h, hnew]
  | answered events id =>
      simp only [hp] at h
      have hplaced := (Order.run_marks (newOrder t) events (hx.placement events id hp)).trans hnew
      have hpolled := Order.pollUntilDone_marks x.polls ((newOrder t).run events) none hx.polls
      split at h
      · cases h
        exact hplaced
      · split at h <;> cases h <;> exact hpolled.trans hplaced

/-- A complete fill shows a finished order, and all of its quantity. -/
theorem submitAndWait_done (t : LegTicket) (x : OrderScript RestError) (fill : LegFill)
    (h : (submitAndWait t x).2 = .ok fill) (hc : fill.isComplete = true) :
    ∃ o id, (submitAndWait t x).1 = some o ∧ o.working = false ∧
      fill = orderToLegFill (o.report id) t ∧ fill.qtyFilled = o.executed := by
  rcases submitAndWait_spec t x fill h with ⟨o, r, ho, hfill, hshows⟩
  rw [hfill] at hc
  rcases hshows.of_terminal .filled (orderToLegFill_complete r t hc).1 rfl with ⟨id, hr, hdone⟩
  -- A terminal report is up to date, so the fill shows the order as it stays.
  rw [hr] at hfill
  refine ⟨o, id, ho, hdone, hfill, ?_⟩
  rw [hfill]
  rfl

/-- The price of a complete fill accounts for every fill of its order. -/
theorem submitAndWait_complete (t : LegTicket) (x : OrderScript RestError) (fill : LegFill)
    (hlots : 1 ≤ t.lots) (h : (submitAndWait t x).2 = .ok fill) (hc : fill.isComplete = true) :
    ∃ o, (submitAndWait t x).1 = some o ∧ o.working = false ∧ fill.qtyFilled = o.executed ∧
      ∃ p, fill.avgFillPrice = some p ∧ p * o.executed = o.notional := by
  rcases submitAndWait_done t x fill h hc with ⟨o, id, ho, hdone, hfill, hq⟩
  -- One lot less the tolerance is still a positive quantity.
  have hpos : 0 < o.executed := by
    have h1 : (1 : ℚ) ≤ t.lots := by exact_mod_cast hlots
    rw [hfill] at hc
    have hqty : (t.lots : ℚ) - 1 / 1000000000 ≤ o.executed := (orderToLegFill_complete _ t hc).2
    linarith
  rcases o.report_price id hpos with ⟨p, hp, hmul⟩
  have havg : (orderToLegFill (o.report id) t).avgFillPrice = (o.report id).averageFillPrice :=
    if_pos hpos
  refine ⟨o, ho, hdone, hq, p, ?_, hmul⟩
  rw [hfill, havg]
  exact hp

/-- The arguments of `placeEntryLeg`. -/
structure LegCall where
  strategyId : StrategyId
  tradeId : Nat
  legIdx : Nat
  leg : LegIntent
  lots : Nat
  slipBps : Nat
  script : LegScript

/-- The quantity an order has executed, nothing if it was never placed. -/
def executedOf (o : Option Order) : ℚ := (o.map Order.executed).getD 0

/-- The notional of an order, nothing if it was never placed. -/
def notionalOf (o : Option Order) : ℚ := (o.map Order.notional).getD 0

/-- The ways a leg ends. -/
inductive LegEnd where
  | unquoted
  | makerRaised
  | makerComplete
  | cancelRaised
  | replaced
  deriving DecidableEq

namespace LegCall

variable (c : LegCall)

def run : LegRun := placeEntryLeg c.strategyId c.tradeId c.legIdx c.leg c.lots c.slipBps c.script

def ticket (purpose : String) : LegTicket :=
  legTicket c.strategyId c.tradeId c.legIdx c.leg c.lots purpose

/-- The maker order as last polled, and the fill it was shown with. -/
def makerShown : Option Order × Except RestError LegFill :=
  submitAndWait (c.ticket "entry") c.script.maker

/-- The maker order after its cancel, and how the cancel ended. -/
def makerCancelled : Option Order × Except RestError Unit :=
  cancelOpenOrder c.makerShown.1 c.script.maker.cancellation

/-- The second order as last polled, and the fill it was shown with. -/
def iocShown : Option Order × Except RestError LegFill :=
  submitAndWait (c.ticket "entry_ioc") c.script.ioc

/-- The chain lists the symbol, with a quote that has a middle. -/
def quoted : Bool :=
  (c.script.chain.getInstrument c.leg.symbol).isSome ∧
    ((c.script.chain.getQuote c.leg.symbol).bind QuoteSnapshot.mid).isSome

/-- How the leg ends, by what it is shown. -/
def ends : LegEnd :=
  if c.quoted then
    match c.makerShown.2 with
    | .error _ => .makerRaised
    | .ok fill =>
      if fill.isComplete then .makerComplete
      else
        match c.makerCancelled.2 with
        | .error _ => .cancelRaised
        | .ok () => .replaced
  else .unquoted

/-- What the leg leaves behind, for each way it ends. -/
theorem run_eq :
    match c.ends with
    | .unquoted => c.run.maker = none ∧ c.run.ioc = none ∧
        c.run.result = .ok (rejectedFill { c.ticket "entry" with clientOrderId := .missingQuote }
          none)
    | .makerRaised => c.run.maker = c.makerShown.1 ∧ c.run.ioc = none ∧
        ∃ e, c.run.result = .error e
    | .makerComplete => c.run.maker = c.makerShown.1 ∧ c.run.ioc = none ∧
        ∃ fill, c.makerShown.2 = .ok fill ∧ fill.isComplete = true ∧ c.run.result = .ok fill
    | .cancelRaised => c.run.maker = c.makerCancelled.1 ∧ c.run.ioc = none ∧
        ∃ e, c.run.result = .error e
    | .replaced => c.run.maker = c.makerCancelled.1 ∧ c.run.ioc = c.iocShown.1 ∧
        c.run.result = c.iocShown.2 := by
  unfold ends
  by_cases hq : c.quoted = true
  · rw [if_pos hq]
    rw [quoted, decide_eq_true_iff] at hq
    rcases hq with ⟨hinst, hmid⟩
    rcases Option.isSome_iff_exists.mp hinst with ⟨inst, hi⟩
    rcases Option.isSome_iff_exists.mp hmid with ⟨mid, hm⟩
    rcases Option.bind_eq_some_iff.mp hm with ⟨quote, hquote, hqm⟩
    have hnone : quote.mid.isNone = false := by rw [hqm]; rfl
    rcases iocLimitPrice_isSome quote c.leg.side c.slipBps inst.tickSize mid hqm with ⟨price, hp⟩
    have hmaker : submitAndWait (legTicket c.strategyId c.tradeId c.legIdx c.leg c.lots "entry")
        c.script.maker = c.makerShown := rfl
    have hcancel : cancelOpenOrder c.makerShown.1 c.script.maker.cancellation =
        c.makerCancelled := rfl
    have hioc : submitAndWait (legTicket c.strategyId c.tradeId c.legIdx c.leg c.lots "entry_ioc")
        c.script.ioc = c.iocShown := rfl
    -- The code and `ends` look at the same three answers in the same order.
    unfold run placeEntryLeg
    simp only [hi, hquote, hnone, Bool.false_eq_true, if_false, hmaker]
    rcases hshown : c.makerShown.2 with e | fill
    · exact ⟨rfl, rfl, e, rfl⟩
    · by_cases hc : fill.isComplete = true
      · simp only [if_pos hc]
        exact ⟨trivial, trivial, fill, rfl, hc, rfl⟩
      · simp only [if_neg hc, hcancel]
        rcases hcan : c.makerCancelled.2 with e | u
        · exact ⟨rfl, rfl, e, rfl⟩
        · simp only [hp, hioc, and_self]
  · rw [if_neg hq]
    rw [quoted, decide_eq_true_iff, not_and_or] at hq
    -- No quote, no instrument, or no middle: the same fill each time.
    unfold run placeEntryLeg
    rcases hquote : c.script.chain.getQuote c.leg.symbol with _ | quote
    · exact ⟨rfl, rfl, rfl⟩
    · rcases hi : c.script.chain.getInstrument c.leg.symbol with _ | inst
      · exact ⟨rfl, rfl, rfl⟩
      · have hnone : quote.mid.isNone = true := by
          rw [hquote, hi] at hq
          rcases hq with hq | hq
          · exact absurd rfl hq
          · rw [Option.bind_some] at hq
            cases hmid : quote.mid with
            | none => rfl
            | some mid =>
                rw [hmid] at hq
                exact absurd rfl hq
        simp only [hnone, if_true]
        exact ⟨trivial, trivial, rfl⟩

/-- The maker order once everything has settled. -/
def finalMaker : Option Order := c.run.maker.map (fun o => o.run c.script.maker.late)

/-- The second order once everything has settled. -/
def finalIoc : Option Order := c.run.ioc.map (fun o => o.run c.script.ioc.late)

theorem finalIoc_none (hioc : c.run.ioc = none) : c.finalIoc = none := by
  rw [finalIoc, hioc, Option.map_none]

/-- Everything the leg's orders executed. -/
def totalExecuted : ℚ := executedOf c.finalMaker + executedOf c.finalIoc

def totalNotional : ℚ := notionalOf c.finalMaker + notionalOf c.finalIoc

/-- The leg executed no more than its size, and a complete fill accounts for
    everything it executed. -/
def Accounted : Prop :=
  c.totalExecuted ≤ c.lots ∧
    ∀ fill, c.run.result = .ok fill → fill.isComplete = true →
      fill.qtyFilled = c.totalExecuted ∧
        ∃ p, fill.avgFillPrice = some p ∧ p * c.totalExecuted = c.totalNotional

theorem executedOf_nonneg (o : Option Order) : 0 ≤ executedOf o := by
  cases o with
  | none => exact le_refl 0
  | some o => exact o.executed_nonneg

/-- Whatever happens to an order, it executes at most its size. -/
theorem executedOf_le (o : Option Order) (f : Order → Order) (size : ℚ) (hsize : 0 ≤ size)
    (h : ∀ x, o = some x → (f x).size = size) : executedOf (o.map f) ≤ size := by
  cases o with
  | none => exact hsize
  | some x =>
      rw [← h x rfl]
      exact (f x).executed_le

theorem makerShown_le :
    executedOf (c.makerShown.1.map (fun o => o.run c.script.maker.late)) ≤ c.lots := by
  refine executedOf_le _ _ _ (Nat.cast_nonneg c.lots) (fun x hx => ?_)
  rw [Order.run_size]
  exact submitAndWait_size (c.ticket "entry") c.script.maker x hx

theorem makerCancelled_le :
    executedOf (c.makerCancelled.1.map (fun o => o.run c.script.maker.late)) ≤ c.lots := by
  have hmap : c.makerCancelled.1.map (fun o => o.run c.script.maker.late) =
      c.makerShown.1.map (fun o => (o.cancel c.script.maker.cancellation).run
        c.script.maker.late) := by
    simp only [makerCancelled, cancelOpenOrder, Option.map_map, Function.comp_def]
  rw [hmap]
  refine executedOf_le _ _ _ (Nat.cast_nonneg c.lots) (fun x hx => ?_)
  rw [Order.run_size, Order.cancel_size]
  exact submitAndWait_size (c.ticket "entry") c.script.maker x hx

/-- Everything the maker order executed although it was given up. -/
def supersededExecuted : ℚ :=
  executedOf (c.makerCancelled.1.map (fun o => o.run c.script.maker.late))

/-- Everything the second order executed. -/
def iocExecuted : ℚ := executedOf (c.iocShown.1.map (fun o => o.run c.script.ioc.late))

/-- The second order is shown filled in full. -/
def iocCompletes : Bool :=
  match c.iocShown.2 with
  | .ok fill => fill.isComplete
  | .error _ => false

theorem iocExecuted_le : c.iocExecuted ≤ c.lots := by
  refine executedOf_le _ _ _ (Nat.cast_nonneg c.lots) (fun x hx => ?_)
  rw [Order.run_size]
  exact submitAndWait_size (c.ticket "entry_ioc") c.script.ioc x hx

/-- A leg that sent one order at most, of the requested size, and returns a
    complete fill only if that order showed it, is accounted for. -/
theorem accounted_of_single (hlots : 1 ≤ c.lots) (hioc : c.run.ioc = none)
    (hle : executedOf c.finalMaker ≤ c.lots)
    (hfill : ∀ fill, c.run.result = .ok fill → fill.isComplete = true →
      c.run.maker = c.makerShown.1 ∧ c.makerShown.2 = .ok fill) : c.Accounted := by
  have hexec : executedOf c.finalIoc = 0 := by rw [c.finalIoc_none hioc]; rfl
  have hnot : notionalOf c.finalIoc = 0 := by rw [c.finalIoc_none hioc]; rfl
  refine ⟨by rw [totalExecuted, hexec, add_zero]; exact hle, fun fill hf hc => ?_⟩
  rcases hfill fill hf hc with ⟨hm, hshown⟩
  rcases submitAndWait_complete _ _ fill hlots hshown hc with ⟨o, ho, hdone, hq, hp⟩
  have hmaker : c.finalMaker = some o := by
    rw [finalMaker, hm, makerShown, ho, Option.map_some, Order.run_terminal o _ hdone]
  have he : c.totalExecuted = o.executed := by
    rw [totalExecuted, hexec, hmaker, add_zero]
    rfl
  have hn : c.totalNotional = o.notional := by
    rw [totalNotional, hnot, hmaker, add_zero]
    rfl
  rw [he, hn]
  exact ⟨hq, hp⟩

/-- A leg that reached its second order is accounted for exactly when the order
    it gave up executed nothing, or both fit and the second is not taken for
    the whole leg. -/
theorem accounted_of_replaced (hlots : 1 ≤ c.lots) (hmaker : c.run.maker = c.makerCancelled.1)
    (hioc : c.run.ioc = c.iocShown.1) (hres : c.run.result = c.iocShown.2) :
    c.Accounted ↔ (c.supersededExecuted = 0 ∨
      c.supersededExecuted + c.iocExecuted ≤ c.lots ∧ c.iocCompletes = false) := by
  have htotal : c.totalExecuted = c.supersededExecuted + c.iocExecuted := by
    rw [totalExecuted, finalMaker, finalIoc, hmaker, hioc]
    rfl
  constructor
  · intro h
    by_cases h0 : c.supersededExecuted = 0
    · exact Or.inl h0
    · refine Or.inr ⟨by rw [← htotal]; exact h.1, ?_⟩
      rcases hshown : c.iocShown.2 with e | fill
      · simp only [iocCompletes, hshown]
      · simp only [iocCompletes, hshown]
        by_contra hc
        rw [Bool.not_eq_false] at hc
        -- A complete second order shows its own quantity, not the sum.
        rcases submitAndWait_complete _ _ fill hlots hshown hc with ⟨o, ho, hdone, hq, _⟩
        have hsum := (h.2 fill (by rw [hres, hshown]) hc).1
        have hown : c.iocExecuted = o.executed := by
          rw [iocExecuted, iocShown, ho, Option.map_some, Order.run_terminal o _ hdone]
          rfl
        rw [hq, htotal, hown] at hsum
        exact h0 (by linarith)
  · rintro (h0 | ⟨hle, hc⟩)
    · refine ⟨by rw [htotal, h0, zero_add]; exact c.iocExecuted_le, fun fill hf hcomp => ?_⟩
      rw [hres] at hf
      rcases submitAndWait_complete _ _ fill hlots hf hcomp with ⟨o, ho, hdone, hq, hp⟩
      have hfinal : c.finalIoc = some o := by
        rw [finalIoc, hioc, iocShown, ho, Option.map_some, Order.run_terminal o _ hdone]
      have hexec : c.totalExecuted = o.executed := by
        rw [htotal, h0, zero_add, iocExecuted, ← hioc]
        show executedOf c.finalIoc = o.executed
        rw [hfinal]
        rfl
      -- A maker order that executed nothing cost nothing.
      have hzero : notionalOf c.finalMaker = 0 := by
        have hm : executedOf c.finalMaker = 0 := by
          rw [finalMaker, hmaker]
          exact h0
        cases hfm : c.finalMaker with
        | none => rfl
        | some x =>
            rw [hfm] at hm
            exact x.notional_zero hm
      have hnot : c.totalNotional = o.notional := by
        rw [totalNotional, hzero, zero_add, hfinal]
        rfl
      rw [hexec, hnot]
      exact ⟨hq, hp⟩
    · refine ⟨by rw [htotal]; exact hle, fun fill hf hcomp => ?_⟩
      rw [hres] at hf
      simp only [iocCompletes, hf, hcomp, Bool.true_eq_false] at hc

/-- A leg that does not reach its second order is accounted for. -/
theorem accounted_of_unreplaced (hlots : 1 ≤ c.lots) (h : c.ends ≠ .replaced) : c.Accounted := by
  have hrun := c.run_eq
  rcases hends : c.ends with _ | _ | _ | _ | _
  · -- Nothing was sent.
    rw [hends] at hrun
    refine c.accounted_of_single hlots hrun.2.1 ?_ (fun fill hf hc => ?_)
    · rw [finalMaker, hrun.1]
      exact Nat.cast_nonneg c.lots
    · rw [hrun.2.2] at hf
      cases hf
      simp only [LegFill.isComplete_iff, rejectedFill, reduceCtorEq, false_and] at hc
  · -- The maker order's submission or a poll raised, and no fill is returned.
    rw [hends] at hrun
    rcases hrun with ⟨hm, hi, e, he⟩
    refine c.accounted_of_single hlots hi ?_ (fun fill hf _ => ?_)
    · rw [finalMaker, hm]
      exact c.makerShown_le
    · rw [he] at hf
      cases hf
  · -- The maker order was shown complete, and that fill is returned.
    rw [hends] at hrun
    rcases hrun with ⟨hm, hi, fill', hs, _, hr⟩
    refine c.accounted_of_single hlots hi ?_ (fun fill hf _ => ⟨hm, ?_⟩)
    · rw [finalMaker, hm]
      exact c.makerShown_le
    · rw [hs, ← hr, hf]
  · -- The cancel raised, and no fill is returned.
    rw [hends] at hrun
    rcases hrun with ⟨hm, hi, e, he⟩
    refine c.accounted_of_single hlots hi ?_ (fun fill hf _ => ?_)
    · rw [finalMaker, hm]
      exact c.makerCancelled_le
    · rw [he] at hf
      cases hf
  · exact absurd hends h

/-- A leg is accounted for exactly when it does not reach its second order, or
    the order it gave up executed nothing, or both fit and the second order is
    not shown complete. -/
theorem placeEntryLeg_accounted_iff (hlots : 1 ≤ c.lots) :
    c.Accounted ↔
      (c.ends = .replaced → c.supersededExecuted = 0 ∨
        c.supersededExecuted + c.iocExecuted ≤ c.lots ∧ c.iocCompletes = false) := by
  by_cases hends : c.ends = .replaced
  · have hrun := c.run_eq
    rw [hends] at hrun
    rcases hrun with ⟨hm, hi, hr⟩
    rw [c.accounted_of_replaced hlots hm hi hr]
    exact ⟨fun h _ => h, fun h => h hends⟩
  · exact iff_of_true (c.accounted_of_unreplaced hlots hends) (fun h => absurd h hends)

/-- By the exchange alone: if it never executes anything of the maker order, neither while the
    order is watched nor after it is given up, the leg is accounted for. -/
theorem accounted_of_unfilled (hlots : 1 ≤ c.lots) (h : c.script.maker.Unfilled) :
    c.Accounted := by
  by_cases hends : c.ends = .replaced
  · have hrun := c.run_eq
    rw [hends] at hrun
    rcases hrun with ⟨hm, hi, hr⟩
    refine (c.accounted_of_replaced hlots hm hi hr).mpr (Or.inl ?_)
    unfold supersededExecuted makerCancelled cancelOpenOrder
    cases hmaker : c.makerShown.1 with
    | none => rfl
    | some o =>
        calc ((o.cancel c.script.maker.cancellation).run c.script.maker.late).executed
            = (o.cancel c.script.maker.cancellation).executed := Order.run_marks _ _ h.late
          _ = o.executed := Order.cancel_marks o _ h.cancellation
          _ = 0 := submitAndWait_unfilled (c.ticket "entry") c.script.maker h o hmaker
  · exact c.accounted_of_unreplaced hlots hends

/-- A leg of two lots in a chain that lists one put quoted 100 at 101. -/
def sample (maker ioc : OrderScript RestError) : LegCall :=
  let put : Product :=
    { contractType := some "put_options", symbol := some "P-BTC-77000-260526", id := some 42,
      contractValue := some (1 / 1000), lotSize := none, tickSize := some (1 / 2), state := none }
  let quote : QuoteSnapshot := { bid := some 100, ask := some 101, markPrice := some (201 / 2) }
  { strategyId := .directional
    tradeId := 2
    legIdx := 0
    leg := { symbol := "P-BTC-77000-260526", side := .buy, optionType := .put, strike := 77000,
             expiry := combine (ymdToOrdinal 2026 5 26) (hourMinute 17 30) }
    lots := 2
    slipBps := 50
    script :=
      { chain := (ChainCache.empty.refreshInstruments [put]).upsertQuote "P-BTC-77000-260526" quote
        maker := maker
        ioc := ioc } }

/-- The maker order rests unfilled until it is cancelled, and the second order
    fills at once. -/
def cleanReplacement : LegCall :=
  sample { placement := .answered [] (some 8), polls := [{ outcome := .found (some 8) }] }
    { placement := .answered [.fill 2 101, .mark .filled] (some 9) }

theorem placeEntryLeg_accounted_clean : cleanReplacement.Accounted :=
  (placeEntryLeg_accounted_iff cleanReplacement (by decide)).mpr (by decide)

/-- The maker order fills one of two lots before it is cancelled, and the second
    order fills two more. -/
def partialThenFull : LegCall :=
  sample
    { placement := .answered [] (some 8),
      polls := [{ events := [.fill 1 100], outcome := .found (some 8) }] }
    { placement := .answered [.fill 2 101, .mark .filled] (some 9) }

/-- A leg of two lots can buy three. -/
theorem placeEntryLeg_overfills : ¬ ∀ c : LegCall, 1 ≤ c.lots → c.Accounted := by
  intro h
  have hle : partialThenFull.totalExecuted ≤ partialThenFull.lots :=
    (h partialThenFull (by decide)).1
  have hmore : ¬ partialThenFull.totalExecuted ≤ partialThenFull.lots := by decide +kernel
  exact hmore hle

end LegCall

end LiveExecutor

end OptionsBot
