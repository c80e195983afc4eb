import OptionsBot.Lib.KeyedSum
import OptionsBot.Theory.EntryLeg

/-!
# What a Rolled-Back Entry Leaves on the Exchange

The rollback works from the fills the legs returned. What a leg executed beyond
its fill is invisible to it: the fills of a maker order that was given up, the
orders of a leg that raised, and whatever executes after the last look. What the
rollback can undo is exactly the rest.

`unclosed` is that invisible quantity, read off the exchange's script leg by
leg, and `leftWorking` says whether an order survives the rollback. The main
result is that the entry ends flat exactly when the signed unclosed quantities of
each symbol cancel and no order is left working.

## Main definitions

* `EntryCall`: The arguments of `submitEntry`, with the exchange's script.
* `EntryCall.position`: The position an entry leaves in a symbol.
* `EntryCall.Flat`: No position in any symbol of the legs, and no order working.
* `LegCall.unclosed`, `LegCall.leftWorking`: What the rollback does not see.

## Theorems

* `position_eq`: A position is the sum of the signed unclosed quantities.
* `working_iff`: Which orders survive the rollback.
* `submitEntry_flat_iff`: Exactly when a failed entry ends flat.
* `unclosed_nonneg`: What is left of a leg is on the side of the leg.
* `unclosedIn_distinct`: With distinct symbols nothing cancels out, leg by leg.
* `flat_distinct`: Which legs have to be closed then.
-/

namespace OptionsBot

-- The sample runs below compute with rationals.
attribute [local semireducible] Rat.add Rat.sub Rat.mul Rat.inv

namespace LiveExecutor

/-- The arguments of `submitEntry`. -/
structure EntryCall where
  slipBps : StrategyId → Nat
  req : EntryRequest
  script : EntryScript

/-- The order can still execute. -/
def isWorking (o : Option Order) : Bool := (o.map Order.working).getD false

namespace LegCall

variable (c : LegCall) (chain : ChainCache)

/-- The fill the rollback sees. -/
def fill : LegFill := shownFill c.lots c.run

/-- The symbol is listed when the rollback looks it up. -/
def listed : Bool := (chain.getInstrument c.leg.symbol).isSome

/-- The maker order, which was not cancelled by the leg, after everything that
    happens to it. -/
def makerLate : Option Order := c.makerShown.1.map (fun o => o.run c.script.maker.late)

/-- The maker order the leg gave up, after everything that happens to it. -/
def supersededLate : Option Order :=
  c.makerCancelled.1.map (fun o => o.run c.script.maker.late)

/-- The second order after everything that happens to it. -/
def iocLate : Option Order := c.iocShown.1.map (fun o => o.run c.script.ioc.late)

/-- The quantity the leg executed that no fill lets the rollback close. -/
def unclosed : ℚ :=
  match c.ends with
  | .unquoted => 0
  | .makerRaised => executedOf c.makerLate
  | .makerComplete => if c.listed chain then 0 else executedOf c.makerLate
  | .cancelRaised => executedOf c.supersededLate
  | .replaced => executedOf c.supersededLate +
      match c.iocShown.2 with
      | .error _ => executedOf c.iocLate
      | .ok shown =>
        if c.listed chain then executedOf c.iocLate - shown.qtyFilled else executedOf c.iocLate

/-- An order of the leg is still working after the rollback. -/
def leftWorking : Bool :=
  match c.ends with
  | .unquoted => false
  | .makerRaised => isWorking c.makerLate
  | .makerComplete => false
  | .cancelRaised => isWorking c.supersededLate
  | .replaced => isWorking c.supersededLate ||
      match c.iocShown.2 with
      | .error _ => isWorking c.iocLate
      | .ok shown => decide (0 < shown.qtyFilled) && isWorking c.iocLate

end LegCall

namespace EntryCall

variable (e : EntryCall)

def result : Except RestError EntryResult := submitEntry e.slipBps e.req e.script

/-- The calls of the legs. -/
def legs : List LegCall :=
  e.req.legs.zipIdx.map (fun p =>
    { strategyId := e.req.strategyId, tradeId := e.req.tradeId, legIdx := p.2, leg := p.1,
      lots := e.req.lots, slipBps := e.slipBps e.req.strategyId, script := e.script.legs p.2 })

/-- Some leg did not complete. -/
def failed : Bool := (e.legs.map LegCall.fill).any (fun f => !f.isComplete)

/-- What the rollback does on the exchange for one leg: its call, if the entry
    failed and the call succeeded. -/
def undo (c : LegCall) : Option RollbackCall :=
  if e.failed ∧ e.script.rollbackReplies c.legIdx = none then
    rollbackCall e.script.rollbackChain e.req.tradeId c.fill
  else none

/-- The order is the one a successful rollback call cancelled. -/
def cancelledBy (call : Option RollbackCall) (id : ClientOrderId) : Bool :=
  match call with
  | some (.cancel _ _ target _) => target = id
  | _ => false

/-- An order after the rollback. -/
def afterUndo (call : Option RollbackCall) (id : ClientOrderId) (o : Option Order) :
    Option Order :=
  o.map (fun o => if cancelledBy call id then o.apply (.mark .cancelled) else o)

def settledMaker (c : LegCall) : Option Order :=
  afterUndo (e.undo c) (c.ticket "entry").clientOrderId c.finalMaker

def settledIoc (c : LegCall) : Option Order :=
  afterUndo (e.undo c) (c.ticket "entry_ioc").clientOrderId c.finalIoc

/-- The signed quantity a successful close trades in a symbol. -/
def closedIn (symbol : String) (call : Option RollbackCall) : ℚ :=
  match call with
  | some (.close s payload) => if s = symbol then payload.side.sign * payload.size else 0
  | _ => 0

/-- The net position the entry leaves in a symbol. -/
def position (symbol : String) : ℚ :=
  (e.legs.map (fun c =>
    (if c.leg.symbol = symbol then
      c.leg.side.sign * (executedOf (e.settledMaker c) + executedOf (e.settledIoc c))
     else 0) + closedIn symbol (e.undo c))).sum

/-- No position in any symbol of the legs, and no order working. -/
def Flat : Prop :=
  (∀ leg ∈ e.req.legs, e.position leg.symbol = 0) ∧
    ∀ c ∈ e.legs, isWorking (e.settledMaker c) = false ∧ isWorking (e.settledIoc c) = false

/-- The signed quantity of a symbol that no fill lets the rollback close. -/
def unclosedIn (symbol : String) : ℚ :=
  (e.legs.map (fun c =>
    if c.leg.symbol = symbol then c.leg.side.sign * c.unclosed e.script.rollbackChain
    else 0)).sum

end EntryCall

theorem rollbackCall_raised (chain : ChainCache) (tradeId lots : Nat) :
    rollbackCall chain tradeId (raisedFill lots) = none := by
  have hq : ¬ (0 : ℚ) < 0 := lt_irrefl 0
  simp only [rollbackCall, raisedFill, if_neg hq, Option.isSome_none, Bool.false_eq_true, if_false,
    ne_eq, not_true, false_and]

/-- A fill with a quantity is closed, if its symbol is listed. -/
theorem rollbackCall_filled (chain : ChainCache) (tradeId : Nat) (f : LegFill)
    (h : 0 < f.qtyFilled) :
    (∃ payload, rollbackCall chain tradeId f = some (.close f.symbol payload) ∧
      payload.side = f.side.flip ∧ payload.size = f.qtyFilled ∧
      (chain.getInstrument f.symbol).isSome = true) ∨
    (rollbackCall chain tradeId f = none ∧ (chain.getInstrument f.symbol).isSome = false) := by
  simp only [rollbackCall, if_pos h]
  cases hi : chain.getInstrument f.symbol with
  | none => exact Or.inr ⟨rfl, rfl⟩
  | some inst => exact Or.inl ⟨_, rfl, rfl, rfl, rfl⟩

/-- A fill without a quantity is cancelled under its own identifier. -/
theorem rollbackCall_unfilled (chain : ChainCache) (tradeId : Nat) (f : LegFill)
    (h : ¬ 0 < f.qtyFilled) (strategy : String) (trade : Nat) (leg : Int) (purpose : String)
    (hid : f.clientOrderId = .generated strategy trade leg purpose) :
    ∃ symbol orderId productId,
      rollbackCall chain tradeId f = some (.cancel symbol orderId f.clientOrderId productId) := by
  simp only [rollbackCall, if_neg h]
  by_cases hex : f.exchangeOrderId.isSome = true
  · rw [if_pos hex]
    exact ⟨_, _, _, rfl⟩
  · rw [if_neg hex, if_pos ⟨by rw [hid]; exact ClientOrderId.noConfusion,
      by rw [hid]; exact ClientOrderId.noConfusion⟩]
    exact ⟨_, _, _, rfl⟩

namespace EntryCall

/-- A cancel changes nothing about what has executed. -/
theorem executedOf_afterUndo (call : Option RollbackCall) (id : ClientOrderId)
    (o : Option Order) : executedOf (afterUndo call id o) = executedOf o := by
  cases o with
  | none => rfl
  | some o =>
      have hmark : (o.apply (.mark .cancelled)).executed = o.executed := by
        simp only [Order.apply]
        split <;> rfl
      simp only [afterUndo, Option.map_some, executedOf, Option.getD_some]
      split
      · exact hmark
      · rfl

theorem afterUndo_untouched (call : Option RollbackCall) (id : ClientOrderId) (o : Option Order)
    (h : cancelledBy call id = false) : afterUndo call id o = o := by
  simp only [afterUndo, h, Bool.false_eq_true, if_false, Option.map_id']

theorem isWorking_cancelled (call : Option RollbackCall) (id : ClientOrderId) (o : Option Order)
    (h : cancelledBy call id = true) : isWorking (afterUndo call id o) = false := by
  cases o with
  | none => rfl
  | some o =>
      simp only [afterUndo, h, if_true, Option.map_some, isWorking, Option.getD_some, Order.apply]
      by_cases hw : o.working = true
      · rw [if_pos hw]
        rfl
      · rw [if_neg hw]
        exact Bool.not_eq_true _ ▸ hw

theorem isWorking_afterUndo_done (call : Option RollbackCall) (id : ClientOrderId)
    (o : Option Order) (h : isWorking o = false) : isWorking (afterUndo call id o) = false := by
  by_cases hc : cancelledBy call id = true
  · exact isWorking_cancelled call id o hc
  · rw [Bool.not_eq_true] at hc
    rw [afterUndo_untouched call id o hc]
    exact h

end EntryCall

namespace LegCall

variable (c : LegCall) (chain : ChainCache)

/-- The quantity of the leg the rollback closes. -/
def closedQty : ℚ := if 0 < c.fill.qtyFilled ∧ c.listed chain then c.fill.qtyFilled else 0

theorem fill_of_ok (f : LegFill) (h : c.run.result = .ok f) : c.fill = f := by
  simp only [fill, shownFill, h]

theorem fill_of_error (e : RestError) (h : c.run.result = .error e) :
    c.fill = raisedFill c.lots := by
  simp only [fill, shownFill, h]

/-- No fill that is returned shows a negative quantity. -/
theorem shown_nonneg (t : LegTicket) (x : OrderScript RestError) (f : LegFill)
    (h : (submitAndWait t x).2 = .ok f) : 0 ≤ f.qtyFilled := by
  rcases submitAndWait_spec t x f h with ⟨o, r, _, hf, hshows⟩
  rcases hshows.filled_le with ⟨q, hq, h0, _⟩
  have hfq : f.qtyFilled = r.filledSize.getD 0 := by rw [hf]; rfl
  rw [hfq, hq]
  exact h0

/-- A fill with a quantity names the leg. -/
theorem fill_leg (h : 0 < c.fill.qtyFilled) :
    c.fill.symbol = c.leg.symbol ∧ c.fill.side = c.leg.side := by
  have hshown : ∀ purpose x f, (submitAndWait (c.ticket purpose) x).2 = .ok f →
      f.symbol = c.leg.symbol ∧ f.side = c.leg.side := by
    intro purpose x f hf
    rcases submitAndWait_spec _ x f hf with ⟨_, _, _, rfl, _⟩
    exact ⟨rfl, rfl⟩
  have hrun := c.run_eq
  rcases hends : c.ends with _ | _ | _ | _ | _
  · -- Nothing was sent, and the fill has no quantity.
    rw [hends] at hrun
    rw [c.fill_of_ok _ hrun.2.2] at h
    exact absurd h (lt_irrefl 0)
  · -- A leg that raised has the anonymous fill, without a quantity.
    rw [hends] at hrun
    rcases hrun with ⟨_, _, err, he⟩
    rw [c.fill_of_error err he] at h
    exact absurd h (lt_irrefl 0)
  · -- The fill is the maker order's.
    rw [hends] at hrun
    rcases hrun with ⟨_, _, f, hs, _, hr⟩
    rw [c.fill_of_ok f hr]
    exact hshown "entry" _ f hs
  · -- A leg that raised again.
    rw [hends] at hrun
    rcases hrun with ⟨_, _, err, he⟩
    rw [c.fill_of_error err he] at h
    exact absurd h (lt_irrefl 0)
  · -- The fill is the second order's, if it did not raise.
    rw [hends] at hrun
    rcases hs : c.iocShown.2 with err | f
    · rw [hs] at hrun
      rw [c.fill_of_error err hrun.2.2] at h
      exact absurd h (lt_irrefl 0)
    · rw [hs] at hrun
      rw [c.fill_of_ok f hrun.2.2]
      exact hshown "entry_ioc" _ f hs

/-- The rollback's call for a leg trades the closed quantity back. -/
theorem closedIn_rollbackCall (tradeId : Nat) (symbol : String) :
    EntryCall.closedIn symbol (rollbackCall chain tradeId c.fill) =
      if c.leg.symbol = symbol then -(c.leg.side.sign * c.closedQty chain) else 0 := by
  by_cases hq : 0 < c.fill.qtyFilled
  · rcases c.fill_leg hq with ⟨hsym, hside⟩
    rcases rollbackCall_filled chain tradeId c.fill hq with
      ⟨payload, hcall, hflip, hsize, hlisted⟩ | ⟨hcall, hlisted⟩
    · rw [hsym] at hlisted
      simp only [hcall, EntryCall.closedIn, hsym, hflip, hsize, hside, Side.sign_flip, closedQty,
        listed, hlisted, hq, and_self, if_true, neg_mul]
    · rw [hsym] at hlisted
      simp only [hcall, EntryCall.closedIn, closedQty, listed, hlisted, Bool.false_eq_true,
        and_false, if_false, mul_zero, neg_zero, ite_self]
  · have hzero : c.closedQty chain = 0 := if_neg (fun hc => hq hc.1)
    rw [hzero, mul_zero, neg_zero, ite_self]
    simp only [rollbackCall, if_neg hq]
    split_ifs <;> rfl

/-- What a leg executed is what the rollback closes and what it does not see. -/
theorem executed_eq :
    executedOf c.finalMaker + executedOf c.finalIoc = c.unclosed chain + c.closedQty chain := by
  have hnone : executedOf none = 0 := rfl
  have hraised : ∀ e, c.run.result = .error e → c.closedQty chain = 0 := by
    intro e he
    rw [closedQty, c.fill_of_error e he]
    exact if_neg (fun hc => lt_irrefl 0 hc.1)
  have hrun := c.run_eq
  rcases hends : c.ends with _ | _ | _ | _ | _
  · -- Nothing was executed, and nothing is closed.
    rw [hends] at hrun
    rcases hrun with ⟨hm, hi, hr⟩
    have hz : c.closedQty chain = 0 := by
      rw [closedQty, c.fill_of_ok _ hr]
      exact if_neg (fun hc => lt_irrefl 0 hc.1)
    simp only [finalMaker, finalIoc, hm, hi, Option.map_none, hnone, unclosed, hends, hz]
  · -- The anonymous fill closes nothing of what the maker order executed.
    rw [hends] at hrun
    rcases hrun with ⟨hm, hi, e, he⟩
    rw [hraised e he]
    simp only [finalMaker, finalIoc, hm, hi, Option.map_none, hnone, unclosed, hends, makerLate]
  · -- A complete maker order is closed as a whole, if its symbol is listed.
    rw [hends] at hrun
    rcases hrun with ⟨hm, hi, f, hs, hc, hr⟩
    rcases submitAndWait_done _ _ f hs hc with ⟨o, id, ho, hdone, _, hq⟩
    have hlate : c.makerLate = some o := by
      rw [makerLate, makerShown, ho, Option.map_some, Order.run_terminal o _ hdone]
    have hfinal : c.finalMaker = some o := by
      rw [finalMaker, hm]
      exact hlate
    have hexec : executedOf (some o) = f.qtyFilled := hq.symm
    simp only [hfinal, finalIoc, hi, Option.map_none, hnone, unclosed, hends, hlate, hexec,
      closedQty, c.fill_of_ok f hr, add_zero]
    by_cases hl : c.listed chain = true
    · by_cases hpos : 0 < f.qtyFilled
      · rw [if_pos hl, if_pos ⟨hpos, hl⟩, zero_add]
      · rw [if_pos hl, if_neg (fun hc => hpos hc.1), zero_add]
        exact le_antisymm (not_lt.mp hpos) (shown_nonneg _ _ f hs)
    · rw [if_neg hl, if_neg (fun hc => hl hc.2), add_zero]
  · -- The anonymous fill closes nothing of the order that was not cancelled.
    rw [hends] at hrun
    rcases hrun with ⟨hm, hi, e, he⟩
    rw [hraised e he]
    simp only [finalMaker, finalIoc, hm, hi, Option.map_none, hnone, unclosed, hends,
      supersededLate]
  · -- The order that was given up is never closed, and of the second order what
    -- its fill shows.
    rw [hends] at hrun
    rcases hrun with ⟨hm, hi, hr⟩
    have hmaker : c.finalMaker = c.supersededLate := by rw [finalMaker, hm]; rfl
    have hioc : c.finalIoc = c.iocLate := by rw [finalIoc, hi]; rfl
    rcases hs : c.iocShown.2 with e | f
    · rw [hs] at hr
      rw [hraised e hr]
      simp only [hmaker, hioc, unclosed, hends, hs, add_zero]
    · rw [hs] at hr
      simp only [hmaker, hioc, unclosed, hends, hs, closedQty, c.fill_of_ok f hr]
      by_cases hl : c.listed chain = true
      · by_cases hpos : 0 < f.qtyFilled
        · rw [if_pos hl, if_pos ⟨hpos, hl⟩]
          ring
        · have hz : f.qtyFilled = 0 := le_antisymm (not_lt.mp hpos) (shown_nonneg _ _ f hs)
          rw [if_pos hl, if_neg (fun hc => hpos hc.1), hz]
          ring
      · rw [if_neg hl, if_neg (fun hc => hl hc.2), add_zero]

/-- The rollback closes a fill that is not empty, or skips it, and cancels nothing. -/
theorem rollback_keeps (tradeId : Nat) (f : LegFill) (hpos : 0 < f.qtyFilled)
    (id : ClientOrderId) (o : Option Order) :
    EntryCall.afterUndo (rollbackCall chain tradeId f) id o = o := by
  refine EntryCall.afterUndo_untouched _ id o ?_
  rcases rollbackCall_filled chain tradeId f hpos with ⟨_, hcall, _⟩ | ⟨hcall, _⟩
  · rw [hcall]
    rfl
  · rw [hcall]
    rfl

/-- Of an empty fill of the second order, the rollback cancels that order, and only it. -/
theorem rollback_cancels (tradeId : Nat) (f : LegFill) (hempty : ¬ 0 < f.qtyFilled)
    (hid : f.clientOrderId = (c.ticket "entry_ioc").clientOrderId) :
    EntryCall.cancelledBy (rollbackCall chain tradeId f) (c.ticket "entry").clientOrderId = false ∧
      EntryCall.cancelledBy (rollbackCall chain tradeId f)
        (c.ticket "entry_ioc").clientOrderId = true := by
  rcases rollbackCall_unfilled chain tradeId f hempty _ _ _ _ hid with ⟨sym, oid, pid, hcall⟩
  rw [hcall, hid]
  refine ⟨?_, decide_eq_true rfl⟩
  simp only [EntryCall.cancelledBy, ticket, legTicket, ClientOrderId.generated.injEq,
    true_and, decide_eq_false_iff_not]
  decide

/-- Which of a leg's orders survive the rollback. -/
theorem working_iff (tradeId : Nat) :
    (isWorking (EntryCall.afterUndo (rollbackCall chain tradeId c.fill)
        (c.ticket "entry").clientOrderId c.finalMaker) = false ∧
      isWorking (EntryCall.afterUndo (rollbackCall chain tradeId c.fill)
        (c.ticket "entry_ioc").clientOrderId c.finalIoc) = false) ↔ c.leftWorking = false := by
  have hnone : ∀ id o, EntryCall.afterUndo none id o = o := fun id o =>
    EntryCall.afterUndo_untouched none id o rfl
  have hidle : ∀ call id, isWorking (EntryCall.afterUndo call id none) = false := fun _ _ => rfl
  have hrun := c.run_eq
  rcases hends : c.ends with _ | _ | _ | _ | _
  · -- There is no order to work.
    rw [hends] at hrun
    rcases hrun with ⟨hm, hi, hr⟩
    simp only [finalMaker, finalIoc, hm, hi, Option.map_none, hidle, leftWorking, hends, and_self]
  · -- No call is made for the anonymous fill, and the maker order stays as it is.
    rw [hends] at hrun
    rcases hrun with ⟨hm, hi, e, he⟩
    rw [c.fill_of_error e he, rollbackCall_raised, hnone, hnone]
    have hioc : isWorking c.finalIoc = false := by rw [c.finalIoc_none hi]; rfl
    simp only [hioc, and_true, leftWorking, hends, finalMaker, hm, makerLate]
  · -- A complete maker order is not working.
    rw [hends] at hrun
    rcases hrun with ⟨hm, hi, f, hs, hc, hr⟩
    rcases submitAndWait_done _ _ f hs hc with ⟨o, id, ho, hdone, _, _⟩
    have hmaker : isWorking c.finalMaker = false := by
      rw [finalMaker, hm, makerShown, ho, Option.map_some, Order.run_terminal o _ hdone]
      exact hdone
    have hioc : isWorking c.finalIoc = false := by rw [c.finalIoc_none hi]; rfl
    simp only [leftWorking, hends, EntryCall.isWorking_afterUndo_done _ _ _ hmaker,
      EntryCall.isWorking_afterUndo_done _ _ _ hioc, and_self]
  · -- No call is made for the anonymous fill.
    rw [hends] at hrun
    rcases hrun with ⟨hm, hi, e, he⟩
    rw [c.fill_of_error e he, rollbackCall_raised, hnone, hnone]
    have hioc : isWorking c.finalIoc = false := by rw [c.finalIoc_none hi]; rfl
    simp only [hioc, and_true, leftWorking, hends, finalMaker, hm, supersededLate]
  · -- The order that was given up is out of reach. Whether the second one is
    -- depends on what its fill shows.
    rw [hends] at hrun
    rcases hrun with ⟨hm, hi, hr⟩
    have hmaker : c.finalMaker = c.supersededLate := by rw [finalMaker, hm]; rfl
    have hioc : c.finalIoc = c.iocLate := by rw [finalIoc, hi]; rfl
    rcases hs : c.iocShown.2 with e | f
    · rw [hs] at hr
      rw [c.fill_of_error e hr, rollbackCall_raised, hnone, hnone, hmaker, hioc]
      simp only [leftWorking, hends, hs, Bool.or_eq_false_iff]
    · rw [hs] at hr
      rw [c.fill_of_ok f hr, hmaker, hioc]
      simp only [leftWorking, hends, hs, Bool.or_eq_false_iff]
      by_cases hpos : 0 < f.qtyFilled
      · simp only [rollback_keeps chain tradeId f hpos, decide_eq_true hpos, Bool.true_and]
      · -- The rollback cancels the second order, and only that one.
        have hid : f.clientOrderId = (c.ticket "entry_ioc").clientOrderId := by
          rcases submitAndWait_spec _ _ f hs with ⟨_, _, _, rfl, _⟩
          rfl
        rcases c.rollback_cancels chain tradeId f hpos hid with ⟨hother, hsame⟩
        rw [EntryCall.afterUndo_untouched _ _ _ hother]
        simp only [EntryCall.isWorking_cancelled _ _ _ hsame, decide_eq_false hpos, Bool.false_and,
          and_true]

theorem unclosed_nonneg : 0 ≤ c.unclosed chain := by
  have hnn := executedOf_nonneg
  unfold unclosed
  split
  · exact le_refl 0
  · exact hnn _
  · split
    · exact le_refl 0
    · exact hnn _
  · exact hnn _
  · refine add_nonneg (hnn _) ?_
    split
    · exact hnn _
    · next shown hs =>
      split
      · -- The second order executed at least what it was shown with.
        rcases submitAndWait_spec _ _ shown hs with ⟨o, r, ho, hf, hshows⟩
        rcases (hshows.run c.script.ioc.late).filled_le with ⟨q, hq, _, hle⟩
        have hfq : shown.qtyFilled = q := by
          rw [hf]
          show r.filledSize.getD 0 = q
          rw [hq, Option.getD_some]
        have hlate : executedOf c.iocLate = (o.run c.script.ioc.late).executed := by
          rw [iocLate, iocShown, ho]
          rfl
        rw [hlate, hfq]
        linarith
      · exact hnn _

end LegCall

namespace EntryCall

variable (e : EntryCall)

theorem shownFills_eq :
    (placeLegs e.slipBps e.req e.script).map (shownFill e.req.lots) = e.legs.map LegCall.fill := by
  simp only [placeLegs, legs, List.map_map]
  rfl

theorem failed_of_unsuccessful (r : EntryResult) (h : e.result = .ok r)
    (hs : r.success = false) : e.failed = true := by
  by_contra hf
  have hresult : e.result =
      .ok { success := true, tradeId := e.req.tradeId, fills := e.legs.map LegCall.fill } := by
    unfold result submitEntry concludeEntry
    rw [shownFills_eq]
    exact if_neg hf
  rw [hresult] at h
  cases h
  exact Bool.noConfusion hs

theorem undo_eq (hf : e.failed = true) (hreplies : ∀ i, e.script.rollbackReplies i = none)
    (c : LegCall) :
    e.undo c = rollbackCall e.script.rollbackChain e.req.tradeId c.fill :=
  if_pos ⟨hf, hreplies c.legIdx⟩

/-- A position is the sum of the signed quantities the rollback does not see. -/
theorem position_eq (hf : e.failed = true) (hreplies : ∀ i, e.script.rollbackReplies i = none)
    (symbol : String) : e.position symbol = e.unclosedIn symbol := by
  unfold position unclosedIn
  congr 1
  refine List.map_congr_left (fun c _ => ?_)
  -- A cancel does not undo what has executed, so the two quantities add up leg by leg.
  have hexec : executedOf (e.settledMaker c) + executedOf (e.settledIoc c) =
      c.unclosed e.script.rollbackChain + c.closedQty e.script.rollbackChain := by
    rw [settledMaker, settledIoc, executedOf_afterUndo, executedOf_afterUndo]
    exact c.executed_eq e.script.rollbackChain
  rw [hexec, e.undo_eq hf hreplies c, c.closedIn_rollbackCall]
  by_cases hsym : c.leg.symbol = symbol
  · simp only [if_pos hsym]
    ring
  · simp only [if_neg hsym, add_zero]

theorem flat_iff (hf : e.failed = true) (hreplies : ∀ i, e.script.rollbackReplies i = none) :
    e.Flat ↔ (∀ leg ∈ e.req.legs, e.unclosedIn leg.symbol = 0) ∧
      ∀ c ∈ e.legs, c.leftWorking = false := by
  have hwork : ∀ c, (isWorking (e.settledMaker c) = false ∧ isWorking (e.settledIoc c) = false) ↔
      c.leftWorking = false := by
    intro c
    rw [settledMaker, settledIoc, e.undo_eq hf hreplies c]
    exact c.working_iff e.script.rollbackChain e.req.tradeId
  simp only [Flat, hwork, e.position_eq hf hreplies]

/-- A failed entry whose rollback calls all succeed ends flat exactly when the
    quantities the rollback does not see cancel in every symbol, and no order it
    does not see is left working. -/
theorem submitEntry_flat_iff (r : EntryResult) (hresult : e.result = .ok r)
    (hfail : r.success = false) (hreplies : ∀ i, e.script.rollbackReplies i = none) :
    e.Flat ↔ (∀ leg ∈ e.req.legs, e.unclosedIn leg.symbol = 0) ∧
      ∀ c ∈ e.legs, c.leftWorking = false :=
  e.flat_iff (e.failed_of_unsuccessful r hresult hfail) hreplies

/-- The calls have the symbols of the request's legs, in their order. -/
theorem legs_symbols :
    e.legs.map (fun c => c.leg.symbol) = e.req.legs.map LegIntent.symbol := by
  unfold legs
  rw [List.map_map]
  change e.req.legs.zipIdx.map (LegIntent.symbol ∘ Prod.fst) = _
  rw [← List.map_map, List.zipIdx_map_fst]

/-- With distinct symbols, what is left in a symbol is what is left of its leg. -/
theorem unclosedIn_distinct (hsymbols : (e.req.legs.map LegIntent.symbol).Nodup) :
    (∀ leg ∈ e.req.legs, e.unclosedIn leg.symbol = 0) ↔
      ∀ c ∈ e.legs, c.unclosed e.script.rollbackChain = 0 := by
  rw [← e.legs_symbols] at hsymbols
  have hone : ∀ c ∈ e.legs,
      e.unclosedIn c.leg.symbol = c.leg.side.sign * c.unclosed e.script.rollbackChain := by
    intro c hc
    exact (KeyedSum.sum_ite_eq_sumAt (fun c : LegCall => c.leg.symbol)
      (fun c => c.leg.side.sign * c.unclosed e.script.rollbackChain) c.leg.symbol e.legs).trans
        (KeyedSum.sumAt_distinct _ _ e.legs hsymbols c hc)
  have hsign : ∀ side : Side, side.sign ≠ 0 := by
    intro side
    cases side <;> decide
  have hlegs : (∀ leg ∈ e.req.legs, e.unclosedIn leg.symbol = 0) ↔
      ∀ c ∈ e.legs, e.unclosedIn c.leg.symbol = 0 := by
    have hsame := e.legs_symbols
    rw [← List.forall_mem_map (f := LegIntent.symbol) (P := fun s => e.unclosedIn s = 0), ← hsame,
      List.forall_mem_map]
  rw [hlegs]
  refine forall₂_congr fun c hc => ?_
  rw [hone c hc, mul_eq_zero, or_iff_right (hsign c.leg.side)]

/-- With distinct symbols a failed entry ends flat exactly when nothing is left of any leg, neither
    a quantity nor an order. -/
theorem flat_distinct (r : EntryResult) (hresult : e.result = .ok r) (hfail : r.success = false)
    (hreplies : ∀ i, e.script.rollbackReplies i = none)
    (hsymbols : (e.req.legs.map LegIntent.symbol).Nodup) :
    e.Flat ↔ ∀ c ∈ e.legs, c.unclosed e.script.rollbackChain = 0 ∧ c.leftWorking = false := by
  rw [e.flat_iff (e.failed_of_unsuccessful r hresult hfail) hreplies,
    e.unclosedIn_distinct hsymbols]
  exact forall₂_and.symm

/-- An entry of two legs, the call and the put of one strike, two lots each. -/
def sample (first second : OrderScript RestError × OrderScript RestError) : EntryCall :=
  let product (kind symbol : String) (id : Int) : Product :=
    { contractType := some kind, symbol := some symbol, id := some id,
      contractValue := some (1 / 1000), lotSize := none, tickSize := some (1 / 2), state := none }
  let quote : QuoteSnapshot := { bid := some 100, ask := some 101, markPrice := some (201 / 2) }
  let expiry := combine (ymdToOrdinal 2026 5 26) (hourMinute 17 30)
  let chain := ((ChainCache.empty.refreshInstruments
    [product "call_options" "C-BTC-77000-260526" 41, product "put_options" "P-BTC-77000-260526" 42]
    ).upsertQuote "C-BTC-77000-260526" quote).upsertQuote "P-BTC-77000-260526" quote
  { slipBps := fun _ => 50
    req :=
      { strategyId := .longStraddle, tradeId := 7, underlying := .btc, lots := 2,
        intentRationale := "long_straddle_compression",
        legs := [{ symbol := "C-BTC-77000-260526", side := .buy, optionType := .call,
                   strike := 77000, expiry := expiry },
                 { symbol := "P-BTC-77000-260526", side := .buy, optionType := .put,
                   strike := 77000, expiry := expiry }] }
    script :=
      { legs := fun i =>
          if i = 0 then { chain := chain, maker := first.1, ioc := first.2 }
          else { chain := chain, maker := second.1, ioc := second.2 }
        rollbackChain := chain
        rollbackReplies := fun _ => none } }

/-- An order the exchange refuses. -/
def refused : OrderScript RestError :=
  { placement := .refused (.deltaRestError "insufficient_margin") }

/-- The first leg fills as a maker, the second is refused. -/
def closedByRollback : EntryCall :=
  sample ({ placement := .answered [.fill 2 100, .mark .filled] (some 8) }, refused)
    (refused, refused)

theorem submitEntry_flat_closed : closedByRollback.Flat := by
  have hresult : ∃ r, closedByRollback.result = .ok r ∧ r.success = false :=
    ⟨{ success := false, tradeId := 7, fills := closedByRollback.legs.map LegCall.fill,
       error := some "partial_fill_rolled_back",
       rollbackActions := ["rollback_close:C-BTC-77000-260526"] }, by decide, rfl⟩
  rcases hresult with ⟨r, hr, hs⟩
  exact (submitEntry_flat_iff closedByRollback r hr hs (fun _ => rfl)).mpr (by decide)

/-- The first leg's maker order fills one lot before it is cancelled and its
    replacement fills two, the second leg is refused. -/
def forgottenMakerFill : EntryCall :=
  sample
    ({ placement := .answered [] (some 8),
       polls := [{ events := [.fill 1 100], outcome := .found (some 8) }] },
      { placement := .answered [.fill 2 101, .mark .filled] (some 9) })
    (refused, refused)

/-- A failed entry can leave a position although the whole rollback succeeded. -/
theorem submitEntry_not_atomic :
    ¬ ∀ (e : EntryCall) (r : EntryResult), e.result = .ok r → r.success = false →
      (∀ i, e.script.rollbackReplies i = none) → e.Flat := by
  intro h
  have hresult : forgottenMakerFill.result =
      .ok { success := false, tradeId := 7, fills := forgottenMakerFill.legs.map LegCall.fill,
            error := some "partial_fill_rolled_back",
            rollbackActions := ["rollback_close:C-BTC-77000-260526"] } := by
    decide
  have hflat := (h forgottenMakerFill _ hresult rfl (fun _ => rfl)).1
  have hleft : ¬ ∀ leg ∈ forgottenMakerFill.req.legs,
      forgottenMakerFill.position leg.symbol = 0 := by decide
  exact hleft hflat

end EntryCall

end LiveExecutor

end OptionsBot
