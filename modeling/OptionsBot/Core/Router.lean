import Mathlib.Algebra.BigOperators.Group.List.Basic
import OptionsBot.Core.Strategy
import OptionsBot.Lib.OrderLife

/-!
# Execution Router Interface

The requests and results shared by the executors, and the arithmetic on fills
that turns them into the premium, credit and profit columns of a trade. An
entry reports one net total over all lots; a trade stores premium or credit per
lot, whichever the sign of the total makes it.

A client order id is kept as the parts it is generated from, so that two of
them are equal only when generated for the same purpose.

## Main definitions

* `ClientOrderId`: A client order id.
* `LegFill`, `LegFill.isComplete`: The result of placing one leg.
* `EntryRequest`, `EntryResult`: An entry and its result.
* `EntryResult.totalPremiumInr`: The net premium of an entry.
* `perLotPremiumFromNet`: Premium and credit per lot from a net total.
* `realisedPnlInr`: Entry and exit cash flows together.

## Theorems

* `entryCashflow_perLot`: Storing per lot and reading back loses nothing.
-/

namespace OptionsBot

/-- A client order id: the parts one is generated from, or one of the markers
    used where no order was sent. -/
inductive ClientOrderId where
  | generated (strategyId : String) (tradeId : Nat) (legIdx : Int) (purpose : String)
  | error
  | missingQuote
  | missingInstrument
  deriving DecidableEq, Repr

/-- The result of placing one leg. -/
structure LegFill where
  symbol : String
  side : Side
  qtyRequested : ℚ
  qtyFilled : ℚ
  avgFillPrice : Option ℚ
  legIdx : Int
  clientOrderId : ClientOrderId
  exchangeOrderId : Option Int := none
  state : OrderState := .filled
  deriving DecidableEq

/-- Filled, and for the requested quantity up to `1e-9`. -/
def LegFill.isComplete (f : LegFill) : Bool :=
  f.state = .filled ∧ f.qtyRequested - 1 / 1000000000 ≤ f.qtyFilled

theorem LegFill.isComplete_iff (f : LegFill) :
    f.isComplete = true ↔ f.state = .filled ∧ f.qtyRequested - 1 / 1000000000 ≤ f.qtyFilled := by
  rw [LegFill.isComplete, decide_eq_true_iff]

structure EntryRequest where
  strategyId : StrategyId
  tradeId : Nat
  underlying : Underlying
  legs : List LegIntent
  lots : Nat
  intentRationale : String
  spreadPctMax : ℚ := 8 / 100
  makerTimeoutSeconds : ℚ := 30
  slipBpsBudget : Nat := 50

structure EntryResult where
  success : Bool
  tradeId : Nat
  fills : List LegFill := []
  error : Option String := none
  rollbackActions : List String := []
  deriving DecidableEq

structure ExitRequest where
  strategyId : StrategyId
  tradeId : Nat
  underlying : Underlying
  legs : List LegIntent
  lots : Nat
  trigger : ExitTrigger

structure ExitResult where
  success : Bool
  tradeId : Nat
  fills : List LegFill := []
  error : Option String := none
  completedAt : Option DateTime := none

/-- The signed cash of one fill, positive for a purchase. A fill without a price
    counts for nothing. -/
def LegFill.cost (f : LegFill) : ℚ :=
  match f.avgFillPrice with
  | none => 0
  | some price => f.side.sign * price * f.qtyFilled

/-- The net premium of an entry, summed over its fills. -/
def EntryResult.totalPremiumInr (r : EntryResult) : ℚ := (r.fills.map LegFill.cost).sum

/-- A net total over all lots, as the premium and credit columns per lot. -/
def perLotPremiumFromNet (netPremiumInr : ℚ) (lots : Int) : Option ℚ × Option ℚ :=
  let lots := if lots < 1 then 1 else lots
  let perLot := netPremiumInr / lots
  if 0 < perLot then (some perLot, none)
  else if perLot < 0 then (none, some (-perLot))
  else (none, none)

/-- The cash at entry from the columns per lot, negative when paid. -/
def entryCashflowInr (premiumPaidPerLot creditReceivedPerLot : Option ℚ) (lots : Int) : ℚ :=
  creditReceivedPerLot.getD 0 * lots - premiumPaidPerLot.getD 0 * lots

/-- The cash from exit fills, positive when received. -/
def exitCashflowInr (fills : List LegFill) : ℚ := (fills.map (fun f => -f.cost)).sum

def realisedPnlInr (premiumPaidPerLot creditReceivedPerLot : Option ℚ) (lots : Int)
    (exitFills : List LegFill) : ℚ :=
  entryCashflowInr premiumPaidPerLot creditReceivedPerLot lots + exitCashflowInr exitFills

/-- Storing a net total per lot and reading it back over the same lots loses
    nothing. -/
theorem entryCashflow_perLot (net : ℚ) (lots : Int) (h : 1 ≤ lots) :
    entryCashflowInr (perLotPremiumFromNet net lots).1 (perLotPremiumFromNet net lots).2 lots =
      -net := by
  have hpos : (0 : ℚ) < lots := by exact_mod_cast h
  have hback : net / lots * lots = net := div_mul_cancel₀ net hpos.ne'
  simp only [perLotPremiumFromNet, if_neg (not_lt.mpr h)]
  by_cases h0 : 0 < net / lots
  · rw [if_pos h0]
    simp only [entryCashflowInr, Option.getD_some, Option.getD_none, zero_mul, zero_sub, hback]
  · rw [if_neg h0]
    by_cases h1 : net / lots < 0
    · rw [if_pos h1]
      simp only [entryCashflowInr, Option.getD_some, Option.getD_none, zero_mul, sub_zero, neg_mul,
        hback]
    · rw [if_neg h1]
      -- Neither sign: nothing was paid or received.
      have hz : net / lots = 0 := le_antisymm (not_lt.mp h0) (not_lt.mp h1)
      rw [hz, zero_mul] at hback
      simp only [entryCashflowInr, Option.getD_none, zero_mul, sub_zero, ← hback, neg_zero]

end OptionsBot
