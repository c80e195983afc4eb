import OptionsBot.Core.Engine

/-!
# What a Round Trip Comes To

The profit a trade books is put together in two places. At entry the net of the
fills is divided by the lots and stored, by its sign, as a premium or as a
credit; at exit the column is multiplied by the lots again and the exit fills
are added. Nothing may be lost between the two: the profit has to be what all
sales brought in, less what all purchases cost.

The split by sign is undone by the reading of the columns, whichever of them is
set, and a net of zero sets neither. The division is undone by the same lots. A
fill without a price counts for nothing on either side.

## Main definitions

* `turnover`: What the fills of one side come to.

## Theorems

* `sum_cost_eq`: The cost of fills, by side.
* `realisedPnl_eq_turnover`: The profit is sales less purchases.
* `bookedPnl_eq_turnover`: The same for the rows of a trade.
-/

namespace OptionsBot

/-- What the fills of one side come to. One without a price counts for nothing. -/
def turnover (side : Side) (fills : List LegFill) : ℚ :=
  ((fills.filter (fun f => decide (f.side = side))).map
    (fun f => f.avgFillPrice.getD 0 * f.qtyFilled)).sum

theorem turnover_cons (side : Side) (f : LegFill) (rest : List LegFill) :
    turnover side (f :: rest) =
      (if f.side = side then f.avgFillPrice.getD 0 * f.qtyFilled else 0) + turnover side rest := by
  unfold turnover
  by_cases h : f.side = side
  · rw [List.filter_cons_of_pos (by simpa only [decide_eq_true_eq] using h), List.map_cons,
      List.sum_cons, if_pos h]
  · rw [List.filter_cons_of_neg (by simpa only [decide_eq_true_eq] using h), if_neg h, zero_add]

theorem turnover_append (side : Side) (fills more : List LegFill) :
    turnover side (fills ++ more) = turnover side fills + turnover side more := by
  rw [turnover, List.filter_append, List.map_append, List.sum_append]
  rfl

theorem LegFill.cost_eq (f : LegFill) :
    f.cost = f.side.sign * (f.avgFillPrice.getD 0 * f.qtyFilled) := by
  unfold LegFill.cost
  cases f.avgFillPrice with
  | none => rw [Option.getD_none, zero_mul, mul_zero]
  | some price => exact mul_assoc _ _ _

/-- What fills cost is what was bought less what was sold. -/
theorem sum_cost_eq (fills : List LegFill) :
    (fills.map LegFill.cost).sum = turnover .buy fills - turnover .sell fills := by
  induction fills with
  | nil => simp only [turnover, List.filter_nil, List.map_nil, List.sum_nil, sub_self]
  | cons f rest ih =>
      rw [List.map_cons, List.sum_cons, ih, turnover_cons, turnover_cons, f.cost_eq]
      -- A fill is on one of the two sides, and adds nothing to the other.
      cases f.side with
      | buy =>
          rw [if_pos rfl, if_neg Side.noConfusion, Side.sign]
          ring
      | sell =>
          rw [if_neg Side.noConfusion, if_pos rfl, Side.sign]
          ring

theorem exitCashflow_eq (fills : List LegFill) :
    exitCashflowInr fills = turnover .sell fills - turnover .buy fills := by
  have hneg : exitCashflowInr fills = -(fills.map LegFill.cost).sum := by
    rw [exitCashflowInr, List.sum_neg, List.map_map]
    rfl
  rw [hneg, sum_cost_eq, neg_sub]

/-- Whatever the sides, quantities and prices of the fills: the profit read back from the columns of
    an entry is what all sales brought in, less what all purchases cost. -/
theorem realisedPnl_eq_turnover (result : EntryResult) (lots : Int) (h : 1 ≤ lots)
    (exitFills : List LegFill) :
    realisedPnlInr (perLotPremiumFromNet result.totalPremiumInr lots).1
        (perLotPremiumFromNet result.totalPremiumInr lots).2 lots exitFills =
      turnover .sell (result.fills ++ exitFills) - turnover .buy (result.fills ++ exitFills) := by
  have hentry : -result.totalPremiumInr =
      turnover .sell result.fills - turnover .buy result.fills := by
    rw [EntryResult.totalPremiumInr, sum_cost_eq, neg_sub]
  rw [realisedPnlInr, entryCashflow_perLot _ lots h, hentry, exitCashflow_eq, turnover_append,
    turnover_append]
  ring

/-- A trade whose rows an entry has written books what its sales brought in, less what its purchases
    cost. -/
theorem bookedPnl_eq_turnover (trade : Trade) (intent : Intent) (sizing : SizingResult)
    (result : EntryResult) (quoteFor : Option (String → Option QuoteSnapshot))
    (chain : Option ChainCache) (rows : Trade × List Leg)
    (h : recordEntry trade intent sizing result quoteFor chain = .ok rows)
    (hsuccess : result.success = true) (hlots : trade.lots = sizing.sizedLots)
    (hsized : 1 ≤ sizing.sizedLots) (exit : ExitResult) :
    tradeRealisedPnl rows.1 exit =
      turnover .sell (result.fills ++ exit.fills) - turnover .buy (result.fills ++ exit.fills) := by
  rcases recordEntry_success trade intent sizing result quoteFor chain rows h hsuccess with
    ⟨⟨greeks, hrow⟩, _⟩
  rw [tradeRealisedPnl, hrow, hlots]
  exact realisedPnl_eq_turnover result sizing.sizedLots hsized exit.fills

/-- A complete fill of a leg. -/
def pricedFill (side : Side) (price : ℚ) : LegFill :=
  { symbol := "P-BTC-96000-300126", side := side, qtyRequested := 3, qtyFilled := 3
    avgFillPrice := some price, legIdx := 0, clientOrderId := .error }

/-- The entry of a credit vertical, three lots of it. -/
def creditEntry : EntryResult :=
  { success := true, tradeId := 1, fills := [pricedFill .sell 200, pricedFill .buy 50] }

/-- Sold for 150 a lot and bought back for 80, three lots of a vertical earn 210. -/
theorem realisedPnl_eq_turnover_credit :
    realisedPnlInr (perLotPremiumFromNet creditEntry.totalPremiumInr 3).1
      (perLotPremiumFromNet creditEntry.totalPremiumInr 3).2 3
      [pricedFill .buy 100, pricedFill .sell 20] = 210 := by
  rw [realisedPnl_eq_turnover creditEntry 3 (by decide)]
  decide +kernel

end OptionsBot
