import OptionsBot.Theory.SettledRows

/-!
# All Legs or None

A trade of several legs is either there with all of them or not at all, and
anything between should stop the bot from starting. The reconciliation looks at
the latest order of each leg and reports a trade of which one leg is filled
while another is still working.

That is not all there is between. A leg that was cancelled or rejected will not
fill any more, and one that was never ordered has no state to look at. Beside a
filled leg either leaves half a position, and once no leg is working the check
has nothing to say about it. The trade stays open, and the bot starts.

## Main definitions

* `legsOf`: The legs of a trade.
* `LegFilled`, `LegGone`: What the latest order of a leg says.
* `AllOrNone`: Every leg is filled, or none is.
* `HalfFilled`: A filled leg, one that is gone, and none that is working.

## Theorems

* `legFilled_settled`, `workingLeg_settled`: A leg after a run, from its order before.
* `not_reported_iff`: When the trade is not reported.
* `allOrNone_iff`: Exactly when an unreported trade is all or none.
-/

namespace OptionsBot

open OrderReconciler

/-- The legs of a trade: those of its rows, and those that were ordered. -/
def legsOf (orders : List OrderRow) (rows : Trade × List Leg) : List Int :=
  rows.2.map Leg.legIdx ++
    (orders.filter (fun o => o.isLegOf rows.1.id)).filterMap OrderRow.legIdx

section Legs

variable (state : OrderRow → String) (orders : List OrderRow)

/-- The latest order of the leg is filled. -/
def LegFilled (tradeId : Nat) (i : Int) : Prop :=
  ∃ o, latestLegOrder orders tradeId i = some o ∧ state o = "filled"

/-- The latest order of the leg has come to nothing, if there is an order. -/
def LegGone (tradeId : Nat) (i : Int) : Prop :=
  ∀ o, latestLegOrder orders tradeId i = some o → state o ∈ ["canceled", "rejected"]

/-- Every leg of the trade is filled, or none is. -/
def AllOrNone (rows : Trade × List Leg) : Prop :=
  (∀ i ∈ legsOf orders rows, LegFilled state orders rows.1.id i) ∨
    ∀ i ∈ legsOf orders rows, ¬ LegFilled state orders rows.1.id i

/-- A leg of the trade is filled, another is gone, and no leg is working. -/
structure HalfFilled (rows : Trade × List Leg) : Prop where
  filled : ∃ i ∈ legsOf orders rows, LegFilled state orders rows.1.id i
  gone : ∃ i ∈ legsOf orders rows, LegGone state orders rows.1.id i
  settled : ∀ i o, latestLegOrder orders rows.1.id i = some o → state o ∈ terminalLocalStates

end Legs

section Run

variable (parse : String → Option ℚ) (lookup : String → OrderReply) (db : OrderBook)
  (live : List JsonObject)

/-- A walk adds no leg to a trade and takes none away. -/
theorem legsOf_settled (orders : List OrderRow) (rows : Trade × List Leg) :
    legsOf (orders.map (settledRow parse lookup (liveByCoid live))) rows = legsOf orders rows := by
  have hframe := settledRow_frame parse lookup (liveByCoid live)
  have hleg : ∀ o, (settledRow parse lookup (liveByCoid live) o).isLegOf rows.1.id =
      o.isLegOf rows.1.id := by
    intro o
    rw [OrderRow.isLegOf, OrderRow.isLegOf, (hframe o).2.1, (hframe o).2.2]
  unfold legsOf
  rw [List.filter_map, List.filterMap_map]
  simp only [Function.comp_def, hleg, (hframe _).2.2]

variable (outcomes : List RowOutcome)
  (hwalk : walkOrders parse lookup (liveByCoid live) db.orders = .ok outcomes)
include hwalk

/-- What the order of a leg is left in is read off the order there was. -/
theorem leg_settled (tradeId : Nat) (i : Int) (P : String → Prop) :
    (∃ o, latestLegOrder (outcomes.map RowOutcome.row) tradeId i = some o ∧ P o.state) ↔
      ∃ o, latestLegOrder db.orders tradeId i = some o ∧
        P (settledState lookup (liveByCoid live) o) := by
  rw [walk_rows parse lookup _ _ outcomes hwalk, latestLegOrder_settled]
  simp only [Option.map_eq_some_iff]
  constructor
  · rintro ⟨_, ⟨o, ho, rfl⟩, hstate⟩
    have hmem := (mem_of_latestLegOrder db.orders tradeId i o ho).1
    rw [walk_state parse lookup _ _ outcomes hwalk o hmem] at hstate
    exact ⟨o, ho, hstate⟩
  · rintro ⟨o, ho, hstate⟩
    have hmem := (mem_of_latestLegOrder db.orders tradeId i o ho).1
    rw [← walk_state parse lookup _ _ outcomes hwalk o hmem] at hstate
    exact ⟨_, ⟨o, ho, rfl⟩, hstate⟩

/-- A leg is filled after a run if its order is one that is left filled. -/
theorem legFilled_settled (tradeId : Nat) (i : Int) :
    LegFilled OrderRow.state (outcomes.map RowOutcome.row) tradeId i ↔
      LegFilled (settledState lookup (liveByCoid live)) db.orders tradeId i :=
  leg_settled parse lookup db live outcomes hwalk tradeId i (fun state => state = "filled")

/-- And working if its order is one that is left working. -/
theorem workingLeg_settled (tradeId : Nat) :
    (∃ j o, latestLegOrder (outcomes.map RowOutcome.row) tradeId j = some o ∧
      o.state ∉ terminalLocalStates) ↔
      ∃ j o, latestLegOrder db.orders tradeId j = some o ∧
        settledState lookup (liveByCoid live) o ∉ terminalLocalStates :=
  exists_congr fun j => leg_settled parse lookup db live outcomes hwalk tradeId j
    (fun state => state ∉ terminalLocalStates)

/-- A trade that is not reported has no filled leg, or no working one. -/
theorem not_reported_iff (report : ReconcileReport)
    (h : (run parse (.orders live) lookup db).2 = .ok report) (trade : Trade)
    (htrade : trade ∈ openTrades db) :
    (¬ ∃ m ∈ report.mismatches, m.kind = .partialLegGroup ∧ m.tradeId = some trade.id) ↔
      (∀ i, ¬ LegFilled (settledState lookup (liveByCoid live)) db.orders trade.id i) ∨
        ∀ i o, latestLegOrder db.orders trade.id i = some o →
          settledState lookup (liveByCoid live) o ∈ terminalLocalStates := by
  -- The check of a trade looks at nothing of it but its id.
  have hreported : (∃ m ∈ report.mismatches, m.kind = .partialLegGroup ∧
      m.tradeId = some trade.id) ↔
      (partialLegGroup (outcomes.map RowOutcome.row) trade).isSome := by
    rw [reported_partial_iff parse lookup db live outcomes hwalk report h]
    constructor
    · rintro ⟨t, _, hid, hsome⟩
      rw [partialLegGroup_isSome_iff, hid] at hsome
      exact (partialLegGroup_isSome_iff _ trade).mpr hsome
    · exact fun hsome => ⟨trade, htrade, rfl, hsome⟩
  rw [hreported, partialLegGroup_isSome_iff,
    workingLeg_settled parse lookup db live outcomes hwalk, not_and_or, not_exists]
  refine or_congr (forall_congr' fun i => ?_) ?_
  · exact not_congr (legFilled_settled parse lookup db live outcomes hwalk trade.id i)
  · push Not
    rfl

end Run

section Trade

variable (parse : String → Option ℚ) (lookup : String → OrderReply) (db : OrderBook)
  (live : List JsonObject)

/-- Whatever the orders of an open trade are left in: that a run does not report its legs means that
    all of them are filled or none is, exactly unless one is filled, another is cancelled, rejected
    or was never ordered, and none is working any more. -/
theorem allOrNone_iff (report : ReconcileReport)
    (h : (run parse (.orders live) lookup db).2 = .ok report) (rows : Trade × List Leg)
    (hrows : rows ∈ db.trades) (hopen : rows.1.status = .«open») :
    ((¬ ∃ m ∈ report.mismatches, m.kind = .partialLegGroup ∧ m.tradeId = some rows.1.id) →
        AllOrNone OrderRow.state (run parse (.orders live) lookup db).1.orders rows) ↔
      ¬ HalfFilled (settledState lookup (liveByCoid live)) db.orders rows := by
  rcases walk_of_run parse lookup db live report h with ⟨outcomes, hwalk⟩
  rcases run_ok parse lookup db live outcomes hwalk with ⟨horders, _⟩
  have htrade : rows.1 ∈ openTrades db := by
    refine List.mem_filter.mpr ⟨List.mem_map_of_mem hrows, ?_⟩
    rw [decide_eq_true_eq]
    exact hopen
  have hall : AllOrNone OrderRow.state (run parse (.orders live) lookup db).1.orders rows ↔
      AllOrNone (settledState lookup (liveByCoid live)) db.orders rows := by
    unfold AllOrNone
    rw [horders]
    simp only [legFilled_settled parse lookup db live outcomes hwalk]
    rw [walk_rows parse lookup _ _ outcomes hwalk, legsOf_settled]
  rw [not_reported_iff parse lookup db live outcomes hwalk report h rows.1 htrade, hall]
  constructor
  · -- No leg is working, so nothing is reported, and the two legs differ.
    rintro hsound ⟨⟨i, hi, hfilled⟩, ⟨j, hj, hgone⟩, hsettled⟩
    rcases hsound (Or.inr hsettled) with hevery | hnone
    · rcases hevery j hj with ⟨o, ho, hstate⟩
      have hcanceled := hgone o ho
      rw [hstate] at hcanceled
      exact absurd hcanceled (by decide)
    · exact hnone i hi hfilled
  · intro hhalf hunreported
    by_contra hmixed
    rw [AllOrNone, not_or] at hmixed
    push Not at hmixed
    rcases hmixed with ⟨⟨j, hj, hother⟩, i, hi, hfilled⟩
    rcases hunreported with hnone | hsettled
    · exact hnone i hfilled
    · -- The order of the other leg is at its end, and was not filled.
      refine hhalf ⟨⟨i, hi, hfilled⟩, ⟨j, hj, fun o ho => ?_⟩, hsettled⟩
      rcases List.mem_cons.mp (hsettled j o ho) with hstate | hgone
      · exact absurd ⟨o, ho, hstate⟩ hother
      · exact hgone

end Trade

/-- The short and the long leg of a credit vertical. -/
def groupTrade : Trade × List Leg :=
  ({ id := 3, strategyId := .creditVertical, underlying := .btc, expiry := none, entryTs := ⟨0⟩
     lots := 1 },
    [{ tradeId := 3, strategyId := .creditVertical, legIdx := 0, symbol := "P-BTC-96000-300126"
       optionType := some .put, strike := some 96000, side := .sell, lots := 1,
       entryPrice := none },
     { tradeId := 3, strategyId := .creditVertical, legIdx := 1, symbol := "P-BTC-95000-300126"
       optionType := some .put, strike := some 95000, side := .buy, lots := 1
       entryPrice := none }])

/-- Its orders, the short leg filled and the long leg in a state. -/
def groupBook (state : String) : OrderBook :=
  { orders :=
      [{ id := 1, ts := ⟨0⟩, tradeId := some 3, legIdx := some 0, qty := 1, filledQty := 1
         state := "filled", clientOrderId := "credit_vertical-3-0-entry-a" },
       { id := 2, ts := ⟨1⟩, tradeId := some 3, legIdx := some 1, qty := 1, state := state
         clientOrderId := "credit_vertical-3-1-entry-b" }]
    trades := [groupTrade]
    ids_nodup := show [1, 2].Nodup by decide
    clientOrderIds_nodup :=
      show ["credit_vertical-3-0-entry-a", "credit_vertical-3-1-entry-b"].Nodup by decide }

/-- With both legs filled, the trade is not reported and is whole. -/
theorem allOrNone_iff_filled :
    AllOrNone OrderRow.state (run (fun _ => none) (.orders []) (fun _ => .nothing)
      (groupBook "filled")).1.orders groupTrade := by
  refine (allOrNone_iff (fun _ => none) (fun _ => .nothing) (groupBook "filled") []
    { tradesChecked := 1 } rfl groupTrade List.mem_cons_self rfl).mpr ?_ ?_
  · rintro ⟨_, ⟨i, hi, hgone⟩, _⟩
    have hlegs : i = 0 ∨ i = 1 := by
      have hmem : ∀ i ∈ legsOf (groupBook "filled").orders groupTrade, i = 0 ∨ i = 1 := by decide
      exact hmem i hi
    rcases hlegs with rfl | rfl
    · exact absurd (hgone _ rfl) (by decide)
    · exact absurd (hgone _ rfl) (by decide)
  · rintro ⟨m, hm, _⟩
    exact absurd hm List.not_mem_nil

/-- With the short leg filled and the long one cancelled, the trade is half a position. It is not
    reported, and the bot may start. -/
theorem canceled_leg_unreported :
    ∃ report : ReconcileReport,
      (run (fun _ => none) (.orders []) (fun _ => .nothing) (groupBook "canceled")).2 =
        .ok report ∧ report.mustHalt = false ∧
      (¬ ∃ m ∈ report.mismatches, m.kind = .partialLegGroup ∧ m.tradeId = some 3) ∧
      ¬ AllOrNone OrderRow.state (run (fun _ => none) (.orders []) (fun _ => .nothing)
        (groupBook "canceled")).1.orders groupTrade := by
  refine ⟨{ tradesChecked := 1 }, rfl, rfl, ?_, ?_⟩
  · rintro ⟨m, hm, _⟩
    exact absurd hm List.not_mem_nil
  · rintro (hevery | hnone)
    · rcases hevery 1 (by decide) with ⟨o, ho, hstate⟩
      cases ho
      exact absurd hstate (by decide)
    · exact hnone 0 (by decide) ⟨_, rfl, rfl⟩

end OptionsBot
