import OptionsBot.Theory.LegGroups

/-!
# Fills the Exchange Takes Back

An order that the database holds as filled and the exchange as partly filled or
cancelled is the one conflict that cannot be settled: the position is not what
the tables say. The reconciliation is meant to stop on it.

Only the rows that are still working are ever looked at. A filled row is never
looked up, so whatever the exchange would say of it, the run is the same, and it
is compared with nothing in the list either. What stops the start in such a case
is something else: a list that could not be had, an open order without a working
row, a working row whose lookup shows no end, or a trade with a working leg. An
order that the list still shows is among these, since the row that is filled is
not a working one.

An order is taken back by its state or by its numbers: one that is reported open
with half of its size filled is partly filled as well.

## Main definitions

* `reportedOrder`: What the exchange says of the order of a row.
* `PartlyFilled`: By the numbers, a part of the order is filled.
* `FillRegressed`: A filled order of an open trade that the exchange takes back.
* `Noticed`: What stops the start.

## Theorems

* `halts_iff_noticed`: When a reconciliation stops the start.
* `halts_of_shown`: A filled order that is still listed stops it.
* `run_blind`: Lookups of other rows than the working ones change nothing.
* `regressed_halts_iff`: Exactly when a fill that is taken back stops it.
-/

namespace OptionsBot

open OrderReconciler

/-- What the exchange reports of the order of a row: its entry in the list, or what its lookup
    brings. -/
def reportedOrder (exchange : OpenOrders) (lookup : String → OrderReply) (row : OrderRow) :
    Option JsonObject :=
  match shownOpen exchange row with
  | some o => some o
  | none => (fetchOrder (lookup row.clientOrderId)).toOption.bind id

/-- What a filled order cannot be any more, in the spellings of the tables and of the exchange. -/
def takenBack : List String := ["partially_filled", "canceled", "cancelled"]

/-- The filled quantity is some of the order's size, and less than that. Where the exchange gives no
    size, it is the row's. -/
def PartlyFilled (parse : String → Option ℚ) (row : OrderRow) (o : JsonObject) : Prop :=
  ∃ filled size, o.getFloatOr parse "filled_size" 0 = .ok filled ∧
    o.getFloatOr parse "size" row.qty = .ok size ∧ 0 < filled ∧ filled < size

/-- An order of an open trade is recorded as filled, and the exchange reports it as partly filled or
    as cancelled. -/
structure FillRegressed (parse : String → Option ℚ) (exchange : OpenOrders)
    (lookup : String → OrderReply) (db : OrderBook) (row : OrderRow) (rows : Trade × List Leg) :
    Prop where
  order : row ∈ db.orders
  filled : row.state = "filled"
  trade : rows ∈ db.trades
  «open» : rows.1.status = .«open»
  belongs : row.tradeId = some rows.1.id
  reported : ∃ o, reportedOrder exchange lookup row = some o ∧
    (o.getStr "state" ∈ takenBack ∨ PartlyFilled parse row o)

/-- The reconciliation returns a report that stops the start. -/
def Halts (parse : String → Option ℚ) (exchange : OpenOrders) (lookup : String → OrderReply)
    (db : OrderBook) : Prop :=
  ∃ report, (run parse exchange lookup db).2 = .ok report ∧ report.mustHalt = true

/-- The list could not be had; or nothing raises and there is an open order without a working row, a
    working row whose lookup shows no end, or an open trade with a leg left filled and a leg left
    working. -/
def Noticed (parse : String → Option ℚ) (exchange : OpenOrders) (lookup : String → OrderReply)
    (db : OrderBook) : Prop :=
  exchange = .failed ∨ ∃ live, exchange = .orders live ∧
    (∀ row ∈ db.orders, row.isOpen = true →
      Table.lookup Prod.fst row.clientOrderId (liveByCoid live) = none →
        ¬ LookupRaises parse lookup row) ∧
    ((∃ o ∈ live, coid o ≠ "" ∧ ∀ row ∈ db.orders, row.isOpen = true → row.clientOrderId ≠ coid o) ∨
      (∃ row ∈ db.orders, row.isOpen = true ∧ Regressed lookup (liveByCoid live) row) ∨
      ∃ rows ∈ db.trades, rows.1.status = .«open» ∧
        (∃ i, LegFilled (settledState lookup (liveByCoid live)) db.orders rows.1.id i) ∧
        ∃ j o, latestLegOrder db.orders rows.1.id j = some o ∧
          settledState lookup (liveByCoid live) o ∉ terminalLocalStates)

section Run

variable (parse : String → Option ℚ) (lookup : String → OrderReply) (db : OrderBook)

/-- When a trade is reported, in terms of what its orders are left in. -/
theorem partial_settled_iff (live : List JsonObject) (outcomes : List RowOutcome)
    (hwalk : walkOrders parse lookup (liveByCoid live) db.orders = .ok outcomes) (trade : Trade) :
    (partialLegGroup (outcomes.map RowOutcome.row) trade).isSome ↔
      (∃ i, LegFilled (settledState lookup (liveByCoid live)) db.orders trade.id i) ∧
        ∃ j o, latestLegOrder db.orders trade.id j = some o ∧
          settledState lookup (liveByCoid live) o ∉ terminalLocalStates := by
  rw [partialLegGroup_isSome_iff]
  refine and_congr ?_ (workingLeg_settled parse lookup db live outcomes hwalk trade.id)
  exact exists_congr fun i => legFilled_settled parse lookup db live outcomes hwalk trade.id i

/-- The open trades that are reported, by their rows. -/
theorem partial_open_iff (live : List JsonObject) (outcomes : List RowOutcome)
    (hwalk : walkOrders parse lookup (liveByCoid live) db.orders = .ok outcomes) :
    (∃ t ∈ openTrades db, (partialLegGroup (outcomes.map RowOutcome.row) t).isSome) ↔
      ∃ rows ∈ db.trades, rows.1.status = .«open» ∧
        (∃ i, LegFilled (settledState lookup (liveByCoid live)) db.orders rows.1.id i) ∧
        ∃ j o, latestLegOrder db.orders rows.1.id j = some o ∧
          settledState lookup (liveByCoid live) o ∉ terminalLocalStates := by
  simp only [partial_settled_iff parse lookup db live outcomes hwalk, openTrades,
    List.mem_filter, List.mem_map, decide_eq_true_eq]
  constructor
  · rintro ⟨t, ⟨⟨rows, hrows, rfl⟩, hopen⟩, hlegs⟩
    exact ⟨rows, hrows, hopen, hlegs⟩
  · rintro ⟨rows, hrows, hopen, hlegs⟩
    exact ⟨rows.1, ⟨⟨rows, hrows, rfl⟩, hopen⟩, hlegs⟩

/-- The orders no working row is known by, by the rows. -/
theorem foreign_open_iff (live : List JsonObject) :
    (∃ o ∈ live, coid o ≠ "" ∧ coid o ∉ (openOrders db).map OrderRow.clientOrderId) ↔
      ∃ o ∈ live, coid o ≠ "" ∧
        ∀ row ∈ db.orders, row.isOpen = true → row.clientOrderId ≠ coid o := by
  refine exists_congr fun o => and_congr_right fun _ => and_congr_right fun _ => ?_
  simp only [openOrders, List.mem_map, List.mem_filter, not_exists, not_and, and_imp]

/-- A reconciliation stops the start for what there is to notice, and for nothing else. -/
theorem halts_iff_noticed (exchange : OpenOrders) :
    Halts parse exchange lookup db ↔ Noticed parse exchange lookup db := by
  cases exchange with
  | failed => exact ⟨fun _ => Or.inl rfl, fun _ => ⟨_, rfl, rfl⟩⟩
  | raised e =>
      constructor
      · rintro ⟨report, hreport, _⟩
        cases hreport
      · rintro (hfailed | ⟨live, hlive, _⟩)
        · cases hfailed
        · cases hlive
  | orders live =>
      constructor
      · rintro ⟨report, hreport, hhalt⟩
        rcases walk_of_run parse lookup db live report hreport with ⟨outcomes, hwalk⟩
        refine Or.inr ⟨live, rfl, (walk_ends_iff parse lookup _ db.orders).mp ⟨outcomes, hwalk⟩, ?_⟩
        rw [mustHalt_iff parse lookup db live outcomes hwalk report hreport,
          foreign_open_iff, partial_open_iff parse lookup db live outcomes hwalk] at hhalt
        exact hhalt
      · rintro (hfailed | ⟨live', hlive, hends, hnoticed⟩)
        · cases hfailed
        · cases hlive
          rcases (walk_ends_iff parse lookup _ db.orders).mpr hends with ⟨outcomes, hwalk⟩
          rcases run_ok parse lookup db live outcomes hwalk with ⟨_, _, report, hreport, _⟩
          refine ⟨report, hreport, ?_⟩
          rw [mustHalt_iff parse lookup db live outcomes hwalk report hreport,
            foreign_open_iff, partial_open_iff parse lookup db live outcomes hwalk]
          exact hnoticed

/-- A filled row that the list still shows is no working row. Its order is foreign, which stops the
    start. -/
theorem halts_of_shown (live : List JsonObject) (row : OrderRow) (hrow : row ∈ db.orders)
    (hfilled : row.state = "filled") (o : JsonObject)
    (hshown : shownOpen (.orders live) row = some o)
    (hends : ∀ row ∈ db.orders, row.isOpen = true →
      Table.lookup Prod.fst row.clientOrderId (liveByCoid live) = none →
        ¬ LookupRaises parse lookup row) : Halts parse (.orders live) lookup db := by
  refine (halts_iff_noticed parse lookup db _).mpr (Or.inr ⟨live, rfl, hends, Or.inl ?_⟩)
  simp only [shownOpen, Option.map_eq_some_iff] at hshown
  rcases hshown with ⟨entry, hentry, rfl⟩
  rcases Table.mem_of_lookup Prod.fst _ _ entry hentry with ⟨hmem, hkey⟩
  rcases (mem_liveByCoid live row.clientOrderId).mp (List.mem_map.mpr ⟨entry, hmem, hkey⟩) with
    ⟨hne, hlisted⟩
  rcases List.mem_map.mp hlisted with ⟨o, ho, hcoid⟩
  refine ⟨o, ho, by rw [hcoid]; exact hne, fun row' hrow' hopen hsame => ?_⟩
  -- Keys are distinct, so the working row would be the filled one.
  have heq : row' = row :=
    List.inj_on_of_nodup_map db.clientOrderIds_nodup hrow' hrow (hsame.trans hcoid)
  rw [heq, OrderRow.isOpen, hfilled] at hopen
  exact absurd hopen (by decide)

/-- A walk only looks the working rows up. -/
theorem walk_blind (lookup' : String → OrderReply) (live : List (String × JsonObject))
    (orders : List OrderRow)
    (hsame : ∀ row ∈ orders, row.isOpen = true →
      lookup' row.clientOrderId = lookup row.clientOrderId) :
    walkOrders parse lookup' live orders = walkOrders parse lookup live orders := by
  unfold walkOrders
  induction orders with
  | nil => rfl
  | cons row rest ih =>
      have hrow : (if row.isOpen then reconcileRow parse lookup' live row
          else .ok { row := row }) =
          if row.isOpen then reconcileRow parse lookup live row else .ok { row := row } := by
        split_ifs with hopen
        · unfold reconcileRow
          rw [hsame row List.mem_cons_self hopen]
        · rfl
      rw [List.mapM_cons, List.mapM_cons, hrow,
        ih fun r hr => hsame r (List.mem_cons_of_mem row hr)]

/-- So whatever the lookups of the other rows would bring, filled ones included, nothing in the
    tables and nothing in the report depends on it. -/
theorem run_blind (exchange : OpenOrders) (lookup' : String → OrderReply)
    (hsame : ∀ row ∈ db.orders, row.isOpen = true →
      lookup' row.clientOrderId = lookup row.clientOrderId) :
    run parse exchange lookup' db = run parse exchange lookup db := by
  cases exchange with
  | failed => rfl
  | raised e => rfl
  | orders live =>
      have hwalk := walk_blind parse lookup lookup' (liveByCoid live) db.orders hsame
      simp only [run]
      split
      · next e he =>
        rw [hwalk] at he
        split
        · next e' he' =>
          rw [he] at he'
          cases he'
          rfl
        · next outs hout =>
          rw [he] at hout
          cases hout
      · next outs hout =>
        rw [hwalk] at hout
        split
        · next e' he' =>
          rw [hout] at he'
          cases he'
        · next outs' hout' =>
          rw [hout] at hout'
          cases hout'
          rfl

/-- Whatever the tables, the list and the replies: a fill of an open trade that the exchange takes
    back stops the start exactly when there is no such fill or something else is noticed. The fill
    itself is not: the lookups of rows that are not working ones have no part in it. -/
theorem regressed_halts_iff (exchange : OpenOrders) :
    ((∀ row rows, FillRegressed parse exchange lookup db row rows →
        Halts parse exchange lookup db) ↔
      (∀ row rows, ¬ FillRegressed parse exchange lookup db row rows) ∨
        Noticed parse exchange lookup db) ∧
    ∀ lookup' : String → OrderReply,
      (∀ row ∈ db.orders, row.isOpen = true →
        lookup' row.clientOrderId = lookup row.clientOrderId) →
      run parse exchange lookup' db = run parse exchange lookup db := by
  refine ⟨?_, run_blind parse lookup db exchange⟩
  rw [← halts_iff_noticed]
  constructor
  · intro hhalts
    by_cases hhalt : Halts parse exchange lookup db
    · exact Or.inr hhalt
    · exact Or.inl fun row rows hregressed => hhalt (hhalts row rows hregressed)
  · rintro (hnone | hhalt) row rows hregressed
    · exact absurd hregressed (hnone row rows)
    · exact hhalt

end Run

/-- An open trade whose one leg order of two lots is recorded as filled. -/
def filledBook : OrderBook :=
  { orders := [{ id := 9, ts := ⟨0⟩, tradeId := some 5, legIdx := some 0, qty := 2, filledQty := 2
                 state := "filled", clientOrderId := "directional-5-0-entry-f" }]
    trades := [({ id := 5, strategyId := .directional, underlying := .btc, expiry := none
                  entryTs := ⟨0⟩, lots := 2 }, [])]
    ids_nodup := List.nodup_singleton _
    clientOrderIds_nodup := List.nodup_singleton _ }

/-- The order of that leg, cancelled at the exchange. -/
def canceledOrder : JsonObject :=
  [("client_order_id", .text "directional-5-0-entry-f"), ("state", .text "canceled")]

/-- The order of that leg, open at the exchange with one of its two lots filled. -/
def halfFilledOrder : JsonObject :=
  [("client_order_id", .text "directional-5-0-entry-f"), ("state", .text "open"),
    ("size", .number 2 "2"), ("filled_size", .number 1 "1")]

/-- Whatever the lookup of the filled order would bring, the report is empty. -/
theorem filledBook_report (o : JsonObject) :
    (run (fun _ => none) (.orders []) (fun _ => .object o) filledBook).2 =
      .ok { tradesChecked := 1 } := rfl

theorem filledBook_goes (o : JsonObject) :
    ¬ Halts (fun _ => none) (.orders []) (fun _ => .object o) filledBook := by
  rintro ⟨report, hreport, hhalt⟩
  rw [filledBook_report] at hreport
  cases hreport
  exact absurd hhalt (by decide)

/-- The exchange has cancelled an order that the table holds as filled, or has filled half of it.
    The bot may start either way. -/
theorem canceled_fill_unseen :
    ((∃ row rows, FillRegressed (fun _ => none) (.orders []) (fun _ => .object canceledOrder)
        filledBook row rows) ∧
      ¬ Halts (fun _ => none) (.orders []) (fun _ => .object canceledOrder) filledBook) ∧
    (∃ row rows, FillRegressed (fun _ => none) (.orders []) (fun _ => .object halfFilledOrder)
        filledBook row rows) ∧
      ¬ Halts (fun _ => none) (.orders []) (fun _ => .object halfFilledOrder) filledBook := by
  refine ⟨⟨⟨_, _, List.mem_cons_self, rfl, List.mem_cons_self, rfl, rfl, canceledOrder, rfl,
    Or.inl (by decide)⟩, filledBook_goes _⟩, ⟨_, _, List.mem_cons_self, rfl, List.mem_cons_self,
    rfl, rfl, halfFilledOrder, rfl, Or.inr ⟨1, 2, rfl, rfl, ?_, ?_⟩⟩, filledBook_goes _⟩
  · norm_num
  · norm_num

end OptionsBot
