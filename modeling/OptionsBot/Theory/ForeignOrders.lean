import OptionsBot.Core.Reconcile

/-!
# Orders the Database Does Not Know

The reconciliation is there to refuse a start while the exchange holds open
orders that are not the bot's. An order is known by its client order id: it
needs one, a row has to have it, and no other order of the list may share it.

The list goes through a dictionary first. An order without an id never enters
it, and two orders with one id leave a single entry, so of those the check that
follows sees nothing. A row is looked for among the working ones only, which
reports more than it has to and never less.

## Main definitions

* `Unknown`: An order of the list has no row of its own.
* `ForeignReported`: What a report should say of the list.
* `KeyedApart`: Every order has an id, and the working rows' are not shared.

## Theorems

* `reported_foreign_iff`: Which ids a report lists as foreign.
* `foreignReported_iff`: Exactly when a report says what it should.
-/

namespace OptionsBot

open OrderReconciler

/-- The order has no row of its own: no id, one that no row has, or one it
    shares with another order of the list. -/
def Unknown (db : OrderBook) (live : List JsonObject) (o : JsonObject) : Prop :=
  coid o = "" ∨ (∀ row ∈ db.orders, row.clientOrderId ≠ coid o) ∨
    1 < (live.map coid).count (coid o)

/-- Every unknown order is among the mismatches, and a report that lets the bot
    start has matched the orders to rows, one to one. -/
structure ForeignReported (db : OrderBook) (live : List JsonObject) (report : ReconcileReport) :
    Prop where
  reported : ∀ o ∈ live, Unknown db live o →
    ∃ m ∈ report.mismatches, m.kind = .foreignOpen ∧ m.clientOrderId = some (coid o)
  matched : report.mustHalt = false → (live.map coid).Nodup ∧
    ∀ o ∈ live, coid o ≠ "" ∧ ∃ row ∈ db.orders, row.clientOrderId = coid o

/-- Every order of the list has an id, and no two have that of a working row. -/
structure KeyedApart (db : OrderBook) (live : List JsonObject) : Prop where
  keyed : ∀ o ∈ live, coid o ≠ ""
  apart : ∀ row ∈ db.orders, row.isOpen = true → (live.map coid).count row.clientOrderId ≤ 1

section Report

variable (parse : String → Option ℚ) (lookup : String → OrderReply) (db : OrderBook)
  (live : List JsonObject) (report : ReconcileReport)
  (h : (run parse (.orders live) lookup db).2 = .ok report)
include h

/-- A report lists as foreign the ids of the list that no working row has. -/
theorem reported_foreign_iff (key : String) :
    (∃ m ∈ report.mismatches, m.kind = .foreignOpen ∧ m.clientOrderId = some key) ↔
      key ≠ "" ∧ key ∈ live.map coid ∧ key ∉ (openOrders db).map OrderRow.clientOrderId := by
  rcases walk_of_run parse lookup db live report h with ⟨outcomes, hwalk⟩
  rcases run_ok parse lookup db live outcomes hwalk with ⟨_, _, report', hreport, hmismatches⟩
  rw [h] at hreport
  cases hreport
  rw [← mem_foreignOpen, hmismatches]
  constructor
  · rintro ⟨m, hm, hkind, hkey⟩
    rcases List.mem_append.mp hm with hm | hm
    · rcases List.mem_append.mp hm with hm | hm
      · exact ⟨m, hm, hkey⟩
      · rw [walkOrders_mismatch parse lookup _ _ _ hwalk m hm] at hkind
        cases hkind
    · rcases List.mem_filterMap.mp hm with ⟨trade, _, htrade⟩
      rw [partialLegGroup_kind _ trade m htrade] at hkind
      cases hkind
  · rintro ⟨m, hm, hkey⟩
    exact ⟨m, List.mem_append_left _ (List.mem_append_left _ hm), foreignOpen_kind _ _ m hm, hkey⟩

/-- Whenever the reconciliation reports, its report is right about the orders of
    the exchange exactly when each has an id and no two have that of one working
    row. -/
theorem foreignReported_iff : ForeignReported db live report ↔ KeyedApart db live := by
  have hforeign := reported_foreign_iff parse lookup db live report h
  constructor
  · intro hsound
    refine ⟨fun o ho hempty => ?_, fun row hrow hopen => ?_⟩
    · have hkey := (hforeign (coid o)).mp (hsound.reported o ho (Or.inl hempty))
      exact hkey.1 hempty
    · by_contra hcount
      rw [not_le] at hcount
      rcases List.mem_map.mp (List.count_pos_iff.mp (Nat.lt_of_le_of_lt (Nat.zero_le 1) hcount))
        with ⟨o, ho, hkey⟩
      rw [← hkey] at hcount
      -- The id is that of a working row, so the order is not listed as foreign.
      have hlisted := (hforeign (coid o)).mp
        (hsound.reported o ho (Or.inr (Or.inr hcount)))
      refine hlisted.2.2 (List.mem_map.mpr ⟨row, ?_, hkey.symm⟩)
      exact List.mem_filter.mpr ⟨hrow, hopen⟩
  · intro happart
    have hreported : ∀ o ∈ live, Unknown db live o →
        ∃ m ∈ report.mismatches, m.kind = .foreignOpen ∧ m.clientOrderId = some (coid o) := by
      intro o ho hunknown
      refine (hforeign (coid o)).mpr ⟨happart.keyed o ho, List.mem_map_of_mem ho, fun hmem => ?_⟩
      rcases List.mem_map.mp hmem with ⟨row, hrow, hkey⟩
      rcases List.mem_filter.mp hrow with ⟨hdb, hopen⟩
      rcases hunknown with hempty | hrows | hcount
      · exact happart.keyed o ho hempty
      · exact hrows row hdb hkey
      · rw [← hkey] at hcount
        exact absurd hcount (Nat.not_lt.mpr (happart.apart row hdb hopen))
    refine ⟨hreported, fun hstart => ?_⟩
    -- The bot starts on an empty report only, so there is no unknown order.
    have hnone : ∀ o ∈ live, ¬ Unknown db live o := by
      intro o ho hunknown
      rcases hreported o ho hunknown with ⟨m, hm, _⟩
      rw [ReconcileReport.mustHalt, Bool.not_eq_false', List.isEmpty_iff] at hstart
      rw [hstart] at hm
      exact absurd hm List.not_mem_nil
    refine ⟨List.nodup_iff_count_le_one.mpr fun key => ?_, fun o ho => ⟨happart.keyed o ho, ?_⟩⟩
    · by_contra hcount
      rw [not_le] at hcount
      rcases List.mem_map.mp (List.count_pos_iff.mp (Nat.lt_of_le_of_lt (Nat.zero_le 1) hcount))
        with ⟨o, ho, rfl⟩
      exact hnone o ho (Or.inr (Or.inr hcount))
    · by_contra hrow
      exact hnone o ho (Or.inr (Or.inl fun row hr hkey => hrow ⟨row, hr, hkey⟩))

end Report

/-- The one working order of a database. -/
def knownRow : OrderRow :=
  { id := 1, ts := ⟨0⟩, tradeId := none, legIdx := some 0, qty := 1, state := "open"
    clientOrderId := "credit_vertical-4-0-entry-known" }

def knownBook : OrderBook :=
  { orders := [knownRow], trades := []
    ids_nodup := List.nodup_singleton _
    clientOrderIds_nodup := List.nodup_singleton _ }

/-- An open order of the exchange, under a client order id. -/
def openOrder (key : String) : JsonObject :=
  [("client_order_id", .text key), ("state", .text "open")]

/-- An open order placed by hand. It has no client order id. -/
def manualOrder : JsonObject := [("client_order_id", .null), ("state", .text "open")]

/-- Beside the known order, one of another bot is reported. -/
theorem foreignReported_iff_rogue :
    ForeignReported knownBook
      [openOrder "credit_vertical-4-0-entry-known", openOrder "unknown-rogue-99"]
      { ordersChecked := 1
        mismatches := [{ kind := .foreignOpen, clientOrderId := some "unknown-rogue-99" }] } := by
  refine (foreignReported_iff (fun _ => none) (fun _ => .nothing) knownBook _ _ rfl).mpr ⟨?_, ?_⟩
  · decide
  · decide

/-- Beside the known order, one without an id and a second one with the known id
    are in no mismatch, and the bot may start. -/
theorem unkeyed_orders_pass :
    ∃ report : ReconcileReport,
      (run (fun _ => none) (.orders [openOrder "credit_vertical-4-0-entry-known",
        openOrder "credit_vertical-4-0-entry-known", manualOrder]) (fun _ => .nothing)
        knownBook).2 = .ok report ∧
      report.mustHalt = false ∧
      ¬ ForeignReported knownBook [openOrder "credit_vertical-4-0-entry-known",
        openOrder "credit_vertical-4-0-entry-known", manualOrder] report := by
  refine ⟨{ ordersChecked := 1 }, rfl, rfl, fun hsound => ?_⟩
  have hmanual := ((hsound.matched rfl).2 manualOrder (by decide)).1
  exact hmanual rfl

end OptionsBot
