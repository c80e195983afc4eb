import OptionsBot.Core.Engine
import OptionsBot.Lib.Json
import OptionsBot.Lib.Table

/-!
# Order Reconciliation

What the bot does on boot to bring its order rows in line with the exchange: the
list of open orders is folded into a dictionary, the orders nobody here knows
are reported, every order row that was still working is settled from the
dictionary or from a lookup of its own, and the trades whose leg orders are all
cancelled are closed.

The exchange is a list of open orders and one reply for each lookup. Both can
fail with the client's own exception, which is handled, or raise any other,
which ends the reconciliation with the table as it was.

The state of an order row is text, since a row takes whatever state the list of
open orders shows. Of a mismatch the text for the operator is left out, and so
are the two times of a report.

## Main definitions

* `OrderRow`, `OrderBook`: The rows of `orders`, and the tables a run works on.
* `OpenOrders`, `OrderReply`: What the exchange answers.
* `ReconcileMismatch`, `ReconcileReport`: What a run reports.
* `fetchOrder`, `fetchedState`: A lookup, and the state read off it.
* `reconcileFetched`, `reconcileLive`, `reconcileRow`: Settling one row.
* `liveByCoid`, `foreignOpen`: The dictionary of open orders, and those unknown.
* `partialLegGroup`, `closeCanceled`: What the rows of a trade say about it.
* `run`: The whole reconciliation.

## Theorems

* `reconcileRow_listed`, `reconcileRow_lookedUp`, `reconcileRow_ok`: From what a row is settled.
* `reconcileRow_keys`: Settling a row changes neither of its keys.
* `run_ok`, `run_updated`: What a run that reports has done.
* `run_raises`: A run whose walk raises.
* `mem_liveByCoid`: The keys of the dictionary.
* `mem_foreignOpen`: The orders that are reported as foreign.
-/

namespace OptionsBot

/-- A row of `orders`. -/
structure OrderRow where
  id : Nat
  ts : DateTime
  tradeId : Option Nat
  legIdx : Option Int
  clientOrderId : String
  qty : ℚ
  filledQty : ℚ := 0
  filledPrice : Option ℚ := none
  state : String := "pending"
  deriving DecidableEq

namespace OrderRow

/-- Still working, as far as the row says. -/
def isOpen (o : OrderRow) : Bool := decide (o.state ∈ ["pending", "open", "partially_filled"])

/-- An order of a leg of the trade. -/
def isLegOf (o : OrderRow) (tradeId : Nat) : Bool :=
  decide (o.tradeId = some tradeId) && o.legIdx.isSome

end OrderRow

/-- The tables a reconciliation works on. -/
structure OrderBook where
  orders : List OrderRow
  trades : List (Trade × List Leg)
  ids_nodup : (orders.map OrderRow.id).Nodup
  clientOrderIds_nodup : (orders.map OrderRow.clientOrderId).Nodup

inductive MismatchKind where
  | foreignOpen
  | fillStateRegression
  | partialLegGroup
  | restError
  deriving DecidableEq, Repr

structure ReconcileMismatch where
  kind : MismatchKind
  orderId : Option Nat := none
  tradeId : Option Nat := none
  clientOrderId : Option String := none
  deriving DecidableEq, Repr

structure ReconcileReport where
  ordersChecked : Nat := 0
  ordersUpdated : Nat := 0
  tradesChecked : Nat := 0
  mismatches : List ReconcileMismatch := []
  deriving DecidableEq, Repr

def ReconcileReport.mustHalt (r : ReconcileReport) : Bool := !r.mismatches.isEmpty

/-- The answer to the request for all open orders. A payload that is no list of
    objects raises. -/
inductive OpenOrders where
  | failed
  | raised (e : PyError)
  | orders (live : List JsonObject)

/-- The answer to the lookup of one order. Of a list, each item is what `dict`
    makes of it; a payload that is neither a list nor an object is nothing. -/
inductive OrderReply where
  | failed
  | raised (e : PyError)
  | nothing
  | list (items : List (Except PyError JsonObject))
  | object (o : JsonObject)

/-- Look an order up. The client's own exception is caught and answers nothing. -/
def fetchOrder : OrderReply → Except PyError (Option JsonObject)
  | .failed => .ok none
  | .raised e => .error e
  | .nothing => .ok none
  | .list [] => .ok none
  | .list (item :: _) => item.map some
  | .object o => .ok (some o)

/-- The state read off a lookup. An order that was not found, an empty object
    and an empty state are all read as cancelled. -/
def fetchedState (fetched : Option JsonObject) : String :=
  let state := match fetched with
    | none => "canceled"
    | some o => if o.isEmpty then "canceled" else o.getStr "state"
  if state = "" then "canceled" else state

def terminalLocalStates : List String := ["filled", "canceled", "rejected"]

/-- What settling a row comes to. -/
structure RowOutcome where
  row : OrderRow
  updated : Bool := false
  mismatch : Option ReconcileMismatch := none

/-- The key an open order is known by, or the empty text for one without. -/
def coid (order : JsonObject) : String := order.getStrOrEmpty "client_order_id"

/-- The open orders by key. An order without a key is dropped, and of two with
    one key the later is kept. -/
def liveByCoid (live : List JsonObject) : List (String × JsonObject) :=
  live.foldl (fun acc order =>
    if coid order = "" then acc
    else Table.upsert Prod.fst (coid order) (fun _ => (coid order, order)) acc) []

/-- The open orders no working row is known by. -/
def foreignOpen (dbCoids : List String) (live : List JsonObject) : List ReconcileMismatch :=
  ((liveByCoid live).filter (fun entry => decide (entry.1 ∉ dbCoids))).map (fun entry =>
    { kind := .foreignOpen, clientOrderId := some entry.1 })

section Settle

variable (parse : String → Option ℚ)

/-- The row of an order that is not among the open ones, from its lookup. -/
def reconcileFetched (row : OrderRow) (fetched : Option JsonObject) : Except PyError RowOutcome :=
  let state := fetchedState fetched
  match (if state = "filled" then fetched else none) with
  | some o =>
    match o.getFloatOr parse "filled_size" row.qty with
    | .error e => .error e
    | .ok filledQty =>
      match (o.get "average_fill_price").getD .null with
      -- A fill without a price leaves the price of the row as it was.
      | .null =>
        .ok { row := { row with state := "filled", filledQty := filledQty }, updated := true }
      | price =>
        match price.float parse with
        | .error e => .error e
        | .ok filledPrice =>
          .ok { row := { row with state := "filled", filledQty := filledQty,
                                  filledPrice := some filledPrice }, updated := true }
  | none =>
    -- What a cancelled or rejected order has filled is not read.
    if state ∈ terminalLocalStates then
      .ok { row := { row with state := "canceled" }, updated := true }
    else
      .ok { row := row, mismatch := some { kind := .fillStateRegression, orderId := some row.id,
                                           clientOrderId := some row.clientOrderId } }

/-- The row of an order that is among the open ones. -/
def reconcileLive (row : OrderRow) (live : JsonObject) : RowOutcome :=
  let liveState := match live.get "state" with
    | none => "open"
    | some v => v.str
  if liveState ≠ row.state then { row := { row with state := liveState }, updated := true }
  else { row := row }

def reconcileRow (lookup : String → OrderReply) (live : List (String × JsonObject))
    (row : OrderRow) : Except PyError RowOutcome :=
  match Table.lookup Prod.fst row.clientOrderId live with
  | some entry => .ok (reconcileLive row entry.2)
  | none =>
    match fetchOrder (lookup row.clientOrderId) with
    | .error e => .error e
    | .ok fetched => reconcileFetched parse row fetched

/-- Settle the working rows, in order. -/
def walkOrders (lookup : String → OrderReply) (live : List (String × JsonObject))
    (orders : List OrderRow) : Except PyError (List RowOutcome) :=
  orders.mapM (fun row => if row.isOpen then reconcileRow parse lookup live row
    else .ok { row := row })

end Settle

/-- The states of a trade's legs, each that of its latest order. -/
def legStates (orders : List OrderRow) (tradeId : Nat) : List String :=
  let rows := orders.filter (fun o => o.isLegOf tradeId)
  (rows.map OrderRow.legIdx).dedup.filterMap (fun i =>
    (Table.latest (fun o => o.ts.micros) (rows.filter (fun o => decide (o.legIdx = i)))).map
      OrderRow.state)

/-- A trade with a filled leg and one that is not settled. -/
def partialLegGroup (orders : List OrderRow) (trade : Trade) : Option ReconcileMismatch :=
  let states := legStates orders trade.id
  if "filled" ∈ states ∧ ∃ s ∈ states, s ∉ terminalLocalStates then
    some { kind := .partialLegGroup, tradeId := some trade.id }
  else none

/-- An open trade whose leg orders are all cancelled is closed, with its legs. -/
def closeCanceled (orders : List OrderRow) (rows : Trade × List Leg) : Trade × List Leg :=
  let legOrders := orders.filter (fun o => o.isLegOf rows.1.id)
  if rows.1.status = .«open» ∧ legOrders ≠ [] ∧ ∀ o ∈ legOrders, o.state = "canceled" then
    ({ rows.1 with status := .closed }, rows.2.map (fun leg => { leg with status := .closed }))
  else rows

section Keys

variable (parse : String → Option ℚ) (lookup : String → OrderReply)

theorem reconcileFetched_keys (row : OrderRow) (fetched : Option JsonObject) (out : RowOutcome)
    (h : reconcileFetched parse row fetched = .ok out) :
    out.row.id = row.id ∧ out.row.clientOrderId = row.clientOrderId := by
  simp only [reconcileFetched] at h
  split at h
  · split at h
    · cases h
    · split at h
      · cases h
        exact ⟨rfl, rfl⟩
      · split at h
        · cases h
        · cases h
          exact ⟨rfl, rfl⟩
  · split at h
    · cases h
      exact ⟨rfl, rfl⟩
    · cases h
      exact ⟨rfl, rfl⟩

theorem reconcileLive_keys (row : OrderRow) (live : JsonObject) :
    (reconcileLive row live).row.id = row.id ∧
      (reconcileLive row live).row.clientOrderId = row.clientOrderId := by
  simp only [reconcileLive]
  split_ifs
  · exact ⟨rfl, rfl⟩
  · exact ⟨rfl, rfl⟩

/-- A row that is listed. -/
theorem reconcileRow_listed (live : List (String × JsonObject)) (row : OrderRow)
    (entry : String × JsonObject)
    (hshown : Table.lookup Prod.fst row.clientOrderId live = some entry) :
    reconcileRow parse lookup live row = .ok (reconcileLive row entry.2) := by
  unfold reconcileRow
  rw [hshown]

/-- A row that is not listed: the lookup and what is made of it, as one chain. -/
theorem reconcileRow_lookedUp (live : List (String × JsonObject)) (row : OrderRow)
    (hnone : Table.lookup Prod.fst row.clientOrderId live = none) :
    reconcileRow parse lookup live row =
      (fetchOrder (lookup row.clientOrderId)).bind (reconcileFetched parse row) := by
  unfold reconcileRow
  rw [hnone]
  cases fetchOrder (lookup row.clientOrderId) with
  | error e => rfl
  | ok fetched => rfl

/-- A row is settled from the list, or from what its lookup brought. -/
theorem reconcileRow_ok (live : List (String × JsonObject)) (row : OrderRow) (out : RowOutcome)
    (h : reconcileRow parse lookup live row = .ok out) :
    (∃ entry, Table.lookup Prod.fst row.clientOrderId live = some entry ∧
      reconcileLive row entry.2 = out) ∨
    (Table.lookup Prod.fst row.clientOrderId live = none ∧
      ∃ fetched, fetchOrder (lookup row.clientOrderId) = .ok fetched ∧
        reconcileFetched parse row fetched = .ok out) := by
  cases hshown : Table.lookup Prod.fst row.clientOrderId live with
  | some entry =>
      rw [reconcileRow_listed parse lookup live row entry hshown, Except.ok.injEq] at h
      exact Or.inl ⟨entry, rfl, h⟩
  | none =>
      rw [reconcileRow_lookedUp parse lookup live row hshown] at h
      cases hfetch : fetchOrder (lookup row.clientOrderId) with
      | error e =>
          rw [hfetch] at h
          cases h
      | ok fetched =>
          rw [hfetch] at h
          exact Or.inr ⟨rfl, fetched, rfl, h⟩

/-- Settling a row changes neither of its keys. -/
theorem reconcileRow_keys (live : List (String × JsonObject)) (row : OrderRow) (out : RowOutcome)
    (h : reconcileRow parse lookup live row = .ok out) :
    out.row.id = row.id ∧ out.row.clientOrderId = row.clientOrderId := by
  rcases reconcileRow_ok parse lookup live row out h with
    ⟨entry, _, rfl⟩ | ⟨_, fetched, _, hout⟩
  · exact reconcileLive_keys row _
  · exact reconcileFetched_keys parse row _ out hout

theorem walkOrders_keys (live : List (String × JsonObject)) (orders : List OrderRow)
    (outcomes : List RowOutcome) (h : walkOrders parse lookup live orders = .ok outcomes) :
    (outcomes.map RowOutcome.row).map OrderRow.id = orders.map OrderRow.id ∧
      (outcomes.map RowOutcome.row).map OrderRow.clientOrderId =
        orders.map OrderRow.clientOrderId := by
  have hkeys : ∀ row out, (if row.isOpen then reconcileRow parse lookup live row
      else .ok { row := row }) = .ok out →
      out.row.id = row.id ∧ out.row.clientOrderId = row.clientOrderId := by
    intro row out hout
    split_ifs at hout
    · exact reconcileRow_keys parse lookup live row out hout
    · cases hout
      exact ⟨rfl, rfl⟩
  rw [List.map_map, List.map_map]
  exact ⟨map_mapM_ok _ _ _ (fun row out hout => (hkeys row out hout).1) orders outcomes h,
    map_mapM_ok _ _ _ (fun row out hout => (hkeys row out hout).2) orders outcomes h⟩

end Keys

section Mismatches

variable (parse : String → Option ℚ) (lookup : String → OrderReply)

/-- A row's mismatch names the row. -/
theorem reconcileRow_mismatch (live : List (String × JsonObject)) (row : OrderRow)
    (out : RowOutcome) (h : reconcileRow parse lookup live row = .ok out) (m : ReconcileMismatch)
    (hm : out.mismatch = some m) :
    m = { kind := .fillStateRegression, orderId := some row.id,
          clientOrderId := some row.clientOrderId } := by
  rcases reconcileRow_ok parse lookup live row out h with
    ⟨entry, _, rfl⟩ | ⟨_, fetched, _, hout⟩
  · simp only [reconcileLive] at hm
    split_ifs at hm
  · simp only [reconcileFetched] at hout
    split at hout
    · split at hout
      · cases hout
      · split at hout
        · cases hout
          cases hm
        · split at hout
          · cases hout
          · cases hout
            cases hm
    · split_ifs at hout
      · cases hout
        cases hm
      · cases hout
        cases hm
        rfl

theorem walkOrders_mismatch (live : List (String × JsonObject)) (orders : List OrderRow)
    (outcomes : List RowOutcome) (h : walkOrders parse lookup live orders = .ok outcomes)
    (m : ReconcileMismatch) (hm : m ∈ outcomes.filterMap RowOutcome.mismatch) :
    m.kind = .fillStateRegression := by
  rcases List.mem_filterMap.mp hm with ⟨out, hout, hsome⟩
  rcases mem_mapM_ok _ orders outcomes h out hout with ⟨row, _, hrow⟩
  split_ifs at hrow
  · rw [reconcileRow_mismatch parse lookup live row out hrow m hsome]
  · cases hrow
    cases hsome

theorem partialLegGroup_kind (orders : List OrderRow) (trade : Trade) (m : ReconcileMismatch)
    (h : partialLegGroup orders trade = some m) : m.kind = .partialLegGroup := by
  simp only [partialLegGroup] at h
  split_ifs at h
  cases h
  rfl

end Mismatches

namespace OrderReconciler

/-- The open trades of the table. -/
def openTrades (db : OrderBook) : List Trade :=
  (db.trades.map Prod.fst).filter (fun t => decide (t.status = .«open»))

def openOrders (db : OrderBook) : List OrderRow := db.orders.filter OrderRow.isOpen

/-- The whole reconciliation. A run that raises leaves the tables as they were. -/
def run (parse : String → Option ℚ) (exchange : OpenOrders) (lookup : String → OrderReply)
    (db : OrderBook) : OrderBook × Except PyError ReconcileReport :=
  let checked : ReconcileReport :=
    { ordersChecked := (openOrders db).length, tradesChecked := (openTrades db).length }
  match exchange with
  -- Without the list of open orders nothing else is asked.
  | .failed => (db, .ok { checked with mismatches := [{ kind := .restError }] })
  | .raised e => (db, .error e)
  | .orders live =>
    match h : walkOrders parse lookup (liveByCoid live) db.orders with
    -- One row that raises rolls the session of the walk back, the rows before it included.
    | .error e => (db, .error e)
    | .ok outcomes =>
      let orders := outcomes.map RowOutcome.row
      ({ orders := orders
         trades := db.trades.map (closeCanceled orders)
         ids_nodup := by
          rw [(walkOrders_keys parse lookup _ _ _ h).1]
          exact db.ids_nodup
         clientOrderIds_nodup := by
          rw [(walkOrders_keys parse lookup _ _ _ h).2]
          exact db.clientOrderIds_nodup },
        .ok { checked with
          ordersUpdated := (outcomes.filter RowOutcome.updated).length
          mismatches := foreignOpen ((openOrders db).map OrderRow.clientOrderId) live ++
            outcomes.filterMap RowOutcome.mismatch ++
            (openTrades db).filterMap (partialLegGroup orders) })

section Run

variable (parse : String → Option ℚ) (lookup : String → OrderReply) (db : OrderBook)
  (live : List JsonObject)

/-- What a run that reports has done. -/
theorem run_ok (outcomes : List RowOutcome)
    (h : walkOrders parse lookup (liveByCoid live) db.orders = .ok outcomes) :
    (run parse (.orders live) lookup db).1.orders = outcomes.map RowOutcome.row ∧
      (run parse (.orders live) lookup db).1.trades =
        db.trades.map (closeCanceled (outcomes.map RowOutcome.row)) ∧
      ∃ report, (run parse (.orders live) lookup db).2 = .ok report ∧
        report.mismatches = foreignOpen ((openOrders db).map OrderRow.clientOrderId) live ++
          outcomes.filterMap RowOutcome.mismatch ++
          (openTrades db).filterMap (partialLegGroup (outcomes.map RowOutcome.row)) := by
  simp only [run]
  split
  · next e he =>
    rw [h] at he
    cases he
  · next outs hout =>
    rw [h] at hout
    cases hout
    exact ⟨rfl, rfl, _, rfl, rfl⟩

/-- A report counts the rows the walk has changed. -/
theorem run_updated (outcomes : List RowOutcome) (report : ReconcileReport)
    (h : walkOrders parse lookup (liveByCoid live) db.orders = .ok outcomes)
    (hreport : (run parse (.orders live) lookup db).2 = .ok report) :
    report.ordersUpdated = (outcomes.filter RowOutcome.updated).length := by
  simp only [run] at hreport
  split at hreport
  · cases hreport
  · next outs hout =>
    rw [h] at hout
    cases hout
    cases hreport
    rfl

/-- A run whose walk raises leaves the tables as they were and reports nothing. -/
theorem run_raises (e : PyError)
    (h : walkOrders parse lookup (liveByCoid live) db.orders = .error e) :
    run parse (.orders live) lookup db = (db, .error e) := by
  simp only [run]
  split
  · next e' he =>
    rw [h] at he
    cases he
    rfl
  · next outs hout =>
    rw [h] at hout
    cases hout

/-- A run that reports has walked through every row. -/
theorem walk_of_run (report : ReconcileReport)
    (h : (run parse (.orders live) lookup db).2 = .ok report) :
    ∃ outcomes, walkOrders parse lookup (liveByCoid live) db.orders = .ok outcomes := by
  cases hwalk : walkOrders parse lookup (liveByCoid live) db.orders with
  | ok outcomes => exact ⟨outcomes, rfl⟩
  | error e =>
      rw [run_raises parse lookup db live e hwalk] at h
      cases h

end Run

end OrderReconciler

/-- The keys of the dictionary are those of the list, without the empty one. -/
theorem mem_liveByCoid (live : List JsonObject) (key : String) :
    key ∈ (liveByCoid live).map Prod.fst ↔ key ≠ "" ∧ key ∈ live.map coid := by
  -- The fold may start on any dictionary, so that the loop can be taken order by order.
  have hfold : ∀ acc : List (String × JsonObject),
      key ∈ (live.foldl (fun acc order => if coid order = "" then acc
        else Table.upsert Prod.fst (coid order) (fun _ => (coid order, order)) acc) acc).map
          Prod.fst
      ↔ key ∈ acc.map Prod.fst ∨ (key ≠ "" ∧ key ∈ live.map coid) := by
    induction live with
    | nil =>
        intro acc
        simp only [List.foldl_nil, List.map_nil, List.not_mem_nil, and_false, or_false]
    | cons o rest ih =>
        intro acc
        rw [List.foldl_cons, ih, List.map_cons, List.mem_cons]
        by_cases ho : coid o = ""
        · rw [if_pos ho, ho]
          refine or_congr_right (and_congr_right fun hkey => ?_)
          exact ⟨Or.inr, fun h => h.resolve_left hkey⟩
        · rw [if_neg ho, Table.mem_keys_upsert Prod.fst (coid o) _ (fun _ => rfl)]
          constructor
          · rintro ((hkey | hacc) | ⟨hkey, hrest⟩)
            · exact Or.inr ⟨by rw [hkey]; exact ho, Or.inl hkey⟩
            · exact Or.inl hacc
            · exact Or.inr ⟨hkey, Or.inr hrest⟩
          · rintro (hacc | ⟨hkey, hkeyo | hrest⟩)
            · exact Or.inl (Or.inr hacc)
            · exact Or.inl (Or.inl hkeyo)
            · exact Or.inr ⟨hkey, hrest⟩
  have h := hfold []
  simpa only [liveByCoid, List.map_nil, List.not_mem_nil, false_or] using h

/-- The orders reported as foreign are those no working row is known by. -/
theorem mem_foreignOpen (dbCoids : List String) (live : List JsonObject) (key : String) :
    (∃ m ∈ foreignOpen dbCoids live, m.clientOrderId = some key) ↔
      key ≠ "" ∧ key ∈ live.map coid ∧ key ∉ dbCoids := by
  rw [← and_assoc, ← mem_liveByCoid]
  simp only [foreignOpen, List.mem_map, List.mem_filter, decide_eq_true_eq]
  constructor
  · rintro ⟨m, ⟨entry, ⟨hentry, hforeign⟩, rfl⟩, hkey⟩
    rw [Option.some.injEq] at hkey
    rw [← hkey]
    exact ⟨⟨entry, hentry, rfl⟩, hforeign⟩
  · rintro ⟨⟨entry, hentry, rfl⟩, hforeign⟩
    exact ⟨_, ⟨entry, ⟨hentry, hforeign⟩, rfl⟩, rfl⟩

/-- Only unknown orders are reported as foreign. -/
theorem foreignOpen_kind (dbCoids : List String) (live : List JsonObject) (m : ReconcileMismatch)
    (h : m ∈ foreignOpen dbCoids live) : m.kind = .foreignOpen := by
  simp only [foreignOpen, List.mem_map] at h
  rcases h with ⟨entry, _, rfl⟩
  rfl

end OptionsBot
