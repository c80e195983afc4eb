import Mathlib.Data.List.Dedup
import OptionsBot.Theory.OrderLookup

/-!
# What a Walk Leaves of a Row

The reconciliation walks the order rows once. Three questions are asked about
that walk, and this is what they share: when it reaches its end, which state it
leaves a row in, and what a report says of the rows it has settled.

All of it can be read off the list, the replies and the row. The state a listed
row ends in is the text of the list, whatever that is. A row that is looked up
ends filled, cancelled, or as it was.

## Main definitions

* `shownState`: The state the list shows of an order.
* `LookupRaises`, `Regressed`: A lookup that raises, and one that is reported.
* `settledState`: The state a row is left in.
* `RowSettled`: What one step of the walk has done.
* `latestLegOrder`: The order a leg is judged by.

## Theorems

* `reconcileLive_eq`, `reconcileFetched_ok`: A row that is listed, and one that is looked up.
* `reconcileRow_raises_iff`, `walk_ends_iff`: When a lookup, and the walk, raise.
* `settleRow_settled`: A step that does not raise.
* `walk_rows`: The rows after a walk.
* `latestLegOrder_settled`: A leg is judged by the same order after a walk.
* `mem_legStates`: The states of the legs are those of their latest orders.
* `partialLegGroup_isSome_iff`: When the legs of a trade are reported.
* `mustHalt_iff`: When a report stops the start.
-/

namespace OptionsBot

open OrderReconciler

/-- The state the list shows of an order. Without one, the order is open. -/
def shownState (o : JsonObject) : String := ((o.get "state").map Json.str).getD "open"

/-- The lookup of a row raises, or brings a fill whose numbers do. -/
def LookupRaises (parse : String → Option ℚ) (lookup : String → OrderReply) (row : OrderRow) :
    Prop :=
  (∃ e, fetchOrder (lookup row.clientOrderId) = .error e) ∨
    ∃ o, fetchOrder (lookup row.clientOrderId) = .ok (some o) ∧ FillUnread parse o

/-- The row is not listed, and its lookup shows a state that is not terminal. -/
def Regressed (lookup : String → OrderReply) (live : List (String × JsonObject))
    (row : OrderRow) : Prop :=
  Table.lookup Prod.fst row.clientOrderId live = none ∧
    ∃ fetched, fetchOrder (lookup row.clientOrderId) = .ok fetched ∧
      fetchedState fetched ∉ terminalLocalStates

/-- The state a working row is left in by its lookup. -/
def lookedUpState (lookup : String → OrderReply) (row : OrderRow) : String :=
  match fetchOrder (lookup row.clientOrderId) with
  | .error _ => row.state
  | .ok fetched =>
    if fetchedState fetched = "filled" then "filled"
    else if fetchedState fetched ∈ terminalLocalStates then "canceled"
    else row.state

/-- The state a row is left in. -/
def settledState (lookup : String → OrderReply) (live : List (String × JsonObject))
    (row : OrderRow) : String :=
  if row.isOpen then
    match Table.lookup Prod.fst row.clientOrderId live with
    | some entry => shownState entry.2
    | none => lookedUpState lookup row
  else row.state

/-- One step of the walk. -/
def settleRow (parse : String → Option ℚ) (lookup : String → OrderReply)
    (live : List (String × JsonObject)) (row : OrderRow) : Except PyError RowOutcome :=
  if row.isOpen then reconcileRow parse lookup live row else .ok { row := row }

/-- The row a step leaves. A step that raises leaves the row it was given. -/
def settledRow (parse : String → Option ℚ) (lookup : String → OrderReply)
    (live : List (String × JsonObject)) (row : OrderRow) : OrderRow :=
  ((settleRow parse lookup live row).toOption.map RowOutcome.row).getD row

/-- A step changes the state of its row and what is filled of it, and nothing where the state stays.
    It reports a lookup that shows no terminal state. -/
structure RowSettled (lookup : String → OrderReply) (live : List (String × JsonObject))
    (row : OrderRow) (out : RowOutcome) : Prop where
  frame : ∃ filledQty filledPrice, out.row =
    { row with filledQty := filledQty, filledPrice := filledPrice
               state := settledState lookup live row }
  updated : out.updated = decide (settledState lookup live row ≠ row.state)
  kept : settledState lookup live row = row.state → out.row = row
  mismatch : ∀ m, out.mismatch = some m ↔ (row.isOpen = true ∧ Regressed lookup live row) ∧
    m = { kind := .fillStateRegression, orderId := some row.id,
          clientOrderId := some row.clientOrderId }

namespace RowSettled

variable {lookup : String → OrderReply} {live : List (String × JsonObject)} {row : OrderRow}
  {out : RowOutcome} (h : RowSettled lookup live row out)
include h

theorem state_eq : out.row.state = settledState lookup live row := by
  rcases h.frame with ⟨q, p, hrow⟩
  rw [hrow]

theorem clientOrderId_eq : out.row.clientOrderId = row.clientOrderId := by
  rcases h.frame with ⟨q, p, hrow⟩
  rw [hrow]

/-- Nothing but a lookup without a terminal state is reported. -/
theorem quiet (hregressed : ¬ Regressed lookup live row) : out.mismatch = none := by
  rw [Option.eq_none_iff_forall_ne_some]
  exact fun m hm => hregressed ((h.mismatch m).mp hm).1.2

end RowSettled

section Step

variable (parse : String → Option ℚ) (lookup : String → OrderReply)
  (live : List (String × JsonObject)) (row : OrderRow)

/-- A working row is in no terminal state. -/
theorem not_terminal_of_open (h : row.isOpen = true) : row.state ∉ terminalLocalStates := by
  have hstate : row.state ∈ ["pending", "open", "partially_filled"] := by
    simpa only [OrderRow.isOpen, decide_eq_true_eq] using h
  intro hterminal
  have hdisjoint : ∀ s ∈ ["pending", "open", "partially_filled"], s ∉ terminalLocalStates := by
    decide
  exact hdisjoint row.state hstate hterminal

/-- A listed row takes the state of the list. -/
theorem reconcileLive_eq (o : JsonObject) :
    reconcileLive row o = if shownState o ≠ row.state then
      { row := { row with state := shownState o }, updated := true } else { row := row } := by
  unfold reconcileLive shownState
  cases o.get "state" with
  | none => rfl
  | some v => rfl

theorem reconcileLive_settled (entry : String × JsonObject) (hopen : row.isOpen = true)
    (h : Table.lookup Prod.fst row.clientOrderId live = some entry) :
    RowSettled lookup live row (reconcileLive row entry.2) := by
  have hstate : settledState lookup live row = shownState entry.2 := by
    rw [settledState, if_pos hopen, h]
  have hlisted : ∀ m, (none : Option ReconcileMismatch) = some m ↔
      (row.isOpen = true ∧ Regressed lookup live row) ∧
      m = { kind := .fillStateRegression, orderId := some row.id,
            clientOrderId := some row.clientOrderId } := by
    intro m
    refine ⟨fun hm => absurd hm (Option.some_ne_none m).symm, ?_⟩
    rintro ⟨⟨_, hnone, _⟩, _⟩
    rw [h] at hnone
    cases hnone
  rw [reconcileLive_eq]
  by_cases hchanged : shownState entry.2 = row.state
  · rw [if_neg (not_not.mpr hchanged)]
    refine ⟨⟨row.filledQty, row.filledPrice, ?_⟩, ?_, fun _ => rfl, hlisted⟩
    · rw [hstate, hchanged]
    · rw [hstate, hchanged, decide_eq_false (not_not.mpr rfl)]
  · rw [if_pos hchanged]
    refine ⟨⟨row.filledQty, row.filledPrice, ?_⟩, ?_, fun hkept => ?_, hlisted⟩
    · rw [hstate]
    · rw [hstate, decide_eq_true hchanged]
    · rw [hstate] at hkept
      exact absurd hkept hchanged

/-- What a lookup that reads has done to its row. -/
theorem reconcileFetched_ok (fetched : Option JsonObject) (out : RowOutcome)
    (h : reconcileFetched parse row fetched = .ok out) :
    (fetchedState fetched ∈ terminalLocalStates ∧ out.updated = true ∧ out.mismatch = none ∧
        ∃ filledQty filledPrice, out.row =
          { row with filledQty := filledQty, filledPrice := filledPrice
                     state := if fetchedState fetched = "filled" then "filled" else "canceled" }) ∨
      (fetchedState fetched ∉ terminalLocalStates ∧
        out = { row := row, mismatch := some { kind := .fillStateRegression, orderId := some row.id,
                                               clientOrderId := some row.clientOrderId } }) := by
  by_cases hfilled : fetchedState fetched = "filled"
  · have hterminal : fetchedState fetched ∈ terminalLocalStates := by
      rw [hfilled]
      decide
    rcases filled_of_fetchedState fetched hfilled with ⟨o, rfl, _, _⟩
    refine Or.inl ⟨hterminal, ?_⟩
    simp only [reconcileFetched, if_pos hfilled] at h ⊢
    split at h
    · cases h
    · split at h
      · cases h
        exact ⟨rfl, rfl, _, _, rfl⟩
      · split at h
        · cases h
        · cases h
          exact ⟨rfl, rfl, _, _, rfl⟩
  · by_cases hterminal : fetchedState fetched ∈ terminalLocalStates
    · simp only [reconcileFetched, if_neg hfilled, if_pos hterminal] at h
      cases h
      refine Or.inl ⟨hterminal, rfl, rfl, row.filledQty, row.filledPrice, ?_⟩
      rw [if_neg hfilled]
    · rw [reconcileFetched_other parse row fetched hterminal] at h
      cases h
      exact Or.inr ⟨hterminal, rfl⟩

theorem lookedUp_settled (out : RowOutcome) (hopen : row.isOpen = true)
    (hnone : Table.lookup Prod.fst row.clientOrderId live = none) (fetched : Option JsonObject)
    (hfetch : fetchOrder (lookup row.clientOrderId) = .ok fetched)
    (h : reconcileFetched parse row fetched = .ok out) : RowSettled lookup live row out := by
  have hstate : settledState lookup live row = if fetchedState fetched = "filled" then "filled"
      else if fetchedState fetched ∈ terminalLocalStates then "canceled" else row.state := by
    rw [settledState, if_pos hopen, hnone]
    simp only [lookedUpState, hfetch]
  rcases reconcileFetched_ok parse row fetched out h with
    ⟨hterminal, hupdated, hmismatch, q, p, hrow⟩ | ⟨hother, rfl⟩
  · -- A working row leaves the working states here, so its state has changed.
    rw [if_pos hterminal] at hstate
    have hchanged : settledState lookup live row ≠ row.state := by
      intro hkept
      refine not_terminal_of_open row hopen ?_
      rw [← hkept, hstate]
      split_ifs
      · decide
      · decide
    refine ⟨⟨q, p, by rw [hrow, hstate]⟩, ?_, fun hkept => absurd hkept hchanged, fun m => ?_⟩
    · rw [hupdated, decide_eq_true hchanged]
    · rw [hmismatch]
      refine ⟨fun hm => absurd hm (Option.some_ne_none m).symm, ?_⟩
      rintro ⟨⟨_, _, fetched', hfetch', hother⟩, _⟩
      rw [hfetch] at hfetch'
      cases hfetch'
      exact absurd hterminal hother
  · rw [if_neg (not_filled_of_not_terminal hother), if_neg hother] at hstate
    refine ⟨⟨row.filledQty, row.filledPrice, by rw [hstate]⟩, ?_, fun _ => rfl, fun m => ?_⟩
    · rw [hstate, decide_eq_false (not_not.mpr rfl)]
    · rw [Option.some.injEq]
      exact ⟨fun hm => ⟨⟨hopen, hnone, fetched, hfetch, hother⟩, hm.symm⟩, fun hm => hm.2.symm⟩

/-- A step of the walk that does not raise. -/
theorem settleRow_settled (out : RowOutcome) (h : settleRow parse lookup live row = .ok out) :
    RowSettled lookup live row out := by
  unfold settleRow at h
  by_cases hopen : row.isOpen = true
  · rw [if_pos hopen] at h
    cases hshown : Table.lookup Prod.fst row.clientOrderId live with
    | some entry =>
        rw [reconcileRow_listed parse lookup live row entry hshown] at h
        cases h
        exact reconcileLive_settled lookup live row entry hopen hshown
    | none =>
        rw [reconcileRow_lookedUp parse lookup live row hshown] at h
        cases hfetch : fetchOrder (lookup row.clientOrderId) with
        | error e =>
            rw [hfetch] at h
            cases h
        | ok fetched =>
            rw [hfetch] at h
            exact lookedUp_settled parse lookup live row out hopen hshown fetched hfetch h
  · have hstate : settledState lookup live row = row.state := if_neg hopen
    rw [if_neg hopen] at h
    cases h
    refine ⟨⟨row.filledQty, row.filledPrice, by rw [hstate]⟩, ?_, fun _ => rfl, fun m => ?_⟩
    · rw [hstate, decide_eq_false (not_not.mpr rfl)]
    · exact ⟨fun hm => absurd hm (Option.some_ne_none m).symm, fun hm => absurd hm.1.1 hopen⟩

/-- A row that is not listed raises exactly when its lookup does. -/
theorem reconcileRow_raises_iff (hnone : Table.lookup Prod.fst row.clientOrderId live = none) :
    (∃ e, reconcileRow parse lookup live row = .error e) ↔ LookupRaises parse lookup row := by
  rw [reconcileRow_lookedUp parse lookup live row hnone, LookupRaises]
  cases fetchOrder (lookup row.clientOrderId) with
  | error e => exact ⟨fun _ => Or.inl ⟨e, rfl⟩, fun _ => ⟨e, rfl⟩⟩
  | ok fetched =>
      change (∃ e, reconcileFetched parse row fetched = .error e) ↔ _
      by_cases hfilled : fetchedState fetched = "filled"
      · rcases filled_of_fetchedState fetched hfilled with ⟨o, rfl, ho, hstate⟩
        rcases reconcileFetched_filled parse row o ho hstate with
          ⟨hunread, herr⟩ | ⟨hread, out, hout, _⟩
        · exact ⟨fun _ => Or.inr ⟨o, rfl, hunread⟩, fun _ => herr⟩
        · constructor
          · rintro ⟨e, he⟩
            rw [hout] at he
            cases he
          · rintro (⟨e, he⟩ | ⟨o', ho', hunread⟩)
            · cases he
            · cases ho'
              exact absurd hunread hread
      · -- Nothing of a state other than filled is read, so nothing raises.
        constructor
        · rintro ⟨e, he⟩
          by_cases hterminal : fetchedState fetched ∈ terminalLocalStates
          · simp only [reconcileFetched, if_neg hfilled, if_pos hterminal] at he
            cases he
          · rw [reconcileFetched_other parse row fetched hterminal] at he
            cases he
        · rintro (⟨e, he⟩ | ⟨o, ho, hunread, _⟩)
          · cases he
          · cases ho
            have hne : o ≠ [] := by
              rintro rfl
              exact absurd hunread (by decide)
            rw [fetchedState_eq o hne, hunread, if_neg (by decide)] at hfilled
            exact absurd rfl hfilled

/-- What a step never changes. -/
theorem settledRow_frame :
    (settledRow parse lookup live row).ts = row.ts ∧
      (settledRow parse lookup live row).tradeId = row.tradeId ∧
      (settledRow parse lookup live row).legIdx = row.legIdx := by
  unfold settledRow
  cases h : settleRow parse lookup live row with
  | error e => exact ⟨rfl, rfl, rfl⟩
  | ok out =>
      rcases (settleRow_settled parse lookup live row out h).frame with ⟨q, p, hrow⟩
      change out.row.ts = _ ∧ out.row.tradeId = _ ∧ out.row.legIdx = _
      rw [hrow]
      exact ⟨rfl, rfl, rfl⟩

theorem settledRow_state (out : RowOutcome) (h : settleRow parse lookup live row = .ok out) :
    (settledRow parse lookup live row).state = settledState lookup live row := by
  unfold settledRow
  rw [h]
  exact (settleRow_settled parse lookup live row out h).state_eq

end Step

section Walk

variable (parse : String → Option ℚ) (lookup : String → OrderReply)
  (live : List (String × JsonObject)) (orders : List OrderRow)

/-- The walk reaches its end exactly when no lookup of it raises. -/
theorem walk_ends_iff : (∃ outcomes, walkOrders parse lookup live orders = .ok outcomes) ↔
    ∀ row ∈ orders, row.isOpen = true →
      Table.lookup Prod.fst row.clientOrderId live = none → ¬ LookupRaises parse lookup row := by
  constructor
  · rintro ⟨outcomes, hwalk⟩ row hrow hopen hnone hraises
    rcases (reconcileRow_raises_iff parse lookup live row hnone).mpr hraises with ⟨e, he⟩
    rcases mapM_ok_mem _ orders outcomes hwalk row hrow with ⟨out, _, hout⟩
    rw [if_pos hopen, he] at hout
    cases hout
  · intro h
    refine mapM_isOk _ orders fun row hrow => ?_
    by_cases hopen : row.isOpen = true
    · rw [if_pos hopen]
      cases hshown : Table.lookup Prod.fst row.clientOrderId live with
      | some entry => exact ⟨_, reconcileRow_listed parse lookup live row entry hshown⟩
      | none =>
          cases hrow' : reconcileRow parse lookup live row with
          | ok out => exact ⟨out, rfl⟩
          | error e =>
              have hraises := (reconcileRow_raises_iff parse lookup live row hshown).mp ⟨e, hrow'⟩
              exact absurd hraises (h row hrow hopen hshown)
    · exact ⟨_, if_neg hopen⟩

variable (outcomes : List RowOutcome) (h : walkOrders parse lookup live orders = .ok outcomes)
include h

/-- The rows after a walk, each the one its step leaves. -/
theorem walk_rows :
    outcomes.map RowOutcome.row = orders.map (settledRow parse lookup live) := by
  refine map_mapM_ok (settleRow parse lookup live) _ _ (fun row out hout => ?_) orders outcomes h
  rw [settledRow, hout]
  rfl

/-- Every row has been settled. -/
theorem walk_settled (row : OrderRow) (hrow : row ∈ orders) :
    ∃ out ∈ outcomes, settleRow parse lookup live row = .ok out ∧
      RowSettled lookup live row out := by
  rcases mapM_ok_mem (settleRow parse lookup live) orders outcomes h row hrow with ⟨out, hmem, hout⟩
  exact ⟨out, hmem, hout, settleRow_settled parse lookup live row out hout⟩

/-- The state of a row after a walk. -/
theorem walk_state (row : OrderRow) (hrow : row ∈ orders) :
    (settledRow parse lookup live row).state = settledState lookup live row := by
  rcases walk_settled parse lookup live orders outcomes h row hrow with ⟨out, _, hout, _⟩
  exact settledRow_state parse lookup live row out hout

/-- A walk reports the lookups that show no terminal state. -/
theorem walk_regressed_iff : (∃ m, m ∈ outcomes.filterMap RowOutcome.mismatch) ↔
    ∃ row ∈ orders, row.isOpen = true ∧ Regressed lookup live row := by
  constructor
  · rintro ⟨m, hm⟩
    rcases List.mem_filterMap.mp hm with ⟨out, hout, hsome⟩
    rcases mem_mapM_ok (settleRow parse lookup live) orders outcomes h out hout with
      ⟨row, hrow, heq⟩
    have hsettled := settleRow_settled parse lookup live row out heq
    exact ⟨row, hrow, ((hsettled.mismatch m).mp hsome).1⟩
  · rintro ⟨row, hrow, hregressed⟩
    rcases walk_settled parse lookup live orders outcomes h row hrow with ⟨out, hout, _, hsettled⟩
    exact ⟨_, List.mem_filterMap.mpr ⟨out, hout, (hsettled.mismatch _).mpr ⟨hregressed, rfl⟩⟩⟩

end Walk

/-- The order a leg of a trade is judged by, its latest. -/
def latestLegOrder (orders : List OrderRow) (tradeId : Nat) (legIdx : Int) : Option OrderRow :=
  Table.latest (fun o => o.ts.micros)
    ((orders.filter (fun o => o.isLegOf tradeId)).filter
      (fun o => decide (o.legIdx = some legIdx)))

section Legs

variable (orders : List OrderRow) (tradeId : Nat)

theorem mem_of_latestLegOrder (i : Int) (o : OrderRow)
    (h : latestLegOrder orders tradeId i = some o) :
    o ∈ orders ∧ o.isLegOf tradeId = true ∧ o.legIdx = some i := by
  have hmem := Table.latest_mem _ _ o h
  simp only [List.mem_filter, decide_eq_true_eq] at hmem
  exact ⟨hmem.1.1, hmem.1.2, hmem.2⟩

/-- The states of the legs are those of their latest orders. -/
theorem mem_legStates (s : String) : s ∈ legStates orders tradeId ↔
    ∃ i o, latestLegOrder orders tradeId i = some o ∧ o.state = s := by
  simp only [legStates, List.mem_filterMap, List.mem_dedup, List.mem_map, Option.map_eq_some_iff]
  constructor
  · rintro ⟨i, ⟨o, ho, rfl⟩, o', hlatest, hs⟩
    -- An order of a leg has the index of its leg.
    rcases List.mem_filter.mp ho with ⟨_, hleg⟩
    simp only [OrderRow.isLegOf, Bool.and_eq_true, Option.isSome_iff_exists] at hleg
    rcases hleg.2 with ⟨i, hi⟩
    rw [hi] at hlatest
    exact ⟨i, o', hlatest, hs⟩
  · rintro ⟨i, o, hlatest, hs⟩
    rcases mem_of_latestLegOrder orders tradeId i o hlatest with ⟨ho, hleg, hi⟩
    exact ⟨some i, ⟨o, List.mem_filter.mpr ⟨ho, hleg⟩, hi⟩, o, hlatest, hs⟩

/-- A trade is reported when a leg of it is filled and another is in no terminal state. -/
theorem partialLegGroup_isSome_iff (trade : Trade) :
    (partialLegGroup orders trade).isSome ↔
      (∃ i o, latestLegOrder orders trade.id i = some o ∧ o.state = "filled") ∧
        ∃ j o, latestLegOrder orders trade.id j = some o ∧ o.state ∉ terminalLocalStates := by
  have hworking : (∃ s ∈ legStates orders trade.id, s ∉ terminalLocalStates) ↔
      ∃ j o, latestLegOrder orders trade.id j = some o ∧ o.state ∉ terminalLocalStates := by
    constructor
    · rintro ⟨s, hs, hworking⟩
      rcases (mem_legStates orders trade.id s).mp hs with ⟨j, o, hlatest, rfl⟩
      exact ⟨j, o, hlatest, hworking⟩
    · rintro ⟨j, o, hlatest, hworking⟩
      exact ⟨o.state, (mem_legStates orders trade.id _).mpr ⟨j, o, hlatest, rfl⟩, hworking⟩
  rw [← mem_legStates, ← hworking]
  simp only [partialLegGroup]
  split_ifs with h
  · exact ⟨fun _ => h, fun _ => rfl⟩
  · exact ⟨fun hnone => absurd hnone Bool.false_ne_true, fun hboth => absurd hboth h⟩

/-- What keeps the times and the legs of the orders keeps which of them is the latest. -/
theorem latestLegOrder_map (f : OrderRow → OrderRow)
    (hf : ∀ o, (f o).ts = o.ts ∧ (f o).tradeId = o.tradeId ∧ (f o).legIdx = o.legIdx) (i : Int) :
    latestLegOrder (orders.map f) tradeId i = (latestLegOrder orders tradeId i).map f := by
  have hleg : ∀ o, (f o).isLegOf tradeId = o.isLegOf tradeId := by
    intro o
    rw [OrderRow.isLegOf, OrderRow.isLegOf, (hf o).2.1, (hf o).2.2]
  unfold latestLegOrder
  rw [List.filter_map, List.filter_map, Table.latest_map]
  simp only [Function.comp_def, (hf _).1, (hf _).2.2, hleg]

end Legs

/-- A leg is judged by the same order after a walk, in the state that one is left in. -/
theorem latestLegOrder_settled (parse : String → Option ℚ) (lookup : String → OrderReply)
    (live : List (String × JsonObject)) (orders : List OrderRow) (tradeId : Nat) (i : Int) :
    latestLegOrder (orders.map (settledRow parse lookup live)) tradeId i =
      (latestLegOrder orders tradeId i).map (settledRow parse lookup live) :=
  latestLegOrder_map orders tradeId _ (settledRow_frame parse lookup live) i

section Report

variable (parse : String → Option ℚ) (lookup : String → OrderReply) (db : OrderBook)
  (live : List JsonObject) (outcomes : List RowOutcome)
  (hwalk : walkOrders parse lookup (liveByCoid live) db.orders = .ok outcomes)
  (report : ReconcileReport) (h : (run parse (.orders live) lookup db).2 = .ok report)
include hwalk h

theorem report_mismatches :
    report.mismatches = foreignOpen ((openOrders db).map OrderRow.clientOrderId) live ++
      outcomes.filterMap RowOutcome.mismatch ++
      (openTrades db).filterMap (partialLegGroup (outcomes.map RowOutcome.row)) := by
  rcases run_ok parse lookup db live outcomes hwalk with ⟨_, _, report', hreport, hmismatches⟩
  rw [h] at hreport
  cases hreport
  exact hmismatches

/-- The open trades a report names as partial. -/
theorem reported_partial_iff (tradeId : Nat) :
    (∃ m ∈ report.mismatches, m.kind = .partialLegGroup ∧ m.tradeId = some tradeId) ↔
      ∃ t ∈ openTrades db, t.id = tradeId ∧
        (partialLegGroup (outcomes.map RowOutcome.row) t).isSome := by
  rw [report_mismatches parse lookup db live outcomes hwalk report h]
  constructor
  · rintro ⟨m, hm, hkind, hid⟩
    rcases List.mem_append.mp hm with hm | hm
    · rcases List.mem_append.mp hm with hm | hm
      · rw [foreignOpen_kind _ _ m hm] at hkind
        cases hkind
      · rw [walkOrders_mismatch parse lookup _ _ _ hwalk m hm] at hkind
        cases hkind
    · rcases List.mem_filterMap.mp hm with ⟨t, ht, hsome⟩
      refine ⟨t, ht, ?_, by rw [hsome, Option.isSome_some]⟩
      simp only [partialLegGroup] at hsome
      split_ifs at hsome
      cases hsome
      exact Option.some.inj hid
  · rintro ⟨t, ht, rfl, hsome⟩
    rcases Option.isSome_iff_exists.mp hsome with ⟨m, hm⟩
    refine ⟨m, List.mem_append_right _ (List.mem_filterMap.mpr ⟨t, ht, hm⟩),
      partialLegGroup_kind _ t m hm, ?_⟩
    simp only [partialLegGroup] at hm
    split_ifs at hm
    cases hm
    rfl

/-- A report stops the start for an open order no working row is known by, for a lookup without a
    terminal state, and for an open trade with a filled and a working leg. -/
theorem mustHalt_iff : report.mustHalt = true ↔
    (∃ o ∈ live, coid o ≠ "" ∧ coid o ∉ (openOrders db).map OrderRow.clientOrderId) ∨
      (∃ row ∈ db.orders, row.isOpen = true ∧ Regressed lookup (liveByCoid live) row) ∨
      ∃ t ∈ openTrades db, (partialLegGroup (outcomes.map RowOutcome.row) t).isSome := by
  have hsome : report.mustHalt = true ↔ ∃ m, m ∈ report.mismatches := by
    rw [ReconcileReport.mustHalt, Bool.not_eq_true', List.isEmpty_eq_false_iff_exists_mem]
  have hforeign : (∃ m, m ∈ foreignOpen ((openOrders db).map OrderRow.clientOrderId) live) ↔
      ∃ o ∈ live, coid o ≠ "" ∧ coid o ∉ (openOrders db).map OrderRow.clientOrderId := by
    constructor
    · rintro ⟨m, hm⟩
      have hkey : ∃ key, m.clientOrderId = some key := by
        simp only [foreignOpen, List.mem_map] at hm
        rcases hm with ⟨entry, _, rfl⟩
        exact ⟨_, rfl⟩
      rcases hkey with ⟨key, hkey⟩
      rcases (mem_foreignOpen _ live key).mp ⟨m, hm, hkey⟩ with ⟨hne, hmem, hrows⟩
      rcases List.mem_map.mp hmem with ⟨o, ho, rfl⟩
      exact ⟨o, ho, hne, hrows⟩
    · rintro ⟨o, ho, hne, hrows⟩
      rcases (mem_foreignOpen _ live (coid o)).mpr ⟨hne, List.mem_map_of_mem ho, hrows⟩ with
        ⟨m, hm, _⟩
      exact ⟨m, hm⟩
  have hpartial : (∃ m, m ∈ (openTrades db).filterMap
      (partialLegGroup (outcomes.map RowOutcome.row))) ↔
      ∃ t ∈ openTrades db, (partialLegGroup (outcomes.map RowOutcome.row) t).isSome := by
    simp only [List.mem_filterMap, Option.isSome_iff_exists]
    constructor
    · rintro ⟨m, t, ht, hm⟩
      exact ⟨t, ht, m, hm⟩
    · rintro ⟨t, ht, m, hm⟩
      exact ⟨m, t, ht, hm⟩
  rw [hsome, report_mismatches parse lookup db live outcomes hwalk report h, ← hforeign,
    ← walk_regressed_iff parse lookup _ _ outcomes hwalk, ← hpartial]
  simp only [List.mem_append, exists_or, or_assoc]

end Report

end OptionsBot
