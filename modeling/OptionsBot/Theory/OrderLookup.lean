import OptionsBot.Core.Reconcile

/-!
# What a Lookup Settles

An order row that is no longer among the open orders of the exchange is settled
from a lookup of its own. Cancelling it should rest on something the exchange
said: that there is no such order, or that it ended without a fill. A lookup
that failed says neither, so the row should stay as it is, its trade open, and
the operator be told.

A failed lookup and an empty reply are one value to the code, and so is a state
that cannot be read from an object without fields or from an empty text: all are
taken for a cancelled order. An order that was cancelled after part of it had
filled is cancelled here as well, with nothing recorded of the fill. Two of the
replies raise, which ends the run before it reports. Only a missing state in an
object that has other fields comes out as a mismatch.

## Main definitions

* `EndedUnfilled`, `ReportsGone`: What the exchange says of an order that may be
  cancelled.
* `StateUnread`, `FillUnread`, `Malformed`: A reply that says nothing of its
  order.
* `SettledFromReports`: Rows are settled from what the exchange said.
* `ClearAnswer`: The exchange has answered, and with no partial fill.

## Theorems

* `reconcileFetched_terminal`, `reconcileFetched_filled`,
  `reconcileFetched_other`: The three ends of a lookup.
* `row_unraised`: A clear answer does not raise.
* `closeCanceled_kept`: A trade with a leg order that is not cancelled stays.
* `settledFromReports_iff`: Exactly when rows are settled from what was said.
-/

namespace OptionsBot

open OrderReconciler

section Replies

variable (parse : String → Option ℚ)

/-- The exchange says that the order has ended and that nothing of it filled. -/
def EndedUnfilled (o : JsonObject) : Prop :=
  o.getStr "state" ∈ ["canceled", "rejected"] ∧ o.getFloatOr parse "filled_size" 0 = .ok 0

/-- The exchange says that it has no such order, or that it ended unfilled. -/
def ReportsGone (reply : OrderReply) : Prop :=
  reply = .list [] ∨ ∃ o, fetchOrder reply = .ok (some o) ∧ EndedUnfilled parse o

/-- The object has no state, or an empty one. -/
def StateUnread (o : JsonObject) : Prop :=
  (o.get "state").getD .null = .null ∨ o.getStr "state" = ""

/-- The object says the order is filled, by numbers that cannot be read. -/
def FillUnread (o : JsonObject) : Prop :=
  o.getStr "state" = "filled" ∧ ((∃ e, o.getFloatOr parse "filled_size" 0 = .error e) ∨
    ((o.get "average_fill_price").getD .null ≠ .null ∧
      ∃ e, ((o.get "average_fill_price").getD .null).float parse = .error e))

/-- The lookup failed, or what came back is no answer about an order. -/
def Malformed (reply : OrderReply) : Prop :=
  reply ≠ .list [] ∧
    ∀ o, fetchOrder reply = .ok (some o) → StateUnread o ∨ FillUnread parse o

end Replies

/-- The entry of the list of open orders that a row is settled from. -/
def shownOpen (exchange : OpenOrders) (row : OrderRow) : Option JsonObject :=
  match exchange with
  | .orders live => (Table.lookup Prod.fst row.clientOrderId (liveByCoid live)).map Prod.snd
  | _ => none

/-- The list is there and the row is not in it, so that it is looked up. -/
def LookedUp (exchange : OpenOrders) (row : OrderRow) : Prop :=
  ∃ live, exchange = .orders live ∧
    Table.lookup Prod.fst row.clientOrderId (liveByCoid live) = none

/-- A working row ends cancelled only on the exchange's word. A lookup without an answer leaves
    the row as it was, and its trade, and is reported. -/
structure SettledFromReports (parse : String → Option ℚ) (exchange : OpenOrders)
    (lookup : String → OrderReply) (db : OrderBook) : Prop where
  canceled : ∀ row ∈ db.orders, row.isOpen = true →
    ∀ row' ∈ (run parse exchange lookup db).1.orders, row'.id = row.id → row'.state = "canceled" →
      (∃ o, shownOpen exchange row = some o ∧ EndedUnfilled parse o) ∨
        (LookedUp exchange row ∧ ReportsGone parse (lookup row.clientOrderId))
  kept : ∀ row ∈ db.orders, row.isOpen = true → LookedUp exchange row →
    Malformed parse (lookup row.clientOrderId) →
      row ∈ (run parse exchange lookup db).1.orders ∧
      (∀ rows ∈ db.trades, row.isLegOf rows.1.id = true →
        rows ∈ (run parse exchange lookup db).1.trades) ∧
      ∃ report, (run parse exchange lookup db).2 = .ok report ∧
        ∃ m ∈ report.mismatches, m.orderId = some row.id

/-- The list shows the order as cancelled only without a fill; and where it is looked up, there is
    no such order or an object that gives its state, with no fill if it is cancelled and with
    numbers that can be read if it is filled. -/
structure ClearAnswer (parse : String → Option ℚ) (exchange : OpenOrders)
    (lookup : String → OrderReply) (row : OrderRow) : Prop where
  shown : ∀ o, shownOpen exchange row = some o → o.getStr "state" = "canceled" →
    o.getFloatOr parse "filled_size" 0 = .ok 0
  answered : LookedUp exchange row → lookup row.clientOrderId = .list [] ∨
    ∃ o, fetchOrder (lookup row.clientOrderId) = .ok (some o) ∧ o ≠ [] ∧
      o.getStr "state" ≠ "" ∧ ¬ FillUnread parse o ∧
      (o.getStr "state" ∈ ["canceled", "rejected"] → o.getFloatOr parse "filled_size" 0 = .ok 0)

theorem not_canceled_of_open (row : OrderRow) (h : row.isOpen = true) : row.state ≠ "canceled" := by
  intro hstate
  rw [OrderRow.isOpen, hstate] at h
  exact absurd h (by decide)

/-- Whether a number cannot be read does not depend on the default. -/
theorem getFloatOr_error (parse : String → Option ℚ) (o : JsonObject) (key : String) (d d' : ℚ)
    (e : PyError) (h : o.getFloatOr parse key d = .error e) :
    o.getFloatOr parse key d' = .error e := by
  simp only [JsonObject.getFloatOr] at h ⊢
  split_ifs at h ⊢
  exact h

section Fetched

variable (parse : String → Option ℚ) (row : OrderRow)

/-- The state read off an object with fields: its own, or cancelled where that is empty. -/
theorem fetchedState_eq (o : JsonObject) (ho : o ≠ []) :
    fetchedState (some o) = if o.getStr "state" = "" then "canceled" else o.getStr "state" := by
  have hempty : o.isEmpty = false := by
    cases o with
    | nil => exact absurd rfl ho
    | cons _ _ => rfl
  simp only [fetchedState, hempty, Bool.false_eq_true, if_false]

theorem reconcileFetched_terminal (fetched : Option JsonObject)
    (h : fetchedState fetched ∈ ["canceled", "rejected"]) :
    reconcileFetched parse row fetched =
      .ok { row := { row with state := "canceled" }, updated := true } := by
  have hfilled : fetchedState fetched ≠ "filled" := by
    intro hstate
    rw [hstate] at h
    exact absurd h (by decide)
  have hterminal : fetchedState fetched ∈ terminalLocalStates :=
    List.mem_cons_of_mem "filled" h
  simp only [reconcileFetched, if_neg hfilled, if_pos hterminal]

/-- Filled is a terminal state. -/
theorem not_filled_of_not_terminal {state : String} (h : state ∉ terminalLocalStates) :
    state ≠ "filled" := by
  rintro rfl
  exact h (by decide)

theorem reconcileFetched_other (fetched : Option JsonObject)
    (h : fetchedState fetched ∉ terminalLocalStates) :
    reconcileFetched parse row fetched =
      .ok { row := row, mismatch := some { kind := .fillStateRegression, orderId := some row.id,
                                           clientOrderId := some row.clientOrderId } } := by
  simp only [reconcileFetched, if_neg (not_filled_of_not_terminal h), if_neg h]

/-- A filled order is recorded as filled, or its numbers raise. -/
theorem reconcileFetched_filled (o : JsonObject) (ho : o ≠ []) (h : o.getStr "state" = "filled") :
    (FillUnread parse o ∧ ∃ e, reconcileFetched parse row (some o) = .error e) ∨
      (¬ FillUnread parse o ∧ ∃ out, reconcileFetched parse row (some o) = .ok out ∧
        out.row.state = "filled") := by
  have hstate : fetchedState (some o) = "filled" := by
    rw [fetchedState_eq o ho, h, if_neg (by decide)]
  simp only [reconcileFetched, if_pos hstate]
  cases hqty : o.getFloatOr parse "filled_size" row.qty with
  | error e =>
      exact Or.inl ⟨⟨h, Or.inl ⟨e, getFloatOr_error parse o _ row.qty 0 e hqty⟩⟩, e, rfl⟩
  | ok qty =>
      -- The quantity reads with the row's as the default, so it reads with zero.
      have hread : ∀ e, o.getFloatOr parse "filled_size" 0 ≠ .error e := by
        intro e he
        rw [getFloatOr_error parse o _ 0 row.qty e he] at hqty
        cases hqty
      by_cases hprice : (o.get "average_fill_price").getD .null = .null
      · refine Or.inr ⟨?_, ?_⟩
        · rintro ⟨_, ⟨e, he⟩ | ⟨hne, _⟩⟩
          · exact hread e he
          · exact hne hprice
        · rw [hprice]
          exact ⟨_, rfl, rfl⟩
      · cases hfloat : ((o.get "average_fill_price").getD .null).float parse with
        | error e =>
            refine Or.inl ⟨⟨h, Or.inr ⟨hprice, e, hfloat⟩⟩, e, ?_⟩
            dsimp only
            split
            · next hnull => exact absurd hnull hprice
            · rw [hfloat]
        | ok price =>
            refine Or.inr ⟨?_, ?_⟩
            · rintro ⟨_, ⟨e, he⟩ | ⟨_, e, he⟩⟩
              · exact hread e he
              · rw [hfloat] at he
                cases he
            · dsimp only
              split
              · next hnull => exact absurd hnull hprice
              · rw [hfloat]
                exact ⟨_, rfl, rfl⟩

end Fetched

/-- A trade with a leg order that is not cancelled keeps its rows. -/
theorem closeCanceled_kept (orders : List OrderRow) (rows : Trade × List Leg) (o : OrderRow)
    (ho : o ∈ orders) (hleg : o.isLegOf rows.1.id = true) (hstate : o.state ≠ "canceled") :
    closeCanceled orders rows = rows := by
  unfold closeCanceled
  dsimp only
  rw [if_neg]
  rintro ⟨_, _, hall⟩
  exact hstate (hall o (List.mem_filter.mpr ⟨ho, hleg⟩))

/-- Only an object that says so is read as filled. -/
theorem filled_of_fetchedState (fetched : Option JsonObject) (h : fetchedState fetched = "filled") :
    ∃ o, fetched = some o ∧ o ≠ [] ∧ o.getStr "state" = "filled" := by
  cases fetched with
  | none => exact absurd h (by decide)
  | some o =>
      by_cases ho : o = []
      · rw [ho] at h
        exact absurd h (by decide)
      · refine ⟨o, rfl, ho, ?_⟩
        rw [fetchedState_eq o ho] at h
        split_ifs at h
        · exact absurd h (by decide)
        · exact h

section Looked

variable (parse : String → Option ℚ) (lookup : String → OrderReply) (row : OrderRow)
  (live : List (String × JsonObject))
  (h : Table.lookup Prod.fst row.clientOrderId live = none)
include h

/-- The ends of a lookup: it raises on a reply that raises or on a fill that cannot be read, or it
    leaves the row cancelled, filled, or as it was and reported. -/
theorem reconcileRow_cases :
    (lookup row.clientOrderId ≠ .list [] ∧
        (∀ o, fetchOrder (lookup row.clientOrderId) = .ok (some o) → FillUnread parse o) ∧
        ∃ e, reconcileRow parse lookup live row = .error e) ∨
      ∃ fetched, fetchOrder (lookup row.clientOrderId) = .ok fetched ∧
        ((fetchedState fetched ∈ ["canceled", "rejected"] ∧
            reconcileRow parse lookup live row =
              .ok { row := { row with state := "canceled" }, updated := true }) ∨
          (fetchedState fetched = "filled" ∧ (∀ o, fetched = some o → ¬ FillUnread parse o) ∧
            ∃ out, reconcileRow parse lookup live row = .ok out ∧ out.row.state = "filled") ∨
          (fetchedState fetched ∉ terminalLocalStates ∧
            reconcileRow parse lookup live row =
              .ok { row := row,
                    mismatch := some { kind := .fillStateRegression, orderId := some row.id,
                                       clientOrderId := some row.clientOrderId } })) := by
  -- Not listed, so the row is looked up.
  rw [reconcileRow_lookedUp parse lookup live row h]
  cases hfetch : fetchOrder (lookup row.clientOrderId) with
  | error e =>
      refine Or.inl ⟨fun hnone => ?_, fun o ho => ?_, e, rfl⟩
      · rw [hnone] at hfetch
        cases hfetch
      · cases ho
  | ok fetched =>
      by_cases hterminal : fetchedState fetched ∈ ["canceled", "rejected"]
      · exact Or.inr ⟨fetched, rfl, Or.inl ⟨hterminal,
          reconcileFetched_terminal parse row fetched hterminal⟩⟩
      · by_cases hfilled : fetchedState fetched = "filled"
        · rcases filled_of_fetchedState fetched hfilled with ⟨o, rfl, ho, hstate⟩
          rcases reconcileFetched_filled parse row o ho hstate with
            ⟨hunread, e, he⟩ | ⟨hread, out, hout, hout_state⟩
          · refine Or.inl ⟨fun hnone => ?_, fun o' ho' => ?_, e, he⟩
            · rw [hnone] at hfetch
              cases hfetch
            · cases ho'
              exact hunread
          · refine Or.inr ⟨some o, rfl, Or.inr (Or.inl ⟨hfilled, ?_, out, hout, hout_state⟩)⟩
            intro o' ho'
            cases ho'
            exact hread
        · have hother : fetchedState fetched ∉ terminalLocalStates := by
            intro hmem
            rcases List.mem_cons.mp hmem with hmem | hmem
            · exact hfilled hmem
            · exact hterminal hmem
          exact Or.inr ⟨fetched, rfl, Or.inr (Or.inr ⟨hother,
            reconcileFetched_other parse row fetched hother⟩)⟩

end Looked

section Walk

variable (parse : String → Option ℚ) (lookup : String → OrderReply) (db : OrderBook)
  (live : List JsonObject) (outcomes : List RowOutcome)
  (hwalk : walkOrders parse lookup (liveByCoid live) db.orders = .ok outcomes)
include hwalk

/-- A walk has settled every working row. -/
theorem outcome_of_row (row : OrderRow) (hrow : row ∈ db.orders) (hopen : row.isOpen = true) :
    ∃ out ∈ outcomes, reconcileRow parse lookup (liveByCoid live) row = .ok out := by
  rcases mapM_ok_mem _ db.orders outcomes hwalk row hrow with ⟨out, hout, heq⟩
  rw [if_pos hopen] at heq
  exact ⟨out, hout, heq⟩

/-- What stands under the key of a working row after a walk is what the row was settled to. -/
theorem outcome_of_id (row row' : OrderRow) (hrow : row ∈ db.orders) (hopen : row.isOpen = true)
    (hrow' : row' ∈ outcomes.map RowOutcome.row) (hid : row'.id = row.id) :
    ∃ out, reconcileRow parse lookup (liveByCoid live) row = .ok out ∧ row' = out.row := by
  rcases List.mem_map.mp hrow' with ⟨out, hout, rfl⟩
  -- It was settled from a row under the same key, and keys are distinct.
  rcases mem_mapM_ok _ db.orders outcomes hwalk out hout with ⟨r, hr, heq⟩
  have hkeys : out.row.id = r.id := by
    by_cases hr_open : r.isOpen = true
    · rw [if_pos hr_open] at heq
      exact (reconcileRow_keys parse lookup _ r out heq).1
    · rw [if_neg hr_open] at heq
      cases heq
      rfl
  have hsame : r = row := List.inj_on_of_nodup_map db.ids_nodup hr hrow (hkeys.symm.trans hid)
  rw [hsame, if_pos hopen] at heq
  exact ⟨out, heq, rfl⟩

end Walk

section Settled

variable (parse : String → Option ℚ) (lookup : String → OrderReply) (db : OrderBook)

/-- Nothing but a malformed reply keeps a row from its end. -/
theorem row_isOk (live : List JsonObject) (row : OrderRow)
    (h : Table.lookup Prod.fst row.clientOrderId (liveByCoid live) = none →
      lookup row.clientOrderId ≠ .list [] →
        (∀ o, fetchOrder (lookup row.clientOrderId) = .ok (some o) → FillUnread parse o) →
          ∃ out, reconcileRow parse lookup (liveByCoid live) row = .ok out) :
    ∃ out, reconcileRow parse lookup (liveByCoid live) row = .ok out := by
  cases hshown : Table.lookup Prod.fst row.clientOrderId (liveByCoid live) with
  | some entry => exact ⟨_, reconcileRow_listed parse lookup _ row entry hshown⟩
  | none =>
      rcases reconcileRow_cases parse lookup row (liveByCoid live) hshown with
        ⟨hlisted, hunread, _⟩ | ⟨fetched, _, ⟨_, hout⟩ | ⟨_, _, out, hout, _⟩ | ⟨_, hout⟩⟩
      · exact h hshown hlisted hunread
      · exact ⟨_, hout⟩
      · exact ⟨out, hout⟩
      · exact ⟨_, hout⟩

/-- Where every answer is clear, no row raises. -/
theorem row_unraised (live : List JsonObject) (row : OrderRow)
    (h : ClearAnswer parse (.orders live) lookup row) :
    ∃ out, reconcileRow parse lookup (liveByCoid live) row = .ok out := by
  refine row_isOk parse lookup live row (fun hshown hlisted hunread => ?_)
  rcases h.answered ⟨live, rfl, hshown⟩ with hnone | ⟨o, hfetch, _, _, hread, _⟩
  · exact absurd hnone hlisted
  · exact absurd (hunread o hfetch) hread

/-- A walk over clear answers reaches its end. -/
theorem walk_unraised (live : List JsonObject)
    (h : ∀ row ∈ db.orders, row.isOpen = true → ClearAnswer parse (.orders live) lookup row) :
    ∃ outcomes, walkOrders parse lookup (liveByCoid live) db.orders = .ok outcomes := by
  refine mapM_isOk _ db.orders fun row hrow => ?_
  by_cases hopen : row.isOpen = true
  · rw [if_pos hopen]
    exact row_unraised parse lookup live row (h row hrow hopen)
  · exact ⟨_, if_neg hopen⟩

/-- Where rows are settled from what was said, no reply has raised. -/
theorem walk_of_settled (live : List JsonObject)
    (h : SettledFromReports parse (.orders live) lookup db) :
    ∃ outcomes, walkOrders parse lookup (liveByCoid live) db.orders = .ok outcomes := by
  refine mapM_isOk _ db.orders fun row hrow => ?_
  by_cases hopen : row.isOpen = true
  · rw [if_pos hopen]
    refine row_isOk parse lookup live row (fun hshown hlisted hunread => ?_)
    -- The reply is malformed, so a report has to name it, and no row raises in that run.
    rcases h.kept row hrow hopen ⟨live, rfl, hshown⟩
      ⟨hlisted, fun o ho => Or.inr (hunread o ho)⟩ with ⟨_, _, report, hreport, _⟩
    rcases walk_of_run parse lookup db live report hreport with ⟨outcomes, hwalk⟩
    rcases outcome_of_row parse lookup db live outcomes hwalk row hrow hopen with ⟨out, _, hout⟩
    exact ⟨out, hout⟩
  · exact ⟨_, if_neg hopen⟩

/-- The list shows an order as cancelled where the row it settles ends cancelled. -/
theorem canceled_of_reconcileLive (row : OrderRow) (o : JsonObject) (hopen : row.isOpen = true) :
    (reconcileLive row o).row.state = "canceled" ↔ o.getStr "state" = "canceled" := by
  have hstate := not_canceled_of_open row hopen
  simp only [reconcileLive, JsonObject.getStr]
  cases hget : o.get "state" with
  | none =>
      dsimp only [Option.getD_none, Json.str]
      split_ifs
      · exact ⟨fun h => absurd h (show "open" ≠ "canceled" by decide),
          fun h => absurd h (by decide)⟩
      · exact ⟨fun h => absurd h hstate, fun h => absurd h (by decide)⟩
  | some v =>
      dsimp only [Option.getD_some]
      split_ifs with hchanged
      · exact Iff.rfl
      · rw [not_not] at hchanged
        rw [hchanged]

section Looked

variable (live : List JsonObject) (row : OrderRow) (out : RowOutcome)
  (hclear : ClearAnswer parse (.orders live) lookup row)
  (hshown : Table.lookup Prod.fst row.clientOrderId (liveByCoid live) = none)
  (hout : reconcileRow parse lookup (liveByCoid live) row = .ok out)
include hclear hshown hout

/-- A clear answer cancels a row only where the exchange has said so. -/
theorem gone_of_canceled (hopen : row.isOpen = true) (hstate : out.row.state = "canceled") :
    ReportsGone parse (lookup row.clientOrderId) := by
  rcases hclear.answered ⟨live, rfl, hshown⟩ with hnone | ⟨o, hfetch, ho, hread, _, hfill⟩
  · exact Or.inl hnone
  rcases reconcileRow_cases parse lookup row (liveByCoid live) hshown with
    ⟨_, _, e, he⟩ | ⟨fetched, hfetched, ⟨hterminal, _⟩ | ⟨_, _, out', hout', hfilled⟩ | ⟨_, hout'⟩⟩
  · rw [hout] at he
    cases he
  · rw [hfetch] at hfetched
    cases hfetched
    rw [fetchedState_eq o ho, if_neg hread] at hterminal
    exact Or.inr ⟨o, hfetch, hterminal, hfill hterminal⟩
  · rw [hout] at hout'
    cases hout'
    rw [hfilled] at hstate
    exact absurd hstate (by decide)
  · rw [hout] at hout'
    cases hout'
    exact absurd hstate (not_canceled_of_open row hopen)

/-- An answer that is clear and yet no answer leaves its row, and says so. -/
theorem reported_of_malformed (hmalformed : Malformed parse (lookup row.clientOrderId)) :
    out.row = row ∧ ∃ m, out.mismatch = some m ∧ m.orderId = some row.id := by
  rcases hclear.answered ⟨live, rfl, hshown⟩ with hnone | ⟨o, hfetch, ho, hread, hfill, _⟩
  · exact absurd hnone hmalformed.1
  rcases hmalformed.2 o hfetch with (hmissing | hempty) | hunread
  · -- A missing state is read as the text of none, which is no state an order can end in.
    have hstate : o.getStr "state" = "None" := by
      rw [JsonObject.getStr, hmissing, Json.str]
    rcases reconcileRow_cases parse lookup row (liveByCoid live) hshown with
      ⟨hlisted, hall, _⟩ | ⟨fetched, hfetched, ⟨hterminal, _⟩ | ⟨hfilled, _⟩ | ⟨_, hout'⟩⟩
    · exact absurd (hall o hfetch) hfill
    · rw [hfetch] at hfetched
      cases hfetched
      rw [fetchedState_eq o ho, if_neg hread, hstate] at hterminal
      exact absurd hterminal (by decide)
    · rw [hfetch] at hfetched
      cases hfetched
      rw [fetchedState_eq o ho, if_neg hread, hstate] at hfilled
      exact absurd hfilled (by decide)
    · rw [hout] at hout'
      cases hout'
      exact ⟨rfl, _, rfl, rfl⟩
  · exact absurd hempty hread
  · exact absurd hunread hfill

end Looked

/-- Without a list nothing is looked up, and the rows stay as they are. -/
theorem settled_of_unlisted (exchange : OpenOrders) (hlist : ∀ live, exchange ≠ .orders live)
    (hkept : (run parse exchange lookup db).1 = db) :
    SettledFromReports parse exchange lookup db := by
  refine ⟨fun row hrow hopen row' hrow' hid hstate => ?_, ?_⟩
  · rw [hkept] at hrow'
    rw [List.inj_on_of_nodup_map db.ids_nodup hrow' hrow hid] at hstate
    exact absurd hstate (not_canceled_of_open row hopen)
  · rintro row _ _ ⟨live, hlive, _⟩
    exact absurd hlive (hlist live)

/-- A row is settled from what the exchange said of it where the answer is clear. -/
theorem settled_of_clear (exchange : OpenOrders)
    (h : ∀ row ∈ db.orders, row.isOpen = true → ClearAnswer parse exchange lookup row) :
    SettledFromReports parse exchange lookup db := by
  cases exchange with
  | failed => exact settled_of_unlisted parse lookup db _ (fun _ => OpenOrders.noConfusion) rfl
  | raised e => exact settled_of_unlisted parse lookup db _ (fun _ => OpenOrders.noConfusion) rfl
  | orders live =>
      rcases walk_unraised parse lookup db live h with ⟨outcomes, hwalk⟩
      rcases run_ok parse lookup db live outcomes hwalk with
        ⟨horders, htrades, report, hreport, hmismatches⟩
      refine ⟨fun row hrow hopen row' hrow' hid hstate => ?_,
        fun row hrow hopen hlooked hmalformed => ?_⟩
      · rw [horders] at hrow'
        rcases outcome_of_id parse lookup db live outcomes hwalk row row' hrow hopen hrow' hid with
          ⟨out, hout, rfl⟩
        cases hshown : Table.lookup Prod.fst row.clientOrderId (liveByCoid live) with
        | some entry =>
            have hentry : shownOpen (.orders live) row = some entry.2 := by
              rw [shownOpen, hshown, Option.map_some]
            rw [reconcileRow_listed parse lookup _ row entry hshown] at hout
            cases hout
            rw [canceled_of_reconcileLive row entry.2 hopen] at hstate
            refine Or.inl ⟨entry.2, hentry, ?_, (h row hrow hopen).shown entry.2 hentry hstate⟩
            rw [hstate]
            exact List.mem_cons_self
        | none =>
            exact Or.inr ⟨⟨live, rfl, hshown⟩, gone_of_canceled parse lookup live row out
              (h row hrow hopen) hshown hout hopen hstate⟩
      · rcases hlooked with ⟨live', hlive', hshown⟩
        cases hlive'
        rcases outcome_of_row parse lookup db live outcomes hwalk row hrow hopen with
          ⟨out, hmem, hout⟩
        rcases reported_of_malformed parse lookup live row out (h row hrow hopen) hshown hout
          hmalformed with ⟨hsame, m, hm, hnamed⟩
        have hrow' : row ∈ outcomes.map RowOutcome.row := List.mem_map.mpr ⟨out, hmem, hsame⟩
        refine ⟨by rw [horders]; exact hrow', fun rows hrows hleg => ?_, report, hreport, m, ?_,
          hnamed⟩
        · rw [htrades]
          refine List.mem_map.mpr ⟨rows, hrows, ?_⟩
          exact closeCanceled_kept _ rows row hrow' hleg (not_canceled_of_open row hopen)
        · rw [hmismatches]
          exact List.mem_append_left _ (List.mem_append_right _
            (List.mem_filterMap.mpr ⟨out, hmem, hm⟩))

/-- A lookup whose row is cancelled only on the exchange's word has brought an answer. -/
theorem answered_of_gone (live : List JsonObject) (row : OrderRow) (out : RowOutcome)
    (hshown : Table.lookup Prod.fst row.clientOrderId (liveByCoid live) = none)
    (hout : reconcileRow parse lookup (liveByCoid live) row = .ok out)
    (hgone : out.row.state = "canceled" → ReportsGone parse (lookup row.clientOrderId)) :
    lookup row.clientOrderId = .list [] ∨
      ∃ o, fetchOrder (lookup row.clientOrderId) = .ok (some o) ∧ o ≠ [] ∧
        o.getStr "state" ≠ "" ∧ ¬ FillUnread parse o ∧
        (o.getStr "state" ∈ ["canceled", "rejected"] →
          o.getFloatOr parse "filled_size" 0 = .ok 0) := by
  rcases reconcileRow_cases parse lookup row (liveByCoid live) hshown with
    ⟨_, _, e, he⟩ | ⟨fetched, hfetched, ⟨_, hout'⟩ | ⟨hfilled, hread, _⟩ | ⟨hother, _⟩⟩
  · rw [hout] at he
    cases he
  · -- The row is cancelled, which rests on an empty list or on an object that ended unfilled.
    rw [hout] at hout'
    cases hout'
    rcases hgone rfl with hnone | ⟨o, hfetch, hended⟩
    · exact Or.inl hnone
    · refine Or.inr ⟨o, hfetch, ?_, ?_, ?_, fun _ => hended.2⟩
      · intro ho
        have hstate := hended.1
        rw [ho] at hstate
        exact absurd hstate (by decide)
      · intro hempty
        have hstate := hended.1
        rw [hempty] at hstate
        exact absurd hstate (by decide)
      · rintro ⟨hfilled, _⟩
        have hstate := hended.1
        rw [hfilled] at hstate
        exact absurd hstate (by decide)
  · rcases filled_of_fetchedState fetched hfilled with ⟨o, rfl, ho, hstate⟩
    refine Or.inr ⟨o, hfetched, ho, ?_, hread o rfl, fun hmem => ?_⟩
    · rw [hstate]
      decide
    · rw [hstate] at hmem
      exact absurd hmem (by decide)
  · cases fetched with
    | none => exact absurd (show "canceled" ∈ terminalLocalStates by decide) hother
    | some o =>
        have ho : o ≠ [] := by
          rintro rfl
          exact hother (by decide)
        rw [fetchedState_eq o ho] at hother
        split_ifs at hother with hempty
        · exact absurd (show "canceled" ∈ terminalLocalStates by decide) hother
        · refine Or.inr ⟨o, hfetched, ho, hempty, ?_, fun hmem => ?_⟩
          · exact fun hfilled => not_filled_of_not_terminal hother hfilled.1
          · exact absurd (List.mem_cons_of_mem "filled" hmem) hother

/-- Where rows are settled from what was said, every answer was clear. -/
theorem clear_of_settled (exchange : OpenOrders) (h : SettledFromReports parse exchange lookup db)
    (row : OrderRow) (hrow : row ∈ db.orders) (hopen : row.isOpen = true) :
    ClearAnswer parse exchange lookup row := by
  cases exchange with
  | failed =>
      refine ⟨fun o ho => ?_, ?_⟩
      · cases ho
      · rintro ⟨live, hlive, _⟩
        cases hlive
  | raised e =>
      refine ⟨fun o ho => ?_, ?_⟩
      · cases ho
      · rintro ⟨live, hlive, _⟩
        cases hlive
  | orders live =>
      rcases walk_of_settled parse lookup db live h with ⟨outcomes, hwalk⟩
      rcases run_ok parse lookup db live outcomes hwalk with ⟨horders, _⟩
      rcases outcome_of_row parse lookup db live outcomes hwalk row hrow hopen with
        ⟨out, hmem, hout⟩
      -- The row's own outcome stands in the table, so what is said of the tables is said of it.
      have hgone := h.canceled row hrow hopen out.row (by
        rw [horders]
        exact List.mem_map_of_mem hmem) (reconcileRow_keys parse lookup _ row out hout).1
      refine ⟨fun o ho hstate => ?_, ?_⟩
      · cases hshown : Table.lookup Prod.fst row.clientOrderId (liveByCoid live) with
        | none =>
            rw [shownOpen, hshown] at ho
            cases ho
        | some entry =>
            have hentry : entry.2 = o := by
              rw [shownOpen, hshown, Option.map_some] at ho
              exact Option.some.inj ho
            rw [reconcileRow_listed parse lookup _ row entry hshown] at hout
            cases hout
            rw [hentry] at hgone
            rcases hgone ((canceled_of_reconcileLive row o hopen).mpr hstate) with
              ⟨o', ho', hended⟩ | ⟨⟨live', hlive', hnone⟩, _⟩
            · rw [ho] at ho'
              cases ho'
              exact hended.2
            · cases hlive'
              rw [hshown] at hnone
              cases hnone
      · rintro ⟨live', hlive', hshown⟩
        cases hlive'
        refine answered_of_gone parse lookup live row out hshown hout fun hstate => ?_
        rcases hgone hstate with ⟨o, ho, _⟩ | ⟨_, hreports⟩
        · rw [shownOpen, hshown] at ho
          cases ho
        · exact hreports

/-- Whatever the tables, the list and the replies: working rows are settled from what the exchange
    said of them, and a lookup without an answer is reported, exactly when the list shows none of
    them as cancelled with a fill and every lookup brings an empty list or an object with its state,
    no fill if that is cancelled, and numbers that can be read if it is filled. -/
theorem settledFromReports_iff (exchange : OpenOrders) :
    SettledFromReports parse exchange lookup db ↔
      ∀ row ∈ db.orders, row.isOpen = true → ClearAnswer parse exchange lookup row :=
  ⟨clear_of_settled parse lookup db exchange, settled_of_clear parse lookup db exchange⟩

end Settled

/-- An open trade whose one leg order is still working. -/
def workingBook : OrderBook :=
  { orders := [{ id := 7, ts := ⟨0⟩, tradeId := some 2, legIdx := some 0, qty := 1, state := "open"
                 clientOrderId := "credit_vertical-2-0-entry-xyz" }]
    trades := [({ id := 2, strategyId := .creditVertical, underlying := .btc, expiry := none
                  entryTs := ⟨0⟩, lots := 1 }, [])]
    ids_nodup := List.nodup_singleton _
    clientOrderIds_nodup := List.nodup_singleton _ }

/-- The lookup of the order times out. The order is cancelled, its trade closed, and the report
    lets the bot start. -/
theorem failed_lookup_closes :
    ((run (fun _ => none) (.orders []) (fun _ => .failed) workingBook).1.orders.map OrderRow.state =
        ["canceled"] ∧
      (run (fun _ => none) (.orders []) (fun _ => .failed) workingBook).1.trades.map
        (fun rows => rows.1.status) = [.closed] ∧
      (run (fun _ => none) (.orders []) (fun _ => .failed) workingBook).2 =
        .ok { ordersChecked := 1, ordersUpdated := 1, tradesChecked := 1 }) ∧
      ¬ SettledFromReports (fun _ => none) (.orders []) (fun _ => .failed) workingBook := by
  refine ⟨⟨rfl, rfl, rfl⟩, fun hsettled => ?_⟩
  rcases hsettled.canceled _ List.mem_cons_self (by decide) _ List.mem_cons_self rfl rfl with
    ⟨o, ho, _⟩ | ⟨_, hnone | ⟨o, ho, _⟩⟩
  · cases ho
  · cases hnone
  · cases ho

end OptionsBot
