import OptionsBot.Theory.ForeignOrders
import OptionsBot.Theory.LegGroups

/-!
# Reconciling Twice

A second reconciliation against the same exchange should find nothing to do: no
order and no trade to update, and the same mismatches to report.

A row that was looked up either leaves the working rows for good or stays as it
was, to be looked up and reported again. A row that is listed takes the state of
the list as it stands there. When that is a working state, the second run finds
the row as it left it. Any other takes the row out of the working ones while its
order is still in the list, and the second run reports the order as one the
database does not know.

## Main definitions

* `workingStates`: The states of a row that is still working.
* `SecondRunSame`: A second run changes nothing and reports the same.
* `ListedWorking`: The list shows working rows in working states.

## Theorems

* `settleRow_again`, `closeCanceled_again`: Settling a row and closing a trade twice.
* `run_again`: What a second run does.
* `mismatches_again`, `partial_again`: What it reports.
* `secondRunSame_iff`: Exactly when a second run finds nothing to do.
-/

namespace OptionsBot

open OrderReconciler

/-- The states of a row that is still working. -/
def workingStates : List String := ["pending", "open", "partially_filled"]

/-- A second run leaves the tables as the first did, updates nothing, and ends as the first one: it
    raises the same, or reports the same set of mismatches. -/
structure SecondRunSame (parse : String → Option ℚ) (exchange : OpenOrders)
    (lookup : String → OrderReply) (db : OrderBook) : Prop where
  tables : (run parse exchange lookup (run parse exchange lookup db).1).1 =
    (run parse exchange lookup db).1
  raised : ∀ e, (run parse exchange lookup db).2 = .error e →
    (run parse exchange lookup (run parse exchange lookup db).1).2 = .error e
  reported : ∀ report, (run parse exchange lookup db).2 = .ok report →
    ∃ again, (run parse exchange lookup (run parse exchange lookup db).1).2 = .ok again ∧
      again.ordersUpdated = 0 ∧ ∀ m, m ∈ again.mismatches ↔ m ∈ report.mismatches

/-- The list shows every working row it has in a working state, or some lookup raises and the walk
    changes nothing. -/
def ListedWorking (parse : String → Option ℚ) (lookup : String → OrderReply) (db : OrderBook)
    (live : List JsonObject) : Prop :=
  (∃ row ∈ db.orders, row.isOpen = true ∧
      Table.lookup Prod.fst row.clientOrderId (liveByCoid live) = none ∧
      LookupRaises parse lookup row) ∨
    ∀ row ∈ db.orders, row.isOpen = true → ∀ entry,
      Table.lookup Prod.fst row.clientOrderId (liveByCoid live) = some entry →
        shownState entry.2 ∈ workingStates

theorem isOpen_iff (row : OrderRow) : row.isOpen = true ↔ row.state ∈ workingStates := by
  rw [OrderRow.isOpen, decide_eq_true_eq]
  rfl

/-- A state that a lookup has brought about is no working one. -/
theorem not_working_of_lookedUp (lookup : String → OrderReply) (row : OrderRow)
    (h : lookedUpState lookup row ≠ row.state) : lookedUpState lookup row ∉ workingStates := by
  unfold lookedUpState at h ⊢
  split at h
  · exact absurd rfl h
  · split_ifs at h ⊢
    · decide
    · decide
    · exact absurd rfl h

/-- A lookup without a terminal state leaves the row as it was. -/
theorem lookedUpState_other (lookup : String → OrderReply) (row : OrderRow)
    (fetched : Option JsonObject) (hfetch : fetchOrder (lookup row.clientOrderId) = .ok fetched)
    (hother : fetchedState fetched ∉ terminalLocalStates) :
    lookedUpState lookup row = row.state := by
  simp only [lookedUpState, hfetch, if_neg (not_filled_of_not_terminal hother), if_neg hother]

/-- A trade that is open after the check has not been touched by it. -/
theorem closeCanceled_open (orders : List OrderRow) (rows : Trade × List Leg)
    (h : (closeCanceled orders rows).1.status = .«open») : closeCanceled orders rows = rows := by
  unfold closeCanceled at h ⊢
  dsimp only at h ⊢
  -- The branch that closes the trade leaves a closed one.
  split_ifs at h ⊢
  rfl

/-- A trade is closed once. -/
theorem closeCanceled_again (orders : List OrderRow) (rows : Trade × List Leg) :
    closeCanceled orders (closeCanceled orders rows) = closeCanceled orders rows := by
  by_cases hopen : (closeCanceled orders rows).1.status = .«open»
  · rw [closeCanceled_open orders rows hopen, closeCanceled_open orders rows hopen]
  · rw [closeCanceled, if_neg (fun h => hopen h.1)]

/-- Of the trades that are open after the check, the same ones are reported. -/
theorem partial_again (db : OrderBook) (orders : List OrderRow) (m : ReconcileMismatch) :
    m ∈ (((db.trades.map (closeCanceled orders)).map Prod.fst).filter
        (fun t => decide (t.status = .«open»))).filterMap (partialLegGroup orders) ↔
      m ∈ (openTrades db).filterMap (partialLegGroup orders) := by
  simp only [openTrades, List.mem_filterMap, List.mem_filter, List.mem_map, decide_eq_true_eq]
  constructor
  · rintro ⟨t, ⟨⟨_, ⟨rows, hrows, rfl⟩, rfl⟩, hopen⟩, hm⟩
    have hkept := closeCanceled_open orders rows hopen
    rw [hkept] at hopen hm
    exact ⟨rows.1, ⟨⟨rows, hrows, rfl⟩, hopen⟩, hm⟩
  · rintro ⟨t, ⟨⟨rows, hrows, rfl⟩, hopen⟩, hm⟩
    -- A reported trade has a filled leg, so it is not closed.
    have hsome : (partialLegGroup orders rows.1).isSome := by
      rw [hm, Option.isSome_some]
    rcases ((partialLegGroup_isSome_iff _ rows.1).mp hsome).1 with ⟨i, o, ho, hfilled⟩
    rcases mem_of_latestLegOrder _ _ i o ho with ⟨hmem, hleg, _⟩
    have hkept := closeCanceled_kept orders rows o hmem hleg
      (by rw [hfilled]; decide)
    exact ⟨rows.1, ⟨⟨_, ⟨rows, hrows, rfl⟩, by rw [hkept]⟩, hopen⟩, hm⟩

section Row

variable (parse : String → Option ℚ) (lookup : String → OrderReply)
  (live : List (String × JsonObject)) (row : OrderRow) (out : RowOutcome)
  (h : settleRow parse lookup live row = .ok out)
include h

/-- A row that a step has left is settled to itself by a second one, with the same mismatch. -/
theorem settleRow_again :
    settleRow parse lookup live out.row = .ok { row := out.row, mismatch := out.mismatch } := by
  have hsettled := settleRow_settled parse lookup live row out h
  have hcoid := hsettled.clientOrderId_eq
  have hstate := hsettled.state_eq
  -- Where the state stays, so does the row, and its step is the one that was taken.
  have hsame : settledState lookup live row = row.state →
      settleRow parse lookup live out.row = .ok { row := out.row, mismatch := out.mismatch } := by
    intro hkept
    have hupdated : out.updated = false := by
      rw [hsettled.updated, hkept, decide_eq_false (not_not.mpr rfl)]
    have hout : out = { row := out.row, mismatch := out.mismatch } := by
      rw [← hupdated]
    rw [hsettled.kept hkept, h, ← hsettled.kept hkept, ← hout]
  by_cases hopen : row.isOpen = true
  · cases hshown : Table.lookup Prod.fst row.clientOrderId live with
    | some entry =>
        -- The row has the state of the list, and the list has not changed.
        have hentry : out.row.state = shownState entry.2 := by
          rw [hstate, settledState, if_pos hopen, hshown]
        have hnone : out.mismatch = none := by
          refine hsettled.quiet ?_
          rintro ⟨hunlisted, _⟩
          rw [hshown] at hunlisted
          cases hunlisted
        unfold settleRow
        by_cases hworking : out.row.isOpen = true
        · rw [if_pos hworking, reconcileRow, hcoid, hshown]
          dsimp only
          rw [reconcileLive_eq, hnone, if_neg (not_not.mpr hentry.symm)]
        · rw [if_neg hworking, hnone]
    | none =>
        by_cases hkept : settledState lookup live row = row.state
        · exact hsame hkept
        · -- Looked up and changed, so it is no longer working, and its step does nothing.
          have hnot : ¬ out.row.isOpen = true := by
            rw [isOpen_iff, hstate, settledState, if_pos hopen, hshown]
            rw [settledState, if_pos hopen, hshown] at hkept
            exact not_working_of_lookedUp lookup row hkept
          have hnone : out.mismatch = none := by
            refine hsettled.quiet ?_
            rintro ⟨_, fetched, hfetch, hother⟩
            refine hkept ?_
            rw [settledState, if_pos hopen, hshown]
            exact lookedUpState_other lookup row fetched hfetch hother
          rw [settleRow, if_neg hnot, hnone]
  · exact hsame (if_neg hopen)

end Row

section Walk

variable (parse : String → Option ℚ) (lookup : String → OrderReply) (db : OrderBook)
  (live : List JsonObject) (outcomes : List RowOutcome)
  (hwalk : walkOrders parse lookup (liveByCoid live) db.orders = .ok outcomes)
include hwalk

/-- A second walk leaves every row, and reports what the first one has. -/
theorem walk_again : walkOrders parse lookup (liveByCoid live) (outcomes.map RowOutcome.row) =
    .ok (outcomes.map (fun out => { row := out.row, mismatch := out.mismatch })) := by
  change (outcomes.map RowOutcome.row).mapM (settleRow parse lookup (liveByCoid live)) = _
  rw [mapM_ok_iff, List.forall₂_map_left_iff, List.forall₂_map_right_iff, List.forall₂_same]
  intro out hout
  rcases mem_mapM_ok (settleRow parse lookup (liveByCoid live)) db.orders outcomes hwalk out hout
    with ⟨row, _, hrow⟩
  exact settleRow_again parse lookup (liveByCoid live) row out hrow

/-- Of the keys in the list, those of the working rows stay the same if the list shows working rows
    in working states. -/
theorem workingKeys_again (hlisted : ∀ row ∈ db.orders, row.isOpen = true → ∀ entry,
      Table.lookup Prod.fst row.clientOrderId (liveByCoid live) = some entry →
        shownState entry.2 ∈ workingStates) (key : String)
    (hkey : key ∈ (liveByCoid live).map Prod.fst) :
    key ∈ ((outcomes.map RowOutcome.row).filter OrderRow.isOpen).map OrderRow.clientOrderId ↔
      key ∈ (openOrders db).map OrderRow.clientOrderId := by
  constructor
  · intro hmem
    rcases List.mem_map.mp hmem with ⟨row', hrow', rfl⟩
    rcases List.mem_filter.mp hrow' with ⟨hmem, hworking⟩
    rcases List.mem_map.mp hmem with ⟨out, hout, rfl⟩
    rcases mem_mapM_ok (settleRow parse lookup (liveByCoid live)) db.orders outcomes hwalk out hout
      with ⟨row, hrow, hstep⟩
    have hcoid := (settleRow_settled parse lookup _ row out hstep).clientOrderId_eq
    refine List.mem_map.mpr ⟨row, List.mem_filter.mpr ⟨hrow, ?_⟩, hcoid.symm⟩
    -- A row that was not working has not been touched.
    by_contra hopen
    rw [settleRow, if_neg hopen] at hstep
    cases hstep
    exact hopen hworking
  · intro hmem
    rcases List.mem_map.mp hmem with ⟨row, hrow, rfl⟩
    rcases List.mem_filter.mp hrow with ⟨hdb, hopen⟩
    rcases walk_settled parse lookup _ _ outcomes hwalk row hdb with ⟨out, hout, _, hsettled⟩
    refine List.mem_map.mpr ⟨out.row, List.mem_filter.mpr ⟨List.mem_map_of_mem hout, ?_⟩,
      hsettled.clientOrderId_eq⟩
    rcases List.mem_map.mp hkey with ⟨entry, hentry, hcoid⟩
    rcases Table.lookup_isSome Prod.fst (liveByCoid live) entry hentry with ⟨found, hfound⟩
    rw [hcoid] at hfound
    rw [isOpen_iff, hsettled.state_eq, settledState, if_pos hopen, hfound]
    exact hlisted row hdb hopen found hfound

end Walk

section Twice

variable (parse : String → Option ℚ) (lookup : String → OrderReply) (db : OrderBook)

theorem orderBook_ext (a b : OrderBook) (horders : a.orders = b.orders)
    (htrades : a.trades = b.trades) : a = b := by
  cases a
  cases b
  cases horders
  cases htrades
  rfl

section Walked

variable (live : List JsonObject) (outcomes : List RowOutcome)
  (hwalk : walkOrders parse lookup (liveByCoid live) db.orders = .ok outcomes)
include hwalk

/-- What a second run after a walk does. -/
theorem run_again : (run parse (.orders live) lookup (run parse (.orders live) lookup db).1).1 =
      (run parse (.orders live) lookup db).1 ∧
    ∃ again, (run parse (.orders live) lookup (run parse (.orders live) lookup db).1).2 =
        .ok again ∧ again.ordersUpdated = 0 ∧
      again.mismatches =
        foreignOpen (((outcomes.map RowOutcome.row).filter OrderRow.isOpen).map
          OrderRow.clientOrderId) live ++ outcomes.filterMap RowOutcome.mismatch ++
        (((db.trades.map (closeCanceled (outcomes.map RowOutcome.row))).map Prod.fst).filter
          (fun t => decide (t.status = .«open»))).filterMap
            (partialLegGroup (outcomes.map RowOutcome.row)) := by
  rcases run_ok parse lookup db live outcomes hwalk with ⟨horders, htrades, _⟩
  have hagain := walk_again parse lookup db live outcomes hwalk
  rw [← horders] at hagain
  have hsame : (outcomes.map (fun out => ({ row := out.row, mismatch := out.mismatch } :
      RowOutcome))).map RowOutcome.row = outcomes.map RowOutcome.row := by
    rw [List.map_map]
    rfl
  rcases run_ok parse lookup _ live _ hagain with ⟨horders', htrades', again, hreport, hmismatches⟩
  refine ⟨orderBook_ext _ _ ?_ ?_, again, hreport, ?_, ?_⟩
  · rw [horders', hsame, horders]
  · rw [htrades', hsame, htrades, List.map_map]
    refine List.map_congr_left fun rows _ => ?_
    exact closeCanceled_again _ rows
  · rw [run_updated parse lookup _ live _ again hagain hreport, List.filter_map, List.length_map]
    have hnone : outcomes.filter (RowOutcome.updated ∘ fun out =>
        { row := out.row, mismatch := out.mismatch }) = [] :=
      List.filter_eq_nil_iff.mpr fun out _ => Bool.false_ne_true
    rw [hnone, List.length_nil]
  · rw [hmismatches, hsame, List.filterMap_map]
    unfold openOrders openTrades
    rw [horders, htrades]
    rfl

/-- After a walk that shows working rows in working states, the second run reports the same. -/
theorem mismatches_again (hlisted : ∀ row ∈ db.orders, row.isOpen = true → ∀ entry,
      Table.lookup Prod.fst row.clientOrderId (liveByCoid live) = some entry →
        shownState entry.2 ∈ workingStates) :
    foreignOpen (((outcomes.map RowOutcome.row).filter OrderRow.isOpen).map
      OrderRow.clientOrderId) live =
      foreignOpen ((openOrders db).map OrderRow.clientOrderId) live := by
  unfold foreignOpen
  rw [List.filter_congr]
  intro entry hentry
  rw [decide_eq_decide, workingKeys_again parse lookup db live outcomes hwalk hlisted entry.1
    (List.mem_map_of_mem hentry)]

/-- A row that the list shows in another state than a working one is no longer known as working. -/
theorem gone_of_shown (row : OrderRow) (hrow : row ∈ db.orders) (hopen : row.isOpen = true)
    (entry : String × JsonObject)
    (hentry : Table.lookup Prod.fst row.clientOrderId (liveByCoid live) = some entry)
    (hstate : shownState entry.2 ∉ workingStates) : row.clientOrderId ∉
      (openOrders (run parse (.orders live) lookup db).1).map OrderRow.clientOrderId := by
  rcases run_ok parse lookup db live outcomes hwalk with ⟨horders, _, _⟩
  rcases walk_settled parse lookup _ _ outcomes hwalk row hrow with ⟨out, hout, _, hsettled⟩
  have hdb : out.row ∈ (run parse (.orders live) lookup db).1.orders := by
    rw [horders]
    exact List.mem_map_of_mem hout
  intro hmem
  rcases List.mem_map.mp hmem with ⟨row', hrow', hsame⟩
  rcases List.mem_filter.mp hrow' with ⟨hdb', hopen'⟩
  -- Keys are distinct, so the row under this one is the row that was settled.
  have heq : row' = out.row := by
    refine List.inj_on_of_nodup_map
      (run parse (.orders live) lookup db).1.clientOrderIds_nodup hdb' hdb ?_
    rw [hsame, hsettled.clientOrderId_eq]
  rw [heq, isOpen_iff, hsettled.state_eq, settledState, if_pos hopen, hentry] at hopen'
  exact hstate hopen'

/-- After a walk the second run finds nothing to do exactly when the list shows working rows in
    working states. -/
theorem secondRunSame_walked :
    SecondRunSame parse (.orders live) lookup db ↔ ListedWorking parse lookup db live := by
  rcases run_ok parse lookup db live outcomes hwalk with ⟨_, _, report, hreport, _⟩
  rcases run_again parse lookup db live outcomes hwalk with
    ⟨htables, again, hagain, hupdated, hmismatches⟩
  constructor
  · refine fun hsame => Or.inr fun row hrow hopen entry hentry => ?_
    by_contra hstate
    rcases Table.mem_of_lookup Prod.fst _ _ entry hentry with ⟨hmem, hkey⟩
    rcases (mem_liveByCoid live row.clientOrderId).mp (List.mem_map.mpr ⟨entry, hmem, hkey⟩) with
      ⟨hne, hlisted⟩
    -- The row has left the working ones while its order is still in the list.
    have hgone :=
      gone_of_shown parse lookup db live outcomes hwalk row hrow hopen entry hentry hstate
    rcases hsame.reported report hreport with ⟨again', hagain', _, hiff⟩
    rcases (reported_foreign_iff parse lookup _ live again' hagain' row.clientOrderId).mpr
      ⟨hne, hlisted, hgone⟩ with ⟨m, hm, hkind, hcoid⟩
    have hfirst := (reported_foreign_iff parse lookup db live report hreport row.clientOrderId).mp
      ⟨m, (hiff m).mp hm, hkind, hcoid⟩
    exact hfirst.2.2 (List.mem_map.mpr ⟨row, List.mem_filter.mpr ⟨hrow, hopen⟩, rfl⟩)
  · rintro (⟨row, hrow, hopen, hnone, hraises⟩ | hlisted)
    · exact absurd hraises ((walk_ends_iff parse lookup _ db.orders).mp ⟨outcomes, hwalk⟩ row hrow
        hopen hnone)
    · refine ⟨htables, fun e he => ?_, fun report' hreport' => ?_⟩
      · rw [hreport] at he
        cases he
      · refine ⟨again, hagain, hupdated, fun m => ?_⟩
        rw [hmismatches, report_mismatches parse lookup db live outcomes hwalk report' hreport',
          mismatches_again parse lookup db live outcomes hwalk hlisted]
        simp only [List.mem_append, partial_again]

end Walked

/-- Whatever the tables, the list and the replies: a second run finds nothing to do exactly when the
    list shows none of its working rows in another state than a working one, or a lookup raises. -/
theorem secondRunSame_iff (exchange : OpenOrders) : SecondRunSame parse exchange lookup db ↔
    ∀ live, exchange = .orders live → ListedWorking parse lookup db live := by
  cases exchange with
  | failed =>
      refine ⟨fun _ live hlive => OpenOrders.noConfusion hlive, fun _ => ⟨rfl, ?_, ?_⟩⟩
      · intro e he
        cases he
      · intro report hreport
        cases hreport
        exact ⟨_, rfl, rfl, fun m => Iff.rfl⟩
  | raised e =>
      refine ⟨fun _ live hlive => OpenOrders.noConfusion hlive, fun _ => ⟨rfl, ?_, ?_⟩⟩
      · intro e' he'
        exact he'
      · intro report hreport
        cases hreport
  | orders live =>
      have hworking : (∀ live', OpenOrders.orders live = .orders live' →
          ListedWorking parse lookup db live') ↔ ListedWorking parse lookup db live :=
        ⟨fun h => h live rfl, fun h live' hlive => by cases hlive; exact h⟩
      rw [hworking]
      by_cases hends : ∀ row ∈ db.orders, row.isOpen = true →
          Table.lookup Prod.fst row.clientOrderId (liveByCoid live) = none →
            ¬ LookupRaises parse lookup row
      · rcases (walk_ends_iff parse lookup _ db.orders).mpr hends with ⟨outcomes, hwalk⟩
        exact secondRunSame_walked parse lookup db live outcomes hwalk
      · cases hwalk : walkOrders parse lookup (liveByCoid live) db.orders with
        | ok outcomes =>
            exact absurd ((walk_ends_iff parse lookup _ db.orders).mp ⟨outcomes, hwalk⟩) hends
        | error e =>
            push Not at hends
            -- A walk that raises writes nothing, so the second run is the first again.
            refine ⟨fun _ => Or.inl hends, fun _ => ?_⟩
            have hrun := run_raises parse lookup db live e hwalk
            refine ⟨by rw [hrun, hrun], fun e' he' => ?_, fun report hreport => ?_⟩
            · rw [hrun] at he' ⊢
              rw [hrun]
              exact he'
            · rw [hrun] at hreport
              cases hreport

end Twice

/-- A working order whose row still says open, and which the list shows as filled. -/
def filledListed : JsonObject :=
  [("client_order_id", .text "credit_vertical-4-0-entry-known"), ("state", .text "filled")]

/-- A working row takes the state filled from the list. The first run updates it and reports
    nothing; the second one reports its order as unknown. -/
theorem listed_fill_foreign :
    (run (fun _ => none) (.orders [filledListed]) (fun _ => .nothing) knownBook).2 =
        .ok { ordersChecked := 1, ordersUpdated := 1 } ∧
      (run (fun _ => none) (.orders [filledListed]) (fun _ => .nothing)
        (run (fun _ => none) (.orders [filledListed]) (fun _ => .nothing) knownBook).1).2 =
        .ok { mismatches := [{ kind := .foreignOpen
                               clientOrderId := some "credit_vertical-4-0-entry-known" }] } ∧
      ¬ SecondRunSame (fun _ => none) (.orders [filledListed]) (fun _ => .nothing) knownBook := by
  refine ⟨rfl, rfl, fun hsame => ?_⟩
  rcases hsame.reported _ rfl with ⟨again, hagain, _, hiff⟩
  cases hagain
  exact absurd ((hiff _).mp List.mem_cons_self) List.not_mem_nil

end OptionsBot
