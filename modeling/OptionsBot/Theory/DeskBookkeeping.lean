import OptionsBot.Lib.Refinement
import OptionsBot.Theory.ClosedRows

/-!
# The Desk as a Book of Trades

The main loop works on copies. A tick loads the open rows, and every exit of the tick is
decided and booked from the copy, while notes of the row, other rows and new rows are
written in between, each in a session of its own. Any of these can fail, and the process
may be started again.

What it amounts to is a book, in which a trade is opened under the next id and closed in
one piece, from the row as it is. The loop follows the book at every point of every run:
no exit is sent for a trade that is not open by then, no copy is out of date where it
counts, and nothing but an exit or an entry changes what the book shows. A trade is exited
once, with one exception: the session of the exit has failed, and the process was started
again after it.

## Main definitions

* `Trade.bare`, `MainLoop.book`: A row without its notes, and all of them.
* `DeskBook`, `BookOp`: The book, and what can happen to it.
* `BookOp.Allowed`: When it can.
* `LifeEvent`, `MainLoop.live`: A step of the loop, or a start of the process.
* `MainLoop.ops`: What a step of the loop is in the book.
* `Tracked`: The copies that are still to be managed are up to date.

## Theorems

* `step_follows`: A step of the loop.
* `exit_once`: Two exits of one trade in the book.
* `desk_follows_book`: A run of the loop.
-/

namespace OptionsBot

-- The sample run below computes with rationals.
attribute [local semireducible] Rat.add Rat.sub Rat.mul Rat.inv

/-- A trade without its notes. -/
def Trade.bare (trade : Trade) : Trade := { trade with notes := {} }

/-- A row without its notes, and with none of what only the journal shows. -/
def DeskRow.core (row : DeskRow) : Trade × List Leg := (row.record.trade.bare, row.legs)

def LoadedRow.core (row : LoadedRow) : Trade × List Leg := (row.trade.bare, row.legs)

/-- The trades, and whether the session of an exit has failed. -/
structure DeskBook where
  trades : List (Trade × List Leg)
  halted : Bool := false

/-- An exit that is sent, with what comes back, an entry, and a start of the process. -/
inductive BookOp where
  | exit (tradeId : Nat) (trigger : ExitTrigger) (now : DateTime) (result : ExitResult)
      (commits : Bool)
  | enter (row : Trade × List Leg)
  | restart

namespace DeskBook

/-- The row of a trade after its exit. -/
def closeRow (trigger : ExitTrigger) (now : DateTime) (result : ExitResult)
    (row : Trade × List Leg) : Trade × List Leg :=
  ({ row.1 with
      status := .closed
      exitTs := some (result.completedAt.getD now)
      realisedPnlInr := some (tradeRealisedPnl row.1 result)
      exitReason := some trigger },
    row.2.map (closedLeg result))

/-- An exit that fails changes nothing. One that succeeds closes its trade, or stops the desk. -/
def step (b : DeskBook) : BookOp → DeskBook
  | .exit tradeId trigger now result commits =>
    if !result.success then b
    else if commits then
      { b with
        trades := b.trades.map (fun row =>
          if row.1.id = tradeId then closeRow trigger now result row else row) }
    else { b with halted := true }
  | .enter row => { b with trades := b.trades ++ [row] }
  | .restart => { b with halted := false }

/-- An exit is sent for an open trade that it can be sent for, and an entry has the next id. -/
def Allowed (b : DeskBook) : BookOp → Prop
  | .exit tradeId trigger now _ _ =>
    b.halted = false ∧ ∃ row ∈ b.trades, row.1.id = tradeId ∧ row.1.status = .«open» ∧
      ∃ request, exitRequest row.1 row.2 trigger now = .ok request
  | .enter row =>
    b.halted = false ∧ row.1.id = (b.trades.map (fun r => r.1.id)).foldr max 0 + 1 ∧
      row.1.status ≠ .closed
  | .restart => True

end DeskBook

/-- An exit that has succeeded. -/
def BookOp.Exits (op : BookOp) (tradeId : Nat) : Prop :=
  ∃ trigger now result commits,
    op = .exit tradeId trigger now result commits ∧ result.success = true

def BookOp.Commits : BookOp → Prop
  | .exit _ _ _ _ commits => commits = true
  | _ => True

/-- A step of the loop, or a start of the process on the rows there are. -/
inductive LifeEvent where
  | desk (e : DeskEvent)
  | restart

namespace MainLoop

/-- What the book shows. -/
def book (s : MainLoop) : List (Trade × List Leg) := s.rows.map DeskRow.core

def live (s : MainLoop) : LifeEvent → MainLoop
  | .desk e => s.step e
  | .restart => { rows := s.rows }

/-- The exit that a directive sends, if it comes to that. -/
def exitOp (t : DeskTick) (loaded : LoadedRow) (answer : ManageAnswer) (d : ExitDirective) :
    Option BookOp :=
  match d.kind, d.trigger with
  | .close, some trigger =>
    match exitRequest loaded.trade loaded.legs trigger t.market.now with
    | .error _ => none
    | .ok request =>
      match answer.exit request with
      | .error _ => none
      | .ok result => some (.exit loaded.trade.id trigger t.market.now result answer.commits)
  | _, _ => none

/-- What a step is in the book. -/
def ops (s : MainLoop) : LifeEvent → List BookOp
  | .desk (.manage answer) =>
    match s.phase with
    | .managing t _ ((row, position) :: _) _ =>
      match t.engine.step (s.runtimeFor position) (t.withChain answer.chain).market with
      | .error _ => []
      | .ok (_, directives) =>
        directives.filterMap (exitOp (t.withChain answer.chain) row answer)
    | _ => []
  | .desk (.enter a) =>
    match s.phase with
    | .entering t =>
      (openTrade a.outcome s.nextId a.intent a.sizing t.market (some t.market.quoteFor)
        (some a.chain)).rows.map (fun row => .enter (row.1.bare, row.2))
    | _ => []
  | .desk _ => []
  | .restart => [.restart]

/-- The copies that are still to be managed are of different trades, open, and show what the
    rows show. -/
structure Tracked (s : MainLoop) : Prop where
  ids : (s.rows.map DeskRow.id).Nodup
  distinct : (s.phase.pending.map (fun p => p.1.trade.id)).Nodup
  current : ∀ p ∈ s.phase.pending, p.1.trade.status = .«open» ∧
    ∃ row ∈ s.rows, row.core = p.1.core

/-- The book shows the rows, and stands still only where the loop has ended. -/
def Follows (s : MainLoop) (b : DeskBook) : Prop :=
  b.trades = s.book ∧ (b.halted = true → s.phase = .ended)

section Rows

theorem core_id (row : DeskRow) (loaded : LoadedRow) (h : row.core = loaded.core) :
    row.id = loaded.trade.id :=
  congrArg (fun r : Trade × List Leg => r.1.id) h

/-- An exit is the same for a copy that shows what the row shows. -/
theorem exitRequest_core (row : Trade × List Leg) (loaded : LoadedRow) (h : row = loaded.core)
    (trigger : ExitTrigger) (now : DateTime) :
    exitRequest row.1 row.2 trigger now = exitRequest loaded.trade loaded.legs trigger now := by
  rw [h]
  rfl

/-- A close that is booked from an up-to-date copy closes the row as it is. -/
theorem close_core (row : DeskRow) (loaded : LoadedRow) (h : row.core = loaded.core)
    (c : ExitContext) (written : Bool) :
    (row.close loaded c written).core = DeskBook.closeRow c.trigger c.now c.result row.core := by
  have hrealised : tradeRealisedPnl loaded.trade c.result =
      tradeRealisedPnl row.record.trade.bare c.result :=
    congrArg (fun r : Trade × List Leg => tradeRealisedPnl r.1 c.result) h.symm
  unfold DeskRow.close DeskRow.core DeskBook.closeRow persistExitRecord
  simp only [Trade.bare, hrealised]

theorem refresh_core (loaded : LoadedRow) (t : DeskTick) (peak : Option ℚ) (row : DeskRow) :
    (row.refresh loaded t peak).core = row.core := by
  unfold DeskRow.refresh DeskRow.core refreshOpenTradeRecord
  simp only [Trade.bare]
  split <;> rfl

theorem trail_core (newStopPrice : ℚ) (now : DateTime) (wallet : Option WalletSnapshot)
    (row : DeskRow) :
    DeskRow.core { row with
      record := persistTrailStopRecord newStopPrice now wallet row.record } = row.core := rfl

/-- A write to a row that leaves what the book shows. -/
theorem map_core_same (id : Nat) (f : DeskRow → DeskRow) (hf : ∀ row, (f row).core = row.core)
    (rows : List DeskRow) : (modifyRow id f rows).map DeskRow.core = rows.map DeskRow.core := by
  rw [modifyRow, List.map_map]
  refine List.map_congr_left fun row _ => ?_
  rw [Function.comp_apply]
  split_ifs
  · exact hf row
  · rfl

/-- A write to a row that closes it. -/
theorem map_core_close (loaded : LoadedRow) (c : ExitContext) (written : Bool)
    (rows : List DeskRow) (hids : (rows.map DeskRow.id).Nodup)
    (hcurrent : ∃ row ∈ rows, row.core = loaded.core) :
    (modifyRow loaded.trade.id (DeskRow.close loaded c written) rows).map DeskRow.core =
      (rows.map DeskRow.core).map (fun row => if row.1.id = loaded.trade.id then
        DeskBook.closeRow c.trigger c.now c.result row else row) := by
  rcases hcurrent with ⟨now, hnow, hcore⟩
  rw [modifyRow, List.map_map, List.map_map]
  refine List.map_congr_left fun row hrow => ?_
  rw [Function.comp_apply, Function.comp_apply]
  have hid : (DeskRow.core row).1.id = row.id := rfl
  rw [hid]
  split_ifs with heq
  · -- The row with the id is the one that the copy shows.
    have hsame : row = now := List.inj_on_of_nodup_map hids hrow hnow
      (heq.trans (core_id now loaded hcore).symm)
    exact close_core row loaded (hsame ▸ hcore) c written
  · rfl

end Rows

section Step

variable (s : MainLoop)

/-- What a directive does is what its exit does in the book. -/
theorem carryOut_follows (t : DeskTick) (loaded : LoadedRow) (answer : ManageAnswer)
    (runtime : Option PositionRuntime) (rows : List DeskRow) (d : ExitDirective) (b : DeskBook)
    (hb : b.trades = rows.map DeskRow.core) (hids : (rows.map DeskRow.id).Nodup)
    (hopen : loaded.trade.status = .«open») (hcurrent : ∃ row ∈ rows, row.core = loaded.core)
    (hrunning : b.halted = false) :
    let done := carryOut t loaded answer { rows := rows, runtime := runtime } d
    let after := (exitOp t loaded answer d).toList.foldl DeskBook.step b
    after.trades = done.rows.map DeskRow.core ∧ (after.halted = true → done.raised = true) ∧
      Along DeskBook.step DeskBook.Allowed b (exitOp t loaded answer d).toList := by
  -- What sends no exit leaves the book alone.
  have hquiet : ∀ done : CarriedOut, done.rows.map DeskRow.core = rows.map DeskRow.core →
      b.trades = done.rows.map DeskRow.core ∧ (b.halted = true → done.raised = true) ∧
        Along DeskBook.step DeskBook.Allowed b [] := by
    intro done hdone
    refine ⟨hb.trans hdone.symm, fun h => ?_, trivial⟩
    rw [hrunning] at h
    cases h
  have hallowed : ∀ trigger request result,
      exitRequest loaded.trade loaded.legs trigger t.market.now = .ok request →
      b.Allowed (.exit loaded.trade.id trigger t.market.now result answer.commits) := by
    intro trigger request result hrequest
    rcases hcurrent with ⟨row, hrow, hcore⟩
    refine ⟨hrunning, row.core, hb ▸ List.mem_map_of_mem hrow, core_id row loaded hcore, ?_,
      request, ?_⟩
    · exact (congrArg (fun r : Trade × List Leg => r.1.status) hcore).trans hopen
    · rw [exitRequest_core row.core loaded hcore]
      exact hrequest
  rcases d with ⟨tradeId, kind, trigger, stop, legStates⟩
  cases kind with
  | close =>
      unfold carryOut exitOp
      cases trigger with
      | none => exact hquiet _ rfl
      | some trigger =>
          simp only [Bool.false_eq_true, if_false]
          rcases hrequest : exitRequest loaded.trade loaded.legs trigger t.market.now with
            e | request
          · exact hquiet _ rfl
          · simp only
            rcases answer.exit request with e | result
            · exact hquiet _ rfl
            · simp only [Option.toList_some, List.foldl_cons, List.foldl_nil, DeskBook.step, Along,
                and_true]
              have hsent := hallowed trigger request result hrequest
              have hnever : ∀ {P : Prop}, b.halted = true → P := fun h => by
                rw [hrunning] at h
                cases h
              by_cases hsuccess : result.success = true
              · by_cases hcommits : answer.commits = true
                · rw [hcommits] at hsent ⊢
                  simp only [hsuccess, Bool.not_true, Bool.false_eq_true, if_false, if_true]
                  refine ⟨?_, hnever, hsent⟩
                  rw [hb]
                  exact (map_core_close loaded
                    { trigger := trigger, result := result, wallet := answer.wallet
                      snapshot := indicatorSnapshotForTrade loaded.trade t.market t.lastTs
                      quoteFor := t.market.quoteFor, chain := t.market.chain
                      now := t.market.now }
                    answer.journalWritten rows hids hcurrent).symm
                · rw [Bool.not_eq_true] at hcommits
                  rw [hcommits] at hsent ⊢
                  simp only [hsuccess, Bool.not_true, Bool.not_false, Bool.false_eq_true, if_false,
                    if_true]
                  exact ⟨hb, fun _ => trivial, hsent⟩
              · rw [Bool.not_eq_true] at hsuccess
                simp only [hsuccess, Bool.not_false, if_true]
                exact ⟨hb, hnever, hsent⟩
  | updateStop =>
      cases stop with
      | none => exact hquiet _ rfl
      | some stop =>
          refine hquiet (carryOut t loaded answer _ _) ?_
          unfold carryOut
          simp only [Bool.false_eq_true, if_false]
          split_ifs
          · rfl
          · rfl
          · exact map_core_same _ _ (trail_core stop t.market.now t.wallet) rows
  | noOp => exact hquiet _ rfl

/-- The ids stay distinct. -/
theorem ids_step (hids : (s.rows.map DeskRow.id).Nodup) (e : DeskEvent) :
    ((s.step e).rows.map DeskRow.id).Nodup := by
  cases s.step_cases e with
  | quiet hrows _ => rwa [hrows]
  | loaded hrows _ => rwa [hrows]
  | managed p pending _ f hf hrows _ => rwa [hrows, map_id_modifyRow _ f hf.id]
  | refreshed t loaded pending peaks chain _ _ hrows _ =>
      rwa [hrows, map_id_modifyRow _ _ (fun row => (refresh_columns _ _ _ row).1)]
  | entered row hid _ _ hrows _ =>
      rw [hrows, List.map_append, List.map_singleton, List.nodup_append]
      refine ⟨hids, List.nodup_singleton _, fun id hold id' hnew => ?_⟩
      rcases List.mem_map.mp hold with ⟨old, hmem, rfl⟩
      rw [List.mem_singleton.mp hnew, hid]
      exact (s.lt_nextId old hmem).ne

theorem tracked_nil (hids : (s.rows.map DeskRow.id).Nodup) (hnil : s.phase.pending = []) :
    Tracked s := by
  refine ⟨hids, ?_, fun p hp => ?_⟩
  · rw [hnil]
    exact List.nodup_nil
  · rw [hnil] at hp
    cases hp

/-- Every step keeps the copies up to date. -/
theorem tracked_step (h : Tracked s) (e : DeskEvent) : Tracked (s.step e) := by
  have hids := s.ids_step h.ids e
  cases s.step_cases e with
  | quiet hrows hpending =>
      rcases hpending with hnil | hsame
      · exact tracked_nil _ hids hnil
      · refine ⟨hids, by rw [hsame]; exact h.distinct, fun p hp => ?_⟩
        rw [hsame] at hp
        rw [hrows]
        exact h.current p hp
  | loaded hrows hpending =>
      refine ⟨hids, ?_, fun p hp => ?_⟩
      · have hloaded : (s.loadOpen.map (fun row => row.trade.id)).Nodup := by
          rw [loadOpen, List.map_map]
          exact (List.filter_sublist.map DeskRow.id).nodup h.ids
        rw [← hpending, List.map_map] at hloaded
        exact hloaded
      · have hmem : p.1 ∈ s.loadOpen := hpending ▸ List.mem_map_of_mem hp
        rcases List.mem_map.mp hmem with ⟨row, hrow, heq⟩
        rcases List.mem_filter.mp hrow with ⟨hold, hopen⟩
        rw [← heq, hrows]
        exact ⟨of_decide_eq_true hopen, row, hold, rfl⟩
  | managed p pending hs f hf hrows hpending =>
      rcases hpending with hnil | htail
      · exact tracked_nil _ hids hnil
      · have hdistinct := h.distinct
        rw [hs, List.map_cons, List.nodup_cons] at hdistinct
        refine ⟨hids, by rw [htail]; exact hdistinct.2, fun p' hp' => ?_⟩
        rw [htail] at hp'
        rcases h.current p' (hs ▸ List.mem_cons_of_mem _ hp') with ⟨hopen, row, hrow, hcore⟩
        refine ⟨hopen, row, ?_, hcore⟩
        -- The row of another trade is not the one that is written to.
        rw [hrows, mem_modifyRow]
        refine Or.inr ⟨hrow, fun hid => hdistinct.1 ?_⟩
        rw [← hid, core_id row p'.1 hcore]
        exact List.mem_map_of_mem hp'
  | refreshed t loaded pending peaks chain _ _ _ hpending => exact tracked_nil _ hids hpending
  | entered row _ _ _ _ hpending => exact tracked_nil _ hids hpending

/-- Steps that are nothing in the book, and change nothing that it shows. -/
theorem follows_quiet (s' : MainLoop) (b : DeskBook) (h : Follows s b)
    (hrows : s'.book = s.book) (hphase : s.phase = .ended → s'.phase = .ended) : Follows s' b :=
  ⟨h.1.trans hrows.symm, fun hhalted => hphase (h.2 hhalted)⟩

theorem nextId_book : s.nextId = (s.book.map (fun r => r.1.id)).foldr max 0 + 1 := by
  unfold nextId book
  rw [List.map_map]
  rfl

/-- The management of a position. -/
theorem manage_follows (h : Tracked s) (answer : ManageAnswer) (b : DeskBook) (hb : Follows s b) :
    Follows (s.manage answer) ((s.ops (.desk (.manage answer))).foldl DeskBook.step b) ∧
      Along DeskBook.step DeskBook.Allowed b (s.ops (.desk (.manage answer))) := by
  unfold ops manage
  rcases hphase : s.phase with _ | ⟨t, loaded, pending, peaks⟩ | _ | _ | _
  · exact ⟨s.follows_quiet s b hb rfl id, trivial⟩
  · rcases pending with _ | ⟨⟨row, position⟩, pending⟩
    · refine ⟨s.follows_quiet _ b hb rfl fun hended => ?_, trivial⟩
      rw [hphase] at hended
      cases hended
    · simp only
      have hrunning : b.halted = false := by
        rw [← Bool.not_eq_true]
        intro hhalted
        have hended := hb.2 hhalted
        rw [hphase] at hended
        cases hended
      have hmem : (row, position) ∈ s.phase.pending := by
        rw [hphase]
        exact List.mem_cons_self
      rcases h.current _ hmem with ⟨hopen, hcurrent⟩
      rcases hstep : t.engine.step (s.runtimeFor position) (t.withChain answer.chain).market with
        e | ⟨next, directives⟩
      · exact ⟨⟨hb.1, fun _ => rfl⟩, trivial⟩
      · simp only
        -- The exit engine gives one directive at most.
        rcases t.engine.step_single _ _ _ _ hstep with rfl | ⟨d, rfl⟩
        · refine ⟨⟨hb.1, fun hhalted => ?_⟩, trivial⟩
          rw [List.filterMap_nil, List.foldl_nil, hrunning] at hhalted
          cases hhalted
        · have hfollows := carryOut_follows (t.withChain answer.chain) row answer (some next)
            s.rows d b hb.1 h.ids hopen hcurrent hrunning
          have hlist : [d].filterMap (exitOp (t.withChain answer.chain) row answer) =
              (exitOp (t.withChain answer.chain) row answer d).toList := by
            rcases hop : exitOp (t.withChain answer.chain) row answer d with _ | op <;>
              simp only [List.filterMap_cons, hop, List.filterMap_nil, Option.toList_none,
                Option.toList_some]
          rw [hlist, List.foldl_cons, List.foldl_nil]
          refine ⟨⟨hfollows.1, fun hhalted => ?_⟩, hfollows.2.2⟩
          rw [if_pos (hfollows.2.1 hhalted)]
  all_goals exact ⟨s.follows_quiet s b hb rfl id, trivial⟩

/-- The opening of a trade. -/
theorem enter_follows (a : EntryInput) (b : DeskBook) (hb : Follows s b) :
    Follows (s.enter a) ((s.ops (.desk (.enter a))).foldl DeskBook.step b) ∧
      Along DeskBook.step DeskBook.Allowed b (s.ops (.desk (.enter a))) := by
  unfold ops enter
  rcases hphase : s.phase with _ | _ | _ | t | _
  · exact ⟨s.follows_quiet s b hb rfl id, trivial⟩
  · exact ⟨s.follows_quiet s b hb rfl id, trivial⟩
  · exact ⟨s.follows_quiet s b hb rfl id, trivial⟩
  · simp only
    have hrunning : b.halted = false := by
      rw [← Bool.not_eq_true]
      intro hhalted
      have hended := hb.2 hhalted
      rw [hphase] at hended
      cases hended
    have hnever : ∀ {P : Prop}, b.halted = true → P := fun hhalted => by
      rw [hrunning] at hhalted
      cases hhalted
    rcases openTrade_row s.nextId a.intent a.sizing t.market (some t.market.quoteFor)
      (some a.chain) a.outcome with hnone | ⟨row, hone, hid, -⟩
    · rw [hnone]
      simp only [List.map_nil, List.append_nil, List.foldl_nil]
      exact ⟨⟨hb.1, hnever⟩, trivial⟩
    · have hstatus := openTrade_not_closed a.outcome s.nextId a.intent a.sizing t.market
        (some t.market.quoteFor) (some a.chain) row
        (by rw [hone]; exact List.mem_singleton_self row)
      rw [hone]
      simp only [List.map_cons, List.map_nil, List.foldl_cons, List.foldl_nil, Along, and_true]
      refine ⟨⟨?_, hnever⟩, hrunning, ?_, hstatus⟩
      · -- What the journal gets of an entry does not show in the book.
        unfold book
        rw [List.map_append, List.map_singleton, DeskBook.step, hb.1, DeskRow.core,
          entryRecord_trade]
        rfl
      · rw [hb.1, ← nextId_book]
        exact hid
  · exact ⟨s.follows_quiet s b hb rfl id, trivial⟩

/-- A step of the loop is in the book what it stands for. -/
theorem step_follows (h : Tracked s) (e : LifeEvent) (b : DeskBook) (hb : Follows s b) :
    Follows (s.live e) ((s.ops e).foldl DeskBook.step b) ∧
      Along DeskBook.step DeskBook.Allowed b (s.ops e) := by
  cases e with
  | restart => exact ⟨⟨hb.1, fun hhalted => nomatch hhalted⟩, trivial, trivial⟩
  | desk e =>
      cases e with
      | manage answer => exact s.manage_follows h answer b hb
      | enter a => exact s.enter_follows a b hb
      | load t =>
          refine ⟨s.follows_quiet _ b hb ?_ fun hended => ?_, trivial⟩
          · unfold live step load book
            simp only
            split
            · split <;> rfl
            · rfl
          · unfold live step
            rw [hended]
            exact hended
      | refresh chain commits =>
          refine ⟨s.follows_quiet _ b hb ?_ fun hended => ?_, trivial⟩
          · unfold live step refresh book
            simp only
            split
            · rfl
            · split_ifs
              · rfl
              · exact map_core_same _ _ (refresh_core _ _ _) _
            · rfl
          · unfold live step refresh
            rw [hended]
            exact hended
      | sleep =>
          refine ⟨s.follows_quiet _ b hb ?_ fun hended => ?_, trivial⟩
          · unfold live step book
            simp only
            split <;> rfl
          · unfold live step
            rw [hended]
            exact hended

theorem tracked_live (h : Tracked s) (e : LifeEvent) : Tracked (s.live e) := by
  cases e with
  | desk e => exact s.tracked_step h e
  | restart => exact tracked_nil _ h.ids rfl

/-- The loop refines the book. -/
theorem refines_book : Refines live ops DeskBook.step Tracked Follows DeskBook.Allowed where
  keeps s e h := s.tracked_live h e
  follows s e b h hb := (s.step_follows h e b hb).1
  allows s e b h hb := (s.step_follows h e b hb).2

end Step

end MainLoop

namespace DeskBook

/-- A closed trade, by its id. -/
def Closed (b : DeskBook) (tradeId : Nat) : Prop :=
  ∃ row ∈ b.trades, row.1.id = tradeId ∧ row.1.status = .closed

def Ids (b : DeskBook) : Prop := (b.trades.map (fun r => r.1.id)).Nodup

variable (b : DeskBook)

theorem step_ids (h : b.Ids) (op : BookOp) (hop : b.Allowed op) : (b.step op).Ids := by
  cases op with
  | exit tradeId trigger now result commits =>
      simp only [step]
      split_ifs
      · exact h
      · unfold Ids
        rw [List.map_map]
        have hsame : ∀ row : Trade × List Leg, ((fun r : Trade × List Leg => r.1.id) ∘ fun row =>
            if row.1.id = tradeId then closeRow trigger now result row else row) row =
            row.1.id := by
          intro row
          rw [Function.comp_apply]
          split_ifs <;> rfl
        rw [List.map_congr_left fun row _ => hsame row]
        exact h
      · exact h
  | enter row =>
      have hmax : ∀ (rows : List (Trade × List Leg)), ∀ r ∈ rows,
          r.1.id < (rows.map (fun r => r.1.id)).foldr max 0 + 1 := by
        intro rows r hr
        induction rows with
        | nil => exact absurd hr List.not_mem_nil
        | cons a rest ih =>
            rw [List.map_cons, List.foldr_cons, Nat.lt_succ_iff]
            rcases List.mem_cons.mp hr with rfl | hrest
            · exact le_max_left _ _
            · exact (Nat.lt_succ_iff.mp (ih hrest)).trans (le_max_right _ _)
      unfold Ids step
      simp only
      rw [List.map_append, List.map_singleton, List.nodup_append]
      refine ⟨h, List.nodup_singleton _, fun id hold id' hnew => ?_⟩
      rcases List.mem_map.mp hold with ⟨old, hmem, rfl⟩
      rw [List.mem_singleton.mp hnew, hop.2.1]
      exact (hmax _ old hmem).ne
  | restart => exact h

/-- A closed trade stays closed. -/
theorem step_closed (tradeId : Nat) (h : b.Closed tradeId) (op : BookOp) :
    (b.step op).Closed tradeId := by
  rcases h with ⟨row, hrow, hid, hclosed⟩
  cases op with
  | exit id trigger now result commits =>
      simp only [step]
      split_ifs
      · exact ⟨row, hrow, hid, hclosed⟩
      · refine ⟨_, List.mem_map_of_mem hrow, ?_⟩
        split_ifs
        · exact ⟨hid, rfl⟩
        · exact ⟨hid, hclosed⟩
      · exact ⟨row, hrow, hid, hclosed⟩
  | enter row' => exact ⟨row, List.mem_append_left _ hrow, hid, hclosed⟩
  | restart => exact ⟨row, hrow, hid, hclosed⟩

theorem run_closed (tradeId : Nat) (ops : List BookOp) (h : b.Closed tradeId) :
    (ops.foldl step b).Closed tradeId := by
  induction ops generalizing b with
  | nil => exact h
  | cons op rest ih => exact ih (b.step op) (b.step_closed tradeId h op)

theorem run_ids (ops : List BookOp) (h : b.Ids) (hall : Along step Allowed b ops) :
    (ops.foldl step b).Ids := by
  induction ops generalizing b with
  | nil => exact h
  | cons op rest ih => exact ih (b.step op) (b.step_ids h op hall.1) hall.2

/-- A desk that stands still stays so until it is started again. -/
theorem run_halted (ops : List BookOp) (h : b.halted = true) (hall : Along step Allowed b ops)
    (hnone : .restart ∉ ops) : ops = [] := by
  cases ops with
  | nil => rfl
  | cons op rest =>
      cases op with
      | exit tradeId trigger now result commits =>
          have hrunning := hall.1.1
          rw [h] at hrunning
          cases hrunning
      | enter row =>
          have hrunning := hall.1.1
          rw [h] at hrunning
          cases hrunning
      | restart => exact absurd List.mem_cons_self hnone

/-- A trade whose exit has succeeded is exited again only if the session of the exit has failed,
    and the process was started again in between. -/
theorem exit_once (hids : b.Ids) (before between after : List BookOp) (first second : BookOp)
    (tradeId : Nat)
    (hall : Along step Allowed b (before ++ first :: (between ++ second :: after)))
    (hfirst : first.Exits tradeId) (hsecond : second.Exits tradeId) :
    ¬ first.Commits ∧ .restart ∈ between := by
  rcases along_split b before _ first hall with ⟨hallowed, hrest⟩
  rcases along_split _ between after second hrest with ⟨hallowed', -⟩
  rw [along_append] at hall hrest
  have hids' := b.run_ids before hids hall.1
  generalize before.foldl step b = now at hallowed hrest hallowed' hids'
  rcases hfirst with ⟨trigger, time, result, commits, rfl, hsuccess⟩
  rcases hsecond with ⟨trigger', time', result', commits', rfl, -⟩
  have hnext := step_ids now hids' _ hallowed
  cases commits with
  | true =>
      -- The trade is closed, and an exit is sent for open trades only.
      exfalso
      rcases hallowed with ⟨-, row, hrow, hid, -, -⟩
      have hclosed : (now.step (.exit tradeId trigger time result true)).Closed tradeId := by
        simp only [step, hsuccess, Bool.not_true, Bool.false_eq_true, if_false, if_true]
        refine ⟨_, List.mem_map_of_mem hrow, ?_⟩
        rw [if_pos hid]
        exact ⟨hid, rfl⟩
      rcases run_closed _ tradeId between hclosed with ⟨old, hold, hold', hstatus⟩
      rcases hallowed' with ⟨-, row', hrow', hid', hopen, -⟩
      have hsame := List.inj_on_of_nodup_map (run_ids _ between hnext hrest.1) hold hrow'
        (hold'.trans hid'.symm)
      rw [hsame, hopen] at hstatus
      cases hstatus
  | false =>
      refine ⟨fun h => (nomatch h), ?_⟩
      by_contra hnone
      -- The desk stands still, so nothing is sent before it is started again.
      have hhalted : (now.step (.exit tradeId trigger time result false)).halted = true := by
        simp only [step, hsuccess, Bool.not_true, Bool.false_eq_true, if_false]
      have hnil := run_halted _ between hhalted hrest.1 hnone
      rw [hnil, List.foldl_nil] at hallowed'
      have hrunning := hallowed'.1
      rw [hhalted] at hrunning
      cases hrunning

end DeskBook

namespace MainLoop

/-- The main loop follows the book at every point of every run, across starts of the process: what
    the rows show is what the operations of the run have made of it, and each of them was allowed
    when it was done. So a trade is exited once, unless the session of its exit has failed and the
    process was started again after it. -/
theorem desk_follows_book (s : MainLoop) (hids : (s.rows.map DeskRow.id).Nodup)
    (hidle : s.phase = .idle) (events : List LifeEvent) :
    Throughout (fun before =>
      ((emitted live ops s before).foldl DeskBook.step { trades := s.book }).trades =
        (before.foldl live s).book) events ∧
    Along DeskBook.step DeskBook.Allowed { trades := s.book } (emitted live ops s events) ∧
    ∀ before between after first second tradeId,
      emitted live ops s events = before ++ first :: (between ++ second :: after) →
      first.Exits tradeId → second.Exits tradeId →
      ¬ first.Commits ∧ .restart ∈ between := by
  have htracked : Tracked s := tracked_nil s hids (by rw [hidle]; rfl)
  have hstart : Follows s { trades := s.book } := ⟨rfl, fun h => nomatch h⟩
  have hall := (refines_book.run s _ htracked hstart events).2.2
  refine ⟨fun before after _ => (refines_book.run s _ htracked hstart before).2.1.1, hall,
    fun before between after first second tradeId hsplit hfirst hsecond => ?_⟩
  have hbook : DeskBook.Ids { trades := s.book } := by
    unfold DeskBook.Ids book
    rw [List.map_map]
    exact hids
  exact DeskBook.exit_once _ hbook before between after first second tradeId (hsplit ▸ hall)
    hfirst hsecond

/-- The three puts are closed an hour before they expire: one exit in the book. -/
theorem desk_follows_puts :
    (emitted live ops putLoop ((putEvents 13).map .desk)).length = 1 ∧
      Throughout (fun before =>
        ((emitted live ops putLoop before).foldl DeskBook.step { trades := putLoop.book }).trades =
          (before.foldl live putLoop).book) ((putEvents 13).map .desk) :=
  ⟨by decide +kernel, (desk_follows_book putLoop (by decide) rfl _).1⟩

end MainLoop

end OptionsBot
