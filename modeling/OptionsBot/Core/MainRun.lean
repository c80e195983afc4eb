import OptionsBot.Core.EntryLoop
import OptionsBot.Core.TradeRecord
import OptionsBot.Lib.Run

/-!
# The Main Loop, Write by Write

The main loop with the rows of all trades, one step for each write it makes. A tick loads the
open rows and views them all, manages one position after the other, refreshes the notes of
every row it has loaded, and then opens trades, until it sleeps. A row is loaded once: what
the later steps of the tick know of it is what it was then, but each write goes to the row as
it is by now.

A close writes the journal file of its trade. Wherever a step can raise, the exception ends
the loop.

What a step meets is in the event: how the executor answers, whether a session commits and a
file is written, which wallets were fetched, and which intents are approved. The chain is in it
too, since another task keeps its quotes current while the tick runs. An event that the phase
does not wait for changes nothing.

## Main definitions

* `DeskRow`: A row with its legs, its orders and its journal file.
* `DeskTick`, `LoadedRow`, `LoopPhase`: A tick, a row as it was loaded, and where the loop is.
* `MainLoop`: The loop and its database.
* `DeskEvent`: What a step meets.
* `MainLoop.step`: A step.

## Theorems

* `mem_modifyRow`: The rows after a write to one of them.
* `lt_nextId`: No row has the next id.
* `entryRecord_trade`: The row of an entry.
-/

namespace OptionsBot

/-- A row of `trades` with its legs and orders, and the journal file that its close has
    written. -/
structure DeskRow where
  record : TradeRecord
  legs : List Leg
  orders : List OrderLine := []
  file : Option JournalPage := none

namespace DeskRow

def id (row : DeskRow) : Nat := row.record.trade.id

def isClosed (row : DeskRow) : Prop := row.record.trade.status = .closed

instance (row : DeskRow) : Decidable row.isClosed :=
  inferInstanceAs (Decidable (row.record.trade.status = .closed))

/-- What the journal of the row would show if it was written now. -/
def page (row : DeskRow) : JournalPage := .render row.record row.legs row.orders

end DeskRow

/-- A row as a tick has loaded it. -/
structure LoadedRow where
  trade : Trade
  legs : List Leg

/-- What a tick works with: the exit engine, the market without the quotes of the open legs, the
    times of the last candles, and the wallet if it was polled. -/
structure DeskTick where
  engine : ExitEngine
  market : MarketState
  lastTs : Underlying → Timeframe → DateTime
  wallet : Option WalletSnapshot := none

/-- The tick with the chain as it is by now. -/
def DeskTick.withChain (t : DeskTick) (chain : ChainCache) : DeskTick :=
  { t with market := { t.market with chain := chain } }

/-- Where the loop is in its tick. -/
inductive LoopPhase where
  | idle
  | managing (t : DeskTick) (loaded : List LoadedRow) (pending : List (LoadedRow × PositionState))
      (peakByTrade : List (Nat × ℚ))
  | refreshing (t : DeskTick) (pending : List LoadedRow) (peakByTrade : List (Nat × ℚ))
  | entering (t : DeskTick)
  | ended

/-- What the management of a position meets: the chain, the executor, the database, the file
    system and the wallet at an exit. -/
structure ManageAnswer where
  chain : ChainCache
  exit : ExitRequest → Except PyError ExitResult
  stopRaises : Bool := false
  commits : Bool := true
  journalWritten : Bool := true
  wallet : Option WalletSnapshot := none

/-- An entry that the gate has approved. -/
structure EntryInput where
  intent : Intent
  sizing : SizingResult
  outcome : EntryOutcome
  chain : ChainCache
  mode : BotMode
  wallet : Option WalletSnapshot := none
  slippages : List ℚ := []

inductive DeskEvent where
  | load (t : DeskTick)
  | manage (answer : ManageAnswer)
  | refresh (chain : ChainCache) (commits : Bool)
  | enter (a : EntryInput)
  | sleep

/-- The rows of the database, the records of the exit engine, and the phase. -/
structure MainLoop where
  rows : List DeskRow
  runtimes : Nat → Option PositionRuntime := fun _ => none
  phase : LoopPhase := .idle

/-- A write to the row of an id, as it is by now. -/
def modifyRow (id : Nat) (f : DeskRow → DeskRow) (rows : List DeskRow) : List DeskRow :=
  rows.map (fun row => if row.id = id then f row else row)

/-- The close of a row, and its journal. -/
def DeskRow.close (loaded : LoadedRow) (c : ExitContext) (written : Bool) (row : DeskRow) :
    DeskRow :=
  let closed : DeskRow :=
    { row with
      record := persistExitRecord loaded.trade loaded.legs c row.record
      legs := row.legs.map (closedLeg c.result)
      orders := row.orders ++ orderLines (c.result.completedAt.getD c.now) c.result.fills }
  { closed with file := if written then some closed.page else row.file }

/-- The refresh of a row. -/
def DeskRow.refresh (loaded : LoadedRow) (t : DeskTick) (peak : Option ℚ) (row : DeskRow) :
    DeskRow :=
  { row with
    record := refreshOpenTradeRecord loaded.trade loaded.legs t.market.chain
      (indicatorSnapshotForTrade loaded.trade t.market t.lastTs) t.wallet peak row.record }

/-- The other columns and notes of a row that an entry has opened. -/
def entryRecord (a : EntryInput) (market : MarketState)
    (lastTs : Underlying → Timeframe → DateTime) (trade : Trade) : TradeRecord :=
  let base : TradeRecord :=
    { trade := trade
      mode := a.mode
      signal := a.intent.legs.head?.map (fun first =>
        { intendedSymbol := first.symbol, intendedStrike := some first.strike,
          intendedExpiry := some first.expiry,
          intendedPremiumInr := a.intent.targetPremiumInr.or a.intent.targetCreditInr,
          featureVector := a.intent.featureVector })
      notes :=
        { rationale := some a.intent.rationale
          walletAtEntry := a.wallet
          indicatorsAtEntry :=
            some (indicatorSnapshotForUnderlying a.intent.underlying market lastTs) } }
  match a.outcome with
  | .answered result _ =>
    if result.success then
      { base with
        slippageBps := if a.slippages.isEmpty then none
          else some (a.slippages.sum / a.slippages.length)
        entryIv := tradeIvFromSymbols (a.intent.legs.map LegIntent.symbol) market.quoteFor
          (some a.chain)
        notes :=
          { base.notes with
            entryFillPrices := result.fills.map (fun f => (f.legIdx, f.avgFillPrice))
            entryNetPremiumInr := some result.totalPremiumInr
            tradeLifecycle := some "opened_filled" } }
    else base
  | _ => base

/-- The orders of an entry. -/
def entryOrders (a : EntryInput) (now : DateTime) : List OrderLine :=
  match a.outcome with
  | .answered result _ => if result.success then orderLines now result.fills else []
  | _ => []

namespace MainLoop

variable (s : MainLoop)

/-- The id of the next row. -/
def nextId : Nat := (s.rows.map DeskRow.id).foldr max 0 + 1

/-- The open rows. -/
def loadOpen : List LoadedRow :=
  (s.rows.filter (fun row => row.record.trade.status = .«open»)).map
    (fun row => { trade := row.record.trade, legs := row.legs })

/-- The market of a tick, with the quotes of the legs it has loaded. -/
def marketOf (t : DeskTick) (loaded : List LoadedRow) : MarketState :=
  { t.market with
    quoteFor := quoteForOpen t.market.chain (loaded.map (fun row => (row.trade, row.legs))) }

/-- The start of a tick: the open rows are loaded and viewed, and the records of other trades are
    dropped. -/
def load (t : DeskTick) : MainLoop :=
  let loaded := s.loadOpen
  let tick : DeskTick := { t with market := marketOf t loaded }
  match loaded.mapM (fun row =>
      (tradeToPositionState row.trade row.legs t.market.chain t.market.now).map
        (fun position => (row, position))) with
  -- All positions are viewed before the first is managed, so one that raises stops them all.
  | .error _ => { s with phase := .ended }
  | .ok pending =>
    { s with
      runtimes := fun id =>
        if loaded.any (fun row => row.trade.id = id) then s.runtimes id else none
      phase := .managing tick loaded pending [] }

/-- The record of the exit engine with the position of this tick, or a new one. -/
def runtimeFor (position : PositionState) : PositionRuntime :=
  match s.runtimes position.tradeId with
  | none => { position := position }
  | some runtime => { runtime with position := position }

/-- A write of a directive, and whether it has raised. -/
structure CarriedOut where
  rows : List DeskRow
  runtime : Option PositionRuntime
  raised : Bool := false

/-- Carry out a directive for a row, unless something has raised. -/
def carryOut (t : DeskTick) (loaded : LoadedRow) (answer : ManageAnswer) (acc : CarriedOut)
    (d : ExitDirective) : CarriedOut :=
  if acc.raised then acc
  else
    match d.kind, d.trigger, d.newStopPrice with
    | .close, some trigger, _ =>
      match exitRequest loaded.trade loaded.legs trigger t.market.now with
      | .error _ => { acc with raised := true }
      | .ok request =>
        match answer.exit request with
        | .error _ => { acc with raised := true }
        | .ok result =>
          -- An exit that fails drops the record of the engine all the same.
          if !result.success then { acc with runtime := none }
          else if !answer.commits then { acc with raised := true }
          else
            let c : ExitContext :=
              { trigger := trigger, result := result, wallet := answer.wallet
                snapshot := indicatorSnapshotForTrade loaded.trade t.market t.lastTs
                quoteFor := t.market.quoteFor, chain := t.market.chain, now := t.market.now }
            -- The row is committed before the journal is written.
            { rows := modifyRow loaded.trade.id
                (DeskRow.close loaded c answer.journalWritten) acc.rows
              runtime := none
              raised := !answer.journalWritten }
    | .updateStop, _, some newStopPrice =>
      -- The order goes out before the session, and stays out if the commit fails.
      if loaded.legs.isEmpty then acc
      else if answer.stopRaises || !answer.commits then { acc with raised := true }
      else
        { acc with
          rows := modifyRow loaded.trade.id (fun row =>
            { row with
              record := persistTrailStopRecord newStopPrice t.market.now t.wallet row.record })
              acc.rows }
    | _, _, _ => acc

/-- Manage the next position. When none is left, the refresh begins. -/
def manage (answer : ManageAnswer) : MainLoop :=
  match s.phase with
  -- The refresh is given the rows as they were loaded, the closed ones among them.
  | .managing t loaded [] peaks => { s with phase := .refreshing t loaded peaks }
  | .managing t loaded ((row, position) :: pending) peaks =>
    let now := t.withChain answer.chain
    match t.engine.step (s.runtimeFor position) now.market with
    | .error _ => { s with phase := .ended }
    | .ok (next, directives) =>
      let done := directives.foldl (carryOut now row answer)
        { rows := s.rows, runtime := some next }
      { rows := done.rows
        runtimes := Function.update s.runtimes row.trade.id done.runtime
        phase := if done.raised then .ended
          else .managing t loaded pending
            (Table.upsert Prod.fst row.trade.id
              (fun _ => (row.trade.id, TradeTrack.peakOf next)) peaks) }
  | _ => s

/-- Refresh the notes of the next row. When none is left, the entries begin. -/
def refresh (chain : ChainCache) (commits : Bool) : MainLoop :=
  match s.phase with
  | .refreshing t [] _ => { s with phase := .entering t }
  | .refreshing t (row :: pending) peaks =>
    if !commits then { s with phase := .ended }
    else
      { s with
        rows := modifyRow row.trade.id
          (DeskRow.refresh row (t.withChain chain)
            ((Table.lookup Prod.fst row.trade.id peaks).map Prod.snd)) s.rows
        phase := .refreshing t pending peaks }
  | _ => s

/-- Open a trade. -/
def enter (a : EntryInput) : MainLoop :=
  match s.phase with
  | .entering t =>
    let opened := openTrade a.outcome s.nextId a.intent a.sizing t.market
      (some t.market.quoteFor) (some a.chain)
    { s with
      rows := s.rows ++ opened.rows.map (fun row =>
        { record := entryRecord a t.market t.lastTs row.1, legs := row.2,
          orders := entryOrders a t.market.now })
      phase := if opened.raised then .ended else s.phase }
  | _ => s

def step : DeskEvent → MainLoop
  | .load t =>
    match s.phase with
    | .idle => s.load t
    | _ => s
  | .manage answer => s.manage answer
  | .refresh chain commits => s.refresh chain commits
  | .enter a => s.enter a
  | .sleep =>
    match s.phase with
    | .entering _ => { s with phase := .idle }
    | _ => s

theorem lt_nextId (row : DeskRow) (h : row ∈ s.rows) : row.id < s.nextId := by
  unfold nextId
  generalize s.rows = rows at h ⊢
  -- The next id is one above the greatest, which is no less than any.
  induction rows with
  | nil => exact absurd h List.not_mem_nil
  | cons a rest ih =>
      rw [List.map_cons, List.foldr_cons, Nat.lt_succ_iff]
      rcases List.mem_cons.mp h with rfl | hrest
      · exact le_max_left _ _
      · exact (Nat.lt_succ_iff.mp (ih hrest)).trans (le_max_right _ _)

end MainLoop

/-- What the journal gets of an entry does not change its row. -/
theorem entryRecord_trade (a : EntryInput) (market : MarketState)
    (lastTs : Underlying → Timeframe → DateTime) (trade : Trade) :
    (entryRecord a market lastTs trade).trade = trade := by
  unfold entryRecord
  simp only
  split
  · split
    · rfl
    · rfl
  · rfl

/-- A row after a write to one of them is the one written, or another as it was. -/
theorem mem_modifyRow (id : Nat) (f : DeskRow → DeskRow) (rows : List DeskRow) (row : DeskRow) :
    row ∈ modifyRow id f rows ↔
      (∃ old ∈ rows, old.id = id ∧ row = f old) ∨ (row ∈ rows ∧ row.id ≠ id) := by
  rw [modifyRow, List.mem_map]
  constructor
  · rintro ⟨old, hold, rfl⟩
    split_ifs with hid
    · exact Or.inl ⟨old, hold, hid, rfl⟩
    · exact Or.inr ⟨hold, hid⟩
  · rintro (⟨old, hold, hid, rfl⟩ | ⟨hrow, hid⟩)
    · exact ⟨old, hold, if_pos hid⟩
    · exact ⟨row, hrow, if_neg hid⟩

end OptionsBot
