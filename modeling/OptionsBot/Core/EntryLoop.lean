import OptionsBot.Core.PortfolioGreeks
import OptionsBot.Core.Runtime

/-!
# The Entries of a Tick

After its exits, a tick puts the intents of the strategies through the gate, one after
the other, and opens a trade on each that is approved. The open trades are counted
again after every trade that is opened. The greeks of the book are added up once, before
the first intent, from the rows the tick has started with.

Opening a trade writes its row first, open, then sends the orders, and then records what
came back. An exception in between leaves the row as it is and ends the loop.

## Main definitions

* `loadOpenTrades`, `accountingSnapshot`: The open trades, and their counts.
* `EntryOutcome`, `openTrade`: How an entry can end, and what it leaves.
* `EntryTick`: A tick: its exits and its intents.
* `EngineState.gateIntents`: The loop over the intents, with the calls of the gate.
* `EngineState.enterTick`: The tick.

## Theorems

* `exitAll_induct`: What every exit keeps, the exits of a tick keep.
* `accountingSnapshot_total`, `accountingSnapshot_strategy`: The counts.
* `openTrade_recorded`: An entry that is recorded, by the row it writes.
* `openTrade_row`: The row an entry leaves.
-/

namespace OptionsBot

/-- The open trades, by id. -/
def loadOpenTrades (trades : List (Trade × List Leg)) : List (Trade × List Leg) :=
  (trades.filter (fun row => row.1.status = .«open»)).insertionSort (fun a b => a.1.id ≤ b.1.id)

def accountingSnapshot (trades : List (Trade × List Leg)) : TradeAccountingSnapshot :=
  let openRows := loadOpenTrades trades
  { openCountTotal := openRows.length
    openCountByStrategy := fun id => openRows.countP (fun row => row.1.strategyId = id) }

/-- How an entry can end: with an exception before its row is written, with one after
    it, or with a result, and then possibly with one after that is recorded. -/
inductive EntryOutcome where
  | unwritten
  | interrupted
  | answered (result : EntryResult) (raises : Bool)

/-- The rows an entry leaves, and whether it raises. -/
structure Opened where
  rows : List (Trade × List Leg)
  raised : Bool

/-- Open a trade, with what can go wrong. A row that is written stays open until what
    came back is recorded. -/
def openTrade (outcome : EntryOutcome) (tradeId : Nat) (intent : Intent) (sizing : SizingResult)
    (market : MarketState) (quoteFor : Option (String → Option QuoteSnapshot))
    (chain : Option ChainCache) : Opened :=
  match intent.legs with
  | [] => { rows := [], raised := true }
  | first :: rest =>
    let trade := newTrade tradeId intent first rest sizing market
    match outcome with
    | .unwritten => { rows := [], raised := true }
    -- The row is committed before the orders are sent, its legs only after the fills.
    | .interrupted => { rows := [(trade, [])], raised := true }
    | .answered result raises =>
      match recordEntry trade intent sizing result quoteFor chain with
      | .error _ => { rows := [(trade, [])], raised := true }
      | .ok row => { rows := [row], raised := raises }

/-- An intent at the gate. The chain and the marks are shared with tasks that run while
    an entry waits. -/
structure EntryAttempt where
  intent : Intent
  chain : ChainCache
  marks : Underlying → Option ℚ
  outcome : EntryOutcome

/-- A tick: its market, the exits it sends and the intents of its strategies. -/
structure EntryTick where
  market : MarketState
  exits : List ((ExitRequest → ExitResult) × Nat × ExitTrigger) := []
  bookChain : ChainCache
  attempts : List EntryAttempt

/-- A call of the gate: the trades in the database, the rows the book is added up from,
    and what the gate is given. -/
structure GateCall where
  trades : List (Trade × List Leg)
  bookRows : List (Trade × List Leg)
  input : GateInput

namespace EngineState

/-- The greeks of the book, if the desk's gates are on. -/
def portfolioBook (s : EngineState) (t : EntryTick) (openRows : List (Trade × List Leg)) :
    Option PortfolioGreeks :=
  if s.app.globalConfig.desk.enabled then
    some (PortfolioGreeks.fromOpenTrades openRows t.market.quoteFor (some t.bookChain))
  else none

/-- What the gate is called with for an intent. -/
def gateInput (t : EntryTick) (book : Option PortfolioGreeks)
    (accounting : TradeAccountingSnapshot) (a : EntryAttempt) : GateInput :=
  { nowUtc := t.market.now, accounting := accounting, portfolioGreeks := book
    quoteFor := some t.market.quoteFor, chain := some a.chain, underlyingMarks := some a.marks
    usdInrRate := t.market.usdInrRate }

/-- The loop over the intents, with the calls of the gate. `openRows` and the book made
    of them stay as they are, the counts are taken again after every entry. -/
def gateIntents (t : EntryTick) (openRows : List (Trade × List Leg))
    (book : Option PortfolioGreeks) (s : EngineState) (accounting : TradeAccountingSnapshot) :
    List EntryAttempt → EngineState × List GateCall
  | [] => (s, [])
  | a :: rest =>
    let input := gateInput t book accounting a
    let call : GateCall := { trades := s.trades, bookRows := openRows, input := input }
    match s.risk.gate a.intent input with
    | .error _ => (s, [call])
    | .ok sizing =>
      if sizing.approved then
        let opened := openTrade a.outcome s.nextTradeId a.intent sizing t.market
          (some t.market.quoteFor) (some a.chain)
        let entered := { s with trades := s.trades ++ opened.rows }
        -- An exception ends the tick, and the process with it.
        if opened.raised then (entered, [call])
        else
          let later := gateIntents t openRows book entered (accountingSnapshot entered.trades) rest
          (later.1, call :: later.2)
      else
        let later := gateIntents t openRows book s accounting rest
        (later.1, call :: later.2)

/-- The exits of a tick, in order. -/
def exitAll (s : EngineState) (exits : List ((ExitRequest → ExitResult) × Nat × ExitTrigger)) :
    EngineState :=
  exits.foldl (fun now x => now.exit x.1 x.2.1 x.2.2) s

/-- A tick. The open rows are loaded before its exits. -/
def enterTick (s : EngineState) (t : EntryTick) : EngineState × List GateCall :=
  let openRows := loadOpenTrades s.trades
  let exited := s.exitAll t.exits
  gateIntents t openRows (exited.portfolioBook t openRows) exited
    (accountingSnapshot exited.trades) t.attempts

/-- What every exit keeps, the exits of a tick keep. -/
theorem exitAll_induct (P : EngineState → Prop)
    (hexit : ∀ (s : EngineState) execute tradeId trigger, P s → P (s.exit execute tradeId trigger))
    (exits : List ((ExitRequest → ExitResult) × Nat × ExitTrigger)) (s : EngineState)
    (hs : P s) : P (s.exitAll exits) := by
  induction exits generalizing s with
  | nil => exact hs
  | cons x rest ih => exact ih (s.exit x.1 x.2.1 x.2.2) (hexit s x.1 x.2.1 x.2.2 hs)

end EngineState

section Lemmas

theorem mem_loadOpenTrades (trades : List (Trade × List Leg)) (row : Trade × List Leg) :
    row ∈ loadOpenTrades trades ↔ row ∈ trades ∧ row.1.status = .«open» := by
  unfold loadOpenTrades
  rw [List.mem_insertionSort, List.mem_filter, decide_eq_true_iff]

theorem accountingSnapshot_total (trades : List (Trade × List Leg)) :
    (accountingSnapshot trades).openCountTotal =
      trades.countP (fun row => row.1.status = .«open») := by
  simp only [accountingSnapshot, loadOpenTrades, List.length_insertionSort,
    List.countP_eq_length_filter]

theorem accountingSnapshot_strategy (trades : List (Trade × List Leg)) (id : StrategyId) :
    (accountingSnapshot trades).openCountByStrategy id =
      trades.countP (fun row => row.1.status = .«open» ∧ row.1.strategyId = id) := by
  simp only [accountingSnapshot, loadOpenTrades]
  rw [(List.perm_insertionSort _ _).countP_eq, List.countP_filter]
  refine List.countP_congr (fun row _ => ?_)
  simp only [Bool.decide_and, Bool.and_eq_true, decide_eq_true_eq]
  exact and_comm

variable (tradeId : Nat) (intent : Intent) (sizing : SizingResult) (market : MarketState)
  (quoteFor : Option (String → Option QuoteSnapshot)) (chain : Option ChainCache)

/-- An entry that is recorded leaves the row of `persistEntryAndExecute`. -/
theorem openTrade_recorded (result : EntryResult) (raises : Bool) (makerTimeoutSeconds : ℚ)
    (row : Trade × List Leg)
    (h : persistEntryAndExecute (fun _ => result) tradeId intent sizing market quoteFor chain
      makerTimeoutSeconds = .ok row) :
    openTrade (.answered result raises) tradeId intent sizing market quoteFor chain =
      { rows := [row], raised := raises } := by
  rcases persistEntryAndExecute_ok _ _ _ _ _ _ _ _ row h with ⟨first, rest, hlegs, hrecord⟩
  unfold openTrade
  simp only [hlegs, hrecord]

/-- An entry leaves one row at most, under its id and of the intent's strategy. -/
theorem openTrade_row (outcome : EntryOutcome) :
    (openTrade outcome tradeId intent sizing market quoteFor chain).rows = [] ∨
      ∃ row, (openTrade outcome tradeId intent sizing market quoteFor chain).rows = [row] ∧
        row.1.id = tradeId ∧ row.1.strategyId = intent.strategyId := by
  unfold openTrade
  split
  · exact Or.inl rfl
  · next first rest _ =>
    cases outcome with
    | unwritten => exact Or.inl rfl
    | interrupted => exact Or.inr ⟨_, rfl, rfl, rfl⟩
    | answered result raises =>
        simp only
        split
        · exact Or.inr ⟨_, rfl, rfl, rfl⟩
        · next row hrow =>
          rcases recordEntry_frame _ _ _ _ _ _ row hrow with ⟨hid, hstrategy, _⟩
          exact Or.inr ⟨row, rfl, hid, hstrategy⟩

end Lemmas

end OptionsBot
