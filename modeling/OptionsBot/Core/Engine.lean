import Mathlib.Data.List.Sort
import OptionsBot.Core.RiskManager
import OptionsBot.Core.Router

/-!
# Trade Rows and the Engine's Bookkeeping

The rows of a trade and its legs, and what the engine writes to and reads from
them: opening a trade from a sized intent and its fills, the view of an open
trade the exit engine works on, the notes it refreshes, and closing.

Only the columns and notes some decision reads are kept. What the executor does
is a parameter of opening and closing, since either executor can stand there.

## Main definitions

* `Trade`, `Leg`: The rows of a trade.
* `persistEntryAndExecute`: Open a trade.
* `tradeToPositionState`: The view of an open trade.
* `persistTrailStop`, `refreshOpenTradeNotes`: What changes while it is open.
* `persistExit`: Close a trade and book its profit.
* `quoteForOpen`: The quotes a tick carries.

## Theorems

* `tradeToPositionState_ok_iff`: Which view a trade has, if it has one.
* `tradeToPositionState_open`: The view of a trade with an expiry.
* `tradeToPositionState_eq`: What the view of a trade is made of.
* `recordEntry_cases`, `recordEntry_success`: The rows of an entry, and of one that succeeded.
* `recordEntry_frame`: What of a trade recording its entry keeps.
* `persistEntryAndExecute_ok`: An entry records what came back for the new row.
* `persistEntryAndExecute_row`: What an entry appends.
* `persistExit_cases`: What an exit leaves behind.
* `refreshOpenTradeNotes_status`: Fresh notes do not change the status.
-/

namespace OptionsBot

inductive TradeStatus where
  | «open»
  | closed
  | errored
  deriving DecidableEq, Repr

inductive LegStatus where
  | «open»
  | closed
  deriving DecidableEq, Repr

/-- A row of `trades`. Premium and credit are per lot. -/
structure Trade where
  id : Nat
  strategyId : StrategyId
  underlying : Underlying
  expiry : Option DateTime
  entryTs : DateTime
  exitTs : Option DateTime := none
  status : TradeStatus := .«open»
  lots : Int
  premiumPaidInr : Option ℚ := none
  creditReceivedInr : Option ℚ := none
  realisedPnlInr : Option ℚ := none
  exitReason : Option ExitTrigger := none
  notes : Notes := {}
  deriving DecidableEq

/-- A row of `legs`. -/
structure Leg where
  tradeId : Nat
  strategyId : StrategyId
  legIdx : Int
  symbol : String
  optionType : Option OptionType
  strike : Option ℚ
  side : Side
  lots : Int
  entryPrice : Option ℚ
  exitPrice : Option ℚ := none
  status : LegStatus := .«open»
  deriving DecidableEq

/-- The expiry of a trade: the latest of its legs. -/
def latestExpiry (first : LegIntent) (rest : List LegIntent) : DateTime :=
  rest.foldl (fun acc leg => if acc < leg.expiry then leg.expiry else acc) first.expiry

/-- The range at entry, read off the intent's features. -/
def atrGuess (features : Features) : Option ℚ :=
  match features.get "atr" with
  | some (.num x) => x
  | _ => none

/-- The trade row written before the entry is sent. -/
def newTrade (id : Nat) (intent : Intent) (first : LegIntent) (rest : List LegIntent)
    (sizing : SizingResult) (market : MarketState) : Trade :=
  { id := id
    strategyId := intent.strategyId
    underlying := intent.underlying
    expiry := some (latestExpiry first rest)
    entryTs := market.now
    lots := sizing.sizedLots
    notes := { entryUnderlyingPrice := market.spot intent.underlying
               entryAtr := atrGuess intent.featureVector } }

def entryRequest (tradeId : Nat) (intent : Intent) (sizing : SizingResult)
    (makerTimeoutSeconds : ℚ) : EntryRequest :=
  { strategyId := intent.strategyId, tradeId := tradeId, underlying := intent.underlying,
    legs := intent.legs, lots := sizing.sizedLots.toNat, intentRationale := intent.rationale,
    spreadPctMax := intent.spreadPctMax, makerTimeoutSeconds := makerTimeoutSeconds }

/-- The leg row of a fill. An index past the last leg means the last leg. -/
def legRow (tradeId : Nat) (intent : Intent) (sizing : SizingResult) (fill : LegFill) :
    Except PyError Leg :=
  let leg := if fill.legIdx < intent.legs.length then index intent.legs fill.legIdx
    else last intent.legs
  leg.map (fun li =>
    { tradeId := tradeId, strategyId := intent.strategyId, legIdx := fill.legIdx,
      symbol := fill.symbol, optionType := some li.optionType, strike := some li.strike,
      side := li.side, lots := sizing.sizedLots, entryPrice := fill.avgFillPrice })

/-- The rows of a trade whose entry was sent. A failed entry leaves the trade
    errored and without legs. -/
def recordEntry (trade : Trade) (intent : Intent) (sizing : SizingResult) (result : EntryResult)
    (quoteFor : Option (String → Option QuoteSnapshot)) (chain : Option ChainCache) :
    Except PyError (Trade × List Leg) :=
  if !result.success then
    .ok ({ trade with
      status := .errored
      notes := { trade.notes with error := some (result.error.getD "entry_failed") } }, [])
  else
    let columns := perLotPremiumFromNet result.totalPremiumInr sizing.sizedLots
    let greeks := match quoteFor with
      | none => []
      | some q => greeksBySymbol (intent.legs.map LegIntent.symbol) q chain
    match result.fills.mapM (legRow trade.id intent sizing) with
    | .error e => .error e
    | .ok legs =>
      .ok ({ trade with
        premiumPaidInr := columns.1
        creditReceivedInr := columns.2
        notes := { trade.notes with entryGreeks := greeks } }, legs)

/-- Open a trade: write its row, send the entry, record what came back. An
    intent without legs raises. -/
def persistEntryAndExecute (execute : EntryRequest → EntryResult) (tradeId : Nat) (intent : Intent)
    (sizing : SizingResult) (market : MarketState)
    (quoteFor : Option (String → Option QuoteSnapshot)) (chain : Option ChainCache)
    (makerTimeoutSeconds : ℚ) : Except PyError (Trade × List Leg) :=
  match intent.legs with
  | [] => .error .indexError
  | first :: rest =>
    recordEntry (newTrade tradeId intent first rest sizing market) intent sizing
      (execute (entryRequest tradeId intent sizing makerTimeoutSeconds)) quoteFor chain

/-- The expiry a symbol encodes, or the present for a symbol that is none. -/
def expiryFromLegSymbol (symbol : String) (now : DateTime) : Except PyError DateTime :=
  (parseSymbol symbol).map (fun p => (p.map ParsedSymbol.expiry).getD now)

/-- The expiry of an open trade, from its row or its first leg. -/
def tradeExpiry (trade : Trade) (legs : List Leg) (now : DateTime) : Except PyError DateTime :=
  match trade.expiry, legs with
  | some e, _ => .ok e
  | none, leg :: _ => expiryFromLegSymbol leg.symbol now
  | none, [] => .ok now

/-- The view of one leg. It carries no side. -/
def legState (chain : ChainCache) (leg : Leg) : LegState :=
  { symbol := leg.symbol
    optionType := leg.optionType
    currentMid := (chain.getQuote leg.symbol).bind QuoteSnapshot.mid }

/-- The view of an open trade that the exit engine works on. -/
def tradeToPositionState (trade : Trade) (legs : List Leg) (chain : ChainCache)
    (now : DateTime) : Except PyError PositionState :=
  (tradeExpiry trade legs now).map (fun expiry =>
    { tradeId := trade.id
      strategyId := trade.strategyId
      underlying := trade.underlying
      expiry := expiry
      lots := trade.lots
      entryTs := trade.entryTs
      entryPremiumInr := trade.premiumPaidInr
      entryCreditInr := trade.creditReceivedInr
      entryUnderlyingPrice := trade.notes.entryUnderlyingPrice
      entryAtr := trade.notes.entryAtr
      currentStopPrice := trade.notes.currentStopPrice
      currentTrailStopPrice := trade.notes.currentTrailStopPrice
      peakPnlInr := trade.notes.peakPnlInr
      legStates := legs.map (legState chain)
      notes := trade.notes })

/-- The quotes of the open legs, as the tick carries them. -/
def quoteForOpen (chain : ChainCache) (openRows : List (Trade × List Leg)) (symbol : String) :
    Option QuoteSnapshot :=
  if openRows.any (fun row => row.2.any (fun leg => leg.symbol = symbol)) then
    chain.getQuote symbol
  else none

/-- A moved stop, in the notes of the trade. -/
def persistTrailStop (trade : Trade) (newStopPrice : ℚ) : Trade :=
  { trade with notes := { trade.notes with currentTrailStopPrice := some newStopPrice } }

/-- The unrealised profit of a single bought leg. -/
def estimateUnrealizedPnlInr (trade : Trade) (legs : List Leg) (chain : ChainCache) : Option ℚ :=
  match legs with
  | [leg] =>
    match leg.side, leg.entryPrice, (chain.getQuote leg.symbol).bind QuoteSnapshot.mid with
    | .buy, some entry, some mid => some ((mid - entry) * trade.lots)
    | _, _, _ => none
  | _ => none

/-- The notes of an open trade after a tick: the peak, if the tick has one. -/
def refreshOpenTradeNotes (trade : Trade) (legs : List Leg) (chain : ChainCache)
    (peakPnlInr : Option ℚ) : Trade :=
  match peakPnlInr.or (estimateUnrealizedPnlInr trade legs chain) with
  | none => trade
  | some peak =>
    { trade with
      notes :=
        { trade.notes with peakPnlInr := some (max (trade.notes.peakPnlInr.getD peak) peak) } }

/-- The intent that stands for a leg row in an exit request. -/
def exitLeg (trade : Trade) (now : DateTime) (leg : Leg) : Except PyError LegIntent :=
  let expiry : Except PyError DateTime := match trade.expiry with
    | some e => .ok e
    | none => expiryFromLegSymbol leg.symbol now
  expiry.map (fun e =>
    { symbol := leg.symbol, side := leg.side, optionType := leg.optionType.getD .call,
      strike := leg.strike.getD 0, expiry := e })

/-- The request that closes a trade, its legs in order. -/
def exitRequest (trade : Trade) (legs : List Leg) (trigger : ExitTrigger) (now : DateTime) :
    Except PyError ExitRequest :=
  match (legs.insertionSort (fun a b => a.legIdx ≤ b.legIdx)).mapM (exitLeg trade now) with
  | .error e => .error e
  | .ok intents =>
    .ok { strategyId := trade.strategyId, tradeId := trade.id, underlying := trade.underlying,
          legs := intents, lots := trade.lots.toNat, trigger := trigger }

/-- The profit a closed trade books. -/
def tradeRealisedPnl (trade : Trade) (result : ExitResult) : ℚ :=
  realisedPnlInr trade.premiumPaidInr trade.creditReceivedInr trade.lots result.fills

/-- The leg row of a closed trade, with the price of the first fill of its
    symbol. -/
def closedLeg (result : ExitResult) (leg : Leg) : Leg :=
  { leg with
    status := .closed
    exitPrice := (result.fills.find? (fun f => f.symbol = leg.symbol)).bind LegFill.avgFillPrice }

/-- Close a trade: the account value moves by the profit, and the rows are
    closed. A failed exit changes nothing. -/
def persistExit (execute : ExitRequest → ExitResult) (trade : Trade) (legs : List Leg)
    (trigger : ExitTrigger) (nav : NavTracker) (now : DateTime) :
    Except PyError (Trade × List Leg × NavTracker) :=
  match exitRequest trade legs trigger now with
  | .error e => .error e
  | .ok request =>
    let result := execute request
    if !result.success then .ok (trade, legs, nav)
    else
      let realised := tradeRealisedPnl trade result
      .ok ({ trade with status := .closed, exitTs := some (result.completedAt.getD now),
                        realisedPnlInr := some realised, exitReason := some trigger },
        legs.map (closedLeg result),
        { nav with navNow := nav.navNow + realised })

/-- Fresh notes do not change the status. -/
theorem refreshOpenTradeNotes_status (trade : Trade) (legs : List Leg) (chain : ChainCache)
    (peak : Option ℚ) :
    (refreshOpenTradeNotes trade legs chain peak).status = trade.status := by
  unfold refreshOpenTradeNotes
  split
  · rfl
  · rfl

/-- A trade has a view if it has an expiry, and then this one. -/
theorem tradeToPositionState_ok_iff (trade : Trade) (legs : List Leg) (chain : ChainCache)
    (now : DateTime) (p : PositionState) : tradeToPositionState trade legs chain now = .ok p ↔
      ∃ expiry, tradeExpiry trade legs now = .ok expiry ∧
        { tradeId := trade.id
          strategyId := trade.strategyId
          underlying := trade.underlying
          expiry := expiry
          lots := trade.lots
          entryTs := trade.entryTs
          entryPremiumInr := trade.premiumPaidInr
          entryCreditInr := trade.creditReceivedInr
          entryUnderlyingPrice := trade.notes.entryUnderlyingPrice
          entryAtr := trade.notes.entryAtr
          currentStopPrice := trade.notes.currentStopPrice
          currentTrailStopPrice := trade.notes.currentTrailStopPrice
          peakPnlInr := trade.notes.peakPnlInr
          legStates := legs.map (legState chain)
          notes := trade.notes : PositionState } = p := by
  unfold tradeToPositionState
  cases tradeExpiry trade legs now with
  | error e => simp only [Except.map, reduceCtorEq, false_and, exists_false]
  | ok expiry => simp only [Except.map, Except.ok.injEq, exists_eq_left']

/-- The view of a trade with an expiry has that expiry and the trade's columns. -/
theorem tradeToPositionState_open (trade : Trade) (legs : List Leg) (chain : ChainCache)
    (now expiry : DateTime) (h : trade.expiry = some expiry) :
    ∃ p, tradeToPositionState trade legs chain now = .ok p ∧ p.expiry = expiry ∧
      p.strategyId = trade.strategyId ∧ p.legStates = legs.map (legState chain) ∧
      p.notes = trade.notes := by
  have hexpiry : tradeExpiry trade legs now = .ok expiry := by
    unfold tradeExpiry
    rw [h]
  exact ⟨_, (tradeToPositionState_ok_iff _ _ _ _ _).mpr ⟨expiry, hexpiry, rfl⟩, rfl, rfl, rfl, rfl⟩

/-- What the view of a trade is made of. Its legs carry no side. -/
theorem tradeToPositionState_eq (trade : Trade) (legs : List Leg) (chain : ChainCache)
    (now : DateTime) (p : PositionState) (h : tradeToPositionState trade legs chain now = .ok p) :
    p.strategyId = trade.strategyId ∧ p.entryPremiumInr = trade.premiumPaidInr ∧
      p.entryCreditInr = trade.creditReceivedInr ∧ p.legStates = legs.map (legState chain) ∧
      p.notes = trade.notes := by
  rcases (tradeToPositionState_ok_iff _ _ _ _ _).mp h with ⟨expiry, _, rfl⟩
  exact ⟨rfl, rfl, rfl, rfl, rfl⟩

/-- What an entry leaves: an errored trade without legs if it failed, and otherwise the columns of
    its net total and a row for each fill. -/
theorem recordEntry_cases (trade : Trade) (intent : Intent) (sizing : SizingResult)
    (result : EntryResult) (quoteFor : Option (String → Option QuoteSnapshot))
    (chain : Option ChainCache) (rows : Trade × List Leg)
    (h : recordEntry trade intent sizing result quoteFor chain = .ok rows) :
    (result.success = false ∧
      rows = ({ trade with
        status := .errored
        notes := { trade.notes with error := some (result.error.getD "entry_failed") } }, [])) ∨
      (result.success = true ∧
        (∃ greeks, rows.1 = { trade with
          premiumPaidInr := (perLotPremiumFromNet result.totalPremiumInr sizing.sizedLots).1
          creditReceivedInr := (perLotPremiumFromNet result.totalPremiumInr sizing.sizedLots).2
          notes := { trade.notes with entryGreeks := greeks } }) ∧
        result.fills.mapM (legRow trade.id intent sizing) = .ok rows.2) := by
  unfold recordEntry at h
  cases hsuccess : result.success with
  | false =>
      rw [hsuccess, Bool.not_false, if_pos rfl, Except.ok.injEq] at h
      exact Or.inl ⟨rfl, h.symm⟩
  | true =>
      rw [hsuccess, Bool.not_true, if_neg Bool.false_ne_true] at h
      simp only at h
      cases hlegs : result.fills.mapM (legRow trade.id intent sizing) with
      | error e =>
          rw [hlegs] at h
          cases h
      | ok legs =>
          rw [hlegs] at h
          cases h
          exact Or.inr ⟨rfl, ⟨_, rfl⟩, rfl⟩

/-- Recording an entry keeps what says which trade it is, and leaves it as it is or errored. -/
theorem recordEntry_frame (trade : Trade) (intent : Intent) (sizing : SizingResult)
    (result : EntryResult) (quoteFor : Option (String → Option QuoteSnapshot))
    (chain : Option ChainCache) (rows : Trade × List Leg)
    (h : recordEntry trade intent sizing result quoteFor chain = .ok rows) :
    rows.1.id = trade.id ∧ rows.1.strategyId = trade.strategyId ∧
      rows.1.underlying = trade.underlying ∧ rows.1.expiry = trade.expiry ∧
      (rows.1.status = .errored ∨ rows.1.status = trade.status) := by
  rcases recordEntry_cases trade intent sizing result quoteFor chain rows h with
    ⟨_, rfl⟩ | ⟨_, ⟨greeks, hrow⟩, _⟩
  · exact ⟨rfl, rfl, rfl, rfl, Or.inl rfl⟩
  · rw [hrow]
    exact ⟨rfl, rfl, rfl, rfl, Or.inr rfl⟩

/-- The rows of an entry that succeeded carry the columns of its net total. -/
theorem recordEntry_success (trade : Trade) (intent : Intent) (sizing : SizingResult)
    (result : EntryResult) (quoteFor : Option (String → Option QuoteSnapshot))
    (chain : Option ChainCache) (rows : Trade × List Leg)
    (h : recordEntry trade intent sizing result quoteFor chain = .ok rows)
    (hsuccess : result.success = true) :
    (∃ greeks, rows.1 = { trade with
      premiumPaidInr := (perLotPremiumFromNet result.totalPremiumInr sizing.sizedLots).1
      creditReceivedInr := (perLotPremiumFromNet result.totalPremiumInr sizing.sizedLots).2
      notes := { trade.notes with entryGreeks := greeks } }) ∧
      result.fills.mapM (legRow trade.id intent sizing) = .ok rows.2 := by
  rcases recordEntry_cases trade intent sizing result quoteFor chain rows h with
    ⟨hfailed, _⟩ | ⟨_, hrows⟩
  · rw [hsuccess] at hfailed
    cases hfailed
  · exact hrows

/-- A trade is opened on an intent with legs, and is what recording its entry makes of the new
    row. -/
theorem persistEntryAndExecute_ok (execute : EntryRequest → EntryResult) (tradeId : Nat)
    (intent : Intent) (sizing : SizingResult) (market : MarketState)
    (quoteFor : Option (String → Option QuoteSnapshot)) (chain : Option ChainCache)
    (makerTimeoutSeconds : ℚ) (rows : Trade × List Leg)
    (h : persistEntryAndExecute execute tradeId intent sizing market quoteFor chain
      makerTimeoutSeconds = .ok rows) :
    ∃ first rest, intent.legs = first :: rest ∧
      recordEntry (newTrade tradeId intent first rest sizing market) intent sizing
        (execute (entryRequest tradeId intent sizing makerTimeoutSeconds)) quoteFor chain =
          .ok rows := by
  unfold persistEntryAndExecute at h
  cases hlegs : intent.legs with
  | nil =>
      rw [hlegs] at h
      cases h
  | cons first rest =>
      rw [hlegs] at h
      exact ⟨first, rest, rfl, h⟩

/-- A trade that is opened has the id it was given, and is open or errored. -/
theorem persistEntryAndExecute_row (execute : EntryRequest → EntryResult) (tradeId : Nat)
    (intent : Intent) (sizing : SizingResult) (market : MarketState)
    (quoteFor : Option (String → Option QuoteSnapshot)) (chain : Option ChainCache)
    (makerTimeoutSeconds : ℚ) (row : Trade × List Leg)
    (h : persistEntryAndExecute execute tradeId intent sizing market quoteFor chain
      makerTimeoutSeconds = .ok row) : row.1.id = tradeId ∧ row.1.status ≠ .closed := by
  rcases persistEntryAndExecute_ok _ _ _ _ _ _ _ _ row h with ⟨first, rest, _, hrecord⟩
  rcases recordEntry_frame _ _ _ _ _ _ row hrecord with ⟨hid, _, _, _, hstatus⟩
  refine ⟨hid, ?_⟩
  rcases hstatus with herrored | hnew
  · rw [herrored]
    exact TradeStatus.noConfusion
  · rw [hnew]
    exact TradeStatus.noConfusion

/-- A failed exit changes nothing. A successful one closes the rows and moves the
    account value by the profit the trade row shows. -/
theorem persistExit_cases (execute : ExitRequest → ExitResult) (trade trade' : Trade)
    (legs legs' : List Leg) (trigger : ExitTrigger) (nav nav' : NavTracker) (now : DateTime)
    (h : persistExit execute trade legs trigger nav now = .ok (trade', legs', nav')) :
    ∃ request, exitRequest trade legs trigger now = .ok request ∧
      ((execute request).success = false ∧ trade' = trade ∧ legs' = legs ∧ nav' = nav ∨
        (execute request).success = true ∧
          trade' = { trade with
            status := .closed
            exitTs := some ((execute request).completedAt.getD now)
            realisedPnlInr := some (tradeRealisedPnl trade (execute request))
            exitReason := some trigger } ∧
          legs' = legs.map (closedLeg (execute request)) ∧
          nav' = { nav with
            navNow := nav.navNow + tradeRealisedPnl trade (execute request) }) := by
  unfold persistExit at h
  split at h
  · cases h
  · next request hrequest =>
    refine ⟨request, hrequest, ?_⟩
    simp only at h
    split_ifs at h with hsuccess
    · cases h
      rw [Bool.not_eq_true'] at hsuccess
      exact Or.inl ⟨hsuccess, rfl, rfl, rfl⟩
    · cases h
      rw [Bool.not_eq_true', Bool.not_eq_false] at hsuccess
      exact Or.inr ⟨hsuccess, rfl, rfl, rfl⟩

end OptionsBot
