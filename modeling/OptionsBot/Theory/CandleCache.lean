import OptionsBot.Core.Optimize

/-!
# The Candles an Attempt is Given

Both reports keep the candles they have fetched under a symbol and the two dates of
the window they were fetched for. A later attempt with the same symbol and dates is
given those, whatever the hours of its own window are. So what an attempt is given is
the window of the first attempt with its key.

Where the two windows have the same candles in them it makes no difference. Where they
do not, one candle that only one of them has is enough for the attempt to have a row
from its own window and none from the other, or the reverse.

The candles there are at all may be limited to some times, such as the quarters of an
hour.

## Main definitions

* `exchangeOf`: An exchange that returns exactly the candles of a window.
* `SameTimes`: Two windows with the same candle times in them.
* `ownRows`, `ownPaths`: The results with each window fetched by itself.
* `AttemptsAgree`, `TradesAgree`: Each window has the times of its key's first one.

## Theorems

* `movementRows_eq`, `paths_foldl`: What the two loops compute.
* `analyzeMovement_single`, `analyzeTradePath_dd`: The results from one candle.
* `ownRows_iff`, `ownPaths_of_agree`, `underlying_of_ownPaths`, `agree_of_ownPaths`: When the
  cache does not show.
* `candle_cache_iff`: The two reports.
-/

namespace OptionsBot

-- The sample runs below compute with rationals.
attribute [local semireducible] Rat.add Rat.sub Rat.mul Rat.inv

/-- The candles a symbol has had. -/
abbrev PriceHistory := String → List CandleRow

/-- An exchange that returns exactly the candles inside the requested window. -/
def exchangeOf (history : PriceHistory) (positions : Except String (List ListedPosition))
    (orders : Option String → Except String (List ListedOrder)) : DeltaRest :=
  { getCandles := fun symbol start stop => .ok ((history symbol).filter (fun c =>
      decide (start ≤ c.candleTime ∧ c.candleTime ≤ stop)))
    getPositions := positions
    getOrders := orders }

/-- All candles are at the given times. -/
def OnTimes (times : Int → Prop) (history : PriceHistory) : Prop :=
  ∀ symbol, ∀ c ∈ history symbol, times c.candleTime

section Windows

variable (host : DateTime → Int) (times : Int → Prop)

/-- A candle's time is inside a window, as the request has its ends. -/
def InWindow (window : DateTime × DateTime) (t : Int) : Prop :=
  intTimestamp host window.1 ≤ t ∧ t ≤ intTimestamp host window.2

/-- Two windows with the same candle times in them. -/
def SameTimes (window other : DateTime × DateTime) : Prop :=
  ∀ t, times t → (InWindow host window t ↔ InWindow host other t)

/-- The candles fetched for a window. -/
def windowCandles (rest : DeltaRest) (symbol : String) (window : DateTime × DateTime) :
    List CandleRow :=
  ((fetchCandles host rest symbol window.1 window.2).toOption).getD []

variable (history : PriceHistory) (positions : Except String (List ListedPosition))
  (orders : Option String → Except String (List ListedOrder))

theorem windowCandles_eq (symbol : String) (window : DateTime × DateTime) :
    windowCandles host (exchangeOf history positions orders) symbol window =
      ((history symbol).filter (fun c => decide (intTimestamp host window.1 ≤ c.candleTime ∧
        c.candleTime ≤ intTimestamp host window.2))).insertionSort
        (fun a b => a.candleTime ≤ b.candleTime) := rfl

theorem windowCandles_same (htimes : OnTimes times history) (symbol : String)
    (window other : DateTime × DateTime) (h : SameTimes host times window other) :
    windowCandles host (exchangeOf history positions orders) symbol window =
      windowCandles host (exchangeOf history positions orders) symbol other := by
  rw [windowCandles_eq, windowCandles_eq]
  congr 1
  apply List.filter_congr
  intro c hc
  exact decide_eq_decide.mpr (h c.candleTime (htimes symbol c hc))

/-- A history of one candle gives a window that candle or nothing. -/
theorem windowCandles_single (symbol : String) (window : DateTime × DateTime) (c : CandleRow)
    (h : history symbol = [c]) :
    (InWindow host window c.candleTime →
      windowCandles host (exchangeOf history positions orders) symbol window = [c]) ∧
    (¬ InWindow host window c.candleTime →
      windowCandles host (exchangeOf history positions orders) symbol window = []) := by
  rw [windowCandles_eq, h]
  constructor
  · intro hin
    rw [List.filter_cons_of_pos (by simpa [InWindow] using hin)]
    rfl
  · intro hout
    rw [List.filter_cons_of_neg (by simpa [InWindow] using hout)]
    rfl

end Windows

/-- A candle at a time, with a price. -/
def candleAt (t : Int) : CandleRow := { time := some t, close := some 1 }

theorem candleTime_candleAt (t : Int) : (candleAt t).candleTime = t := by
  simp only [CandleRow.candleTime, candleAt, truncate]
  split_ifs
  · exact Int.floor_intCast t
  · rw [← Int.cast_neg, Int.floor_intCast, Int.neg_neg]

section Postmortem

variable (host : DateTime → Int)

/-- The symbol an attempt's candles are asked for. -/
def candleSymbol (underlying : String) : String :=
  (underlyingCandleSymbol.lookup underlying).getD ""

/-- The attempts on an underlying that has candles. -/
def knownAttempts (attempts : List TradeAttempt) : List TradeAttempt :=
  attempts.filter (fun a => (underlyingCandleSymbol.lookup a.underlying).isSome)

def attemptKey (a : TradeAttempt) : CandleKey := a.cacheKey (candleSymbol a.underlying)

/-- The candles of an attempt's own window. -/
def attemptCandles (rest : DeltaRest) (a : TradeAttempt) : List CandleRow :=
  windowCandles host rest (candleSymbol a.underlying) a.window

/-- The rows with each window fetched by itself. -/
def ownRows (rest : DeltaRest) (attempts : List TradeAttempt) : List MovementRow :=
  (knownAttempts attempts).filterMap (fun a => analyzeMovement host a (attemptCandles host rest a))

/-- The candles of the first attempt with the key. -/
def keptCandles (rest : DeltaRest) (known : List TradeAttempt) (a : TradeAttempt) :
    List CandleRow :=
  ((Memo.leader attemptKey known (attemptKey a)).map (attemptCandles host rest)).getD []

/-- Each attempt's window has the candle times of the first one with its key. -/
def AttemptsAgree (times : Int → Prop) (attempts : List TradeAttempt) : Prop :=
  ∀ a ∈ knownAttempts attempts, ∀ first,
    Memo.leader attemptKey (knownAttempts attempts) (attemptKey a) = some first →
      SameTimes host times a.window first.window

variable (rest : DeltaRest) (fetchExchange : Bool)

theorem attempt_unknown (r : PostmortemReport) (a : TradeAttempt)
    (h : underlyingCandleSymbol.lookup a.underlying = none) :
    (r.attempt host rest fetchExchange a).candleCache = r.candleCache ∧
      (r.attempt host rest fetchExchange a).movementRows = r.movementRows := by
  simp only [PostmortemReport.attempt, h, and_self]

theorem attempt_known (r : PostmortemReport) (a : TradeAttempt) (sym : String)
    (h : underlyingCandleSymbol.lookup a.underlying = some sym) :
    (r.attempt host rest fetchExchange a).candleCache =
        Memo.keep (attemptKey a) (attemptCandles host rest a) r.candleCache ∧
      (r.attempt host rest fetchExchange a).movementRows = r.movementRows ++
        (analyzeMovement host a ((Memo.entry (attemptKey a)
          (r.attempt host rest fetchExchange a).candleCache).getD [])).toList := by
  simp only [PostmortemReport.attempt, h, attemptKey, candleSymbol, attemptCandles,
    Option.getD_some,
    CandleStore.fetch, CandleStore.candles, windowCandles, and_self]

/-- The loop analyses each attempt with the candles of the first one with its key. -/
theorem movementRows_foldl (attempts seen : List TradeAttempt) (r : PostmortemReport)
    (h : Memo.Holds attemptKey (attemptCandles host rest) seen r.candleCache) :
    (attempts.foldl (PostmortemReport.attempt host rest fetchExchange) r).movementRows =
      r.movementRows ++ (knownAttempts attempts).filterMap (fun a =>
        analyzeMovement host a (keptCandles host rest (seen ++ knownAttempts attempts) a)) := by
  induction attempts generalizing seen r with
  | nil => simp [knownAttempts]
  | cons a later ih =>
      rw [List.foldl_cons]
      cases hsym : underlyingCandleSymbol.lookup a.underlying with
      | none =>
          rcases attempt_unknown host rest fetchExchange r a hsym with ⟨hcache, hrows⟩
          have hknown : knownAttempts (a :: later) = knownAttempts later := by
            simp [knownAttempts, hsym]
          rw [ih seen _ (by rw [hcache]; exact h), hrows, hknown]
      | some sym =>
          rcases attempt_known host rest fetchExchange r a sym hsym with ⟨hcache, hrows⟩
          have hknown : knownAttempts (a :: later) = a :: knownAttempts later := by
            simp [knownAttempts, hsym]
          have hkept := Memo.holds_keep attemptKey (attemptCandles host rest) seen r.candleCache a h
          rw [← hcache] at hkept
          have hread := hkept.reads attemptKey (attemptCandles host rest) (knownAttempts later)
          rw [ih (seen ++ [a]) _ hkept, hrows, hread, hknown, List.append_assoc]
          simp only [List.append_assoc, List.singleton_append, List.filterMap_cons, keptCandles]
          cases analyzeMovement host a (((Memo.leader attemptKey (seen ++ a :: knownAttempts later)
            (attemptKey a)).map (attemptCandles host rest)).getD []) with
          | none => rfl
          | some row => rfl

theorem movementRows_eq (loaded : List TradeAttempt) (dedupe : Bool) (maxSamples : Int) :
    (buildReport host rest fetchExchange loaded dedupe maxSamples).movementRows =
      (knownAttempts (sampledAttempts host loaded dedupe maxSamples)).filterMap (fun a =>
        analyzeMovement host a (keptCandles host rest
          (knownAttempts (sampledAttempts host loaded dedupe maxSamples)) a)) := by
  have hcache : (positionsReport rest fetchExchange).candleCache = [] := by
    unfold positionsReport
    split_ifs
    · cases rest.getPositions with
      | error e => rfl
      | ok rows => rfl
    · rfl
  have hrows : (positionsReport rest fetchExchange).movementRows = [] := by
    unfold positionsReport
    split_ifs
    · cases rest.getPositions with
      | error e => rfl
      | ok rows => rfl
    · rfl
  unfold buildReport
  rw [movementRows_foldl host rest fetchExchange _ [] _ (by
    simp only [hcache]
    exact Memo.holds_nil attemptKey (attemptCandles host rest))]
  simp only [hrows, List.nil_append]

theorem analyzeMovement_attempt (a : TradeAttempt) (candles : List CandleRow) (row : MovementRow)
    (h : analyzeMovement host a candles = some row) : row.attempt = a := by
  unfold analyzeMovement at h
  simp only [Option.bind_eq_bind, Option.bind_eq_some_iff] at h
  rcases h with ⟨spot, -, h⟩
  split_ifs at h
  rcases h with h
  simp only [Option.bind_eq_some_iff] at h
  rcases h with ⟨idx, -, h⟩
  cases h
  rfl

end Postmortem

/-- A price of one is found for an entry from a candle that closes there. -/
theorem entrySpotOf_single (host : DateTime → Int) (spot : Option ℚ) (t : Int)
    (entryTs : DateTime) :
    ∃ price, entrySpotOf host spot [candleAt t] entryTs = some price ∧ 0 < price := by
  have hfallback : entrySpotOf.fallback host [candleAt t] entryTs = some 1 := by
    simp [entrySpotOf.fallback, nearestCandleIndex, nearestFrom, candleAt, orFloat]
  unfold entrySpotOf
  cases spot with
  | none => exact ⟨1, hfallback, one_pos⟩
  | some v =>
      by_cases hv : v ≤ 0
      · simp only [if_pos hv]
        exact ⟨1, hfallback, one_pos⟩
      · simp only [if_neg hv]
        exact ⟨v, rfl, not_le.mp hv⟩

theorem nearest_single (host : DateTime → Int) (t : Int) (entryTs : DateTime) :
    nearestCandleIndex host [candleAt t] entryTs = some 0 := by
  simp [nearestCandleIndex, nearestFrom]

/-- The history of one candle, of one symbol. -/
def loneCandle (symbol : String) (t : Int) : PriceHistory :=
  fun s => if s = symbol then [candleAt t] else []

theorem loneCandle_onTimes (times : Int → Prop) (symbol : String) (t : Int) (ht : times t) :
    OnTimes times (loneCandle symbol t) := by
  intro s c hc
  unfold loneCandle at hc
  split_ifs at hc
  · rw [List.mem_singleton.mp hc, candleTime_candleAt]
    exact ht
  · exact absurd hc List.not_mem_nil

/-- The history of one candle each, of two symbols. -/
def loneCandles (symbol other : String) (t u : Int) : PriceHistory :=
  fun s => if s = symbol then [candleAt t] else if s = other then [candleAt u] else []

theorem loneCandles_onTimes (times : Int → Prop) (symbol other : String) (t u : Int)
    (ht : times t) (hu : times u) : OnTimes times (loneCandles symbol other t u) := by
  intro s c hc
  unfold loneCandles at hc
  split_ifs at hc
  · rw [List.mem_singleton.mp hc, candleTime_candleAt]
    exact ht
  · rw [List.mem_singleton.mp hc, candleTime_candleAt]
    exact hu
  · exact absurd hc List.not_mem_nil

/-- What holds of one candle and not of nothing tells apart two windows of which only
    one has the candle. -/
theorem lone_window_iff (host : DateTime → Int) (history : PriceHistory)
    (positions : Except String (List ListedPosition))
    (orders : Option String → Except String (List ListedOrder)) (symbol : String) (t : Int)
    (hlone : history symbol = [candleAt t]) (window other : DateTime × DateTime)
    (P Q : List CandleRow → Prop) (hP : P [candleAt t] ∧ ¬ P []) (hQ : Q [candleAt t] ∧ ¬ Q [])
    (h : P (windowCandles host (exchangeOf history positions orders) symbol window) ↔
      Q (windowCandles host (exchangeOf history positions orders) symbol other)) :
    InWindow host window t ↔ InWindow host other t := by
  have hcandles := fun w => windowCandles_single host history positions orders symbol w
    (candleAt t) hlone
  simp only [candleTime_candleAt] at hcandles
  by_cases hin : InWindow host window t
  · by_cases hin' : InWindow host other t
    · exact iff_of_true hin hin'
    · rw [(hcandles window).1 hin, (hcandles other).2 hin'] at h
      exact absurd (h.mp hP.1) hQ.2
  · by_cases hin' : InWindow host other t
    · rw [(hcandles window).2 hin, (hcandles other).1 hin'] at h
      exact absurd (h.mpr hQ.1) hP.2
    · exact iff_of_false hin hin'

section Attempts

variable (host : DateTime → Int)

/-- The first attempt with a key has its candles from the same symbol. -/
theorem leader_symbol (known : List TradeAttempt) (a first : TradeAttempt)
    (h : Memo.leader attemptKey known (attemptKey a) = some first) :
    candleSymbol first.underlying = candleSymbol a.underlying := by
  have hkey : attemptKey first = attemptKey a := by
    simpa using List.find?_some h
  exact congrArg Prod.fst hkey

/-- Without candles there is no row. -/
theorem analyzeMovement_nil (a : TradeAttempt) : analyzeMovement host a [] = none := by
  simp only [analyzeMovement, nearestCandleIndex]
  cases entrySpotOf host a.spotAtSignal [] a.entryTs with
  | none => rfl
  | some spot => simp

/-- From one candle there is a row. -/
theorem analyzeMovement_single (a : TradeAttempt) (t : Int) :
    (analyzeMovement host a [candleAt t]).isSome := by
  rcases entrySpotOf_single host a.spotAtSignal t a.entryTs with ⟨spot, hspot, hpos⟩
  simp [analyzeMovement, hspot, nearest_single, not_le.mpr hpos]

/-- The cache does not show in the rows, on any history, if each attempt's window has
    the candle times of the first one with its key. -/
theorem ownRows_iff (times : Int → Prop) (positions : Except String (List ListedPosition))
    (orders : Option String → Except String (List ListedOrder)) (fetchExchange : Bool)
    (loaded : List TradeAttempt) (dedupe : Bool) (maxSamples : Int) :
    (∀ history, OnTimes times history →
      (buildReport host (exchangeOf history positions orders) fetchExchange loaded dedupe
        maxSamples).movementRows = ownRows host (exchangeOf history positions orders)
          (sampledAttempts host loaded dedupe maxSamples)) ↔
    AttemptsAgree host times (sampledAttempts host loaded dedupe maxSamples) := by
  simp only [movementRows_eq, ownRows, AttemptsAgree]
  generalize knownAttempts (sampledAttempts host loaded dedupe maxSamples) = known
  have htag := fun history => Memo.filterMap_eq_iff MovementRow.attempt
    (fun a => analyzeMovement host a
      (keptCandles host (exchangeOf history positions orders) known a))
    (fun a => analyzeMovement host a
      (attemptCandles host (exchangeOf history positions orders) a))
    (fun a row => analyzeMovement_attempt host a _ row)
    (fun a row => analyzeMovement_attempt host a _ row) known
  constructor
  · intro h a ha first hfirst t ht
    have hsame := leader_symbol known a first hfirst
    -- The only candle there ever was is at the time in question.
    have hrow := (htag (loneCandle (candleSymbol a.underlying) t)).mp
      (h _ (loneCandle_onTimes times _ t ht)) a ha
    simp only [keptCandles, hfirst, Option.map_some, Option.getD_some, attemptCandles, hsame]
      at hrow
    have hresult : (analyzeMovement host a [candleAt t]).isSome ∧
        ¬ (analyzeMovement host a []).isSome := by
      refine ⟨analyzeMovement_single host a t, ?_⟩
      rw [analyzeMovement_nil]
      exact Bool.false_ne_true
    exact lone_window_iff host _ positions orders _ t (if_pos rfl) a.window first.window
      (fun candles => (analyzeMovement host a candles).isSome)
      (fun candles => (analyzeMovement host a candles).isSome) hresult hresult (by rw [hrow])
  · intro h history htimes
    refine (htag history).mpr (fun a ha => ?_)
    rcases Memo.leader_isSome attemptKey known a ha with ⟨first, -, hfirst, -⟩
    have hsame := leader_symbol known a first hfirst
    simp only [keptCandles, hfirst, Option.map_some, Option.getD_some, attemptCandles, hsame]
    rw [windowCandles_same host times history positions orders htimes _ a.window first.window
      (h a ha first hfirst)]

end Attempts

section Study

variable (host : DateTime → Int)

/-- The trades on an underlying that has candles, and those of them with an option. -/
def knownTrades (trades : List FilledTrade) : List FilledTrade :=
  trades.filter (fun t => (underlyingCandleSymbol.lookup t.underlying).isSome)

def optionTrades (trades : List FilledTrade) : List FilledTrade :=
  trades.filter (fun t => t.symbol ≠ "")

def tradeKey (t : FilledTrade) : CandleKey := t.cacheKey (candleSymbol t.underlying)

def optionKey (t : FilledTrade) : CandleKey := t.cacheKey t.symbol

variable (rest : DeltaRest)

def underlyingCandles (t : FilledTrade) : List CandleRow :=
  windowCandles host rest (candleSymbol t.underlying) t.window

def optionCandles (t : FilledTrade) : List CandleRow := windowCandles host rest t.symbol t.window

/-- The analyses with each window fetched by itself. -/
def ownPaths (trades : List FilledTrade) : List TradePathAnalysis :=
  (knownTrades trades).filterMap (fun t => analyzeTradePath host t (underlyingCandles host rest t)
    (if t.symbol = "" then [] else optionCandles host rest t))

/-- The candles of the first trade with the key, of either cache. -/
def keptUnderlying (known : List FilledTrade) (t : FilledTrade) : List CandleRow :=
  ((Memo.leader tradeKey known (tradeKey t)).map (underlyingCandles host rest)).getD []

def keptOption (known : List FilledTrade) (t : FilledTrade) : List CandleRow :=
  if t.symbol = "" then []
  else ((Memo.leader optionKey (optionTrades known) (optionKey t)).map
    (optionCandles host rest)).getD []

theorem trade_unknown (r : OptimizationReport) (t : FilledTrade)
    (h : underlyingCandleSymbol.lookup t.underlying = none) :
    (r.trade host rest t).uCache = r.uCache ∧ (r.trade host rest t).oCache = r.oCache ∧
      (r.trade host rest t).paths = r.paths := by
  simp only [OptimizationReport.trade, h, and_self]

theorem trade_known (r : OptimizationReport) (t : FilledTrade) (sym : String)
    (h : underlyingCandleSymbol.lookup t.underlying = some sym) :
    (r.trade host rest t).uCache =
        Memo.keep (tradeKey t) (underlyingCandles host rest t) r.uCache ∧
      (r.trade host rest t).oCache = (if t.symbol = "" then r.oCache
        else Memo.keep (optionKey t) (optionCandles host rest t) r.oCache) ∧
      (r.trade host rest t).paths = r.paths ++ (analyzeTradePath host t
        ((Memo.entry (tradeKey t) (r.trade host rest t).uCache).getD [])
        (if t.symbol = "" then []
          else (Memo.entry (optionKey t) (r.trade host rest t).oCache).getD [])).toList := by
  simp only [OptimizationReport.trade, h, tradeKey, optionKey, candleSymbol, underlyingCandles,
    optionCandles, Option.getD_some, CandleStore.fetch, CandleStore.candles, windowCandles,
    and_self]

/-- A trade without an option leaves the second cache alone, and is given no candles
    from it. -/
theorem optionCache_step (r : OptimizationReport) (t : FilledTrade) (sym : String)
    (h : underlyingCandleSymbol.lookup t.underlying = some sym) (seen later : List FilledTrade)
    (ho : Memo.Holds optionKey (optionCandles host rest) (optionTrades seen) r.oCache) :
    Memo.Holds optionKey (optionCandles host rest) (optionTrades (seen ++ [t]))
        (r.trade host rest t).oCache ∧
      (if t.symbol = "" then []
        else (Memo.entry (optionKey t) (r.trade host rest t).oCache).getD []) =
      keptOption host rest (seen ++ t :: later) t := by
  rcases trade_known host rest r t sym h with ⟨-, hcache, -⟩
  unfold keptOption
  by_cases hsymbol : t.symbol = ""
  · rw [if_pos hsymbol] at hcache
    have hnone : optionTrades (seen ++ [t]) = optionTrades seen := by
      simp [optionTrades, hsymbol]
    rw [hcache, hnone, if_pos hsymbol, if_pos hsymbol]
    exact ⟨ho, rfl⟩
  · rw [if_neg hsymbol] at hcache
    have hone : optionTrades (seen ++ [t]) = optionTrades seen ++ [t] := by
      simp [optionTrades, hsymbol]
    have hall : optionTrades (seen ++ t :: later) =
        optionTrades seen ++ t :: optionTrades later := by
      simp [optionTrades, hsymbol]
    have hkept := Memo.holds_keep optionKey (optionCandles host rest) _ r.oCache t ho
    rw [← hcache] at hkept
    rw [hone, if_neg hsymbol, if_neg hsymbol, hall,
      hkept.reads optionKey (optionCandles host rest) (optionTrades later)]
    exact ⟨hkept, rfl⟩

/-- The loop analyses each trade with the candles of the first ones with its keys. -/
theorem paths_foldl (trades seen : List FilledTrade) (r : OptimizationReport)
    (hu : Memo.Holds tradeKey (underlyingCandles host rest) seen r.uCache)
    (ho : Memo.Holds optionKey (optionCandles host rest) (optionTrades seen) r.oCache) :
    (trades.foldl (OptimizationReport.trade host rest) r).paths =
      r.paths ++ (knownTrades trades).filterMap (fun t => analyzeTradePath host t
        (keptUnderlying host rest (seen ++ knownTrades trades) t)
        (keptOption host rest (seen ++ knownTrades trades) t)) := by
  induction trades generalizing seen r with
  | nil => simp [knownTrades]
  | cons t later ih =>
      rw [List.foldl_cons]
      cases hsym : underlyingCandleSymbol.lookup t.underlying with
      | none =>
          rcases trade_unknown host rest r t hsym with ⟨hcacheU, hcacheO, hpaths⟩
          have hknown : knownTrades (t :: later) = knownTrades later := by
            simp [knownTrades, hsym]
          rw [ih seen _ (by rw [hcacheU]; exact hu) (by rw [hcacheO]; exact ho), hpaths, hknown]
      | some sym =>
          rcases trade_known host rest r t sym hsym with ⟨hcacheU, hcacheO, hpaths⟩
          have hknown : knownTrades (t :: later) = t :: knownTrades later := by
            simp [knownTrades, hsym]
          have hkeptU := Memo.holds_keep tradeKey (underlyingCandles host rest) seen r.uCache t hu
          rw [← hcacheU] at hkeptU
          have hreadU : (Memo.entry (tradeKey t) (r.trade host rest t).uCache).getD [] =
              keptUnderlying host rest (seen ++ t :: knownTrades later) t := by
            rw [hkeptU.reads tradeKey (underlyingCandles host rest) (knownTrades later)]
            rfl
          rcases optionCache_step host rest r t sym hsym seen (knownTrades later) ho
            with ⟨hkeptO, hreadO⟩
          rw [ih (seen ++ [t]) _ hkeptU hkeptO, hpaths, hreadU, hreadO, hknown, List.append_assoc]
          simp only [List.append_assoc, List.singleton_append, List.filterMap_cons]
          cases analyzeTradePath host t
            (keptUnderlying host rest (seen ++ t :: knownTrades later) t)
            (keptOption host rest (seen ++ t :: knownTrades later) t) with
          | none => rfl
          | some row => rfl

variable (times : Int → Prop)

/-- Each trade's window has the candle times of the first one with its key, and where it
    has any, of the first one with the key of its option. -/
structure TradesAgree (trades : List FilledTrade) : Prop where
  underlying : ∀ t ∈ knownTrades trades, ∀ first,
    Memo.leader tradeKey (knownTrades trades) (tradeKey t) = some first →
      SameTimes host times t.window first.window
  option : ∀ t ∈ knownTrades trades, t.symbol ≠ "" →
    (∃ u, times u ∧ InWindow host t.window u) → ∀ first,
      Memo.leader optionKey (optionTrades (knownTrades trades)) (optionKey t) = some first →
        SameTimes host times t.window first.window

/-- Without candles of the underlying there is no analysis. -/
theorem analyzeTradePath_nil (t : FilledTrade) (option : List CandleRow) :
    analyzeTradePath host t [] option = none := rfl

/-- From one candle of the underlying there is an analysis, and it has a fall of the
    premium if there is a candle of the option. -/
theorem analyzeTradePath_dd (t : FilledTrade) (u : Int) (option : List CandleRow) :
    ∃ row, analyzeTradePath host t [candleAt u] option = some row ∧ row.trade = t ∧
      row.premiumDdPctMax = ((nearestCandleIndex host option t.entryTs).map
        (premiumDdFromCandles option)).elim none Prod.fst := by
  rcases entrySpotOf_single host t.spotAtEntry u t.entryTs with ⟨spot, hspot, hpos⟩
  rcases hrow : analyzeTradePath host t [candleAt u] option with _ | row
  all_goals simp only [analyzeTradePath, nearest_single, hspot, Option.bind_eq_bind,
    Option.bind_some, if_neg (not_le.mpr hpos), ite_self] at hrow
  · cases hrow
  · cases hrow
    refine ⟨_, rfl, rfl, ?_⟩
    cases nearestCandleIndex host option t.entryTs with
    | none => rfl
    | some idx => rfl

theorem analyzeTradePath_trade (t : FilledTrade) (underlying option : List CandleRow)
    (row : TradePathAnalysis) (h : analyzeTradePath host t underlying option = some row) :
    row.trade = t := by
  unfold analyzeTradePath at h
  simp only [Option.bind_eq_bind, Option.bind_eq_some_iff] at h
  rcases h with ⟨idx, -, spot, -, h⟩
  split_ifs at h
  all_goals
    simp only [Option.bind_eq_some_iff] at h
    rcases h with ⟨exitIdx, -, h⟩
    cases h
    rfl

theorem analyzeTradePath_isSome (t : FilledTrade) (u : Int) (option : List CandleRow) :
    (analyzeTradePath host t [candleAt u] option).isSome := by
  rcases analyzeTradePath_dd host t u option with ⟨row, hrow, -, -⟩
  rw [hrow]
  rfl

/-- The two caches show in no path exactly if they show for no trade. -/
theorem ownPaths_iff (trades : List FilledTrade) :
    (trades.foldl (OptimizationReport.trade host rest) { trades := trades }).paths =
        ownPaths host rest trades ↔
      ∀ t ∈ knownTrades trades,
        analyzeTradePath host t (keptUnderlying host rest (knownTrades trades) t)
            (keptOption host rest (knownTrades trades) t) =
          analyzeTradePath host t (underlyingCandles host rest t)
            (if t.symbol = "" then [] else optionCandles host rest t) := by
  rw [paths_foldl host rest trades [] { trades := trades } (Memo.holds_nil _ _)
    (Memo.holds_nil _ _), List.nil_append, List.nil_append, ownPaths]
  exact Memo.filterMap_eq_iff TradePathAnalysis.trade _ _
    (fun t row => analyzeTradePath_trade host t _ _ row)
    (fun t row => analyzeTradePath_trade host t _ _ row) (knownTrades trades)

/-- The first trades with the keys have their candles from the same symbols. -/
theorem leader_symbols (known : List FilledTrade) (t first : FilledTrade) :
    (Memo.leader tradeKey known (tradeKey t) = some first →
      candleSymbol first.underlying = candleSymbol t.underlying) ∧
    (Memo.leader optionKey known (optionKey t) = some first → first.symbol = t.symbol) := by
  constructor
  · intro h
    have hkey : tradeKey first = tradeKey t := by
      simpa using List.find?_some h
    exact congrArg Prod.fst hkey
  · intro h
    have hkey : optionKey first = optionKey t := by
      simpa using List.find?_some h
    exact congrArg Prod.fst hkey

end Study

section StudyWindows

variable (host : DateTime → Int) (times : Int → Prop)
  (positions : Except String (List ListedPosition))
  (orders : Option String → Except String (List ListedOrder)) (trades : List FilledTrade)

/-- Where the windows agree, the caches do not show on any history. -/
theorem ownPaths_of_agree (h : TradesAgree host times trades) (history : PriceHistory)
    (htimes : OnTimes times history) :
    (trades.foldl (OptimizationReport.trade host (exchangeOf history positions orders))
        { trades := trades }).paths =
      ownPaths host (exchangeOf history positions orders) trades := by
  refine (ownPaths_iff host _ trades).mpr (fun t ht => ?_)
  have hunderlying : keptUnderlying host (exchangeOf history positions orders)
      (knownTrades trades) t = underlyingCandles host (exchangeOf history positions orders) t := by
    rcases Memo.leader_isSome tradeKey (knownTrades trades) t ht with ⟨first, -, hfirst, -⟩
    have hsymbol := (leader_symbols (knownTrades trades) t first).1 hfirst
    simp only [keptUnderlying, hfirst, Option.map_some, Option.getD_some, underlyingCandles,
      hsymbol]
    exact (windowCandles_same host times history positions orders htimes _ _ _
      (h.underlying t ht first hfirst)).symm
  rw [hunderlying]
  by_cases hsymbol : t.symbol = ""
  · simp only [keptOption, hsymbol, if_true]
  · by_cases hany : ∃ u, times u ∧ InWindow host t.window u
    · have hmem : t ∈ optionTrades (knownTrades trades) :=
        List.mem_filter.mpr ⟨ht, by simpa using hsymbol⟩
      rcases Memo.leader_isSome optionKey _ t hmem with ⟨first, -, hfirst, -⟩
      have hsame := (leader_symbols _ t first).2 hfirst
      simp only [keptOption, if_neg hsymbol, hfirst, Option.map_some, Option.getD_some,
        optionCandles, hsame]
      rw [windowCandles_same host times history positions orders htimes _ _ _
        (h.option t ht hsymbol hany first hfirst)]
    · -- Without a candle of the underlying the option's do not matter.
      have hnone : underlyingCandles host (exchangeOf history positions orders) t = [] := by
        rw [underlyingCandles, windowCandles_eq, List.filter_eq_nil_iff.mpr, List.insertionSort_nil]
        intro c hc hin
        exact hany ⟨c.candleTime, htimes _ c hc, by simpa [InWindow] using hin⟩
      rw [hnone, analyzeTradePath_nil, analyzeTradePath_nil]

/-- A candle of the option is seen in the fall of the premium. -/
theorem premiumDd_seen (t : FilledTrade) (u v : Int) :
    (∃ row, analyzeTradePath host t [candleAt u] [candleAt v] = some row ∧
        row.premiumDdPctMax.isSome) ∧
      ¬ ∃ row, analyzeTradePath host t [candleAt u] [] = some row ∧ row.premiumDdPctMax.isSome := by
  constructor
  · rcases analyzeTradePath_dd host t u [candleAt v] with ⟨row, hsome, -, hdd⟩
    refine ⟨row, hsome, ?_⟩
    rw [hdd, nearest_single]
    rfl
  · rintro ⟨row, hsome, hdd⟩
    rcases analyzeTradePath_dd host t u [] with ⟨row', hsome', -, hdd'⟩
    rw [hsome] at hsome'
    cases hsome'
    rw [hdd'] at hdd
    cases hdd

section NoShow

variable (h : ∀ history, OnTimes times history →
  (trades.foldl (OptimizationReport.trade host (exchangeOf history positions orders))
      { trades := trades }).paths =
    ownPaths host (exchangeOf history positions orders) trades)

include h in
/-- Where the caches show on no history, the windows of the underlying agree. -/
theorem underlying_of_ownPaths (t : FilledTrade) (ht : t ∈ knownTrades trades)
    (first : FilledTrade)
    (hfirst : Memo.leader tradeKey (knownTrades trades) (tradeKey t) = some first) :
    SameTimes host times t.window first.window := by
  intro u hu
  have hsame := (leader_symbols (knownTrades trades) t first).1 hfirst
  have hrow := (ownPaths_iff host _ trades).mp
    (h (loneCandle (candleSymbol t.underlying) u) (loneCandle_onTimes times _ u hu)) t ht
  simp only [keptUnderlying, hfirst, Option.map_some, Option.getD_some, underlyingCandles, hsame]
    at hrow
  have hresult : ∀ option, (analyzeTradePath host t [candleAt u] option).isSome ∧
      ¬ (analyzeTradePath host t [] option).isSome := by
    intro option
    refine ⟨analyzeTradePath_isSome host t u option, ?_⟩
    rw [analyzeTradePath_nil]
    exact Bool.false_ne_true
  exact lone_window_iff host _ positions orders _ u (if_pos rfl) t.window first.window
    (fun candles => (analyzeTradePath host t candles _).isSome)
    (fun candles => (analyzeTradePath host t candles _).isSome) (hresult _) (hresult _)
    (by rw [← hrow])

include h in
/-- With one candle of the underlying in a trade's window and one of its option, the trade is
    given the first of them, kept or fetched by itself. -/
theorem underlying_given (t : FilledTrade) (ht : t ∈ knownTrades trades) (u v : Int)
    (hu : times u) (hin : InWindow host t.window u) :
    keptUnderlying host (exchangeOf (loneCandles (candleSymbol t.underlying) t.symbol u v)
        positions orders) (knownTrades trades) t = [candleAt u] ∧
      underlyingCandles host (exchangeOf (loneCandles (candleSymbol t.underlying) t.symbol u v)
        positions orders) t = [candleAt u] := by
  have hgiven : ∀ w : DateTime × DateTime, InWindow host w u →
      windowCandles host (exchangeOf (loneCandles (candleSymbol t.underlying) t.symbol u v)
        positions orders) (candleSymbol t.underlying) w = [candleAt u] := by
    intro w hw
    refine (windowCandles_single host _ positions orders _ _ (candleAt u) (if_pos rfl)).1 ?_
    rw [candleTime_candleAt]
    exact hw
  refine ⟨?_, hgiven t.window hin⟩
  rcases Memo.leader_isSome tradeKey (knownTrades trades) t ht with ⟨lead, -, hlead, -⟩
  have hsame := (leader_symbols (knownTrades trades) t lead).1 hlead
  simp only [keptUnderlying, hlead, Option.map_some, Option.getD_some, underlyingCandles, hsame]
  exact hgiven lead.window
    ((underlying_of_ownPaths host times positions orders trades h t ht lead hlead u hu).mp hin)

include h in
/-- Where the caches show on no history, the windows agree, for trades on symbols other
    than the underlying's. -/
theorem agree_of_ownPaths
    (hsymbols : ∀ t ∈ trades, underlyingCandleSymbol.lookup t.underlying ≠ some t.symbol) :
    TradesAgree host times trades := by
  refine ⟨underlying_of_ownPaths host times positions orders trades h, ?_⟩
  intro t ht hsymbol hany first hfirst v hv
  rcases hany with ⟨u, hu, hin⟩
  have hother : t.symbol ≠ candleSymbol t.underlying := by
    intro heq
    rcases List.mem_filter.mp ht with ⟨hmem, hknown⟩
    rcases Option.isSome_iff_exists.mp hknown with ⟨sym, hsym⟩
    apply hsymbols t hmem
    rw [heq, candleSymbol, hsym, Option.getD_some]
  have hrow := (ownPaths_iff host _ trades).mp
    (h _ (loneCandles_onTimes times (candleSymbol t.underlying) t.symbol u v hu hv)) t ht
  rcases underlying_given host times positions orders trades h t ht u v hu hin with ⟨hkept, hown⟩
  have hsame := (leader_symbols _ t first).2 hfirst
  rw [hown, hkept] at hrow
  simp only [keptOption, if_neg hsymbol, hfirst, Option.map_some, Option.getD_some, optionCandles,
    hsame] at hrow
  exact lone_window_iff host _ positions orders t.symbol v
    ((if_neg hother).trans (if_pos rfl)) t.window first.window
    (fun candles => ∃ row, analyzeTradePath host t [candleAt u] candles = some row ∧
      row.premiumDdPctMax.isSome)
    (fun candles => ∃ row, analyzeTradePath host t [candleAt u] candles = some row ∧
      row.premiumDdPctMax.isSome) (premiumDd_seen host t u v) (premiumDd_seen host t u v)
      (by rw [← hrow])

end NoShow

end StudyWindows

/-- The loop of the study starts from empty caches. -/
theorem buildOptimizationReport_paths (host : DateTime → Int) (rest : DeltaRest)
    (parseTs : String → Except PyError DateTime) (loaded trades : List FilledTrade)
    (orphans : List ListedOrder) (exSince : DateTime) (includeExchange : Bool)
    (h : studiedTrades rest parseTs loaded exSince includeExchange = .ok (trades, orphans)) :
    ∃ report, buildOptimizationReport host rest parseTs loaded exSince includeExchange =
        .ok report ∧
      report.paths =
        (trades.foldl (OptimizationReport.trade host rest) { trades := trades }).paths := by
  refine ⟨_, by rw [buildOptimizationReport, h]; rfl, ?_⟩
  rw [paths_foldl host rest trades [] _ (Memo.holds_nil _ _) (Memo.holds_nil _ _),
    paths_foldl host rest trades [] _ (Memo.holds_nil _ _) (Memo.holds_nil _ _)]

/-- The results are those of each window fetched by itself, on any history, exactly where
    each window has the candle times of its key's first one. -/
theorem candle_cache_iff (host : DateTime → Int) (times : Int → Prop)
    (positions : Except String (List ListedPosition))
    (orders : Option String → Except String (List ListedOrder)) :
    (∀ (loaded : List TradeAttempt) (dedupe : Bool) (maxSamples : Int) (fetchExchange : Bool),
      (∀ history, OnTimes times history →
        (buildReport host (exchangeOf history positions orders) fetchExchange loaded dedupe
          maxSamples).movementRows = ownRows host (exchangeOf history positions orders)
            (sampledAttempts host loaded dedupe maxSamples)) ↔
      AttemptsAgree host times (sampledAttempts host loaded dedupe maxSamples)) ∧
    (∀ (parseTs : String → Except PyError DateTime) (loaded trades : List FilledTrade)
        (orphans : List ListedOrder) (exSince : DateTime) (includeExchange : Bool),
      studiedTrades (exchangeOf (fun _ => []) positions orders) parseTs loaded exSince
        includeExchange = .ok (trades, orphans) →
      (TradesAgree host times trades → ∀ history, OnTimes times history → ∃ report,
        buildOptimizationReport host (exchangeOf history positions orders) parseTs loaded exSince
          includeExchange = .ok report ∧
        report.paths = ownPaths host (exchangeOf history positions orders) trades) ∧
      ((∀ t ∈ trades, underlyingCandleSymbol.lookup t.underlying ≠ some t.symbol) →
        (∀ history, OnTimes times history → ∃ report,
          buildOptimizationReport host (exchangeOf history positions orders) parseTs loaded exSince
            includeExchange = .ok report ∧
          report.paths = ownPaths host (exchangeOf history positions orders) trades) →
        TradesAgree host times trades)) := by
  refine ⟨fun loaded dedupe maxSamples fetchExchange =>
    ownRows_iff host times positions orders fetchExchange loaded dedupe maxSamples, ?_⟩
  intro parseTs loaded trades orphans exSince includeExchange hstudied
  -- The trades come from the orders, whatever the candles are.
  have hreport := fun history => buildOptimizationReport_paths host
    (exchangeOf history positions orders) parseTs loaded trades orphans exSince includeExchange
    hstudied
  constructor
  · intro h history htimes
    rcases hreport history with ⟨report, hok, hpaths⟩
    exact ⟨report, hok, hpaths.trans
      (ownPaths_of_agree host times positions orders trades h history htimes)⟩
  · intro hsymbols h
    refine agree_of_ownPaths host times positions orders trades (fun history htimes => ?_) hsymbols
    rcases h history htimes with ⟨report, hok, hpaths⟩
    rcases hreport history with ⟨report', hok', hpaths'⟩
    rw [hok] at hok'
    cases hok'
    rw [← hpaths', hpaths]

section Samples

/-- An attempt on a day, at an hour of it. -/
def attemptAt (tradeId : Nat) (hour : Int) : TradeAttempt :=
  { tradeId := tradeId, entryTs := combine (ymdToOrdinal 2026 5 27) (hourMinute hour 0),
    underlying := "BTC", optionType := some .call, spotAtSignal := some 100 }

/-- The exchange without positions and orders. -/
def quietExchange (history : PriceHistory) : DeltaRest :=
  exchangeOf history (.ok []) (fun _ => .ok [])

/-- A trade on a day, at an hour of it, and closed an hour later. -/
def tradeAt (tradeId : Nat) (hour : Int) : FilledTrade :=
  { tradeId := tradeId, entryTs := combine (ymdToOrdinal 2026 5 27) (hourMinute hour 0),
    exitTs := some (combine (ymdToOrdinal 2026 5 27) (hourMinute (hour + 1) 0)),
    underlying := "BTC", symbol := "C-BTC-76000-280526", optionType := some .call }

/-- With one trade in the study the caches do not show. -/
theorem candle_cache_one :
    (∀ history, OnTimes (fun _ => True) history → ∃ report,
      buildOptimizationReport (fun _ => 0) (quietExchange history) (fun _ => .ok unixEpoch)
        [tradeAt 1 10] unixEpoch false = .ok report ∧
      report.paths = ownPaths (fun _ => 0) (quietExchange history) [tradeAt 1 10]) ∧
    TradesAgree (fun _ => 0) (fun _ => True) [tradeAt 1 10] := by
  rcases (candle_cache_iff (fun _ => 0) (fun _ => True) (.ok []) (fun _ => .ok [])).2
    (fun _ => .ok unixEpoch) [tradeAt 1 10] [tradeAt 1 10] [] unixEpoch false rfl
    with ⟨hsame, hagree⟩
  have hone : knownTrades [tradeAt 1 10] = [tradeAt 1 10] := by decide
  have hpaths := hsame ⟨by
      rw [hone]
      intro t ht first hfirst
      rw [List.mem_singleton.mp ht, List.mem_singleton.mp (List.mem_of_find?_eq_some hfirst)]
      exact fun _ _ => Iff.rfl, by
      rw [hone]
      intro t ht _ _ first hfirst
      rw [List.mem_singleton.mp ht, List.mem_singleton.mp
        (List.mem_of_mem_filter (List.mem_of_find?_eq_some hfirst))]
      exact fun _ _ => Iff.rfl⟩
  refine ⟨hpaths, hagree ?_ hpaths⟩
  intro t ht
  rw [List.mem_singleton.mp ht]
  decide

/-- Two attempts of one day, and a candle at four in the afternoon. The second attempt's
    window has it, and the first one's has not. -/
theorem second_attempt_blind :
    (buildReport (fun _ => 0) (quietExchange (loneCandle "BTCUSD" 1779897600)) false
      [attemptAt 1 10, attemptAt 2 14]).movementRows ≠
    ownRows (fun _ => 0) (quietExchange (loneCandle "BTCUSD" 1779897600))
      (sampledAttempts (fun _ => 0) [attemptAt 1 10, attemptAt 2 14] true 40) := by
  decide

end Samples

end OptionsBot
