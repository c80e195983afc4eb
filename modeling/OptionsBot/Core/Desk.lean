import Mathlib.Algebra.BigOperators.Group.List.Basic
import OptionsBot.Core.Strategy

/-!
# Desk Gates

The desk's checks on quotes and greeks: the liquidity check of the multi-leg
strategies, the policy gates of the risk manager, and the cap on lots by vega
and gamma. How the cap rounds what it works out is a parameter.

## Main definitions

* `resolveQuote`: A quote from the tick's mapping, else from the chain.
* `checkMultiLegLiquidity`: The liquidity check of the multi-leg strategies.
* `PortfolioGreeks`: The greek totals of the book.
* `DeskConfig.checkPortfolio`, `DeskConfig.checkIntent`: The policy gates.
* `capLotsByGreeks`: The cap on lots.
* `WithinGreek`: The lots that one of its limits allows.

## Theorems

* `capLotsByGreeks_bounds`: The cap leaves at least one lot and raises none.
* `le_capLotsByGreeks_iff`: The lots it leaves are those within both limits.
-/

namespace OptionsBot

def resolveQuote (symbol : String) (quoteFor : String → Option QuoteSnapshot)
    (chain : Option ChainCache) : Option QuoteSnapshot :=
  match quoteFor symbol with
  | some q => some q
  | none => chain.bind (fun c => c.getQuote symbol)

def legGreeksFromQuote (quote : QuoteSnapshot) : LegGreeks :=
  { iv := quote.iv, delta := quote.delta, gamma := quote.gamma, theta := quote.theta,
    vega := quote.vega, openInterest := quote.openInterest }

/-- The greeks of the symbols that have a quote. -/
def greeksBySymbol (symbols : List String) (quoteFor : String → Option QuoteSnapshot)
    (chain : Option ChainCache) : List (String × LegGreeks) :=
  symbols.foldl (fun out symbol =>
    match resolveQuote symbol quoteFor chain with
    | none => out
    | some q => Table.upsert Prod.fst symbol (fun _ => (symbol, legGreeksFromQuote q)) out) []

/-- The outcome of a liquidity check. -/
structure LegLiquidityResult where
  ok : Bool
  reason : Option StrategyReason := none
  symbol : Option String := none
  features : Features

def legQuoteFeatures (role : String) (quote : QuoteSnapshot) : Features :=
  [(role ++ "_iv", .num quote.iv), (role ++ "_delta", .num quote.delta),
    (role ++ "_gamma", .num quote.gamma), (role ++ "_theta", .num quote.theta),
    (role ++ "_vega", .num quote.vega), (role ++ "_oi", .num quote.openInterest)]

/-- The check of the remaining legs, given the features collected so far. -/
def checkLegs (minOpenInterest : ℚ) (greeksRequired : Bool) (features : Features) :
    List (String × StrikeSelection) → LegLiquidityResult
  | [] => { ok := true, features := features }
  | (role, sel) :: rest =>
    let features := features.update (legQuoteFeatures role sel.quote)
    if greeksRequired ∧ sel.quote.delta.isNone then
      { ok := false, reason := some .missingGreeks, symbol := some sel.instrument.symbol,
        features := features }
    else if 0 < minOpenInterest ∧ ¬ ∃ oi ∈ sel.quote.openInterest, minOpenInterest ≤ oi then
      { ok := false, reason := some .lowOpenInterest, symbol := some sel.instrument.symbol,
        features := features }
    else checkLegs minOpenInterest greeksRequired features rest

def checkMultiLegLiquidity (legs : List (String × StrikeSelection)) (minOpenInterest : ℚ)
    (greeksRequired : Bool) : LegLiquidityResult :=
  checkLegs minOpenInterest greeksRequired [] legs

@[ext]
structure UnderlyingGreeks where
  delta : ℚ := 0
  gamma : ℚ := 0
  theta : ℚ := 0
  vega : ℚ := 0
  deriving DecidableEq, Repr

/-- The greek totals of the book, in all and by underlying. -/
structure PortfolioGreeks where
  delta : ℚ := 0
  gamma : ℚ := 0
  theta : ℚ := 0
  vega : ℚ := 0
  byUnderlying : List (Underlying × UnderlyingGreeks)
  legsWithGreeks : Nat := 0
  legsMissingGreeks : Nat := 0
  deriving DecidableEq

/-- The reason a desk gate rejects for. -/
inductive DeskReason where
  | portfolioDeltaLimit
  | portfolioVegaLimit
  | missingGreeks
  | lowOpenInterest
  deriving DecidableEq, Repr

namespace DeskConfig

/-- The INR deltas and vegas of the underlyings with a positive spot. -/
def portfolioInr (portfolio : PortfolioGreeks) (marks : Underlying → Option ℚ) (rate : ℚ) :
    ℚ × ℚ :=
  portfolio.byUnderlying.foldl (fun acc kv =>
    match marks kv.1 with
    | none => acc
    | some spot =>
      -- The underlyings do not offset each other: each counts by its size.
      if spot ≤ 0 then acc
      else (acc.1 + |kv.2.delta| * spot * rate, acc.2 + |kv.2.vega| * rate)) (0, 0)

def checkPortfolio (cfg : DeskConfig) (portfolio : PortfolioGreeks) (marks : Underlying → Option ℚ)
    (rate : ℚ) : Except PyError (Option DeskReason × Features) :=
  if rate ≤ 0 then .error (.valueError "usd_inr_rate must be positive")
  else
    let totals := portfolioInr portfolio marks rate
    let notes : Features :=
      [("portfolio_delta_inr", .num (some totals.1)), ("portfolio_vega_inr", .num (some totals.2))]
    if ∃ m ∈ cfg.maxAbsNetDeltaInr, m < totals.1 then
      .ok (some .portfolioDeltaLimit,
        notes.set "max_abs_net_delta_inr" (.num cfg.maxAbsNetDeltaInr))
    else if ∃ m ∈ cfg.maxAbsNetVegaInr, m < totals.2 then
      .ok (some .portfolioVegaLimit,
        notes.set "max_abs_net_vega_inr" (.num cfg.maxAbsNetVegaInr))
    else .ok (none, notes)

/-- The check of the remaining legs of an intent. -/
def checkIntentLegs (cfg : DeskConfig) (quoteFor : String → Option QuoteSnapshot)
    (chain : Option ChainCache) (notes : Features) :
    List LegIntent → Option DeskReason × Features
  | [] => (none, notes)
  | leg :: rest =>
    match resolveQuote leg.symbol quoteFor chain with
    | none =>
      if cfg.strict then (some .missingGreeks, notes.set "symbol" (.text leg.symbol))
      else checkIntentLegs cfg quoteFor chain notes rest
    | some quote =>
      if cfg.greeksRequired ∧ quote.delta.isNone then
        (some .missingGreeks, notes.set "symbol" (.text leg.symbol))
      else if 0 < cfg.minOpenInterest then
        match quote.openInterest with
        | none =>
          if cfg.strict then (some .lowOpenInterest, notes.set "symbol" (.text leg.symbol))
          else checkIntentLegs cfg quoteFor chain notes rest
        | some oi =>
          let notes := notes.set "open_interest" (.num (some oi))
          if oi < cfg.minOpenInterest then
            (some .lowOpenInterest, notes.set "symbol" (.text leg.symbol))
          else checkIntentLegs cfg quoteFor chain notes rest
      else checkIntentLegs cfg quoteFor chain notes rest

def checkIntent (cfg : DeskConfig) (intent : Intent) (quoteFor : String → Option QuoteSnapshot)
    (chain : Option ChainCache) : Option DeskReason × Features :=
  checkIntentLegs cfg quoteFor chain [("min_open_interest", .num (some cfg.minOpenInterest))]
    intent.legs

end DeskConfig

/-- The lot size of a listed symbol, one otherwise. -/
def contractMultiplier (chain : Option ChainCache) (symbol : String) : ℚ :=
  match chain.bind (fun c => c.getInstrument symbol) with
  | none => 1
  | some inst => inst.lotSize

section Caps

variable (round : ℚ → ℚ)

/-- The INR size of a greek over the legs of one lot. -/
def perLotGreekInr (greek : QuoteSnapshot → Option ℚ) (intent : Intent)
    (quoteFor : String → Option QuoteSnapshot) (chain : Option ChainCache) (rate : ℚ) : ℚ :=
  intent.legs.foldl (fun total leg =>
    match (resolveQuote leg.symbol quoteFor chain).bind greek with
    -- A leg without a quote, or without this greek in it, counts as nothing.
    | none => total
    | some value =>
      round (total + round (round (|value| * contractMultiplier chain leg.symbol) * rate))) 0

/-- The lots left by one cap, and the note it leaves. -/
def capByGreek (note : String) (limit : Option ℚ) (perLot : ℚ) (capped : Int × Features) :
    Int × Features :=
  match limit with
  | none => capped
  | some l =>
    if l ≤ 0 then capped
    else
      let notes := capped.2.set note (.num (some perLot))
      if perLot ≤ 0 then (capped.1, notes)
      else (min capped.1 (min capped.1 (max 1 ⌊round (l / perLot)⌋)), notes)

def capLotsByGreeks (intent : Intent) (sizedLots : Int)
    (quoteFor : String → Option QuoteSnapshot) (chain : Option ChainCache)
    (maxVegaInr maxGammaInr : Option ℚ) (rate : ℚ) : Int × Features :=
  if sizedLots < 1 then (sizedLots, [])
  else
    let vega := perLotGreekInr round QuoteSnapshot.vega intent quoteFor chain rate
    let gamma := perLotGreekInr round QuoteSnapshot.gamma intent quoteFor chain rate
    let capped := capByGreek round "gamma_inr_per_lot" maxGammaInr gamma
      (capByGreek round "vega_inr_per_lot" maxVegaInr vega (sizedLots, []))
    if capped.1 < sizedLots then
      (capped.1, (capped.2.set "greek_cap_applied" (.flag true)).set "lots_before_greek_cap"
        (.num (some sizedLots)))
    else capped

theorem capByGreek_bounds (note : String) (limit : Option ℚ) (perLot : ℚ) (capped : Int × Features)
    (h : 1 ≤ capped.1) :
    1 ≤ (capByGreek round note limit perLot capped).1 ∧
      (capByGreek round note limit perLot capped).1 ≤ capped.1 := by
  unfold capByGreek
  split
  · exact ⟨h, le_refl _⟩
  · split
    · exact ⟨h, le_refl _⟩
    · simp only
      split
      · exact ⟨h, le_refl _⟩
      · exact ⟨le_min h (le_min h (le_max_left _ _)), min_le_left _ _⟩

theorem capLotsByGreeks_bounds (intent : Intent) (sizedLots : Int)
    (quoteFor : String → Option QuoteSnapshot) (chain : Option ChainCache)
    (maxVegaInr maxGammaInr : Option ℚ) (rate : ℚ) (h : 1 ≤ sizedLots) :
    1 ≤ (capLotsByGreeks round intent sizedLots quoteFor chain maxVegaInr maxGammaInr rate).1 ∧
      (capLotsByGreeks round intent sizedLots quoteFor chain maxVegaInr maxGammaInr rate).1 ≤
        sizedLots := by
  have hv := capByGreek_bounds round "vega_inr_per_lot" maxVegaInr
    (perLotGreekInr round QuoteSnapshot.vega intent quoteFor chain rate) (sizedLots, []) h
  have hg := capByGreek_bounds round "gamma_inr_per_lot" maxGammaInr
    (perLotGreekInr round QuoteSnapshot.gamma intent quoteFor chain rate) _ hv.1
  unfold capLotsByGreeks
  rw [if_neg (by omega)]
  simp only
  split
  · exact ⟨hg.1, hg.2.trans hv.2⟩
  · exact ⟨hg.1, hg.2.trans hv.2⟩

/-- A number of lots is within a limit on one of their greeks, as the cap compares them. -/
def WithinGreek (limit : Option ℚ) (perLot : ℚ) (n : Int) : Prop :=
  ∀ m ∈ limit, 0 < perLot → n ≤ round (m / perLot)

/-- The lots a cap leaves are those it is met by, one lot aside. -/
theorem le_capByGreek_iff (note : String) (limit : Option ℚ) (perLot : ℚ) (capped : Int × Features)
    (n : Int) (hlimit : OptPos limit) (hn : 1 ≤ n) :
    n ≤ (capByGreek round note limit perLot capped).1 ↔
      n ≤ capped.1 ∧ (n = 1 ∨ WithinGreek round limit perLot n) := by
  unfold capByGreek WithinGreek
  cases limit with
  | none =>
      simp only [Option.mem_def, reduceCtorEq, false_implies, implies_true, or_true, and_true]
  | some l =>
      simp only [not_le.mpr (hlimit l rfl), if_false, Option.mem_def, Option.some.injEq, forall_eq']
      split_ifs with hper
      · simp only [not_lt.mpr hper, false_implies, or_true, and_true]
      · have hone : n ≤ 1 ↔ n = 1 := ⟨fun h => le_antisymm h hn, fun h => h.le⟩
        rw [le_min_iff, le_min_iff, le_max_iff, Int.le_floor, hone]
        simp only [not_le.mp hper, forall_const]
        exact ⟨fun h => h.2, fun h => ⟨h.1, h⟩⟩

theorem le_capLotsByGreeks_iff (intent : Intent) (sizedLots n : Int)
    (quoteFor : String → Option QuoteSnapshot) (chain : Option ChainCache)
    (maxVegaInr maxGammaInr : Option ℚ) (rate : ℚ) (hvega : OptPos maxVegaInr)
    (hgamma : OptPos maxGammaInr) (hn : 1 ≤ n) :
    n ≤ (capLotsByGreeks round intent sizedLots quoteFor chain maxVegaInr maxGammaInr rate).1 ↔
      n ≤ sizedLots ∧ (n = 1 ∨
        WithinGreek round maxVegaInr
          (perLotGreekInr round QuoteSnapshot.vega intent quoteFor chain rate) n ∧
        WithinGreek round maxGammaInr
          (perLotGreekInr round QuoteSnapshot.gamma intent quoteFor chain rate) n) := by
  unfold capLotsByGreeks
  split_ifs with hone
  · -- No lot was left to cap.
    exact ⟨fun h => absurd (hn.trans h) (not_le.mpr hone),
      fun h => absurd (hn.trans h.1) (not_le.mpr hone)⟩
  · simp only
    split
    all_goals
      rw [le_capByGreek_iff round _ _ _ _ n hgamma hn, le_capByGreek_iff round _ _ _ _ n hvega hn,
        and_assoc, ← or_and_left]

end Caps

end OptionsBot
