import OptionsBot.Core.DryExecutor
import OptionsBot.Theory.ExitRetry

/-!
# What a Successful Exit Means

A success is what lets the engine close a trade, so both executors owe it the same
thing: an exit is a success only if every leg was closed completely and at a price.
The profit the trade books then has a price for each of its legs.

The live executor keeps this for every answer of the exchange. The dry one reports a
success whatever its fills are, so it keeps it only while every leg has a positive
middle price to fill at. A leg without one is rejected, and a rejected leg is worth
nothing in the booked profit.

## Main definitions

* `ClosesEveryLeg`: What a success means.
* `BooksEveryLeg`: What closing a trade means.
* `ExitContract`: What an executor owes the engine for a request.
* `LiveExecutor.Reports`, `DryExecutor.Reports`: What the executors can report.

## Theorems

* `persistExit_books`: A trade closed on such a success books every leg.
* `live_exitContract`: The live executor keeps the contract.
* `dry_exitContract_iff`: Exactly when the dry one does.
* `exitContract_iff`: Exactly when both do.
-/

namespace OptionsBot

-- The sample runs below compute with rationals.
attribute [local semireducible] Rat.add Rat.sub Rat.mul Rat.inv

/-- There is one fill for each leg of the request, and each is complete and has a
    price. -/
def ClosesEveryLeg (req : ExitRequest) (result : ExitResult) : Prop :=
  result.fills.map LegFill.symbol = req.legs.map LegIntent.symbol ∧
    ∀ fill ∈ result.fills, fill.isComplete = true ∧ fill.avgFillPrice.isSome = true

/-- Every leg row is closed at a price, and the booked profit is the entry's cash and
    what each leg has fetched at its price. -/
def BooksEveryLeg (result : ExitResult) (trade : Trade) (legs : List Leg) : Prop :=
  (∀ leg ∈ legs, leg.status = .closed ∧ leg.exitPrice.isSome = true) ∧
    ∃ prices : List ℚ, result.fills.map LegFill.avgFillPrice = prices.map some ∧
      trade.realisedPnlInr =
        some (entryCashflowInr trade.premiumPaidInr trade.creditReceivedInr trade.lots -
          (List.zipWith (fun fill price => fill.side.sign * price * fill.qtyFilled)
            result.fills prices).sum)

/-- What an executor owes the engine for a request: a success closes every leg, and a
    trade is closed on its report only if every leg was and all of them are booked. -/
def ExitContract (reports : ExitRequest → ExitResult → Prop) (req : ExitRequest) : Prop :=
  ∀ result, reports req result →
    (result.success = true → ClosesEveryLeg req result) ∧
      ∀ (trade trade' : Trade) (legs legs' : List Leg) (trigger : ExitTrigger)
        (nav nav' : NavTracker) (now : DateTime), trade.status = .«open» →
        exitRequest trade legs trigger now = .ok req →
        persistExit (fun _ => result) trade legs trigger nav now = .ok (trade', legs', nav') →
        trade'.status = .closed → ClosesEveryLeg req result ∧ BooksEveryLeg result trade' legs'

/-- The live executor can report this, for some answers of the exchange and some
    position there. -/
def LiveExecutor.Reports (req : ExitRequest) (result : ExitResult) : Prop :=
  ∃ (script : Nat → ExitLegScript) (completedAt : DateTime) (books : Nat → ReducingBook),
    (LiveExecutor.submitExit req script completedAt books).2 = .ok result

/-- The dry executor can report this, for some random draws. -/
def DryExecutor.Reports (self : DryExecutor) (req : ExitRequest) (result : ExitResult) : Prop :=
  ∃ uniform : Nat → Nat → ℚ, self.submitExit uniform req = result

/-- The symbol has a quote with a positive middle price. -/
def ChainCache.HasMid (chain : ChainCache) (symbol : String) : Prop :=
  ∃ mid ∈ (chain.getQuote symbol).bind QuoteSnapshot.mid, 0 < mid

/-- The legs of an exit request are those of the trade, in order. -/
theorem exitRequest_symbols (trade : Trade) (legs : List Leg) (trigger : ExitTrigger)
    (now : DateTime) (req : ExitRequest) (h : exitRequest trade legs trigger now = .ok req) :
    req.legs.map LegIntent.symbol =
      (legs.insertionSort (fun a b => a.legIdx ≤ b.legIdx)).map Leg.symbol := by
  unfold exitRequest at h
  rcases hmap : (legs.insertionSort (fun a b => a.legIdx ≤ b.legIdx)).mapM (exitLeg trade now)
    with e | intents
  · rw [hmap] at h
    cases h
  · rw [hmap] at h
    cases h
    refine map_mapM_ok (exitLeg trade now) LegIntent.symbol Leg.symbol (fun leg li hli => ?_) _ _
      hmap
    unfold exitLeg at hli
    simp only at hli
    split at hli
    · cases hli
      rfl
    · rcases hexpiry : expiryFromLegSymbol leg.symbol now with e | expiry
      · rw [hexpiry] at hli
        cases hli
      · rw [hexpiry] at hli
        cases hli
        rfl

/-- The cash of fills that all have a price is the sum over their prices. -/
theorem exitCashflow_priced (fills : List LegFill)
    (h : ∀ fill ∈ fills, fill.avgFillPrice.isSome = true) :
    ∃ prices : List ℚ, fills.map LegFill.avgFillPrice = prices.map some ∧
      exitCashflowInr fills =
        -(List.zipWith (fun fill price => fill.side.sign * price * fill.qtyFilled)
          fills prices).sum := by
  induction fills with
  | nil => exact ⟨[], rfl, neg_zero.symm⟩
  | cons fill rest ih =>
      rcases ih (fun f hf => h f (List.mem_cons_of_mem fill hf)) with ⟨prices, hprices, hcash⟩
      rcases Option.isSome_iff_exists.mp (h fill List.mem_cons_self) with ⟨price, hprice⟩
      refine ⟨price :: prices, ?_, ?_⟩
      · rw [List.map_cons, List.map_cons, hprice, hprices]
      · have hcost : fill.cost = fill.side.sign * price * fill.qtyFilled := by
          rw [LegFill.cost, hprice]
        unfold exitCashflowInr at hcash ⊢
        rw [List.map_cons, List.sum_cons, hcash, hcost, List.zipWith_cons_cons, List.sum_cons]
        ring

/-- A trade that is closed on a success which closes every leg books every leg. -/
theorem persistExit_books (result : ExitResult) (trade trade' : Trade) (legs legs' : List Leg)
    (trigger : ExitTrigger) (nav nav' : NavTracker) (now : DateTime) (req : ExitRequest)
    (hopen : trade.status = .«open») (hreq : exitRequest trade legs trigger now = .ok req)
    (hexit : persistExit (fun _ => result) trade legs trigger nav now = .ok (trade', legs', nav'))
    (hclosed : trade'.status = .closed)
    (hcontract : result.success = true → ClosesEveryLeg req result) :
    ClosesEveryLeg req result ∧ BooksEveryLeg result trade' legs' := by
  rcases persistExit_cases _ _ _ _ _ _ _ _ _ hexit with
    ⟨_, _, ⟨_, hsame, _, _⟩ | ⟨hsuccess, htrade, hlegs, _⟩⟩
  · -- A failed exit leaves the trade open.
    rw [hsame, hopen] at hclosed
    cases hclosed
  · have hcloses := hcontract hsuccess
    refine ⟨hcloses, fun leg hleg => ?_, ?_⟩
    · rw [hlegs] at hleg
      rcases List.mem_map.mp hleg with ⟨row, hrow, rfl⟩
      refine ⟨rfl, ?_⟩
      -- The row's symbol is among those of the fills, so its first fill has a price.
      have hsymbol : row.symbol ∈ result.fills.map LegFill.symbol := by
        rw [hcloses.1, exitRequest_symbols trade legs trigger now req hreq]
        exact List.mem_map_of_mem ((List.mem_insertionSort _).mpr hrow)
      rcases hfind : result.fills.find? (fun f => f.symbol = row.symbol) with _ | fill
      · rcases List.mem_map.mp hsymbol with ⟨f, hf, hsame⟩
        exact absurd (decide_eq_true hsame) (List.find?_eq_none.mp hfind f hf)
      · simp only [closedLeg, hfind, Option.bind_some]
        exact (hcloses.2 fill (List.mem_of_find?_eq_some hfind)).2
    · rcases exitCashflow_priced result.fills (fun fill hfill => (hcloses.2 fill hfill).2) with
        ⟨prices, hprices, hcash⟩
      refine ⟨prices, hprices, ?_⟩
      rw [htrade]
      simp only [tradeRealisedPnl, realisedPnlInr, hcash, sub_eq_add_neg]

section Live

variable (req : ExitRequest) (script : Nat → ExitLegScript)

/-- The fill of a leg is for its symbol, and has a price if it is complete. -/
theorem LiveExecutor.placeExitLeg_priced (hlots : 0 < req.lots) (idx : Nat) (leg : LegIntent)
    (script : ExitLegScript) (book : ReducingBook) (fill : LegFill)
    (hfill : (placeExitLeg req idx leg script book).result = .ok fill) :
    fill.symbol = leg.symbol ∧
      (fill.isComplete = true → fill.avgFillPrice.isSome = true) := by
  have hrejected : ∀ t : LegTicket, t.symbol = leg.symbol →
      (rejectedFill t none).symbol = leg.symbol ∧
        ((rejectedFill t none).isComplete = true →
          (rejectedFill t none).avgFillPrice.isSome = true) := by
    intro t ht
    refine ⟨ht, fun hcomplete => ?_⟩
    rw [rejectedFill_incomplete] at hcomplete
    cases hcomplete
  unfold placeExitLeg at hfill
  simp only at hfill
  split at hfill
  · cases hfill
    exact hrejected _ rfl
  · split at hfill
    · next report _ =>
      cases hfill
      refine ⟨rfl, fun hcomplete => ?_⟩
      -- One lot at least was asked for, so a complete fill has filled something.
      have hfilled : (req.lots : ℚ) - 1 / 1000000000 ≤ report.filledSize.getD 0 :=
        ((LegFill.isComplete_iff _).mp hcomplete).2
      have hone : (1 : ℚ) ≤ req.lots := by exact_mod_cast hlots
      have hpos : 0 < report.filledSize.getD 0 := by linarith
      simp only [exitFill, if_pos hpos, Option.isSome_some]
    · split_ifs at hfill
      cases hfill
      exact hrejected _ rfl

/-- The fills of the legs from a place on are for their symbols, and the complete
    ones have a price. -/
theorem LiveExecutor.submitExitLegs_priced (hlots : 0 < req.lots) (legs : List LegIntent)
    (idx : Nat) (books : Nat → ReducingBook) (fills : List LegFill)
    (hok : (submitExitLegs req script idx legs books).2 = .ok fills) :
    fills.map LegFill.symbol = legs.map LegIntent.symbol ∧
      ∀ fill ∈ fills, fill.isComplete = true → fill.avgFillPrice.isSome = true := by
  induction legs generalizing idx books fills with
  | nil =>
      cases hok
      exact ⟨rfl, fun fill hfill => absurd hfill List.not_mem_nil⟩
  | cons leg rest ih =>
      rcases LiveExecutor.submitExitLegs_cons req script idx leg rest books fills hok with
        ⟨fill, later, hfill, rfl, hlater, _⟩
      have hhead := placeExitLeg_priced req hlots idx leg (script idx) (books idx) fill hfill
      have hrest := ih (idx + 1) _ later hlater
      refine ⟨?_, fun f hf => ?_⟩
      · rw [List.map_cons, List.map_cons, hhead.1, hrest.1]
      · rcases List.mem_cons.mp hf with rfl | hin
        · exact hhead.2
        · exact hrest.2 f hin

/-- The live executor keeps the contract, whatever the exchange answers. -/
theorem live_exitContract (hlots : 0 < req.lots) : ExitContract LiveExecutor.Reports req := by
  intro result hreports
  have hcontract : result.success = true → ClosesEveryLeg req result := by
    rcases hreports with ⟨script, completedAt, books, hresult⟩
    simp only [LiveExecutor.submitExit] at hresult
    rcases hfills : (LiveExecutor.submitExitLegs req script 0 req.legs books).2 with e | fills
    · rw [hfills] at hresult
      cases hresult
    · rw [hfills] at hresult
      cases hresult
      intro hall
      rcases LiveExecutor.submitExitLegs_priced req script hlots req.legs 0 books fills hfills with
        ⟨hsymbols, hpriced⟩
      refine ⟨hsymbols, fun fill hfill => ?_⟩
      have hcomplete := List.all_eq_true.mp hall fill hfill
      exact ⟨hcomplete, hpriced fill hfill hcomplete⟩
  exact ⟨hcontract, fun trade trade' legs legs' trigger nav nav' now hopen hreq hexit hclosed =>
    persistExit_books result trade trade' legs legs' trigger nav nav' now req hopen hreq hexit
      hclosed hcontract⟩

end Live

namespace DryExecutor

variable (self : DryExecutor)

/-- The fill of a leg is complete just when the leg has a price, and then it has one
    too. -/
theorem fillLeg_complete_iff (strategyId : StrategyId) (tradeId lots : Nat) (purpose : String)
    (draw : ℚ) (idx : Nat) (leg : LegIntent) :
    ((self.fillLeg strategyId tradeId lots purpose draw idx leg).isComplete = true ∧
        (self.fillLeg strategyId tradeId lots purpose draw idx leg).avgFillPrice.isSome = true) ↔
      self.chain.HasMid leg.symbol := by
  unfold fillLeg ChainCache.HasMid
  simp only
  rcases hmid : (self.chain.getQuote leg.symbol).bind QuoteSnapshot.mid with _ | mid
  · simp only [Option.isSome_none, Bool.false_eq_true, and_false, Option.not_mem_none, false_and,
      exists_false]
  · by_cases hpos : mid ≤ 0
    · simp only [if_pos hpos, Option.isSome_none, Bool.false_eq_true, and_false, Option.mem_def,
        Option.some.injEq, exists_eq_left', not_lt.mpr hpos]
    · have hcomplete : (lots : ℚ) - 1 / 1000000000 ≤ lots := by linarith
      simp only [if_neg hpos, LegFill.isComplete_iff, Option.isSome_some, and_true, true_and,
        Option.mem_def, Option.some.injEq, exists_eq_left', not_le.mp hpos, iff_true]
      exact hcomplete

theorem fillLeg_symbol (strategyId : StrategyId) (tradeId lots : Nat) (purpose : String)
    (draw : ℚ) (idx : Nat) (leg : LegIntent) :
    (self.fillLeg strategyId tradeId lots purpose draw idx leg).symbol = leg.symbol := by
  unfold fillLeg
  simp only
  split
  · rfl
  · split_ifs <;> rfl

/-- The fills are for the symbols of the legs, in order. -/
theorem fillLegs_symbols (strategyId : StrategyId) (tradeId : Nat) (legs : List LegIntent)
    (lots : Nat) (purpose : String) (uniform : Nat → Nat → ℚ) :
    (self.fillLegs strategyId tradeId legs lots purpose uniform).map LegFill.symbol =
      legs.map LegIntent.symbol := by
  refine List.ext_getElem ?_ (fun i _ _ => ?_)
  · rw [List.length_map, List.length_map, fillLegs_length]
  · simp only [fillLegs, List.getElem_map, List.getElem_mapIdx, fillLeg_symbol]

/-- The dry executor keeps the contract just while every leg has a price. -/
theorem dry_exitContract_iff (req : ExitRequest) :
    ExitContract self.Reports req ↔ ∀ leg ∈ req.legs, self.chain.HasMid leg.symbol := by
  constructor
  · intro hcontract leg hleg
    -- Every exit is a success, so the contract speaks of the fill of this leg.
    have hcloses := (hcontract (self.submitExit (fun _ _ => 0) req) ⟨_, rfl⟩).1 rfl
    rcases List.getElem_of_mem hleg with ⟨i, hi, hget⟩
    have hi' : i < (flipped req.legs).length := by
      rw [flipped, List.length_map]
      exact hi
    have hfill := hcloses.2 _ (List.mem_mapIdx.mpr ⟨i, hi', rfl⟩)
    have hmid := (self.fillLeg_complete_iff _ _ _ _ _ _ _).mp hfill
    simp only [flipped, List.getElem_map, hget] at hmid
    exact hmid
  · intro hquoted result hreports
    rcases hreports with ⟨uniform, rfl⟩
    have hcloses : ClosesEveryLeg req (self.submitExit uniform req) := by
      refine ⟨?_, fun fill hfill => ?_⟩
      · refine (self.fillLegs_symbols _ _ _ _ _ _).trans ?_
        rw [flipped, List.map_map]
        rfl
      · rcases List.mem_mapIdx.mp hfill with ⟨i, hi, rfl⟩
        refine (self.fillLeg_complete_iff _ _ _ _ _ _ _).mpr ?_
        simp only [flipped, List.getElem_map]
        exact hquoted _ (List.getElem_mem _)
    exact ⟨fun _ => hcloses,
      fun trade trade' legs legs' trigger nav nav' now hopen hreq hexit hclosed =>
        persistExit_books _ trade trade' legs legs' trigger nav nav' now req hopen hreq hexit
          hclosed (fun _ => hcloses)⟩

end DryExecutor

/-- Both executors keep the contract just while every leg of the request has a price
    for the dry one. -/
theorem exitContract_iff (dry : DryExecutor) (req : ExitRequest) (hlots : 0 < req.lots) :
    (ExitContract LiveExecutor.Reports req ∧ ExitContract dry.Reports req) ↔
      ∀ leg ∈ req.legs, dry.chain.HasMid leg.symbol := by
  rw [dry.dry_exitContract_iff req]
  exact and_iff_right (live_exitContract req hlots)

/-- The close of the straddle. -/
def straddleClose : ExitRequest :=
  { strategyId := .longStraddle, tradeId := 1, underlying := .btc
    legs :=
      [{ symbol := "C-BTC-97000-130526", side := .buy, optionType := .call, strike := 97000,
         expiry := combine (ymdToOrdinal 2026 5 13) (hourMinute 10 0) },
       { symbol := "P-BTC-97000-130526", side := .buy, optionType := .put, strike := 97000,
         expiry := combine (ymdToOrdinal 2026 5 13) (hourMinute 10 0) }]
    lots := 1, trigger := .premiumStop }

/-- The dry executor while the call has a price. -/
def callQuoted : DryExecutor :=
  { chain := LiveTrade.straddleChain.upsertQuote "C-BTC-97000-130526"
      { bid := some 198, ask := some 202 } }

/-- The dry executor while both legs have a price. -/
def bothQuoted : DryExecutor :=
  { chain := callQuoted.chain.upsertQuote "P-BTC-97000-130526"
      { bid := some 79, ask := some 81 } }

theorem exitContract_iff_straddle :
    ExitContract LiveExecutor.Reports straddleClose ∧
      ExitContract bothQuoted.Reports straddleClose := by
  refine (exitContract_iff bothQuoted straddleClose (by decide)).mpr (fun leg hleg => ?_)
  simp only [straddleClose, List.mem_cons, List.not_mem_nil, or_false] at hleg
  rcases hleg with rfl | rfl
  · exact ⟨200, by decide, by decide⟩
  · exact ⟨80, by decide, by decide⟩

/-- The put has no price, and the straddle is closed on the call's fill alone. -/
theorem straddle_closed_unquoted : ¬ ∀ (dry : DryExecutor) (req : ExitRequest), 0 < req.lots →
    ExitContract LiveExecutor.Reports req ∧ ExitContract dry.Reports req := by
  intro hall
  have hdry := (hall callQuoted straddleClose (by decide)).2
  have hbooks := ((hdry (callQuoted.submitExit (fun _ _ => 0) straddleClose) ⟨_, rfl⟩).2
    LiveTrade.straddle.trade _ LiveTrade.straddle.legs _ .premiumStop LiveTrade.straddle.nav _
    (combine (ymdToOrdinal 2026 5 12) (hourMinute 10 0)) rfl rfl rfl rfl).2.1
  have hput := (hbooks _ (List.mem_cons_of_mem _ List.mem_cons_self)).2
  revert hput
  decide

end OptionsBot
