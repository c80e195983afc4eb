import OptionsBot.Core.Router

/-!
# Dry Executor

The simulator that stands in for the exchange: each leg fills at the middle
price of its cached quote, worse by a random slippage, or is rejected if there
is no positive middle. An entry needs every leg, an exit succeeds whatever its
legs did.

The random draws are a parameter, one for each leg, so a result about every
sequence of draws covers every seed.

## Main definitions

* `DryExecutor.fillLeg`, `DryExecutor.fillLegs`: Simulated fills.
* `DryExecutor.submitEntry`, `DryExecutor.submitExit`: The two requests.

## Theorems

* `fillLegs_length`: Every leg of a request gets a fill.
* `submitEntry_fills`: The same, for an entry.
-/

namespace OptionsBot

structure DryExecutor where
  chain : ChainCache
  slipBps : StrategyId → Nat := fun id => if id = .creditVertical then 100 else 50

namespace DryExecutor

variable (self : DryExecutor)

/-- The fill of one leg, `draw` being the slippage drawn for it in basis points. -/
def fillLeg (strategyId : StrategyId) (tradeId lots : Nat) (purpose : String) (draw : ℚ) (idx : Nat)
    (leg : LegIntent) : LegFill :=
  let coid := ClientOrderId.generated strategyId.value tradeId idx purpose
  let rejected : LegFill :=
    { symbol := leg.symbol, side := leg.side, qtyRequested := lots, qtyFilled := 0,
      avgFillPrice := none, legIdx := idx, clientOrderId := coid, state := .rejected }
  match (self.chain.getQuote leg.symbol).bind QuoteSnapshot.mid with
  | none => rejected
  | some mid =>
    if mid ≤ 0 then rejected
    else
      let slip := draw / 10000
      { symbol := leg.symbol, side := leg.side, qtyRequested := lots, qtyFilled := lots,
        avgFillPrice := some (roundDigits (mid * (1 + leg.side.sign * |slip|)) 4),
        legIdx := idx, clientOrderId := coid, state := .filled }

/-- The fills of the legs in order. The generator draws from a range of the
    strategy's slippage, which `uniform` is given. -/
def fillLegs (strategyId : StrategyId) (tradeId : Nat) (legs : List LegIntent) (lots : Nat)
    (purpose : String) (uniform : Nat → Nat → ℚ) : List LegFill :=
  legs.mapIdx (fun idx leg =>
    self.fillLeg strategyId tradeId lots purpose (uniform (self.slipBps strategyId) idx) idx leg)

def submitEntry (uniform : Nat → Nat → ℚ) (req : EntryRequest) : EntryResult :=
  let fills := self.fillLegs req.strategyId req.tradeId req.legs req.lots "entry" uniform
  if fills.any (fun f => !f.isComplete) then
    { success := false, tradeId := req.tradeId, fills := fills,
      error := some "dry_executor_partial_fill" }
  else { success := true, tradeId := req.tradeId, fills := fills }

/-- The legs of an exit, each turned round. -/
def flipped (legs : List LegIntent) : List LegIntent :=
  legs.map (fun leg => { leg with side := leg.side.flip })

def submitExit (uniform : Nat → Nat → ℚ) (req : ExitRequest) : ExitResult :=
  { success := true, tradeId := req.tradeId,
    fills := self.fillLegs req.strategyId req.tradeId (flipped req.legs) req.lots
      ("exit_" ++ req.trigger.value) uniform }

theorem fillLegs_length (strategyId : StrategyId) (tradeId : Nat) (legs : List LegIntent)
    (lots : Nat) (purpose : String) (uniform : Nat → Nat → ℚ) :
    (self.fillLegs strategyId tradeId legs lots purpose uniform).length = legs.length := by
  rw [fillLegs, List.length_mapIdx]

theorem submitEntry_fills (uniform : Nat → Nat → ℚ) (req : EntryRequest) :
    (self.submitEntry uniform req).fills.length = req.legs.length := by
  unfold submitEntry
  simp only
  split_ifs <;> exact self.fillLegs_length _ _ _ _ _ _

end DryExecutor

end OptionsBot
