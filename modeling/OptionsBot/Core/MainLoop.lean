import OptionsBot.Core.Tick

/-!
# The Exits of a Tick

How the main loop manages the open trades at a tick. The rows come out of the
database with the names of strategy and underlying as text; they are all turned
into positions first, then each is stepped and its directives carried out, and
last the rows still open are counted. None of the three is guarded, so whatever
raises there ends the loop.

What a strategy's `manage` does is a parameter, since it may raise. The
dispatcher has a function for the same job in which every position is guarded.
The main loop does not call it.

## Main definitions

* `StrategyId.ofValue`, `Underlying.ofValue`: The enumerations, by their names.
* `StoredTrade`: A row as it is stored.
* `ExitEngine.stepWith`: A step whose `manage` may raise.
* `MainTick`: What the exits of a tick work with.
* `MainTick.exits`: The exits of a tick.
* `manageAll`: The guarded loop of the dispatcher.

## Theorems

* `stepWith_ok`: Where `manage` does not raise, the step is the engine's.
* `exits_goOn_iff`: The loop goes on when no row raises.
* `exits_before`: Which rows still get their directives.
* `exits_none`: None do when a row cannot be turned into a position.
* `manageAll_isolated`: The guarded loop leaves a position that raises out.
-/

namespace OptionsBot

def Underlying.value : Underlying → String
  | btc => "BTC"
  | eth => "ETH"

/-- `StrategyId(value)`. -/
def StrategyId.ofValue (value : String) : Except PyError StrategyId :=
  match [directional, creditVertical, longStraddle].find? (fun id => decide (id.value = value)) with
  | none => .error (.valueError ("'" ++ value ++ "' is not a valid StrategyId"))
  | some id => .ok id

/-- `Underlying(value)`. -/
def Underlying.ofValue (value : String) : Except PyError Underlying :=
  match [btc, eth].find? (fun u => decide (u.value = value)) with
  | none => .error (.valueError ("'" ++ value ++ "' is not a valid Underlying"))
  | some u => .ok u

/-- A row of `trades` as it is stored, with its legs. The two names are text, and those of `row`
    are not looked at. -/
structure StoredTrade where
  strategyId : String
  underlying : String
  row : Trade
  legs : List Leg

namespace StoredTrade

/-- The view of a stored row. -/
def toPositionState (t : StoredTrade) (chain : ChainCache) (now : DateTime) :
    Except PyError PositionState :=
  match tradeExpiry t.row t.legs now with
  | .error e => .error e
  | .ok _ =>
    match StrategyId.ofValue t.strategyId with
    | .error e => .error e
    | .ok strategyId =>
      match Underlying.ofValue t.underlying with
      | .error e => .error e
      | .ok underlying =>
        tradeToPositionState { t.row with strategyId := strategyId, underlying := underlying }
          t.legs chain now

end StoredTrade

/-- What a strategy answers for a position, or the exception it raises. -/
abbrev Manage := Strategy → PositionState → MarketState → Except PyError (List Action)

/-- A step of the engine with a `manage` that may raise. -/
def ExitEngine.stepWith (self : ExitEngine) (manage : Manage) (runtime : PositionRuntime)
    (market : MarketState) : Except PyError (PositionRuntime × List ExitDirective) :=
  match self.registry.get runtime.position.strategyId with
  | .error e => .error e
  | .ok strategy =>
    let next := refreshed strategy runtime market
    match manage strategy next.position market with
    | .error e => .error e
    | .ok actions => .ok (self.translateActions strategy actions market next)

/-- Where `manage` does not raise, the step is the engine's. -/
theorem ExitEngine.stepWith_ok (self : ExitEngine) (runtime : PositionRuntime)
    (market : MarketState) :
    self.stepWith (fun s position market => .ok (s.manage position market)) runtime market =
      self.step runtime market := by
  unfold stepWith step
  cases self.registry.get runtime.position.strategyId with
  | error e => rfl
  | ok strategy => rfl

/-- What the exits of a tick leave: the directives that were carried out, by trade, and the
    exception that ended the loop. -/
structure TickExits where
  directives : List (Nat × List ExitDirective)
  raised : Option PyError

/-- What the exits of a tick work with: the market without its quotes, the records of earlier
    ticks, and the trades that the exits of this one will have closed. -/
structure MainTick where
  engine : ExitEngine
  manage : Manage
  market : MarketState
  runtimes : Nat → Option PositionRuntime
  closed : Nat → Bool

namespace MainTick

variable (t : MainTick)

/-- The market of the tick: it quotes the legs of the open rows. -/
def marketOf (rows : List StoredTrade) : MarketState :=
  { t.market with
    quoteFor := quoteForOpen t.market.chain (rows.map (fun r => (r.row, r.legs))) }

/-- The record a position is stepped with. -/
def load (position : PositionState) : PositionRuntime :=
  match t.runtimes position.tradeId with
  | none => { position := position }
  | some runtime => { runtime with position := position }

/-- Step a position. -/
def stepPosition (rows : List StoredTrade) (position : PositionState) :
    Except PyError (Nat × List ExitDirective) :=
  (t.engine.stepWith t.manage (t.load position) (t.marketOf rows)).map (fun next =>
    (position.tradeId, next.2))

/-- Manage a row, from its columns to its directives. -/
def manageRow (rows : List StoredTrade) (r : StoredTrade) :
    Except PyError (Nat × List ExitDirective) :=
  match r.toPositionState t.market.chain t.market.now with
  | .error e => .error e
  | .ok position => t.stepPosition rows position

/-- The names of the strategies of the open rows, for the counts. -/
def accountedIds (rows : List StoredTrade) : Except PyError (List StrategyId) :=
  rows.mapM (fun r => StrategyId.ofValue r.strategyId)

/-- The exits of a tick. -/
def exits (rows : List StoredTrade) : TickExits :=
  -- All rows become positions before the first is stepped.
  match rows.mapM (fun r => r.toPositionState t.market.chain t.market.now) with
  | .error e => { directives := [], raised := some e }
  | .ok positions =>
    let stepped := forEach (t.stepPosition rows) positions
    match stepped.2 with
    | some e => { directives := stepped.1, raised := some e }
    | none =>
      -- The counts are taken after the exits, on the rows that these leave open.
      match accountedIds (rows.filter (fun r => !t.closed r.row.id)) with
      | .error e => { directives := stepped.1, raised := some e }
      | .ok _ => { directives := stepped.1, raised := none }

/-- The directives a trade is given at a tick. -/
def directivesFor (rows : List StoredTrade) (tradeId : Nat) : Option (List ExitDirective) :=
  ((t.exits rows).directives.find? (fun d => decide (d.1 = tradeId))).map Prod.snd

variable (rows : List StoredTrade)

/-- A row that cannot be turned into a position has raised. -/
theorem manageRow_position (r : StoredTrade) (out : Nat × List ExitDirective)
    (h : t.manageRow rows r = .ok out) :
    ∃ position, r.toPositionState t.market.chain t.market.now = .ok position := by
  unfold manageRow at h
  split at h
  · cases h
  · next position hposition => exact ⟨position, hposition⟩

/-- Rows that could be turned into positions have known strategies. -/
theorem accountedIds_ok
    (h : ∀ r ∈ rows, ∃ position, r.toPositionState t.market.chain t.market.now = .ok position)
    (keep : StoredTrade → Bool) : ∃ ids, accountedIds (rows.filter keep) = .ok ids := by
  -- The counts read a name that was read on the way to the position.
  refine mapM_isOk _ _ fun r hr => ?_
  rcases h r (List.mem_filter.mp hr).1 with ⟨position, hposition⟩
  unfold StoredTrade.toPositionState at hposition
  split at hposition
  · cases hposition
  · split at hposition
    · cases hposition
    · next id hid => exact ⟨id, hid⟩

/-- With every row turned into a position, the exits are a loop over the rows. -/
theorem exits_eq
    (h : ∀ r ∈ rows, ∃ position, r.toPositionState t.market.chain t.market.now = .ok position) :
    t.exits rows = { directives := (forEach (t.manageRow rows) rows).1
                     raised := (forEach (t.manageRow rows) rows).2 } := by
  rcases mapM_isOk (fun r => r.toPositionState t.market.chain t.market.now) rows h with
    ⟨positions, hpositions⟩
  have hloop : forEach (t.stepPosition rows) positions = forEach (t.manageRow rows) rows := by
    refine forEach_mapM _ _ _ (fun r position hr => ?_) rows positions hpositions
    rw [manageRow, hr]
  rcases t.accountedIds_ok rows h (fun r => !t.closed r.row.id) with ⟨ids, hids⟩
  unfold exits
  rw [hpositions]
  dsimp only
  rw [hloop, hids]
  cases (forEach (t.manageRow rows) rows).2 with
  | none => rfl
  | some e => rfl

/-- Nobody is given directives when a row cannot be turned into a position. -/
theorem exits_none (r : StoredTrade) (hr : r ∈ rows) (e : PyError)
    (h : r.toPositionState t.market.chain t.market.now = .error e) :
    (t.exits rows).directives = [] ∧ (t.exits rows).raised ≠ none := by
  unfold exits
  cases hpositions : rows.mapM (fun r => r.toPositionState t.market.chain t.market.now) with
  | error e' => exact ⟨rfl, Option.some_ne_none e'⟩
  | ok positions =>
      rcases mapM_ok_mem _ rows positions hpositions r hr with ⟨position, _, hposition⟩
      rw [h] at hposition
      cases hposition

/-- The loop goes on when managing no row raises. -/
theorem exits_goOn_iff :
    (t.exits rows).raised = none ↔ ∀ r ∈ rows, ∃ out, t.manageRow rows r = .ok out := by
  by_cases h : ∀ r ∈ rows, ∃ position, r.toPositionState t.market.chain t.market.now = .ok position
  · rw [t.exits_eq rows h]
    exact forEach_ends_iff (t.manageRow rows) rows
  · -- A row that is no position raises before the loop and when it is managed alone.
    refine ⟨fun hnone => ?_, fun hall => ?_⟩
    · simp only [not_forall, not_exists] at h
      rcases h with ⟨r, hr, hfails⟩
      cases hposition : r.toPositionState t.market.chain t.market.now with
      | error e => exact absurd hnone (t.exits_none rows r hr e hposition).2
      | ok position => exact absurd hposition (hfails position)
    · refine absurd (fun r hr => ?_) h
      rcases hall r hr with ⟨out, hout⟩
      exact t.manageRow_position rows r out hout

/-- Where the rows can all be turned into positions, those before the first that raises are given
    their directives, and those after it none. -/
theorem exits_before (before after : List StoredTrade) (r : StoredTrade) (e : PyError)
    (hrows : rows = before ++ r :: after)
    (h : ∀ r ∈ rows, ∃ position, r.toPositionState t.market.chain t.market.now = .ok position)
    (hbefore : ∀ r ∈ before, ∃ out, t.manageRow rows r = .ok out)
    (hr : t.manageRow rows r = .error e) :
    t.exits rows = { directives := (forEach (t.manageRow rows) before).1, raised := some e } := by
  rw [t.exits_eq rows h]
  have hloop := forEach_stops (t.manageRow rows) before after r e
    ((forEach_ends_iff _ before).mpr hbefore) hr
  rw [← hrows] at hloop
  rw [hloop]

end MainTick

/-- The dispatcher's loop over the positions, with every one of them guarded. -/
def manageAll (registry : StrategyRegistry) (manage : Manage) (market : MarketState)
    (positions : List PositionState) : List (Nat × List Action) :=
  positions.filterMap (fun position =>
    match registry.get position.strategyId with
    | .error _ => none
    | .ok strategy =>
      match manage strategy position market with
      | .error _ => none
      | .ok actions => some (position.tradeId, actions))

/-- A position that raises changes nothing for the others in the guarded loop. -/
theorem manageAll_isolated (registry : StrategyRegistry) (manage : Manage) (market : MarketState)
    (before after : List PositionState) (position : PositionState)
    (h : ∀ strategy, registry.get position.strategyId = .ok strategy →
      ∃ e, manage strategy position market = .error e) :
    manageAll registry manage market (before ++ position :: after) =
      manageAll registry manage market (before ++ after) := by
  unfold manageAll
  rw [List.filterMap_append, List.filterMap_append, List.filterMap_cons_none]
  cases hget : registry.get position.strategyId with
  | error e => rfl
  | ok strategy =>
      rcases h strategy hget with ⟨e, he⟩
      dsimp only
      rw [he]

end OptionsBot
