import OptionsBot.Core.MainLoop
import OptionsBot.Theory.RestartedTrail

/-!
# One Bad Row

A trade that cannot be managed should cost the bot that trade and no other: its
strategy may be gone from the registry, its strategy name unknown, or `manage`
may raise on it. The dispatcher's own loop over positions is built that way.

The main loop has a loop of its own and guards nothing in it. A row that raises
ends the task, and no later tick comes for anyone. So there is nothing it
isolates: it does what it should where managing no row raises, and on no tick
where managing one does.

How much of the tick the others still get depends on where the row raises. If it
cannot be turned into a position they get nothing at all; if stepping it raises,
the rows before it are served and those after it are not.

## Main definitions

* `MainTick.Raises`: Managing a row raises.
* `MainTick.Manageable`: Its names are known, its strategy is there and answers.
* `MainTick.Isolated`: What a row that raises should change.

## Theorems

* `manageRow_ok_iff`: A row is managed without an exception if it is manageable.
* `not_isolated_of_raises`: A row that raises is never isolated.
* `isolated_iff`: Exactly when the rows are isolated.
-/

namespace OptionsBot

-- The sample runs below compute with rationals.
attribute [local semireducible] Rat.add Rat.sub Rat.mul Rat.inv

namespace MainTick

variable (t : MainTick) (rows : List StoredTrade)

/-- Managing the row raises. -/
def Raises (r : StoredTrade) : Prop := ∃ e, t.manageRow rows r = .error e

/-- The row can be turned into a position, the strategy of it is registered, and its `manage`
    returns. -/
def Manageable (r : StoredTrade) : Prop :=
  ∃ position strategy actions,
    r.toPositionState t.market.chain t.market.now = .ok position ∧
      t.engine.registry.get position.strategyId = .ok strategy ∧
      t.manage strategy (ExitEngine.refreshed strategy (t.load position) (t.marketOf rows)).position
        (t.marketOf rows) = .ok actions

/-- Every other row gets the directives it would get without this one, and the loop goes on to
    the next tick. -/
structure Isolated (r : StoredTrade) : Prop where
  others : ∀ other ∈ rows, other.row.id ≠ r.row.id →
    t.directivesFor rows other.row.id =
      t.directivesFor (rows.filter (fun x => decide (x.row.id ≠ r.row.id))) other.row.id
  goesOn : (t.exits rows).raised = none

/-- A row is managed without an exception if it is manageable. -/
theorem manageRow_ok_iff (r : StoredTrade) :
    (∃ out, t.manageRow rows r = .ok out) ↔ t.Manageable rows r := by
  have hload : ∀ position, (t.load position).position = position := by
    intro position
    unfold load
    split
    · rfl
    · rfl
  unfold manageRow Manageable
  -- By the first of the three that raises: the row, the registry, or `manage`.
  cases r.toPositionState t.market.chain t.market.now with
  | error e =>
      refine ⟨?_, ?_⟩
      · rintro ⟨out, hout⟩
        cases hout
      · rintro ⟨position, strategy, actions, hposition, _⟩
        cases hposition
  | ok position =>
      simp only [stepPosition, ExitEngine.stepWith, hload]
      cases hget : t.engine.registry.get position.strategyId with
      | error e =>
          refine ⟨?_, ?_⟩
          · rintro ⟨out, hout⟩
            cases hout
          · rintro ⟨position', strategy, actions, hposition, hstrategy, _⟩
            cases hposition
            rw [hget] at hstrategy
            cases hstrategy
      | ok strategy =>
          dsimp only
          cases hmanage : t.manage strategy
            (ExitEngine.refreshed strategy (t.load position) (t.marketOf rows)).position
            (t.marketOf rows) with
          | error e =>
              refine ⟨?_, ?_⟩
              · rintro ⟨out, hout⟩
                cases hout
              · rintro ⟨position', strategy', actions, hposition, hstrategy, hactions⟩
                cases hposition
                rw [hget] at hstrategy
                cases hstrategy
                rw [hmanage] at hactions
                cases hactions
          | ok actions =>
              exact ⟨fun _ => ⟨position, strategy, actions, rfl, hget, hmanage⟩,
                fun _ => ⟨_, rfl⟩⟩

/-- A row that raises takes the loop with it. -/
theorem not_isolated_of_raises (r : StoredTrade) (hr : r ∈ rows) (h : t.Raises rows r) :
    ¬ t.Isolated rows r := by
  intro hisolated
  rcases (t.exits_goOn_iff rows).mp hisolated.goesOn r hr with ⟨out, hout⟩
  rcases h with ⟨e, he⟩
  rw [hout] at he
  cases he

/-- Whatever the registry, the rows, the market and what `manage` does: the open trades are
    isolated from each other exactly when every one of them is manageable. -/
theorem isolated_iff :
    (∀ r ∈ rows, t.Raises rows r → t.Isolated rows r) ↔ ∀ r ∈ rows, t.Manageable rows r := by
  constructor
  · intro hall r hr
    rw [← manageRow_ok_iff]
    cases hout : t.manageRow rows r with
    | ok out => exact ⟨out, rfl⟩
    | error e =>
        exact absurd (hall r hr ⟨e, hout⟩) (t.not_isolated_of_raises rows r hr ⟨e, hout⟩)
  · -- Where every row is manageable, none raises.
    rintro hall r hr ⟨e, he⟩
    rcases (t.manageRow_ok_iff rows r).mpr (hall r hr) with ⟨out, hout⟩
    rw [hout] at he
    cases he

/-- A tick at the expiry of the put, on which every `manage` returns. -/
def expiryTick : MainTick :=
  { engine := trailEngine
    manage := fun s position market => .ok (s.manage position market)
    market := { (optionTick 100).market with
      now := combine (ymdToOrdinal 2026 5 13) (hourMinute 10 0) }
    runtimes := fun _ => none
    closed := fun _ => false }

/-- The put as it is stored. -/
def storedPut : StoredTrade :=
  { strategyId := "directional", underlying := "BTC", row := TradeTrack.putTrade.trade
    legs := TradeTrack.putTrade.legs }

/-- A trade of a strategy that the bot no longer has. -/
def staleTrade : StoredTrade :=
  { storedPut with strategyId := "iron_condor", row := { storedPut.row with id := 2 } }

/-- At its expiry the put is to be closed. Beside the stale trade it is not, and the loop ends. -/
theorem stale_trade_stops_exits :
    (expiryTick.directivesFor [storedPut] 1).map (fun ds => ds.map (fun d => (d.kind, d.trigger))) =
        some [(.close, some .forceCloseExpiry)] ∧
      expiryTick.directivesFor [storedPut, staleTrade] 1 = none ∧
      (expiryTick.exits [storedPut, staleTrade]).raised =
        some (.valueError "'iron_condor' is not a valid StrategyId") ∧
      ¬ ∀ r ∈ [storedPut, staleTrade], expiryTick.Raises [storedPut, staleTrade] r →
        expiryTick.Isolated [storedPut, staleTrade] r := by
  have hraised : (expiryTick.exits [storedPut, staleTrade]).raised =
      some (.valueError "'iron_condor' is not a valid StrategyId") := by decide
  refine ⟨by decide, by decide, hraised, fun hall => ?_⟩
  have hgoesOn := (hall staleTrade (List.mem_cons_of_mem _ List.mem_cons_self)
    ⟨.valueError "'iron_condor' is not a valid StrategyId", rfl⟩).goesOn
  rw [hraised] at hgoesOn
  cases hgoesOn

end MainTick

end OptionsBot
