import OptionsBot.Core.CreditVertical
import OptionsBot.Core.Directional
import OptionsBot.Core.LongStraddle

/-!
# Strategies and Their Registry

The three strategies behind one interface, and the registry a process keeps
them in, at most one under each id.

Whatever the strategy, `manage` answers with exactly one action, and that action
is one of three kinds. Everything that consumes actions is proved from that.

## Main definitions

* `Strategy`: One of the three strategies.
* `Strategy.evaluate`, `Strategy.manage`: The two methods of the interface.
* `StrategyRegistry`: The strategies of a process.

## Theorems

* `evaluate_id`: The intents of a strategy carry its id.
* `manage_single`: One action of one of three kinds.
* `get_id`: A strategy is registered under its own id.
-/

namespace OptionsBot

/-- An action that closes, moves the trailing stop, or does nothing. -/
inductive Action.Plain : Action → Prop
  | close (trigger : ExitTrigger) : Action.Plain (.closeFor trigger)
  | trail (stop : ℚ) : Action.Plain (.trailTo stop)
  | noOp : Action.Plain .noOp

inductive Strategy where
  | directional (self : DirectionalStrategy)
  | creditVertical (self : CreditVerticalStrategy)
  | longStraddle (self : LongStraddleStrategy)

namespace Strategy

def id : Strategy → StrategyId
  | directional _ => .directional
  | creditVertical _ => .creditVertical
  | longStraddle _ => .longStraddle

def evaluate (npStd : List ℚ → ℚ) (market : MarketState) :
    Strategy → Except PyError (List Intent × List Decision)
  | directional self => self.evaluate market
  | creditVertical self => self.evaluate market
  | longStraddle self => self.evaluate npStd market

def manage (position : PositionState) (market : MarketState) : Strategy → List Action
  | directional self => self.manage position market
  | creditVertical self => self.manage position market
  | longStraddle self => self.manage position market

/-- The intents of a strategy carry its id. -/
theorem evaluate_id (s : Strategy) (npStd : List ℚ → ℚ) (market : MarketState)
    (intents : List Intent) (decisions : List Decision)
    (heval : s.evaluate npStd market = .ok (intents, decisions)) (intent : Intent)
    (hmem : intent ∈ intents) : intent.strategyId = s.id := by
  cases s with
  | directional self =>
      rcases mem_evaluateAll _ _ _ _ heval intent hmem with ⟨u, _, d, hd, hi⟩
      rcases self.evaluateOne_intent market u d intent hd hi with ⟨_, _, _, _, _, _, hintent⟩
      rw [hintent]
      rfl
  | creditVertical self =>
      rcases mem_evaluateAll _ _ _ _ heval intent hmem with ⟨u, _, d, hd, hi⟩
      rcases self.evaluateOne_intent market u d intent hd hi with ⟨_, _, _, _, hid, _⟩
      exact hid
  | longStraddle self =>
      rcases mem_evaluateAll _ _ _ _ heval intent hmem with ⟨u, _, d, hd, hi⟩
      rcases self.evaluateOne_intent npStd market u d intent hd hi with
        ⟨_, _, _, _, _, _, _, _, _, _, _, hintent⟩
      rw [hintent]
      rfl

theorem plain_priced (self : DirectionalStrategy) (position : PositionState) (market : MarketState)
    (leg : LegState) (mid entry : ℚ) : (self.managePriced position market leg mid entry).Plain := by
  unfold DirectionalStrategy.managePriced
  simp only
  split
  · exact Action.Plain.close _
  · split_ifs
    · exact Action.Plain.close _
    · exact Action.Plain.close _
    · exact Action.Plain.close _
    · exact Action.Plain.close _
    · exact Action.Plain.trail _
    · exact Action.Plain.noOp

theorem manage_single (s : Strategy) (position : PositionState) (market : MarketState) :
    ∃ action, s.manage position market = [action] ∧ action.Plain := by
  cases s with
  | directional self =>
      simp only [manage, DirectionalStrategy.manage]
      split
      · exact ⟨_, rfl, Action.Plain.close _⟩
      · split
        · split
          · exact ⟨_, rfl, Action.Plain.noOp⟩
          · exact ⟨_, rfl, plain_priced _ _ _ _ _ _⟩
        · exact ⟨_, rfl, Action.Plain.noOp⟩
  | creditVertical self =>
      simp only [manage, CreditVerticalStrategy.manage]
      split
      · exact ⟨_, rfl, Action.Plain.close _⟩
      · split
        · exact ⟨_, rfl, Action.Plain.noOp⟩
        · split_ifs
          · exact ⟨_, rfl, Action.Plain.close _⟩
          · exact ⟨_, rfl, Action.Plain.close _⟩
          · exact ⟨_, rfl, Action.Plain.noOp⟩
  | longStraddle self =>
      simp only [manage, LongStraddleStrategy.manage]
      split
      · exact ⟨_, rfl, Action.Plain.close _⟩
      · split
        · exact ⟨_, rfl, Action.Plain.noOp⟩
        · split_ifs
          · exact ⟨_, rfl, Action.Plain.noOp⟩
          · exact ⟨_, rfl, Action.Plain.close _⟩
          · exact ⟨_, rfl, Action.Plain.close _⟩
          · exact ⟨_, rfl, Action.Plain.noOp⟩

end Strategy

/-- The strategies of a process, at most one under each id. -/
structure StrategyRegistry where
  strategies : List Strategy
  distinct : (strategies.map Strategy.id).Nodup

namespace StrategyRegistry

def get (self : StrategyRegistry) (sid : StrategyId) : Except PyError Strategy :=
  match Table.lookup Strategy.id sid self.strategies with
  | none => .error (.keyError sid.value)
  | some s => .ok s

theorem get_id (self : StrategyRegistry) (sid : StrategyId) (s : Strategy)
    (h : self.get sid = .ok s) : s.id = sid := by
  unfold get at h
  split at h
  · cases h
  · next hfound =>
    cases h
    exact (Table.mem_of_lookup Strategy.id sid self.strategies s hfound).2

end StrategyRegistry

end OptionsBot
