import OptionsBot.Core.GoLive
import OptionsBot.Core.MainRun
import OptionsBot.Core.RiskManager

/-!
# Promotions Next to a Running Engine

The engine's process, the database and the files it is configured by, and any number of runs of
the go-live gate. They share the database and the files, and nothing orders them: an engine may
write between any two steps of a gate, and two gates may be under way.

The process reads the files when it is started, and not again. The strategies that trade live are
the ones that had the flag by then, and trades are live if the process was started in live mode.

## Main definitions

* `PromotionDesk`: All of it.
* `PromotionEvent`: What can happen next.
* `PromotionDesk.step`: What it does.

## Theorems

* `gate_live_enabled`: What a live gate asks of a strategy.
-/

namespace OptionsBot

/-- The main loop and its rows, the history of account values, the files, the configuration of
    the process if one is running, and the gates that are under way. -/
structure PromotionDesk where
  loop : MainLoop
  navHistory : NavTable
  dir : ConfigDir
  app : Option AppConfig := none
  gates : List GateRun := []

inductive PromotionEvent where
  | start (settings : Settings)
  | stop
  /-- A step of the main loop that is no entry. -/
  | desk (e : DeskEvent)
  /-- An intent of the main loop, and what the gate and the executor have for it. -/
  | enter (nav : NavTracker) (input : GateInput) (a : EntryInput)
  /-- A write to the history of account values. -/
  | navHistory (table : NavTable)
  | goLive (strategyId : String) (dryRun : Bool)
  /-- The next step of a gate. -/
  | check (i : Nat) (integrity : Except String (Option String))

/-- The risk manager of a process. -/
def AppConfig.riskManager (app : AppConfig) (nav : NavTracker) : RiskManager :=
  { cfg := app.globalConfig, nav := nav, strategies := app.strategyById,
    requireLiveEnabled := app.isLive }

namespace PromotionDesk

variable (yaml : Yaml) (models : ConfigModels) (parseFloat : String → Option ℚ)
  (parseInt : String → Option Int) (s : PromotionDesk)

/-- A start of the process. One that the loader refuses ends at once. -/
def start (settings : Settings) : PromotionDesk :=
  match loadAll yaml models s.dir settings with
  | .error _ => { s with loop := { rows := s.loop.rows }, app := none }
  | .ok app => { s with loop := { rows := s.loop.rows }, app := some app }

/-- An intent of the main loop. It is opened in the mode of the process, if its risk manager
    approves. -/
def enter (nav : NavTracker) (input : GateInput) (a : EntryInput) : PromotionDesk :=
  match s.app with
  | none => s
  | some app =>
    match (app.riskManager nav).gate a.intent input with
    | .error _ => { s with loop := { s.loop with phase := .ended } }
    | .ok sizing =>
      if sizing.approved then
        { s with loop := s.loop.step (.enter { a with sizing := sizing, mode := app.mode }) }
      else s

/-- The next step of a gate, on what there is by now. -/
def check (i : Nat) (integrity : Except String (Option String)) : PromotionDesk :=
  match s.gates[i]? with
  | none => s
  | some run =>
    let w : GateWorld :=
      { dir := s.dir, trades := s.loop.rows.map DeskRow.record, navHistory := s.navHistory,
        integrity := integrity }
    let next := run.step yaml parseFloat parseInt w
    { s with gates := s.gates.set i next.1, dir := next.2 }

def goLive (strategyId : String) (dryRun : Bool) : PromotionDesk :=
  match GoLiveGate.begin yaml s.dir strategyId dryRun with
  | .ok (.inr run) => { s with gates := s.gates ++ [run] }
  | _ => s

def step (s : PromotionDesk) : PromotionEvent → PromotionDesk
  | .start settings => s.start yaml models settings
  | .stop => { s with loop := { rows := s.loop.rows }, app := none }
  | .desk e =>
    match s.app, e with
    | none, _ => s
    | some _, .enter _ => s
    | some _, e => { s with loop := s.loop.step e }
  | .enter nav input a => s.enter nav input a
  | .navHistory table => { s with navHistory := table }
  | .goLive strategyId dryRun => s.goLive yaml strategyId dryRun
  | .check i integrity => s.check yaml parseFloat parseInt i integrity

end PromotionDesk

/-- What a manager that asks for the flag has approved is of a strategy that has it. -/
theorem RiskManager.gate_live_enabled (risk : RiskManager) (intent : Intent) (input : GateInput)
    (sizing : SizingResult) (h : risk.gate intent input = .ok sizing)
    (happroved : sizing.approved = true) (hlive : risk.requireLiveEnabled = true) :
    ∃ strategy, risk.strategies intent.strategyId = some strategy ∧
      strategy.base.enabledLive = true := by
  rcases risk.gate_approved intent input sizing h happroved with ⟨_, _, strategy, hstrategy, _⟩
  refine ⟨strategy, hstrategy, ?_⟩
  by_contra hflag
  rw [Bool.not_eq_true] at hflag
  -- Without the flag the gate has a reason of its own, or one before it.
  have hreject : ∀ decision, decision ≠ .approved →
      (Except.ok (RiskManager.reject decision intent) : Except PyError SizingResult) =
        .ok sizing → False := by
    intro decision hne hsame
    cases hsame
    rw [SizingResult.approved, decide_eq_true_iff] at happroved
    exact hne happroved
  unfold RiskManager.gate at h
  rw [hstrategy] at h
  simp only [hlive, hflag, Bool.not_false, and_self, if_true] at h
  by_cases hopen : risk.window.isOpen input.nowUtc = true
  · simp only [hopen, Bool.not_true, Bool.false_eq_true, if_false] at h
    rcases hcaps : risk.evaluateCaps with e | cap
    · rw [hcaps] at h
      cases h
    · simp only [hcaps] at h
      by_cases hcap : capToDecision cap.status = .approved
      · rw [if_neg (not_not.mpr hcap)] at h
        by_cases henabled : strategy.base.enabled = true
        · rw [if_neg (by rw [henabled]; exact Bool.false_ne_true)] at h
          exact hreject _ (by decide) h
        · rw [if_pos (by rw [Bool.not_eq_true] at henabled; rw [henabled]; rfl)] at h
          exact hreject _ (by decide) h
      · rw [if_pos hcap] at h
        cases h
        rw [SizingResult.approved, decide_eq_true_iff] at happroved
        exact hcap happroved
  · rw [Bool.not_eq_true] at hopen
    simp only [hopen, Bool.not_false, if_true] at h
    exact hreject _ (by decide) h

end OptionsBot
