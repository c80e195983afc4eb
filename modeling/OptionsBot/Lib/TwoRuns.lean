/-!
# Two Runs Seen Alike

A system that shows something at every step, and two of its states that see the same
events. What is shown along the way is the same when some relation between the states
says that one step shows the same and keeps the relation. Only the shown values are
compared: the states may differ for good.

## Main definitions

* `shownAlong`: What is shown along a list of events.
* `Unwinding`: A relation under which a step shows the same and which it keeps.

## Theorems

* `Unwinding.shown_eq`: Related states show the same.
* `shown_forall`: What every step shows under an invariant, a run shows.
-/

namespace OptionsBot

section TwoRuns

variable {σ ε ω : Type} (step : σ → ε → σ × ω)

/-- What is shown along a list of events. -/
def shownAlong : σ → List ε → List ω
  | _, [] => []
  | s, e :: rest => (step s e).2 :: shownAlong (step s e).1 rest

/-- Related states show the same at the next event, and are related after it. -/
structure Unwinding (R : σ → σ → Prop) : Prop where
  same : ∀ s t e, R s t → (step s e).2 = (step t e).2
  keeps : ∀ s t e, R s t → R (step s e).1 (step t e).1

variable {step} {R : σ → σ → Prop}

/-- Related states show the same along any events. -/
theorem Unwinding.shown_eq (h : Unwinding step R) (s t : σ) (hst : R s t) (events : List ε) :
    shownAlong step s events = shownAlong step t events := by
  -- Over both states, since each event leads to another pair of related ones.
  induction events generalizing s t with
  | nil => rfl
  | cons e rest ih =>
      rw [shownAlong, shownAlong, h.same s t e hst, ih _ _ (h.keeps s t e hst)]

/-- What every step shows under an invariant, every run shows. -/
theorem shown_forall (inv : σ → Prop) (P : ω → Prop)
    (hstep : ∀ s e, inv s → inv (step s e).1 ∧ P (step s e).2) (s : σ) (hs : inv s)
    (events : List ε) : ∀ o ∈ shownAlong step s events, P o := by
  induction events generalizing s with
  | nil => exact fun o ho => absurd ho List.not_mem_nil
  | cons e rest ih =>
      intro o ho
      rcases List.mem_cons.mp ho with rfl | hlater
      · exact (hstep s e hs).2
      · exact ih _ (hstep s e hs).1 o hlater

end TwoRuns

end OptionsBot
