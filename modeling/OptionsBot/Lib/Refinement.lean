import OptionsBot.Lib.Run

/-!
# Refinement by Emitted Operations

A system that takes many small steps, and a plain one that takes few large ones. A step of
the first stands for some operations of the second, most often for none. If every step
keeps an invariant and a relation between the two, so does every run, and every operation
is one that the plain system allows at that point. So what holds of the runs of the plain
system is known of the other.

## Main definitions

* `emitted`: The operations that a run stands for.
* `Refines`: What has to be shown of one step.

## Theorems

* `Refines.run`: What follows for a run.
* `along_split`: What holds of the operations at any place of a list.
-/

namespace OptionsBot

section Refinement

variable {σ ε ω β : Type} (step : σ → ε → σ) (ops : σ → ε → List ω) (apply : β → ω → β)

/-- The operations that a run stands for. -/
def emitted : σ → List ε → List ω
  | _, [] => []
  | s, e :: rest => ops s e ++ emitted (step s e) rest

/-- A step keeps the invariant, and what it stands for is allowed and leads to related states. -/
structure Refines (inv : σ → Prop) (rel : σ → β → Prop) (allowed : β → ω → Prop) : Prop where
  keeps : ∀ s e, inv s → inv (step s e)
  follows : ∀ s e b, inv s → rel s b → rel (step s e) ((ops s e).foldl apply b)
  allows : ∀ s e b, inv s → rel s b → Along apply allowed b (ops s e)

variable {step ops apply}

/-- A run stands for operations that are all allowed, and leads to related states. -/
theorem Refines.run {inv : σ → Prop} {rel : σ → β → Prop} {allowed : β → ω → Prop}
    (h : Refines step ops apply inv rel allowed) (s : σ) (b : β) (hs : inv s) (hb : rel s b)
    (events : List ε) :
    inv (events.foldl step s) ∧
      rel (events.foldl step s) ((emitted step ops s events).foldl apply b) ∧
      Along apply allowed b (emitted step ops s events) := by
  induction events generalizing s b with
  | nil => exact ⟨hs, hb, trivial⟩
  | cons e rest ih =>
      rcases ih (step s e) _ (h.keeps s e hs) (h.follows s e b hs hb) with ⟨hinv, hrel, hall⟩
      rw [emitted, List.foldl_append, along_append]
      exact ⟨hinv, hrel, h.allows s e b hs hb, hall⟩

/-- What holds along a list holds of the event at any place. -/
theorem along_split {allowed : β → ω → Prop} (b : β) (before after : List ω) (op : ω)
    (h : Along apply allowed b (before ++ op :: after)) :
    allowed (before.foldl apply b) op ∧
      Along apply allowed (apply (before.foldl apply b) op) after := by
  rw [along_append] at h
  exact h.2

end Refinement

end OptionsBot
