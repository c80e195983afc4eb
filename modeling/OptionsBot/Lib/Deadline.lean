import Mathlib.Order.Lattice

/-!
# Deadlines

A map from keys to deadlines, and a log of events. An event may set a deadline
for a key and may pass on a key. The map has one deadline a key, so a later one
replaces an earlier one, and what has been set can be lost.

It is not lost as long as no deadline that still runs is replaced by an earlier
one: then whatever was set is over by now, or covered by the deadline the map
has. And with that an event that passes only where no deadline runs keeps its
distance to every event before it.

## Main definitions

* `Spaced`: An event passes no key before the deadline that another one sets.
* `Covered`: The map has everything that the log has set and that still runs.
* `Lasts`: No deadline that runs is replaced by an earlier one.

## Theorems

* `covered_lasts`: Deadlines that last keep a log covered.
* `covered_append`: So does an event whose deadlines the map has.
* `spaced_append`: An event that passes no running deadline is spaced.
-/

namespace OptionsBot

section Deadline

variable {ε κ τ : Type} [LinearOrder τ] (time : ε → τ) (sets : ε → κ → τ → Prop)
  (passes : ε → κ → Prop)

/-- The second event passes no key before the deadline that the first one sets for it. -/
def Spaced (a b : ε) : Prop := ∀ k u, sets a k u → passes b k → u ≤ time b

/-- What the events of a log set is over, or not later than the deadline in the map. -/
def Covered (deadline : κ → Option τ) (now : τ) (log : List ε) : Prop :=
  ∀ a ∈ log, ∀ k u, sets a k u → u ≤ now ∨ ∃ c, deadline k = some c ∧ u ≤ c

/-- A deadline that runs is there afterwards, or a later one. -/
def Lasts (now : τ) (before after : κ → Option τ) : Prop :=
  ∀ k c, before k = some c → now < c → ∃ c', after k = some c' ∧ c ≤ c'

variable {time sets passes} {deadline after : κ → Option τ} {now later : τ} {log : List ε}

theorem Lasts.refl (now : τ) (deadline : κ → Option τ) : Lasts now deadline deadline :=
  fun _ c hc _ => ⟨c, hc, le_refl c⟩

theorem covered_lasts (h : Covered sets deadline now log) (hlater : now ≤ later)
    (hlasts : Lasts later deadline after) : Covered sets after later log := by
  intro a ha k u hsets
  rcases h a ha k u hsets with hover | ⟨c, hc, hu⟩
  · exact Or.inl (le_trans hover hlater)
  · -- The deadline that covered it is over by now as well, or it lasts.
    rcases le_or_gt c later with hle | hlt
    · exact Or.inl (le_trans hu hle)
    · rcases hlasts k c hc hlt with ⟨c', hc', hle⟩
      exact Or.inr ⟨c', hc', le_trans hu hle⟩

theorem covered_append (h : Covered sets deadline now log) (e : ε)
    (he : ∀ k u, sets e k u → u ≤ now ∨ ∃ c, deadline k = some c ∧ u ≤ c) :
    Covered sets deadline now (log ++ [e]) := by
  intro a ha
  rcases List.mem_append.mp ha with hold | hnew
  · exact h a hold
  · rw [List.mem_singleton.mp hnew]
    exact he

theorem spaced_append (h : log.Pairwise (Spaced time sets passes))
    (hcovered : Covered sets deadline now log) (e : ε) (hnow : now ≤ time e)
    (hpasses : ∀ k, passes e k → ∀ c, deadline k = some c → c ≤ time e) :
    (log ++ [e]).Pairwise (Spaced time sets passes) := by
  refine List.pairwise_append.mpr ⟨h, List.pairwise_singleton _ e, ?_⟩
  intro a ha b hb k u hsets hpass
  rw [List.mem_singleton.mp hb] at hpass ⊢
  rcases hcovered a ha k u hsets with hover | ⟨c, hc, hu⟩
  · exact le_trans hover hnow
  · exact le_trans hu (hpasses k hpass c hc)

end Deadline

end OptionsBot
