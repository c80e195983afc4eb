import Mathlib.Data.List.Induction

/-!
# Guarded Runs

A system taking step after step, as a relation between the state it starts in
and the state it reaches. The step is a function of the state and an event, and
the guard says which events are allowed in which states, so one relation covers
both "any events in any order" (a guard that is always true) and "events that
meet a condition" (a guard that states it).

Everything proved about a run goes through `Run.invariant`: a property that
every permitted step keeps is kept by the whole run. `Run.ofEvents` goes the
other way, from a list of permitted events to a run.

`Along` states something of every event of a list, each in the state it is taken
in. Two such statements are the same, if in every state that meets an invariant
they agree on the next event, and the event keeps the invariant. `Throughout` states
something of every beginning of a list, and what has to hold of the next event for it
to hold of one more beginning, has to hold along the list. `Steadily` relates any two states of
a run, the earlier to the later, and for a preorder that is what each step does.

## Main definitions

* `Run`: One state reaches another by permitted events.
* `Along`: Something holds of every event of a list.
* `Throughout`: Something holds of every beginning of a list.
* `Steadily`: Something holds between any two states of a run.

## Theorems

* `Run.single`: One permitted event is a run.
* `Run.ofEvents`: A list of permitted events is a run.
* `Run.weaken`: A run under a guard is one under any weaker guard.
* `Run.invariant`: What every permitted step keeps, a run keeps.
* `along_iff`: What agrees on every event agrees on a list.
* `along_append`: Along one list and then another.
* `throughout_iff_along`: What every beginning asks of the event behind it.
* `steadily_iff_along`: A preorder holds along a run if it holds of every step.
-/

namespace OptionsBot

/-- `t` is reached from `s` by events, each permitted in the state it is
    taken in. -/
inductive Run {σ ε : Type} (step : σ → ε → σ) (guard : σ → ε → Prop) : σ → σ → Prop
  | refl (s : σ) : Run step guard s s
  | cons (s : σ) (e : ε) (t : σ) (hg : guard s e) (hrest : Run step guard (step s e) t) :
      Run step guard s t

namespace Run

variable {σ ε : Type} {step : σ → ε → σ} {guard : σ → ε → Prop} {s t : σ}

theorem single (s : σ) (e : ε) (hg : guard s e) : Run step guard s (step s e) :=
  Run.cons s e (step s e) hg (Run.refl _)

theorem ofEvents (events : List ε) (hg : ∀ e ∈ events, ∀ a, guard a e) (s : σ) :
    Run step guard s (events.foldl step s) := by
  induction events generalizing s with
  | nil => exact Run.refl s
  | cons e rest ih =>
      exact Run.cons s e _ (hg e List.mem_cons_self s)
        (ih (fun e' he' => hg e' (List.mem_cons_of_mem e he')) (step s e))

theorem weaken {guard' : σ → ε → Prop} (hweak : ∀ a e, guard a e → guard' a e)
    (h : Run step guard s t) : Run step guard' s t := by
  induction h with
  | refl a => exact Run.refl a
  | cons a e _ hg _ ih => exact Run.cons a e _ (hweak a e hg) ih

theorem invariant (P : σ → Prop) (hkeep : ∀ a e, guard a e → P a → P (step a e))
    (h : Run step guard s t) (hs : P s) : P t := by
  induction h with
  | refl _ => exact hs
  | cons a e _ hg _ ih => exact ih (hkeep a e hg hs)

end Run

section Along

variable {σ ε : Type} (step : σ → ε → σ)

/-- Something holds of every event of a list, in the state it is taken in. -/
def Along (P : σ → ε → Prop) : σ → List ε → Prop
  | _, [] => True
  | s, e :: rest => P s e ∧ Along P (step s e) rest

theorem along_iff (P Q : σ → ε → Prop) (inv : σ → Prop)
    (hiff : ∀ s e, inv s → (P s e ↔ Q s e)) (hkeep : ∀ s e, inv s → Q s e → inv (step s e))
    (s : σ) (hs : inv s) (events : List ε) : Along step P s events ↔ Along step Q s events := by
  induction events generalizing s with
  | nil => exact Iff.rfl
  | cons e rest ih =>
      unfold Along
      rw [hiff s e hs]
      exact and_congr_right (fun hq => ih (step s e) (hkeep s e hs hq))

theorem along_append (P : σ → ε → Prop) (s : σ) (xs ys : List ε) :
    Along step P s (xs ++ ys) ↔ Along step P s xs ∧ Along step P (xs.foldl step s) ys := by
  induction xs generalizing s with
  | nil => simp only [List.nil_append, Along, List.foldl_nil, true_and]
  | cons e rest ih => simp only [List.cons_append, Along, List.foldl_cons, ih, and_assoc]

/-- Something holds of every beginning of a list. -/
def Throughout (right : List ε → Prop) (events : List ε) : Prop :=
  ∀ before after, events = before ++ after → right before

theorem throughout_snoc (right : List ε → Prop) (events : List ε) (e : ε) :
    Throughout right (events ++ [e]) ↔ Throughout right events ∧ right (events ++ [e]) := by
  constructor
  · intro h
    refine ⟨fun before after hsplit => h before (after ++ [e]) ?_, h _ [] (List.append_nil _).symm⟩
    rw [hsplit, List.append_assoc]
  · rintro ⟨h, hall⟩ before after hsplit
    rcases List.eq_nil_or_concat after with rfl | ⟨rest, last, rfl⟩
    · rw [List.append_nil] at hsplit
      rw [← hsplit]
      exact hall
    · rw [List.concat_eq_append, ← List.append_assoc] at hsplit
      exact h before rest (List.append_inj_left' hsplit rfl)

/-- If an invariant of the events so far says when one more of them is right, then all of
    them are right where each is so in the state it is taken in. -/
theorem throughout_iff_along (right : List ε → Prop) (P : σ → ε → Prop) (s : σ)
    (inv : List ε → Prop) (hnil : right []) (hinv : inv [])
    (hiff : ∀ before e, inv before → (right (before ++ [e]) ↔ P (before.foldl step s) e))
    (hkeep : ∀ before e, inv before → P (before.foldl step s) e → inv (before ++ [e]))
    (events : List ε) : Throughout right events ↔ Along step P s events := by
  have hboth : (Throughout right events ↔ Along step P s events) ∧
      (Along step P s events → inv events) := by
    induction events using List.reverseRecOn with
    | nil =>
        refine ⟨iff_of_true (fun before after hsplit => ?_) trivial, fun _ => hinv⟩
        rw [(List.append_eq_nil_iff.mp hsplit.symm).1]
        exact hnil
    | append_singleton before e ih =>
        rw [throughout_snoc, along_append, ih.1]
        simp only [Along, and_true]
        exact ⟨and_congr_right (fun h => hiff before e (ih.2 h)),
          fun h => hkeep before e (ih.2 h.1) h.2⟩
  exact hboth.1

/-- Something holds between any two states of a run, the earlier and the later. -/
def Steadily (R : σ → σ → Prop) (s : σ) (events : List ε) : Prop :=
  ∀ before between after, events = before ++ between ++ after →
    R (before.foldl step s) ((before ++ between).foldl step s)

theorem steadily_iff_along (R : σ → σ → Prop) (hrefl : ∀ a, R a a)
    (htrans : ∀ a b c, R a b → R b c → R a c) (s : σ) (events : List ε) :
    Steadily step R s events ↔ Along step (fun a e => R a (step a e)) s events := by
  induction events generalizing s with
  | nil =>
      refine iff_of_true (fun before between after hsplit => ?_) trivial
      rcases List.append_eq_nil_iff.mp hsplit.symm with ⟨hboth, -⟩
      rcases List.append_eq_nil_iff.mp hboth with ⟨rfl, rfl⟩
      exact hrefl s
  | cons e rest ih =>
      unfold Along
      rw [← ih (step s e)]
      constructor
      · intro h
        refine ⟨h [] [e] rest rfl, fun before between after hsplit => ?_⟩
        exact h (e :: before) between after (congrArg (List.cons e) hsplit)
      · rintro ⟨hhead, hrest⟩ before between after hsplit
        cases before with
        | cons e' before =>
            rcases List.cons.inj hsplit with ⟨rfl, hrest'⟩
            exact hrest before between after hrest'
        | nil =>
            cases between with
            | nil => exact hrefl s
            | cons e' between =>
                rcases List.cons.inj hsplit with ⟨rfl, hrest'⟩
                exact htrans _ _ _ hhead (hrest [] between after hrest')

end Along

end OptionsBot
