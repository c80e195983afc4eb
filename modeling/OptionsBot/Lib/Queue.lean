import Mathlib.Algebra.Order.Group.Int
import Mathlib.Data.List.Basic
import Mathlib.Tactic.Ring
import OptionsBot.Lib.Run

/-!
# Bounded Queues

A queue that one side puts items into and another takes them from, with a bound on how many
wait. An item that comes while the queue is full is turned away. The bound is a field of the
structure.

What waits at the start and goes in is what comes out and waits at the end, in the same order.
So an item can only be lost by being turned away, and whether one ever is can be told from the
order of the calls alone: in every stretch of them there may be at most as many more that put
than that take as the queue holds.

## Main definitions

* `BoundedQueue`: A queue with its bound.
* `QueueAct`: A call of either side.
* `BoundedQueue.step`: What it does to the queue.
* `BoundedQueue.offered`, `BoundedQueue.accepted`, `BoundedQueue.refused`,
  `BoundedQueue.delivered`: What is put, goes in, is turned away and comes out.
* `BoundedQueue.demand`: How many more calls put than take.
* `Stretches`: Something holds of every stretch of a list.

## Theorems

* `waiting_append_accepted`: Nothing that went in is lost, doubled or overtaken.
* `accepted_sublist`, `length_offered`: What goes in is put, and the rest is turned away.
* `refused_nil_iff`: When nothing is turned away.
* `delivered_of_unrefused`: What comes out then.
-/

namespace OptionsBot

/-- A queue with a bound on what waits in it. A bound that is not positive is none. -/
structure BoundedQueue (α : Type) where
  maxsize : Int
  waiting : List α := []
  bounded : 0 < maxsize → (waiting.length : Int) ≤ maxsize

/-- Something holds of every stretch of a list. -/
def Stretches {α : Type} (right : List α → Prop) (events : List α) : Prop :=
  ∀ before between after, events = before ++ between ++ after → right between

section Stretches

variable {α : Type} (right : List α → Prop)

theorem throughout_nil : Throughout right ([] : List α) ↔ right [] := by
  constructor
  · exact fun h => h [] [] rfl
  · intro h before after hsplit
    rwa [(List.append_eq_nil_iff.mp hsplit.symm).1]

theorem throughout_cons (e : α) (rest : List α) :
    Throughout right (e :: rest) ↔
      right [] ∧ Throughout (fun before => right (e :: before)) rest := by
  constructor
  · exact fun h => ⟨h [] (e :: rest) rfl, fun before after hsplit =>
      h (e :: before) after (congrArg (List.cons e) hsplit)⟩
  · rintro ⟨hnil, hrest⟩ before after hsplit
    cases before with
    | nil => exact hnil
    | cons e' before =>
        rcases List.cons.inj hsplit with ⟨rfl, htail⟩
        exact hrest before after htail

theorem stretches_nil : Stretches right ([] : List α) ↔ right [] := by
  constructor
  · exact fun h => h [] [] [] rfl
  · intro h before between after hsplit
    rwa [(List.append_eq_nil_iff.mp (List.append_eq_nil_iff.mp hsplit.symm).1).2]

/-- A stretch is a beginning or lies behind the first event. -/
theorem stretches_cons (e : α) (rest : List α) :
    Stretches right (e :: rest) ↔ Throughout right (e :: rest) ∧ Stretches right rest := by
  constructor
  · exact fun h => ⟨fun before after hsplit => h [] before after hsplit,
      fun before between after hsplit =>
        h (e :: before) between after (congrArg (List.cons e) hsplit)⟩
  · rintro ⟨hhead, hrest⟩ before between after hsplit
    cases before with
    | nil => exact hhead between after hsplit
    | cons e' before =>
        rcases List.cons.inj hsplit with ⟨rfl, htail⟩
        exact hrest before between after htail

/-- A list is a stretch of its own beginning. -/
theorem Stretches.throughout (events : List α) (h : Stretches right events) :
    Throughout right events := fun before after hsplit => h [] before after hsplit

end Stretches

/-- A call of one side or of the other. -/
inductive QueueAct (α : Type) where
  | put (x : α)
  | get

namespace BoundedQueue

variable {α : Type}

/-- An empty queue. -/
def new (maxsize : Int) : BoundedQueue α :=
  { maxsize := maxsize, bounded := fun h => by simpa using h.le }

variable (q : BoundedQueue α)

def full : Prop := 0 < q.maxsize ∧ q.maxsize ≤ q.waiting.length

instance : Decidable q.full := inferInstanceAs (Decidable (_ ∧ _))

/-- Put an item, unless the queue is full. -/
def put (x : α) : BoundedQueue α :=
  if h : q.full then q
  else
    { q with
      waiting := q.waiting ++ [x]
      bounded := fun hpos => by
        have hroom : ¬ q.maxsize ≤ q.waiting.length := fun hle => h ⟨hpos, hle⟩
        rw [List.length_append, List.length_singleton]
        push_cast
        omega }

/-- Take the first item that waits. -/
def get : BoundedQueue α :=
  { q with
    waiting := q.waiting.tail
    bounded := fun hpos => by
      have hle := q.bounded hpos
      rw [List.length_tail]
      omega }

def step : QueueAct α → BoundedQueue α
  | .put x => q.put x
  | .get => q.get

/-- What is put. -/
def offered : List (QueueAct α) → List α
  | [] => []
  | .put x :: rest => x :: offered rest
  | .get :: rest => offered rest

/-- What goes in. -/
def accepted : BoundedQueue α → List (QueueAct α) → List α
  | _, [] => []
  | q, .put x :: rest =>
    if q.full then accepted (q.put x) rest else x :: accepted (q.put x) rest
  | q, .get :: rest => accepted q.get rest

/-- What is turned away. -/
def refused : BoundedQueue α → List (QueueAct α) → List α
  | _, [] => []
  | q, .put x :: rest =>
    if q.full then x :: refused (q.put x) rest else refused (q.put x) rest
  | q, .get :: rest => refused q.get rest

/-- What comes out. -/
def delivered : BoundedQueue α → List (QueueAct α) → List α
  | _, [] => []
  | q, .put x :: rest => delivered (q.put x) rest
  | q, .get :: rest => q.waiting.head?.toList ++ delivered q.get rest

/-- How many more of the calls put than take. -/
def demand : List (QueueAct α) → Int
  | [] => 0
  | .put _ :: rest => demand rest + 1
  | .get :: rest => demand rest - 1

theorem put_of_full (x : α) (h : q.full) : q.put x = q := dif_pos h

theorem waiting_put (x : α) (h : ¬ q.full) : (q.put x).waiting = q.waiting ++ [x] := by
  rw [put, dif_neg h]

theorem maxsize_step (e : QueueAct α) : (q.step e).maxsize = q.maxsize := by
  cases e with
  | put x =>
      rw [step, put]
      split_ifs
      · rfl
      · rfl
  | get => rfl

theorem maxsize_run (acts : List (QueueAct α)) :
    (acts.foldl step q).maxsize = q.maxsize := by
  induction acts generalizing q with
  | nil => rfl
  | cons e rest ih => exact (ih (q.step e)).trans (q.maxsize_step e)

theorem waiting_get : q.get.waiting = q.waiting.tail := rfl

/-- Where nothing waits, nothing is taken. -/
theorem get_of_nil (h : q.waiting = []) : q.get = q := by
  cases q with
  | mk maxsize waiting bounded =>
      subst h
      rfl

theorem delivered_append (xs ys : List (QueueAct α)) :
    q.delivered (xs ++ ys) = q.delivered xs ++ (xs.foldl step q).delivered ys := by
  induction xs generalizing q with
  | nil => rfl
  | cons e rest ih =>
      cases e with
      | put x => exact ih (q.put x)
      | get => rw [List.cons_append, delivered, delivered, ih q.get, List.append_assoc]; rfl

/-- What waits and then goes in is what comes out and then waits. -/
theorem waiting_append_accepted (acts : List (QueueAct α)) :
    q.waiting ++ q.accepted acts = q.delivered acts ++ (acts.foldl step q).waiting := by
  induction acts generalizing q with
  | nil => exact List.append_nil _
  | cons e rest ih =>
      cases e with
      | put x =>
          rw [accepted, delivered, List.foldl_cons, step, ← ih (q.put x)]
          by_cases hfull : q.full
          · rw [if_pos hfull, q.put_of_full x hfull]
          · rw [if_neg hfull, q.waiting_put x hfull, List.append_assoc, List.singleton_append]
      | get =>
          rw [accepted, delivered, List.foldl_cons, step, List.append_assoc, ← ih q.get,
            ← List.append_assoc]
          congr 1
          -- The first that waits and the others are all that wait.
          rw [waiting_get]
          cases q.waiting with
          | nil => rfl
          | cons x others => rfl

/-- What goes in was put, in this order. -/
theorem accepted_sublist (acts : List (QueueAct α)) : (q.accepted acts).Sublist (offered acts) := by
  induction acts generalizing q with
  | nil => exact List.Sublist.refl []
  | cons e rest ih =>
      cases e with
      | put x =>
          rw [accepted, offered]
          split
          · exact (ih _).cons x
          · exact (ih _).cons_cons x
      | get => exact ih q.get

theorem offered_append (xs ys : List (QueueAct α)) :
    offered (xs ++ ys) = offered xs ++ offered ys := by
  induction xs with
  | nil => rfl
  | cons e rest ih =>
      cases e with
      | put x => exact congrArg (List.cons x) ih
      | get => exact ih

/-- What is put goes in or is turned away. -/
theorem length_offered (acts : List (QueueAct α)) :
    (offered acts).length = (q.accepted acts).length + (q.refused acts).length := by
  induction acts generalizing q with
  | nil => rfl
  | cons e rest ih =>
      cases e with
      | put x =>
          rw [accepted, offered, refused, List.length_cons, ih (q.put x)]
          split
          · rw [List.length_cons, Nat.add_assoc]
          · rw [List.length_cons, Nat.add_right_comm]
      | get => exact ih q.get

/-- Nothing is turned away if what waits has room with every beginning of the calls, and every
    stretch of them has room by itself. -/
theorem refused_nil_iff_room (hpos : 0 < q.maxsize) (acts : List (QueueAct α)) :
    q.refused acts = [] ↔
      Throughout (fun before => (q.waiting.length : Int) + demand before ≤ q.maxsize) acts ∧
        Stretches (fun between => demand between ≤ q.maxsize) acts := by
  have hbound := q.bounded hpos
  induction acts generalizing q with
  | nil =>
      rw [throughout_nil, stretches_nil, demand, add_zero]
      exact iff_of_true rfl ⟨hbound, hpos.le⟩
  | cons e rest ih =>
      have hsize := q.maxsize_step e
      have hmore := ih (q.step e) (by rwa [hsize]) ((q.step e).bounded (by rwa [hsize]))
      rw [stretches_cons, throughout_cons, throughout_cons]
      cases e with
      | put x =>
          simp only [refused, demand, add_zero]
          by_cases hfull : q.full
          · -- The item is turned away, and there is no room for it.
            rw [if_pos hfull]
            refine iff_of_false (List.cons_ne_nil _ _) (fun h => ?_)
            have hfirst := h.1.2 [] rest rfl
            have hle := hfull.2
            simp only [demand] at hfirst
            omega
          · rw [if_neg hfull]
            rw [step, q.waiting_put x hfull, List.length_append, List.length_singleton] at hmore
            rw [step] at hsize
            rw [hsize] at hmore
            refine hmore.trans ⟨?_, ?_⟩
            · rintro ⟨hwait, hstretch⟩
              refine ⟨⟨hbound, fun before after hsplit => ?_⟩,
                ⟨hpos.le, fun before after hsplit => ?_⟩, hstretch⟩
              · have hle := hwait before after hsplit
                push_cast at hle
                omega
              · have hle := hwait before after hsplit
                push_cast at hle
                omega
            · rintro ⟨⟨-, hwait⟩, ⟨-, -⟩, hstretch⟩
              refine ⟨fun before after hsplit => ?_, hstretch⟩
              have hle := hwait before after hsplit
              push_cast
              omega
      | get =>
          simp only [refused, demand, add_zero]
          rw [step, waiting_get, List.length_tail] at hmore
          rw [step] at hsize
          rw [hsize] at hmore
          refine hmore.trans ⟨?_, ?_⟩
          · rintro ⟨hwait, hstretch⟩
            refine ⟨⟨hbound, fun before after hsplit => ?_⟩,
              ⟨hpos.le, fun before after hsplit => ?_⟩, hstretch⟩
            · have hle := hwait before after hsplit
              omega
            · have hle := hstretch [] before after hsplit
              omega
          · rintro ⟨⟨-, hwait⟩, ⟨-, -⟩, hstretch⟩
            refine ⟨fun before after hsplit => ?_, hstretch⟩
            -- From an empty queue nothing is taken, and the beginning stands alone.
            have hle := hwait before after hsplit
            have halone := hstretch [] before after hsplit
            omega

/-- From an empty queue, nothing is turned away exactly if in no stretch of the calls so many more
    put than take that the queue cannot hold them. -/
theorem refused_nil_iff (hpos : 0 < q.maxsize) (hempty : q.waiting = [])
    (acts : List (QueueAct α)) :
    q.refused acts = [] ↔ Stretches (fun between => demand between ≤ q.maxsize) acts := by
  rw [q.refused_nil_iff_room hpos, hempty]
  simp only [List.length_nil, Nat.cast_zero, zero_add]
  exact ⟨And.right, fun h => ⟨Stretches.throughout _ acts h, h⟩⟩

/-- If nothing is turned away, what comes out and what still waits is what waited and was put. -/
theorem delivered_of_unrefused (acts : List (QueueAct α)) (h : q.refused acts = []) :
    q.delivered acts ++ (acts.foldl step q).waiting = q.waiting ++ offered acts := by
  have hlength := q.length_offered acts
  rw [h, List.length_nil, Nat.add_zero] at hlength
  rw [← waiting_append_accepted, (q.accepted_sublist acts).eq_of_length hlength.symm]

end BoundedQueue

end OptionsBot
