import Mathlib.Algebra.Order.Ring.Rat
import Mathlib.Tactic.Linarith

/-!
# The Life of an Exchange Order

One order on an exchange: how much of its size has executed, at what total
price, and the state the exchange reports it in. Fills arrive one at a time
while the order works; once its state is terminal nothing about it changes.
An order never executes more than its size, which is a field of the structure.

A report is a snapshot of the order at one instant. A report taken while the
order works can be overtaken by later fills, and a report in a terminal state
cannot: that difference is all a client can know from polling.

A script says how one order fares between a client and the exchange: whether
the submission gets through and is answered, what each poll finds, whether a
cancel takes effect and what the client hears of it, and what still happens
afterwards. Any reply can be lost, and the order can fill before any of them.

## Main definitions

* `OrderState`: The states an order is reported in.
* `Order`: An order, with its size as a bound on what it executes.
* `OrderEvent`: A fill, or a change of state.
* `Order.apply`, `Order.run`: One event, and a list of them.
* `OrderReport`, `Order.report`: A snapshot sent to the client.
* `Shows`: A report was taken from an order at or before its present state.
* `OrderScript`: How one order fares between a client and the exchange.
* `OrderScript.Unfilled`: Nothing of the order is executed, at any time.
* `Order.pollUntilDone`: Poll until a terminal state or the deadline.

## Theorems

* `run_terminal`: No event changes an order in a terminal state.
* `run_append`: Events in two parts are events in one.
* `executed_le_run`: What has executed stays executed.
* `run_size`: No event changes the size.
* `report_price`: A reported average price times the filled size is the
  notional.
* `Shows.filled_le`: A report never shows more than has executed.
* `Shows.of_terminal`: A report in a terminal state is up to date.
* `cancel_terminal`: A cancel does nothing to an order in a terminal state.
* `pollUntilDone_shows`: What polling ends with was taken from the order.
* `run_marks`, `pollUntilDone_marks`, `cancel_marks`: Without fills, nothing
  more is executed.
-/

namespace OptionsBot

/-- The states an order is reported in. -/
inductive OrderState where
  | pending
  | «open»
  | filled
  | cancelled
  | rejected
  | closed
  deriving DecidableEq, Repr

/-- A state an order does not leave. -/
def OrderState.isTerminal : OrderState → Bool
  | pending | «open» => false
  | filled | cancelled | rejected | closed => true

/-- An order on the exchange. `notional` is the sum of quantity times price
    over its fills. -/
structure Order where
  size : ℚ
  state : OrderState
  executed : ℚ
  notional : ℚ
  executed_nonneg : 0 ≤ executed
  executed_le : executed ≤ size
  notional_zero : executed = 0 → notional = 0

/-- What can happen to an order on the exchange. -/
inductive OrderEvent where
  | fill (qty price : ℚ)
  | mark (state : OrderState)

/-- A change of state. -/
def OrderEvent.IsMark : OrderEvent → Prop
  | .fill _ _ => False
  | .mark _ => True

/-- A snapshot of an order, as sent to the client. -/
structure OrderReport where
  id : Option Int
  state : Option OrderState
  filledSize : Option ℚ
  averageFillPrice : Option ℚ
  deriving DecidableEq

namespace Order

/-- A new order, working, with nothing executed. -/
def submit (size : ℚ) (h : 0 ≤ size) : Order :=
  { size := size
    state := .«open»
    executed := 0
    notional := 0
    executed_nonneg := le_refl 0
    executed_le := h
    notional_zero := fun _ => rfl }

/-- An order that can still execute. -/
def working (o : Order) : Bool := !o.state.isTerminal

/-- One event. A fill beyond the size and any event after a terminal state
    cannot happen, and change nothing. -/
def apply (o : Order) : OrderEvent → Order
  | .fill qty price =>
    if h : o.working = true ∧ 0 < qty ∧ o.executed + qty ≤ o.size then
      { o with
        executed := o.executed + qty
        notional := o.notional + qty * price
        executed_nonneg := by linarith [o.executed_nonneg, h.2.1]
        executed_le := h.2.2
        notional_zero := fun hz => by linarith [o.executed_nonneg, h.2.1] }
    else o
  | .mark state => if o.working then { o with state := state } else o

/-- A list of events, the first one first. -/
def run (o : Order) (events : List OrderEvent) : Order := events.foldl apply o

/-- The snapshot of an order. The exchange may leave its own identifier out. -/
def report (o : Order) (id : Option Int) : OrderReport :=
  { id := id
    state := some o.state
    filledSize := some o.executed
    averageFillPrice := if 0 < o.executed then some (o.notional / o.executed) else none }

theorem run_append (o : Order) (xs ys : List OrderEvent) :
    o.run (xs ++ ys) = (o.run xs).run ys := by
  simp only [run, List.foldl_append]

theorem apply_terminal (o : Order) (e : OrderEvent) (h : o.working = false) : o.apply e = o := by
  cases e with
  | fill qty price =>
      simp only [apply]
      rw [dif_neg]
      intro hc
      rw [h] at hc
      exact Bool.noConfusion hc.1
  | mark state =>
      simp only [apply, h, Bool.false_eq_true, if_false]

theorem run_terminal (o : Order) (events : List OrderEvent) (h : o.working = false) :
    o.run events = o := by
  induction events with
  | nil => rfl
  | cons e rest ih =>
      rw [run, List.foldl_cons, apply_terminal o e h]
      exact ih

theorem apply_size (o : Order) (e : OrderEvent) : (o.apply e).size = o.size := by
  cases e with
  | fill qty price =>
      simp only [apply]
      split <;> rfl
  | mark state =>
      simp only [apply]
      split <;> rfl

theorem run_size (o : Order) (events : List OrderEvent) : (o.run events).size = o.size := by
  induction events generalizing o with
  | nil => rfl
  | cons e rest ih =>
      rw [run, List.foldl_cons]
      exact (ih (o.apply e)).trans (apply_size o e)

theorem executed_le_apply (o : Order) (e : OrderEvent) : o.executed ≤ (o.apply e).executed := by
  cases e with
  | fill qty price =>
      simp only [apply]
      split
      · next h => exact le_add_of_nonneg_right h.2.1.le
      · exact le_refl _
  | mark state =>
      simp only [apply]
      split <;> exact le_refl _

theorem executed_le_run (o : Order) (events : List OrderEvent) :
    o.executed ≤ (o.run events).executed := by
  induction events generalizing o with
  | nil => exact le_refl _
  | cons e rest ih =>
      rw [run, List.foldl_cons]
      exact (executed_le_apply o e).trans (ih (o.apply e))

theorem apply_mark (o : Order) (e : OrderEvent) (h : e.IsMark) :
    (o.apply e).executed = o.executed := by
  cases e with
  | fill qty price => exact h.elim
  | mark state =>
      simp only [apply]
      split <;> rfl

/-- Without a fill, nothing more is executed. -/
theorem run_marks (o : Order) (events : List OrderEvent) (h : ∀ e ∈ events, e.IsMark) :
    (o.run events).executed = o.executed := by
  induction events generalizing o with
  | nil => rfl
  | cons e rest ih =>
      rw [run, List.foldl_cons]
      exact (ih (o.apply e) fun x hx => h x (List.mem_cons_of_mem e hx)).trans
        (apply_mark o e (h e List.mem_cons_self))

/-- The price in a report accounts for every fill so far. -/
theorem report_price (o : Order) (id : Option Int) (h : 0 < o.executed) :
    ∃ p, (o.report id).averageFillPrice = some p ∧ p * o.executed = o.notional := by
  refine ⟨o.notional / o.executed, ?_, div_mul_cancel₀ _ h.ne'⟩
  simp only [report, if_pos h]

end Order

/-- The report was taken from this order, now or before its latest events. -/
def Shows (r : OrderReport) (o : Order) : Prop :=
  ∃ (before : Order) (id : Option Int) (events : List OrderEvent),
    r = before.report id ∧ o = before.run events

namespace Shows

theorem now (o : Order) (id : Option Int) : Shows (o.report id) o := ⟨o, id, [], rfl, rfl⟩

theorem run {r : OrderReport} {o : Order} (h : Shows r o) (events : List OrderEvent) :
    Shows r (o.run events) := by
  rcases h with ⟨before, id, earlier, hr, ho⟩
  refine ⟨before, id, earlier ++ events, hr, ?_⟩
  rw [Order.run_append, ho]

/-- What a report shows as filled, the order has executed. -/
theorem filled_le {r : OrderReport} {o : Order} (h : Shows r o) :
    ∃ q, r.filledSize = some q ∧ 0 ≤ q ∧ q ≤ o.executed := by
  rcases h with ⟨before, id, events, hr, ho⟩
  refine ⟨before.executed, by rw [hr]; rfl, before.executed_nonneg, ?_⟩
  rw [ho]
  exact before.executed_le_run events

/-- A report in a terminal state is the order as it still is. -/
theorem of_terminal {r : OrderReport} {o : Order} (h : Shows r o) (state : OrderState)
    (hs : r.state = some state) (ht : state.isTerminal = true) :
    ∃ id, r = o.report id ∧ o.working = false := by
  rcases h with ⟨before, id, events, hr, ho⟩
  have hstate : before.state = state := by
    rw [hr] at hs
    simpa only [Order.report, Option.some.injEq] using hs
  have hdone : before.working = false := by
    rw [Order.working, hstate, ht]
    rfl
  rw [Order.run_terminal before events hdone] at ho
  exact ⟨id, by rw [hr, ho], by rw [ho]; exact hdone⟩

end Shows

section Script

variable {ε : Type}

/-- How a submission ends. An unanswered order is on the exchange without the
    client hearing of it. -/
inductive Placement (ε : Type) where
  | refused (error : ε)
  | unanswered (error : ε)
  | answered (events : List OrderEvent) (id : Option Int)

inductive PollOutcome (ε : Type) where
  | raised (error : ε)
  | notFound
  | found (id : Option Int)

/-- What happens before a poll, and what it finds. -/
structure Poll (ε : Type) where
  events : List OrderEvent := []
  outcome : PollOutcome ε

/-- A cancel: what happens before it, whether it took effect although it
    failed, and the error it failed with. -/
structure Cancellation (ε : Type) where
  events : List OrderEvent := []
  took : Bool := true
  error : Option ε := none

/-- How one order fares. `polls` are those made before the deadline, and
    `late` is everything that happens after the client last looked. -/
structure OrderScript (ε : Type) where
  placement : Placement ε
  polls : List (Poll ε) := []
  cancellation : Cancellation ε := {}
  late : List OrderEvent := []

/-- The exchange never executes anything of the order. -/
structure OrderScript.Unfilled (x : OrderScript ε) : Prop where
  placement : ∀ events id, x.placement = .answered events id → ∀ e ∈ events, e.IsMark
  polls : ∀ poll ∈ x.polls, ∀ e ∈ poll.events, e.IsMark
  cancellation : ∀ e ∈ x.cancellation.events, e.IsMark
  late : ∀ e ∈ x.late, e.IsMark

namespace Order

/-- Poll until a terminal state or the deadline, and return the last answer. -/
def pollUntilDone (o : Order) (seen : Option OrderReport) :
    List (Poll ε) → Order × Except ε (Option OrderReport)
  | [] => (o, .ok seen)
  | poll :: polls =>
    let now := o.run poll.events
    match poll.outcome with
    | .raised error => (now, .error error)
    | .notFound => now.pollUntilDone none polls
    | .found id =>
      if now.state.isTerminal then (now, .ok (some (now.report id)))
      else now.pollUntilDone (some (now.report id)) polls

/-- The order after a cancel. One that succeeds leaves it in a terminal state. -/
def cancel (o : Order) (c : Cancellation ε) : Order :=
  let now := o.run c.events
  if c.error.isNone ∨ c.took then now.apply (.mark .cancelled) else now

theorem cancel_size (o : Order) (c : Cancellation ε) : (o.cancel c).size = o.size := by
  simp only [cancel]
  split
  · rw [apply_size, run_size]
  · exact run_size o c.events

/-- A cancel does nothing to an order in a terminal state. -/
theorem cancel_terminal (o : Order) (c : Cancellation ε) (h : o.working = false) :
    o.cancel c = o := by
  simp only [cancel]
  rw [run_terminal o c.events h]
  split
  · exact apply_terminal o _ h
  · rfl

theorem pollUntilDone_run (polls : List (Poll ε)) (o : Order) (seen : Option OrderReport) :
    ∃ events, (o.pollUntilDone seen polls).1 = o.run events := by
  induction polls generalizing o seen with
  | nil => exact ⟨[], rfl⟩
  | cons poll rest ih =>
      simp only [pollUntilDone]
      split
      · exact ⟨poll.events, rfl⟩
      · rcases ih (o.run poll.events) none with ⟨events, he⟩
        exact ⟨poll.events ++ events, by rw [he, run_append]⟩
      · next id _ =>
        split
        · exact ⟨poll.events, rfl⟩
        · rcases ih (o.run poll.events) (some ((o.run poll.events).report id)) with ⟨events, he⟩
          exact ⟨poll.events ++ events, by rw [he, run_append]⟩

theorem cancel_marks (o : Order) (c : Cancellation ε) (h : ∀ e ∈ c.events, e.IsMark) :
    (o.cancel c).executed = o.executed := by
  simp only [cancel]
  split
  · exact (apply_mark _ (.mark .cancelled) trivial).trans (run_marks o c.events h)
  · exact run_marks o c.events h

theorem pollUntilDone_marks (polls : List (Poll ε)) (o : Order) (seen : Option OrderReport)
    (h : ∀ poll ∈ polls, ∀ e ∈ poll.events, e.IsMark) :
    (o.pollUntilDone seen polls).1.executed = o.executed := by
  induction polls generalizing o seen with
  | nil => rfl
  | cons poll rest ih =>
      have hnow := run_marks o poll.events (h poll List.mem_cons_self)
      have hrest := fun seen => (ih (o.run poll.events) seen fun p hp =>
        h p (List.mem_cons_of_mem poll hp)).trans hnow
      simp only [pollUntilDone]
      split
      · exact hnow
      · exact hrest none
      · next id _ =>
        split
        · exact hnow
        · exact hrest _

/-- The last answer was taken from the order, if the one it started from was. -/
theorem pollUntilDone_shows (polls : List (Poll ε)) (o : Order) (seen : Option OrderReport)
    (hseen : ∀ r, seen = some r → Shows r o) (r : OrderReport)
    (h : (o.pollUntilDone seen polls).2 = .ok (some r)) :
    Shows r (o.pollUntilDone seen polls).1 := by
  induction polls generalizing o seen with
  | nil =>
      simp only [pollUntilDone, Except.ok.injEq] at h
      exact hseen r h
  | cons poll rest ih =>
      simp only [pollUntilDone] at h ⊢
      split at h
      · cases h
      · next hout =>
        exact ih (o.run poll.events) none (fun r' hr' => by cases hr') h
      · next id hout =>
        split at h
        · next hterm =>
          rw [if_pos hterm]
          cases h
          exact Shows.now _ id
        · next hterm =>
          rw [if_neg hterm]
          refine ih (o.run poll.events) _ (fun r' hr' => ?_) h
          cases hr'
          exact Shows.now _ id

end Order

end Script

end OptionsBot
