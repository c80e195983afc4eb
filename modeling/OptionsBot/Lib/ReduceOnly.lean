import Mathlib.Algebra.BigOperators.Group.List.Basic
import Mathlib.Algebra.Order.BigOperators.Group.List
import OptionsBot.Lib.OrderLife

/-!
# Orders That Only Reduce

A position on an exchange and the orders sent to reduce it. Whatever the sizes of
the orders and the order of their fills, together they never execute more than the
position: a fill beyond what is left cannot happen, and with nothing left a new
order is not taken at all. The bound is a field of the structure.

## Main definitions

* `Order.applyWithin`, `Order.runWithin`: Events on an order that may execute no
  more than a given quantity.
* `ReducingBook`: A position, and the orders sent to reduce it.
* `ReducingBook.whole`: A position before any order.
* `ReducingBook.remaining`, `ReducingBook.Flat`: What is left of the position.
* `ReducingBook.place`: Send a further order.
* `ReducingBook.advance`: Something happens to an order that was sent.
* `ReducingBook.grow`: The position grows.

## Theorems

* `remaining_nonneg`: No more is executed than there was.
* `place_flat`: With nothing left, no order is taken.
* `place_answered`: What an order that is answered adds.
* `remaining_place_le`, `remaining_advance_le`: What is left never grows.
-/

namespace OptionsBot

namespace Order

/-- An event on an order that may execute no more than `room` by it. -/
def applyWithin (room : ℚ) (o : Order) : OrderEvent → Order
  | .fill qty price => if qty ≤ room then o.apply (.fill qty price) else o
  | .mark state => o.apply (.mark state)

/-- Events on an order that may execute no more than `room` in all. -/
def runWithin (room : ℚ) (o : Order) (events : List OrderEvent) : Order :=
  events.foldl (fun now e => now.applyWithin (room - now.executed) e) o

theorem executed_le_applyWithin (room : ℚ) (o : Order) (e : OrderEvent) :
    o.executed ≤ (o.applyWithin room e).executed := by
  cases e with
  | fill qty price =>
      simp only [applyWithin]
      split
      · exact executed_le_apply o _
      · exact le_rfl
  | mark state => exact executed_le_apply o _

theorem applyWithin_executed_le (room : ℚ) (hroom : 0 ≤ room) (o : Order) (e : OrderEvent) :
    (o.applyWithin room e).executed ≤ o.executed + room := by
  have hsame : o.executed ≤ o.executed + room := le_add_of_nonneg_right hroom
  cases e with
  | fill qty price =>
      simp only [applyWithin]
      split
      · next hqty =>
        simp only [apply]
        split
        · exact add_le_add_right hqty o.executed
        · exact hsame
      · exact hsame
  | mark state =>
      simp only [applyWithin, apply]
      split <;> exact hsame

theorem runWithin_executed_le (room : ℚ) (events : List OrderEvent) (o : Order)
    (h : o.executed ≤ room) : (o.runWithin room events).executed ≤ room := by
  induction events generalizing o with
  | nil => exact h
  | cons e rest ih =>
      have hstep := applyWithin_executed_le (room - o.executed) (sub_nonneg.mpr h) o e
      rw [add_sub_cancel] at hstep
      exact ih _ hstep

end Order

/-- A position, and the orders sent to reduce it. They never execute more than the
    position. -/
structure ReducingBook where
  size : ℚ
  orders : List Order := []
  within : (orders.map Order.executed).sum ≤ size

namespace ReducingBook

/-- A position nothing has been sent to reduce yet. -/
def whole (size : ℚ) (h : 0 ≤ size) : ReducingBook := { size := size, orders := [], within := h }

/-- What all the orders have executed. -/
def executed (b : ReducingBook) : ℚ := (b.orders.map Order.executed).sum

/-- The total price of all the fills of all the orders. -/
def notional (b : ReducingBook) : ℚ := (b.orders.map Order.notional).sum

/-- What is left of the position. -/
def remaining (b : ReducingBook) : ℚ := b.size - b.executed

/-- Nothing is left of the position. -/
def Flat (b : ReducingBook) : Prop := b.remaining = 0

instance (b : ReducingBook) : Decidable b.Flat := inferInstanceAs (Decidable (b.remaining = 0))

theorem remaining_nonneg (b : ReducingBook) : 0 ≤ b.remaining := sub_nonneg.mpr b.within

/-- A further order, which has executed no more than what is left. -/
def add (b : ReducingBook) (o : Order) (h : o.executed ≤ b.remaining) : ReducingBook where
  size := b.size
  orders := o :: b.orders
  within := by
    rw [List.map_cons, List.sum_cons]
    exact le_sub_iff_add_le.mp h

@[simp] theorem add_remaining (b : ReducingBook) (o : Order) (h : o.executed ≤ b.remaining) :
    (b.add o h).remaining = b.remaining - o.executed := by
  unfold remaining executed add
  rw [List.map_cons, List.sum_cons]
  exact sub_add_eq_sub_sub_swap _ _ _

@[simp] theorem add_notional (b : ReducingBook) (o : Order) (h : o.executed ≤ b.remaining) :
    (b.add o h).notional = o.notional + b.notional := by
  unfold notional add
  rw [List.map_cons, List.sum_cons]

section Place

variable {ε : Type}

/-- A new order of a given size after what happens to it before it is answered. -/
def newOrder (b : ReducingBook) (size : ℚ) (hsize : 0 ≤ size) (events : List OrderEvent) : Order :=
  (Order.submit size hsize).runWithin b.remaining events

theorem newOrder_executed_le (b : ReducingBook) (size : ℚ) (hsize : 0 ≤ size)
    (events : List OrderEvent) : (b.newOrder size hsize events).executed ≤ b.remaining :=
  Order.runWithin_executed_le b.remaining events _ b.remaining_nonneg

/-- Send an order. With nothing left it is rejected, unless the submission does not
    even get through. -/
def place (b : ReducingBook) (size : ℚ) (hsize : 0 ≤ size) (rejection : ε) :
    Placement ε → ReducingBook × Except ε OrderReport
  | .refused e => (b, .error e)
  | .unanswered e =>
    if b.Flat then (b, .error e)
    else (b.add (b.newOrder size hsize []) (b.newOrder_executed_le size hsize []), .error e)
  | .answered events id =>
    if b.Flat then (b, .error rejection)
    else
      (b.add (b.newOrder size hsize events) (b.newOrder_executed_le size hsize events),
        .ok ((b.newOrder size hsize events).report id))

variable (b : ReducingBook) (size : ℚ) (hsize : 0 ≤ size) (rejection : ε) (p : Placement ε)

/-- With nothing left, no order is taken. -/
theorem place_flat (h : b.Flat) :
    (b.place size hsize rejection p).1 = b ∧
      ∃ e, (b.place size hsize rejection p).2 = .error e := by
  cases p with
  | refused e => exact ⟨rfl, e, rfl⟩
  | unanswered e =>
      simp only [place]
      rw [if_pos h]
      exact ⟨rfl, e, rfl⟩
  | answered events id =>
      simp only [place]
      rw [if_pos h]
      exact ⟨rfl, rejection, rfl⟩

/-- An answered order adds what its report shows, within what was left. -/
theorem place_answered (report : OrderReport)
    (h : (b.place size hsize rejection p).2 = .ok report) :
    ∃ (o : Order) (id : Option Int), report = o.report id ∧ o.executed ≤ b.remaining ∧
      (b.place size hsize rejection p).1.notional = o.notional + b.notional ∧
      (b.place size hsize rejection p).1.remaining = b.remaining - o.executed := by
  cases p with
  | refused e => cases h
  | unanswered e =>
      simp only [place] at h
      split at h <;> cases h
  | answered events id =>
      simp only [place] at h ⊢
      split at h
      · cases h
      · next hleft =>
        cases h
        refine ⟨_, id, rfl, b.newOrder_executed_le size hsize events, ?_, ?_⟩
        · rw [if_neg hleft, add_notional]
        · rw [if_neg hleft, add_remaining]

theorem remaining_place_le : (b.place size hsize rejection p).1.remaining ≤ b.remaining := by
  have hadd : ∀ events, (b.add (b.newOrder size hsize events)
      (b.newOrder_executed_le size hsize events)).remaining ≤ b.remaining := by
    intro events
    rw [add_remaining]
    exact sub_le_self _ (b.newOrder size hsize events).executed_nonneg
  cases p with
  | refused e => exact le_rfl
  | unanswered e =>
      simp only [place]
      split
      · exact le_rfl
      · exact hadd []
  | answered events id =>
      simp only [place]
      split
      · exact le_rfl
      · exact hadd events

end Place

/-- Changing one order adds the change of that order, and nothing past the last one. -/
theorem executed_modify (f : Order → Order) (orders : List Order) (k : Nat) :
    orders.modify k f = orders ∨ ∃ o : Order, ((orders.modify k f).map Order.executed).sum =
      (orders.map Order.executed).sum + ((f o).executed - o.executed) := by
  induction orders generalizing k with
  | nil => exact Or.inl (List.modify_nil f k)
  | cons o rest ih =>
      cases k with
      | zero =>
          refine Or.inr ⟨o, ?_⟩
          rw [List.modify_zero_cons, List.map_cons, List.map_cons, List.sum_cons, List.sum_cons]
          linarith
      | succ k =>
          rw [List.modify_succ_cons]
          rcases ih k with hsame | ⟨x, hx⟩
          · exact Or.inl (by rw [hsame])
          · refine Or.inr ⟨x, ?_⟩
            rw [List.map_cons, List.map_cons, List.sum_cons, List.sum_cons, hx]
            linarith

theorem executed_modify_le (f : Order → Order) (room : ℚ) (hroom : 0 ≤ room)
    (hf : ∀ o : Order, (f o).executed ≤ o.executed + room) (orders : List Order) (k : Nat) :
    ((orders.modify k f).map Order.executed).sum ≤ (orders.map Order.executed).sum + room := by
  rcases executed_modify f orders k with hsame | ⟨o, ho⟩
  · rw [hsame]
    exact le_add_of_nonneg_right hroom
  · linarith [hf o]

theorem executed_le_modify (f : Order → Order) (hf : ∀ o : Order, o.executed ≤ (f o).executed)
    (orders : List Order) (k : Nat) :
    (orders.map Order.executed).sum ≤ ((orders.modify k f).map Order.executed).sum := by
  rcases executed_modify f orders k with hsame | ⟨o, ho⟩
  · rw [hsame]
  · linarith [hf o]

/-- Something happens to the `k`th order, the latest one first. -/
def advance (b : ReducingBook) (k : Nat) (e : OrderEvent) : ReducingBook where
  size := b.size
  orders := b.orders.modify k (fun o => o.applyWithin b.remaining e)
  within := by
    have h := executed_modify_le (fun o => o.applyWithin b.remaining e) b.remaining
      b.remaining_nonneg (fun o => o.applyWithin_executed_le b.remaining b.remaining_nonneg e)
      b.orders k
    have hsize : (b.orders.map Order.executed).sum + b.remaining = b.size := add_sub_cancel _ _
    exact h.trans hsize.le

theorem remaining_advance_le (b : ReducingBook) (k : Nat) (e : OrderEvent) :
    (b.advance k e).remaining ≤ b.remaining :=
  sub_le_sub_left (executed_le_modify _ (fun o => o.executed_le_applyWithin b.remaining e) _ _) _

/-- The position has grown by a further quantity. -/
def grow (b : ReducingBook) (qty : ℚ) (h : 0 ≤ qty) : ReducingBook where
  size := b.size + qty
  orders := b.orders
  within := b.within.trans (le_add_of_nonneg_right h)

theorem Flat.of_le {b b' : ReducingBook} (h : b.Flat) (hle : b'.remaining ≤ b.remaining) :
    b'.Flat := le_antisymm (hle.trans h.le) b'.remaining_nonneg

end ReducingBook

end OptionsBot
