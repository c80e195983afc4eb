import Mathlib.Algebra.Order.Field.Basic
import Mathlib.Tactic.Linarith

/-!
# Throttled Turns

Turns that are let through at most every so often, by a process that only knows when it last
let one through. The clock is that of the process. When the process ends, what it knew is lost,
and the next one lets a first turn through at once.

So what is let through is not bounded by the time alone. Each start may add one, and the rest
has to be paid for by time that a process was up: `Account.paid`. The invariant behind this is
`Account`. A process that has let nothing through still has its first turn to spend, and one
that has can set the time since then aside.

## Main definitions

* `ClockEvent`: A process starts, or its clock is read.
* `Uptime`: The starts, and the time between the readings of each process.
* `Account`: What the turns let through so far leave over.

## Theorems

* `Account.first`, `Account.start`, `Account.wait`, `Account.pass`: A first process, a later
  one, a reading that lets nothing through, and one that does.
* `Account.paid`: Every turn is paid for by a start or by an interval.
-/

namespace OptionsBot

section Throttle

variable {K : Type} [Field K] [LinearOrder K]

inductive ClockEvent (K : Type) where
  | start (reading : K)
  | turn (reading : K)
  deriving DecidableEq, Repr

/-- The last reading of the clock, and what went before it. -/
structure Uptime (K : Type) where
  reading : K
  starts : Nat
  up : K

namespace Uptime

/-- A first process with the reading it starts at. -/
def first (reading : K) : Uptime K := { reading := reading, starts := 1, up := 0 }

def step (u : Uptime K) : ClockEvent K → Uptime K
  | .start reading => { u with reading := reading, starts := u.starts + 1 }
  | .turn reading => { u with reading := reading, up := u.up + (reading - u.reading) }

/-- A process does not read an earlier time than before. -/
def Forward (u : Uptime K) : ClockEvent K → Prop
  | .start _ => True
  | .turn reading => u.reading ≤ reading

end Uptime

/-- What was let through, by a process that did so last at `last`, is covered by the starts and
    the uptime. -/
structure Account (interval : K) (u : Uptime K) (last : Option K) (passed : Nat) : Prop where
  unused : last = none → interval * (passed + 1) ≤ interval * u.starts + u.up
  used : ∀ t ∈ last, t ≤ u.reading ∧
    interval * passed + (u.reading - t) ≤ interval * u.starts + u.up

namespace Account

variable {interval : K} {u : Uptime K} {last : Option K} {passed : Nat}

theorem first (interval reading : K) : Account interval (Uptime.first reading) none 0 where
  unused := by
    intro _
    simp only [Uptime.first, Nat.cast_zero, Nat.cast_one, zero_add, add_zero, le_refl]
  used := by
    intro t ht
    cases ht

variable [IsStrictOrderedRing K]

theorem paid (hinterval : 0 ≤ interval) (h : Account interval u last passed) :
    interval * passed ≤ interval * u.starts + u.up := by
  cases hlast : last with
  | none =>
      have hunused := h.unused hlast
      rw [mul_add, mul_one] at hunused
      linarith
  | some t =>
      rcases h.used t hlast with ⟨horder, hused⟩
      linarith

/-- A new process may let a turn through at once. -/
theorem start (hinterval : 0 ≤ interval) (h : Account interval u last passed) (reading : K) :
    Account interval (u.step (.start reading)) none passed where
  unused := by
    intro _
    have hpaid := h.paid hinterval
    simp only [Uptime.step, Nat.cast_add, Nat.cast_one, mul_add, mul_one]
    linarith
  used := by
    intro t ht
    cases ht

theorem wait (h : Account interval u last passed) (reading : K)
    (hforward : u.Forward (.turn reading)) :
    Account interval (u.step (.turn reading)) last passed where
  unused := by
    intro hlast
    have hunused := h.unused hlast
    have hread : u.reading ≤ reading := hforward
    simp only [Uptime.step]
    linarith
  used := by
    intro t ht
    rcases h.used t ht with ⟨horder, hused⟩
    have hread : u.reading ≤ reading := hforward
    simp only [Uptime.step]
    exact ⟨le_trans horder hread, by linarith⟩

/-- A turn that is let through comes an interval after the last one, or is the first of its
    process. It may do what is counted, or not. -/
theorem pass (hinterval : 0 ≤ interval) (h : Account interval u last passed) (reading : K)
    (hforward : u.Forward (.turn reading)) (hdue : ∀ t ∈ last, interval ≤ reading - t)
    (more : Nat) (hmore : more ≤ 1) :
    Account interval (u.step (.turn reading)) (some reading) (passed + more) where
  unused := by
    intro hlast
    cases hlast
  used := by
    intro t ht
    cases ht
    have hread : u.reading ≤ reading := hforward
    have hcast : (more : K) ≤ 1 := by exact_mod_cast hmore
    have hspent : interval * more ≤ interval := mul_le_of_le_one_right hinterval hcast
    refine ⟨le_refl _, ?_⟩
    simp only [Uptime.step, Nat.cast_add, mul_add, sub_self, add_zero]
    cases hlast : last with
    | none =>
        have hunused := h.unused hlast
        rw [mul_add, mul_one] at hunused
        linarith
    | some t =>
        -- The time since the last turn was set aside, and it is an interval at least.
        rcases h.used t hlast with ⟨horder, hused⟩
        have hlong := hdue t hlast
        linarith

end Account

end Throttle

end OptionsBot
