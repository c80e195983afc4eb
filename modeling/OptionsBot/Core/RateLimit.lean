import OptionsBot.Lib.Python

/-!
# Token Bucket

The rate limiter, as its calls are interleaved by the event loop.

Tokens come in at a steady rate, but are only counted when a call looks at the clock.
A call that does not find enough of them sleeps, with the lock in its hands, and looks
again; the others wait for the lock in the order they came. So at any time there is at
most one sleeper, and what the loop can do next is one of four things: begin a call,
wake the sleeper, hand the lock to the first in line, or read the state.

A sleep may end late, or a little early, so when it ends is left open. All that is
asked of the clock is that it does not go back.

## Main definitions

* `TokenBucket`: The settings of a bucket, its tokens and when they were last counted.
* `TokenBucket.make`: A new bucket, which is full.
* `TokenBucket.refill`: Counting the tokens up to now.
* `Limiter`: A bucket with the calls that wait for it and what it has granted.
* `Limiter.acquire`: A call for some tokens, up to where it first has to wait.
* `Limiter.wake`, `Limiter.enter`: How a call that waits goes on.
* `Limiter.step`: What the loop does next.
-/

namespace OptionsBot

/-- A token bucket. -/
structure TokenBucket where
  rate : ℚ
  capacity : ℚ
  tokens : ℚ
  lastRefill : ℚ
  rate_pos : 0 < rate
  capacity_pos : 0 < capacity

namespace TokenBucket

/-- A new bucket. Its capacity is what it fills by in a second, and at least one, unless
    another one is given. -/
def make (rate : ℚ) (capacity : Option ℚ) (now : ℚ) : Except PyError TokenBucket :=
  if hrate : rate ≤ 0 then .error (.valueError ("rate must be > 0, got " ++ toString rate))
  else if hcapacity : capacity.getD (max 1 rate) ≤ 0 then
    .error (.valueError ("capacity must be > 0, got " ++ toString (capacity.getD (max 1 rate))))
  else
    .ok
      { rate := rate, capacity := capacity.getD (max 1 rate),
        tokens := capacity.getD (max 1 rate), lastRefill := now,
        rate_pos := not_le.mp hrate, capacity_pos := not_le.mp hcapacity }

/-- Count the tokens up to now. -/
def refill (self : TokenBucket) (now : ℚ) : TokenBucket :=
  let elapsed := now - self.lastRefill
  if 0 < elapsed then
    { self with
      tokens := min self.capacity (self.tokens + elapsed * self.rate)
      lastRefill := now }
  else self

@[simp] theorem refill_rate (self : TokenBucket) (now : ℚ) :
    (self.refill now).rate = self.rate := by
  simp only [refill]
  split_ifs <;> rfl

@[simp] theorem refill_capacity (self : TokenBucket) (now : ℚ) :
    (self.refill now).capacity = self.capacity := by
  simp only [refill]
  split_ifs <;> rfl

end TokenBucket

/-- Tokens given to a call. -/
structure Grant where
  task : Nat
  time : ℚ
  amount : ℚ
  deriving DecidableEq, Repr

/-- A call that sleeps, with the lock. -/
structure Sleeper where
  task : Nat
  n : ℚ
  waitS : ℚ
  deriving DecidableEq, Repr

/-- A bucket with the calls for its tokens: the one that sleeps, the ones that wait for
    the lock, each with the tokens it is for, and the ones that were granted. -/
structure Limiter where
  bucket : TokenBucket
  sleeping : Option Sleeper := none
  waiting : List (Nat × ℚ) := []
  granted : List Grant := []

/-- What the event loop does. -/
inductive LimiterAct where
  | acquire (task : Nat) (n : ℚ)
  | wake
  | enter
  | snapshot
  deriving DecidableEq, Repr

/-- What it does, and the time. -/
structure LimiterEvent where
  act : LimiterAct
  now : ℚ
  deriving DecidableEq, Repr

namespace Limiter

/-- One round of the loop that a call goes through once it has the lock. -/
def attempt (self : Limiter) (task : Nat) (n now : ℚ) : Limiter :=
  let bucket := self.bucket.refill now
  if n ≤ bucket.tokens then
    { self with
      bucket := { bucket with tokens := bucket.tokens - n }
      sleeping := none
      granted := self.granted ++ [{ task := task, time := now, amount := n }] }
  else
    -- The lock is kept through the sleep, which is as long as the rest takes to come in.
    let deficit := n - bucket.tokens
    { self with
      bucket := bucket
      sleeping := some { task := task, n := n, waitS := deficit / bucket.rate } }

/-- `acquire`. The lock is free if no call has it and none is in line for it. -/
def acquire (self : Limiter) (task : Nat) (n now : ℚ) : Except PyError Limiter :=
  if n ≤ 0 then .error (.valueError ("n must be > 0, got " ++ toString n))
  else if self.bucket.capacity < n then
    .error (.valueError ("n=" ++ toString n ++ " exceeds bucket capacity=" ++
      toString self.bucket.capacity))
  else if self.sleeping = none ∧ self.waiting = [] then .ok (self.attempt task n now)
  else .ok { self with waiting := self.waiting ++ [(task, n)] }

/-- The sleep ends. -/
def wake (self : Limiter) (now : ℚ) : Limiter :=
  match self.sleeping with
  | none => self
  | some sleeper => self.attempt sleeper.task sleeper.n now

/-- The first in line gets the lock, if it is free. -/
def enter (self : Limiter) (now : ℚ) : Limiter :=
  match self.sleeping, self.waiting with
  | none, (task, n) :: rest => { self with waiting := rest }.attempt task n now
  | _, _ => self

/-- `snapshot`, which counts the tokens as well. It has no use for the lock. -/
def snapshot (self : Limiter) (now : ℚ) : Limiter × ℚ × ℚ × ℚ :=
  let bucket := self.bucket.refill now
  ({ self with bucket := bucket }, bucket.rate, bucket.capacity, bucket.tokens)

/-- A call that raises leaves everything as it is. -/
def step (self : Limiter) (e : LimiterEvent) : Limiter :=
  match e.act with
  | .acquire task n =>
    match self.acquire task n e.now with
    | .ok after => after
    | .error _ => self
  | .wake => self.wake e.now
  | .enter => self.enter e.now
  | .snapshot => (self.snapshot e.now).1

/-- The limiter of a bucket that nothing has asked for tokens. -/
def idle (bucket : TokenBucket) : Limiter := { bucket := bucket }

end Limiter

end OptionsBot
