import OptionsBot.Core.RateLimit
import OptionsBot.Lib.Metering

/-!
# Rate Windows

What a token bucket grants in an interval, whoever asks for tokens and in whatever
order the calls go on.

A call adds to what the bucket has granted in one place only, where it has just
counted the tokens and found enough of them. So a bucket is an account that is filled
up to the moment and then taken from, and everything else about a run, who sleeps, who
is in line and when a sleep ends, does not matter to it.

## Main definitions

* `Limiter.Kept`: The bucket is an account of what it has granted.

## Theorems

* `refill_eq`: Counting the tokens fills the account.
* `Kept.snapshot`, `Kept.attempt`, `Kept.step`: What a count, a round and a step keep.
* `kept_run`: What a run keeps.
* `make_ok`: A bucket with positive settings.
* `limiter_right`: The tokens of a bucket and what it grants in an interval.
-/

namespace OptionsBot

-- The sample run below computes with rationals.
attribute [local semireducible] Rat.add Rat.sub Rat.mul Rat.inv

namespace Limiter

/-- The bucket has the given settings and is an account of what it has granted, and only
    calls for some tokens wait. -/
structure Kept (rate capacity : ℚ) (limiter : Limiter) : Prop where
  rate_eq : limiter.bucket.rate = rate
  capacity_eq : limiter.bucket.capacity = capacity
  account : Metered Grant.time Grant.amount rate capacity limiter.bucket.tokens
    limiter.bucket.lastRefill limiter.granted
  sleeping : ∀ sleeper ∈ limiter.sleeping, 0 < sleeper.n
  waiting : ∀ call ∈ limiter.waiting, 0 < call.2

variable {rate capacity : ℚ} {limiter : Limiter}

/-- On a clock that does not go back, counting the tokens fills the account. -/
theorem refill_eq (bucket : TokenBucket) (now : ℚ) (hnow : bucket.lastRefill ≤ now)
    (hfull : bucket.tokens ≤ bucket.capacity) :
    (bucket.refill now).tokens =
        min bucket.capacity (bucket.tokens + (now - bucket.lastRefill) * bucket.rate) ∧
      (bucket.refill now).lastRefill = now := by
  simp only [TokenBucket.refill]
  split_ifs with helapsed
  · exact ⟨rfl, rfl⟩
  · -- The clock stands still, so nothing has come in.
    have hsame : now = bucket.lastRefill := by linarith
    rw [hsame, sub_self, zero_mul, add_zero, min_eq_right hfull]
    exact ⟨rfl, rfl⟩

theorem Kept.rate_nonneg (h : limiter.Kept rate capacity) : 0 ≤ rate := by
  rw [← h.rate_eq]
  exact limiter.bucket.rate_pos.le

theorem Kept.full (h : limiter.Kept rate capacity) :
    limiter.bucket.tokens ≤ limiter.bucket.capacity := by
  rw [h.capacity_eq]
  exact h.account.le_capacity

/-- Counting the tokens keeps the account. -/
theorem Kept.refill (h : limiter.Kept rate capacity) (now : ℚ)
    (hnow : limiter.bucket.lastRefill ≤ now) :
    Metered Grant.time Grant.amount rate capacity (limiter.bucket.refill now).tokens now
      limiter.granted := by
  rw [(refill_eq limiter.bucket now hnow h.full).1, h.rate_eq, h.capacity_eq]
  exact h.account.fill h.rate_nonneg now hnow

/-- A bucket whose tokens are counted. -/
theorem Kept.snapshot (h : limiter.Kept rate capacity) (now : ℚ)
    (hnow : limiter.bucket.lastRefill ≤ now) : (limiter.snapshot now).1.Kept rate capacity ∧
      (limiter.snapshot now).1.bucket.lastRefill = now := by
  have hlast := (refill_eq limiter.bucket now hnow h.full).2
  refine ⟨⟨?_, ?_, ?_, h.sleeping, h.waiting⟩, hlast⟩
  · exact (TokenBucket.refill_rate _ _).trans h.rate_eq
  · exact (TokenBucket.refill_capacity _ _).trans h.capacity_eq
  · simp only [Limiter.snapshot, hlast]
    exact h.refill now hnow

theorem Kept.attempt (h : limiter.Kept rate capacity) (task : Nat) (n now : ℚ) (hn : 0 < n)
    (hnow : limiter.bucket.lastRefill ≤ now) : (limiter.attempt task n now).Kept rate capacity ∧
      (limiter.attempt task n now).bucket.lastRefill = now := by
  rcases h.snapshot now hnow with ⟨hcounted, hlast⟩
  simp only [Limiter.attempt]
  split_ifs with henough
  · refine ⟨⟨hcounted.rate_eq, hcounted.capacity_eq, ?_, fun _ hs => by (cases hs), h.waiting⟩,
      hlast⟩
    exact hcounted.account.take h.rate_nonneg { task := task, time := now, amount := n } hlast.symm
      hn.le henough
  · refine ⟨⟨hcounted.rate_eq, hcounted.capacity_eq, hcounted.account, ?_, h.waiting⟩, hlast⟩
    intro sleeper hs
    cases hs
    exact hn

/-- What one step keeps, if the clock has not gone back. -/
theorem Kept.step (h : limiter.Kept rate capacity) (e : LimiterEvent)
    (hnow : limiter.bucket.lastRefill ≤ e.now) : (limiter.step e).Kept rate capacity ∧
      (limiter.step e).bucket.lastRefill ≤ e.now := by
  unfold Limiter.step
  cases e.act with
  | acquire task n =>
      simp only [Limiter.acquire]
      split_ifs with hn hcapacity hfree
      · exact ⟨h, hnow⟩
      · exact ⟨h, hnow⟩
      · have hround := h.attempt task n e.now (not_le.mp hn) hnow
        exact ⟨hround.1, hround.2.le⟩
      · refine ⟨⟨h.rate_eq, h.capacity_eq, h.account, h.sleeping, ?_⟩, hnow⟩
        intro call hcall
        rcases List.mem_append.mp hcall with hold | hnew
        · exact h.waiting call hold
        · rw [List.mem_singleton.mp hnew]
          exact not_le.mp hn
  | wake =>
      simp only [Limiter.wake]
      cases hsleeping : limiter.sleeping with
      | none => exact ⟨h, hnow⟩
      | some sleeper =>
          have hround := h.attempt sleeper.task sleeper.n e.now
            (h.sleeping sleeper (by rw [hsleeping]; rfl)) hnow
          exact ⟨hround.1, hround.2.le⟩
  | enter =>
      simp only [Limiter.enter]
      split
      · next task n rest hfree hline =>
        have hn : 0 < n := h.waiting (task, n) (by rw [hline]; exact List.mem_cons_self)
        have hrest : ({ limiter with waiting := rest } : Limiter).Kept rate capacity :=
          ⟨h.rate_eq, h.capacity_eq, h.account, h.sleeping,
            fun call hcall => h.waiting call (by rw [hline]; exact List.mem_cons_of_mem _ hcall)⟩
        have hround := hrest.attempt task n e.now hn hnow
        exact ⟨hround.1, hround.2.le⟩
      · exact ⟨h, hnow⟩
  | snapshot =>
      have hcounted := h.snapshot e.now hnow
      exact ⟨hcounted.1, hcounted.2.le⟩

theorem kept_run (h : limiter.Kept rate capacity) (start : ℚ)
    (hstart : limiter.bucket.lastRefill ≤ start)
    (events : List LimiterEvent) (horder : InOrder start (events.map LimiterEvent.now)) :
    (events.foldl step limiter).Kept rate capacity := by
  induction events generalizing limiter start with
  | nil => exact h
  | cons e rest ih =>
      have hlater := List.pairwise_cons.mp horder
      have hstep := h.step e (le_trans hstart (hlater.1 e.now List.mem_cons_self))
      exact ih hstep.1 e.now hstep.2 hlater.2

/-- A new bucket is a full account. -/
theorem kept_idle (bucket : TokenBucket) (h : bucket.tokens = bucket.capacity) :
    (idle bucket).Kept bucket.rate bucket.capacity where
  rate_eq := rfl
  capacity_eq := rfl
  account := by
    have hfull : Metered Grant.time Grant.amount bucket.rate bucket.capacity bucket.capacity
        bucket.lastRefill [] :=
      Metered.full bucket.lastRefill bucket.rate_pos.le bucket.capacity_pos.le
    simp only [idle, h]
    exact hfull
  sleeping := fun _ hs => by cases hs
  waiting := fun _ hc => absurd hc List.not_mem_nil

end Limiter

/-- A bucket whose settings are positive can be made. -/
theorem make_ok (rate capacity start : ℚ) (hrate : 0 < rate) (hcapacity : 0 < capacity) :
    ∃ bucket, TokenBucket.make rate (some capacity) start = .ok bucket ∧ bucket.rate = rate ∧
      bucket.capacity = capacity ∧ bucket.tokens = bucket.capacity ∧
        bucket.lastRefill = start := by
  refine ⟨⟨rate, capacity, capacity, start, hrate, hcapacity⟩, ?_, rfl, rfl, rfl, rfl⟩
  simp only [TokenBucket.make, Option.getD_some, dif_neg (not_le.mpr hrate),
    dif_neg (not_le.mpr hcapacity)]

/-- However the calls are interleaved, the tokens stay between none and the capacity, and
    what is granted in an interval is at most the capacity and what comes in during it. -/
theorem limiter_right (rate capacity start : ℚ) (hrate : 0 < rate) (hcapacity : 0 < capacity) :
    ∃ bucket, TokenBucket.make rate (some capacity) start = .ok bucket ∧
      ∀ events : List LimiterEvent, InOrder start (events.map LimiterEvent.now) →
        let limiter := events.foldl Limiter.step (Limiter.idle bucket)
        (0 ≤ limiter.bucket.tokens ∧ limiter.bucket.tokens ≤ capacity) ∧
          ∀ s t, s ≤ t → takenIn Grant.time Grant.amount limiter.granted s t ≤
            capacity + rate * (t - s) := by
  rcases make_ok rate capacity start hrate hcapacity with
    ⟨bucket, hmake, rfl, rfl, hfull, hlast⟩
  refine ⟨bucket, hmake, fun events horder => ?_⟩
  have hkept := Limiter.kept_run (Limiter.kept_idle bucket hfull) start hlast.le events horder
  exact ⟨⟨hkept.account.nonneg, hkept.account.le_capacity⟩, hkept.account.window⟩

/-- Three calls at once for two tokens, and the sleep of the third. -/
def threeCalls : List LimiterEvent :=
  [⟨.acquire 1 1, 0⟩, ⟨.acquire 2 1, 0⟩, ⟨.acquire 3 1, 0⟩, ⟨.wake, 1 / 10⟩]

theorem limiter_right_three :
    (TokenBucket.make 10 (some 2) 0).toOption.map (fun bucket =>
        (threeCalls.foldl Limiter.step (Limiter.idle bucket)).granted.length) = some 3 ∧
      ∃ bucket, TokenBucket.make 10 (some 2) 0 = .ok bucket ∧
        takenIn Grant.time Grant.amount
          (threeCalls.foldl Limiter.step (Limiter.idle bucket)).granted 0 (1 / 10) ≤
            2 + 10 * (1 / 10 - 0) := by
  refine ⟨by decide, ?_⟩
  rcases limiter_right 10 2 0 (by decide) (by decide) with ⟨bucket, hmake, hall⟩
  exact ⟨bucket, hmake, (hall threeCalls (by unfold InOrder; decide)).2 0 (1 / 10) (by decide)⟩

end OptionsBot
