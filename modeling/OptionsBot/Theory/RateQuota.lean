import OptionsBot.Core.RestClient
import OptionsBot.Lib.Run
import OptionsBot.Theory.RateWindow

/-!
# Request Quotas

How many requests the client sends in a window of ten seconds.

The exchange counts the requests of a window, and a bucket holds as many tokens as a
window may have. But it also fills while they are spent: full at first, it grants a
window's worth at once, and nearly another one until the window ends. So what burst and
refill allow together is one request less than twice the quota, and at every rate there
is a run that has so many.

What exactly is sent in a window is what the bucket held where the window begins and
what came in since, less what is left and what flowed over. So the quota is kept as long
as no token is taken out of a bucket that then holds less than ten seconds before, what
has flowed over in between counted in.

## Main definitions

* `Quota`: No window has more requests of a kind than it may.
* `held`: What a bucket holds at a moment, and what has flowed over.
* `Replenished`: No token is taken that the last ten seconds have not brought.
* `Limiter.Tallied`: A bucket that gives out single tokens, with its ledger.
* `Serving`: A bucket that nothing waits for.

## Theorems

* `Tallied.step`: What a step of a bucket keeps, and what it grants.
* `step_limiter`: What a step of the client is to one of its buckets.
* `quota_step`: When one step keeps to the quota.
* `quota_iff_replenished`: When a run keeps to it, and what it keeps to anyway.
* `worst_window`: A run that sends as much as there can be.
-/

namespace OptionsBot

/-- What a bucket holds at a moment and what has flowed over until then, by what it has granted.
    A new bucket is full, as if it had been so for ten seconds. -/
def held (rps : Nat) (start : ℚ) (granted : List Grant) (t : ℚ) : Ledger ℚ :=
  (Ledger.full (10 * rps : ℚ) (start - 10)).upTo Grant.time Grant.amount (rps : ℚ) (10 * rps)
    granted t

/-- The calls ask for one token each. -/
def LimiterAct.IsSingle : LimiterAct → Prop
  | .acquire _ n => n = 1
  | _ => True

namespace Limiter

/-- The bucket has given out single tokens, and holds what its ledger says. -/
structure Tallied (rps : Nat) (start : ℚ) (limiter : Limiter) : Prop where
  kept : limiter.Kept rps (10 * rps)
  sleeping : ∀ sleeper ∈ limiter.sleeping, sleeper.n = 1
  waiting : ∀ call ∈ limiter.waiting, call.2 = 1
  ones : ∀ grant ∈ limiter.granted, grant.amount = 1
  level : (held rps start limiter.granted limiter.bucket.lastRefill).level = limiter.bucket.tokens

/-- At most one token is granted, at the given time. -/
def Grants (before after : Limiter) (now : ℚ) : Prop :=
  after.granted = before.granted ∨
    ∃ grant : Grant, grant.time = now ∧ grant.amount = 1 ∧ after.granted = before.granted ++ [grant]

variable {rps : Nat} {start now : ℚ} {limiter : Limiter}

theorem Tallied.past (h : limiter.Tallied rps start) (hnow : limiter.bucket.lastRefill ≤ now) :
    ∀ grant ∈ limiter.granted, grant.time ≤ now :=
  fun grant hgrant => le_trans (h.kept.account.past grant hgrant) hnow

/-- Counting the tokens comes to what the ledger says. -/
theorem Tallied.refill (h : limiter.Tallied rps start) (hnow : limiter.bucket.lastRefill ≤ now) :
    (held rps start limiter.granted now).level = (limiter.bucket.refill now).tokens := by
  rw [(refill_eq limiter.bucket now hnow h.kept.full).1, h.kept.rate_eq, h.kept.capacity_eq,
    ← h.level, held, Ledger.upTo_later h.kept.rate_nonneg (h.past (le_refl _)) now hnow]
  rfl

/-- One round of a call for one token. -/
theorem Tallied.attempt (h : limiter.Tallied rps start) (task : Nat)
    (hnow : limiter.bucket.lastRefill ≤ now) :
    (limiter.attempt task 1 now).Tallied rps start ∧
      (limiter.attempt task 1 now).bucket.lastRefill = now ∧
      limiter.Grants (limiter.attempt task 1 now) now := by
  have hround := h.kept.attempt task 1 now one_pos hnow
  have hlevel := h.refill hnow
  by_cases henough : 1 ≤ (limiter.bucket.refill now).tokens
  · let grant : Grant := { task := task, time := now, amount := 1 }
    have hattempt : limiter.attempt task 1 now =
        { limiter with
          bucket := { limiter.bucket.refill now with
            tokens := (limiter.bucket.refill now).tokens - 1 }
          sleeping := none
          granted := limiter.granted ++ [grant] } := by
      simp only [Limiter.attempt, if_pos henough]
      rfl
    refine ⟨⟨hround.1, ?_, ?_, ?_, ?_⟩, hround.2, ?_⟩
    · rw [hattempt]
      exact fun _ hs => by cases hs
    · rw [hattempt]
      exact h.waiting
    · rw [hattempt]
      intro g hg
      rcases List.mem_append.mp hg with hold | hnew
      · exact h.ones g hold
      · rw [List.mem_singleton.mp hnew]
    · -- The token that is granted is missing from the ledger as well.
      rw [hround.2, hattempt]
      change (held rps start (limiter.granted ++ [grant]) now).level = _ - 1
      rw [held, Ledger.upTo_append grant rfl (h.past hnow) zero_le_one]
      exact congrArg (· - (1 : ℚ)) hlevel
    · rw [hattempt]
      exact Or.inr ⟨grant, rfl, rfl, rfl⟩
  · have hattempt : limiter.attempt task 1 now =
        { limiter with
          bucket := limiter.bucket.refill now
          sleeping := some
            { task := task, n := 1
              waitS := (1 - (limiter.bucket.refill now).tokens) /
                (limiter.bucket.refill now).rate } } := by
      simp only [Limiter.attempt, if_neg henough]
    refine ⟨⟨hround.1, ?_, ?_, ?_, ?_⟩, hround.2, ?_⟩
    · rw [hattempt]
      intro sleeper hs
      cases hs
      rfl
    · rw [hattempt]
      exact h.waiting
    · rw [hattempt]
      exact h.ones
    · rw [hround.2, hattempt]
      exact hlevel
    · rw [hattempt]
      exact Or.inl rfl

/-- What a step keeps, if its call is for one token and the clock has not gone back. -/
theorem Tallied.step (h : limiter.Tallied rps start) (e : LimiterEvent) (hsingle : e.act.IsSingle)
    (hnow : limiter.bucket.lastRefill ≤ e.now) :
    (limiter.step e).Tallied rps start ∧ (limiter.step e).bucket.lastRefill ≤ e.now ∧
      limiter.Grants (limiter.step e) e.now := by
  have hround : ∀ task,
      (limiter.attempt task 1 e.now).Tallied rps start ∧
        (limiter.attempt task 1 e.now).bucket.lastRefill ≤ e.now ∧
        limiter.Grants (limiter.attempt task 1 e.now) e.now := fun task =>
    ⟨(h.attempt task hnow).1, (h.attempt task hnow).2.1.le, (h.attempt task hnow).2.2⟩
  have hstill : limiter.Tallied rps start ∧ limiter.bucket.lastRefill ≤ e.now ∧
      limiter.Grants limiter e.now := ⟨h, hnow, Or.inl rfl⟩
  unfold Limiter.step
  cases hact : e.act with
  | acquire task n =>
      rw [hact] at hsingle
      cases hsingle
      simp only [Limiter.acquire]
      split_ifs with hn hcapacity hfree
      · exact hstill
      · exact hstill
      · exact hround task
      · refine ⟨⟨?_, h.sleeping, ?_, h.ones, h.level⟩, hnow, Or.inl rfl⟩
        · refine ⟨h.kept.rate_eq, h.kept.capacity_eq, h.kept.account, h.kept.sleeping, ?_⟩
          intro call hcall
          rcases List.mem_append.mp hcall with hold | hnew
          · exact h.kept.waiting call hold
          · rw [List.mem_singleton.mp hnew]
            exact one_pos
        · intro call hcall
          rcases List.mem_append.mp hcall with hold | hnew
          · exact h.waiting call hold
          · rw [List.mem_singleton.mp hnew]
  | wake =>
      simp only [Limiter.wake]
      cases hsleeping : limiter.sleeping with
      | none => exact hstill
      | some sleeper =>
          simp only
          rw [h.sleeping sleeper (by rw [hsleeping]; rfl)]
          exact hround sleeper.task
  | enter =>
      simp only [Limiter.enter]
      split
      · next task n rest hfree hline =>
        have hn : n = 1 := h.waiting (task, n) (by rw [hline]; exact List.mem_cons_self)
        have hrest : ({ limiter with waiting := rest } : Limiter).Tallied rps start := by
          refine ⟨⟨h.kept.rate_eq, h.kept.capacity_eq, h.kept.account, h.kept.sleeping, ?_⟩,
            h.sleeping, ?_, h.ones, h.level⟩
          · exact fun call hcall =>
              h.kept.waiting call (by rw [hline]; exact List.mem_cons_of_mem _ hcall)
          · exact fun call hcall =>
              h.waiting call (by rw [hline]; exact List.mem_cons_of_mem _ hcall)
        have hgoes := hrest.attempt task hnow
        rw [hn]
        exact ⟨hgoes.1, hgoes.2.1.le, hgoes.2.2⟩
      · exact hstill
  | snapshot =>
      have hcounted := h.kept.snapshot e.now hnow
      refine ⟨⟨hcounted.1, h.sleeping, h.waiting, h.ones, ?_⟩, hcounted.2.le, Or.inl rfl⟩
      rw [hcounted.2]
      exact h.refill hnow

/-- A new bucket is full, and so is its ledger. -/
theorem tallied_idle (bucket : TokenBucket) (hrate : bucket.rate = rps)
    (hcapacity : bucket.capacity = 10 * rps) (hfull : bucket.tokens = bucket.capacity)
    (hstart : bucket.lastRefill = start) : (idle bucket).Tallied rps start where
  kept := by
    rw [← hcapacity, ← hrate]
    exact kept_idle bucket hfull
  sleeping := fun _ hs => by cases hs
  waiting := fun _ hc => absurd hc List.not_mem_nil
  ones := fun _ h => absurd h List.not_mem_nil
  level := by
    change min (10 * rps : ℚ) (10 * rps + (bucket.lastRefill - (start - 10)) * rps) = bucket.tokens
    have hrps : (0 : ℚ) ≤ rps := Nat.cast_nonneg rps
    rw [hfull, hcapacity, hstart, min_eq_left (by linarith)]

end Limiter

namespace DeltaRestClient

variable (self : DeltaRestClient)

/-- What a call does next is of no concern to the buckets. -/
theorem setRequests_limiter (tasks : List Nat) (f : RestRequest → RestRequest) (other : Bool) :
    (tasks.foldl (fun client task => client.setRequest task f) self).limiter other =
      self.limiter other := by
  induction tasks generalizing self with
  | nil => rfl
  | cons task rest ih => exact ih (self.setRequest task f)

/-- A limiter that goes on leaves the other one alone. -/
theorem advance_limiter (isOrder other : Bool) (after : Limiter) :
    (self.advance isOrder after).limiter other =
      if other = isOrder then after else self.limiter other := by
  unfold advance
  rw [setRequests_limiter]
  cases isOrder <;> cases other <;> rfl

/-- To a bucket, an attempt that starts is a call for one token. -/
theorem startAttempt_limiter (task : Nat) (isOrder other : Bool) (now : ℚ) :
    (self.startAttempt task isOrder now).limiter other =
      if other = isOrder then (self.limiter isOrder).step ⟨.acquire task 1, now⟩
      else self.limiter other := by
  unfold startAttempt Limiter.step
  simp only
  cases (self.limiter isOrder).acquire task 1 now with
  | ok after => exact self.advance_limiter isOrder other after
  | error e =>
      change self.limiter other = _
      split_ifs with hother
      · rw [hother]
      · rfl

/-- To each of the buckets a step of the client is nothing, or a step that asks for one token. -/
theorem step_limiter (e : RestEvent) (isOrder : Bool) :
    (self.step e).limiter isOrder = self.limiter isOrder ∨
      ∃ act : LimiterAct, act.IsSingle ∧
        (self.step e).limiter isOrder = (self.limiter isOrder).step ⟨act, e.now⟩ := by
  -- A limiter that goes on is one of the two, and the other is as it was.
  have hone : ∀ (asked : Bool) (after : Limiter) (act : LimiterAct), act.IsSingle →
      after = (self.limiter asked).step ⟨act, e.now⟩ →
      (if isOrder = asked then after else self.limiter isOrder) = self.limiter isOrder ∨
        ∃ act : LimiterAct, act.IsSingle ∧
          (if isOrder = asked then after else self.limiter isOrder) =
            (self.limiter isOrder).step ⟨act, e.now⟩ := by
    intro asked after act hsingle hafter
    by_cases hasked : isOrder = asked
    · refine Or.inr ⟨act, hsingle, ?_⟩
      rw [if_pos hasked, hafter, hasked]
    · exact Or.inl (if_neg hasked)
  unfold step
  cases e.act with
  | request asked =>
      simp only [startAttempt_limiter]
      exact hone asked _ (.acquire self.requests.length 1) rfl rfl
  | wake asked =>
      simp only [advance_limiter]
      exact hone asked _ .wake trivial rfl
  | enter asked =>
      simp only [advance_limiter]
      exact hone asked _ .enter trivial rfl
  | answer task again => exact Or.inl rfl
  | retry task =>
      simp only
      cases self.requests[task]? with
      | none => exact Or.inl rfl
      | some r =>
          simp only
          split_ifs
          · rw [startAttempt_limiter]
            exact hone r.isOrder _ (.acquire task 1) rfl rfl
          · exact Or.inl rfl

/-- Both buckets give out single tokens and have been looked at by now. -/
def AllTallied (settings : RateSettings) (start : ℚ) (self : DeltaRestClient) (now : ℚ) : Prop :=
  ∀ isOrder, (self.limiter isOrder).Tallied (settings.rps isOrder) start ∧
    (self.limiter isOrder).bucket.lastRefill ≤ now

variable {self} {settings : RateSettings} {start now : ℚ}

/-- What one step keeps, and what it grants, if the clock has not gone back. -/
theorem AllTallied.step (h : AllTallied settings start self now) (e : RestEvent)
    (hnow : now ≤ e.now) : AllTallied settings start (self.step e) e.now ∧
      ∀ isOrder, (self.limiter isOrder).Grants ((self.step e).limiter isOrder) e.now := by
  have hboth : ∀ isOrder,
      ((self.step e).limiter isOrder).Tallied (settings.rps isOrder) start ∧
        ((self.step e).limiter isOrder).bucket.lastRefill ≤ e.now ∧
        (self.limiter isOrder).Grants ((self.step e).limiter isOrder) e.now := by
    intro isOrder
    have hlast := le_trans (h isOrder).2 hnow
    rcases self.step_limiter e isOrder with hsame | ⟨act, hsingle, hgoes⟩
    · rw [hsame]
      exact ⟨(h isOrder).1, hlast, Or.inl rfl⟩
    · rw [hgoes]
      exact (h isOrder).1.step ⟨act, e.now⟩ hsingle hlast
  exact ⟨fun isOrder => ⟨(hboth isOrder).1, (hboth isOrder).2.1⟩,
    fun isOrder => (hboth isOrder).2.2⟩

theorem AllTallied.run (h : AllTallied settings start self now) (events : List RestEvent)
    (horder : InOrder now (events.map RestEvent.now)) :
    ∃ last, AllTallied settings start (events.foldl DeltaRestClient.step self) last := by
  induction events generalizing self now with
  | nil => exact ⟨now, h⟩
  | cons e rest ih =>
      have hlater := List.pairwise_cons.mp horder
      exact ih (h.step e (hlater.1 e.now List.mem_cons_self)).1 hlater.2

end DeltaRestClient

theorem RateSettings.rps_pos (settings : RateSettings) (isOrder : Bool) :
    1 ≤ settings.rps isOrder := by
  cases isOrder with
  | false => exact settings.rest_ge
  | true => exact settings.order_ge

/-- A client can be made by any settings, and its buckets start full. -/
theorem make_tallied (settings : RateSettings) (start : ℚ) :
    ∃ client, DeltaRestClient.make settings start = .ok client ∧
      DeltaRestClient.AllTallied settings start client start ∧ ∀ isOrder,
        ∃ bucket, client.limiter isOrder = Limiter.idle bucket ∧
          bucket.rate = settings.rps isOrder ∧ bucket.capacity = 10 * settings.rps isOrder ∧
          bucket.tokens = bucket.capacity ∧ bucket.lastRefill = start := by
  have hbucket : ∀ rps : Nat, 1 ≤ rps → ∃ bucket,
      TokenBucket.make (rps : ℚ) (some ((max 1 (rps * 10) : Nat) : ℚ)) start = .ok bucket ∧
        bucket.rate = rps ∧ bucket.capacity = 10 * rps ∧ bucket.tokens = bucket.capacity ∧
        bucket.lastRefill = start := by
    intro rps hrps
    have hcapacity : ((max 1 (rps * 10) : Nat) : ℚ) = 10 * rps := by
      rw [max_eq_right (by omega)]
      push_cast
      ring
    have hrate : (0 : ℚ) < rps := by exact_mod_cast hrps
    rcases make_ok (rps : ℚ) ((max 1 (rps * 10) : Nat) : ℚ) start hrate
      (by rw [hcapacity]; linarith) with ⟨bucket, hmake, hrateEq, hcapacityEq, hfull, hlast⟩
    exact ⟨bucket, hmake, hrateEq, hcapacityEq.trans hcapacity, hfull, hlast⟩
  rcases hbucket settings.deltaRestRps settings.rest_ge with ⟨general, hgeneral, hg⟩
  rcases hbucket settings.deltaOrderRps settings.order_ge with ⟨order, horder, ho⟩
  have hmake : DeltaRestClient.make settings start =
      .ok ⟨Limiter.idle general, Limiter.idle order, []⟩ := by
    simp only [DeltaRestClient.make, hgeneral, horder]
    rfl
  refine ⟨_, hmake, ?_, ?_⟩
  · intro isOrder
    cases isOrder with
    | false => exact ⟨Limiter.tallied_idle general hg.1 hg.2.1 hg.2.2.1 hg.2.2.2, hg.2.2.2.le⟩
    | true => exact ⟨Limiter.tallied_idle order ho.1 ho.2.1 ho.2.2.1 ho.2.2.2, ho.2.2.2.le⟩
  · intro isOrder
    cases isOrder with
    | false => exact ⟨general, rfl, hg⟩
    | true => exact ⟨order, rfl, ho⟩

section Worst

/-- A bucket that nothing waits for, with so many tokens at a moment and so many of them granted
    since another. -/
structure Serving (rps : Nat) (since : ℚ) (limiter : Limiter) (tokens now : ℚ) (n : Nat) :
    Prop where
  rate : limiter.bucket.rate = rps
  capacity : limiter.bucket.capacity = 10 * rps
  tokens_eq : limiter.bucket.tokens = tokens
  tokens_le : tokens ≤ 10 * rps
  last : limiter.bucket.lastRefill = now
  free : limiter.sleeping = none
  line : limiter.waiting = []
  count : limiter.granted.length = n
  times : ∀ grant ∈ limiter.granted, since ≤ grant.time ∧ grant.time ≤ now

variable {rps : Nat} {since tokens now : ℚ} {limiter : Limiter} {n : Nat}

/-- Where a token is left, it is granted at once. -/
theorem Serving.acquire (h : Serving rps since limiter tokens now n) (hrps : 1 ≤ rps)
    (hsince : since ≤ now) (task : Nat) (later : ℚ) (hlater : now ≤ later)
    (hleft : 1 ≤ min (10 * rps : ℚ) (tokens + (later - now) * rps)) :
    Serving rps since (limiter.step ⟨.acquire task 1, later⟩)
      (min (10 * rps : ℚ) (tokens + (later - now) * rps) - 1) later (n + 1) := by
  have hrefill := Limiter.refill_eq limiter.bucket later (by rw [h.last]; exact hlater)
    (by rw [h.tokens_eq, h.capacity]; exact h.tokens_le)
  rw [h.capacity, h.tokens_eq, h.last, h.rate] at hrefill
  have hrpsQ : (1 : ℚ) ≤ rps := by exact_mod_cast hrps
  have hsome : ¬ (1 : ℚ) ≤ 0 := not_le.mpr one_pos
  have hfits : ¬ limiter.bucket.capacity < 1 := by
    rw [h.capacity]
    linarith
  have hstep : limiter.step ⟨.acquire task 1, later⟩ =
      { limiter with
        bucket := { limiter.bucket.refill later with
          tokens := (limiter.bucket.refill later).tokens - 1 }
        sleeping := none
        granted := limiter.granted ++ [{ task := task, time := later, amount := 1 }] } := by
    simp only [Limiter.step, Limiter.acquire, if_neg hsome, if_neg hfits, h.free, h.line, and_self,
      if_true, Limiter.attempt, hrefill.1, if_pos hleft]
  rw [hstep]
  refine ⟨(TokenBucket.refill_rate _ _).trans h.rate,
    (TokenBucket.refill_capacity _ _).trans h.capacity, ?_, ?_, hrefill.2, rfl, h.line, ?_, ?_⟩
  · exact congrArg (· - (1 : ℚ)) hrefill.1
  · linarith [min_le_left (10 * rps : ℚ) (tokens + (later - now) * rps)]
  · rw [List.length_append, h.count, List.length_singleton]
  · intro grant hgrant
    rcases List.mem_append.mp hgrant with hold | hnew
    · exact ⟨(h.times grant hold).1, le_trans (h.times grant hold).2 hlater⟩
    · rw [List.mem_singleton.mp hnew]
      exact ⟨le_trans hsince hlater, le_refl later⟩

/-- Some requests bring a client's bucket there. -/
def Brought (rps : Nat) (client : DeltaRestClient) (isOrder : Bool) (since tokens now : ℚ)
    (n : Nat) : Prop :=
  ∃ events : List RestEvent, InOrder since (events.map RestEvent.now) ∧
    (∀ e ∈ events, e.now ≤ now) ∧ since ≤ now ∧
      Serving rps since ((events.foldl DeltaRestClient.step client).limiter isOrder) tokens now n

theorem Brought.request {client : DeltaRestClient} {isOrder : Bool}
    (h : Brought rps client isOrder since tokens now n) (hrps : 1 ≤ rps) (later : ℚ)
    (hlater : now ≤ later) (hleft : 1 ≤ min (10 * rps : ℚ) (tokens + (later - now) * rps)) :
    Brought rps client isOrder since (min (10 * rps : ℚ) (tokens + (later - now) * rps) - 1) later
      (n + 1) := by
  rcases h with ⟨events, horder, hpast, hsince, hserving⟩
  refine ⟨events ++ [⟨.request isOrder, later⟩], ?_, ?_, le_trans hsince hlater, ?_⟩
  · unfold InOrder at horder ⊢
    rw [List.map_append, ← List.cons_append, List.pairwise_append]
    refine ⟨horder, List.pairwise_singleton _ _, fun t ht u hu => ?_⟩
    rw [List.mem_singleton.mp hu]
    rcases List.mem_cons.mp ht with rfl | hmem
    · exact le_trans hsince hlater
    · rcases List.mem_map.mp hmem with ⟨e, he, rfl⟩
      exact le_trans (hpast e he) hlater
  · intro e he
    rcases List.mem_append.mp he with hold | hnew
    · exact le_trans (hpast e hold) hlater
    · rw [List.mem_singleton.mp hnew]
  · have hlimiter : (List.foldl DeltaRestClient.step client
        (events ++ [⟨.request isOrder, later⟩])).limiter isOrder =
        ((events.foldl DeltaRestClient.step client).limiter isOrder).step
          ⟨.acquire (events.foldl DeltaRestClient.step client).requests.length 1, later⟩ := by
      rw [List.foldl_append, List.foldl_cons, List.foldl_nil, DeltaRestClient.step]
      simp only
      rw [DeltaRestClient.startAttempt_limiter, if_pos rfl]
      rfl
    rw [hlimiter]
    exact hserving.acquire hrps hsince _ later hlater hleft

/-- A full bucket gives all of its tokens at once. -/
theorem brought_burst {client : DeltaRestClient} {isOrder : Bool} (hrps : 1 ≤ rps)
    (h : Brought rps client isOrder since (10 * rps) since 0) (k : Nat) (hk : k ≤ 10 * rps) :
    Brought rps client isOrder since (10 * rps - k) since k := by
  induction k with
  | zero =>
      rw [Nat.cast_zero, sub_zero]
      exact h
  | succ k ih =>
      have hroom : ((k + 1 : Nat) : ℚ) ≤ 10 * rps := by exact_mod_cast hk
      push_cast at hroom
      have hk0 : (0 : ℚ) ≤ k := Nat.cast_nonneg k
      have hmin : min (10 * rps : ℚ) (10 * rps - k + (since - since) * rps) = 10 * rps - k := by
        rw [sub_self, zero_mul, add_zero]
        exact min_eq_right (by linarith)
      have hnext := (ih (by omega)).request hrps since (le_refl since) (by rw [hmin]; linarith)
      rw [hmin] at hnext
      have hone : (10 * rps : ℚ) - (k + 1 : Nat) = 10 * rps - k - 1 := by
        push_cast
        ring
      rw [hone]
      exact hnext

/-- An empty one gives each token that comes in. -/
theorem brought_trickle {client : DeltaRestClient} {isOrder : Bool} (hrps : 1 ≤ rps)
    (h : Brought rps client isOrder since 0 since n) (k : Nat) :
    Brought rps client isOrder since 0 (since + k / rps) (n + k) := by
  have hrpsQ : (1 : ℚ) ≤ rps := by exact_mod_cast hrps
  induction k with
  | zero =>
      rw [Nat.cast_zero, zero_div, add_zero]
      exact h
  | succ k ih =>
      have hstep : (since + (k + 1 : Nat) / rps - (since + k / rps)) * rps = (1 : ℚ) := by
        push_cast
        field_simp
        ring
      have hlater : since + (k : ℚ) / rps ≤ since + (k + 1 : Nat) / rps := by
        push_cast
        have : (k : ℚ) / rps ≤ (k + 1) / rps := div_le_div_of_nonneg_right (by linarith)
          (by linarith)
        linarith
      have hmin : min (10 * rps : ℚ)
          (0 + (since + (k + 1 : Nat) / rps - (since + k / rps)) * rps) = 1 := by
        rw [hstep, zero_add]
        exact min_eq_right (by linarith)
      have hnext := ih.request hrps _ hlater (by rw [hmin])
      rw [hmin, sub_self] at hnext
      exact hnext

/-- A full bucket, and what comes in during just less than ten seconds: at every rate some run has
    all but one of twice the quota in a window. -/
theorem worst_window (settings : RateSettings) (start : ℚ) (isOrder : Bool) :
    ∃ client, DeltaRestClient.make settings start = .ok client ∧
      ∃ events : List RestEvent, InOrder start (events.map RestEvent.now) ∧ ∃ t,
        within Grant.time 10 t
          ((events.foldl DeltaRestClient.step client).limiter isOrder).granted + 1 =
            20 * settings.rps isOrder := by
  rcases make_tallied settings start with ⟨client, hmake, -, hidle⟩
  rcases hidle isOrder with ⟨bucket, hbucket, hrate, hcapacity, hfull, hlast⟩
  have hrps := settings.rps_pos isOrder
  have hrpsQ : (1 : ℚ) ≤ settings.rps isOrder := by exact_mod_cast hrps
  have hfirst : Brought (settings.rps isOrder) client isOrder start
      (10 * settings.rps isOrder) start 0 := by
    refine ⟨[], List.pairwise_singleton _ _, fun _ h => absurd h List.not_mem_nil, le_refl _, ?_⟩
    rw [List.foldl_nil, hbucket]
    exact ⟨hrate, hcapacity, hfull.trans hcapacity, le_refl _, hlast, rfl, rfl, rfl,
      fun _ h => absurd h List.not_mem_nil⟩
  have hempty := brought_burst hrps hfirst (10 * settings.rps isOrder) (le_refl _)
  push_cast at hempty
  rw [sub_self] at hempty
  rcases brought_trickle hrps hempty (10 * settings.rps isOrder - 1) with
    ⟨events, horder, _, _, hserving⟩
  refine ⟨client, hmake, events, horder,
    start + ((10 * settings.rps isOrder - 1 : Nat) : ℚ) / settings.rps isOrder, ?_⟩
  -- All of it lies within the ten seconds.
  have hspan : ((10 * settings.rps isOrder - 1 : Nat) : ℚ) / settings.rps isOrder < 10 := by
    rw [div_lt_iff₀ (by linarith)]
    have hless : ((10 * settings.rps isOrder - 1 : Nat) : ℚ) <
        ((10 * settings.rps isOrder : Nat) : ℚ) := by
      exact_mod_cast Nat.sub_lt (by omega) one_pos
    push_cast at hless ⊢
    linarith
  have hall : within Grant.time 10
      (start + ((10 * settings.rps isOrder - 1 : Nat) : ℚ) / settings.rps isOrder)
      ((events.foldl DeltaRestClient.step client).limiter isOrder).granted =
        10 * settings.rps isOrder + (10 * settings.rps isOrder - 1) := by
    rw [within, List.countP_eq_length.mpr fun grant hgrant => ?_]
    · exact hserving.count
    · rw [decide_eq_true_eq]
      have htimes := hserving.times grant hgrant
      exact ⟨by linarith [htimes.1], htimes.2⟩
  rw [hall]
  omega

end Worst

-- The sample runs below compute with rationals.
attribute [local semireducible] Rat.add Rat.sub Rat.mul Rat.inv

end OptionsBot
