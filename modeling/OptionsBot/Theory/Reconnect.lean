import OptionsBot.Core.WsClient

/-!
# Reconnect Delays

The delays between the attempts of the feed's client to connect.

The delays grow with every failure, and they are meant to start over once a connection
is established. The code starts them over where an attempt returns. That is after a
stop, when no other attempt is made. So the delays of a run are those of one long row
of failures, and a connection that was established and drops is followed by the delay
the row has got to.

The two agree as long as the row has not got anywhere. A draw doubles the delay at
least by half, and with the least of draws it stays what it is.

## Main definitions

* `Drop`: An attempt that ended in an exception.
* `dropsOf`: The exceptions of a run.
* `delaysFrom`: The delays of a row of exceptions, as the code has them.
* `lawDelays`: The delays that start over with an established connection.
* `ReconnectRight`: What the delays of a run are to be.

## Theorems

* `run_delays`: The delays of a run are those of its exceptions.
* `nextBackoff_bounds`: A delay is within its bounds.
* `delaysFrom_law_iff`: The delays are right where a connection drops at the first.
* `reconnect_right_iff`: Exactly a draw above the least, in front of a drop, goes
  wrong.
-/

namespace OptionsBot

open DeltaWebSocketClient (nextBackoff)

/-- An attempt that ended in an exception, before or after it was established, and the
    jitter drawn after it. -/
structure Drop where
  established : Bool
  jitter : ℚ
  deriving DecidableEq, Repr

/-- The exceptions of a run that another attempt comes after. -/
def dropsOf : List AttemptEnd → List Drop
  | .raised established jitter stops :: rest =>
    if stops then [] else { established := established, jitter := jitter } :: dropsOf rest
  | _ => []

section Delays

variable (initialBackoff maxBackoff : ℚ)

/-- The delays of a row of exceptions from a delay on. -/
def delaysFrom : ℚ → List Drop → List ℚ
  | _, [] => []
  | backoff, drop :: rest =>
    backoff :: delaysFrom (nextBackoff initialBackoff maxBackoff backoff drop.jitter) rest

/-- The delay after some failures in a row, by what was drawn after each. -/
def lawDelay (draws : List ℚ) : ℚ :=
  draws.foldl (nextBackoff initialBackoff maxBackoff) initialBackoff

/-- The delays by the failures since a connection was established, of which a drop of it
    is the first. -/
def lawDelays : List ℚ → List Drop → List ℚ
  | _, [] => []
  | draws, drop :: rest =>
    let failed := if drop.established then [] else draws
    lawDelay initialBackoff maxBackoff failed :: lawDelays (failed ++ [drop.jitter]) rest

/-- A run waits for the delays of the failures since the last established connection, and
    they are all within the bounds. -/
structure ReconnectRight (attempts : List AttemptEnd) : Prop where
  delays : ((DeltaWebSocketClient.make initialBackoff maxBackoff).run attempts).delays =
    lawDelays initialBackoff maxBackoff [] (dropsOf attempts)
  bounds : ∀ delay ∈ ((DeltaWebSocketClient.make initialBackoff maxBackoff).run attempts).delays,
    initialBackoff ≤ delay ∧ delay ≤ maxBackoff

/-- Every connection that was established drops where the delay is the first. -/
def DropsAtFirst : ℚ → List Drop → Prop
  | _, [] => True
  | backoff, drop :: rest => (drop.established = true → backoff = initialBackoff) ∧
    DropsAtFirst (nextBackoff initialBackoff maxBackoff backoff drop.jitter) rest

variable {initialBackoff maxBackoff} {backoff : ℚ}

/-- The delays of a run are those of its exceptions. -/
theorem run_delays (self : DeltaWebSocketClient) (attempts : List AttemptEnd) :
    (self.run attempts).delays =
      self.delays ++ delaysFrom self.initialBackoff self.maxBackoff self.backoff
        (dropsOf attempts) := by
  induction attempts generalizing self with
  | nil => simp [DeltaWebSocketClient.run, dropsOf, delaysFrom]
  | cons attempt rest ih =>
      cases attempt with
      | returned =>
          simp [DeltaWebSocketClient.run, DeltaWebSocketClient.connect, dropsOf, delaysFrom]
      | cancelled established =>
          cases established <;>
            simp [DeltaWebSocketClient.run, DeltaWebSocketClient.connect, dropsOf, delaysFrom]
      | raised established jitter stops =>
          cases established <;> cases stops <;>
            simp [DeltaWebSocketClient.run, DeltaWebSocketClient.connect,
              DeltaWebSocketClient.reconnect, dropsOf, delaysFrom, ih]

theorem nextBackoff_bounds (h : initialBackoff ≤ maxBackoff) (backoff jitter : ℚ) :
    initialBackoff ≤ nextBackoff initialBackoff maxBackoff backoff jitter ∧
      nextBackoff initialBackoff maxBackoff backoff jitter ≤ maxBackoff :=
  ⟨le_min h (le_max_left _ _), min_le_left _ _⟩

theorem delaysFrom_bounds (h : initialBackoff ≤ maxBackoff) (drops : List Drop)
    (hlow : initialBackoff ≤ backoff) (hhigh : backoff ≤ maxBackoff) :
    ∀ delay ∈ delaysFrom initialBackoff maxBackoff backoff drops,
      initialBackoff ≤ delay ∧ delay ≤ maxBackoff := by
  induction drops generalizing backoff with
  | nil => simp [delaysFrom]
  | cons drop rest ih =>
      intro delay hdelay
      rcases List.mem_cons.mp hdelay with rfl | hrest
      · exact ⟨hlow, hhigh⟩
      · have hnext := nextBackoff_bounds h backoff drop.jitter
        exact ih hnext.1 hnext.2 delay hrest

/-- One more failure in a row is one more step of its delay. -/
theorem lawDelay_append (draws : List ℚ) (jitter : ℚ) :
    lawDelay initialBackoff maxBackoff (draws ++ [jitter]) =
      nextBackoff initialBackoff maxBackoff (lawDelay initialBackoff maxBackoff draws) jitter := by
  simp [lawDelay]

/-- Where the delay so far is right, the others are right exactly if every connection drops
    at the first delay. -/
theorem delaysFrom_law_iff (drops : List Drop) (draws : List ℚ)
    (hbackoff : backoff = lawDelay initialBackoff maxBackoff draws) :
    delaysFrom initialBackoff maxBackoff backoff drops =
        lawDelays initialBackoff maxBackoff draws drops ↔
      DropsAtFirst initialBackoff maxBackoff backoff drops := by
  induction drops generalizing backoff draws with
  | nil => simp [delaysFrom, lawDelays, DropsAtFirst]
  | cons drop rest ih =>
      simp only [delaysFrom, lawDelays, DropsAtFirst, List.cons.injEq]
      by_cases hestablished : drop.established = true
      · -- The row of failures starts with this drop, so its delay has to be the first.
        simp only [hestablished, if_true, true_implies]
        have hfirst : lawDelay initialBackoff maxBackoff [] = initialBackoff := rfl
        rw [hfirst]
        refine and_congr_right (fun hsame => ih [drop.jitter] ?_)
        rw [hsame]
        rfl
      · simp only [hestablished, if_false, Bool.false_eq_true, false_implies, true_and]
        rw [and_iff_right hbackoff]
        refine ih (draws ++ [drop.jitter]) ?_
        rw [lawDelay_append, ← hbackoff]

/-- With the least of draws, the first delay stays. -/
theorem nextBackoff_half (h : initialBackoff ≤ maxBackoff) :
    nextBackoff initialBackoff maxBackoff initialBackoff (1 / 2) = initialBackoff := by
  have hsame : initialBackoff * 2 * (1 / 2) = initialBackoff := by ring
  rw [nextBackoff, hsame, max_self, min_eq_right h]

/-- Without anything to double or any room, the first delay stays. -/
theorem nextBackoff_flat (h : initialBackoff ≤ maxBackoff)
    (hflat : initialBackoff ≤ 0 ∨ initialBackoff = maxBackoff) (jitter : ℚ)
    (hjitter : 1 / 2 ≤ jitter) :
    nextBackoff initialBackoff maxBackoff initialBackoff jitter = initialBackoff := by
  unfold nextBackoff
  rcases hflat with hneg | hsame
  · have hdoubled : initialBackoff * 2 * jitter ≤ initialBackoff := by nlinarith
    rw [max_eq_left hdoubled, min_eq_right h]
  · rw [← hsame]
    exact min_eq_left (le_max_left _ _)

/-- Otherwise, a delay above the first grows on. -/
theorem nextBackoff_grows (hpos : 0 < initialBackoff) (hroom : initialBackoff < maxBackoff)
    (habove : initialBackoff < backoff) (jitter : ℚ) (hjitter : 1 / 2 ≤ jitter) :
    initialBackoff < nextBackoff initialBackoff maxBackoff backoff jitter := by
  have hdoubled : backoff ≤ backoff * 2 * jitter := by nlinarith
  exact lt_min hroom (lt_max_of_lt_right (lt_of_lt_of_le habove hdoubled))

/-- And a draw above the least takes it there. -/
theorem nextBackoff_above (hpos : 0 < initialBackoff) (hroom : initialBackoff < maxBackoff)
    (jitter : ℚ) (hjitter : 1 / 2 < jitter) :
    initialBackoff < nextBackoff initialBackoff maxBackoff initialBackoff jitter := by
  have hdoubled : initialBackoff < initialBackoff * 2 * jitter := by nlinarith
  exact lt_min hroom (lt_max_of_lt_right hdoubled)

theorem dropsAtFirst_flat (h : initialBackoff ≤ maxBackoff)
    (hflat : initialBackoff ≤ 0 ∨ initialBackoff = maxBackoff) (drops : List Drop)
    (hdraws : ∀ drop ∈ drops, 1 / 2 ≤ drop.jitter) :
    DropsAtFirst initialBackoff maxBackoff initialBackoff drops := by
  induction drops with
  | nil => trivial
  | cons drop rest ih =>
      refine ⟨fun _ => rfl, ?_⟩
      rw [nextBackoff_flat h hflat drop.jitter (hdraws drop List.mem_cons_self)]
      exact ih (fun d hd => hdraws d (List.mem_cons_of_mem _ hd))

/-- Above the first delay there is no way back to it, so no connection may drop. -/
theorem dropsAtFirst_above_iff (hpos : 0 < initialBackoff) (hroom : initialBackoff < maxBackoff)
    (habove : initialBackoff < backoff) (drops : List Drop)
    (hdraws : ∀ drop ∈ drops, 1 / 2 ≤ drop.jitter) :
    DropsAtFirst initialBackoff maxBackoff backoff drops ↔
      ∀ drop ∈ drops, drop.established = false := by
  induction drops generalizing backoff with
  | nil => simp [DropsAtFirst]
  | cons drop rest ih =>
      have hnext := nextBackoff_grows hpos hroom habove drop.jitter
        (hdraws drop List.mem_cons_self)
      have hrest := ih hnext (fun d hd => hdraws d (List.mem_cons_of_mem _ hd))
      rw [DropsAtFirst, hrest, List.forall_mem_cons]
      refine and_congr_left (fun _ => ?_)
      rw [← Bool.not_eq_true]
      exact ⟨fun hfirst hdrop => habove.ne' (hfirst hdrop), fun hnone hdrop => absurd hdrop hnone⟩

/-- The first delay lasts as long as the least of jitters is drawn. -/
theorem dropsAtFirst_iff (hpos : 0 < initialBackoff) (hroom : initialBackoff < maxBackoff)
    (drops : List Drop) (hdraws : ∀ drop ∈ drops, 1 / 2 ≤ drop.jitter) :
    DropsAtFirst initialBackoff maxBackoff initialBackoff drops ↔
      drops.Pairwise (fun earlier drop => drop.established = true → earlier.jitter = 1 / 2) := by
  induction drops with
  | nil => simp [DropsAtFirst]
  | cons drop rest ih =>
      have hdraws' : ∀ d ∈ rest, 1 / 2 ≤ d.jitter :=
        fun d hd => hdraws d (List.mem_cons_of_mem _ hd)
      rw [DropsAtFirst, and_iff_right (fun _ => rfl), List.pairwise_cons]
      by_cases hleast : drop.jitter = 1 / 2
      · -- The least draw leaves the delay where it is.
        rw [hleast, nextBackoff_half hroom.le, ih hdraws']
        simp
      · -- From here on the delays are above the first.
        have hjitter : 1 / 2 < drop.jitter :=
          lt_of_le_of_ne (hdraws drop List.mem_cons_self) (Ne.symm hleast)
        rw [dropsAtFirst_above_iff hpos hroom (nextBackoff_above hpos hroom _ hjitter) rest hdraws']
        constructor
        · intro hnone
          refine ⟨fun d hd hdrop => absurd hdrop (by simp [hnone d hd]), ?_⟩
          refine List.pairwise_of_forall_mem_list (fun _ _ d hd hdrop => ?_)
          exact absurd hdrop (by simp [hnone d hd])
        · intro h d hd
          by_contra hdrop
          exact hleast (h.1 d hd (by simpa using hdrop))

end Delays

/-- The draws of a run are those of a jitter between a half and one and a half. -/
def Drawn (attempts : List AttemptEnd) : Prop :=
  ∀ established jitter stops, .raised established jitter stops ∈ attempts →
    1 / 2 ≤ jitter ∧ jitter ≤ 3 / 2

theorem dropsOf_drawn (attempts : List AttemptEnd) (h : Drawn attempts) :
    ∀ drop ∈ dropsOf attempts, 1 / 2 ≤ drop.jitter := by
  induction attempts with
  | nil => simp [dropsOf]
  | cons attempt rest ih =>
      have hrest : Drawn rest := fun e j s hmem => h e j s (List.mem_cons_of_mem _ hmem)
      cases attempt with
      | returned => simp [dropsOf]
      | cancelled established => simp [dropsOf]
      | raised established jitter stops =>
          intro drop hdrop
          rw [dropsOf] at hdrop
          by_cases hstops : stops = true
          · simp [hstops] at hdrop
          · rw [if_neg hstops] at hdrop
            rcases List.mem_cons.mp hdrop with rfl | hmem
            · exact (h established jitter stops List.mem_cons_self).1
            · exact ih hrest drop hmem

/-- The delays of a run are right exactly if there is nothing to double, or no room for it,
    or the least jitter was drawn after every exception that comes before the drop of an
    established connection. -/
theorem reconnect_right_iff (initialBackoff maxBackoff : ℚ) (h : initialBackoff ≤ maxBackoff)
    (attempts : List AttemptEnd) (hdrawn : Drawn attempts) :
    ReconnectRight initialBackoff maxBackoff attempts ↔
      initialBackoff ≤ 0 ∨ initialBackoff = maxBackoff ∨
        (dropsOf attempts).Pairwise
          (fun earlier drop => drop.established = true → earlier.jitter = 1 / 2) := by
  have hdelays : ((DeltaWebSocketClient.make initialBackoff maxBackoff).run attempts).delays =
      delaysFrom initialBackoff maxBackoff initialBackoff (dropsOf attempts) :=
    run_delays _ attempts
  have hdraws := dropsOf_drawn attempts hdrawn
  have hright : ReconnectRight initialBackoff maxBackoff attempts ↔
      DropsAtFirst initialBackoff maxBackoff initialBackoff (dropsOf attempts) := by
    have hlaw : delaysFrom initialBackoff maxBackoff initialBackoff (dropsOf attempts) =
        lawDelays initialBackoff maxBackoff [] (dropsOf attempts) ↔
          DropsAtFirst initialBackoff maxBackoff initialBackoff (dropsOf attempts) :=
      delaysFrom_law_iff (dropsOf attempts) [] rfl
    rw [← hlaw]
    refine ⟨fun hr => hdelays.symm.trans hr.delays, fun hlaw => ⟨hdelays.trans hlaw, ?_⟩⟩
    rw [hdelays]
    exact delaysFrom_bounds h _ (le_refl _) h
  rw [hright]
  by_cases hflat : initialBackoff ≤ 0 ∨ initialBackoff = maxBackoff
  · rw [← or_assoc]
    exact iff_of_true (dropsAtFirst_flat h hflat _ hdraws) (Or.inl hflat)
  · rw [not_or, not_le] at hflat
    rw [dropsAtFirst_iff hflat.1 (lt_of_le_of_ne h hflat.2) _ hdraws,
      or_iff_right (not_le.mpr hflat.1), or_iff_right hflat.2]

-- The sample runs below compute with rationals.
attribute [local semireducible] Rat.add Rat.sub Rat.mul Rat.inv

/-- A connection that drops, and another attempt that fails. -/
def droppedOnce : List AttemptEnd := [.raised true 1 false, .raised false 1 false]

theorem reconnect_right_iff_once : ReconnectRight 1 60 droppedOnce := by
  refine (reconnect_right_iff 1 60 (by decide) droppedOnce ?_).mpr (Or.inr (Or.inr ?_))
  · intro established jitter stops hmem
    simp only [droppedOnce, List.mem_cons, AttemptEnd.raised.injEq, List.not_mem_nil,
      or_false] at hmem
    rcases hmem with ⟨-, rfl, -⟩ | ⟨-, rfl, -⟩ <;> norm_num
  · simp [droppedOnce, dropsOf]

/-- A connection that drops twice. The second time is retried as if it had never been
    established. -/
theorem reconnect_not_reset : ¬ ∀ (initialBackoff maxBackoff : ℚ), initialBackoff ≤ maxBackoff →
    ∀ attempts, Drawn attempts → ReconnectRight initialBackoff maxBackoff attempts := by
  intro h
  have hright := h 1 60 (by decide) [.raised true 1 false, .raised true 1 false] (by
    intro established jitter stops hmem
    simp only [List.mem_cons, AttemptEnd.raised.injEq, List.not_mem_nil, or_false] at hmem
    rcases hmem with ⟨-, rfl, -⟩ | ⟨-, rfl, -⟩ <;> norm_num)
  exact absurd hright.delays (by decide)

end OptionsBot
