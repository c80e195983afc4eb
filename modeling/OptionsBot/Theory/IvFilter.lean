import Mathlib.Data.List.Dedup
import OptionsBot.Core.IvFilter
import OptionsBot.Lib.Run
import OptionsBot.Theory.ForcedExit
import OptionsBot.Theory.SampleThrottle

/-!
# What the Volatility Filter Can See

A directional entry is turned down for its volatility on the rank that a lookup has found. Between
the two, and while the lookup is under way, samples are recorded and the market moves.

A rank is one of a volatility that the chain had in a round of the lookup, among the samples that
were in the database at that time. There have to be enough of them. A process takes a sample of a
key at most every so often, so the filter cannot turn anything down on an empty database before
the process has been up for that many intervals but one. But the throttle is lost with the
process, and each start may add a sample at once. What is needed is that the starts and the
intervals together come to the number of samples: `iv_filter_judges`.

An entry that passes has passed the filter, with two exceptions. There may be no rank, for want of
a volatility or of samples. Or the underlying had no price yet when the lookup came to it, while
it has one now.

## Main definitions

* `IvDesk.run`: The two tasks after some events.
* `IvDesk.uptime`: What the events show of the clock of a key.
* `Outside`: A rank outside the bounds of a strategy.
* `IvDesk.LooksUp`: A round that is about a key.
* `IvDesk.Looked`: Where a result comes from, or why there is none.

## Theorems

* `sampled_rows`: A call records a key once at most.
* `account_run`: The samples of a key are paid for.
* `looked_out`, `looked_all`: Where the results of a lookup come from, and that none is left out.
* `iv_filter_judges`: What a decision says of the samples.
-/

namespace OptionsBot

-- The sample evaluation below computes with rationals.
attribute [local semireducible] Rat.add Rat.sub Rat.mul Rat.inv

/-- The rank is beyond a bound of the strategy. -/
def Outside (desk : DirectionalDeskConfig) (rank : ℚ) : Prop :=
  (∃ m ∈ desk.maxIvPercentileLong, m < rank) ∨ ∃ m ∈ desk.minIvPercentileLong, rank < m

namespace IvHistoryStore

/-- There is a percentile if there are a volatility and enough samples. -/
theorem ivPercentile_ok_iff (store : IvHistoryStore) (lookback : IvLookback) (key : IvKey)
    (iv : Option ℚ) (now : DateTime) (rank : ℚ) :
    ((store.ivPercentile lookback key iv now).percentile = some rank ∧
        (store.ivPercentile lookback key iv now).reason = .ok) ↔
      ∃ current, iv = some current ∧
        lookback.minSamples ≤ (store.history lookback key now).length ∧
        percentileRank (some current) (store.history lookback key now) = some rank := by
  unfold ivPercentile
  cases iv with
  | none => simp
  | some current =>
      simp only [Option.some.injEq, exists_eq_left']
      by_cases hcold : ((store.history lookback key now).length : Int) < lookback.minSamples
      · simp [hcold]
      · simp only [hcold, if_false, not_lt.mp hcold, true_and]
        cases percentileRank (some current) (store.history lookback key now) with
        | none => simp
        | some pct => simp

/-- A round of the recording loop adds at most the row of its key. -/
theorem sampleKey_keys (call : ChainCall) (store : IvHistoryStore) (added : List IvSnapshot)
    (keys : List IvKey) :
    ∃ new, (keys.foldl (sampleKey call) (store, added)).2 = added ++ new ∧
      (new.map IvSnapshot.key).Sublist keys := by
  induction keys generalizing store added with
  | nil => exact ⟨[], (List.append_nil added).symm, List.Sublist.refl _⟩
  | cons key rest ih =>
      rw [List.foldl_cons]
      have hround : ∃ first, (sampleKey call (store, added) key).2 = added ++ first ∧
          (first.map IvSnapshot.key).Sublist [key] := by
        have hnone : ∃ first, added = added ++ first ∧
            (first.map IvSnapshot.key).Sublist [key] :=
          ⟨[], (List.append_nil added).symm, List.nil_sublist _⟩
        unfold sampleKey
        cases call.underlyingMarks key.underlying with
        | none => exact hnone
        | some spot =>
            simp only
            split_ifs
            · cases atmIvSample call.chain key spot call.now with
              | none => exact hnone
              | some sample => exact ⟨_, rfl, List.Sublist.refl _⟩
            · exact hnone
      rcases hround with ⟨first, hfirst, hone⟩
      rcases ih (sampleKey call (store, added) key).1 (sampleKey call (store, added) key).2 with
        ⟨more, hmore, hrest⟩
      refine ⟨first ++ more, ?_, ?_⟩
      · rw [hmore, hfirst, List.append_assoc]
      · rw [List.map_append]
        exact hone.append hrest

/-- What a call adds to the table has at most one row of a key, and none if it does not try. -/
theorem sampled_rows (call : ChainCall) (store : IvHistoryStore) :
    ∃ new, (store.recordFromChain call).1.rows = store.rows ++ new ∧
      ∀ key, (new.filter (fun row => row.key = key)).length ≤ 1 ∧
        (¬ (key ∈ ivKeys ∧ Tries store call key) →
          new.filter (fun row => row.key = key) = []) := by
  have hpass := pass_spec call store [] ivKeys (by decide)
  rcases sampleKey_keys call store [] ivKeys with ⟨all, hall, hkeys⟩
  rcases hpass.added with ⟨all', hall', htried⟩
  rw [List.nil_append] at hall hall'
  rw [hall] at hall'
  subst hall'
  have hnone : ∀ key, (([] : List IvSnapshot).filter (fun row => row.key = key)).length ≤ 1 ∧
      (¬ (key ∈ ivKeys ∧ Tries store call key) →
        ([] : List IvSnapshot).filter (fun row => row.key = key) = []) :=
    fun _ => ⟨Nat.zero_le 1, fun _ => rfl⟩
  have hsome : ∀ key, (all.filter (fun row => row.key = key)).length ≤ 1 ∧
      (¬ (key ∈ ivKeys ∧ Tries store call key) →
        all.filter (fun row => row.key = key) = []) := by
    intro key
    constructor
    · have hnodup : (all.map IvSnapshot.key).Nodup := hkeys.nodup (by decide)
      rw [← List.countP_eq_length_filter]
      calc all.countP (fun row => row.key = key)
          = (all.map IvSnapshot.key).count key := by
            rw [List.count, List.countP_map]
            rfl
        _ ≤ 1 := List.nodup_iff_count_le_one.mp hnodup key
    · intro huntried
      rw [List.filter_eq_nil_iff]
      intro row hrow hkey
      have hfound := (htried key).mp ⟨row, hrow, of_decide_eq_true hkey⟩
      exact huntried ⟨hfound.1, hfound.2.1⟩
  unfold recordFromChain
  simp only [hall]
  by_cases hempty : all = []
  · rw [if_pos hempty]
    exact ⟨[], by rw [List.append_nil]; exact hpass.table, hnone⟩
  · rw [if_neg hempty]
    cases call.raises with
    | none => exact ⟨all, by simp only [hpass.table], hsome⟩
    | some e => exact ⟨[], by rw [List.append_nil]; exact hpass.table, hnone⟩

end IvHistoryStore

namespace IvDesk

open IvHistoryStore (Tries pass_spec recordFromChain_tries sampled_rows ivPercentile_ok_iff)

/-- The round is about the key, and finds the volatility. -/
def LooksUp (s : IvDesk) (chain : ChainCache) (key : IvKey) (iv : Option ℚ) (now : DateTime) :
    Prop :=
  ∃ p spot, s.prefetch = some p ∧ p.current = some (key.underlying, spot) ∧ p.now = now ∧
    atmIvForBucket chain key spot now = iv

section Run

variable (cfg : DirectionalConfig) (lookback : IvLookback) (interval : ℚ) (rows : List IvSnapshot)

/-- The two tasks after some events of a first process and the ones behind it. -/
def run (events : List IvEvent) : IvDesk :=
  events.foldl (step cfg lookback) (boot interval rows)

/-- What the events show of the clock. -/
def uptime (monotonic : IvKey → ℚ) (key : IvKey) (events : List IvEvent) : Uptime ℚ :=
  (events.filterMap (IvEvent.clock key)).foldl Uptime.step (Uptime.first (monotonic key))

/-- The result was found in a round of the present lookup, or there is none since the underlying
    had no price. -/
def Looked (events : List IvEvent) (key : IvKey) : Option IvPercentileResult → Prop
  | none => ∃ before marks after, events = before ++ .nextUnderlying marks :: after ∧
      (∀ e ∈ after, e.isBegin = false) ∧ marks key.underlying = none
  | some result => ∃ before chain after iv now,
      events = before ++ .round chain key.bucket :: after ∧ (∀ e ∈ after, e.isBegin = false) ∧
      (run cfg lookback interval rows before).LooksUp chain key iv now ∧
      result = (run cfg lookback interval rows before).store.ivPercentile lookback key iv now

theorem run_concat (events : List IvEvent) (e : IvEvent) :
    run cfg lookback interval rows (events ++ [e]) =
      step cfg lookback (run cfg lookback interval rows events) e := by
  unfold run
  rw [List.foldl_concat]

/-- What was found stays found until the next lookup. -/
theorem looked_concat (events : List IvEvent) (e : IvEvent) (hbegin : e.isBegin = false)
    (key : IvKey) (result : Option IvPercentileResult)
    (h : Looked cfg lookback interval rows events key result) :
    Looked cfg lookback interval rows (events ++ [e]) key result := by
  have hlater : ∀ after : List IvEvent, (∀ e' ∈ after, e'.isBegin = false) →
      ∀ e' ∈ after ++ [e], e'.isBegin = false := by
    intro after hafter e' he'
    rcases List.mem_append.mp he' with hin | hlast
    · exact hafter e' hin
    · rw [List.mem_singleton.mp hlast]
      exact hbegin
  cases result with
  | none =>
      rcases h with ⟨before, marks, after, heq, hafter, hnone⟩
      refine ⟨before, marks, after ++ [e], ?_, hlater after hafter, hnone⟩
      rw [heq, List.append_assoc]
      rfl
  | some result =>
      rcases h with ⟨before, chain, after, iv, now, heq, hafter, hround⟩
      refine ⟨before, chain, after ++ [e], iv, now, ?_, hlater after hafter, hround⟩
      rw [heq, List.append_assoc]
      rfl

/-- A result of a lookup was found in one of its rounds. -/
theorem looked_out (events : List IvEvent) (p : IvPrefetch)
    (hp : (run cfg lookback interval rows events).prefetch = some p) (key : IvKey)
    (result : IvPercentileResult) (hout : p.out key = some result) :
    Looked cfg lookback interval rows events key (some result) := by
  induction events using List.reverseRecOn generalizing p with
  | nil => cases hp
  | append_singleton events e ih =>
      rw [run_concat] at hp
      cases e with
      | start monotonic => cases hp
      | record call => exact looked_concat _ _ _ _ _ _ rfl _ _ (ih p hp hout)
      | begin now =>
          cases hp
          cases hout
      | nextUnderlying marks =>
          rcases Option.map_eq_some_iff.mp hp with ⟨q, hq, rfl⟩
          refine looked_concat _ _ _ _ _ _ rfl _ _ (ih q hq ?_)
          unfold IvPrefetch.nextUnderlying at hout
          split at hout
          · split at hout
            · exact hout
            · exact hout
          · exact hout
      | round chain bucket =>
          rcases Option.map_eq_some_iff.mp hp with ⟨q, hq, rfl⟩
          unfold IvPrefetch.round at hout
          split at hout
          · exact looked_concat _ _ _ _ _ _ rfl _ _ (ih q hq hout)
          · next u spot hcurrent =>
            split at hout
            · -- The round has found it, or an earlier one.
              simp only at hout
              by_cases hkey : key = ⟨u, bucket⟩
              · rw [if_pos hkey] at hout
                cases hout
                subst hkey
                exact ⟨events, chain, [], _, q.now, rfl, fun _ h => absurd h List.not_mem_nil,
                  ⟨q, spot, hq, hcurrent, rfl, rfl⟩, rfl⟩
              · rw [if_neg hkey] at hout
                exact looked_concat _ _ _ _ _ _ rfl _ _ (ih q hq hout)
            · exact looked_concat _ _ _ _ _ _ rfl _ _ (ih q hq hout)

/-- An underlying is still to be looked up, had no price, or has a result for each bucket that is
    not left to do. -/
def Covers (events : List IvEvent) (p : IvPrefetch) (u : Underlying) : Prop :=
  u ∈ p.underlyings ∨ (∀ bucket, Looked cfg lookback interval rows events ⟨u, bucket⟩ none) ∨
    ∀ bucket ∈ prefetchBuckets cfg, (p.out ⟨u, bucket⟩).isSome ∨
      bucket ∈ p.buckets ∧ ∃ spot, p.current = some (u, spot)

theorem covers_concat (events : List IvEvent) (e : IvEvent) (hbegin : e.isBegin = false)
    (p : IvPrefetch) (u : Underlying) (h : Covers cfg lookback interval rows events p u) :
    Covers cfg lookback interval rows (events ++ [e]) p u := by
  rcases h with htodo | hnone | hdone
  · exact Or.inl htodo
  · exact Or.inr (Or.inl fun bucket => looked_concat _ _ _ _ _ _ hbegin _ _ (hnone bucket))
  · exact Or.inr (Or.inr hdone)

/-- The outer loop leaves no underlying out. -/
theorem covers_next (events : List IvEvent) (marks : Underlying → Option ℚ) (p : IvPrefetch)
    (u : Underlying) (h : Covers cfg lookback interval rows events p u) :
    Covers cfg lookback interval rows (events ++ [.nextUnderlying marks])
      (p.nextUnderlying cfg marks) u := by
  have hkept := covers_concat cfg lookback interval rows events (.nextUnderlying marks) rfl p u h
  unfold IvPrefetch.nextUnderlying
  split
  · next v rest hbuckets hunderlyings =>
    -- The inner loop is through, so what it was at has all its results.
    have hrest : u = v ∨ u ∈ rest ∨
        (∀ bucket, Looked cfg lookback interval rows (events ++ [.nextUnderlying marks])
          ⟨u, bucket⟩ none) ∨
        ∀ bucket ∈ prefetchBuckets cfg, (p.out ⟨u, bucket⟩).isSome := by
      rcases hkept with htodo | hnone | hdone
      · rw [hunderlyings, List.mem_cons] at htodo
        rcases htodo with heq | hin
        · exact Or.inl heq
        · exact Or.inr (Or.inl hin)
      · exact Or.inr (Or.inr (Or.inl hnone))
      · refine Or.inr (Or.inr (Or.inr fun bucket hbucket => ?_))
        rcases hdone bucket hbucket with hsome | ⟨hleft, _⟩
        · exact hsome
        · rw [hbuckets] at hleft
          cases hleft
    cases hspot : marks v with
    | none =>
        rcases hrest with heq | hin | hnone | hall
        · exact Or.inr (Or.inl fun bucket => ⟨events, marks, [], rfl,
            fun _ h => absurd h List.not_mem_nil, heq ▸ hspot⟩)
        · exact Or.inl hin
        · exact Or.inr (Or.inl hnone)
        · exact Or.inr (Or.inr fun bucket hbucket => Or.inl (hall bucket hbucket))
    | some spot =>
        rcases hrest with heq | hin | hnone | hall
        · refine Or.inr (Or.inr fun bucket hbucket => Or.inr ⟨hbucket, spot, ?_⟩)
          rw [heq]
        · exact Or.inl hin
        · exact Or.inr (Or.inl hnone)
        · exact Or.inr (Or.inr fun bucket hbucket => Or.inl (hall bucket hbucket))
  · exact hkept

/-- A round of the inner loop has a result for what it takes off the buckets. -/
theorem covers_round (events : List IvEvent) (store : IvHistoryStore) (chain : ChainCache)
    (bucket : ExpiryBucket) (p : IvPrefetch) (u : Underlying)
    (h : Covers cfg lookback interval rows events p u) :
    Covers cfg lookback interval rows (events ++ [.round chain bucket])
      (p.round lookback store chain bucket) u := by
  have hkept := covers_concat cfg lookback interval rows events (.round chain bucket) rfl p u h
  unfold IvPrefetch.round
  split
  · exact hkept
  · next v spot hcurrent =>
    by_cases hin : bucket ∈ p.buckets
    · rw [if_pos hin]
      rcases hkept with htodo | hnone | hdone
      · exact Or.inl htodo
      · exact Or.inr (Or.inl hnone)
      · refine Or.inr (Or.inr fun b hb => ?_)
        by_cases hkey : (⟨u, b⟩ : IvKey) = ⟨v, bucket⟩
        · refine Or.inl ?_
          simp only [hkey, if_true, Option.isSome_some]
        · rcases hdone b hb with hsome | ⟨hleft, spot', hat⟩
          · refine Or.inl ?_
            simp only [hkey, if_false]
            exact hsome
          · have hsame : u = v := by
              rw [hcurrent] at hat
              cases hat
              rfl
            have hne : b ≠ bucket := by
              intro heq
              exact hkey (by rw [heq, hsame])
            exact Or.inr ⟨(List.mem_erase_of_ne hne).mpr hleft, spot', hat⟩
    · rw [if_neg hin]
      exact hkept

/-- A lookup leaves nothing out. -/
theorem covers_run (hneeds : directionalNeedsIvPrefetch cfg = true) (events : List IvEvent)
    (p : IvPrefetch) (hp : (run cfg lookback interval rows events).prefetch = some p)
    (u : Underlying) (hu : u ∈ cfg.underlyings) :
    Covers cfg lookback interval rows events p u := by
  induction events using List.reverseRecOn generalizing p with
  | nil => cases hp
  | append_singleton events e ih =>
      rw [run_concat] at hp
      cases e with
      | start monotonic => cases hp
      | record call => exact covers_concat _ _ _ _ _ _ rfl _ _ (ih p hp)
      | begin now =>
          cases hp
          refine Or.inl ?_
          simp only [IvPrefetch.begin, hneeds, if_true]
          exact hu
      | nextUnderlying marks =>
          rcases Option.map_eq_some_iff.mp hp with ⟨q, hq, rfl⟩
          exact covers_next cfg lookback interval rows events marks q u (ih q hq)
      | round chain bucket =>
          rcases Option.map_eq_some_iff.mp hp with ⟨q, hq, rfl⟩
          exact covers_round cfg lookback interval rows events _ chain bucket q u (ih q hq)

/-- What a finished lookup has for a key of the strategy was looked up. -/
theorem looked_all (hneeds : directionalNeedsIvPrefetch cfg = true) (events : List IvEvent)
    (p : IvPrefetch) (hp : (run cfg lookback interval rows events).prefetch = some p)
    (hdone : p.Finished) (key : IvKey) (hu : key.underlying ∈ cfg.underlyings)
    (hb : key.bucket ∈ prefetchBuckets cfg) :
    Looked cfg lookback interval rows events key (p.out key) := by
  cases hout : p.out key with
  | some found => exact looked_out _ _ _ _ events p hp key found hout
  | none =>
      rcases covers_run cfg lookback interval rows hneeds events p hp key.underlying hu with
        htodo | hnone | hall
      · rw [hdone.1] at htodo
        cases htodo
      · exact hnone key.bucket
      · rcases hall key.bucket hb with hsome | ⟨hleft, _⟩
        · rw [show p.out ⟨key.underlying, key.bucket⟩ = none from hout] at hsome
          cases hsome
        · rw [hdone.2] at hleft
          cases hleft

/-- The rows of a key that a run has added are paid for by the starts and the uptime. -/
theorem account_run (hinterval : 0 ≤ interval) (monotonic : IvKey → ℚ) (key : IvKey)
    (events : List IvEvent)
    (hclock : Along Uptime.step Uptime.Forward (Uptime.first (monotonic key))
      (events.filterMap (IvEvent.clock key))) :
    (run cfg lookback interval rows events).store.sampleIntervalS = interval ∧
      ∃ new, (run cfg lookback interval rows events).store.rows = rows ++ new ∧
        Account interval (uptime monotonic key events)
          ((run cfg lookback interval rows events).store.lastSampleMono key)
          (new.filter (fun row => row.key = key)).length := by
  induction events using List.reverseRecOn with
  | nil => exact ⟨rfl, [], (List.append_nil rows).symm, Account.first interval _⟩
  | append_singleton events e ih =>
      rw [List.filterMap_append, along_append] at hclock
      rcases hclock with ⟨hbefore, hnow⟩
      rcases ih hbefore with ⟨hsame, new, hnew, haccount⟩
      rw [run_concat]
      -- An event that shows nothing of the clock leaves the store as it is.
      have hquiet : e.clock key = none →
          (step cfg lookback (run cfg lookback interval rows events) e).store =
            (run cfg lookback interval rows events).store →
          (step cfg lookback (run cfg lookback interval rows events) e).store.sampleIntervalS =
              interval ∧
            ∃ new, (step cfg lookback (run cfg lookback interval rows events) e).store.rows =
                rows ++ new ∧
              Account interval (uptime monotonic key (events ++ [e]))
                ((step cfg lookback (run cfg lookback interval rows events)
                  e).store.lastSampleMono key)
                (new.filter (fun row => row.key = key)).length := by
        intro hclock hstore
        have hup : uptime monotonic key (events ++ [e]) = uptime monotonic key events := by
          unfold uptime
          rw [List.filterMap_append, List.filterMap_cons_none hclock, List.filterMap_nil,
            List.append_nil]
        rw [hstore, hup]
        exact ⟨hsame, new, hnew, haccount⟩
      cases e with
      | start mono =>
          have hup : uptime monotonic key (events ++ [.start mono]) =
              (uptime monotonic key events).step (.start (mono key)) := by
            unfold uptime
            rw [List.filterMap_append, List.foldl_append]
            rfl
          rw [hup]
          exact ⟨hsame, new, hnew, haccount.start hinterval (mono key)⟩
      | record call =>
          have hup : uptime monotonic key (events ++ [.record call]) =
              (uptime monotonic key events).step (.turn (call.monotonic key)) := by
            unfold uptime
            rw [List.filterMap_append, List.foldl_append]
            rfl
          have hforward : (uptime monotonic key events).Forward (.turn (call.monotonic key)) :=
            hnow.1
          rcases sampled_rows call (run cfg lookback interval rows events).store with
            ⟨more, hmore, hone⟩
          have htimes := recordFromChain_tries call (run cfg lookback interval rows events).store
          have hpass := pass_spec call (run cfg lookback interval rows events).store [] ivKeys
            (by decide)
          refine ⟨htimes.1.trans hsame, new ++ more, ?_, ?_⟩
          · change ((run cfg lookback interval rows events).store.recordFromChain call).1.rows = _
            rw [hmore, hnew, List.append_assoc]
          · change Account interval _
              (((run cfg lookback interval rows events).store.recordFromChain
                call).1.lastSampleMono key) _
            rw [hup, htimes.2, List.filter_append, List.length_append]
            by_cases htries : key ∈ ivKeys ∧ Tries (run cfg lookback interval rows events).store
                call key
            · rw [hpass.tried key htries.1 htries.2]
              have hdue := htries.2.2
              rw [hsame] at hdue
              exact haccount.pass hinterval _ hforward hdue _ (hone key).1
            · rw [hpass.untried key htries, (hone key).2 htries, List.length_nil, Nat.add_zero]
              exact haccount.wait _ hforward
      | begin now => exact hquiet rfl rfl
      | nextUnderlying marks => exact hquiet rfl rfl
      | round chain bucket => exact hquiet rfl rfl

/-- The samples that a rank is taken among are old ones, or paid for. -/
theorem history_paid (hinterval : 0 ≤ interval) (monotonic : IvKey → ℚ) (key : IvKey)
    (events : List IvEvent) (now : DateTime)
    (hclock : Along Uptime.step Uptime.Forward (Uptime.first (monotonic key))
      (events.filterMap (IvEvent.clock key))) :
    interval * ((run cfg lookback interval rows events).store.history lookback key now).length ≤
      interval * (((boot interval rows).store.history lookback key now).length +
        (uptime monotonic key events).starts) + (uptime monotonic key events).up := by
  rcases account_run cfg lookback interval rows hinterval monotonic key events hclock with
    ⟨_, new, hnew, haccount⟩
  have hpaid := haccount.paid hinterval
  have hrecent : (new.filter (fun row => decide (row.key = key ∧
      now.shift (-(lookback.lookbackDays * microsPerDay)) ≤ row.ts))).length ≤
      (new.filter (fun row => decide (row.key = key))).length := by
    rw [← List.countP_eq_length_filter, ← List.countP_eq_length_filter]
    refine List.countP_mono_left fun row _ hrow => ?_
    exact decide_eq_true (of_decide_eq_true hrow).1
  have hrecent : ((new.filter (fun row => decide (row.key = key ∧
      now.shift (-(lookback.lookbackDays * microsPerDay)) ≤ row.ts))).length : ℚ) ≤
      (new.filter (fun row => decide (row.key = key))).length := by
    exact_mod_cast hrecent
  unfold IvHistoryStore.history
  simp only [hnew, boot, List.filter_append, List.map_append, List.length_append, List.length_map,
    Nat.cast_add, mul_add]
  have hscaled := mul_le_mul_of_nonneg_left hrecent hinterval
  linarith

end Run

end IvDesk

namespace DirectionalStrategy

theorem ivEntryBlocked_iff (desk : DirectionalDeskConfig) (result : Option IvPercentileResult) :
    ivEntryBlocked desk result = true ↔ ∃ found rank, result = some found ∧
      (found.percentile = some rank ∧ found.reason = .ok) ∧ Outside desk rank := by
  unfold ivEntryBlocked Outside
  cases result with
  | none => simp
  | some found =>
      rcases found with ⟨percentile, reason, n⟩
      cases percentile with
      | none => simp
      | some rank =>
          simp only [decide_eq_true_eq]
          constructor
          · rintro ⟨hok, houtside⟩
            exact ⟨_, rank, rfl, ⟨rfl, hok⟩, houtside⟩
          · rintro ⟨_, rank', heq, ⟨hsome, hok⟩, houtside⟩
            cases heq
            cases hsome
            exact ⟨hok, houtside⟩

/-- The filter has been asked, and has said so, in a decision that passed or was turned down by
    it. -/
theorem evaluateOne_filter (self : DirectionalStrategy) (market : MarketState)
    (underlying : Underlying) (d : Decision) (h : self.evaluateOne market underlying = .ok d) :
    (d.reason = .ivOutOfRange → ivEntryBlocked self.config.desk
      (market.ivPercentile underlying (self.pickExpiryBucket market)) = true) ∧
    (d.passed = true → ivEntryBlocked self.config.desk
      (market.ivPercentile underlying (self.pickExpiryBucket market)) = false) := by
  have henter : ∀ spot optionType features,
      ((self.enter market underlying spot optionType features).reason = .ivOutOfRange →
        ivEntryBlocked self.config.desk
          (market.ivPercentile underlying (self.pickExpiryBucket market)) = true) ∧
      ((self.enter market underlying spot optionType features).passed = true →
        ivEntryBlocked self.config.desk
          (market.ivPercentile underlying (self.pickExpiryBucket market)) = false) := by
    intro spot optionType features
    unfold enter
    simp only
    by_cases hblocked : ivEntryBlocked self.config.desk
        (market.ivPercentile underlying (self.pickExpiryBucket market)) = true
    · rw [if_pos hblocked]
      exact ⟨fun _ => hblocked, fun hpassed => by cases hpassed⟩
    · rw [if_neg hblocked]
      refine ⟨fun hreason => absurd hreason ?_, fun _ => Bool.eq_false_iff.mpr hblocked⟩
      split
      · exact fun h => by cases h
      · split_ifs <;> exact fun h => by cases h
  have hreject : ∀ reason features, reason ≠ StrategyReason.ivOutOfRange →
      d = rejected .directional underlying none reason features →
      (d.reason = .ivOutOfRange → ivEntryBlocked self.config.desk
        (market.ivPercentile underlying (self.pickExpiryBucket market)) = true) ∧
      (d.passed = true → ivEntryBlocked self.config.desk
        (market.ivPercentile underlying (self.pickExpiryBucket market)) = false) := by
    intro reason features hne heq
    rw [heq]
    exact ⟨fun hreason => absurd hreason hne, fun hpassed => by cases hpassed⟩
  unfold evaluateOne at h
  simp only at h
  split at h
  · cases h
    exact hreject _ _ (by decide) rfl
  · split at h
    · cases h
      exact hreject _ _ (by decide) rfl
    · split at h
      · cases h
        exact hreject _ _ (by decide) rfl
      · split at h
        · cases h
        · cases h
          exact hreject _ _ (by decide) rfl
        · split at h
          · cases h
            exact henter _ _ _
          · split at h
            · cases h
              exact henter _ _ _
            · cases h
              exact hreject _ _ (by decide) rfl

/-- The bucket of an entry is one that is looked up. -/
theorem pickExpiryBucket_prefetched (self : DirectionalStrategy) (market : MarketState) :
    self.pickExpiryBucket market ∈ prefetchBuckets self.config := by
  unfold pickExpiryBucket prefetchBuckets
  rw [List.mem_dedup]
  simp only
  split_ifs
  · exact List.mem_cons_self
  · exact List.mem_cons_of_mem _ List.mem_cons_self

end DirectionalStrategy

/-- A decision that was turned down for its volatility had a rank outside the bounds, among enough
    samples, which the starts and the uptime of the processes have paid for unless they are old.
    One that passed had none, or nothing was looked up since there was no price. -/
theorem iv_filter_judges (self : DirectionalStrategy) (lookback : IvLookback) (interval : ℚ)
    (hinterval : 0 ≤ interval) (rows : List IvSnapshot) (monotonic : IvKey → ℚ)
    (events : List IvEvent)
    (hclock : ∀ key, Along Uptime.step Uptime.Forward (Uptime.first (monotonic key))
      (events.filterMap (IvEvent.clock key)))
    (hneeds : directionalNeedsIvPrefetch self.config = true) (p : IvPrefetch)
    (hprefetch : (IvDesk.run self.config lookback interval rows events).prefetch = some p)
    (hdone : p.Finished) (market : MarketState)
    (hmarket : ∀ u bucket, market.ivPercentiles u bucket = p.out ⟨u, bucket⟩)
    (key : IvKey) (hu : key.underlying ∈ self.config.underlyings)
    (hbucket : key.bucket = self.pickExpiryBucket market) (d : Decision)
    (h : self.evaluateOne market key.underlying = .ok d) :
    (d.reason = .ivOutOfRange → ∃ before chain after current now rank,
      events = before ++ .round chain key.bucket :: after ∧ (∀ e ∈ after, e.isBegin = false) ∧
      (IvDesk.run self.config lookback interval rows before).LooksUp chain key (some current) now ∧
      percentileRank (some current) ((IvDesk.run self.config lookback interval rows
        before).store.history lookback key now) = some rank ∧
      Outside self.config.desk rank ∧
      lookback.minSamples ≤
        ((IvDesk.run self.config lookback interval rows before).store.history lookback key
          now).length ∧
      interval * lookback.minSamples ≤
        interval * (((IvDesk.boot interval rows).store.history lookback key now).length +
          (IvDesk.uptime monotonic key before).starts) +
            (IvDesk.uptime monotonic key before).up) ∧
    (d.passed = true →
      (∃ before marks after, events = before ++ .nextUnderlying marks :: after ∧
        (∀ e ∈ after, e.isBegin = false) ∧ marks key.underlying = none) ∨
      ∃ before chain after iv now, events = before ++ .round chain key.bucket :: after ∧
        (∀ e ∈ after, e.isBegin = false) ∧
        (IvDesk.run self.config lookback interval rows before).LooksUp chain key iv now ∧
        ∀ current, iv = some current →
          lookback.minSamples ≤ ((IvDesk.run self.config lookback interval rows
            before).store.history lookback key now).length →
          ∀ rank, percentileRank (some current) ((IvDesk.run self.config lookback interval rows
            before).store.history lookback key now) = some rank →
            ¬ Outside self.config.desk rank) := by
  rcases self.evaluateOne_filter market key.underlying d h with ⟨hblocked, hopen⟩
  rw [← hbucket, MarketState.ivPercentile, hmarket] at hblocked hopen
  have hlooked := IvDesk.looked_all self.config lookback interval rows hneeds events p hprefetch
    hdone key hu (hbucket ▸ self.pickExpiryBucket_prefetched market)
  constructor
  · intro hreason
    rcases (DirectionalStrategy.ivEntryBlocked_iff _ _).mp (hblocked hreason) with
      ⟨found, rank, hfound, hok, houtside⟩
    rcases IvDesk.looked_out self.config lookback interval rows events p hprefetch key found
      hfound with ⟨before, chain, after, iv, now, heq, hafter, hround, rfl⟩
    rcases (IvHistoryStore.ivPercentile_ok_iff _ _ _ _ _ _).mp hok with
      ⟨current, rfl, henough, hrank⟩
    refine ⟨before, chain, after, current, now, rank, heq, hafter, hround, hrank, houtside,
      henough, ?_⟩
    have hbefore : Along Uptime.step Uptime.Forward (Uptime.first (monotonic key))
        (before.filterMap (IvEvent.clock key)) := by
      have hall := hclock key
      rw [heq, List.filterMap_append, along_append] at hall
      exact hall.1
    have hpaid := IvDesk.history_paid self.config lookback interval rows hinterval monotonic key
      before now hbefore
    have henough : (lookback.minSamples : ℚ) ≤ ((IvDesk.run self.config lookback interval rows
        before).store.history lookback key now).length := by
      exact_mod_cast henough
    exact le_trans (mul_le_mul_of_nonneg_left henough hinterval) hpaid
  · intro hpassed
    cases hout : p.out key with
    | none =>
        rw [hout] at hlooked
        exact Or.inl hlooked
    | some found =>
        rw [hout] at hlooked
        rcases hlooked with ⟨before, chain, after, iv, now, heq, hafter, hround, hfound⟩
        refine Or.inr ⟨before, chain, after, iv, now, heq, hafter, hround, ?_⟩
        intro current hcurrent henough rank hrank houtside
        have hok := (IvHistoryStore.ivPercentile_ok_iff _ _ _ _ _ _).mpr
          ⟨current, hcurrent, henough, hrank⟩
        rw [← hfound] at hok
        have hyes := (DirectionalStrategy.ivEntryBlocked_iff _ _).mpr
          ⟨found, rank, hout, hok, houtside⟩
        rw [hopen hpassed] at hyes
        cases hyes

theorem seven_tenths_pos : OptPos (some (7 / 10)) := optPos_some _ (by norm_num)

/-- The shipped strategy, with a bound for the rank. -/
def cautiousDirectional : DirectionalStrategy :=
  { config :=
      { shippedDirectionalConfig with
        desk := { maxIvPercentileLong := some (7 / 10), maxIv_pos := seven_tenths_pos } } }

/-- A price for one of the underlyings. -/
def btcMark (u : Underlying) : Option ℚ := if u = .btc then some 97400 else none

/-- One call of the bucket an entry falls back to, quoted with its volatility. -/
def dearChain : ChainCache :=
  (ChainCache.empty.refreshInstruments
    [{ contractType := some "call_options", symbol := some "C-BTC-97000-130526", id := some 1,
       contractValue := some (1 / 1000), lotSize := none, tickSize := none,
       state := none }]).upsertQuote
    "C-BTC-97000-130526" { markPrice := some 900, iv := some (1 / 2) }

/-- Twenty samples that are all lower. -/
def calmRows : List IvSnapshot :=
  List.replicate 20
    { ts := breakoutMarket.now, key := ⟨.btc, .d2⟩, expiryDate := ymdToOrdinal 2026 5 13,
      atmIv := 1 / 10 }

/-- A lookup, of one underlying with a price and one without. -/
def dearEvents : List IvEvent :=
  [.begin breakoutMarket.now, .nextUnderlying btcMark, .round dearChain .d1, .round dearChain .d2,
    .nextUnderlying btcMark]

def dearDesk : IvDesk := IvDesk.run cautiousDirectional.config {} 300 calmRows dearEvents

/-- The tick behind the lookup. -/
def dearMarket : MarketState :=
  { breakoutMarket with
    ivPercentiles := fun u bucket => dearDesk.prefetch.bind (fun p => p.out ⟨u, bucket⟩) }

/-- The entry is turned down, on a rank among twenty samples at least that the lookup found in its
    round of the bucket. -/
theorem iv_filter_judges_dear :
    (cautiousDirectional.evaluateOne dearMarket .btc).toOption.map Decision.reason =
        some .ivOutOfRange ∧
      ∃ before chain after current now rank,
        dearEvents = before ++ .round chain .d2 :: after ∧
        percentileRank (some current) ((IvDesk.run cautiousDirectional.config {} 300 calmRows
          before).store.history {} ⟨.btc, .d2⟩ now) = some rank ∧
        Outside cautiousDirectional.config.desk rank ∧
        20 ≤ ((IvDesk.run cautiousDirectional.config {} 300 calmRows before).store.history {}
          ⟨.btc, .d2⟩ now).length := by
  have hreason : (cautiousDirectional.evaluateOne dearMarket .btc).toOption.map Decision.reason =
      some .ivOutOfRange := by decide +kernel
  have hend : dearDesk.prefetch.map (fun p => (p.underlyings, p.buckets)) = some ([], []) := by
    decide +kernel
  have hbucket : ExpiryBucket.d2 = cautiousDirectional.pickExpiryBucket dearMarket := by
    decide +kernel
  refine ⟨hreason, ?_⟩
  rcases hdecision : cautiousDirectional.evaluateOne dearMarket .btc with e | d
  · rw [hdecision] at hreason
    cases hreason
  · rcases Option.map_eq_some_iff.mp hend with ⟨p, hp, hdone⟩
    rw [Prod.mk.injEq] at hdone
    have hmarket : ∀ u bucket, dearMarket.ivPercentiles u bucket = p.out ⟨u, bucket⟩ := by
      intro u bucket
      change dearDesk.prefetch.bind (fun p => p.out ⟨u, bucket⟩) = _
      rw [hp]
      rfl
    have hjudged := iv_filter_judges cautiousDirectional {} 300 (by norm_num) calmRows
      (fun _ => 0) dearEvents (fun _ => True.intro) rfl p hp hdone dearMarket hmarket ⟨.btc, .d2⟩
      (by decide) hbucket d hdecision
    rw [hdecision] at hreason
    rcases hjudged.1 (Option.some.inj hreason) with
      ⟨before, chain, after, current, now, rank, heq, _, _, hrank, houtside, henough, _⟩
    exact ⟨before, chain, after, current, now, rank, heq, hrank, houtside,
      Int.ofNat_le.mp henough⟩

end OptionsBot
