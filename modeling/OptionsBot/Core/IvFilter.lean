import OptionsBot.Core.Directional
import OptionsBot.Core.IvHistory
import OptionsBot.Lib.Throttle

/-!
# The Volatility Filter

Whether a directional entry is turned down for the volatility it would be bought at. The
volatility at the money is ranked among the samples of the last days, and a strategy may set
bounds for the rank. The ranks are looked up at the beginning of a tick, for every underlying and
both expiry buckets of the strategy, before it is known which of them it will ask for.

Two tasks take part. One records samples of the chain, the other is the main loop. They share
the store and the chain, and the main loop waits for the database in every round of its lookup,
so samples may be recorded, quotes changed and prices come in between its rounds. A round is
modelled here as a step of its own, with the chain and the prices it finds.

## Main definitions

* `IvLookback`: What a rank asks of the history.
* `IvHistoryStore.ivPercentile`: The rank of a volatility, or why there is none.
* `IvPrefetch`: A lookup under way.
* `IvDesk`, `IvEvent`, `IvDesk.step`: The two tasks.
-/

namespace OptionsBot

/-- The settings of the store that a rank depends on. -/
structure IvLookback where
  minSamples : Int := 20
  lookbackDays : Int := 90

namespace IvHistoryStore

/-- The samples of a key within the lookback. -/
def history (self : IvHistoryStore) (lookback : IvLookback) (key : IvKey) (now : DateTime) :
    List ℚ :=
  let cutoff := now.shift (-(lookback.lookbackDays * microsPerDay))
  (self.rows.filter (fun row => row.key = key ∧ cutoff ≤ row.ts)).map IvSnapshot.atmIv

/-- `iv_percentile`. -/
def ivPercentile (self : IvHistoryStore) (lookback : IvLookback) (key : IvKey)
    (currentIv : Option ℚ) (now : DateTime) : IvPercentileResult :=
  match currentIv with
  | none => { percentile := none, reason := .missingCurrentIv }
  | some current =>
    let history := self.history lookback key now
    let n := history.length
    if (n : Int) < lookback.minSamples then
      { percentile := none, reason := .ivHistoryCold, nSamples := n }
    else
      match percentileRank (some current) history with
      | none => { percentile := none, reason := .ivHistoryCold, nSamples := n }
      | some pct => { percentile := some pct, reason := .ok, nSamples := n }

end IvHistoryStore

def atmIvForBucket (chain : ChainCache) (key : IvKey) (spot : ℚ) (now : DateTime) : Option ℚ :=
  (atmIvSample chain key spot now).map Prod.fst

def directionalNeedsIvPrefetch (cfg : DirectionalConfig) : Bool :=
  cfg.desk.maxIvPercentileLong.isSome || cfg.desk.minIvPercentileLong.isSome

/-- The set of the two buckets of the strategy. -/
def prefetchBuckets (cfg : DirectionalConfig) : List ExpiryBucket :=
  [cfg.expiry.prefer, cfg.expiry.fallback].dedup

/-- `prefetch_iv_for_strategies` under way: what its two loops have left to do, and the dictionary
    so far. -/
structure IvPrefetch where
  now : DateTime
  underlyings : List Underlying := []
  /-- The underlying the inner loop is at, with the spot it was given. -/
  current : Option (Underlying × ℚ) := none
  buckets : List ExpiryBucket := []
  out : IvKey → Option IvPercentileResult := fun _ => none

namespace IvPrefetch

/-- Without bounds there is nothing to look up. -/
def begin (cfg : DirectionalConfig) (now : DateTime) : IvPrefetch :=
  { now := now, underlyings := if directionalNeedsIvPrefetch cfg then cfg.underlyings else [] }

/-- The outer loop goes on, behind the last round of the inner one. -/
def nextUnderlying (cfg : DirectionalConfig) (marks : Underlying → Option ℚ) (p : IvPrefetch) :
    IvPrefetch :=
  match p.buckets, p.underlyings with
  | [], u :: rest =>
    match marks u with
    | none => { p with underlyings := rest }
    | some spot =>
      { p with underlyings := rest, current := some (u, spot), buckets := prefetchBuckets cfg }
  | _, _ => p

/-- A round of the inner loop. A set is gone through in an order of its own, so the round says
    which bucket it is for. -/
def round (lookback : IvLookback) (store : IvHistoryStore) (chain : ChainCache)
    (bucket : ExpiryBucket) (p : IvPrefetch) : IvPrefetch :=
  match p.current with
  | none => p
  | some (u, spot) =>
    if bucket ∈ p.buckets then
      let key : IvKey := ⟨u, bucket⟩
      let result := store.ivPercentile lookback key (atmIvForBucket chain key spot p.now) p.now
      { p with buckets := p.buckets.erase bucket,
               out := fun k => if k = key then some result else p.out k }
    else p

/-- The lookup has returned its dictionary. -/
def Finished (p : IvPrefetch) : Prop := p.underlyings = [] ∧ p.buckets = []

end IvPrefetch

/-- The store, and the main loop's lookup once there is one. -/
structure IvDesk where
  store : IvHistoryStore
  prefetch : Option IvPrefetch := none

/-- A process starts, with what its clock shows for each key. The chain is recorded. The main
    loop begins a lookup, and its two loops go on. -/
inductive IvEvent where
  | start (monotonic : IvKey → ℚ)
  | record (call : ChainCall)
  | begin (now : DateTime)
  | nextUnderlying (marks : Underlying → Option ℚ)
  | round (chain : ChainCache) (bucket : ExpiryBucket)

/-- A lookup begins. -/
def IvEvent.isBegin : IvEvent → Bool
  | .begin _ => true
  | _ => false

/-- What an event shows of the clock, as far as a key is concerned. -/
def IvEvent.clock (key : IvKey) : IvEvent → Option (ClockEvent ℚ)
  | .start monotonic => some (.start (monotonic key))
  | .record call => some (.turn (call.monotonic key))
  | _ => none

namespace IvDesk

/-- A first process on a database. -/
def boot (sampleIntervalS : ℚ) (rows : List IvSnapshot) : IvDesk :=
  { store := { sampleIntervalS := sampleIntervalS, rows := rows } }

def step (cfg : DirectionalConfig) (lookback : IvLookback) (s : IvDesk) : IvEvent → IvDesk
  -- The rows are in the database, and all else goes with the process.
  | .start _ => boot s.store.sampleIntervalS s.store.rows
  | .record call => { s with store := (s.store.recordFromChain call).1 }
  | .begin now => { s with prefetch := some (.begin cfg now) }
  | .nextUnderlying marks => { s with prefetch := s.prefetch.map (.nextUnderlying cfg marks) }
  | .round chain bucket =>
    { s with prefetch := s.prefetch.map (.round lookback s.store chain bucket) }

end IvDesk

end OptionsBot
