import OptionsBot.Core.Chain

/-!
# IV History

The store of implied volatilities at the money, as far as they are sampled from the
chain. There is a sample for each underlying and each of three expiry buckets, at most
every so often, and those of a call are written to the database together, or none of
them is.

A call looks at the clock once for each sample it may take, and the readings are part
of the call, as is whether the write fails.

## Main definitions

* `IvSnapshot`: A sample.
* `atmIvSample`: The volatility at the money and its expiry date.
* `IvHistoryStore`: The store, with the table it writes to.
* `IvHistoryStore.shouldSample`: Whether it is time for a sample.
* `IvHistoryStore.recordFromChain`: The samples of a chain.
-/

namespace OptionsBot

/-- What there is a series of samples for. -/
structure IvKey where
  underlying : Underlying
  bucket : ExpiryBucket
  deriving DecidableEq, Repr

/-- A sample. -/
structure IvSnapshot where
  ts : DateTime
  key : IvKey
  expiryDate : Int
  atmIv : ℚ
  deriving DecidableEq, Repr

/-- `_atm_iv_sample`: the mean of the two options at the money, or the one there is. -/
def atmIvSample (chain : ChainCache) (key : IvKey) (spot : ℚ) (now : DateTime) :
    Option (ℚ × Int) :=
  let sels := [OptionType.call, OptionType.put].filterMap (fun optionType =>
    chain.getAtmStrike key.underlying optionType key.bucket spot 0 now)
  let ivs := sels.filterMap (fun sel => sel.quote.iv)
  if ivs = [] then none
  else sels.getLast?.map (fun sel => (ivs.sum / ivs.length, sel.instrument.expiry.date))

/-- The underlyings, each with its buckets. -/
def ivKeys : List IvKey :=
  [Underlying.btc, Underlying.eth].flatMap (fun underlying =>
    [ExpiryBucket.d1, ExpiryBucket.d2, ExpiryBucket.w1].map (fun bucket => ⟨underlying, bucket⟩))

/-- A call of `record_from_chain`, with the readings of the clock and what the write
    raises. -/
structure ChainCall where
  chain : ChainCache
  underlyingMarks : Underlying → Option ℚ
  now : DateTime
  monotonic : IvKey → ℚ
  raises : Option PyError

/-- The store, and the rows of its table. -/
structure IvHistoryStore where
  sampleIntervalS : ℚ := 300
  lastSampleMono : IvKey → Option ℚ := fun _ => none
  rows : List IvSnapshot := []

namespace IvHistoryStore

/-- `_should_sample`, which takes the time of a sample when it is time for one. -/
def shouldSample (self : IvHistoryStore) (key : IvKey) (mono : ℚ) : Bool × IvHistoryStore :=
  let taken : IvHistoryStore :=
    { self with lastSampleMono := fun k => if k = key then some mono else self.lastSampleMono k }
  match self.lastSampleMono key with
  -- The time is taken here, before it is known whether there is a sample.
  | none => (true, taken)
  | some last => if mono - last < self.sampleIntervalS then (false, self) else (true, taken)

/-- One round of the loop over the keys: what it does to the store and to the rows. -/
def sampleKey (call : ChainCall) (pass : IvHistoryStore × List IvSnapshot) (key : IvKey) :
    IvHistoryStore × List IvSnapshot :=
  match call.underlyingMarks key.underlying with
  | none => pass
  | some spot =>
    let sampling := pass.1.shouldSample key (call.monotonic key)
    if sampling.1 then
      match atmIvSample call.chain key spot call.now with
      -- Without a volatility the round ends, with the time taken.
      | none => (sampling.2, pass.2)
      | some (atmIv, expiryDate) =>
        (sampling.2,
          pass.2 ++ [{ ts := call.now, key := key, expiryDate := expiryDate, atmIv := atmIv }])
    else pass

/-- `record_from_chain`. -/
def recordFromChain (self : IvHistoryStore) (call : ChainCall) :
    IvHistoryStore × Except PyError Nat :=
  let pass := ivKeys.foldl (sampleKey call) (self, [])
  if pass.2 = [] then (pass.1, .ok 0)
  else
    -- The rows are added in one session, which is rolled back by what it raises.
    match call.raises with
    | none => ({ pass.1 with rows := pass.1.rows ++ pass.2 }, .ok pass.2.length)
    | some e => (pass.1, .error e)

end IvHistoryStore

end OptionsBot
