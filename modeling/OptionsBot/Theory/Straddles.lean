import OptionsBot.Core.LongStraddle
import OptionsBot.Theory.EntryTime
import OptionsBot.Theory.StrikeFallback

/-!
# When a Straddle Is One

The straddle strategy buys the call whose strike is closest to the spot price and
the put whose strike is, each out of its own list. The two strikes are never
compared. They are the same where both lists hold the same strikes, but a strike
that is listed for one kind only, near the spot, gives a strangle.

The amount at risk is taken with the call's contract size. It is the cost of both
legs where they share a size that is positive, and missing where the call's is
not.

## Main definitions

* `IsStraddle`: What an intent is to be.
* `Priced`: The nearest option of a kind has a middle price.
* `Matched`: The nearest call and put have one strike and one contract size.
* `StraddleListed`: They have in the bucket that is used.

## Theorems

* `emitted_straddle_iff`: When an emitted intent is a straddle.
* `matched_strikes`: With the same strikes on both lists, the nearest agree.
-/

namespace OptionsBot

-- The sample runs below compute with rationals.
attribute [local semireducible] Rat.add Rat.sub Rat.mul Rat.inv

/-- A leg is a listed option of an underlying, with a contract size and a quoted
    mid. -/
structure ListedLeg (market : MarketState) (underlying : Underlying) (lot mid : ℚ)
    (leg : LegIntent) : Prop where
  instrument : ∃ inst, market.chain.getInstrument leg.symbol = some inst ∧
    inst.underlying = underlying ∧ inst.optionType = leg.optionType ∧ inst.lotSize = lot
  mid : (market.chain.getQuote leg.symbol).bind QuoteSnapshot.mid = some mid

/-- One call and one put are bought on the underlying, of one strike, one expiry
    and one contract size, and the target is what both cost per lot. -/
def IsStraddle (market : MarketState) (intent : Intent) : Prop :=
  ∃ call put lot callMid putMid, intent.legs = [call, put] ∧
    (call.side = .buy ∧ put.side = .buy) ∧
    (call.optionType = .call ∧ put.optionType = .put) ∧
    ListedLeg market intent.underlying lot callMid call ∧
    ListedLeg market intent.underlying lot putMid put ∧
    call.strike = put.strike ∧ call.expiry = put.expiry ∧
    intent.targetPremiumInr = some ((callMid + putMid) * lot * market.usdInrRate)

section Condition

variable (market : MarketState) (underlying : Underlying) (bucket : ExpiryBucket) (spot : ℚ)

/-- The nearest option of a kind has a quote with a middle price. -/
def Priced (optionType : OptionType) : Prop :=
  ∃ inst quote mid, market.chain.atm underlying optionType bucket spot market.now = some inst ∧
    market.chain.getQuote inst.symbol = some quote ∧ quote.mid = some mid

/-- The nearest call and the nearest put have the same strike, and the same
    positive contract size. -/
def Matched : Prop :=
  ∀ call put, market.chain.atm underlying .call bucket spot market.now = some call →
    market.chain.atm underlying .put bucket spot market.now = some put →
    call.strike = put.strike ∧ call.lotSize = put.lotSize ∧ 0 < call.lotSize

end Condition

/-- The nearest call and put match in the bucket that is used: the preferred one
    if both are priced there, else the fallback. -/
def StraddleListed (cfg : LongStraddleExpiry) (market : MarketState) (underlying : Underlying) :
    Prop :=
  ∀ spot, market.spot underlying = some spot →
    ((Priced market underlying cfg.prefer spot .call ∧
        Priced market underlying cfg.prefer spot .put) →
      Matched market underlying cfg.prefer spot) ∧
    (¬ (Priced market underlying cfg.prefer spot .call ∧
        Priced market underlying cfg.prefer spot .put) →
      Matched market underlying cfg.fallback spot)

/-- With the same strikes listed for both kinds, the nearest agree. -/
theorem matched_strikes (chain : ChainCache) (underlying : Underlying) (bucket : ExpiryBucket)
    (spot : ℚ) (now : DateTime)
    (h : (chain.instrumentsFor underlying .call bucket now).map InstrumentRecord.strike =
      (chain.instrumentsFor underlying .put bucket now).map InstrumentRecord.strike) :
    (chain.atm underlying .call bucket spot now).map InstrumentRecord.strike =
      (chain.atm underlying .put bucket spot now).map InstrumentRecord.strike := by
  rw [ChainCache.atm, ChainCache.atm, Ladder.nearest_key, Ladder.nearest_key, h]

namespace LongStraddleStrategy

/-- The legs of a bucket are the nearest options, both priced. -/
theorem pickLegs_iff (market : MarketState) (underlying : Underlying) (bucket : ExpiryBucket)
    (spot : ℚ) (call put : StrikeSelection) :
    pickLegs market underlying bucket spot = some (call, put) ↔
      (market.chain.atm underlying .call bucket spot market.now = some call.instrument ∧
        market.chain.getQuote call.instrument.symbol = some call.quote ∧
        ∃ mid, call.quote.mid = some mid) ∧
      market.chain.atm underlying .put bucket spot market.now = some put.instrument ∧
        market.chain.getQuote put.instrument.symbol = some put.quote ∧
        ∃ mid, put.quote.mid = some mid := by
  have hpick : ∀ optionType sel, (selectStrike market.chain underlying optionType bucket none none
      none (some spot) 0 market.now).filter (fun s => s.quote.mid.isSome) = some sel ↔
      market.chain.atm underlying optionType bucket spot market.now = some sel.instrument ∧
        market.chain.getQuote sel.instrument.symbol = some sel.quote ∧
        ∃ mid, sel.quote.mid = some mid := by
    intro optionType sel
    rw [Option.filter_eq_some_iff, selectStrike, ChainCache.getAtmStrike_zero,
      Option.isSome_iff_exists, ← and_assoc, and_congr_left_iff]
    intro _
    constructor
    · intro hsel
      rcases Option.bind_eq_some_iff.mp hsel with ⟨inst, hatm, hquoted⟩
      rcases Option.map_eq_some_iff.mp hquoted with ⟨quote, hquote, rfl⟩
      exact ⟨hatm, hquote⟩
    · rintro ⟨hatm, hquote⟩
      rw [hatm, Option.bind_some, ChainCache.quoted]
      exact Option.map_eq_some_iff.mpr ⟨sel.quote, hquote, rfl⟩
  rw [← hpick .call call, ← hpick .put put]
  unfold pickLegs
  simp only
  constructor
  · intro h
    split at h
    · next c p hc hp =>
      cases h
      exact ⟨hc, hp⟩
    · cases h
  · rintro ⟨hc, hp⟩
    rw [hc, hp]

/-- Legs are picked in a bucket exactly if both nearest options are priced. -/
theorem pickLegs_isSome_iff (market : MarketState) (underlying : Underlying)
    (bucket : ExpiryBucket) (spot : ℚ) :
    (∃ legs, pickLegs market underlying bucket spot = some legs) ↔
      Priced market underlying bucket spot .call ∧ Priced market underlying bucket spot .put := by
  constructor
  · rintro ⟨⟨call, put⟩, h⟩
    rcases (pickLegs_iff market underlying bucket spot call put).mp h with
      ⟨⟨hca, hcq, cm, hcm⟩, hpa, hpq, pm, hpm⟩
    exact ⟨⟨_, _, cm, hca, hcq, hcm⟩, _, _, pm, hpa, hpq, hpm⟩
  · rintro ⟨⟨ci, cq, cm, hca, hcq, hcm⟩, pi, pq, pm, hpa, hpq, hpm⟩
    exact ⟨({ instrument := ci, quote := cq }, { instrument := pi, quote := pq }),
      (pickLegs_iff _ _ _ _ _ _).mpr ⟨⟨hca, hcq, cm, hcm⟩, hpa, hpq, pm, hpm⟩⟩

variable (self : LongStraddleStrategy)

/-- The condition on both buckets is that on the one that is used. -/
theorem straddleListed_iff (market : MarketState) (underlying : Underlying) (spot : ℚ)
    (bucket : ExpiryBucket) (call put : StrikeSelection)
    (hspot : market.spot underlying = some spot)
    (h : self.pickBucketLegs market underlying spot = some (bucket, call, put)) :
    StraddleListed self.config.expiry market underlying ↔
      call.instrument.strike = put.instrument.strike ∧
        call.instrument.lotSize = put.instrument.lotSize ∧ 0 < call.instrument.lotSize := by
  -- In the bucket of the legs, they are the nearest call and put.
  have hmatched : ∀ b, pickLegs market underlying b spot = some (call, put) →
      (Matched market underlying b spot ↔ call.instrument.strike = put.instrument.strike ∧
        call.instrument.lotSize = put.instrument.lotSize ∧ 0 < call.instrument.lotSize) := by
    intro b hb
    rcases (pickLegs_iff market underlying b spot call put).mp hb with ⟨⟨hca, _⟩, hpa, _⟩
    rw [Matched, hca, hpa]
    constructor
    · exact fun hm => hm call.instrument put.instrument rfl rfl
    · intro hm c p hc hp
      cases hc
      cases hp
      exact hm
  have hlisted : StraddleListed self.config.expiry market underlying ↔ _ :=
    ⟨fun hl => hl spot hspot, fun hl s hs => by
      rw [hspot, Option.some.injEq] at hs
      exact hs ▸ hl⟩
  rw [hlisted]
  -- The preferred bucket is used if both are priced there, and the other one else.
  unfold pickBucketLegs at h
  simp only at h
  split at h
  · next legs hlegs =>
    cases h
    have hpriced := (pickLegs_isSome_iff market underlying _ spot).mp ⟨_, hlegs⟩
    rw [← hmatched _ hlegs]
    exact ⟨fun hl => hl.1 hpriced, fun hm => ⟨fun _ => hm, fun hn => absurd hpriced hn⟩⟩
  · next hnone =>
    rcases Option.map_eq_some_iff.mp h with ⟨legs, hlegs, heq⟩
    cases heq
    have hpriced : ¬ (Priced market underlying self.config.expiry.prefer spot .call ∧
        Priced market underlying self.config.expiry.prefer spot .put) := by
      rw [← pickLegs_isSome_iff]
      rintro ⟨legs, hsome⟩
      rw [hnone] at hsome
      cases hsome
    rw [← hmatched _ hlegs]
    exact ⟨fun hl => hl.2 hpriced, fun hm => ⟨fun hp => absurd hp hpriced, fun _ => hm⟩⟩

theorem pickBucketLegs_pick (market : MarketState) (underlying : Underlying) (spot : ℚ)
    (bucket : ExpiryBucket) (call put : StrikeSelection)
    (h : self.pickBucketLegs market underlying spot = some (bucket, call, put)) :
    pickLegs market underlying bucket spot = some (call, put) := by
  unfold pickBucketLegs at h
  simp only at h
  split at h
  · next legs hlegs =>
    cases h
    exact hlegs
  · rcases Option.map_eq_some_iff.mp h with ⟨legs, hlegs, heq⟩
    cases heq
    exact hlegs

/-- The leg of a picked option is a listed one of its contract size. -/
theorem legFor_listed (market : MarketState) (underlying : Underlying) (optionType : OptionType)
    (bucket : ExpiryBucket) (sel : StrikeSelection) (mid : ℚ)
    (hin : sel.instrument ∈ market.chain.instrumentsFor underlying optionType bucket market.now)
    (hquote : market.chain.getQuote sel.instrument.symbol = some sel.quote)
    (hmid : sel.quote.mid = some mid) :
    ListedLeg market underlying sel.instrument.lotSize mid (legFor sel optionType) := by
  rcases (market.chain.mem_instrumentsFor _ _ _ _ _).mp hin with ⟨hmem, _, hu, ht, _⟩
  have hinst : market.chain.getInstrument sel.instrument.symbol = some sel.instrument :=
    Table.lookup_of_mem InstrumentRecord.symbol _ market.chain.distinct _ hmem
  refine ⟨⟨sel.instrument, hinst, hu, ht, rfl⟩, ?_⟩
  rw [legFor, hquote, Option.bind_some, hmid]

/-- An entry on a picked call and put is a straddle exactly if they match. -/
theorem entryIntent_straddle_iff (market : MarketState) (underlying : Underlying)
    (bucket : ExpiryBucket) (spot callMid putMid : ℚ) (features : Features)
    (call put : StrikeSelection)
    (hpick : pickLegs market underlying bucket spot = some (call, put))
    (hcall : call.quote.mid = some callMid) (hput : put.quote.mid = some putMid) :
    IsStraddle market (self.entryIntent market underlying bucket features (callMid + putMid) call
        put) ↔
      call.instrument.strike = put.instrument.strike ∧
        call.instrument.lotSize = put.instrument.lotSize ∧ 0 < call.instrument.lotSize := by
  rcases pickLegs_mem market underlying bucket spot call put hpick with ⟨hcin, hpin⟩
  rcases pickLegs_quote market underlying bucket spot call put hpick with ⟨hcq, hpq⟩
  have hcl := legFor_listed market underlying .call bucket call callMid hcin hcq hcall
  have hpl := legFor_listed market underlying .put bucket put putMid hpin hpq hput
  constructor
  · rintro ⟨c, p, lot, cm, pm, hlegs, _, _, hc, hp, hstrike, _, htarget⟩
    cases hlegs
    rcases market.premiumInr_eq_some _ _ _ htarget with ⟨hpos, _⟩
    -- A symbol is listed once, so the two sizes are those of the records.
    rcases hcl.instrument with ⟨ci, hci, _, _, hcs⟩
    rcases hpl.instrument with ⟨pi, hpi, _, _, hps⟩
    rcases hc.instrument with ⟨ci', hci', _, _, hcs'⟩
    rcases hp.instrument with ⟨pi', hpi', _, _, hps'⟩
    rw [hci, Option.some.injEq] at hci'
    rw [hpi, Option.some.injEq] at hpi'
    refine ⟨hstrike, ?_, hpos⟩
    rw [← hcs, ← hps, hci', hpi', hcs', hps']
  · rintro ⟨hstrike, hlot, hpos⟩
    rw [← hlot] at hpl
    -- Options of one bucket expire together.
    have hexpiry : call.instrument.expiry = put.instrument.expiry :=
      (listed_expiry _ _ _ _ _ _ hcin).trans
        (listed_expiry _ _ _ _ _ _ hpin).symm
    refine ⟨legFor call .call, legFor put .put, call.instrument.lotSize, callMid, putMid, rfl,
      ⟨rfl, rfl⟩, ⟨rfl, rfl⟩, hcl, hpl, hstrike, hexpiry, ?_⟩
    rw [entryIntent, MarketState.premiumInr, if_neg (not_le.mpr hpos)]

/-- An emitted intent is a straddle exactly if the nearest call and the nearest
    put of the bucket used have one strike and one positive contract size. -/
theorem emitted_straddle_iff (npStd : List ℚ → ℚ) (market : MarketState) (intents : List Intent)
    (decisions : List Decision) (intent : Intent)
    (heval : self.evaluate npStd market = .ok (intents, decisions)) (hmem : intent ∈ intents) :
    IsStraddle market intent ↔ StraddleListed self.config.expiry market intent.underlying := by
  rcases mem_evaluateAll _ _ _ _ heval intent hmem with ⟨u, _, d, hd, hi⟩
  rcases self.evaluateOne_intent npStd market u d intent hd hi with
    ⟨spot, bucket, all, call, put, callMid, putMid, hspot, hpick, hcall, hput, hintent⟩
  rw [hintent, self.entryIntent_straddle_iff market u bucket spot callMid putMid all call put
    (self.pickBucketLegs_pick market u spot bucket call put hpick) hcall hput]
  exact (self.straddleListed_iff market u spot bucket call put hspot hpick).symm

end LongStraddleStrategy

/-- A call and a put expiring on the sample date at neighbouring strikes, each the
    only one of its kind. -/
def strangleChain : ChainCache :=
  ((ChainCache.empty.refreshInstruments
    [{ contractType := some "call_options", symbol := some "C-BTC-98000-120526", id := some 1,
       contractValue := some (1 / 1000), lotSize := none, tickSize := none, state := none },
     { contractType := some "put_options", symbol := some "P-BTC-97000-120526", id := some 2,
       contractValue := some (1 / 1000), lotSize := none, tickSize := none,
       state := none }]).upsertQuote
    "C-BTC-98000-120526" { markPrice := some 400, delta := some (45 / 100) }).upsertQuote
    "P-BTC-97000-120526" { markPrice := some 300, delta := some (-40 / 100) }

/-- A market that has stood still, at 10:00 UTC on 12 May 2026. -/
def stillMarket : MarketState :=
  { now := combine (ymdToOrdinal 2026 5 12) (hourMinute 10 0)
    chain := strangleChain
    candlesByTf := fun _ _ => List.replicate 100 { high := 97510, low := 97490, close := 97500 }
    underlyingMarks := fun _ => some 97500
    usdInrRate := 85 }

theorem middle_bounds : 0 < (1 / 2 : ℚ) ∧ (1 / 2 : ℚ) ≤ 1 := by norm_num

/-- A straddle strategy that enters at the middle of the history, with no regard
    for the width of the last bars. -/
def patientStraddle : LongStraddleStrategy :=
  { config := { shippedLongStraddleConfig with
      setup := { shippedLongStraddleConfig.setup with
        atrPercentileMax := 1 / 2, bbwidthPercentileMax := 1 / 2
        requireRangeCompression := false
        atrPercentile_bounds := middle_bounds, bbwidthPercentile_bounds := middle_bounds }
      underlyings := [.btc] } }

/-- It buys the call and the put, at different strikes. No close differs from the
    mean, so the standard deviation is zero. -/
theorem patientStraddle_buys : ∃ intents decisions intent,
    patientStraddle.evaluate (fun _ => 0) stillMarket = .ok (intents, decisions) ∧
      intent ∈ intents ∧ intent.legs.map LegIntent.strike = [98000, 97000] := by
  have hstrikes : (match patientStraddle.evaluate (fun _ => 0) stillMarket with
      | .ok (intents, _) => intents.map (fun i => i.legs.map LegIntent.strike)
      | .error _ => []) = [[98000, 97000]] := by decide +kernel
  split at hstrikes
  · next intents decisions heval =>
    rcases List.map_eq_singleton_iff.mp hstrikes with ⟨intent, hintents, hlegs⟩
    refine ⟨intents, decisions, intent, heval, ?_, hlegs⟩
    rw [hintents]
    exact List.mem_singleton.mpr rfl
  · cases hstrikes

/-- Legs at different strikes are no straddle. -/
theorem not_straddle_of_strikes (market : MarketState) (intent : Intent) (a b : ℚ) (hne : a ≠ b)
    (hstrikes : intent.legs.map LegIntent.strike = [a, b]) : ¬ IsStraddle market intent := by
  rintro ⟨call, put, _, _, _, hlegs, _, _, _, _, hstrike, _⟩
  rw [hlegs, List.map_cons, List.map_cons, List.map_nil, hstrike] at hstrikes
  have h := List.cons.inj hstrikes
  exact hne (h.1.symm.trans (List.cons.inj h.2).1)

/-- It buys where no straddle is listed. -/
theorem emitted_straddle_iff_patient : ∃ intents decisions intent,
    patientStraddle.evaluate (fun _ => 0) stillMarket = .ok (intents, decisions) ∧
      intent ∈ intents ∧
      ¬ StraddleListed patientStraddle.config.expiry stillMarket intent.underlying := by
  rcases patientStraddle_buys with ⟨intents, decisions, intent, heval, hmem, hstrikes⟩
  refine ⟨intents, decisions, intent, heval, hmem, fun hlisted => ?_⟩
  exact not_straddle_of_strikes stillMarket intent 98000 97000 (by norm_num) hstrikes
    ((patientStraddle.emitted_straddle_iff (fun _ => 0) stillMarket intents decisions intent heval
      hmem).mpr hlisted)

/-- What is emitted there is a strangle. -/
theorem emitted_strangle : ¬ ∀ (self : LongStraddleStrategy) (npStd : List ℚ → ℚ)
    (market : MarketState) (intents : List Intent) (decisions : List Decision),
    self.evaluate npStd market = .ok (intents, decisions) →
    ∀ intent ∈ intents, IsStraddle market intent := by
  intro hall
  rcases patientStraddle_buys with ⟨intents, decisions, intent, heval, hmem, hstrikes⟩
  exact not_straddle_of_strikes stillMarket intent 98000 97000 (by norm_num) hstrikes
    (hall patientStraddle (fun _ => 0) stillMarket intents decisions heval intent hmem)

end OptionsBot
