import OptionsBot.Theory.ForcedExit

/-!
# The Hours Left at an Entry

The directional entry never looks at the hours to its option's expiry. It counts
the hours to the next session close, picks a bucket by them, and buys whatever
that bucket lists. The bucket is a calendar date on the UTC clock, the session
close half past five on India's, and an expiry is recorded as half past five of
its date. From noon UTC on the next session close is tomorrow's, while the bucket
of the nearest expiry is still today's, and empties only at half past five.

So an emitted option expires on the date of its bucket, and how many hours that
leaves depends on the instant alone.

## Main definitions

* `bucketExpiry`: The recorded expiry of a bucket's options.
* `Timely`: An expiry leaves the configured hours.
* `CanList`: Some option symbol falls in a bucket.

## Theorems

* `bucketForExpiry_date`: A bucket is a date that has not passed.
* `listed_enters`: Whatever can be listed in the picked bucket can be entered.
* `evaluate_timely_iff`: When every entry leaves the configured hours.
* `timely_d1_iff`: Until when that is, for the nearest bucket.
-/

namespace OptionsBot

-- The sample runs below compute with rationals.
attribute [local semireducible] Rat.add Rat.sub Rat.mul Rat.inv

/-- The date of a bucket as seen from a date. -/
def bucketDate (today : Int) : ExpiryBucket → Int
  | .d1 => today
  | .d2 => today + 1
  | .w1 => (fridaysAfter today).1
  | .w2 => (fridaysAfter today).2.1
  | .w3 => (fridaysAfter today).2.2

/-- The expiry recorded for the options of a bucket. -/
def bucketExpiry (now : DateTime) (bucket : ExpiryBucket) : DateTime :=
  stampedExpiry (bucketDate now.date bucket)

/-- The bucket an entry at an instant is made in. -/
def entryBucket (cfg : DirectionalExpiry) (now : DateTime) : ExpiryBucket :=
  if cfg.d1DteThresholdHours ≤ (indiaOptionsSessionCloseUtc now).hoursSince now then cfg.prefer
  else cfg.fallback

/-- The nearest bucket is the preferred one, and is chosen. -/
def PreferredD1 (cfg : DirectionalExpiry) (now : DateTime) : Prop :=
  cfg.prefer = .d1 ∧
    cfg.d1DteThresholdHours ≤ (indiaOptionsSessionCloseUtc now).hoursSince now

/-- An expiry leaves the hours an entry should have, and those the preferred
    nearest bucket should have. -/
def Timely (cfg : DirectionalExpiry) (now expiry : DateTime) : Prop :=
  cfg.minDteHours ≤ expiry.hoursSince now ∧
    (PreferredD1 cfg now → cfg.d1DteThresholdHours ≤ expiry.hoursSince now)

/-- The symbol of some option can be read, and falls in the bucket. -/
def CanList (now : DateTime) (bucket : ExpiryBucket) : Prop :=
  ∃ symbol p, parseSymbol symbol = .ok (some p) ∧ bucketForExpiry now p.expiry = some bucket

theorem bucketForExpiry_date (now expiry : DateTime) (bucket : ExpiryBucket)
    (h : bucketForExpiry now expiry = some bucket) :
    now < expiry ∧ expiry.date = bucketDate now.date bucket := by
  unfold bucketForExpiry at h
  by_cases hle : expiry ≤ now
  · rw [if_pos hle] at h
    cases h
  · rw [if_neg hle] at h
    refine ⟨not_le.mp hle, ?_⟩
    simp only at h
    split_ifs at h with h1 h2 h3 h4 h5
    · cases h
      exact sub_eq_zero.mp h1
    · cases h
      rw [bucketDate, ← h2]
      omega
    · cases h
      exact h3
    · cases h
      exact h4
    · cases h
      exact h5

/-- An option that can be listed in a bucket has the expiry of the bucket. -/
theorem canList_expiry (symbol : String) (p : ParsedSymbol) (now : DateTime)
    (bucket : ExpiryBucket) (hparse : parseSymbol symbol = .ok (some p))
    (h : bucketForExpiry now p.expiry = some bucket) : p.expiry = bucketExpiry now bucket := by
  rw [parseSymbol_expiry symbol p hparse, (bucketForExpiry_date now p.expiry bucket h).2]
  rfl

/-- Two options of one bucket expire together. -/
theorem listed_expiry (chain : ChainCache) (underlying : Underlying) (optionType : OptionType)
    (bucket : ExpiryBucket) (now : DateTime) (inst : InstrumentRecord)
    (h : inst ∈ chain.instrumentsFor underlying optionType bucket now) :
    inst.expiry = bucketExpiry now bucket := by
  rw [ChainCache.mem_instrumentsFor] at h
  exact canList_expiry inst.symbol inst.parsed now bucket (chain.listed inst h.1) h.2.2.2.2

namespace DirectionalStrategy

/-- An emitted intent buys one option of the bucket the instant picks. -/
theorem emitted_expiry (self : DirectionalStrategy) (market : MarketState) (intents : List Intent)
    (decisions : List Decision) (h : self.evaluate market = .ok (intents, decisions))
    (intent : Intent) (hmem : intent ∈ intents) :
    CanList market.now (entryBucket self.config.expiry market.now) ∧
      ∃ leg, intent.legs = [leg] ∧
        leg.expiry = bucketExpiry market.now (entryBucket self.config.expiry market.now) := by
  rcases mem_evaluateAll _ _ _ _ h intent hmem with ⟨u, _, d, hd, hi⟩
  rcases self.evaluateOne_intent market u d intent hd hi with
    ⟨optionType, all, sel, _, hlist, _, hintent⟩
  rw [ChainCache.mem_instrumentsFor] at hlist
  rcases hlist with ⟨hin, _, _, _, hbucket⟩
  have hparse := market.chain.listed sel.instrument hin
  refine ⟨⟨sel.instrument.symbol, sel.instrument.parsed, hparse, hbucket⟩, ?_⟩
  rw [hintent]
  exact ⟨_, rfl, canList_expiry sel.instrument.symbol sel.instrument.parsed market.now _ hparse
    hbucket⟩

end DirectionalStrategy

/-- Twenty quiet candles, and one that breaks out in the direction of an option. -/
def breakCandles (optionType : OptionType) : List Candle :=
  List.replicate 20 { high := 97010, low := 96990, close := 97000 } ++
    [match optionType with
      | .call => { high := 97400, low := 97000, close := 97400 }
      | .put => { high := 97000, low := 96600, close := 96600 }]

/-- A chain that lists one option only, marked at one. -/
def loneChain (symbol : String) : ChainCache :=
  (ChainCache.empty.refreshInstruments
    [{ contractType := some "call_options", symbol := some symbol, id := some 1,
       contractValue := some 1, lotSize := none, tickSize := none, state := none }]).upsertQuote
    symbol { markPrice := some 1 }

/-- A breakout in the direction of the one option that is listed. -/
def loneMarket (symbol : String) (p : ParsedSymbol) (now : DateTime) : MarketState :=
  { now := now
    chain := loneChain symbol
    candlesByTf := fun _ _ => breakCandles p.optionType
    underlyingMarks := fun _ => some 97000
    usdInrRate := 85 }

/-- A strategy's values on one underlying, with another choice of expiry. -/
def DirectionalConfig.narrowed (config : DirectionalConfig) (cfg : DirectionalExpiry)
    (underlying : Underlying) : DirectionalConfig :=
  { config with expiry := cfg, underlyings := [underlying] }

/-- The shipped strategy on one underlying, with an expiry section of its own. -/
def loneStrategy (cfg : DirectionalExpiry) (underlying : Underlying) : DirectionalStrategy :=
  { config := shippedDirectionalConfig.narrowed cfg underlying }

/-- The levels of the breakout are those of its direction. -/
theorem breakCandles_levels (optionType : OptionType) : ∃ l,
    trendLevels (breakCandles optionType) shippedDirectionalConfig.entry = .ok (some l) ∧
      l.longSetup = decide (optionType = .call) ∧ l.shortSetup = decide (optionType = .put) := by
  have hsetups : ∀ t, (trendLevels (breakCandles t) shippedDirectionalConfig.entry).toOption.map
      (Option.map fun l => (l.longSetup, l.shortSetup)) =
      some (some (decide (t = .call), decide (t = .put))) := by
    intro t
    cases t <;> decide +kernel
  rcases Option.map_eq_some_iff.mp (hsetups optionType) with ⟨levels, hlevels, hsome⟩
  rcases Option.map_eq_some_iff.mp hsome with ⟨l, rfl, hl⟩
  rw [Prod.mk.injEq] at hl
  exact ⟨l, ok_of_toOption _ _ hlevels, hl⟩

/-- What the lone option's record is. -/
def loneRecord (symbol : String) (p : ParsedSymbol) : InstrumentRecord :=
  { productId := 1, symbol := symbol, underlying := p.underlying, optionType := p.optionType,
    strike := p.strike, expiry := p.expiry, lotSize := 1, tickSize := 1 / 2 }

theorem loneChain_instruments (symbol : String) (p : ParsedSymbol)
    (hparse : parseSymbol symbol = .ok (some p)) :
    (loneChain symbol).instruments = [loneRecord symbol p] := by
  have hrecord : productToRecord
      { contractType := some "call_options", symbol := some symbol, id := some 1,
        contractValue := some 1, lotSize := none, tickSize := none, state := none } =
      .ok (some (loneRecord symbol p)) := by
    unfold productToRecord
    simp only [true_or, if_true, hparse]
    rfl
  unfold loneChain ChainCache.upsertQuote ChainCache.refreshInstruments collectInstruments
  simp only [List.foldl_cons, List.foldl_nil, hrecord]
  rfl

theorem loneChain_instrumentsFor (symbol : String) (p : ParsedSymbol) (now : DateTime)
    (bucket : ExpiryBucket) (hparse : parseSymbol symbol = .ok (some p))
    (hbucket : bucketForExpiry now p.expiry = some bucket) :
    (loneChain symbol).instrumentsFor p.underlying p.optionType bucket now =
      [loneRecord symbol p] := by
  unfold ChainCache.instrumentsFor
  rw [loneChain_instruments symbol p hparse, List.filter_cons_of_pos, List.filter_nil]
  · rfl
  · simp only [loneRecord, hbucket, and_self, decide_true]

theorem loneMarket_picks (symbol : String) (p : ParsedSymbol) (now : DateTime)
    (cfg : DirectionalExpiry) (hparse : parseSymbol symbol = .ok (some p))
    (hbucket : bucketForExpiry now p.expiry = some (entryBucket cfg now)) :
    (loneStrategy cfg p.underlying).pickEntryStrike (loneMarket symbol p now) p.underlying
        p.optionType (entryBucket cfg now) 97000 =
      some { instrument := loneRecord symbol p, quote := { markPrice := some 1 } } := by
  have hquote : (loneChain symbol).quotes symbol = some { markPrice := some 1 } := if_pos rfl
  -- The nearest strike of a list of one is that one.
  have hatm : DirectionalStrategy.strikeForMode (loneChain symbol) p.underlying p.optionType
      (entryBucket cfg now) 97000 .atm now =
      some { instrument := loneRecord symbol p, quote := { markPrice := some 1 } } := by
    unfold DirectionalStrategy.strikeForMode selectStrike ChainCache.getAtmStrike
    simp only [loneChain_instrumentsFor symbol p now _ hparse hbucket,
      List.insertionSort_cons, List.insertionSort_nil, List.orderedInsert_nil, if_true, loneRecord,
      hquote, Option.map_some]
  exact DirectionalStrategy.pickEntryStrike_primary (loneStrategy cfg p.underlying)
    (loneMarket symbol p now) p.underlying p.optionType (entryBucket cfg now) 97000
    { instrument := loneRecord symbol p, quote := { markPrice := some 1 } } rfl
    (by
      rw [show (loneStrategy cfg p.underlying).config.strike.primary = .atm from rfl,
        show (loneMarket symbol p now).chain = loneChain symbol from rfl,
        show (loneMarket symbol p now).now = now from rfl, hatm]
      rfl)

/-- Whatever can be listed in the picked bucket is bought on a breakout in its
    direction. -/
theorem listed_enters (symbol : String) (p : ParsedSymbol) (now : DateTime)
    (cfg : DirectionalExpiry) (hparse : parseSymbol symbol = .ok (some p))
    (hbucket : bucketForExpiry now p.expiry = some (entryBucket cfg now)) :
    ∃ intents decisions intent,
      (loneStrategy cfg p.underlying).evaluate (loneMarket symbol p now) =
        .ok (intents, decisions) ∧ intent ∈ intents := by
  rcases breakCandles_levels p.optionType with ⟨l, hl, hlong, hshort⟩
  have hbars : shippedDirectionalConfig.entry.minBars ≤ (breakCandles p.optionType).length := by
    cases p.optionType <;> decide
  have hone := (loneStrategy cfg p.underlying).evaluateOne_levels (loneMarket symbol p now)
    p.underlying 97000 l rfl rfl hbars hl
  have henter := fun features => (loneStrategy cfg p.underlying).enter_passes
    (loneMarket symbol p now) p.underlying 97000 p.optionType features
    { instrument := loneRecord symbol p, quote := { markPrice := some 1 } } rfl
    (by rw [DirectionalStrategy.usable]
        exact congrArg _ (loneMarket_picks symbol p now cfg hparse hbucket))
    (fun s hs => by cases hs)
  have hdecision : ∃ d intent, (loneStrategy cfg p.underlying).evaluateOne
      (loneMarket symbol p now) p.underlying = .ok d ∧ d.passed = true ∧
      d.intent = some intent := by
    rcases henter (("spot", .num (some 97000)) :: l.features) with ⟨all, hpassed, hintent⟩
    -- The setup that holds is that of the option's own type.
    cases htype : p.optionType with
    | call =>
        rw [htype] at hlong hpassed hintent
        rw [hlong] at hone
        exact ⟨_, _, hone, hpassed, hintent⟩
    | put =>
        rw [htype] at hlong hshort hpassed hintent
        rw [hlong, hshort] at hone
        exact ⟨_, _, hone, hpassed, hintent⟩
  rcases hdecision with ⟨d, intent, hd, hpassed, hintent⟩
  refine ⟨[intent], [d], intent, ?_, List.mem_singleton.mpr rfl⟩
  change evaluateAll _ [p.underlying] = _
  unfold evaluateAll
  rw [List.mapM_cons, List.mapM_nil, hd]
  simp only [bind, Except.bind, pure, Except.pure, List.filterMap_cons, List.filterMap_nil, hpassed,
    if_true, hintent]

/-- Every entry at an instant leaves the configured hours exactly if the expiry
    of the bucket it picks does, or nothing can be listed there. -/
theorem evaluate_timely_iff (cfg : DirectionalExpiry) (now : DateTime) :
    (∀ (self : DirectionalStrategy) (market : MarketState) (intents : List Intent)
      (decisions : List Decision), self.config.expiry = cfg → market.now = now →
      self.evaluate market = .ok (intents, decisions) →
      ∀ intent ∈ intents, ∃ leg ∈ intent.legs, Timely cfg now leg.expiry) ↔
      (CanList now (entryBucket cfg now) →
        Timely cfg now (bucketExpiry now (entryBucket cfg now))) := by
  constructor
  · rintro hall ⟨symbol, p, hparse, hbucket⟩
    rcases listed_enters symbol p now cfg hparse hbucket with
      ⟨intents, decisions, intent, heval, hmem⟩
    rcases hall _ _ intents decisions rfl rfl heval intent hmem with ⟨leg, hleg, htimely⟩
    rcases DirectionalStrategy.emitted_expiry _ _ intents decisions heval intent hmem with
      ⟨_, only, hlegs, hexpiry⟩
    rw [hlegs, List.mem_singleton] at hleg
    rw [hleg, hexpiry] at htimely
    exact htimely
  · intro htimely self market intents decisions hcfg hnow heval intent hmem
    rcases self.emitted_expiry market intents decisions heval intent hmem with
      ⟨hlist, leg, hlegs, hexpiry⟩
    rw [hcfg, hnow] at hlist hexpiry
    rw [hlegs]
    refine ⟨leg, List.mem_singleton.mpr rfl, ?_⟩
    rw [hexpiry]
    exact htimely hlist

/-- In the nearest bucket the hours left are those to half past five UTC. -/
theorem bucketExpiry_d1_hours (now : DateTime) :
    (bucketExpiry now .d1).hoursSince now =
      ((hourMinute 17 30 - now.timeOfDay : Int) : ℚ) / 3600000000 := by
  have hgap : (bucketExpiry now .d1).micros - now.micros =
      hourMinute 17 30 - now.timeOfDay := by
    simp only [bucketExpiry, bucketDate, stampedExpiry, combine, DateTime.date, DateTime.timeOfDay,
      microsPerDay]
    omega
  rw [DateTime.hoursSince, hgap]

/-- Where the nearest bucket is preferred and chosen, its options are timely until
    the longer of the two numbers of hours before half past five UTC. -/
theorem timely_d1_iff (cfg : DirectionalExpiry) (now : DateTime) (h : PreferredD1 cfg now) :
    Timely cfg now (bucketExpiry now (entryBucket cfg now)) ↔
      (now.timeOfDay : ℚ) ≤ (hourMinute 17 30 : Int) -
        max cfg.minDteHours cfg.d1DteThresholdHours * 3600000000 := by
  have hbucket : entryBucket cfg now = .d1 := by
    rw [entryBucket, if_pos h.2, h.1]
  have hleft : ∀ hours : ℚ, hours ≤ (bucketExpiry now .d1).hoursSince now ↔
      (now.timeOfDay : ℚ) ≤ (hourMinute 17 30 : Int) - hours * 3600000000 := by
    intro hours
    rw [bucketExpiry_d1_hours, le_div_iff₀ (by norm_num), Int.cast_sub]
    constructor <;> intro hle <;> linarith
  rw [hbucket, Timely, ← hleft, max_le_iff]
  exact ⟨fun ht => ⟨ht.1, ht.2 h⟩, fun ht => ⟨ht.1, fun _ => ht.2⟩⟩

/-- Under the shipped hours, a call is bought at 16:00 UTC that expires at
    17:30. -/
theorem evaluate_too_late : ¬ ∀ (self : DirectionalStrategy) (market : MarketState)
    (intents : List Intent) (decisions : List Decision),
    self.evaluate market = .ok (intents, decisions) →
    ∀ intent ∈ intents, ∃ leg ∈ intent.legs,
      Timely self.config.expiry market.now leg.expiry := by
  intro hall
  let now : DateTime := combine (ymdToOrdinal 2026 5 12) (hourMinute 16 0)
  have hparse : parseSymbol "C-BTC-97000-120526" =
      .ok (some { optionType := .call, underlying := .btc, strike := 97000,
                  expiry := combine (ymdToOrdinal 2026 5 12) (hourMinute 17 30) }) := by
    decide
  rcases listed_enters "C-BTC-97000-120526" _ now shippedDirectionalExpiry hparse
    (by decide) with ⟨intents, decisions, intent, heval, hmem⟩
  rcases hall _ _ intents decisions heval intent hmem with ⟨leg, hleg, hmin, _⟩
  rcases DirectionalStrategy.emitted_expiry _ _ intents decisions heval intent hmem with
    ⟨_, only, hlegs, hexpiry⟩
  rw [hlegs, List.mem_singleton] at hleg
  rw [hleg, hexpiry] at hmin
  exact absurd hmin (by decide)

end OptionsBot
