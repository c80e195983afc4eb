import OptionsBot.Core.DryExecutor
import OptionsBot.Core.Engine
import OptionsBot.Core.Registry

/-!
# Entering Inside the Forced Exit

A position opened on an intent should not be due for its expiry close at the
instant it is opened. Entry picks a bucket, exit counts hours or days to the
expiry of the legs, and the two have their own parameters. With the shipped
ones they overlap: the directional strategy and the straddle enter a same-day
option in the last hours before its expiry, and the credit spread's preferred
bucket always expires within the days its exit closes in.

## Main definitions

* `Strategy.Shipped`: The expiry and exit sections are the shipped ones.
* `OpenedFrom`: The view of a trade right after it is opened on an intent.
* `Strategy.EntryClear`: When an entry is clear of the forced exit.

## Theorems

* `listed_d1`, `listed_d2`: When the options of the two nearest buckets expire.
* `opened_expiry`: An opened position expires with its latest leg.
* `opened_clear_iff`: When an opened position is clear of the forced exit.
-/

namespace OptionsBot

/-- The expiry and exit sections are the ones of the shipped files. -/
def Strategy.Shipped : Strategy → Prop
  | directional s =>
    s.config.expiry = shippedDirectionalExpiry ∧ s.config.exits = shippedDirectionalExits
  | creditVertical s =>
    s.config.expiry = shippedCreditVerticalExpiry ∧ s.config.exits = shippedCreditVerticalExits
  | longStraddle s =>
    s.config.expiry = shippedLongStraddleExpiry ∧ s.config.exits = shippedLongStraddleExits

/-- The view of a trade that is opened on an intent, at the instant it is opened,
    with any executor, sizing and quotes. -/
def OpenedFrom (intent : Intent) (market : MarketState) (position : PositionState) : Prop :=
  ∃ execute tradeId sizing quoteFor chain timeout trade legs rebuilt,
    persistEntryAndExecute execute tradeId intent sizing market quoteFor chain timeout =
      .ok (trade, legs) ∧
    trade.status = .«open» ∧
    tradeToPositionState trade legs rebuilt market.now = .ok position

/-- The UTC time of day lies in a range, its end excluded. -/
def Between (now : DateTime) (start stop : Int) : Prop :=
  start ≤ now.timeOfDay ∧ now.timeOfDay < stop

/-- When an entry is clear of the strategy's forced exit. -/
def Strategy.EntryClear (market : MarketState) (underlying : Underlying) : Strategy → Prop
  | directional _ => ¬ Between market.now (hourMinute 15 30) (hourMinute 17 30)
  | creditVertical _ => False
  | longStraddle _ =>
    ¬ Between market.now (hourMinute 13 30) (hourMinute 17 30) ∨
      ∀ spot, market.spot underlying = some spot →
        LongStraddleStrategy.pickLegs market underlying .d1 spot = none

/-- The end of a date's last listed hour, as the chain stamps it. -/
def stampedExpiry (date : Int) : DateTime := combine date (hourMinute 17 30)

theorem listed_d1 (chain : ChainCache) (underlying : Underlying) (optionType : OptionType)
    (now : DateTime) (inst : InstrumentRecord)
    (h : inst ∈ chain.instrumentsFor underlying optionType .d1 now) :
    inst.expiry = stampedExpiry now.date ∧ now.timeOfDay < hourMinute 17 30 := by
  rw [ChainCache.mem_instrumentsFor] at h
  rcases h with ⟨hmem, _, _, _, hbucket⟩
  rcases bucket_d1 now inst.expiry hbucket with ⟨hlt, hdate⟩
  have hstamp := chain.instrument_expiry inst hmem
  rw [hdate] at hstamp
  refine ⟨hstamp, ?_⟩
  rw [hstamp, DateTime.lt_def] at hlt
  simp only [combine, DateTime.date, DateTime.timeOfDay, microsPerDay] at hlt ⊢
  omega

theorem listed_d2 (chain : ChainCache) (underlying : Underlying) (optionType : OptionType)
    (now : DateTime) (inst : InstrumentRecord)
    (h : inst ∈ chain.instrumentsFor underlying optionType .d2 now) :
    inst.expiry = stampedExpiry (now.date + 1) := by
  rw [ChainCache.mem_instrumentsFor] at h
  rcases h with ⟨hmem, _, _, _, hbucket⟩
  have hstamp := chain.instrument_expiry inst hmem
  rw [bucket_d2 now inst.expiry hbucket] at hstamp
  exact hstamp

/-- The hours to the stamped expiry of a date so many days on. -/
theorem stamped_within_iff (now : DateTime) (days hours : Int) :
    (stampedExpiry (now.date + days)).hoursSince now ≤ (hours : ℚ) ↔
      days * microsPerDay + hourMinute 17 30 - hours * microsPerHour ≤ now.timeOfDay := by
  have hgap : (stampedExpiry (now.date + days)).micros - now.micros =
      days * microsPerDay + hourMinute 17 30 - now.timeOfDay := by
    simp only [stampedExpiry, combine, DateTime.date, DateTime.timeOfDay, microsPerDay]
    omega
  rw [DateTime.hoursSince_le_iff, hgap]
  have hcast : (hours : ℚ) * 3600000000 = ((hours * microsPerHour : Int) : ℚ) := by
    rw [Int.cast_mul]
    rfl
  rw [hcast, Int.cast_le]
  constructor <;> intro h <;> omega

theorem latestExpiry_eq (first : LegIntent) (rest : List LegIntent) (e : DateTime)
    (hfirst : first.expiry = e) (hrest : ∀ leg ∈ rest, leg.expiry = e) :
    latestExpiry first rest = e := by
  unfold latestExpiry
  refine List.foldlRecOn (motive := fun acc => acc = e) rest _ hfirst (fun acc hacc leg hleg => ?_)
  split_ifs
  · exact hrest leg hleg
  · exact hacc

/-- A position opened on legs of one expiry has that expiry. -/
theorem opened_expiry (intent : Intent) (market : MarketState) (position : PositionState)
    (h : OpenedFrom intent market position) (e : DateTime)
    (hlegs : ∀ leg ∈ intent.legs, leg.expiry = e) : position.expiry = e := by
  rcases h with ⟨execute, tradeId, sizing, quoteFor, chain, timeout, trade, legs, rebuilt, hentry,
    _, hview⟩
  rcases persistEntryAndExecute_ok _ _ _ _ _ _ _ _ _ hentry with ⟨first, rest, hl, hrecord⟩
  rw [hl] at hlegs
  have hexp : trade.expiry = some e := by
    rw [(recordEntry_frame _ _ _ _ _ _ _ hrecord).2.2.2.1]
    simp only [newTrade]
    -- The row takes the latest expiry of the legs, and here they have one.
    rw [latestExpiry_eq first rest e (hlegs first List.mem_cons_self)
      (fun leg hleg => hlegs leg (List.mem_cons_of_mem first hleg))]
  rcases tradeToPositionState_open trade legs rebuilt market.now e hexp with ⟨p, hp, hpe, _⟩
  rw [hp] at hview
  cases hview
  exact hpe

/-- Late in the day, the next session close is the next day's. -/
theorem late_close_far (now : DateTime) (h0 : hourMinute 15 30 ≤ now.timeOfDay)
    (h1 : now.timeOfDay < hourMinute 17 30) :
    ¬ (indiaOptionsSessionCloseUtc now).hoursSince now < 4 := by
  -- Past noon on the UTC clock, the next close is tomorrow's noon.
  have hpast : ¬ now.timeOfDay < hourMinute 12 0 :=
    not_lt.mpr (le_trans (by decide : hourMinute 12 0 ≤ hourMinute 15 30) h0)
  have hgap : 4 * 3600000000 ≤ (indiaOptionsSessionCloseUtc now).micros - now.micros := by
    rw [sessionClose_noon, if_neg hpast]
    simp only [combine, DateTime.date, DateTime.timeOfDay, hourMinute, microsPerHour,
      microsPerDay] at h1 ⊢
    omega
  rw [not_lt, DateTime.hoursSince, le_div_iff₀ (by norm_num)]
  exact_mod_cast hgap

namespace DirectionalStrategy

/-- The directional strategy enters inside its forced exit late in the day. -/
theorem opened_not_forced_iff (self : DirectionalStrategy) (market : MarketState)
    (underlying : Underlying) (d : Decision) (intent : Intent) (position : PositionState)
    (hship : (Strategy.directional self).Shipped)
    (heval : self.evaluateOne market underlying = .ok d) (hi : d.intent = some intent)
    (hopen : OpenedFrom intent market position) :
    Action.closeFor .forceCloseExpiry ∉ self.manage position market ↔
      ¬ Between market.now (hourMinute 15 30) (hourMinute 17 30) := by
  rcases self.evaluateOne_intent market underlying d intent heval hi with
    ⟨optionType, all, sel, mid, hmem, _, hintent⟩
  have hlegs : ∀ leg ∈ intent.legs, leg.expiry = sel.instrument.expiry := by
    intro leg hleg
    rw [hintent] at hleg
    simp only [entryIntent, List.mem_singleton] at hleg
    rw [hleg]
  have hexp := opened_expiry intent market position hopen _ hlegs
  rw [self.manage_force_iff, hexp, hship.2, not_iff_not]
  -- The bucket is chosen by the hours to the session close, four by the shipped file.
  have hpick : self.pickExpiryBucket market =
      if (4 : ℚ) ≤ (indiaOptionsSessionCloseUtc market.now).hoursSince market.now then .d1
      else .d2 := by
    unfold pickExpiryBucket
    rw [hship.1]
    rfl
  by_cases hnear : (4 : ℚ) ≤ (indiaOptionsSessionCloseUtc market.now).hoursSince market.now
  · -- Far from the close: a same-day option.
    rw [hpick, if_pos hnear] at hmem
    rcases listed_d1 _ _ _ _ _ hmem with ⟨hstamp, hbefore⟩
    have hwithin := stamped_within_iff market.now 0 2
    rw [Int.add_zero, ← hstamp] at hwithin
    simp only [shippedDirectionalExits, Between]
    rw [show (2 : ℚ) = ((2 : Int) : ℚ) by norm_num, hwithin]
    simp only [hourMinute, microsPerHour] at hbefore ⊢
    constructor
    · intro h
      exact ⟨by omega, hbefore⟩
    · intro h
      omega
  · -- Near the close: a next-day option, and it is not late in the day.
    rw [hpick, if_neg hnear] at hmem
    have hstamp := listed_d2 _ _ _ _ _ hmem
    have hwithin := stamped_within_iff market.now 1 2
    rw [← hstamp] at hwithin
    simp only [shippedDirectionalExits, Between]
    rw [show (2 : ℚ) = ((2 : Int) : ℚ) by norm_num, hwithin]
    constructor
    · intro h
      have hlt := market.now.timeOfDay_lt
      simp only [hourMinute, microsPerHour, microsPerDay] at h hlt
      omega
    · intro h
      exact absurd (not_le.mp hnear) (late_close_far market.now h.1 h.2)

end DirectionalStrategy

namespace CreditVerticalStrategy

/-- The day after tomorrow's midnight in India is later than a same-day stamp. -/
theorem days_to_d2 (now : DateTime) : daysToExpiry (stampedExpiry (now.date + 1)) now ≤ 1 := by
  simp only [daysToExpiry, stampedExpiry, utcToIst, DateTime.shift, combine, DateTime.date,
    istOffset, hourMinute, microsPerHour, microsPerDay]
  omega

/-- A credit spread is always opened inside its forced exit. -/
theorem opened_forced (self : CreditVerticalStrategy) (market : MarketState)
    (underlying : Underlying) (d : Decision) (intent : Intent) (position : PositionState)
    (hship : (Strategy.creditVertical self).Shipped)
    (heval : self.evaluateOne market underlying = .ok d) (hi : d.intent = some intent)
    (hopen : OpenedFrom intent market position) :
    Action.closeFor .forceCloseExpiry ∈ self.manage position market := by
  rcases self.evaluateOne_intent market underlying d intent heval hi with
    ⟨optionType, short, long, hspread, _, hshort, hlong⟩
  -- The bucket does not depend on the market: it is the preferred one.
  have hbucket : self.pickExpiryBucket = .d2 := by
    unfold pickExpiryBucket
    rw [hship.1]
    rfl
  rw [hbucket] at hshort hlong
  have hlegs : ∀ leg ∈ intent.legs, leg.expiry = stampedExpiry (market.now.date + 1) := by
    intro leg hleg
    rw [hspread] at hleg
    cases optionType with
    | call =>
        rcases List.mem_pair.mp hleg with hl | hl
        · rw [hl]
          exact listed_d2 _ _ _ _ _ hshort
        · rw [hl]
          exact listed_d2 _ _ _ _ _ hlong
    | put =>
        rcases List.mem_pair.mp hleg with hl | hl
        · rw [hl]
          exact listed_d2 _ _ _ _ _ hlong
        · rw [hl]
          exact listed_d2 _ _ _ _ _ hshort
  rw [self.manage_force_iff, opened_expiry intent market position hopen _ hlegs, hship.2]
  -- One day to expiry at the most, and the exit closes at two.
  have hdays := days_to_d2 market.now
  simp only [shippedCreditVerticalExits]
  omega

end CreditVerticalStrategy

namespace LongStraddleStrategy

/-- The straddle enters inside its forced exit late in the day, unless the
    same-day bucket has no quoted pair. -/
theorem opened_not_forced_iff (self : LongStraddleStrategy) (npStd : List ℚ → ℚ)
    (market : MarketState) (underlying : Underlying) (d : Decision) (intent : Intent)
    (position : PositionState) (hship : (Strategy.longStraddle self).Shipped)
    (heval : self.evaluateOne npStd market underlying = .ok d) (hi : d.intent = some intent)
    (hopen : OpenedFrom intent market position) :
    Action.closeFor .forceCloseExpiry ∉ self.manage position market ↔
      ¬ Between market.now (hourMinute 13 30) (hourMinute 17 30) ∨
        ∀ spot, market.spot underlying = some spot →
          pickLegs market underlying .d1 spot = none := by
  rcases self.evaluateOne_intent npStd market underlying d intent heval hi with
    ⟨spot, bucket, all, call, put, callMid, putMid, hspot, hpick, _, _, hintent⟩
  -- Both legs expire together, on the day of the bucket.
  have hlegs : ∀ e, call.instrument.expiry = e → put.instrument.expiry = e →
      ∀ leg ∈ intent.legs, leg.expiry = e := by
    intro e hcall hput leg hleg
    rw [hintent] at hleg
    rcases List.mem_pair.mp hleg with hl | hl
    · rw [hl]
      exact hcall
    · rw [hl]
      exact hput
  rw [self.manage_force_iff, hship.2]
  unfold pickBucketLegs at hpick
  simp only [hship.1, shippedLongStraddleExpiry] at hpick
  split at hpick
  · next legs hd1 =>
    -- The same-day pair: four hours before its stamp is 13:30.
    cases hpick
    rcases pickLegs_mem _ _ _ _ _ _ hd1 with ⟨hcall, hput⟩
    rcases listed_d1 _ _ _ _ _ hcall with ⟨hstamp, hbefore⟩
    have hexp := opened_expiry intent market position hopen _
      (hlegs _ hstamp (listed_d1 _ _ _ _ _ hput).1)
    have hwithin := stamped_within_iff market.now 0 4
    rw [Int.add_zero] at hwithin
    simp only [hexp, shippedLongStraddleExits, Between]
    rw [show (4 : ℚ) = ((4 : Int) : ℚ) by norm_num, hwithin]
    simp only [hourMinute, microsPerHour] at hbefore ⊢
    constructor
    · intro h
      left
      omega
    · rintro (h | h)
      · omega
      · rw [h spot hspot] at hd1
        cases hd1
  · next hd1 =>
    -- The next-day pair, taken for want of a same-day one, is a day away.
    rcases Option.map_eq_some_iff.mp hpick with ⟨legs, hd2, hpair⟩
    cases hpair
    rcases pickLegs_mem _ _ _ _ _ _ hd2 with ⟨hcall, hput⟩
    have hexp := opened_expiry intent market position hopen _
      (hlegs _ (listed_d2 _ _ _ _ _ hcall) (listed_d2 _ _ _ _ _ hput))
    have hwithin := stamped_within_iff market.now 1 4
    simp only [hexp, shippedLongStraddleExits]
    rw [show (4 : ℚ) = ((4 : Int) : ℚ) by norm_num, hwithin]
    constructor
    · intro _
      right
      intro s hs
      rw [hspot] at hs
      cases hs
      exact hd1
    · intro _
      have hlt := market.now.timeOfDay_lt
      simp only [hourMinute, microsPerHour, microsPerDay] at hlt ⊢
      omega

end LongStraddleStrategy

/-- When a position, opened on an emitted intent under the shipped parameters, is
    clear of its own strategy's forced exit. -/
theorem opened_clear_iff (s : Strategy) (npStd : List ℚ → ℚ) (market : MarketState)
    (intents : List Intent) (decisions : List Decision) (intent : Intent)
    (position : PositionState) (hship : s.Shipped)
    (heval : s.evaluate npStd market = .ok (intents, decisions)) (hmem : intent ∈ intents)
    (hopen : OpenedFrom intent market position) :
    Action.closeFor .forceCloseExpiry ∉ s.manage position market ↔
      s.EntryClear market intent.underlying := by
  cases s with
  | directional self =>
      rcases mem_evaluateAll _ _ _ _ heval intent hmem with ⟨u, _, d, hd, hi⟩
      exact self.opened_not_forced_iff market u d intent position hship hd hi hopen
  | creditVertical self =>
      rcases mem_evaluateAll _ _ _ _ heval intent hmem with ⟨u, _, d, hd, hi⟩
      have hforced := self.opened_forced market u d intent position hship hd hi hopen
      exact ⟨fun h => absurd hforced h, fun h => absurd h (fun hfalse => hfalse)⟩
  | longStraddle self =>
      rcases mem_evaluateAll _ _ _ _ heval intent hmem with ⟨u, _, d, hd, hi⟩
      have hu : intent.underlying = u := by
        rcases self.evaluateOne_intent npStd market u d intent hd hi with
          ⟨_, _, _, _, _, _, _, _, _, _, _, hintent⟩
        rw [hintent]
        rfl
      simp only [Strategy.EntryClear, hu]
      exact self.opened_not_forced_iff npStd market u d intent position hship hd hi hopen

/-- Two puts expiring the day after the sample tick, quoted with their deltas. -/
def spreadChain : ChainCache :=
  ((ChainCache.empty.refreshInstruments
    [{ contractType := some "put_options", symbol := some "P-BTC-95000-130526", id := some 1,
       contractValue := some (1 / 1000), lotSize := none, tickSize := none, state := none },
     { contractType := some "put_options", symbol := some "P-BTC-90000-130526", id := some 2,
       contractValue := some (1 / 1000), lotSize := none, tickSize := none,
       state := none }]).upsertQuote
    "P-BTC-95000-130526" { markPrice := some 1500, delta := some (-22 / 100) }).upsertQuote
    "P-BTC-90000-130526" { markPrice := some 100, delta := some (-8 / 100) }

/-- A breakout upwards at 10:00 UTC on 12 May 2026. -/
def breakoutMarket : MarketState :=
  { now := combine (ymdToOrdinal 2026 5 12) (hourMinute 10 0)
    chain := spreadChain
    candlesByTf := fun _ _ => List.replicate 20 { high := 97010, low := 96990, close := 97000 } ++
      [{ high := 97400, low := 97000, close := 97400 }]
    underlyingMarks := fun _ => some 97400
    usdInrRate := 85 }

/-- The credit spread strategy with its shipped values. -/
def shippedCreditVertical : CreditVerticalStrategy := { config := shippedCreditVerticalConfig }

/-- The dry executor on the sample quotes, drawing no slippage. -/
def breakoutEntry : EntryRequest → EntryResult :=
  DryExecutor.submitEntry { chain := spreadChain } (fun _ _ => 0)

/-- The rows it opens on the first intent a credit spread strategy emits there. -/
def breakoutTrade (s : CreditVerticalStrategy) : Option (Trade × List Leg) :=
  match s.evaluate breakoutMarket with
  | .ok (intent :: _, _) =>
    (persistEntryAndExecute breakoutEntry 1 intent
      { decision := .approved, intent := intent, sizedLots := 1 } breakoutMarket none none
      30).toOption
  | _ => none

theorem breakoutTrade_opens (s : CreditVerticalStrategy) (trade : Trade) (legs : List Leg)
    (h : breakoutTrade s = some (trade, legs)) : ∃ intents decisions intent,
    s.evaluate breakoutMarket = .ok (intents, decisions) ∧ intent ∈ intents ∧
      persistEntryAndExecute breakoutEntry 1 intent
        { decision := .approved, intent := intent, sizedLots := 1 } breakoutMarket none none 30 =
        .ok (trade, legs) := by
  unfold breakoutTrade at h
  split at h
  · next intent rest decisions heval =>
    rcases hentry : persistEntryAndExecute _ _ _ _ _ _ _ _ with e | opened
    · rw [hentry] at h
      cases h
    · rw [hentry] at h
      cases h
      exact ⟨intent :: rest, decisions, intent, heval, List.mem_cons_self, hentry⟩
  · cases h

/-- The shipped strategy opens a bull put spread there. -/
theorem breakout_opens : ∃ intents decisions intent position,
    (Strategy.creditVertical shippedCreditVertical).evaluate (fun _ => 0) breakoutMarket =
      .ok (intents, decisions) ∧ intent ∈ intents ∧
      OpenedFrom intent breakoutMarket position := by
  have hrow : (breakoutTrade shippedCreditVertical).map (fun row => (row.1.status, row.1.expiry)) =
      some (.«open», some (stampedExpiry (ymdToOrdinal 2026 5 13))) := by decide +kernel
  rcases Option.map_eq_some_iff.mp hrow with ⟨⟨trade, legs⟩, htrade, hcolumns⟩
  rw [Prod.mk.injEq] at hcolumns
  rcases breakoutTrade_opens shippedCreditVertical trade legs htrade with
    ⟨intents, decisions, intent, heval, hmem, hentry⟩
  rcases tradeToPositionState_open trade legs spreadChain breakoutMarket.now _ hcolumns.2 with
    ⟨position, hview, _⟩
  exact ⟨intents, decisions, intent, position, heval, hmem,
    _, _, _, _, _, _, trade, legs, spreadChain, hentry, hcolumns.1, hview⟩

theorem opened_clear_iff_breakout : ∃ intent position, OpenedFrom intent breakoutMarket position ∧
    (Action.closeFor .forceCloseExpiry ∉
        (Strategy.creditVertical shippedCreditVertical).manage position breakoutMarket ↔
      False) := by
  rcases breakout_opens with ⟨intents, decisions, intent, position, heval, hmem, hopen⟩
  exact ⟨intent, position, hopen, opened_clear_iff (.creditVertical shippedCreditVertical)
    (fun _ => 0) breakoutMarket intents decisions intent position ⟨rfl, rfl⟩ heval hmem hopen⟩

/-- The spread opened at the sample tick is due for its expiry close at once. -/
theorem opened_inside_forced_exit :
    ¬ ∀ (s : Strategy) (npStd : List ℚ → ℚ) (market : MarketState) (intents : List Intent)
      (decisions : List Decision) (intent : Intent) (position : PositionState), s.Shipped →
      s.evaluate npStd market = .ok (intents, decisions) → intent ∈ intents →
      OpenedFrom intent market position →
      Action.closeFor .forceCloseExpiry ∉ s.manage position market := by
  intro hall
  rcases breakout_opens with ⟨intents, decisions, intent, position, heval, hmem, hopen⟩
  rcases mem_evaluateAll _ _ _ _ heval intent hmem with ⟨u, _, d, hd, hi⟩
  exact hall (.creditVertical shippedCreditVertical) (fun _ => 0) breakoutMarket intents decisions
    intent position ⟨rfl, rfl⟩ heval hmem hopen
    (shippedCreditVertical.opened_forced breakoutMarket u d intent position ⟨rfl, rfl⟩ hd hi hopen)

end OptionsBot
