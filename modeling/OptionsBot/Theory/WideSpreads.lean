import OptionsBot.Theory.ForcedExit

/-!
# How Wide a Quote May Be

An intent carries a limit on the spread of its legs, and the request for its
entry carries it on. A leg is within the limit when its quote has both sides and
the distance between them is at most that share of the middle.

The limit is tested in one of the three strategies, and only where there is
something to test. A quote with one side has no spread, and the directional
strategy takes its mark for the middle and lets it pass. The other two never
look at the sides, and no executor reads the limit. So an option that is bought
alone is within it if its quote has both sides, and a leg of the others if it
happens to be.

## Main definitions

* `LegsTight`: Every leg has a quote within a limit.
* `TightIntent`: So have the legs of an intent, and of its request.
* `TwoSided`, `QuoteAllows`: What a quote has to bring with it.

## Theorems

* `spreadPct_eq_some_iff`: When a quote has a spread.
* `DirectionalStrategy.emitted`, `CreditVerticalStrategy.emitted`,
  `LongStraddleStrategy.emitted`: The quotes of an emitted intent.
* `tightIntent_iff`: Exactly when an emitted intent is within its limit.
-/

namespace OptionsBot

/-- Every leg has a quote in the chain whose spread is within the limit. -/
def LegsTight (market : MarketState) (legs : List LegIntent) (spreadPctMax : ℚ) : Prop :=
  ∀ leg ∈ legs, ∃ q s, market.chain.getQuote leg.symbol = some q ∧ q.spreadPct = some s ∧
    s ≤ spreadPctMax

/-- The legs of the intent are within its limit, and so are those of any request made of it. -/
structure TightIntent (market : MarketState) (intent : Intent) : Prop where
  legs : LegsTight market intent.legs intent.spreadPctMax
  sent : ∀ tradeId sizing makerTimeoutSeconds,
    LegsTight market (entryRequest tradeId intent sizing makerTimeoutSeconds).legs
      (entryRequest tradeId intent sizing makerTimeoutSeconds).spreadPctMax

/-- A quote with both sides and a positive middle. -/
def TwoSided (q : QuoteSnapshot) : Prop :=
  ∃ bid ask mid, q.bid = some bid ∧ q.ask = some ask ∧ q.mid = some mid ∧ 0 < mid

/-- What a quote has to bring with it: both sides where its spread is tested, and sides that are
    within eight percent of the middle where it is not. -/
def QuoteAllows (q : QuoteSnapshot) : Strategy → Prop
  | .directional _ => TwoSided q
  | _ => ∃ bid ask mid, q.bid = some bid ∧ q.ask = some ask ∧ q.mid = some mid ∧ 0 < mid ∧
      ask - bid ≤ 8 / 100 * mid

section Quotes

variable (q : QuoteSnapshot)

theorem spreadPct_eq_some_iff (s : ℚ) : q.spreadPct = some s ↔
    ∃ bid ask mid, q.bid = some bid ∧ q.ask = some ask ∧ q.mid = some mid ∧ 0 < mid ∧
      s = (ask - bid) / mid := by
  unfold QuoteSnapshot.spreadPct
  constructor
  · intro h
    split at h
    · next mid bid ask hmid hbid hask =>
      split_ifs at h with hpos
      cases h
      exact ⟨bid, ask, mid, hbid, hask, hmid, not_le.mp hpos, rfl⟩
    · cases h
  · rintro ⟨bid, ask, mid, hbid, hask, hmid, hpos, rfl⟩
    rw [hmid, hbid, hask]
    exact if_neg (not_le.mpr hpos)

/-- A quote is within a limit that has been tested if it has both sides. -/
theorem tested_iff (limit : ℚ) (h : ∀ s, q.spreadPct = some s → s ≤ limit) :
    (∃ s, q.spreadPct = some s ∧ s ≤ limit) ↔ TwoSided q := by
  constructor
  · rintro ⟨s, hs, _⟩
    rcases (spreadPct_eq_some_iff q s).mp hs with ⟨bid, ask, mid, hbid, hask, hmid, hpos, _⟩
    exact ⟨bid, ask, mid, hbid, hask, hmid, hpos⟩
  · rintro ⟨bid, ask, mid, hbid, hask, hmid, hpos⟩
    have hs := (spreadPct_eq_some_iff q ((ask - bid) / mid)).mpr
      ⟨bid, ask, mid, hbid, hask, hmid, hpos, rfl⟩
    exact ⟨_, hs, h _ hs⟩

/-- A quote is within a limit if its sides are, whether or not that has been tested. -/
theorem untested_iff (limit : ℚ) : (∃ s, q.spreadPct = some s ∧ s ≤ limit) ↔
    ∃ bid ask mid, q.bid = some bid ∧ q.ask = some ask ∧ q.mid = some mid ∧ 0 < mid ∧
      ask - bid ≤ limit * mid := by
  constructor
  · rintro ⟨s, hs, hle⟩
    rcases (spreadPct_eq_some_iff q s).mp hs with ⟨bid, ask, mid, hbid, hask, hmid, hpos, rfl⟩
    exact ⟨bid, ask, mid, hbid, hask, hmid, hpos, (div_le_iff₀ hpos).mp hle⟩
  · rintro ⟨bid, ask, mid, hbid, hask, hmid, hpos, hle⟩
    exact ⟨_, (spreadPct_eq_some_iff q _).mpr ⟨bid, ask, mid, hbid, hask, hmid, hpos, rfl⟩,
      (div_le_iff₀ hpos).mpr hle⟩

end Quotes

section Emitted

variable (market : MarketState) (underlying : Underlying) (d : Decision) (intent : Intent)

/-- The one leg of a directional intent has a quote whose spread is within the limit, if it has
    one. -/
theorem DirectionalStrategy.emitted (self : DirectionalStrategy)
    (h : self.evaluateOne market underlying = .ok d) (hi : d.intent = some intent) :
    ∀ leg ∈ intent.legs, ∃ q, market.chain.getQuote leg.symbol = some q ∧
      ∀ s, q.spreadPct = some s → s ≤ intent.spreadPctMax := by
  rcases self.evaluateOne_enter market underlying d intent h hi with
    ⟨_, spot, optionType, features, henter⟩
  rcases self.enter_tested market underlying spot optionType features intent henter with
    ⟨all, sel, hquote, htested, rfl⟩
  intro leg hleg
  cases List.mem_singleton.mp hleg
  exact ⟨sel.quote, hquote, htested⟩

/-- The legs of a spread have quotes, and the limit is the default. -/
theorem CreditVerticalStrategy.emitted (self : CreditVerticalStrategy)
    (h : self.evaluateOne market underlying = .ok d) (hi : d.intent = some intent) :
    intent.spreadPctMax = 8 / 100 ∧
      ∀ leg ∈ intent.legs, ∃ q, market.chain.getQuote leg.symbol = some q := by
  rcases self.evaluateOne_enter market underlying d intent h hi with ⟨optionType, features, henter⟩
  rcases self.enter_picked market underlying optionType features intent henter with
    ⟨short, long, hpick, hlegs, hlimit⟩
  rcases self.pickStrikes_quote market underlying optionType short long hpick with
    ⟨hshort, hlong⟩
  refine ⟨hlimit, fun leg hleg => ?_⟩
  rw [hlegs] at hleg
  cases optionType with
  | put =>
      rcases List.mem_pair.mp hleg with rfl | rfl
      · exact ⟨_, hlong⟩
      · exact ⟨_, hshort⟩
  | call =>
      rcases List.mem_pair.mp hleg with rfl | rfl
      · exact ⟨_, hshort⟩
      · exact ⟨_, hlong⟩

/-- The legs of a straddle have quotes, and the limit is the default. -/
theorem LongStraddleStrategy.emitted (self : LongStraddleStrategy) (npStd : List ℚ → ℚ)
    (h : self.evaluateOne npStd market underlying = .ok d) (hi : d.intent = some intent) :
    intent.spreadPctMax = 8 / 100 ∧
      ∀ leg ∈ intent.legs, ∃ q, market.chain.getQuote leg.symbol = some q := by
  rcases self.evaluateOne_intent npStd market underlying d intent h hi with
    ⟨spot, bucket, all, call, put, callMid, putMid, _, hpick, _, _, rfl⟩
  rcases self.pickBucketLegs_quote market underlying spot bucket call put hpick with ⟨hcall, hput⟩
  refine ⟨rfl, fun leg hleg => ?_⟩
  rcases List.mem_pair.mp hleg with rfl | rfl
  · exact ⟨_, hcall⟩
  · exact ⟨_, hput⟩

end Emitted

/-- Whatever the market, an emitted intent and its request are within their limit exactly when the
    quotes of its legs have both sides at a positive middle and, where the strategy is not the
    directional one, these are within eight percent of it. -/
theorem tightIntent_iff (s : Strategy) (npStd : List ℚ → ℚ) (market : MarketState)
    (intents : List Intent) (decisions : List Decision) (intent : Intent)
    (heval : s.evaluate npStd market = .ok (intents, decisions)) (hmem : intent ∈ intents) :
    TightIntent market intent ↔ ∀ leg ∈ intent.legs, ∀ q,
      market.chain.getQuote leg.symbol = some q → QuoteAllows q s := by
  have hlegs : TightIntent market intent ↔ LegsTight market intent.legs intent.spreadPctMax :=
    ⟨fun h => h.legs, fun h => ⟨h, fun _ _ _ => h⟩⟩
  -- Per leg, its quote is within the limit exactly when it allows for it.
  have hleg : ∀ leg ∈ intent.legs, ∃ q, market.chain.getQuote leg.symbol = some q ∧
      ((∃ x, q.spreadPct = some x ∧ x ≤ intent.spreadPctMax) ↔ QuoteAllows q s) := by
    cases s with
    | directional self =>
        rcases mem_evaluateAll _ _ _ _ heval intent hmem with ⟨u, _, d, hd, hi⟩
        intro leg hleg
        rcases self.emitted market u d intent hd hi leg hleg with ⟨q, hq, htested⟩
        exact ⟨q, hq, tested_iff q _ htested⟩
    | creditVertical self =>
        rcases mem_evaluateAll _ _ _ _ heval intent hmem with ⟨u, _, d, hd, hi⟩
        rcases self.emitted market u d intent hd hi with ⟨hlimit, hquoted⟩
        intro leg hleg
        rcases hquoted leg hleg with ⟨q, hq⟩
        rw [hlimit]
        exact ⟨q, hq, untested_iff q _⟩
    | longStraddle self =>
        rcases mem_evaluateAll _ _ _ _ heval intent hmem with ⟨u, _, d, hd, hi⟩
        rcases self.emitted market u d intent npStd hd hi with ⟨hlimit, hquoted⟩
        intro leg hleg
        rcases hquoted leg hleg with ⟨q, hq⟩
        rw [hlimit]
        exact ⟨q, hq, untested_iff q _⟩
  rw [hlegs]
  constructor
  · intro htight leg hmem' q hq
    rcases hleg leg hmem' with ⟨q', hq', hiff⟩
    rw [hq] at hq'
    cases hq'
    rcases htight leg hmem' with ⟨q'', x, hq'', hx⟩
    rw [hq] at hq''
    cases hq''
    exact hiff.mp ⟨x, hx⟩
  · intro hallows leg hmem'
    rcases hleg leg hmem' with ⟨q, hq, hiff⟩
    rcases hiff.mpr (hallows leg hmem' q hq) with ⟨x, hx⟩
    exact ⟨q, x, hq, hx⟩

/-- Nothing of the sample chain has a side, only marks. -/
theorem spreadChain_sides (symbol : String) (q : QuoteSnapshot)
    (h : spreadChain.getQuote symbol = some q) : q.bid = none := by
  unfold spreadChain ChainCache.getQuote ChainCache.upsertQuote at h
  simp only at h
  split_ifs at h
  · cases h
    rfl
  · cases h
    rfl
  · cases h

/-- What a position was opened from has a leg. -/
theorem openedFrom_leg (intent : Intent) (market : MarketState) (position : PositionState)
    (h : OpenedFrom intent market position) : ∃ leg, leg ∈ intent.legs := by
  rcases h with ⟨execute, tradeId, sizing, quoteFor, chain, timeout, trade, legs, _, hentry, _⟩
  rcases persistEntryAndExecute_ok _ _ _ _ _ _ _ _ _ hentry with ⟨first, rest, hlegs, _⟩
  exact ⟨first, by rw [hlegs]; exact List.mem_cons_self⟩

/-- The spread that is sold there is not tight, since no quote of it brings a side. -/
theorem tightIntent_iff_breakout : ∃ intents decisions intent,
    (Strategy.creditVertical shippedCreditVertical).evaluate (fun _ => 0) breakoutMarket =
      .ok (intents, decisions) ∧ intent ∈ intents ∧ ¬ TightIntent breakoutMarket intent := by
  rcases breakout_opens with ⟨intents, decisions, intent, position, heval, hmem, hopen⟩
  refine ⟨intents, decisions, intent, heval, hmem, fun htight => ?_⟩
  have hallows := (tightIntent_iff (.creditVertical shippedCreditVertical) (fun _ => 0)
    breakoutMarket intents decisions intent heval hmem).mp htight
  rcases openedFrom_leg intent breakoutMarket position hopen with ⟨leg, hleg⟩
  rcases htight.legs leg hleg with ⟨q, _, hq, _, _⟩
  rcases hallows leg hleg q hq with ⟨bid, _, _, hbid, _⟩
  rw [spreadChain_sides leg.symbol q hq] at hbid
  cases hbid

/-- The shipped strategy sells a spread there whose legs have no quote but their mark, and the
    request for it is filled. -/
theorem unquoted_spread_sent : ∃ intents decisions intent position,
    (Strategy.creditVertical shippedCreditVertical).evaluate (fun _ => 0) breakoutMarket =
      .ok (intents, decisions) ∧ intent ∈ intents ∧
      OpenedFrom intent breakoutMarket position ∧ ¬ TightIntent breakoutMarket intent := by
  rcases breakout_opens with ⟨intents, decisions, intent, position, heval, hmem, hopen⟩
  refine ⟨intents, decisions, intent, position, heval, hmem, hopen, fun htight => ?_⟩
  rcases openedFrom_leg intent breakoutMarket position hopen with ⟨leg, hleg⟩
  rcases htight.legs leg hleg with ⟨q, s, hq, hs, _⟩
  rcases (spreadPct_eq_some_iff q s).mp hs with ⟨bid, _, _, hbid, _⟩
  rw [spreadChain_sides leg.symbol q hq] at hbid
  cases hbid

end OptionsBot
