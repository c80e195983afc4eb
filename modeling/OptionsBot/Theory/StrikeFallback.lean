import OptionsBot.Lib.Ladder
import OptionsBot.Theory.RiskBudget

/-!
# The Strike an Entry Falls Back To

The directional entry buys at the money, or else the next strike out of the
money: the next higher one for a call, the next lower one for a put. Two things
come between this and what the code does. The fallback is taken for a missing
price only, so an option at the money whose spread is too wide ends the entry.
And it is the option listed right above, whatever its type, which for a put lies
in the money.

## Main definitions

* `ChainCache.atm`, `ChainCache.nextOut`: The strike at the money, and the next
  one out of it.
* `ChainCache.listedAbove`: The option listed right above the money.
* `DirectionalStrategy.acceptable`: A selection with a price and a fine spread.
* `DirectionalStrategy.strikeWanted`: The selection an entry should be made at.
* `DirectionalStrategy.EnteredAt`: The selection it is made at.

## Theorems

* `enter_acceptable`: An entry is made at what is picked, if acceptable.
* `enteredAt_unique`: It is made at one selection only.
* `enter_right_iff`: When the entry is made at the wanted selection.
* `above_eq_next_call`: With distinct strikes, a call's fallback is the right one.
* `above_ne_next_put`: A put's never is.
-/

namespace OptionsBot

-- The sample runs below compute with rationals.
attribute [local semireducible] Rat.add Rat.sub Rat.mul Rat.inv

namespace ChainCache

variable (chain : ChainCache) (underlying : Underlying) (optionType : OptionType)
  (bucket : ExpiryBucket) (spot : ℚ) (now : DateTime)

/-- An option with its quote, if it has one. -/
def quoted (inst : InstrumentRecord) : Option StrikeSelection :=
  (chain.quotes inst.symbol).map (fun q => { instrument := inst, quote := q })

/-- The option whose strike is closest to the spot price. -/
def atm : Option InstrumentRecord :=
  Ladder.nearest InstrumentRecord.strike spot
    (chain.instrumentsFor underlying optionType bucket now)

/-- The next strike out of the money: above it for a call, below it for a put. -/
def nextOut : Option InstrumentRecord :=
  (chain.atm underlying optionType bucket spot now).bind (fun atm =>
    match optionType with
    | .call => Ladder.above InstrumentRecord.strike atm.strike
        (chain.instrumentsFor underlying optionType bucket now)
    | .put => Ladder.below InstrumentRecord.strike atm.strike
        (chain.instrumentsFor underlying optionType bucket now))

/-- The option listed right above the money. -/
def listedAbove : Option InstrumentRecord :=
  (chain.atm underlying optionType bucket spot now).bind (fun atm =>
    (chain.instrumentsFor underlying optionType bucket now)[
      (chain.instrumentsFor underlying optionType bucket now).findIdx
        (fun inst => inst.symbol = atm.symbol) + 1]?)

theorem getAtmStrike_zero :
    chain.getAtmStrike underlying optionType bucket spot 0 now =
      (chain.atm underlying optionType bucket spot now).bind chain.quoted := by
  unfold getAtmStrike atm Ladder.nearest
  simp only
  cases (chain.instrumentsFor underlying optionType bucket now).insertionSort
      (fun a b => |a.strike - spot| ≤ |b.strike - spot|) with
  | nil => rfl
  | cons a rest => rfl

theorem getAtmStrike_one :
    chain.getAtmStrike underlying optionType bucket spot 1 now =
      (chain.listedAbove underlying optionType bucket spot now).bind chain.quoted := by
  unfold getAtmStrike listedAbove atm Ladder.nearest
  simp only
  cases (chain.instrumentsFor underlying optionType bucket now).insertionSort
      (fun a b => |a.strike - spot| ≤ |b.strike - spot|) with
  | nil => rfl
  | cons a rest =>
      simp only [List.head?_cons, Option.bind_some]
      generalize hitems : chain.instrumentsFor underlying optionType bucket now = items
      generalize hidx : items.findIdx (fun inst => decide (inst.symbol = a.symbol)) = i
      -- Past the end of the list both sides find nothing.
      by_cases hlt : i + 1 < items.length
      · have hnat : ((i : Int) + 1).toNat = i + 1 := by omega
        rw [if_neg (by omega), if_pos (by omega), hnat, List.getElem?_eq_getElem hlt]
        rfl
      · rw [if_neg (by omega), if_neg (by omega), List.getElem?_eq_none (by omega)]
        rfl

theorem instrumentsFor_sorted :
    (chain.instrumentsFor underlying optionType bucket now).Pairwise
      (fun a b => a.strike ≤ b.strike) := by
  have : Std.Total (fun a b : InstrumentRecord => a.strike ≤ b.strike) :=
    ⟨fun _ _ => le_total _ _⟩
  have : IsTrans InstrumentRecord (fun a b => a.strike ≤ b.strike) := ⟨fun _ _ _ => le_trans⟩
  exact List.pairwise_insertionSort _ _

theorem instrumentsFor_distinct :
    ((chain.instrumentsFor underlying optionType bucket now).map
      InstrumentRecord.symbol).Nodup := by
  have hperm := List.perm_insertionSort (fun a b : InstrumentRecord => a.strike ≤ b.strike)
    (chain.instruments.filter (fun inst => inst.isActive ∧ inst.underlying = underlying ∧
      inst.optionType = optionType ∧ bucketForExpiry now inst.expiry = some bucket))
  have hfilter := (List.filter_sublist (l := chain.instruments) (p := fun inst =>
    decide (inst.isActive ∧ inst.underlying = underlying ∧ inst.optionType = optionType ∧
      bucketForExpiry now inst.expiry = some bucket))).map InstrumentRecord.symbol
  exact (hperm.map InstrumentRecord.symbol).nodup_iff.mpr (hfilter.nodup chain.distinct)

/-- The listing around the money. -/
theorem atm_split (atm : InstrumentRecord)
    (h : chain.atm underlying optionType bucket spot now = some atm) :
    ∃ pre post, chain.instrumentsFor underlying optionType bucket now = pre ++ atm :: post ∧
      chain.listedAbove underlying optionType bucket spot now = post.head? := by
  have hmem := Ladder.nearest_mem _ _ _ atm h
  rcases List.append_of_mem hmem with ⟨pre, post, hitems⟩
  refine ⟨pre, post, hitems, ?_⟩
  have hdistinct := chain.instrumentsFor_distinct underlying optionType bucket now
  -- No earlier option has the symbol, so its place is that of the split.
  have hidx : (pre ++ atm :: post).findIdx
      (fun inst => decide (inst.symbol = atm.symbol)) = pre.length := by
    rw [List.findIdx_append, if_neg, List.findIdx_cons]
    · simp only [decide_true, cond_true, Nat.zero_add]
    · rw [List.findIdx_lt_length]
      rintro ⟨x, hx, hsym⟩
      rw [hitems, List.map_append, List.nodup_append] at hdistinct
      exact hdistinct.2.2 x.symbol (List.mem_map_of_mem hx) atm.symbol
        (List.mem_map_of_mem List.mem_cons_self) (of_decide_eq_true hsym)
  rw [listedAbove, h, Option.bind_some, hitems, hidx,
    List.getElem?_append_right (Nat.le_succ _)]
  have hone : pre.length + 1 - pre.length = 1 := by omega
  rw [hone, List.getElem?_cons_succ, List.head?_eq_getElem?]

/-- With distinct strikes, what is listed above the money is the next higher
    strike. -/
theorem listedAbove_call
    (hstrikes : ((chain.instrumentsFor underlying .call bucket now).map
      InstrumentRecord.strike).Nodup) :
    chain.listedAbove underlying .call bucket spot now =
      chain.nextOut underlying .call bucket spot now := by
  rcases hatm : chain.atm underlying .call bucket spot now with _ | atm
  · rw [listedAbove, nextOut, hatm]
    rfl
  · rcases chain.atm_split underlying .call bucket spot now atm hatm with
      ⟨pre, post, hitems, habove⟩
    have hsorted := chain.instrumentsFor_sorted underlying .call bucket now
    -- Sorted and without repetition is strictly sorted.
    have hstrict : (pre ++ atm :: post).Pairwise
        (fun a b : InstrumentRecord => a.strike < b.strike) := by
      rw [← hitems]
      exact (hsorted.and (List.pairwise_map.mp hstrikes)).imp
        (fun h => lt_of_le_of_ne h.1 h.2)
    rw [habove, nextOut, hatm, Option.bind_some, hitems]
    exact (Ladder.above_next InstrumentRecord.strike pre post atm hstrict).symm

/-- What is listed above the money is not the next lower strike. -/
theorem listedAbove_put (a n : InstrumentRecord)
    (ha : chain.listedAbove underlying .put bucket spot now = some a)
    (hn : chain.nextOut underlying .put bucket spot now = some n) : n.strike < a.strike := by
  rcases hatm : chain.atm underlying .put bucket spot now with _ | atm
  · rw [listedAbove, hatm] at ha
    cases ha
  · rcases chain.atm_split underlying .put bucket spot now atm hatm with
      ⟨pre, post, hitems, habove⟩
    have hsorted := chain.instrumentsFor_sorted underlying .put bucket now
    rw [nextOut, hatm, Option.bind_some] at hn
    rcases Ladder.below_greatest InstrumentRecord.strike atm.strike _ n hsorted hn with
      ⟨_, hlt, _⟩
    rw [hitems, List.pairwise_append, List.pairwise_cons] at hsorted
    -- What is listed above is no lower than the money, and the next one out is.
    rw [habove] at ha
    exact hlt.trans_le (hsorted.2.1.1 a (List.mem_of_head? ha))

end ChainCache

namespace DirectionalStrategy

variable (self : DirectionalStrategy)

/-- At the money first, one strike above as the fallback, and no strike by
    delta. -/
structure AtmThenNext (cfg : DirectionalConfig) : Prop where
  primary : cfg.strike.primary = .atm
  fallback : cfg.strike.fallback = .otmPlusOne
  noDelta : cfg.desk.preferDeltaStrike = none

/-- A selection that has a middle price and, if it has a spread, a fine one. -/
def acceptable (sel : Option StrikeSelection) : Option StrikeSelection :=
  sel.filter (fun s => s.quote.mid.isSome ∧ ∀ p ∈ s.quote.spreadPct, p ≤ self.spreadPctMax)

section Selections

variable (market : MarketState) (underlying : Underlying) (optionType : OptionType) (spot : ℚ)

/-- The strike at the money, with its quote. -/
def money : Option StrikeSelection :=
  (market.chain.atm underlying optionType (self.pickExpiryBucket market) spot market.now).bind
    market.chain.quoted

/-- The next strike out of the money, with its quote. -/
def next : Option StrikeSelection :=
  (market.chain.nextOut underlying optionType (self.pickExpiryBucket market) spot market.now).bind
    market.chain.quoted

/-- What is listed right above the money, with its quote. -/
def above : Option StrikeSelection :=
  (market.chain.listedAbove underlying optionType (self.pickExpiryBucket market) spot
    market.now).bind market.chain.quoted

/-- The selection an entry should be made at: the money if it is acceptable, else
    the next strike out of it if that is. -/
def strikeWanted : Option StrikeSelection :=
  (self.acceptable (self.money market underlying optionType spot)).or
    (self.acceptable (self.next market underlying optionType spot))

end Selections

/-- An entry is made at the wanted selection, and not at all without one. -/
def EnteredAt (market : MarketState) (underlying : Underlying) (optionType : OptionType)
    (spot : ℚ) (features : Features) (wanted : Option StrikeSelection) : Prop :=
  match wanted with
  | none => (self.enter market underlying spot optionType features).intent = none
  | some sel => ∃ all, (self.enter market underlying spot optionType features).intent =
      some (self.entryIntent market underlying optionType (self.pickExpiryBucket market) all sel)

theorem acceptable_eq_some (sel : Option StrikeSelection) (s : StrikeSelection) :
    self.acceptable sel = some s ↔ usable sel = some s ∧
      ∀ p, s.quote.spreadPct = some p → p ≤ self.spreadPctMax := by
  rw [acceptable, usable, Option.filter_eq_some_iff, Option.filter_eq_some_iff,
    decide_eq_true_eq]
  exact and_assoc.symm

/-- An entry that volatility does not block is made at what is picked, if that is
    acceptable. -/
theorem enter_acceptable (market : MarketState) (underlying : Underlying)
    (optionType : OptionType) (spot : ℚ) (features : Features)
    (hiv : ivEntryBlocked self.config.desk
      (market.ivPercentile underlying (self.pickExpiryBucket market)) = false) :
    self.EnteredAt market underlying optionType spot features
      (self.acceptable (self.pickEntryStrike market underlying optionType
        (self.pickExpiryBucket market) spot)) := by
  rcases hacc : self.acceptable (self.pickEntryStrike market underlying optionType
    (self.pickExpiryBucket market) spot) with _ | sel
  · -- An intent would have come from an acceptable selection.
    refine Option.eq_none_iff_forall_not_mem.mpr (fun intent hintent => ?_)
    unfold enter at hintent
    simp only [hiv, Bool.false_eq_true, if_false] at hintent
    split at hintent
    · cases hintent
    · next sel husable =>
      split at hintent
      · cases hintent
      · next hspread =>
        have hsome := (self.acceptable_eq_some _ sel).mpr
          ⟨husable, fun p hp => not_lt.mp (fun hlt => hspread ⟨p, hp, hlt⟩)⟩
        rw [hacc] at hsome
        cases hsome
  · rcases (self.acceptable_eq_some _ sel).mp hacc with ⟨husable, hspread⟩
    rcases self.enter_passes market underlying spot optionType features sel hiv husable hspread with
      ⟨all, _, hintent⟩
    exact ⟨all, hintent⟩

/-- A selection is one of the chain's, as listed and as quoted there. -/
def OfChain (chain : ChainCache) (sel : Option StrikeSelection) : Prop :=
  ∀ s, sel = some s →
    s.instrument ∈ chain.instruments ∧ chain.quotes s.instrument.symbol = some s.quote

theorem ofChain_quoted (chain : ChainCache) (inst : Option InstrumentRecord)
    (h : ∀ i, inst = some i → i ∈ chain.instruments) : OfChain chain (inst.bind chain.quoted) := by
  intro s hs
  rcases Option.bind_eq_some_iff.mp hs with ⟨i, hi, hq⟩
  rcases Option.map_eq_some_iff.mp hq with ⟨q, hquote, rfl⟩
  exact ⟨h i hi, hquote⟩

theorem ofChain_acceptable (chain : ChainCache) (sel : Option StrikeSelection)
    (h : OfChain chain sel) : OfChain chain (self.acceptable sel) :=
  fun s hs => h s (Option.filter_eq_some_iff.mp hs).1

/-- Of the chain's selections, an entry is made at one only. -/
theorem enteredAt_unique (market : MarketState) (underlying : Underlying)
    (optionType : OptionType) (spot : ℚ) (features : Features) (x w : Option StrikeSelection)
    (hx : OfChain market.chain x) (hw : OfChain market.chain w)
    (hentered : self.EnteredAt market underlying optionType spot features x) :
    self.EnteredAt market underlying optionType spot features w ↔ x = w := by
  refine ⟨fun hwanted => ?_, fun heq => heq ▸ hentered⟩
  -- Only two selections at two different options need an argument.
  cases x with
  | none =>
      cases w with
      | none => rfl
      | some b =>
          rcases hwanted with ⟨all, hb⟩
          rw [EnteredAt] at hentered
          rw [hentered] at hb
          cases hb
  | some a =>
      rcases hentered with ⟨all, ha⟩
      cases w with
      | none =>
          rw [EnteredAt, ha] at hwanted
          cases hwanted
      | some b =>
          rcases hwanted with ⟨all', hb⟩
          rw [ha, Option.some.injEq] at hb
          -- The leg carries the symbol, and the symbol is that of one option only.
          have hlegs := congrArg (fun intent => intent.legs.map LegIntent.symbol) hb
          have hsym : a.instrument.symbol = b.instrument.symbol := (List.cons.inj hlegs).1
          rcases hx a rfl with ⟨hain, haq⟩
          rcases hw b rfl with ⟨hbin, hbq⟩
          have hinst : a.instrument = b.instrument :=
            List.inj_on_of_nodup_map market.chain.distinct hain hbin hsym
          rw [hsym, hbq, Option.some.injEq] at haq
          rcases a with ⟨ai, aq⟩
          rcases b with ⟨bi, bq⟩
          simp only at hinst haq
          rw [hinst, haq]

theorem pickEntryStrike_atmThenNext (market : MarketState) (underlying : Underlying)
    (optionType : OptionType) (spot : ℚ) (hmode : AtmThenNext self.config) :
    self.pickEntryStrike market underlying optionType (self.pickExpiryBucket market) spot =
      (usable (self.money market underlying optionType spot)).or
        (self.above market underlying optionType spot) := by
  unfold pickEntryStrike money above
  simp only [hmode.noDelta, hmode.primary, hmode.fallback, strikeForMode, selectStrike,
    ChainCache.getAtmStrike_zero, ChainCache.getAtmStrike_one]
  cases usable ((market.chain.atm underlying optionType (self.pickExpiryBucket market) spot
    market.now).bind market.chain.quoted) <;> rfl

theorem money_ofChain (market : MarketState) (underlying : Underlying) (optionType : OptionType)
    (spot : ℚ) : OfChain market.chain (self.money market underlying optionType spot) := by
  refine ofChain_quoted market.chain _ (fun i hi => ?_)
  have hmem := Ladder.nearest_mem _ _ _ i hi
  exact ((market.chain.mem_instrumentsFor underlying optionType _ market.now i).mp hmem).1

theorem above_ofChain (market : MarketState) (underlying : Underlying) (optionType : OptionType)
    (spot : ℚ) : OfChain market.chain (self.above market underlying optionType spot) := by
  refine ofChain_quoted market.chain _ (fun i hi => ?_)
  rcases Option.bind_eq_some_iff.mp hi with ⟨atm, _, hget⟩
  have hmem := List.mem_of_getElem? hget
  exact ((market.chain.mem_instrumentsFor underlying optionType _ market.now i).mp hmem).1

theorem next_ofChain (market : MarketState) (underlying : Underlying) (optionType : OptionType)
    (spot : ℚ) : OfChain market.chain (self.next market underlying optionType spot) := by
  refine ofChain_quoted market.chain _ (fun i hi => ?_)
  rcases Option.bind_eq_some_iff.mp hi with ⟨atm, _, hnext⟩
  have hmem : i ∈ market.chain.instrumentsFor underlying optionType
      (self.pickExpiryBucket market) market.now := by
    cases optionType with
    | call => exact List.mem_of_find?_eq_some hnext
    | put => exact List.mem_reverse.mp (List.mem_of_find?_eq_some hnext)
  exact ((market.chain.mem_instrumentsFor underlying optionType _ market.now i).mp hmem).1

/-- A selection without a price is not acceptable. -/
theorem acceptable_of_unusable (sel : Option StrikeSelection) (h : usable sel = none) :
    self.acceptable sel = none := by
  refine Option.eq_none_iff_forall_not_mem.mpr (fun s hs => ?_)
  have husable := ((self.acceptable_eq_some sel s).mp hs).1
  rw [h] at husable
  cases husable

/-- The entry is made at the wanted strike exactly in three cases: the money is
    acceptable; it has a price but too wide a spread, and the next strike out is
    not acceptable; or it has no price, and what is listed right above it is the
    next strike out, or neither of those two is acceptable. -/
theorem enter_right_iff (market : MarketState) (underlying : Underlying)
    (optionType : OptionType) (spot : ℚ) (features : Features) (hmode : AtmThenNext self.config)
    (hiv : ivEntryBlocked self.config.desk
      (market.ivPercentile underlying (self.pickExpiryBucket market)) = false) :
    self.EnteredAt market underlying optionType spot features
        (self.strikeWanted market underlying optionType spot) ↔
      self.acceptable (self.money market underlying optionType spot) ≠ none ∨
        (usable (self.money market underlying optionType spot) ≠ none ∧
          self.acceptable (self.next market underlying optionType spot) = none) ∨
        (usable (self.money market underlying optionType spot) = none ∧
          self.acceptable (self.above market underlying optionType spot) =
            self.acceptable (self.next market underlying optionType spot)) := by
  have hentered := self.enter_acceptable market underlying optionType spot features hiv
  rw [self.pickEntryStrike_atmThenNext market underlying optionType spot hmode] at hentered
  have hmoney := self.ofChain_acceptable _ _ (self.money_ofChain market underlying optionType spot)
  have hnext := self.ofChain_acceptable _ _ (self.next_ofChain market underlying optionType spot)
  have habove := self.ofChain_acceptable _ _
    (self.above_ofChain market underlying optionType spot)
  have hwanted : OfChain market.chain (self.strikeWanted market underlying optionType spot) := by
    intro s hs
    rcases Option.or_eq_some_iff.mp hs with h | ⟨_, h⟩
    · exact hmoney s h
    · exact hnext s h
  rcases husable : usable (self.money market underlying optionType spot) with _ | s
  · -- No price at the money: it is the fallback that is tried.
    have hnone := self.acceptable_of_unusable _ husable
    rw [husable, Option.none_or] at hentered
    rw [self.enteredAt_unique market underlying optionType spot features _ _ habove hwanted
      hentered, strikeWanted, hnone, Option.none_or]
    simp only [ne_eq, not_true_eq_false, false_and, false_or, true_and]
  · -- A price at the money: nothing else is tried.
    rw [husable, Option.some_or, ← (usable_eq_some _ s husable).1] at hentered
    rw [self.enteredAt_unique market underlying optionType spot features _ _ hmoney hwanted
      hentered, strikeWanted]
    cases self.acceptable (self.money market underlying optionType spot) with
    | none =>
        simp only [Option.none_or, ne_eq, not_true_eq_false, reduceCtorEq, not_false_eq_true,
          true_and, false_and, or_false, false_or]
        exact eq_comm
    | some t => simp only [Option.some_or, ne_eq, reduceCtorEq, not_false_eq_true, true_or]

/-- With distinct strikes, a call falls back to the next strike out. -/
theorem above_eq_next_call (market : MarketState) (underlying : Underlying) (spot : ℚ)
    (hstrikes : ((market.chain.instrumentsFor underlying .call (self.pickExpiryBucket market)
      market.now).map InstrumentRecord.strike).Nodup) :
    self.above market underlying .call spot = self.next market underlying .call spot := by
  rw [above, next, market.chain.listedAbove_call underlying _ spot market.now hstrikes]

/-- A put never does: the two agree only if neither is acceptable. -/
theorem above_ne_next_put (market : MarketState) (underlying : Underlying) (spot : ℚ) :
    self.acceptable (self.above market underlying .put spot) =
        self.acceptable (self.next market underlying .put spot) ↔
      self.acceptable (self.above market underlying .put spot) = none ∧
        self.acceptable (self.next market underlying .put spot) = none := by
  refine ⟨fun h => ?_, fun h => h.1.trans h.2.symm⟩
  rcases habove : self.acceptable (self.above market underlying .put spot) with _ | s
  · exact ⟨rfl, h.symm.trans habove⟩
  · -- One option cannot be on both sides of the money.
    rw [habove] at h
    have ha := (Option.filter_eq_some_iff.mp habove).1
    have hn := (Option.filter_eq_some_iff.mp h.symm).1
    rcases Option.bind_eq_some_iff.mp ha with ⟨a, hlisted, hqa⟩
    rcases Option.bind_eq_some_iff.mp hn with ⟨n, hout, hqn⟩
    have hlt := market.chain.listedAbove_put underlying _ spot market.now a n hlisted hout
    rcases Option.map_eq_some_iff.mp hqa with ⟨qa, _, rfl⟩
    rcases Option.map_eq_some_iff.mp hqn with ⟨qn, _, hs⟩
    cases hs
    exact absurd hlt (lt_irrefl _)

/-- Two calls of the picked bucket: the one at the money quoted with a spread of
    two thirds, the next one out marked at 50. -/
def wideMarket : MarketState :=
  { callMarket with
    chain := ((ChainCache.empty.refreshInstruments
      [{ contractType := some "call_options", symbol := some "C-BTC-97000-130526", id := some 1,
         contractValue := some (1 / 1000), lotSize := none, tickSize := none, state := none },
       { contractType := some "call_options", symbol := some "C-BTC-98000-130526", id := some 2,
         contractValue := some (1 / 1000), lotSize := none, tickSize := none,
         state := none }]).upsertQuote
      "C-BTC-97000-130526" { bid := some 100, ask := some 200 }).upsertQuote
      "C-BTC-98000-130526" { markPrice := some 50 } }

/-- The directional strategy with its shipped values. -/
def shippedDirectional : DirectionalStrategy := { config := shippedDirectionalConfig }

/-- What is at the money has a price and too wide a spread, and the next strike out is acceptable,
    so the entry is not the one that is wanted. -/
theorem enter_right_iff_wide :
    ¬ shippedDirectional.EnteredAt wideMarket .btc .call 97000 []
      (shippedDirectional.strikeWanted wideMarket .btc .call 97000) := by
  have hmoney : (shippedDirectional.acceptable
      (shippedDirectional.money wideMarket .btc .call 97000)).isNone = true := by decide
  have hprice : (usable (shippedDirectional.money wideMarket .btc .call 97000)).isSome = true := by
    decide
  have hnext : (shippedDirectional.acceptable
      (shippedDirectional.next wideMarket .btc .call 97000)).isSome = true := by decide
  rw [enter_right_iff shippedDirectional wideMarket .btc .call 97000 [] ⟨rfl, rfl, rfl⟩ rfl]
  rintro (hok | ⟨_, hnone⟩ | ⟨hnone, _⟩)
  · exact hok (Option.isNone_iff_eq_none.mp hmoney)
  · rw [hnone] at hnext
    cases hnext
  · rw [hnone] at hprice
    cases hprice

/-- The wide spread at the money ends the entry, with the next strike out
    acceptable. -/
theorem enter_gives_up : ¬ ∀ (self : DirectionalStrategy) (market : MarketState)
    (underlying : Underlying) (optionType : OptionType) (spot : ℚ) (features : Features),
    AtmThenNext self.config →
    ivEntryBlocked self.config.desk
      (market.ivPercentile underlying (self.pickExpiryBucket market)) = false →
    self.EnteredAt market underlying optionType spot features
      (self.strikeWanted market underlying optionType spot) := by
  intro hall
  have hright := hall shippedDirectional wideMarket .btc .call 97000 [] ⟨rfl, rfl, rfl⟩ rfl
  have hwanted : (shippedDirectional.strikeWanted wideMarket .btc .call 97000).isSome = true := by
    decide
  have hnone : (shippedDirectional.enter wideMarket .btc 97000 .call []).intent.isNone = true := by
    decide
  rcases Option.isSome_iff_exists.mp hwanted with ⟨sel, hsel⟩
  rw [hsel] at hright
  rcases hright with ⟨all, hintent⟩
  rw [hintent] at hnone
  cases hnone

end DirectionalStrategy

end OptionsBot
