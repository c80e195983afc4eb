import Mathlib.Data.List.Dedup
import OptionsBot.Core.PortfolioGreeks

/-!
# Whether the Greeks of the Book Add Up

The greeks of the book should be sums: under each underlying the sum over the quoted
legs of its trades, in all the sum over the underlyings, and in whatever order the
trades and the legs of a trade come.

The totals are such sums. The rows of the underlyings are not: a trade shows in its row
with its last contributing leg only. What is lost are the earlier legs of each trade,
so the rows are right just when those cancel out under every underlying, and the order
does not matter just when the legs of a trade all contribute the same.

## Main definitions

* `legTerm`: What a leg should add.
* `Reordered`, `SameBook`: Another order of the trades and legs, and the same view.
* `BookAdditive`: The greeks of the book are sums.
* `LegsAgree`, `EarlierCancel`: When they are.

## Theorems

* `fromOpenTrades_reordered`: When the legs of each trade agree, the order does not
  matter.
* `bookAdditive_iff`: Exactly when the greeks of the book add up.
* `bookAdditive_of_single`: One contributing leg per trade is enough.
-/

namespace OptionsBot

section Spec

variable (rows : List (Trade × List Leg)) (quoteFor : String → Option QuoteSnapshot)
  (chain : Option ChainCache)

/-- What a leg of a trade should add: side, lots and contract size times each greek of
    its quote. -/
def legTerm (trade : Trade) (leg : Leg) : UnderlyingGreeks :=
  match quoteFor leg.symbol with
  | none => 0
  | some quote =>
    let lots : ℚ := if leg.lots ≠ 0 then leg.lots else trade.lots
    let size := leg.side.sign * lots * contractMultiplier chain leg.symbol
    { delta := size * quote.delta.getD 0
      gamma := size * quote.gamma.getD 0
      theta := size * quote.theta.getD 0
      vega := size * quote.vega.getD 0 }

/-- The sum over the legs of a trade. -/
def tradeTerm (row : Trade × List Leg) : UnderlyingGreeks :=
  (row.2.map (legTerm quoteFor chain row.1)).sum

/-- The same trades with the same legs, in another order. -/
def Reordered (rows' : List (Trade × List Leg)) : Prop :=
  ∃ middle, rows.Perm middle ∧
    List.Forall₂ (fun row row' => row'.1 = row.1 ∧ row.2.Perm row'.2) middle rows'

/-- Two views that show the same totals, counts and rows. -/
def SameBook (book book' : PortfolioGreeks) : Prop :=
  book.totals = book'.totals ∧ book.legsWithGreeks = book'.legsWithGreeks ∧
    book.legsMissingGreeks = book'.legsMissingGreeks ∧
    ∀ u, KeyedSum.amountAt u book.byUnderlying = KeyedSum.amountAt u book'.byUnderlying

/-- The greeks of the book are sums. -/
def BookAdditive : Prop :=
  let book := PortfolioGreeks.fromOpenTrades rows quoteFor chain
  (∀ u, book.forUnderlying u =
      KeyedSum.sumAt (fun row => row.1.underlying) (tradeTerm quoteFor chain) u rows) ∧
    book.totals = (book.byUnderlying.map Prod.snd).sum ∧
    ∀ rows', Reordered rows rows' →
      SameBook (PortfolioGreeks.fromOpenTrades rows' quoteFor chain) book

/-- The legs of a trade that contribute all contribute the same. -/
def LegsAgree : Prop :=
  ∀ row ∈ rows, ∀ c ∈ contributions quoteFor chain row, ∀ c' ∈ contributions quoteFor chain row,
    c = c'

/-- What all but the last contributing leg of each trade contribute cancels out under
    every underlying. -/
def EarlierCancel : Prop :=
  ∀ u, KeyedSum.sumAt (fun row => row.1.underlying) (earlierContributions quoteFor chain) u rows = 0

end Spec

section Terms

variable (quoteFor : String → Option QuoteSnapshot) (chain : Option ChainCache)

/-- A leg that contributes nothing has a term of zero. -/
theorem contribution_getD (trade : Trade) (leg : Leg) :
    (contribution quoteFor chain trade leg).getD 0 = legTerm quoteFor chain trade leg := by
  unfold contribution legTerm legGreeks
  rcases quoteFor leg.symbol with _ | quote
  · rfl
  · simp only [Option.bind_some]
    split
    · next hnone =>
      rcases hnone with ⟨hdelta, hgamma, htheta, hvega⟩
      rw [Option.isNone_iff_eq_none] at hdelta hgamma htheta hvega
      simp only [hdelta, hgamma, htheta, hvega, Option.getD_none, mul_zero]
      rfl
    · rfl

/-- The contributions of a trade add up to its term. -/
theorem contributions_sum (row : Trade × List Leg) :
    (contributions quoteFor chain row).sum = tradeTerm quoteFor chain row := by
  unfold contributions tradeTerm
  generalize row.2 = legs
  induction legs with
  | nil => rfl
  | cons leg rest ih =>
      rw [List.map_cons, List.sum_cons, ← ih, ← contribution_getD]
      rcases hleg : contribution quoteFor chain row.1 leg with _ | c
      · rw [List.filterMap_cons_none hleg, Option.getD_none, zero_add]
      · rw [List.filterMap_cons_some hleg, List.sum_cons, Option.getD_some]

end Terms

section Order

variable {rows rows' : List (Trade × List Leg)} {quoteFor : String → Option QuoteSnapshot}
  {chain : Option ChainCache}

/-- What the view keeps of a trade. -/
def bookProfile (quoteFor : String → Option QuoteSnapshot) (chain : Option ChainCache)
    (row : Trade × List Leg) : Underlying × UnderlyingGreeks × UnderlyingGreeks × Nat × Nat :=
  (row.1.underlying, lastContribution quoteFor chain row, (contributions quoteFor chain row).sum,
    (contributions quoteFor chain row).length, row.2.length)

/-- The view depends on the profiles of the trades only, in any order. -/
theorem sameBook_of_profiles
    (h : (rows.map (bookProfile quoteFor chain)).Perm (rows'.map (bookProfile quoteFor chain))) :
    SameBook (PortfolioGreeks.fromOpenTrades rows quoteFor chain)
      (PortfolioGreeks.fromOpenTrades rows' quoteFor chain) := by
  have hsum : ∀ {M : Type} [AddCommMonoid M]
      (f : Underlying × UnderlyingGreeks × UnderlyingGreeks × Nat × Nat → M),
      (rows.map (fun row => f (bookProfile quoteFor chain row))).sum =
        (rows'.map (fun row => f (bookProfile quoteFor chain row))).sum := by
    intro M _ f
    have hf := (h.map f).sum_eq
    rwa [List.map_map, List.map_map] at hf
  rcases PortfolioGreeks.fromOpenTrades_counts rows quoteFor chain with ⟨hwith, hlegs⟩
  rcases PortfolioGreeks.fromOpenTrades_counts rows' quoteFor chain with ⟨hwith', hlegs'⟩
  have hcount : (PortfolioGreeks.fromOpenTrades rows quoteFor chain).legsWithGreeks =
      (PortfolioGreeks.fromOpenTrades rows' quoteFor chain).legsWithGreeks := by
    rw [hwith, hwith']
    exact hsum (fun p => p.2.2.2.1)
  refine ⟨?_, hcount, ?_, fun u => ?_⟩
  · rw [PortfolioGreeks.fromOpenTrades_totals, PortfolioGreeks.fromOpenTrades_totals]
    exact hsum (fun p => p.2.2.1)
  · have hall : (rows.map (fun row => row.2.length)).sum =
        (rows'.map (fun row => row.2.length)).sum := hsum (fun p => p.2.2.2.2)
    omega
  · have hkey : (∃ row ∈ rows, row.1.underlying = u) ↔ ∃ row ∈ rows', row.1.underlying = u := by
      have hmem := (h.map Prod.fst).mem_iff (a := u)
      simp only [List.map_map, List.mem_map, Function.comp_apply, bookProfile] at hmem
      exact hmem
    have hat : KeyedSum.sumAt (fun row => row.1.underlying) (lastContribution quoteFor chain) u
        rows = KeyedSum.sumAt (fun row => row.1.underlying) (lastContribution quoteFor chain) u
          rows' := by
      have hperm := KeyedSum.sumAt_perm (fun p : Underlying × UnderlyingGreeks ×
        UnderlyingGreeks × Nat × Nat => p.1) (fun p => p.2.1) u h
      unfold KeyedSum.sumAt at hperm ⊢
      rwa [List.filter_map, List.filter_map, List.map_map, List.map_map] at hperm
    rw [PortfolioGreeks.fromOpenTrades_at, PortfolioGreeks.fromOpenTrades_at, hat]
    exact if_congr hkey rfl rfl

/-- In a list of equal items every order has the same last one. -/
theorem getLast?_perm {α : Type} {items items' : List α} (hperm : items.Perm items')
    (hsame : ∀ a ∈ items, ∀ b ∈ items, a = b) : items.getLast? = items'.getLast? := by
  rcases hlast : items.getLast? with _ | a
  · rw [List.getLast?_eq_none_iff] at hlast
    rw [hlast, List.nil_perm] at hperm
    rw [hperm]
    rfl
  · have ha := List.mem_of_getLast? hlast
    have hrep : items = List.replicate items.length a :=
      List.eq_replicate_of_mem (fun b hb => hsame b hb a ha)
    rw [hrep] at hperm
    rw [List.perm_replicate.mp hperm.symm, ← hrep, hlast]

/-- When the legs of each trade agree, their order and that of the trades do not
    matter. -/
theorem fromOpenTrades_reordered (hagree : LegsAgree rows quoteFor chain)
    (hrows : Reordered rows rows') :
    SameBook (PortfolioGreeks.fromOpenTrades rows' quoteFor chain)
      (PortfolioGreeks.fromOpenTrades rows quoteFor chain) := by
  rcases hrows with ⟨middle, hperm, hlegs⟩
  -- The legs first: where they agree, any of them may come last.
  have hsame : middle.map (bookProfile quoteFor chain) =
      rows'.map (bookProfile quoteFor chain) := by
    have hmiddle : ∀ row ∈ middle, row ∈ rows := fun row hrow => hperm.mem_iff.mpr hrow
    clear hperm
    induction hlegs with
    | nil => rfl
    | @cons row row' rest rest' hhead _ ih =>
        rw [List.map_cons, List.map_cons, ih (fun r hr => hmiddle r (List.mem_cons_of_mem row hr))]
        have hcontrib : (contributions quoteFor chain row).Perm
            (contributions quoteFor chain row') := by
          unfold contributions
          rw [hhead.1]
          exact hhead.2.filterMap _
        have hlast : lastContribution quoteFor chain row =
            lastContribution quoteFor chain row' := by
          unfold lastContribution
          rw [getLast?_perm hcontrib (hagree row (hmiddle row List.mem_cons_self))]
        have hprofile : bookProfile quoteFor chain row = bookProfile quoteFor chain row' := by
          unfold bookProfile
          rw [hlast, hcontrib.sum_eq, hcontrib.length_eq, hhead.2.length_eq, hhead.1]
        rw [hprofile]
  refine sameBook_of_profiles ?_
  rw [← hsame]
  exact (hperm.map _).symm

/-- If the order of the legs does not matter, the legs of each trade agree: any leg that
    contributes can be put last. -/
theorem legsAgree_of_reordered
    (h : ∀ rows', Reordered rows rows' →
      SameBook (PortfolioGreeks.fromOpenTrades rows' quoteFor chain)
        (PortfolioGreeks.fromOpenTrades rows quoteFor chain)) : LegsAgree rows quoteFor chain := by
  have hlast : ∀ row ∈ rows, ∀ c ∈ contributions quoteFor chain row,
      c = lastContribution quoteFor chain row := by
    intro row hrow c hc
    rcases List.mem_iff_append.mp hrow with ⟨before, after, rfl⟩
    rcases List.mem_filterMap.mp hc with ⟨leg, hleg, hcontrib⟩
    rcases List.mem_iff_append.mp hleg with ⟨first, later, hlegs⟩
    have hmoved : row.2.Perm (first ++ later ++ [leg]) := by
      rw [hlegs]
      exact (List.perm_middle.trans (List.perm_append_singleton leg _).symm)
    have hnew : lastContribution quoteFor chain (row.1, first ++ later ++ [leg]) = c := by
      unfold lastContribution contributions
      rw [List.filterMap_append, List.filterMap_cons_some hcontrib, List.filterMap_nil,
        List.getLast?_concat, Option.getD_some]
    rcases h (before ++ (row.1, first ++ later ++ [leg]) :: after)
      ⟨_, List.Perm.refl _, List.rel_append (List.forall₂_same.mpr (fun _ _ => ⟨rfl, .refl _⟩))
        (.cons ⟨rfl, hmoved⟩ (List.forall₂_same.mpr (fun _ _ => ⟨rfl, .refl _⟩)))⟩ with
      ⟨_, _, _, hat⟩
    -- The two rows differ in what this trade shows.
    have hrowAt := hat row.1.underlying
    rw [PortfolioGreeks.fromOpenTrades_at, PortfolioGreeks.fromOpenTrades_at,
      if_pos ⟨_, List.mem_append_right _ List.mem_cons_self, rfl⟩,
      if_pos ⟨_, List.mem_append_right _ List.mem_cons_self, rfl⟩, Option.some.injEq,
      KeyedSum.sumAt_append, KeyedSum.sumAt_append, KeyedSum.sumAt_cons, KeyedSum.sumAt_cons,
      if_pos rfl, if_pos rfl, add_right_inj, add_left_inj, hnew] at hrowAt
    exact hrowAt
  intro row hrow c hc c' hc'
  rw [hlast row hrow c hc, hlast row hrow c' hc']

end Order

section Additive

variable (rows : List (Trade × List Leg)) (quoteFor : String → Option QuoteSnapshot)
  (chain : Option ChainCache)

/-- What is under a key is what shows and what is lost. -/
theorem sumAt_tradeTerm (u : Underlying) :
    KeyedSum.sumAt (fun row => row.1.underlying) (tradeTerm quoteFor chain) u rows =
      KeyedSum.sumAt (fun row => row.1.underlying) (earlierContributions quoteFor chain) u rows +
        KeyedSum.sumAt (fun row => row.1.underlying) (lastContribution quoteFor chain) u rows := by
  rw [← KeyedSum.sumAt_add]
  congr 1
  funext row
  rw [← contributions_sum, contributions_split]

/-- The rows of the underlyings are right just when nothing is lost in them. -/
theorem forUnderlying_iff :
    (∀ u, (PortfolioGreeks.fromOpenTrades rows quoteFor chain).forUnderlying u =
      KeyedSum.sumAt (fun row => row.1.underlying) (tradeTerm quoteFor chain) u rows) ↔
        EarlierCancel rows quoteFor chain := by
  refine forall_congr' (fun u => ?_)
  rw [PortfolioGreeks.fromOpenTrades_forUnderlying, sumAt_tradeTerm]
  exact right_eq_add

/-- Then the totals are the sum of the rows. -/
theorem totals_of_earlierCancel (h : EarlierCancel rows quoteFor chain) :
    (PortfolioGreeks.fromOpenTrades rows quoteFor chain).totals =
      ((PortfolioGreeks.fromOpenTrades rows quoteFor chain).byUnderlying.map Prod.snd).sum := by
  have hlost : (rows.map (earlierContributions quoteFor chain)).sum = 0 := by
    rw [← KeyedSum.sum_sumAt (fun row => row.1.underlying) (earlierContributions quoteFor chain)
      (rows.map (fun row => row.1.underlying)).dedup (List.nodup_dedup _) rows
      (fun row hrow => List.mem_dedup.mpr (List.mem_map_of_mem hrow))]
    refine List.sum_eq_zero (fun x hx => ?_)
    rcases List.mem_map.mp hx with ⟨u, _, rfl⟩
    exact h u
  rw [PortfolioGreeks.fromOpenTrades_totals, PortfolioGreeks.fromOpenTrades_sum]
  simp only [contributions_split]
  rw [List.sum_map_add, hlost, zero_add]

/-- The greeks of the book add up just when the legs of each trade agree, and all but
    the last of each cancel out under every underlying. -/
theorem bookAdditive_iff : BookAdditive rows quoteFor chain ↔
    LegsAgree rows quoteFor chain ∧ EarlierCancel rows quoteFor chain := by
  constructor
  · rintro ⟨hrows, _, hreordered⟩
    exact ⟨legsAgree_of_reordered hreordered, (forUnderlying_iff rows quoteFor chain).mp hrows⟩
  · rintro ⟨hagree, hcancel⟩
    exact ⟨(forUnderlying_iff rows quoteFor chain).mpr hcancel,
      totals_of_earlierCancel rows quoteFor chain hcancel,
      fun rows' hrows' => fromOpenTrades_reordered hagree hrows'⟩

/-- One contributing leg per trade at most agrees with itself and loses nothing. -/
theorem bookAdditive_of_single
    (h : ∀ row ∈ rows, (contributions quoteFor chain row).length ≤ 1) :
    LegsAgree rows quoteFor chain ∧ EarlierCancel rows quoteFor chain := by
  have hone : ∀ row ∈ rows, contributions quoteFor chain row = [] ∨
      ∃ c, contributions quoteFor chain row = [c] := by
    intro row hrow
    rcases Nat.le_one_iff_eq_zero_or_eq_one.mp (h row hrow) with hzero | hone
    · exact Or.inl (List.length_eq_zero_iff.mp hzero)
    · exact Or.inr (List.length_eq_one_iff.mp hone)
  constructor
  · intro row hrow c hc c' hc'
    rcases hone row hrow with hnil | ⟨d, hd⟩
    · rw [hnil] at hc
      exact absurd hc List.not_mem_nil
    · rw [hd, List.mem_singleton] at hc hc'
      rw [hc, hc']
  · intro u
    refine List.sum_eq_zero (fun x hx => ?_)
    rcases List.mem_map.mp hx with ⟨row, hrow, rfl⟩
    rcases hone row (List.mem_of_mem_filter hrow) with hnil | ⟨d, hd⟩
    · rw [earlierContributions, hnil]
      rfl
    · rw [earlierContributions, hd]
      rfl

end Additive

/-- A strangle of one lot, both legs bought. -/
def strangle : Trade × List Leg :=
  ({ id := 1, strategyId := .longStraddle, underlying := .btc, expiry := none,
     entryTs := combine (ymdToOrdinal 2026 5 18) (hourMinute 10 0), lots := 1 },
   [{ tradeId := 1, strategyId := .longStraddle, legIdx := 0, symbol := "C-BTC-100000-180526",
      optionType := some .call, strike := none, side := .buy, lots := 1, entryPrice := none },
    { tradeId := 1, strategyId := .longStraddle, legIdx := 1, symbol := "P-BTC-100000-180526",
      optionType := some .put, strike := none, side := .buy, lots := 1, entryPrice := none }])

/-- The call has a delta of 0.25 and the put one of -0.20. -/
def strangleQuotes (symbol : String) : Option QuoteSnapshot :=
  if symbol = "C-BTC-100000-180526" then some { delta := some (1 / 4) }
  else if symbol = "P-BTC-100000-180526" then some { delta := some (-1 / 5) }
  else none

/-- The book has a delta of 0.05 in all, and one of -0.20 under its only underlying. -/
theorem strangle_not_additive :
    ¬ ∀ (rows : List (Trade × List Leg)) (quoteFor : String → Option QuoteSnapshot)
      (chain : Option ChainCache), BookAdditive rows quoteFor chain := by
  intro hall
  have htotals := (hall [strangle] strangleQuotes none).2.1
  revert htotals
  decide +kernel

end OptionsBot
