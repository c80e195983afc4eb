import OptionsBot.Core.Engine
import OptionsBot.Lib.KeyedSum

/-!
# The Greeks of the Book

The desk's view of the open trades: every leg that is quoted adds its greeks, scaled
by side, lots and contract size, to the totals of the book and to those of its
underlying.

The row of the underlying is read once per trade, before its legs, and every leg
writes it anew from what was read. So of the legs of one trade only the last one to
write shows in the row.

## Main definitions

* `legGreeks`: What a leg adds, if its quote has a greek.
* `GreekBook`: What the loop carries.
* `GreekBook.addLeg`, `GreekBook.addTrade`: Its two levels.
* `PortfolioGreeks.fromOpenTrades`: The whole view.

## Theorems

* `addLegs`, `addTrade_spec`: What the legs of a trade and a trade do to the loop's
  state.
* `fromOpenTrades_at`, `fromOpenTrades_sum`: The rows of the underlyings, and their sum.
* `fromOpenTrades_totals`, `fromOpenTrades_counts`: The totals and the counts.
-/

namespace OptionsBot

namespace UnderlyingGreeks

instance : Zero UnderlyingGreeks := ⟨{}⟩

/-- The greeks of two amounts together. -/
def add (base more : UnderlyingGreeks) : UnderlyingGreeks :=
  { delta := base.delta + more.delta, gamma := base.gamma + more.gamma,
    theta := base.theta + more.theta, vega := base.vega + more.vega }

instance : Add UnderlyingGreeks := ⟨add⟩

instance : Neg UnderlyingGreeks :=
  ⟨fun g => { delta := -g.delta, gamma := -g.gamma, theta := -g.theta, vega := -g.vega }⟩

instance : AddCommGroup UnderlyingGreeks where
  add_assoc _ _ _ := UnderlyingGreeks.ext (add_assoc _ _ _) (add_assoc _ _ _) (add_assoc _ _ _)
    (add_assoc _ _ _)
  zero_add _ := UnderlyingGreeks.ext (zero_add _) (zero_add _) (zero_add _) (zero_add _)
  add_zero _ := UnderlyingGreeks.ext (add_zero _) (add_zero _) (add_zero _) (add_zero _)
  neg_add_cancel _ := UnderlyingGreeks.ext (neg_add_cancel _) (neg_add_cancel _)
    (neg_add_cancel _) (neg_add_cancel _)
  add_comm _ _ := UnderlyingGreeks.ext (add_comm _ _) (add_comm _ _) (add_comm _ _)
    (add_comm _ _)
  nsmul := nsmulRec
  zsmul := zsmulRec

end UnderlyingGreeks

/-- The greeks a leg adds: none if its quote has none. A leg row without lots of its
    own has those of the trade. -/
def legGreeks (leg : Leg) (trade : Trade) (quote : QuoteSnapshot) (chain : Option ChainCache) :
    Option UnderlyingGreeks :=
  if quote.delta.isNone ∧ quote.gamma.isNone ∧ quote.theta.isNone ∧ quote.vega.isNone then none
  else
    let lots : ℚ := if leg.lots ≠ 0 then leg.lots else trade.lots
    let scale := leg.side.sign * lots * contractMultiplier chain leg.symbol
    some
      { delta := scale * quote.delta.getD 0
        gamma := scale * quote.gamma.getD 0
        theta := scale * quote.theta.getD 0
        vega := scale * quote.vega.getD 0 }

/-- What the loop over the open trades carries. -/
structure GreekBook where
  totals : UnderlyingGreeks := {}
  byUnderlying : List (Underlying × UnderlyingGreeks) := []
  withGreeks : Nat := 0
  missing : Nat := 0

namespace GreekBook

variable (quoteFor : String → Option QuoteSnapshot) (chain : Option ChainCache)

/-- A leg of a trade. The row is written from `bucket`, which was read before the
    first leg. -/
def addLeg (trade : Trade) (bucket : UnderlyingGreeks) (book : GreekBook) (leg : Leg) :
    GreekBook :=
  match quoteFor leg.symbol with
  | none => { book with missing := book.missing + 1 }
  | some quote =>
    match legGreeks leg trade quote chain with
    | none => { book with missing := book.missing + 1 }
    | some contrib =>
      { book with
        withGreeks := book.withGreeks + 1
        totals := book.totals + contrib
        byUnderlying :=
          KeyedSum.setAmount trade.underlying (bucket + contrib) book.byUnderlying }

/-- A trade. Its underlying has a row from here on. -/
def addTrade (book : GreekBook) (row : Trade × List Leg) : GreekBook :=
  let byUnderlying := KeyedSum.setDefault row.1.underlying book.byUnderlying
  let bucket := (KeyedSum.amountAt row.1.underlying byUnderlying).getD 0
  row.2.foldl (addLeg quoteFor chain row.1 bucket) { book with byUnderlying := byUnderlying }

end GreekBook

def PortfolioGreeks.fromOpenTrades (openRows : List (Trade × List Leg))
    (quoteFor : String → Option QuoteSnapshot) (chain : Option ChainCache) : PortfolioGreeks :=
  let book := openRows.foldl (GreekBook.addTrade quoteFor chain) {}
  { delta := book.totals.delta
    gamma := book.totals.gamma
    theta := book.totals.theta
    vega := book.totals.vega
    byUnderlying := book.byUnderlying
    legsWithGreeks := book.withGreeks
    legsMissingGreeks := book.missing }

def PortfolioGreeks.forUnderlying (book : PortfolioGreeks) (underlying : Underlying) :
    UnderlyingGreeks := (KeyedSum.amountAt underlying book.byUnderlying).getD {}

/-- The totals of the book, as one amount. -/
def PortfolioGreeks.totals (book : PortfolioGreeks) : UnderlyingGreeks :=
  { delta := book.delta, gamma := book.gamma, theta := book.theta, vega := book.vega }

section Contributions

variable (quoteFor : String → Option QuoteSnapshot) (chain : Option ChainCache)

/-- What a leg of a trade adds, if it is quoted and its quote has a greek. -/
def contribution (trade : Trade) (leg : Leg) : Option UnderlyingGreeks :=
  (quoteFor leg.symbol).bind (fun quote => legGreeks leg trade quote chain)

/-- What the legs of a trade add, in order. -/
def contributions (row : Trade × List Leg) : List UnderlyingGreeks :=
  row.2.filterMap (contribution quoteFor chain row.1)

/-- What the last leg to write adds. -/
def lastContribution (row : Trade × List Leg) : UnderlyingGreeks :=
  (contributions quoteFor chain row).getLast?.getD 0

/-- What the other legs add. -/
def earlierContributions (row : Trade × List Leg) : UnderlyingGreeks :=
  (contributions quoteFor chain row).dropLast.sum

theorem contributions_split (row : Trade × List Leg) :
    (contributions quoteFor chain row).sum =
      earlierContributions quoteFor chain row + lastContribution quoteFor chain row := by
  unfold earlierContributions lastContribution
  generalize contributions quoteFor chain row = amounts
  rcases List.eq_nil_or_concat amounts with rfl | ⟨init, final, rfl⟩
  · exact (add_zero _).symm
  · rw [List.concat_eq_append, List.dropLast_concat, List.getLast?_concat, List.sum_append,
      List.sum_singleton, Option.getD_some]

end Contributions

namespace GreekBook

variable (quoteFor : String → Option QuoteSnapshot) (chain : Option ChainCache)

section Legs

variable (trade : Trade) (bucket : UnderlyingGreeks)

theorem addLeg_eq (book : GreekBook) (leg : Leg) :
    addLeg quoteFor chain trade bucket book leg =
      match contribution quoteFor chain trade leg with
      | none => { book with missing := book.missing + 1 }
      | some contrib =>
        { book with
          withGreeks := book.withGreeks + 1
          totals := book.totals + contrib
          byUnderlying :=
            KeyedSum.setAmount trade.underlying (bucket + contrib) book.byUnderlying } := by
  unfold addLeg contribution
  rcases quoteFor leg.symbol with _ | quote <;> rfl

/-- What the legs of a trade do to the loop's state: the totals get all of them, the
    row of the underlying gets the last one on top of what was read. -/
theorem addLegs (legs : List Leg) (book : GreekBook) (shown : UnderlyingGreeks)
    (hshown : KeyedSum.amountAt trade.underlying book.byUnderlying = some (bucket + shown)) :
    let amounts := contributions quoteFor chain (trade, legs)
    let done := legs.foldl (addLeg quoteFor chain trade bucket) book
    done.totals = book.totals + amounts.sum ∧
      done.withGreeks = book.withGreeks + amounts.length ∧
      done.missing + amounts.length = book.missing + legs.length ∧
      (∀ k, KeyedSum.amountAt k done.byUnderlying =
        if k = trade.underlying then some (bucket + amounts.getLast?.getD shown)
        else KeyedSum.amountAt k book.byUnderlying) ∧
      (done.byUnderlying.map Prod.snd).sum =
        (book.byUnderlying.map Prod.snd).sum - shown + amounts.getLast?.getD shown := by
  induction legs generalizing book shown with
  | nil =>
      refine ⟨(add_zero _).symm, rfl, rfl, fun k => ?_, (sub_add_cancel _ _).symm⟩
      by_cases hk : k = trade.underlying
      · rw [if_pos hk, hk]
        exact hshown
      · rw [if_neg hk]
        rfl
  | cons leg rest ih =>
      rcases hleg : contribution quoteFor chain trade leg with _ | contrib
      · -- The leg only counts as missing.
        have hamounts : contributions quoteFor chain (trade, leg :: rest) =
            contributions quoteFor chain (trade, rest) := List.filterMap_cons_none hleg
        rcases ih { book with missing := book.missing + 1 } shown hshown with
          ⟨htotals, hwith, hmissing, hat, hsum⟩
        simp only at htotals hwith hmissing hat hsum
        simp only [List.foldl_cons, addLeg_eq, hleg, hamounts, List.length_cons]
        exact ⟨htotals, hwith, by omega, hat, hsum⟩
      · have hamounts : contributions quoteFor chain (trade, leg :: rest) =
            contrib :: contributions quoteFor chain (trade, rest) := List.filterMap_cons_some hleg
        -- What the row shows from here on is this leg's amount, not the one before.
        rcases ih
          { book with
            withGreeks := book.withGreeks + 1
            totals := book.totals + contrib
            byUnderlying :=
              KeyedSum.setAmount trade.underlying (bucket + contrib) book.byUnderlying } contrib
          (by rw [KeyedSum.amountAt_setAmount, if_pos rfl]) with
          ⟨htotals, hwith, hmissing, hat, hsum⟩
        have hlast : ∀ d, (contrib :: contributions quoteFor chain (trade, rest)).getLast?.getD d =
            (contributions quoteFor chain (trade, rest)).getLast?.getD contrib := by
          intro d
          rw [List.getLast?_cons, Option.getD_some]
        simp only at htotals hwith hmissing hat hsum
        simp only [List.foldl_cons, addLeg_eq, hleg, hamounts, List.length_cons, List.sum_cons,
          hlast]
        refine ⟨?_, by rw [hwith]; omega, by omega, fun k => ?_, ?_⟩
        · rw [htotals, add_assoc]
        · rw [hat k]
          by_cases hk : k = trade.underlying
          · rw [if_pos hk, if_pos hk]
          · rw [if_neg hk, if_neg hk]
            simp only [KeyedSum.amountAt_setAmount, if_neg hk]
        · rw [hsum, KeyedSum.sum_setAmount, hshown, Option.getD_some]
          abel

end Legs

/-- What a trade does to the loop's state. -/
theorem addTrade_spec (book : GreekBook) (row : Trade × List Leg) :
    let done := addTrade quoteFor chain book row
    done.totals = book.totals + (contributions quoteFor chain row).sum ∧
      done.withGreeks = book.withGreeks + (contributions quoteFor chain row).length ∧
      done.missing + (contributions quoteFor chain row).length = book.missing + row.2.length ∧
      (∀ k, KeyedSum.amountAt k done.byUnderlying =
        if k = row.1.underlying then
          some ((KeyedSum.amountAt k book.byUnderlying).getD 0 +
            lastContribution quoteFor chain row)
        else KeyedSum.amountAt k book.byUnderlying) ∧
      (done.byUnderlying.map Prod.snd).sum =
        (book.byUnderlying.map Prod.snd).sum + lastContribution quoteFor chain row := by
  have hbucket : (KeyedSum.amountAt row.1.underlying
      (KeyedSum.setDefault row.1.underlying book.byUnderlying)).getD 0 =
        (KeyedSum.amountAt row.1.underlying book.byUnderlying).getD 0 := by
    rw [KeyedSum.amountAt_setDefault, if_pos rfl, Option.getD_some]
  rcases addLegs quoteFor chain row.1
    ((KeyedSum.amountAt row.1.underlying book.byUnderlying).getD 0) row.2
    { book with byUnderlying := KeyedSum.setDefault row.1.underlying book.byUnderlying } 0
    (by rw [KeyedSum.amountAt_setDefault, if_pos rfl, add_zero]) with
    ⟨htotals, hwith, hmissing, hat, hsum⟩
  simp only at htotals hwith hmissing hat hsum
  simp only [addTrade, hbucket]
  refine ⟨htotals, hwith, hmissing, fun k => ?_, ?_⟩
  · rw [hat k]
    by_cases hk : k = row.1.underlying
    · rw [if_pos hk, if_pos hk, hk]
      rfl
    · rw [if_neg hk, if_neg hk, KeyedSum.amountAt_setDefault, if_neg hk]
  · rw [hsum, KeyedSum.sum_setDefault, sub_zero]
    rfl

/-- What all the trades do to the loop's state. -/
theorem addTrades (rows : List (Trade × List Leg)) (book : GreekBook) :
    let done := rows.foldl (addTrade quoteFor chain) book
    done.totals = book.totals + (rows.map (fun row => (contributions quoteFor chain row).sum)).sum ∧
      done.withGreeks = book.withGreeks +
        (rows.map (fun row => (contributions quoteFor chain row).length)).sum ∧
      done.missing + (rows.map (fun row => (contributions quoteFor chain row).length)).sum =
        book.missing + (rows.map (fun row => row.2.length)).sum ∧
      (∀ k, KeyedSum.amountAt k done.byUnderlying =
        if ∃ row ∈ rows, row.1.underlying = k then
          some ((KeyedSum.amountAt k book.byUnderlying).getD 0 +
            KeyedSum.sumAt (fun row => row.1.underlying) (lastContribution quoteFor chain) k rows)
        else KeyedSum.amountAt k book.byUnderlying) ∧
      (done.byUnderlying.map Prod.snd).sum =
        (book.byUnderlying.map Prod.snd).sum +
          (rows.map (lastContribution quoteFor chain)).sum := by
  induction rows generalizing book with
  | nil =>
      refine ⟨(add_zero _).symm, rfl, rfl, fun k => (if_neg ?_).symm, (add_zero _).symm⟩
      rintro ⟨row, hrow, _⟩
      exact absurd hrow List.not_mem_nil
  | cons row rest ih =>
      rcases addTrade_spec quoteFor chain book row with ⟨htotals, hwith, hmissing, hat, hsum⟩
      rcases ih (addTrade quoteFor chain book row) with
        ⟨htotals', hwith', hmissing', hat', hsum'⟩
      simp only [List.foldl_cons, List.map_cons, List.sum_cons]
      refine ⟨?_, by omega, by omega, fun k => ?_, ?_⟩
      · rw [htotals', htotals, add_assoc]
      · -- The row of an underlying that has a trade already is the sum so far.
        rw [hat' k, hat k, KeyedSum.sumAt_cons]
        have hrest : ¬ (∃ r ∈ rest, r.1.underlying = k) →
            KeyedSum.sumAt (fun r : Trade × List Leg => r.1.underlying)
              (lastContribution quoteFor chain) k rest = 0 :=
          fun hnone => KeyedSum.sumAt_none _ _ k rest (fun r hr h => hnone ⟨r, hr, h⟩)
        simp only [List.exists_mem_cons_iff]
        by_cases hhere : row.1.underlying = k
        · subst hhere
          simp only [if_true, true_or, Option.getD_some]
          by_cases hlater : ∃ r ∈ rest, r.1.underlying = row.1.underlying
          · rw [if_pos hlater, add_assoc]
          · rw [if_neg hlater, hrest hlater, add_zero]
        · rw [if_neg hhere, zero_add]
          simp only [if_neg (Ne.symm hhere), hhere, false_or]
      · rw [hsum', hsum, add_assoc]

end GreekBook

namespace PortfolioGreeks

variable (rows : List (Trade × List Leg)) (quoteFor : String → Option QuoteSnapshot)
  (chain : Option ChainCache)

/-- An underlying has a row if it has a trade, and the row shows the last contribution
    of each. -/
theorem fromOpenTrades_at (k : Underlying) :
    KeyedSum.amountAt k (fromOpenTrades rows quoteFor chain).byUnderlying =
      if ∃ row ∈ rows, row.1.underlying = k then
        some (KeyedSum.sumAt (fun row => row.1.underlying) (lastContribution quoteFor chain) k rows)
      else none := by
  have hat := (GreekBook.addTrades quoteFor chain rows {}).2.2.2.1 k
  have hempty : (KeyedSum.amountAt k ({} : GreekBook).byUnderlying) = none := rfl
  rw [hempty, Option.getD_none, zero_add] at hat
  exact hat

theorem fromOpenTrades_forUnderlying (k : Underlying) :
    (fromOpenTrades rows quoteFor chain).forUnderlying k =
      KeyedSum.sumAt (fun row => row.1.underlying) (lastContribution quoteFor chain) k rows := by
  rw [forUnderlying, fromOpenTrades_at]
  split
  · rfl
  · next hnone =>
    exact (KeyedSum.sumAt_none _ _ k rows (fun r hr h => hnone ⟨r, hr, h⟩)).symm

theorem fromOpenTrades_sum :
    ((fromOpenTrades rows quoteFor chain).byUnderlying.map Prod.snd).sum =
      (rows.map (lastContribution quoteFor chain)).sum :=
  (GreekBook.addTrades quoteFor chain rows {}).2.2.2.2.trans (zero_add _)

theorem fromOpenTrades_totals :
    (fromOpenTrades rows quoteFor chain).totals =
      (rows.map (fun row => (contributions quoteFor chain row).sum)).sum :=
  (GreekBook.addTrades quoteFor chain rows {}).1.trans (zero_add _)

/-- Every leg counts once, as one with greeks or as one without. -/
theorem fromOpenTrades_counts :
    (fromOpenTrades rows quoteFor chain).legsWithGreeks =
        (rows.map (fun row => (contributions quoteFor chain row).length)).sum ∧
      (fromOpenTrades rows quoteFor chain).legsMissingGreeks +
          (fromOpenTrades rows quoteFor chain).legsWithGreeks =
        (rows.map (fun row => row.2.length)).sum := by
  rcases GreekBook.addTrades quoteFor chain rows {} with ⟨_, hwith, hmissing, _, _⟩
  have hcount := hwith.trans (Nat.zero_add _)
  refine ⟨hcount, ?_⟩
  rw [Nat.zero_add] at hmissing
  rw [← hmissing]
  exact congrArg _ hcount

end PortfolioGreeks

end OptionsBot
