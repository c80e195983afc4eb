import OptionsBot.Core.Postmortem
import OptionsBot.Lib.Best
import OptionsBot.Theory.CandleLabels

/-!
# One Attempt for Each Retry Storm

An entry that fails is tried again on the next tick, and each try is a trade of its
own. Before it analyses anything the post-mortem keeps one attempt for each
underlying, symbol and quarter of an hour, the one with the least trade id.

It is a single pass with a dictionary, so what is kept could depend on the order of
the attempts. It does not, since no two of them have one id. What does depend on it
is the place of attempts that were entered at the same instant, as the sort at the
end leaves these in the order of the dictionary.

The quarter of an hour is one of the host's clock. On a host that is a whole number
of quarters ahead of UTC, as India is, it is one of the UTC clock too.

## Main definitions

* `TradeAttempt.dedupeKey`: What an attempt is kept under.
* `Deduped`: Some attempts are those to keep of others.

## Theorems

* `dedupeAttempts_eq`: A pass that keeps the best row of each key, and a sort.
* `dedupeAttempts_deduped`: The attempts kept are those to keep.
* `dedupeAttempts_perm`: They do not depend on the order of the attempts.
* `dedupeAttempts_again`: A second time changes nothing.
* `dedupeAttempts_right`: The three together.
* `dedupeAttempts_order`: When the order of the attempts does not matter at all.
* `attemptsLoaded_perm`: The count of the report does not depend on it.
* `dedupeKey_eq_iff`: Which attempts have one key.
-/

namespace OptionsBot

section Dedupe

variable (host : DateTime → Int)

/-- The key of an attempt: the underlying, the symbol, and the quarter of an hour of the entry on
    the host's clock. An attempt without a symbol has the empty one. -/
def TradeAttempt.dedupeKey (a : TradeAttempt) : String × String × Int :=
  (a.underlying, a.intendedSymbol.getD "", intTimestamp host a.entryTs / (15 * 60))

/-- Some attempts are those to keep of others: exactly one for each key that is there, the one with
    the least trade id, by entry time. -/
structure Deduped (attempts kept : List TradeAttempt) : Prop where
  keys : ∀ k, k ∈ kept.map (TradeAttempt.dedupeKey host) ↔
    k ∈ attempts.map (TradeAttempt.dedupeKey host)
  once : (kept.map (TradeAttempt.dedupeKey host)).Nodup
  least : ∀ b ∈ kept, b ∈ attempts ∧
    ∀ a ∈ attempts, a.dedupeKey host = b.dedupeKey host → b.tradeId ≤ a.tradeId
  sorted : kept.Pairwise (fun a b => a.entryTs ≤ b.entryTs)

theorem dedupeAttempts_eq (attempts : List TradeAttempt) :
    dedupeAttempts host attempts =
      (Table.best (TradeAttempt.dedupeKey host) TradeAttempt.tradeId attempts).insertionSort
        (fun a b => a.entryTs ≤ b.entryTs) := by
  unfold dedupeAttempts Table.best
  refine congrArg (List.insertionSort _) (List.foldl_ext _ _ _ (fun rows a _ => ?_))
  -- What the loop writes for an attempt is the cheaper of it and the row that is there.
  refine congrArg (fun f => Table.upsert _ _ f rows) (funext fun kept => ?_)
  cases kept with
  | none => rfl
  | some b => rfl

/-- The attempts before the sort. -/
theorem dedupeAttempts_best (attempts : List TradeAttempt) :
    (dedupeAttempts host attempts).Perm
      (Table.best (TradeAttempt.dedupeKey host) TradeAttempt.tradeId attempts) := by
  rw [dedupeAttempts_eq]
  exact List.perm_insertionSort _ _

theorem dedupeAttempts_sorted (attempts : List TradeAttempt) :
    (dedupeAttempts host attempts).Pairwise (fun a b => a.entryTs ≤ b.entryTs) := by
  rw [dedupeAttempts_eq]
  exact List.pairwise_insertionSort _ _

theorem dedupeAttempts_deduped (attempts : List TradeAttempt) :
    Deduped host attempts (dedupeAttempts host attempts) := by
  have hperm := dedupeAttempts_best host attempts
  refine ⟨fun k => ?_, ?_, fun b hb => ?_, dedupeAttempts_sorted host attempts⟩
  · rw [(hperm.map (TradeAttempt.dedupeKey host)).mem_iff]
    exact Table.mem_keys_best _ _ attempts k
  · rw [(hperm.map (TradeAttempt.dedupeKey host)).nodup_iff]
    exact Table.nodup_best _ _ attempts
  · exact Table.best_least _ _ attempts b (hperm.mem_iff.mp hb)

theorem dedupeAttempts_perm (attempts others : List TradeAttempt)
    (hids : (attempts.map TradeAttempt.tradeId).Nodup) (hothers : others.Perm attempts) :
    (dedupeAttempts host others).Perm (dedupeAttempts host attempts) := by
  have hbest := Table.best_perm (TradeAttempt.dedupeKey host) TradeAttempt.tradeId attempts others
    hids hothers
  exact (dedupeAttempts_best host others).trans
    (hbest.trans (dedupeAttempts_best host attempts).symm)

/-- The attempts kept have distinct keys and are sorted, and that is all a second time asks. -/
theorem dedupeAttempts_again (attempts : List TradeAttempt) :
    dedupeAttempts host (dedupeAttempts host attempts) = dedupeAttempts host attempts := by
  rw [dedupeAttempts_eq host (dedupeAttempts host attempts),
    Table.best_self _ _ _ (dedupeAttempts_deduped host attempts).once]
  exact (dedupeAttempts_sorted host attempts).insertionSort_eq

/-- Of attempts with distinct trade ids the one with the least id is kept for each underlying,
    symbol and quarter of an hour, in whatever order they come, and once is enough. -/
theorem dedupeAttempts_right (attempts : List TradeAttempt)
    (hids : (attempts.map TradeAttempt.tradeId).Nodup) :
    Deduped host attempts (dedupeAttempts host attempts) ∧
      (∀ others : List TradeAttempt, others.Perm attempts →
        (dedupeAttempts host others).Perm (dedupeAttempts host attempts)) ∧
      dedupeAttempts host (dedupeAttempts host attempts) = dedupeAttempts host attempts := by
  refine ⟨dedupeAttempts_deduped host attempts, fun others hothers => ?_,
    dedupeAttempts_again host attempts⟩
  exact dedupeAttempts_perm host attempts others hids hothers

/-- Two tries at a call in one quarter of an hour, the later one first, and a try at a put. -/
def retryStorm : List TradeAttempt :=
  [{ tradeId := 1001, entryTs := combine (ymdToOrdinal 2026 5 27) (hourMinute 8 31),
     underlying := "BTC", intendedSymbol := some "C-BTC-76000-280526" },
   { tradeId := 1000, entryTs := combine (ymdToOrdinal 2026 5 27) (hourMinute 8 30),
     underlying := "BTC", intendedSymbol := some "C-BTC-76000-280526" },
   { tradeId := 1002, entryTs := combine (ymdToOrdinal 2026 5 27) (hourMinute 8 29),
     underlying := "BTC", intendedSymbol := some "P-BTC-75000-280526" }]

theorem dedupeAttempts_right_storm : (retryStorm.map TradeAttempt.tradeId).Nodup ∧
    Deduped (fun _ => 0) retryStorm (dedupeAttempts (fun _ => 0) retryStorm) :=
  ⟨by decide, (dedupeAttempts_right (fun _ => 0) retryStorm (by decide)).1⟩

/-- Of the storm the first try at each option is kept, the put before the call. -/
example : (dedupeAttempts (fun _ => 0) retryStorm).map TradeAttempt.tradeId = [1002, 1000] := by
  decide +kernel

/-- If those kept were entered at different instants, the order of the attempts does not matter for
    their order either. -/
theorem dedupeAttempts_order (attempts others : List TradeAttempt)
    (hids : (attempts.map TradeAttempt.tradeId).Nodup) (hothers : others.Perm attempts)
    (htimes : ((dedupeAttempts host attempts).map TradeAttempt.entryTs).Nodup) :
    dedupeAttempts host others = dedupeAttempts host attempts := by
  have hperm := dedupeAttempts_perm host attempts others hids hothers
  refine List.Perm.eq_of_pairwise ?_ (dedupeAttempts_sorted host others)
    (dedupeAttempts_sorted host attempts) hperm
  intro a b ha hb hab hba
  exact List.inj_on_of_nodup_map htimes (hperm.mem_iff.mp ha) hb (le_antisymm hab hba)

/-- The loop of the report leaves the count of what was loaded. -/
theorem attemptsLoaded_foldl (rest : DeltaRest) (fetchExchange : Bool)
    (attempts : List TradeAttempt) (r : PostmortemReport) :
    (attempts.foldl (PostmortemReport.attempt host rest fetchExchange) r).attemptsLoaded =
      r.attemptsLoaded := by
  induction attempts generalizing r with
  | nil => rfl
  | cons a rest' ih =>
      rw [List.foldl_cons, ih]
      unfold PostmortemReport.attempt
      cases underlyingCandleSymbol.lookup a.underlying with
      | none => rfl
      | some sym => rfl

theorem attemptsLoaded_buildReport (rest : DeltaRest) (fetchExchange : Bool)
    (loaded : List TradeAttempt) (dedupe : Bool) (maxSamples : Int) :
    (buildReport host rest fetchExchange loaded dedupe maxSamples).attemptsLoaded =
      (sampledAttempts host loaded dedupe maxSamples).length := by
  rw [buildReport, attemptsLoaded_foldl]

/-- How many attempts the report is about does not depend on the order they are loaded in. -/
theorem attemptsLoaded_perm (rest : DeltaRest) (fetchExchange dedupe : Bool) (maxSamples : Int)
    (loaded others : List TradeAttempt) (hids : (loaded.map TradeAttempt.tradeId).Nodup)
    (hothers : others.Perm loaded) :
    (buildReport host rest fetchExchange others dedupe maxSamples).attemptsLoaded =
      (buildReport host rest fetchExchange loaded dedupe maxSamples).attemptsLoaded := by
  have hlen : (if dedupe then dedupeAttempts host others else others).length =
      (if dedupe then dedupeAttempts host loaded else loaded).length := by
    cases dedupe with
    | false => exact hothers.length_eq
    | true => exact (dedupeAttempts_perm host loaded others hids hothers).length_eq
  rw [attemptsLoaded_buildReport, attemptsLoaded_buildReport]
  unfold sampledAttempts
  -- The sample is as long as the number of attempts says.
  generalize (if dedupe then dedupeAttempts host others else others) = xs at hlen ⊢
  generalize (if dedupe then dedupeAttempts host loaded else loaded) = ys at hlen ⊢
  simp only [hlen]
  by_cases hmany : 0 < maxSamples ∧ maxSamples < ys.length
  · rw [if_pos hmany, if_pos hmany, sliceFrom, sliceFrom, List.length_drop, List.length_drop, hlen]
  · rw [if_neg hmany, if_neg hmany, hlen]

/-- From 1970 on, the quarters of an hour of a host that is some quarters ahead are those of UTC,
    numbered from as many later. -/
theorem quarter_eq (quarters : Int) (ts : DateTime) (hhost : host ts = quarters * (15 * 60))
    (hread : host ts * 1000000 ≤ ts.sinceEpoch) :
    intTimestamp host ts / (15 * 60) = ts.sinceEpoch / (15 * 60 * 1000000) - quarters := by
  rw [intTimestamp, truncate_timestamp, if_pos hread, hhost]
  omega

/-- On such a host two attempts have one key exactly if they are on one underlying and symbol, and
    were entered in one quarter of an hour. -/
theorem dedupeKey_eq_iff (quarters : Int) (a b : TradeAttempt)
    (hhost : ∀ ts, host ts = quarters * (15 * 60))
    (ha : quarters * (15 * 60) * 1000000 ≤ a.entryTs.sinceEpoch)
    (hb : quarters * (15 * 60) * 1000000 ≤ b.entryTs.sinceEpoch) :
    a.dedupeKey host = b.dedupeKey host ↔
      a.underlying = b.underlying ∧ a.intendedSymbol.getD "" = b.intendedSymbol.getD "" ∧
        a.entryTs.sinceEpoch / (15 * 60 * 1000000) =
          b.entryTs.sinceEpoch / (15 * 60 * 1000000) := by
  rw [TradeAttempt.dedupeKey, TradeAttempt.dedupeKey, Prod.mk.injEq, Prod.mk.injEq,
    quarter_eq host quarters a.entryTs (hhost _) (by rw [hhost]; exact ha),
    quarter_eq host quarters b.entryTs (hhost _) (by rw [hhost]; exact hb), sub_left_inj]

end Dedupe

end OptionsBot
