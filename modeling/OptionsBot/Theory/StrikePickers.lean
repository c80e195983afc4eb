import OptionsBot.Theory.StrikeFallback

/-!
# The Strike Pickers

Both pickers look at the listed options of a bucket by strike, and sort them a
second time by a distance. Since the second sort is stable, of two options equally
far away the one with the lower strike comes first. So each picks the option that
is least by distance and then by strike, among those it may look at.

The two do not look at the same options. The one by delta leaves out what has no
quote with a delta inside the bounds. The one at the money takes every listed
option, and has nothing to return if the one it has settled on is not quoted.

## Main definitions

* `Eligible`: An active option of the wanted underlying, type and bucket.
* `InBand`: An eligible option that is quoted with a delta inside the bounds.
* `IsAtm`: The eligible option closest to the spot price.
* `StrikeOrder`: The eligible options in the order of their strikes.
* `placed`: What stands at a place of a list, which may lie outside.

## Theorems

* `mem_deltaCandidates`: What a delta query looks at.
* `getAtmStrike_offset`: The pick at a number of places from the money.
* `getStrikeByDelta_least`: The pick by delta is the least.
* `pickers_right`: What the two pickers return.
-/

namespace OptionsBot

/-- What stands at a place of a list, which may lie outside of it. -/
def placed {α : Type} (items : List α) (i : Int) : Option α :=
  if 0 ≤ i then items[i.toNat]? else none

namespace ChainCache

variable (chain : ChainCache) (underlying : Underlying) (optionType : OptionType)
  (bucket : ExpiryBucket) (now : DateTime)

/-- An active option of the wanted underlying, type and bucket. -/
structure Eligible (inst : InstrumentRecord) : Prop where
  listed : inst ∈ chain.instruments
  active : inst.isActive = true
  underlying : inst.underlying = underlying
  optionType : inst.optionType = optionType
  bucket : bucketForExpiry now inst.expiry = some bucket

/-- An eligible option that is quoted with a delta inside the bounds. -/
structure InBand (deltaMin deltaMax : Option ℚ) (inst : InstrumentRecord) (quote : QuoteSnapshot)
    (delta : ℚ) : Prop where
  eligible : chain.Eligible underlying optionType bucket now inst
  quoted : chain.quotes inst.symbol = some quote
  read : quote.delta = some delta
  lower : ∀ lo ∈ deltaMin, lo ≤ |delta|
  upper : ∀ hi ∈ deltaMax, |delta| ≤ hi

/-- The eligible option closest to the spot price, and of those equally close the
    one with the lowest strike. -/
structure IsAtm (spot : ℚ) (inst : InstrumentRecord) : Prop where
  eligible : chain.Eligible underlying optionType bucket now inst
  least : ∀ other, chain.Eligible underlying optionType bucket now other →
    |inst.strike - spot| < |other.strike - spot| ∨
      |inst.strike - spot| = |other.strike - spot| ∧ inst.strike ≤ other.strike

/-- The eligible options, each once, in the order of their strikes. -/
structure StrikeOrder (ladder : List InstrumentRecord) : Prop where
  mem_iff : ∀ inst, inst ∈ ladder ↔ chain.Eligible underlying optionType bucket now inst
  nodup : ladder.Nodup
  sorted : ladder.Pairwise (fun a b => a.strike ≤ b.strike)

theorem eligible_iff (inst : InstrumentRecord) :
    inst ∈ chain.instrumentsFor underlying optionType bucket now ↔
      chain.Eligible underlying optionType bucket now inst := by
  rw [mem_instrumentsFor]
  exact ⟨fun h => ⟨h.1, h.2.1, h.2.2.1, h.2.2.2.1, h.2.2.2.2⟩,
    fun h => ⟨h.listed, h.active, h.underlying, h.optionType, h.bucket⟩⟩

theorem instrumentsFor_strikeOrder : chain.StrikeOrder underlying optionType bucket now
    (chain.instrumentsFor underlying optionType bucket now) :=
  { mem_iff := chain.eligible_iff underlying optionType bucket now
    nodup := (chain.instrumentsFor_distinct underlying optionType bucket now).of_map
    sorted := chain.instrumentsFor_sorted underlying optionType bucket now }

section Atm

variable (spot : ℚ)

theorem atm_isAtm (atm : InstrumentRecord)
    (h : chain.atm underlying optionType bucket spot now = some atm) :
    chain.IsAtm underlying optionType bucket now spot atm := by
  refine ⟨(chain.eligible_iff _ _ _ _ _).mp (Ladder.nearest_mem _ _ _ atm h),
    fun other hother => ?_⟩
  exact Ladder.first_least (fun a : InstrumentRecord => |a.strike - spot|)
    (fun a b => a.strike ≤ b.strike) (fun _ => le_refl _) _
    (chain.instrumentsFor_sorted underlying optionType bucket now) atm h other
    ((chain.eligible_iff _ _ _ _ _).mpr hother)

/-- The place of the option at the money among the listed ones. -/
theorem atm_place (atm : InstrumentRecord)
    (h : chain.atm underlying optionType bucket spot now = some atm) :
    (chain.instrumentsFor underlying optionType bucket now)[
      (chain.instrumentsFor underlying optionType bucket now).findIdx
        (fun inst => inst.symbol = atm.symbol)]? = some atm := by
  have hmem := Ladder.nearest_mem _ _ _ atm h
  have hlt := List.findIdx_lt_length_of_exists (p := fun inst : InstrumentRecord =>
    decide (inst.symbol = atm.symbol)) ⟨atm, hmem, decide_eq_true rfl⟩
  have hfound := List.findIdx_getElem (w := hlt)
  rw [List.getElem?_eq_getElem hlt, Option.some.injEq]
  exact List.inj_on_of_nodup_map (chain.instrumentsFor_distinct underlying optionType bucket now)
    (List.getElem_mem hlt) hmem (of_decide_eq_true hfound)

/-- The pick at a number of places from the money. -/
theorem getAtmStrike_offset (atm : InstrumentRecord) (offset : Int)
    (h : chain.atm underlying optionType bucket spot now = some atm) :
    chain.getAtmStrike underlying optionType bucket spot offset now =
      (placed (chain.instrumentsFor underlying optionType bucket now)
        ((chain.instrumentsFor underlying optionType bucket now).findIdx
          (fun inst => inst.symbol = atm.symbol) + offset)).bind chain.quoted := by
  have hplace := chain.atm_place underlying optionType bucket now spot atm h
  unfold ChainCache.atm Ladder.nearest at h
  unfold getAtmStrike
  rcases hsort : (chain.instrumentsFor underlying optionType bucket now).insertionSort
      (fun a b => |a.strike - spot| ≤ |b.strike - spot|) with _ | ⟨a, rest⟩
  · rw [hsort] at h
    cases h
  · rw [hsort] at h
    cases h
    simp only [hsort]
    generalize hitems : chain.instrumentsFor underlying optionType bucket now = items at hplace ⊢
    generalize hidx : items.findIdx (fun inst => decide (inst.symbol = atm.symbol)) = i at hplace ⊢
    unfold placed
    by_cases h0 : offset = 0
    · rw [if_pos h0, h0, add_zero, if_pos (Int.natCast_nonneg i), Int.toNat_natCast, hplace]
      rfl
    · rw [if_neg h0]
      by_cases hnonneg : 0 ≤ (i : Int) + offset
      · rw [if_pos hnonneg]
        -- Past the end of the list both sides find nothing.
        by_cases hlt : (i : Int) + offset < items.length
        · rw [if_pos ⟨hnonneg, hlt⟩, List.getElem?_eq_getElem (by omega)]
          rfl
        · rw [if_neg (fun hin => hlt hin.2), List.getElem?_eq_none (by omega)]
          rfl
      · rw [if_neg hnonneg, if_neg (fun hin => hnonneg hin.1)]
        rfl

theorem getAtmStrike_nil (offset : Int)
    (h : chain.instrumentsFor underlying optionType bucket now = []) :
    chain.getAtmStrike underlying optionType bucket spot offset now = none := by
  unfold getAtmStrike
  simp only [h, List.insertionSort_nil]

end Atm

section Delta

variable (targetDelta : ℚ) (deltaMin deltaMax : Option ℚ)

/-- What a delta query looks at, and at which distance. -/
theorem mem_deltaCandidates (c : ℚ × StrikeSelection) :
    c ∈ chain.deltaCandidates underlying optionType bucket targetDelta deltaMin deltaMax now ↔
      ∃ delta, chain.InBand underlying optionType bucket now deltaMin deltaMax c.2.instrument
        c.2.quote delta ∧ c.1 = |(|delta| - targetDelta)| := by
  constructor
  · intro hmem
    rcases chain.deltaCandidates_spec _ _ _ _ _ _ _ c.1 c.2 hmem with
      ⟨hinst, hquote, delta, hdelta, hdistance, hlower, hupper⟩
    exact ⟨delta, ⟨(chain.eligible_iff _ _ _ _ _).mp hinst, hquote, hdelta, hlower, hupper⟩,
      hdistance⟩
  · rcases c with ⟨distance, inst, quote⟩
    rintro ⟨delta, hband, hdistance⟩
    rw [deltaCandidates, List.mem_filterMap]
    refine ⟨inst, (chain.eligible_iff _ _ _ _ inst).mpr hband.eligible, ?_⟩
    have hquoted : chain.quotes inst.symbol = some quote := hband.quoted
    have hread : quote.delta = some delta := hband.read
    simp only at hdistance
    simp only [hquoted, hread, hdistance]
    rw [if_neg]
    rintro (⟨lo, hlo, hlt⟩ | ⟨hi, hhi, hlt⟩)
    · exact absurd (hband.lower lo hlo) (not_le.mpr hlt)
    · exact absurd (hband.upper hi hhi) (not_le.mpr hlt)

theorem deltaCandidates_sorted :
    (chain.deltaCandidates underlying optionType bucket targetDelta deltaMin deltaMax
      now).Pairwise (fun a b => a.2.instrument.strike ≤ b.2.instrument.strike) := by
  unfold deltaCandidates
  -- A candidate carries the option it was made of.
  refine List.Pairwise.filterMap _ (fun a a' hle c hc c' hc' => ?_)
    (chain.instrumentsFor_sorted underlying optionType bucket now)
  split at hc
  · cases hc
  · split at hc
    · cases hc
    · split_ifs at hc
      cases hc
      split at hc'
      · cases hc'
      · split at hc'
        · cases hc'
        · split_ifs at hc'
          cases hc'
          exact hle

/-- The pick by delta is eligible and in the band, and the least of what is. -/
theorem getStrikeByDelta_least (sel : StrikeSelection)
    (h : chain.getStrikeByDelta underlying optionType bucket targetDelta deltaMin deltaMax now =
      some sel) :
    ∃ delta, chain.InBand underlying optionType bucket now deltaMin deltaMax sel.instrument
        sel.quote delta ∧
      ∀ inst quote d, chain.InBand underlying optionType bucket now deltaMin deltaMax inst quote d →
        |(|delta| - targetDelta)| < |(|d| - targetDelta)| ∨
          |(|delta| - targetDelta)| = |(|d| - targetDelta)| ∧
            sel.instrument.strike ≤ inst.strike := by
  rcases Option.map_eq_some_iff.mp h with ⟨⟨distance, sel'⟩, hhead, rfl⟩
  have hmem := List.mem_of_head? hhead
  rw [List.mem_insertionSort, mem_deltaCandidates] at hmem
  rcases hmem with ⟨delta, hband, rfl⟩
  refine ⟨delta, hband, fun inst quote d hother => ?_⟩
  exact Ladder.first_least Prod.fst (fun a b => a.2.instrument.strike ≤ b.2.instrument.strike)
    (fun _ => le_refl _) _
    (chain.deltaCandidates_sorted underlying optionType bucket now targetDelta deltaMin deltaMax) _
    hhead (|(|d| - targetDelta)|, { instrument := inst, quote := quote })
    ((chain.mem_deltaCandidates _ _ _ _ _ _ _ _).mpr ⟨d, hother, rfl⟩)

theorem getStrikeByDelta_isSome :
    (∃ sel, chain.getStrikeByDelta underlying optionType bucket targetDelta deltaMin deltaMax now =
      some sel) ↔
    ∃ inst quote delta,
      chain.InBand underlying optionType bucket now deltaMin deltaMax inst quote delta := by
  constructor
  · rintro ⟨sel, hsel⟩
    rcases chain.getStrikeByDelta_least underlying optionType bucket now targetDelta deltaMin
      deltaMax sel hsel with ⟨delta, hband, _⟩
    exact ⟨_, _, delta, hband⟩
  · rintro ⟨inst, quote, delta, hband⟩
    have hmem := (chain.mem_deltaCandidates underlying optionType bucket now targetDelta deltaMin
      deltaMax (|(|delta| - targetDelta)|, { instrument := inst, quote := quote })).mpr
      ⟨delta, hband, rfl⟩
    rcases Ladder.first_isSome (fun a b => a.1 ≤ b.1) _ (List.ne_nil_of_mem hmem) with ⟨c, hc⟩
    exact ⟨c.2, by rw [getStrikeByDelta, hc, Option.map_some]⟩

end Delta

/-- The pick by delta exists exactly if an eligible option is quoted with a delta
    inside the bounds, and is the least of those by distance and strike. The pick at
    the money is the one a number of places from it by strike, if the place exists
    and is quoted. -/
theorem pickers_right (spot targetDelta : ℚ) (deltaMin deltaMax : Option ℚ) :
    ((∃ sel, chain.getStrikeByDelta underlying optionType bucket targetDelta deltaMin deltaMax
        now = some sel) ↔
      ∃ inst quote delta,
        chain.InBand underlying optionType bucket now deltaMin deltaMax inst quote delta) ∧
    (∀ sel, chain.getStrikeByDelta underlying optionType bucket targetDelta deltaMin deltaMax
        now = some sel →
      ∃ delta, chain.InBand underlying optionType bucket now deltaMin deltaMax sel.instrument
          sel.quote delta ∧
        ∀ inst quote d,
          chain.InBand underlying optionType bucket now deltaMin deltaMax inst quote d →
          |(|delta| - targetDelta)| < |(|d| - targetDelta)| ∨
            |(|delta| - targetDelta)| = |(|d| - targetDelta)| ∧
              sel.instrument.strike ≤ inst.strike) ∧
    ∃ ladder, chain.StrikeOrder underlying optionType bucket now ladder ∧
      ((ladder = [] ∧ ∀ offset,
          chain.getAtmStrike underlying optionType bucket spot offset now = none) ∨
        ∃ (i : Nat) (atm : InstrumentRecord), ladder[i]? = some atm ∧
          chain.IsAtm underlying optionType bucket now spot atm ∧
          ∀ offset, chain.getAtmStrike underlying optionType bucket spot offset now =
            (placed ladder (i + offset)).bind chain.quoted) := by
  refine ⟨chain.getStrikeByDelta_isSome underlying optionType bucket now targetDelta deltaMin
      deltaMax,
    chain.getStrikeByDelta_least underlying optionType bucket now targetDelta deltaMin deltaMax,
    chain.instrumentsFor underlying optionType bucket now,
    chain.instrumentsFor_strikeOrder underlying optionType bucket now, ?_⟩
  by_cases hnil : chain.instrumentsFor underlying optionType bucket now = []
  · exact Or.inl ⟨hnil, fun offset =>
      chain.getAtmStrike_nil underlying optionType bucket now spot offset hnil⟩
  · rcases Ladder.nearest_isSome InstrumentRecord.strike spot _ hnil with ⟨atm, hatm⟩
    exact Or.inr ⟨_, atm, chain.atm_place underlying optionType bucket now spot atm hatm,
      chain.atm_isAtm underlying optionType bucket now spot atm hatm, fun offset =>
      chain.getAtmStrike_offset underlying optionType bucket now spot atm offset hatm⟩

end ChainCache

end OptionsBot
