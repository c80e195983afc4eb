import Mathlib.Tactic.FieldSimp
import Mathlib.Tactic.Linarith
import Mathlib.Tactic.NormNum
import OptionsBot.Core.Postmortem

/-!
# The Verdict on a Movement

The verdict compares the return after an hour with five basis points. The return is
a fraction, and it is multiplied by a hundred and not by ten thousand before it is
compared, so a movement counts as flat up to five per cent. Beyond that, and below
five basis points, the verdict is the one the threshold asks for.

The excursions hold whatever the verdict: neither has the wrong sign, since both
start from zero, and a bar whose close lies between its low and its high moves each
at least as far as its own return.

## Main definitions

* `OptionType.wants`, `OptionType.directed`: The direction of a long option.
* `CandleRow.Ordered`: A bar whose close lies between its low and its high.
* `MovementRight`: What a row says of the attempt.

## Theorems

* `bar_excursions`, `Bracketed.bar`, `bracketed_path`: What a bar, and what the loop
  does to the excursions.
* `path_retAtBar`: The returns the loop records.
* `spotFavorable_flat_iff`, `spotFavorable_favorable_iff`: The verdict on a return.
* `movementRight_iff`: When a row is right.
-/

namespace OptionsBot

-- The sample runs below compute with rationals.
attribute [local semireducible] Rat.add Rat.sub Rat.mul Rat.inv

/-- A long option gains from a return of this sign. -/
def OptionType.wants : OptionType → ℚ → Prop
  | .call, ret => 0 < ret
  | .put, ret => ret < 0

/-- A return in the direction of a long option. -/
def OptionType.directed : OptionType → ℚ → ℚ
  | .call, ret => ret
  | .put, ret => -ret

/-- The close lies between the low and the high, as far as they are there. -/
def CandleRow.Ordered (c : CandleRow) : Prop :=
  ∀ close, c.close = some close →
    (∀ high, c.high = some high → close ≤ high) ∧ (∀ low, c.low = some low → low ≤ close)

section Excursions

variable (kind : OptionType) (spot : ℚ)

/-- The return to the close of a bar, as the loop takes it. -/
def CandleRow.ret (c : CandleRow) : ℚ := (orFloat c.close spot - spot) / spot

/-- Neither excursion has the wrong sign, and the recorded returns lie between them. -/
def Bracketed (path : MovementPath) : Prop :=
  path.mae ≤ 0 ∧ 0 ≤ path.mfe ∧
    ∀ item ∈ path.retAtBar, path.mae ≤ kind.directed item.2 ∧ kind.directed item.2 ≤ path.mfe

/-- The high and the low of an ordered bar, as the loop takes them, or else a bar
    without a close of its own. -/
theorem ordered_bar (c : CandleRow) (h : c.Ordered) :
    orFloat c.close spot = spot ∨
      orFloat c.close spot ≤ orFloat c.high (orFloat c.close spot) ∧
      orFloat c.low (orFloat c.close spot) ≤ orFloat c.close spot := by
  cases hclose : c.close with
  | none => exact Or.inl rfl
  | some close =>
      by_cases hzero : close = 0
      · exact Or.inl (by simp [orFloat, hzero])
      · right
        have heq : orFloat (some close) spot = close := by simp [orFloat, hzero]
        rw [heq]
        constructor
        · cases hhigh : c.high with
          | none => exact le_refl close
          | some high =>
              simp only [orFloat]
              split_ifs
              · exact le_refl close
              · exact (h close hclose).1 high hhigh
        · cases hlow : c.low with
          | none => exact le_refl close
          | some low =>
              simp only [orFloat]
              split_ifs
              · exact le_refl close
              · exact (h close hclose).2 low hlow

/-- A bar only widens the excursions, and if it is ordered they then have its return,
    or its return is zero. -/
theorem bar_excursions (hspot : 0 < spot) (path : MovementPath) (item : CandleRow × Nat) :
    (path.bar (some kind) spot item).mae ≤ path.mae ∧
    path.mfe ≤ (path.bar (some kind) spot item).mfe ∧
    (item.1.Ordered → kind.directed (item.1.ret spot) = 0 ∨
      (path.bar (some kind) spot item).mae ≤ kind.directed (item.1.ret spot) ∧
      kind.directed (item.1.ret spot) ≤ (path.bar (some kind) spot item).mfe) := by
  have hscale : ∀ a b : ℚ, a ≤ b → (a - spot) / spot ≤ (b - spot) / spot := fun a b hab =>
    div_le_div_of_nonneg_right (sub_le_sub_right hab spot) hspot.le
  refine ⟨?_, ?_, ?_⟩
  · cases kind with
    | call => exact min_le_left _ _
    | put => exact min_le_left _ _
  · cases kind with
    | call => exact le_max_left _ _
    | put => exact le_max_left _ _
  · intro hordered
    rcases ordered_bar spot item.1 hordered with hclose | ⟨hhigh, hlow⟩
    · left
      have hret : item.1.ret spot = 0 := by rw [CandleRow.ret, hclose, sub_self, zero_div]
      rw [hret]
      cases kind with
      | call => rfl
      | put => exact neg_zero
    · right
      have hup := hscale _ _ hhigh
      have hdown := hscale _ _ hlow
      cases kind with
      | call => exact ⟨(min_le_right _ _).trans hdown, hup.trans (le_max_right _ _)⟩
      | put =>
          -- For a put the high is against the trade, and the low for it.
          exact ⟨(min_le_right _ _).trans (neg_le_neg hup),
            (neg_le_neg hdown).trans (le_max_right _ _)⟩

theorem bar_retAtBar (path : MovementPath) (item : CandleRow × Nat) :
    (path.bar (some kind) spot item).retAtBar =
      path.retAtBar ++ if item.2 ∈ forwardBars then [(item.2, item.1.ret spot)] else [] := by
  unfold MovementPath.bar CandleRow.ret
  simp only
  split_ifs
  · rfl
  · rw [List.append_nil]

theorem Bracketed.bar (hspot : 0 < spot) {path : MovementPath} (h : Bracketed kind path)
    (item : CandleRow × Nat) (hordered : item.1.Ordered) :
    Bracketed kind (path.bar (some kind) spot item) := by
  rcases bar_excursions kind spot hspot path item with ⟨hmae, hmfe, hown⟩
  rcases h with ⟨hneg, hpos, hall⟩
  refine ⟨hmae.trans hneg, hpos.trans hmfe, ?_⟩
  intro entry hentry
  rw [bar_retAtBar] at hentry
  rcases List.mem_append.mp hentry with hold | hnew
  · exact ⟨hmae.trans (hall entry hold).1, (hall entry hold).2.trans hmfe⟩
  · split_ifs at hnew with hrecorded
    · rw [List.mem_singleton.mp hnew]
      rcases hown hordered with hzero | hbetween
      · simp only [hzero]
        exact ⟨hmae.trans hneg, hpos.trans hmfe⟩
      · exact hbetween
    · exact absurd hnew List.not_mem_nil

/-- The signs hold on any bars. -/
theorem signs_path (hspot : 0 < spot) (items : List (CandleRow × Nat)) (path : MovementPath)
    (hneg : path.mae ≤ 0) (hpos : 0 ≤ path.mfe) :
    (items.foldl (MovementPath.bar (some kind) spot) path).mae ≤ 0 ∧
      0 ≤ (items.foldl (MovementPath.bar (some kind) spot) path).mfe := by
  induction items generalizing path with
  | nil => exact ⟨hneg, hpos⟩
  | cons item rest ih =>
      rcases bar_excursions kind spot hspot path item with ⟨hmae, hmfe, -⟩
      exact ih _ (hmae.trans hneg) (hpos.trans hmfe)

theorem bracketed_path (hspot : 0 < spot) (items : List (CandleRow × Nat)) (path : MovementPath)
    (h : Bracketed kind path) (hordered : ∀ item ∈ items, item.1.Ordered) :
    Bracketed kind (items.foldl (MovementPath.bar (some kind) spot) path) := by
  induction items generalizing path with
  | nil => exact h
  | cons item rest ih =>
      exact ih _ (h.bar kind spot hspot item (hordered item List.mem_cons_self))
        (fun other hother => hordered other (List.mem_cons_of_mem item hother))

/-- The loop records the return of every bar it has a distance for. -/
theorem path_retAtBar (items : List (CandleRow × Nat)) (path : MovementPath) :
    (items.foldl (MovementPath.bar (some kind) spot) path).retAtBar =
      path.retAtBar ++ (items.filter (fun item => decide (item.2 ∈ forwardBars))).map
        (fun item => (item.2, item.1.ret spot)) := by
  induction items generalizing path with
  | nil => simp
  | cons item rest ih =>
      rw [List.foldl_cons, ih, bar_retAtBar, List.filter_cons, List.append_assoc]
      by_cases hrecorded : item.2 ∈ forwardBars
      · simp [hrecorded]
      · simp [hrecorded]

/-- The fourth bar's return is recorded under four. -/
theorem path_ret60 (candles : List CandleRow) (idx : Nat) (bar : CandleRow)
    (hbar : candles[idx + 4]? = some bar) :
    (((followingBars candles idx).foldl (MovementPath.bar (some kind) spot) {}).retAtBar).lookup 4 =
      some (bar.ret spot) := by
  rw [path_retAtBar, followingBars]
  have hfourth : ((candles.drop (idx + 1)).take (forwardBars.foldl max 0))[3]? = some bar := by
    rw [List.getElem?_take_of_lt (by decide), List.getElem?_drop]
    exact hbar
  -- Four bars are there, and their distances are one to four.
  rcases hbars : (candles.drop (idx + 1)).take (forwardBars.foldl max 0) with
    _ | ⟨b1, _ | ⟨b2, _ | ⟨b3, _ | ⟨b4, rest⟩⟩⟩⟩
  all_goals rw [hbars] at hfourth
  · cases hfourth
  · cases hfourth
  · cases hfourth
  · cases hfourth
  · cases hfourth
    rfl

end Excursions

section Threshold

variable (kind : OptionType) (ret : ℚ)

theorem spotFavorable_flat_iff : spotFavorable (some kind) ret = .flat ↔ |ret| * 100 < 5 := by
  unfold spotFavorable
  by_cases h : |ret| * 100 < 5
  · simp [h]
  · cases kind with
    | call => by_cases hsign : 0 < ret <;> simp [h, hsign]
    | put => by_cases hsign : ret < 0 <;> simp [h, hsign]

theorem spotFavorable_favorable_iff (h : ¬ |ret| * 100 < 5) :
    spotFavorable (some kind) ret = .favorable ↔ kind.wants ret := by
  unfold spotFavorable OptionType.wants
  cases kind with
  | call => by_cases hsign : 0 < ret <;> simp [h, hsign]
  | put => by_cases hsign : ret < 0 <;> simp [h, hsign]

/-- The verdict is the one the threshold of five basis points asks for, on a return
    below it and on one of five per cent or more. -/
theorem spotFavorable_right_iff :
    ((spotFavorable (some kind) ret = .flat ↔ |ret| < 5 / 10000) ∧
      (¬ |ret| < 5 / 10000 → (spotFavorable (some kind) ret = .favorable ↔ kind.wants ret))) ↔
    |ret| < 5 / 10000 ∨ 5 / 100 ≤ |ret| := by
  rw [spotFavorable_flat_iff]
  constructor
  · rintro ⟨hflat, -⟩
    by_cases hsmall : |ret| < 5 / 10000
    · exact Or.inl hsmall
    · right
      have hlarge : ¬ |ret| * 100 < 5 := fun h => hsmall (hflat.mp h)
      linarith
  · rintro (hsmall | hlarge)
    · exact ⟨⟨fun _ => hsmall, fun _ => by linarith⟩, fun h => absurd hsmall h⟩
    · have hnotflat : ¬ |ret| * 100 < 5 := by linarith
      refine ⟨⟨fun h => absurd h hnotflat, fun h => by linarith⟩, fun _ => ?_⟩
      exact spotFavorable_favorable_iff kind ret hnotflat

end Threshold

/-- What a row says of an attempt: the verdict by the return after an hour and a
    threshold of five basis points, and two excursions around the returns. -/
structure MovementRight (kind : OptionType) (candles : List CandleRow) (row : MovementRow) :
    Prop where
  verdict : ∃ ret, row.retPctAtBar.lookup 4 = some ret ∧
    (row.verdict60m = .flat ↔ |ret| < 5 / 10000) ∧
    (¬ |ret| < 5 / 10000 → (row.verdict60m = .favorable ↔ kind.wants ret))
  mae : row.maePct ≤ 0
  mfe : 0 ≤ row.mfePct
  between : (∀ bar ∈ candles, bar.Ordered) → ∀ item ∈ row.retPctAtBar,
    row.maePct ≤ kind.directed item.2 * 100 ∧ kind.directed item.2 * 100 ≤ row.mfePct

section Row

variable (attempt : TradeAttempt) (candles : List CandleRow) (kind : OptionType) (spot : ℚ)
  (idx : Nat)

/-- The row of an attempt on a call or a put, by its entry price and entry bar. -/
def movementRow : MovementRow :=
  let path := (followingBars candles idx).foldl (MovementPath.bar (some kind) spot) {}
  { attempt := attempt, entrySpot := spot, spotAtBar := path.spotAtBar,
    retPctAtBar := path.retAtBar, mfePct := path.mfe * 100, maePct := path.mae * 100,
    verdict60m := spotFavorable (some kind) ((path.retAtBar.lookup 4).getD 0) }

theorem analyzeMovement_eq (host : DateTime → Int) (hkind : attempt.optionType = some kind)
    (hspot : entrySpotOf host attempt.spotAtSignal candles attempt.entryTs = some spot)
    (hpos : 0 < spot) (hidx : nearestCandleIndex host candles attempt.entryTs = some idx) :
    analyzeMovement host attempt candles = some (movementRow attempt candles kind spot idx) := by
  simp only [analyzeMovement, hspot, hidx, hkind, Option.bind_eq_bind, Option.bind_some,
    if_neg (not_le.mpr hpos), movementRow]

theorem followingBars_subset (item : CandleRow × Nat) (h : item ∈ followingBars candles idx) :
    item.1 ∈ candles :=
  List.mem_of_mem_drop (List.mem_of_mem_take (List.fst_mem_of_mem_zipIdx h))

/-- The excursions of a row are right on any bars. -/
theorem movementRow_excursions (hpos : 0 < spot) :
    (movementRow attempt candles kind spot idx).maePct ≤ 0 ∧
    0 ≤ (movementRow attempt candles kind spot idx).mfePct ∧
    ((∀ bar ∈ candles, bar.Ordered) →
      ∀ item ∈ (movementRow attempt candles kind spot idx).retPctAtBar,
        (movementRow attempt candles kind spot idx).maePct ≤ kind.directed item.2 * 100 ∧
        kind.directed item.2 * 100 ≤ (movementRow attempt candles kind spot idx).mfePct) := by
  rcases signs_path kind spot hpos (followingBars candles idx) {} (le_refl 0) (le_refl 0)
    with ⟨hneg, hnonneg⟩
  refine ⟨mul_nonpos_of_nonpos_of_nonneg hneg (by norm_num), mul_nonneg hnonneg (by norm_num), ?_⟩
  intro hordered item hitem
  have hbracket := bracketed_path kind spot hpos (followingBars candles idx) {}
    ⟨le_refl 0, le_refl 0, fun entry hentry => absurd hentry List.not_mem_nil⟩
    (fun bar hbar => hordered bar.1 (followingBars_subset candles idx bar hbar))
  have hown := hbracket.2.2 item hitem
  exact ⟨mul_le_mul_of_nonneg_right hown.1 (by norm_num),
    mul_le_mul_of_nonneg_right hown.2 (by norm_num)⟩

/-- With a fourth bar after the entry there is a row, and it is right if the price had
    moved by less than five basis points of the entry price, or by five per cent of it
    or more. -/
theorem movementRight_iff (host : DateTime → Int) (bar : CandleRow)
    (hkind : attempt.optionType = some kind)
    (hspot : entrySpotOf host attempt.spotAtSignal candles attempt.entryTs = some spot)
    (hpos : 0 < spot) (hidx : nearestCandleIndex host candles attempt.entryTs = some idx)
    (hbar : candles[idx + 4]? = some bar) :
    ∃ row, analyzeMovement host attempt candles = some row ∧
      (MovementRight kind candles row ↔
        |orFloat bar.close spot - spot| < spot * (5 / 10000) ∨
          spot * (5 / 100) ≤ |orFloat bar.close spot - spot|) := by
  refine ⟨_, analyzeMovement_eq attempt candles kind spot idx host hkind hspot hpos hidx, ?_⟩
  have hret := path_ret60 kind spot candles idx bar hbar
  have hlookup : (movementRow attempt candles kind spot idx).retPctAtBar.lookup 4 =
      some (bar.ret spot) := hret
  have hverdict : (movementRow attempt candles kind spot idx).verdict60m =
      spotFavorable (some kind) (bar.ret spot) := by
    simp only [movementRow, hret, Option.getD_some]
  -- The size of the return is that of the movement over the entry price.
  have hsize : |orFloat bar.close spot - spot| = spot * |bar.ret spot| := by
    rw [CandleRow.ret, abs_div, abs_of_pos hpos, mul_div_cancel₀ _ hpos.ne']
  rw [hsize, mul_lt_mul_iff_right₀ hpos, mul_le_mul_iff_right₀ hpos,
    ← spotFavorable_right_iff kind (bar.ret spot)]
  constructor
  · intro h
    rcases h.verdict with ⟨ret, hret60, hflat, hfavorable⟩
    rw [hlookup] at hret60
    cases hret60
    rw [hverdict] at hflat hfavorable
    exact ⟨hflat, hfavorable⟩
  · rintro ⟨hflat, hfavorable⟩
    rcases movementRow_excursions attempt candles kind spot idx hpos with ⟨hmae, hmfe, hbetween⟩
    rw [← hverdict] at hflat hfavorable
    exact ⟨⟨_, hlookup, hflat, hfavorable⟩, hmae, hmfe, hbetween⟩

end Row

section Samples

/-- A call bought at a spot of one hundred. -/
def callAttempt : TradeAttempt :=
  { tradeId := 1, entryTs := unixEpoch, underlying := "BTC", optionType := some .call,
    spotAtSignal := some 100 }

/-- Five candles of a quarter of an hour, the last one closing at the given price. -/
def risingCandles (final : ℚ) : List CandleRow :=
  [⟨some 0, some 100, some 100, some 100⟩, ⟨some 900, some 100, some 100, some 100⟩,
    ⟨some 1800, some 100, some 100, some 100⟩, ⟨some 2700, some 100, some 100, some 100⟩,
    ⟨some 3600, some final, some final, some 100⟩]

/-- A rise by six per cent is favorable for a call, and the row is right. -/
theorem movementRight_six : ∃ row,
    analyzeMovement (fun _ => 0) callAttempt (risingCandles 106) = some row ∧
      MovementRight .call (risingCandles 106) row := by
  rcases movementRight_iff callAttempt (risingCandles 106) .call 100 0 (fun _ => 0)
    ⟨some 3600, some 106, some 106, some 100⟩ rfl (by decide) (by norm_num) (by decide) rfl
    with ⟨row, hrow, hright⟩
  refine ⟨row, hrow, hright.mpr (Or.inr ?_)⟩
  simp only [orFloat]
  norm_num

/-- A rise by one per cent counts as flat, and is twenty times five basis points. -/
theorem movement_one_flat : ∃ row,
    analyzeMovement (fun _ => 0) callAttempt (risingCandles 101) = some row ∧
      row.retPctAtBar.lookup 4 = some (1 / 100) ∧ row.verdict60m = .flat ∧
      ¬ MovementRight .call (risingCandles 101) row := by
  have hlookup : (movementRow callAttempt (risingCandles 101) .call 100 0).retPctAtBar.lookup 4 =
      some (1 / 100) := by decide
  have hflat : (movementRow callAttempt (risingCandles 101) .call 100 0).verdict60m = .flat := by
    decide
  refine ⟨_, analyzeMovement_eq callAttempt (risingCandles 101) .call 100 0 (fun _ => 0) rfl
    (by decide) (by norm_num) (by decide), hlookup, hflat, ?_⟩
  intro h
  rcases h.verdict with ⟨ret, hret, hright, -⟩
  rw [hlookup] at hret
  cases hret
  have hsmall := hright.mp hflat
  norm_num [abs_of_pos] at hsmall

end Samples

end OptionsBot
