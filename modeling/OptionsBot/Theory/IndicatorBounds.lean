import OptionsBot.Theory.TrendSymmetry

/-!
# The Averages Stay Within What They Average

Both indicators are running averages with shares between zero and one: the moving
average starts from the first value, and Wilder's from the mean of the first window.
So each stays in every interval the values averaged are in. An entry depends on the
values up to its own only, and that gives the bound entry by entry: the interval may
be the one of the values seen so far.

## Main definitions

* `WithinExtremes`: A value between the extremes of a list.
* `wilderAverages`: Wilder's averages as a smoothing.

## Theorems

* `ema_take`, `trueRanges_take`, `atr_take`: The first entries come from the first
  values.
* `atr_eq`: The average true range in two parts.
* `ema_between`, `atr_between`: The averages of values in an interval.
* `atr_undefined`: Where there is no average true range.
* `averages_within`: The bounds at every index.
-/

namespace OptionsBot

/-- A value between the least and the greatest of a list. -/
def WithinExtremes (xs : List ℚ) (v : ℚ) : Prop :=
  ∃ lo hi, minimum xs = .ok lo ∧ maximum xs = .ok hi ∧ lo ≤ v ∧ v ≤ hi

theorem minimum_le (xs : List ℚ) (lo : ℚ) (h : minimum xs = .ok lo) : ∀ x ∈ xs, lo ≤ x := by
  cases xs with
  | nil => cases h
  | cons y rest =>
      cases h
      exact (List.min?_eq_some_iff.mp List.min?_cons').2

theorem minimum_mem (xs : List ℚ) (lo : ℚ) (h : minimum xs = .ok lo) : lo ∈ xs := by
  cases xs with
  | nil => cases h
  | cons y rest =>
      cases h
      exact (List.min?_eq_some_iff.mp List.min?_cons').1

theorem le_maximum (xs : List ℚ) (hi : ℚ) (h : maximum xs = .ok hi) : ∀ x ∈ xs, x ≤ hi := by
  cases xs with
  | nil => cases h
  | cons y rest =>
      cases h
      exact (List.max?_eq_some_iff.mp List.max?_cons').2

/-- What lies in every interval that has all of the list lies between its extremes. -/
theorem withinExtremes_of_intervals (xs : List ℚ) (v : ℚ) (hne : xs ≠ [])
    (h : ∀ lo hi, (∀ x ∈ xs, lo ≤ x ∧ x ≤ hi) → lo ≤ v ∧ v ≤ hi) : WithinExtremes xs v := by
  rcases minimum_ready xs hne with ⟨lo, hlo⟩
  rcases maximum_ready xs hne with ⟨hi, hhi⟩
  have hv := h lo hi (fun x hx => ⟨minimum_le xs lo hlo x hx, le_maximum xs hi hhi x hx⟩)
  exact ⟨lo, hi, hlo, hhi, hv.1, hv.2⟩

section MovingAverage

variable (values series : List ℚ) (period : Int)

theorem ema_length (h : ema values period = .ok series) : series.length = values.length := by
  unfold ema at h
  split_ifs at h with hperiod
  cases values with
  | nil =>
      cases h
      rfl
  | cons v rest =>
      cases h
      simp [emaFrom_eq]

theorem ema_take (h : ema values period = .ok series) (n : Nat) :
    ema (values.take n) period = .ok (series.take n) := by
  unfold ema at h ⊢
  split_ifs at h ⊢ with hperiod
  cases values with
  | nil =>
      cases h
      simp
  | cons v rest =>
      cases h
      cases n with
      | zero => rfl
      | succ n => simp only [List.take_succ_cons, emaFrom_eq, Smoothing.smooth_take]

/-- The share of a value is at most one, since the period is at least one. -/
theorem ema_between (h : ema values period = .ok series) (lo hi : ℚ)
    (hvalues : ∀ v ∈ values, lo ≤ v ∧ v ≤ hi) : ∀ v ∈ series, lo ≤ v ∧ v ≤ hi := by
  unfold ema at h
  split_ifs at h with hperiod
  have hone : (1 : ℚ) ≤ period := by
    exact_mod_cast (by omega : (1 : Int) ≤ period)
  have h0 : (0 : ℚ) ≤ 2 / (period + 1) := by positivity
  have h1 : (2 : ℚ) / (period + 1) ≤ 1 := by
    rw [div_le_one (by linarith)]
    linarith
  cases values with
  | nil =>
      cases h
      exact fun v hv => absurd hv List.not_mem_nil
  | cons first rest =>
      cases h
      have hfirst := hvalues first List.mem_cons_self
      intro v hv
      rcases List.mem_cons.mp hv with heq | hin
      · rw [heq]
        exact hfirst
      · rw [emaFrom_eq] at hin
        exact Smoothing.smooth_between _ first lo hi rest h0 h1 hfirst
          (fun x hx => hvalues x (List.mem_cons_of_mem first hx)) v hin

theorem ema_within (h : ema values period = .ok series) (i : Nat) (v : ℚ)
    (hv : series[i]? = some v) : WithinExtremes (values.take (i + 1)) v := by
  have hmem : v ∈ series.take (i + 1) := by
    refine List.mem_iff_getElem?.mpr ⟨i, ?_⟩
    rw [List.getElem?_take_of_lt (Nat.lt_succ_self i)]
    exact hv
  have htake := ema_take values series period h (i + 1)
  refine withinExtremes_of_intervals _ v ?_ (fun lo hi hall =>
    ema_between _ _ period htake lo hi hall v hmem)
  intro hnil
  have hlength := ema_length _ _ period htake
  rw [hnil, List.length_nil] at hlength
  exact absurd hmem (by rw [List.length_eq_zero_iff.mp hlength]; exact List.not_mem_nil)

end MovingAverage

section TrueRange

variable (candles : List Candle) (averages : List (Option ℚ)) (period : Int)

theorem trueRanges_take (prev : Option ℚ) (n : Nat) :
    trueRanges prev (candles.take n) = (trueRanges prev candles).take n := by
  induction candles generalizing prev n with
  | nil => simp [trueRanges]
  | cons c rest ih =>
      cases n with
      | zero => rfl
      | succ n => simp only [List.take_succ_cons, trueRanges, ih]

/-- Wilder's averages from the first window on. -/
def wilderAverages (p : Nat) (ranges : List ℚ) : List ℚ :=
  let first := (ranges.take p).sum / p
  first :: Smoothing.smooth (1 / (p : ℚ)) first (ranges.drop p)

/-- The entries before the first window is full are undefined, the others are
    Wilder's averages. -/
theorem atr_eq (hperiod : 0 < period) : atr candles period = .ok
    (if candles.length < period.toNat then List.replicate candles.length none
      else List.replicate (period.toNat - 1) none ++
        (wilderAverages period.toNat (trueRanges none candles)).map some) := by
  have hp : (period.toNat : ℚ) ≠ 0 := by
    have hpos : period.toNat ≠ 0 := by omega
    exact_mod_cast hpos
  unfold atr wilderAverages
  simp only [if_neg (not_le.mpr hperiod), trueRanges_length, wilderFrom_eq _ _ _ hp,
    List.map_cons]
  split_ifs
  · rfl
  · rfl

theorem atr_period (h : atr candles period = .ok averages) : 0 < period := by
  unfold atr at h
  by_contra hperiod
  rw [if_pos (not_lt.mp hperiod)] at h
  cases h

theorem wilderAverages_take (p n : Nat) (ranges : List ℚ) (hp : 0 < p) (hn : p ≤ n) :
    wilderAverages p (ranges.take n) = (wilderAverages p ranges).take (n - (p - 1)) := by
  have hrest : n - (p - 1) = n - p + 1 := by omega
  simp only [wilderAverages, hrest, List.take_succ_cons, List.take_take, List.drop_take,
    Nat.min_eq_left hn, Smoothing.smooth_take]

/-- The first average is the mean of a window, and each later one mixes a true range
    with the average before it. -/
theorem wilderAverages_between (p : Nat) (ranges : List ℚ) (hp : 0 < p)
    (hlength : p ≤ ranges.length) (lo hi : ℚ) (hranges : ∀ r ∈ ranges, lo ≤ r ∧ r ≤ hi) :
    ∀ v ∈ wilderAverages p ranges, lo ≤ v ∧ v ≤ hi := by
  have hpos : (0 : ℚ) < p := by exact_mod_cast hp
  have hone : (1 : ℚ) ≤ p := by exact_mod_cast hp
  have hwindow : (ranges.take p).length = p := by
    rw [List.length_take]
    omega
  have hne : ranges.take p ≠ [] := by
    intro hnil
    rw [hnil, List.length_nil] at hwindow
    omega
  have hfirst := Smoothing.mean_between lo hi (ranges.take p) hne
    (fun r hr => hranges r (List.mem_of_mem_take hr))
  rw [hwindow] at hfirst
  intro v hv
  rcases List.mem_cons.mp hv with heq | hin
  · rw [heq]
    exact hfirst
  · exact Smoothing.smooth_between (1 / (p : ℚ)) _ lo hi (ranges.drop p)
      (one_div_nonneg.mpr hpos.le) (by rw [div_le_one hpos]; exact hone) hfirst
      (fun r hr => hranges r (List.mem_of_mem_drop hr)) v hin

theorem atr_length (h : atr candles period = .ok averages) :
    averages.length = candles.length := by
  have hperiod := atr_period candles averages period h
  rw [atr_eq candles period hperiod] at h
  cases h
  split_ifs with hshort
  · exact List.length_replicate
  · simp [wilderAverages, trueRanges_length]
    omega

theorem atr_take (h : atr candles period = .ok averages) (n : Nat) :
    atr (candles.take n) period = .ok (averages.take n) := by
  have hperiod := atr_period candles averages period h
  rw [atr_eq candles period hperiod] at h
  rw [atr_eq (candles.take n) period hperiod, List.length_take, trueRanges_take]
  cases h
  by_cases hshort : candles.length < period.toNat
  · rw [if_pos hshort, if_pos (by omega), List.take_replicate]
  · rw [if_neg hshort]
    by_cases hcut : n < period.toNat
    · -- The first bars are too few, and all there is of the averages is undefined.
      have hmin : min n candles.length = min n (period.toNat - 1) := by omega
      rw [if_pos (by omega), List.take_append_of_le_length (by rw [List.length_replicate]; omega),
        List.take_replicate, hmin]
    · rw [if_neg (by omega), wilderAverages_take _ n _ (by omega) (by omega), List.take_append,
        List.take_replicate, List.length_replicate, Nat.min_eq_right (by omega), List.map_take]

theorem atr_between (h : atr candles period = .ok averages) (lo hi : ℚ)
    (hranges : ∀ r ∈ trueRanges none candles, lo ≤ r ∧ r ≤ hi) :
    ∀ v, some v ∈ averages → lo ≤ v ∧ v ≤ hi := by
  have hperiod := atr_period candles averages period h
  rw [atr_eq candles period hperiod] at h
  cases h
  intro v hv
  split_ifs at hv with hshort
  · exact absurd (List.eq_of_mem_replicate hv) (by simp)
  · rcases List.mem_append.mp hv with hnone | hsome
    · exact absurd (List.eq_of_mem_replicate hnone) (by simp)
    · rcases List.mem_map.mp hsome with ⟨w, hw, heq⟩
      rw [← Option.some.inj heq]
      exact wilderAverages_between _ _ (by omega) (by rw [trueRanges_length]; omega) lo hi
        hranges w hw

/-- There is no average at the first indices, one less than the period. -/
theorem atr_undefined (h : atr candles period = .ok averages) (i : Nat)
    (hi : i < candles.length) : averages[i]? = some none ↔ (i : Int) < period - 1 := by
  have hperiod := atr_period candles averages period h
  rw [atr_eq candles period hperiod] at h
  cases h
  split_ifs with hshort
  · rw [List.getElem?_replicate, if_pos hi]
    simp only [true_iff]
    omega
  · by_cases hfew : i < period.toNat - 1
    · rw [List.getElem?_append_left (by rw [List.length_replicate]; exact hfew),
        List.getElem?_replicate, if_pos hfew]
      simp only [true_iff]
      omega
    · rw [List.getElem?_append_right (by rw [List.length_replicate]; omega), List.getElem?_map]
      constructor
      · intro hnone
        rcases Option.map_eq_some_iff.mp hnone with ⟨w, -, hw⟩
        cases hw
      · intro hearly
        omega

theorem atr_within (h : atr candles period = .ok averages) (i : Nat) (v : ℚ)
    (hv : averages[i]? = some (some v)) :
    WithinExtremes (trueRanges none (candles.take (i + 1))) v := by
  have hmem : some v ∈ averages.take (i + 1) := by
    refine List.mem_iff_getElem?.mpr ⟨i, ?_⟩
    rw [List.getElem?_take_of_lt (Nat.lt_succ_self i)]
    exact hv
  have htake := atr_take candles averages period h (i + 1)
  refine withinExtremes_of_intervals _ v ?_ (fun lo hi hall =>
    atr_between _ _ period htake lo hi hall v hmem)
  intro hnil
  have hlength := atr_length _ _ period htake
  rw [← trueRanges_length none, hnil, List.length_nil] at hlength
  exact absurd hmem (by rw [List.length_eq_zero_iff.mp hlength]; exact List.not_mem_nil)

end TrueRange

/-- Either average is there for a positive period, and within the extremes of what
    it has seen, at every index. -/
theorem averages_within (values : List ℚ) (candles : List Candle) (period : Int)
    (hperiod : 0 < period) (hbars : ∀ bar ∈ candles, bar.low ≤ bar.close ∧ bar.close ≤ bar.high) :
    (∃ series, ema values period = .ok series ∧ series.length = values.length ∧
      ∀ (i : Nat) (v : ℚ), series[i]? = some v → WithinExtremes (values.take (i + 1)) v) ∧
    (∃ averages, atr candles period = .ok averages ∧ averages.length = candles.length ∧
      (∀ i < candles.length, averages[i]? = some none ↔ (i : Int) < period - 1) ∧
      ∀ (i : Nat) (v : ℚ), averages[i]? = some (some v) →
        WithinExtremes (trueRanges none (candles.take (i + 1))) v ∧ 0 ≤ v) := by
  constructor
  · have hsome : ∃ series, ema values period = .ok series := by
      unfold ema
      rw [if_neg (not_le.mpr hperiod)]
      cases values with
      | nil => exact ⟨_, rfl⟩
      | cons v rest => exact ⟨_, rfl⟩
    rcases hsome with ⟨series, h⟩
    exact ⟨series, h, ema_length values series period h, ema_within values series period h⟩
  · have hsome : ∃ averages, atr candles period = .ok averages :=
      ⟨_, atr_eq candles period hperiod⟩
    rcases hsome with ⟨averages, h⟩
    refine ⟨averages, h, atr_length candles averages period h,
      atr_undefined candles averages period h, ?_⟩
    intro i v hv
    have hwithin := atr_within candles averages period h i v hv
    refine ⟨hwithin, ?_⟩
    -- A true range is not negative, and the average is no less than the least of them.
    rcases hwithin with ⟨lo, hi, hlo, -, hle, -⟩
    have hranges := trueRanges_nonneg none (candles.take (i + 1)) (fun bar hbar =>
      (hbars bar (List.mem_of_mem_take hbar)).1.trans (hbars bar (List.mem_of_mem_take hbar)).2)
    exact (hranges lo (minimum_mem _ lo hlo)).trans hle

/-- Three values, and two bars with a period of two. -/
theorem averages_within_two :
    (∃ series, ema [1, 3, 2] 2 = .ok series ∧
      ∀ v, series[2]? = some v → WithinExtremes [1, 3, 2] v) ∧
    (∃ averages, atr [⟨3, 1, 2⟩, ⟨6, 4, 5⟩] 2 = .ok averages ∧ averages[0]? = some none ∧
      averages[1]? ≠ some none) := by
  rcases averages_within [1, 3, 2] [⟨3, 1, 2⟩, ⟨6, 4, 5⟩] 2 (by decide) (by simp; norm_num)
    with ⟨⟨series, hema, -, hseries⟩, ⟨averages, hatr, -, hundefined, -⟩⟩
  refine ⟨⟨series, hema, hseries 2⟩, ⟨averages, hatr, ?_, ?_⟩⟩
  · exact (hundefined 0 (by decide)).mpr (by decide)
  · intro hnone
    exact absurd ((hundefined 1 (by decide)).mp hnone) (by decide)

end OptionsBot
