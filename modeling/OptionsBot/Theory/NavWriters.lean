import OptionsBot.Core.NavState
import OptionsBot.Lib.Run

/-!
# Two Writers of One Row

The trip of the circuit breaker and the nightly run write the same row of a date. They
agree on the account value. The trip stores the drawdown as a fraction that is not positive
and the nightly run as a percentage that is not negative, so the two are the same only
where both are zero. The trip keeps a higher peak and the nightly run overwrites it.

The rows of a date are followed through any order of writes. As long as the value stands at
the peak and the row has no higher one, no write changes that.

## Main definitions

* `NavWriter`: The two writers.
* `NavWriter.store`, `NavWriter.after`: The table after a write.
* `WritersAgree`: On a table, the writers store the same drawdown and lower no peak.
* `NavWriter.drawdown`, `NavWriter.peak`, `NavWriter.flag`: What a writer stores.
* `AtPeak`: The value stands at the peak, and the row has no higher one.

## Theorems

* `store_eq`: A writer stores its columns, or is refused.
* `drawdowns_agree_iff`: The two drawdowns are the same at the peak only.
* `breaker_keeps_peak`: A trip lowers no peak.
* `writersAgree_iff`: When the writers agree on a table.
* `AtPeak.after`: A write leaves the row at the peak.
* `writers_always_agree_iff`: When they agree after any writes.
-/

namespace OptionsBot

-- The sample runs below compute with rationals.
attribute [local semireducible] Rat.add Rat.sub Rat.mul Rat.inv

/-- Who writes the row of a date. The nightly run is told whether the breaker is tripped. -/
inductive NavWriter where
  | breaker
  | nightly (circuitBreakerTripped : Bool)
  deriving DecidableEq, Repr

namespace NavWriter

/-- The call of the nightly run for the date in India, with the tracker's value and peak. -/
def nightlyArgs (nav : NavTracker) (nowUtc : DateTime) (tripped : Bool) : NavSnapshot :=
  { tradingDate := (utcToIst nowUtc).date, navInr := nav.navNow, peakNavInr := nav.peakNav,
    circuitBreakerTripped := tripped }

/-- What a writer leaves of the table, unless the write is refused. -/
def store (nav : NavTracker) (nowUtc : DateTime) (table : NavTable) : NavWriter → Option NavTable
  | breaker => (persistCircuitBreakerTrip table nav {} nowUtc).toOption.map (·.1)
  | nightly tripped => (persistNav table (nightlyArgs nav nowUtc tripped)).toOption.map (·.1)

/-- The table after a write, whether it is refused or not. -/
def after (nav : NavTracker) (nowUtc : DateTime) (table : NavTable) (writer : NavWriter) :
    NavTable :=
  (writer.store nav nowUtc table).getD table

end NavWriter

/-- On a table, the two writers store the same drawdown in the row of today, and neither
    lowers the peak of a row that is there. -/
structure WritersAgree (nav : NavTracker) (nowUtc : DateTime) (table : NavTable) : Prop where
  drawdown : ∀ (w w' : NavWriter) (t t' : NavTable), w.store nav nowUtc table = some t →
    w'.store nav nowUtc table = some t' →
    (t.row (utcToIst nowUtc).date).map NavHistory.drawdownFromPeakPct =
      (t'.row (utcToIst nowUtc).date).map NavHistory.drawdownFromPeakPct
  peak : ∀ (w : NavWriter) (t : NavTable) (old new : NavHistory),
    w.store nav nowUtc table = some t → table.row (utcToIst nowUtc).date = some old →
    t.row (utcToIst nowUtc).date = some new → old.peakNavInr ≤ new.peakNavInr

namespace NavWriter

/-- The drawdown a writer stores. -/
def drawdown (nav : NavTracker) : NavWriter → ℚ
  | breaker => pctChange nav.navNow nav.peakNav
  | nightly _ =>
      if 0 < nav.peakNav then max 0 ((nav.peakNav - nav.navNow) / nav.peakNav * 100) else 0

/-- The peak a writer stores over a row. -/
def peak (nav : NavTracker) (row : Option NavHistory) : NavWriter → ℚ
  | breaker => row.elim nav.peakNav (fun r => max r.peakNavInr nav.peakNav)
  | nightly _ => nav.peakNav

/-- The flag a writer stores. -/
def flag : NavWriter → Bool
  | breaker => true
  | nightly tripped => tripped

variable (nav : NavTracker) (nowUtc : DateTime) (table : NavTable)

theorem store_eq (w : NavWriter) :
    w.store nav nowUtc table =
      (table.commit (utcToIst nowUtc).date nav.navNow
        (w.peak nav (table.row (utcToIst nowUtc).date)) (w.drawdown nav) w.flag).toOption := by
  cases w with
  | breaker =>
      unfold store persistCircuitBreakerTrip peak drawdown flag
      simp only
      cases table.row (utcToIst nowUtc).date with
      | none => split <;> next h => rw [Option.elim_none, h]; rfl
      | some row => split <;> next h => rw [Option.elim_some, h]; rfl
  | nightly tripped =>
      unfold store persistNav peak drawdown flag nightlyArgs
      simp only
      split <;> next h => rw [h]; rfl

/-- The table refuses a negative value. -/
theorem store_of_neg (hnav : nav.navNow < 0) (w : NavWriter) :
    w.store nav nowUtc table = none := by
  rw [store_eq, NavTable.commit, dif_neg (not_le.mpr hnav)]
  rfl

theorem store_of_nonneg (hnav : 0 ≤ nav.navNow) (w : NavWriter) :
    ∃ t r, w.store nav nowUtc table = some t ∧ t.row (utcToIst nowUtc).date = some r ∧
      r.drawdownFromPeakPct = w.drawdown nav ∧
      r.peakNavInr = w.peak nav (table.row (utcToIst nowUtc).date) := by
  rw [store_eq, NavTable.commit, dif_pos hnav]
  exact ⟨_, _, rfl, Table.lookup_upsert_self NavHistory.tradingDate _ _ table.rows rfl, rfl, rfl⟩

/-- At a value that is not above the peak, the fraction is the percentage only where both are
    zero. -/
theorem drawdowns_agree_iff (tripped : Bool) (hpeak : 0 < nav.peakNav)
    (hnav : nav.navNow ≤ nav.peakNav) :
    breaker.drawdown nav = (nightly tripped).drawdown nav ↔ nav.navNow = nav.peakNav := by
  have hup : (nav.peakNav - nav.navNow) / nav.peakNav * 100 =
      -(100 * ((nav.navNow - nav.peakNav) / nav.peakNav)) := by
    rw [← neg_sub nav.navNow nav.peakNav, neg_div]
    ring
  -- One stores this fraction, which is not positive, the other minus a hundred times it.
  have hneg : (nav.navNow - nav.peakNav) / nav.peakNav ≤ 0 :=
    div_nonpos_of_nonpos_of_nonneg (sub_nonpos.mpr hnav) hpeak.le
  rw [drawdown, drawdown, pctChange, if_pos hpeak, if_pos hpeak, hup,
    max_eq_right (by linarith only [hneg])]
  constructor
  · intro heq
    have hzero : (nav.navNow - nav.peakNav) / nav.peakNav = 0 := by linarith only [heq]
    rcases div_eq_zero_iff.mp hzero with hsub | hzero'
    · exact sub_eq_zero.mp hsub
    · exact absurd hzero' hpeak.ne'
  · intro heq
    rw [heq, sub_self, zero_div, mul_zero, neg_zero]

/-- A trip keeps the higher of the two peaks. -/
theorem breaker_keeps_peak (old : NavHistory) :
    old.peakNavInr ≤ breaker.peak nav (some old) :=
  le_max_left old.peakNavInr nav.peakNav

/-- Where the row has no higher peak, each writer stores the tracker's. -/
theorem peak_of_le (w : NavWriter) (row : Option NavHistory)
    (h : ∀ r ∈ row, r.peakNavInr ≤ nav.peakNav) : w.peak nav row = nav.peakNav := by
  cases w with
  | breaker =>
      cases row with
      | none => rfl
      | some r => exact max_eq_right (h r rfl)
  | nightly tripped => rfl

end NavWriter

/-- The value stands at the peak, and the row of today has no higher one. -/
def AtPeak (nav : NavTracker) (nowUtc : DateTime) (table : NavTable) : Prop :=
  nav.navNow = nav.peakNav ∧
    ∀ row ∈ table.row (utcToIst nowUtc).date, row.peakNavInr ≤ nav.peakNav

section Agreement

variable (nav : NavTracker) (nowUtc : DateTime) (table : NavTable)

/-- On a value that is not negative the writers agree exactly at the peak. -/
theorem writersAgree_iff (hpeak : 0 < nav.peakNav) (hle : nav.navNow ≤ nav.peakNav)
    (hnav : 0 ≤ nav.navNow) : WritersAgree nav nowUtc table ↔ AtPeak nav nowUtc table := by
  have hstored : ∀ (w : NavWriter) (t : NavTable) (r : NavHistory),
      w.store nav nowUtc table = some t → t.row (utcToIst nowUtc).date = some r →
      r.drawdownFromPeakPct = w.drawdown nav ∧
        r.peakNavInr = w.peak nav (table.row (utcToIst nowUtc).date) := by
    intro w t r ht hr
    rcases w.store_of_nonneg nav nowUtc table hnav with ⟨t', r', ht', hr', hdd, hpk⟩
    cases ht.symm.trans ht'
    cases hr.symm.trans hr'
    exact ⟨hdd, hpk⟩
  rcases NavWriter.breaker.store_of_nonneg nav nowUtc table hnav with ⟨tb, rb, htb, hrb, hddb, _⟩
  rcases (NavWriter.nightly false).store_of_nonneg nav nowUtc table hnav with
    ⟨tn, rn, htn, hrn, hddn, hpkn⟩
  constructor
  · intro h
    constructor
    · have hsame := h.drawdown _ _ tb tn htb htn
      rw [hrb, hrn, Option.map_some, Option.map_some, hddb, hddn, Option.some_inj] at hsame
      exact (NavWriter.drawdowns_agree_iff nav false hpeak hle).mp hsame
    · -- The nightly run writes the tracker's peak over whatever the row has.
      intro old hold
      have hkept := h.peak _ tn old rn htn hold hrn
      rwa [hpkn] at hkept
  · rintro ⟨heq, hrow⟩
    have hzero : ∀ w : NavWriter, w.drawdown nav = NavWriter.breaker.drawdown nav := fun w => by
      cases w with
      | breaker => rfl
      | nightly tripped =>
          exact ((NavWriter.drawdowns_agree_iff nav tripped hpeak hle).mpr heq).symm
    constructor
    · intro w w' t t' ht ht'
      rcases w.store_of_nonneg nav nowUtc table hnav with ⟨s, r, hs, hr, hdd, _⟩
      rcases w'.store_of_nonneg nav nowUtc table hnav with ⟨s', r', hs', hr', hdd', _⟩
      cases ht.symm.trans hs
      cases ht'.symm.trans hs'
      rw [hr, hr', Option.map_some, Option.map_some, hdd, hdd', hzero w, hzero w']
    · intro w t old new ht hold hnew
      rw [(hstored w t new ht hnew).2, w.peak_of_le nav _ hrow]
      exact hrow old hold

/-- A write leaves the row at the peak. -/
theorem AtPeak.after (w : NavWriter) (h : AtPeak nav nowUtc table) :
    AtPeak nav nowUtc (w.after nav nowUtc table) := by
  rcases lt_or_ge nav.navNow 0 with hneg | hnav
  · rw [NavWriter.after, w.store_of_neg nav nowUtc table hneg]
    exact h
  · rcases w.store_of_nonneg nav nowUtc table hnav with ⟨t, r, ht, hr, _, hpk⟩
    refine ⟨h.1, fun row hrow => ?_⟩
    rw [NavWriter.after, ht, Option.getD_some, hr, Option.mem_some_iff] at hrow
    rw [← hrow, hpk, w.peak_of_le nav _ h.2]

/-- After any writes of today, the two writers agree exactly if the value is negative, and
    every write refused, or it stands at the peak and no row of today is higher. -/
theorem writers_always_agree_iff (hpeak : 0 < nav.peakNav) (hle : nav.navNow ≤ nav.peakNav) :
    (∀ later, Run (NavWriter.after nav nowUtc) (fun _ _ => True) table later →
      WritersAgree nav nowUtc later) ↔
      nav.navNow < 0 ∨ AtPeak nav nowUtc table := by
  constructor
  · intro h
    rcases lt_or_ge nav.navNow 0 with hneg | hnav
    · exact Or.inl hneg
    · exact Or.inr ((writersAgree_iff nav nowUtc table hpeak hle hnav).mp
        (h table (Run.refl table)))
  · rintro (hneg | hat) later hrun
    · -- No write of a negative value goes through, so there is nothing to compare.
      constructor
      · intro w w' t t' ht
        rw [w.store_of_neg nav nowUtc later hneg] at ht
        cases ht
      · intro w t old new ht
        rw [w.store_of_neg nav nowUtc later hneg] at ht
        cases ht
    · have hlater := Run.invariant (AtPeak nav nowUtc)
        (fun a w _ ha => AtPeak.after nav nowUtc a w ha) hrun hat
      have hnav : 0 ≤ nav.navNow := by rw [hat.1]; exact hpeak.le
      exact (writersAgree_iff nav nowUtc later hpeak hle hnav).mpr hlater

/-- Noon in India. -/
def navNoon : DateTime := combine (ymdToOrdinal 2026 5 12) (hourMinute 6 30)

/-- An account that is at its peak of one lakh, and one that is a percent below it. -/
def peakAccount : NavTracker :=
  { navNow := 100000, navOpenToday := 100000, navOpenWeek := 100000, peakNav := 100000 }

def slumpAccount : NavTracker := { peakAccount with navNow := 99000 }

theorem writers_agree_at_peak :
    (0 < peakAccount.peakNav ∧ peakAccount.navNow ≤ peakAccount.peakNav) ∧
      ∀ later, Run (NavWriter.after peakAccount navNoon) (fun _ _ => True) {} later →
        WritersAgree peakAccount navNoon later :=
  ⟨by decide +kernel, (writers_always_agree_iff peakAccount navNoon {} (by decide +kernel)
    (by decide +kernel)).mpr (Or.inr ⟨rfl, fun _ hrow => nomatch hrow⟩)⟩

/-- The row of a day with a higher peak. -/
def higherDay : NavTable :=
  { rows := [{ tradingDate := ymdToOrdinal 2026 5 12, navInr := 105000, peakNavInr := 105000,
               nav_nonneg := by decide +kernel }]
    unique := List.nodup_singleton _ }

/-- A percent below the peak, the trip stores minus a hundredth and the nightly run one, and
    the nightly run lowers the peak of the row. -/
theorem writers_differ_at_slump :
    ((NavWriter.breaker.store slumpAccount navNoon higherDay).bind
        (·.row (ymdToOrdinal 2026 5 12))).map
        (fun r => (r.drawdownFromPeakPct, r.peakNavInr)) = some (-1 / 100, 105000) ∧
      (((NavWriter.nightly true).store slumpAccount navNoon higherDay).bind
        (·.row (ymdToOrdinal 2026 5 12))).map
        (fun r => (r.drawdownFromPeakPct, r.peakNavInr)) = some (1, 100000) ∧
      ¬ ∀ (nav : NavTracker) (nowUtc : DateTime) (table : NavTable), 0 < nav.peakNav →
        nav.navNow ≤ nav.peakNav → WritersAgree nav nowUtc table := by
  refine ⟨by decide +kernel, by decide +kernel, fun h => ?_⟩
  have hagree := (writersAgree_iff slumpAccount navNoon higherDay (by decide +kernel)
    (by decide +kernel) (by decide +kernel)).mp
      (h slumpAccount navNoon higherDay (by decide +kernel) (by decide +kernel))
  exact absurd hagree.1 (by decide +kernel)

end Agreement

end OptionsBot
