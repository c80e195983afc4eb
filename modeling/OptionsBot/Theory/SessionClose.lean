import OptionsBot.Core.Directional
import OptionsBot.Lib.Calendar
import OptionsBot.Lib.NextOf

/-!
# The Next Session Close

The session closes at 17:30 on the IST clock, which is noon on the UTC clock. The
function goes there by way of the IST clock: it sets the time on the date in India,
and takes the day after if that is not later than now. So it returns the next noon,
the least instant strictly later at which the IST clock reads 17:30.

What holds of the next element of any set then holds of the close. It never goes
back, and from one close up to the next it stays the same, so between the two the
directional strategy gives up its preferred expiry once at most. As there is a close
a day earlier, it is at most a day ahead.

The last noon a `datetime` can hold is that of the last day of the year 9999. From
then on there is no later close, and the function raises.

## Main definitions

* `sessionCloses`: The instants at which the IST clock reads 17:30.
* `lastSessionClose`: The last of them.
* `GivesNextClose`: A function returns the next close, on some instants.

## Theorems

* `sessionClose_isNext`: No close is left out.
* `sessionClose_civil`: Its date is the one in India, or the day after in the calendar.
* `PyDateTime.sessionClose_eq`: In the range of `datetime`, the same or an exception.
* `givesNextClose_iff`: The function gives the next close exactly before the last one.
* `givesNextClose_before`: Before the last close it does, and from then on it raises.
* `sessionClose_overflows`: At the last close it does not.
* `pickExpiryBucket_until`: From the preferred expiry to the other one, and not back.
-/

namespace OptionsBot

/-- The close is the least instant strictly later at which the IST clock reads 17:30. -/
theorem sessionClose_isNext (now : DateTime) :
    IsNext {t | (utcToIst t).timeOfDay = sessionClose} now (indiaOptionsSessionCloseUtc now) := by
  rw [sessionClose_noon]
  refine ⟨⟨?_, ?_⟩, ?_⟩
  · rw [Set.mem_ofPred_eq, sessionClose_iff_noon]
    simp only [combine, DateTime.timeOfDay, hourMinute, microsPerHour, microsPerDay]
    omega
  · simp only [DateTime.lt_def, combine, DateTime.timeOfDay, DateTime.date, hourMinute,
      microsPerHour, microsPerDay]
    split_ifs with hnoon
    · omega
    · omega
  · rintro t ⟨hclose, hlater⟩
    rw [Set.mem_ofPred_eq, sessionClose_iff_noon] at hclose
    simp only [DateTime.lt_def, DateTime.le_def, combine, DateTime.timeOfDay, DateTime.date,
      hourMinute, microsPerHour, microsPerDay] at hclose hlater ⊢
    -- Two noons are whole days apart.
    split_ifs with hnoon
    · omega
    · omega

namespace PyDateTime

/-- The conversion to the IST clock raises only after the last close. -/
theorem utcToIst_out (now : PyDateTime)
    (hout : ¬ (ymdToOrdinal 1 1 1 ≤ (OptionsBot.utcToIst now.val).date ∧
      (OptionsBot.utcToIst now.val).date ≤ ymdToOrdinal 9999 12 31)) :
    ymdToOrdinal 9999 12 31 ≤ now.val.date ∧ ¬ now.val.timeOfDay < hourMinute 12 0 := by
  rcases (inRange_iff now.val).mp now.property with ⟨hfirst, hlast⟩
  have hevening : hourMinute 12 0 ≤ hourMinute 18 30 := by decide
  by_cases hearly : now.val.timeOfDay < hourMinute 18 30
  · rw [((istClock now.val).1 hearly).1] at hout
    omega
  · rw [((istClock now.val).2 (not_lt.mp hearly)).1] at hout
    omega

/-- Within the range of `datetime` the function returns the close, or raises if that is outside. -/
theorem sessionClose_eq (now : PyDateTime) : now.indiaOptionsSessionCloseUtc =
    ofDateTime (OptionsBot.indiaOptionsSessionCloseUtc now.val) := by
  have hist : now.val.shift istOffset = OptionsBot.utcToIst now.val := rfl
  have hnoon : ∀ date, (combine date (hourMinute 12 0)).date = date :=
    fun date => date_combine date _ (by decide) (by decide)
  unfold indiaOptionsSessionCloseUtc
  rw [utcToIst, add, hist]
  rcases ofDateTime_cases (OptionsBot.utcToIst now.val) with ⟨local', hok, hlocal⟩ | hout
  · unfold OptionsBot.indiaOptionsSessionCloseUtc
    rw [hok, ← hlocal]
    simp only [bind, Except.bind, replaceTime, add, combine_shift_day]
    by_cases hlate : local'.val.timeOfDay ≥ sessionClose
    · rw [if_pos hlate, if_pos hlate, istToUtc_close]
      -- The close of the next date is in the range if that date is.
      rcases ofDateTime_cases (combine (local'.val.date + 1) sessionClose) with
        ⟨next, hok', hnext⟩ | hout'
      · rw [hok']
        simp only [hnext]
        rw [← istToUtc_close]
        rfl
      · rw [ofDateTime_error _ hout']
        rw [date_combine _ _ (by decide) (by decide)] at hout'
        rw [ofDateTime_error _ (by rw [hnoon]; exact hout')]
    · rw [if_neg hlate, if_neg hlate]
      rfl
  · -- The IST clock is past the range, and so is the next noon.
    rcases utcToIst_out now hout with ⟨hlast, hlate⟩
    rw [ofDateTime_error _ hout, sessionClose_noon, if_neg hlate,
      ofDateTime_error _ (by rw [hnoon]; omega)]
    rfl

end PyDateTime

/-- The instants at which the IST clock reads 17:30:00. -/
def sessionCloses : Set PyDateTime :=
  {t | ∃ local', t.utcToIst = .ok local' ∧ local'.val.timeOfDay = sessionClose}

/-- The last of them, on 31 December 9999. -/
def lastSessionClose : PyDateTime :=
  ⟨combine (ymdToOrdinal 9999 12 31) (hourMinute 12 0), by decide, by decide⟩

theorem mem_sessionCloses_iff (t : PyDateTime) :
    t ∈ sessionCloses ↔ (utcToIst t.val).timeOfDay = sessionClose := by
  constructor
  · rintro ⟨local', hok, hclose⟩
    rw [PyDateTime.utcToIst, PyDateTime.add, PyDateTime.ofDateTime_ok_iff] at hok
    rw [hok] at hclose
    exact hclose
  · intro hclose
    rcases PyDateTime.ofDateTime_cases (utcToIst t.val) with ⟨local', hok, hlocal⟩ | hout
    · exact ⟨local', hok, by rw [hlocal]; exact hclose⟩
    · -- At noon UTC the date in India is the same, so it is in the range.
      have hnoon := (sessionClose_iff_noon t.val).mp hclose
      have hevening : hourMinute 12 0 < hourMinute 18 30 := by decide
      rw [((istClock t.val).1 (by omega)).1] at hout
      exact absurd ((inRange_iff t.val).mp t.property) hout

/-- The next close within the range is the next one of all. -/
theorem isNext_sessionCloses (now close : PyDateTime) : IsNext sessionCloses now close ↔
    close.val = indiaOptionsSessionCloseUtc now.val := by
  have hall : sessionCloses =
      Set.preimage Subtype.val {t : DateTime | (utcToIst t).timeOfDay = sessionClose} :=
    Set.ext mem_sessionCloses_iff
  rw [hall, isNext_subtype now close (fun v hnow hclose =>
    ⟨now.property.1.trans hnow.le, hclose.le.trans close.property.2⟩)]
  constructor
  · exact fun h => h.unique (sessionClose_isNext now.val)
  · intro h
    rw [h]
    exact sessionClose_isNext now.val

/-- What the function returns is the next close. -/
theorem sessionClose_ok_iff (now close : PyDateTime) :
    now.indiaOptionsSessionCloseUtc = .ok close ↔ IsNext sessionCloses now close := by
  rw [PyDateTime.sessionClose_eq, PyDateTime.ofDateTime_ok_iff, isNext_sessionCloses]

/-- The next noon is in the range before the last close. -/
theorem noon_inRange_iff (now : PyDateTime) :
    (ymdToOrdinal 1 1 1 ≤ (indiaOptionsSessionCloseUtc now.val).date ∧
      (indiaOptionsSessionCloseUtc now.val).date ≤ ymdToOrdinal 9999 12 31) ↔
    now < lastSessionClose := by
  rcases (inRange_iff now.val).mp now.property with ⟨hfirst, hlast⟩
  rw [sessionClose_noon, date_combine _ _ (by decide) (by decide)]
  change _ ↔ now.val < combine (ymdToOrdinal 9999 12 31) (hourMinute 12 0)
  generalize ymdToOrdinal 9999 12 31 = last at hlast ⊢
  simp only [DateTime.lt_def, combine, DateTime.date, DateTime.timeOfDay, hourMinute,
    microsPerHour, microsPerDay] at hfirst hlast ⊢
  split_ifs with hnoon
  · omega
  · omega

/-- The function returns before the last close. -/
theorem sessionClose_returns (now : PyDateTime) (h : now < lastSessionClose) :
    ∃ close, now.indiaOptionsSessionCloseUtc = .ok close := by
  rw [PyDateTime.sessionClose_eq]
  rcases PyDateTime.ofDateTime_cases (indiaOptionsSessionCloseUtc now.val) with
    ⟨close, hok, _⟩ | hout
  · exact ⟨close, hok⟩
  · exact absurd ((noon_inRange_iff now).mpr h) hout

/-- From the last close on it raises. -/
theorem sessionClose_raises (now : PyDateTime) (h : lastSessionClose ≤ now) :
    now.indiaOptionsSessionCloseUtc = .error .overflowError := by
  rw [PyDateTime.sessionClose_eq]
  exact PyDateTime.ofDateTime_error _ (fun hrange =>
    absurd ((noon_inRange_iff now).mp hrange) (not_lt.mpr h))

/-- A function returns the least instant strictly later at which the IST clock reads 17:30:00, for
    every instant of a set. So it is monotone there, at most 24 hours ahead, and constant from one
    close up to the next. -/
structure GivesNextClose (f : PyDateTime → Except PyError PyDateTime) (domain : Set PyDateTime) :
    Prop where
  least : ∀ now ∈ domain, ∃ close, f now = .ok close ∧
    IsLeast {t | t ∈ sessionCloses ∧ now < t} close
  monotone : ∀ s ∈ domain, ∀ t ∈ domain, s ≤ t →
    ∀ close close', f s = .ok close → f t = .ok close' → close ≤ close'
  ahead : ∀ now ∈ domain, ∀ close, f now = .ok close → close.val ≤ now.val.shift microsPerDay
  constant : ∀ before ∈ sessionCloses, ∀ next,
    IsLeast {t | t ∈ sessionCloses ∧ before < t} next →
    ∀ now ∈ domain, before ≤ now → now < next → f now = .ok next

/-- There is a close a day before the next one, and it is not after now. -/
theorem sessionClose_ahead (now : DateTime) :
    indiaOptionsSessionCloseUtc now ≤ now.shift microsPerDay := by
  have hnext := sessionClose_isNext now
  have hbefore : (indiaOptionsSessionCloseUtc now).shift (-microsPerDay) ≤ now := by
    refine hnext.le_of_lt ?_ ?_
    · have hclose : (utcToIst (indiaOptionsSessionCloseUtc now)).timeOfDay = sessionClose :=
        hnext.1.1
      simp only [Set.mem_ofPred_eq, utcToIst, DateTime.shift, DateTime.timeOfDay,
        microsPerDay] at hclose ⊢
      omega
    · simp only [DateTime.lt_def, DateTime.shift, microsPerDay]
      omega
  simp only [DateTime.le_def, DateTime.shift] at hbefore ⊢
  omega

/-- The function gives the next close on the instants before the last one, and on no others. -/
theorem givesNextClose_iff (domain : Set PyDateTime) :
    GivesNextClose PyDateTime.indiaOptionsSessionCloseUtc domain ↔
      ∀ now ∈ domain, now < lastSessionClose := by
  constructor
  · intro h now hnow
    rcases h.least now hnow with ⟨close, hok, _⟩
    by_contra hlate
    rw [sessionClose_raises now (not_lt.mp hlate)] at hok
    exact absurd hok (by simp only [reduceCtorEq, not_false_eq_true])
  · intro h
    refine ⟨fun now hnow => ?_, fun s _ t _ hst close close' hs ht => ?_,
      fun now _ close hok => ?_, fun before _ next hnext now _ hle hlt => ?_⟩
    · rcases sessionClose_returns now (h now hnow) with ⟨close, hok⟩
      exact ⟨close, hok, (sessionClose_ok_iff now close).mp hok⟩
    · rw [sessionClose_ok_iff] at hs ht
      exact hs.mono hst ht
    · rw [sessionClose_ok_iff, isNext_sessionCloses] at hok
      rw [hok]
      exact sessionClose_ahead now.val
    · rw [sessionClose_ok_iff]
      exact IsNext.stays hnext hle hlt

/-- Before the last close that a `datetime` can hold the function gives the next one. From then on
    there is no later one, and it raises. -/
theorem givesNextClose_before :
    GivesNextClose PyDateTime.indiaOptionsSessionCloseUtc {now | now < lastSessionClose} ∧
      ∀ now, lastSessionClose ≤ now →
        now.indiaOptionsSessionCloseUtc = .error .overflowError ∧ ∀ t ∈ sessionCloses, t ≤ now := by
  refine ⟨(givesNextClose_iff _).mpr (fun now hnow => hnow), fun now hlast => ?_⟩
  refine ⟨sessionClose_raises now hlast, fun t ht => le_trans ?_ hlast⟩
  -- A close is a noon, and the last date has the last one.
  have hnoon := (sessionClose_iff_noon t.val).mp ((mem_sessionCloses_iff t).mp ht)
  have hdate := ((inRange_iff t.val).mp t.property).2
  change t.val ≤ combine (ymdToOrdinal 9999 12 31) (hourMinute 12 0)
  generalize ymdToOrdinal 9999 12 31 = last at hdate ⊢
  simp only [DateTime.le_def, combine, DateTime.date, DateTime.timeOfDay, hourMinute,
    microsPerHour, microsPerDay] at hnoon hdate ⊢
  omega

/-- At noon on 31 December 9999 the day after is out of range. -/
theorem sessionClose_overflows :
    ¬ GivesNextClose PyDateTime.indiaOptionsSessionCloseUtc Set.univ := by
  intro h
  rcases h.least lastSessionClose trivial with ⟨close, hok, _⟩
  have hraises : lastSessionClose.indiaOptionsSessionCloseUtc = .error .overflowError := by decide
  rw [hraises] at hok
  exact absurd hok (by simp only [reduceCtorEq, not_false_eq_true])

/-- On the IST clock the close is on the date of now, or on the day after, across the ends of months
    and years. -/
theorem sessionClose_civil (now : DateTime) (year month day : Nat) (h : IsDate year month day)
    (hdate : (utcToIst now).date = ymdToOrdinal year month day) :
    ∃ year' month' day', IsDate year' month' day' ∧
      (year', month', day') = (if (utcToIst now).timeOfDay < sessionClose then (year, month, day)
        else nextDay year month day) ∧
      utcToIst (indiaOptionsSessionCloseUtc now) =
        combine (ymdToOrdinal year' month' day') sessionClose := by
  have hback : ∀ t, utcToIst (istToUtc t) = t := by
    intro t
    simp only [utcToIst, istToUtc, DateTime.shift, Int.neg_add_cancel_right]
  unfold indiaOptionsSessionCloseUtc
  simp only [combine_shift_day, hdate]
  by_cases hlate : sessionClose ≤ (utcToIst now).timeOfDay
  · refine ⟨_, _, _, isDate_nextDay h, (if_neg (not_lt.mpr hlate)).symm, ?_⟩
    rw [if_pos hlate, hback, ymdToOrdinal_nextDay h]
  · refine ⟨year, month, day, h, (if_pos (not_le.mp hlate)).symm, ?_⟩
    rw [if_neg hlate, hback]

-- At six in the evening of 31 December 2026 in India, the next close is on 1 January 2027.
example : utcToIst (indiaOptionsSessionCloseUtc
    (istToUtc (combine (ymdToOrdinal 2026 12 31) (hourMinute 18 0)))) =
      combine (ymdToOrdinal 2027 1 1) sessionClose := by decide

/-- Until the next close the directional strategy goes over from its preferred expiry to the other
    one, and never back. -/
theorem DirectionalStrategy.pickExpiryBucket_until (self : DirectionalStrategy)
    (earlier later : MarketState) (hle : earlier.now ≤ later.now)
    (hlt : later.now < indiaOptionsSessionCloseUtc earlier.now) :
    self.pickExpiryBucket earlier = self.config.expiry.prefer ∨
      self.pickExpiryBucket later = self.config.expiry.fallback := by
  have hsame : indiaOptionsSessionCloseUtc later.now = indiaOptionsSessionCloseUtc earlier.now :=
    (sessionClose_isNext later.now).unique ((sessionClose_isNext earlier.now).stays hle hlt)
  unfold pickExpiryBucket
  simp only [hsame]
  by_cases hfar : self.config.expiry.d1DteThresholdHours ≤
      (indiaOptionsSessionCloseUtc earlier.now).hoursSince earlier.now
  · exact Or.inl (if_pos hfar)
  · -- The hours to the close only get fewer.
    refine Or.inr (if_neg (fun hnear => hfar (hnear.trans ?_)))
    rw [DateTime.le_def] at hle
    unfold DateTime.hoursSince
    gcongr

end OptionsBot
