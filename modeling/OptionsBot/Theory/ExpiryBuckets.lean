import OptionsBot.Theory.EntryTime

/-!
# The Order of the Buckets

The buckets name dates: today, tomorrow and the next three Fridays. Where a Friday
is tomorrow, the bucket of tomorrow comes first in the code and takes it, and the
first of the weekly buckets stays empty. So the buckets that are filled are in the
order of their dates, and no two expiries share a bucket without sharing a date.

## Main definitions

* `ExpiryBucket.place`: The place of a bucket among the five.
* `NextFriday`: A date is one of the next three Fridays.

## Theorems

* `bucketDate_lt`: The dates of two filled buckets are in their order.
* `bucketForExpiry_isSome`: An expiry on the date of a bucket is in some bucket.
* `buckets_right`: What the buckets say about the dates of expiries.
-/

namespace OptionsBot

/-- The place of a bucket among the five. -/
def ExpiryBucket.place : ExpiryBucket → Nat
  | .d1 => 0
  | .d2 => 1
  | .w1 => 2
  | .w2 => 3
  | .w3 => 4

/-- A date is one of the next three Fridays, those of the three weeks to come. -/
structure NextFriday (today date : Int) : Prop where
  friday : weekday date = 4
  later : today < date
  within : date ≤ today + 21

theorem place_inj (b b' : ExpiryBucket) (h : b.place = b'.place) : b = b' := by
  cases b <;> cases b' <;> first | rfl | cases h

/-- The first of the weekly buckets is not filled where its Friday is tomorrow. -/
theorem bucket_w1 (now expiry : DateTime) (h : bucketForExpiry now expiry = some .w1) :
    expiry.date ≠ now.date + 1 := by
  intro htomorrow
  unfold bucketForExpiry at h
  simp only at h
  split_ifs at h with hle h0 h1
  all_goals first | omega | cases h

/-- The next three Fridays come a week after another, and start within a week. -/
theorem fridaysAfter_weeks (today : Int) :
    today < (fridaysAfter today).1 ∧ (fridaysAfter today).1 ≤ today + 7 ∧
      (fridaysAfter today).2.1 = (fridaysAfter today).1 + 7 ∧
      (fridaysAfter today).2.2 = (fridaysAfter today).1 + 14 := by
  have hdays := Int.emod_nonneg (4 - weekday today) (show (7 : Int) ≠ 0 by omega)
  have hweek := Int.emod_lt_of_pos (4 - weekday today) (show (0 : Int) < 7 by omega)
  simp only [fridaysAfter]
  split_ifs <;> exact ⟨by omega, by omega, trivial, trivial⟩

/-- The dates of two filled buckets are in the order of the buckets. -/
theorem bucketDate_lt (now e e' : DateTime) (b b' : ExpiryBucket)
    (hb : bucketForExpiry now e = some b) (hb' : bucketForExpiry now e' = some b')
    (hlt : b.place < b'.place) : e.date < e'.date := by
  have hdate := (bucketForExpiry_date now e b hb).2
  have hdate' := (bucketForExpiry_date now e' b' hb').2
  rcases fridaysAfter_weeks now.date with ⟨hnext, hwithin, hsecond, hthird⟩
  -- Only the dates of tomorrow and of the first Friday can be the same.
  have hfirst : b' = .w1 → e'.date ≠ now.date + 1 := by
    rintro rfl
    exact bucket_w1 now e' hb'
  cases b <;> cases b' <;>
    simp only [bucketDate, ExpiryBucket.place, reduceCtorEq, false_implies, true_implies]
      at hdate hdate' hlt hfirst <;>
    omega

/-- An expiry to come on the date of a bucket is in some bucket. -/
theorem bucketForExpiry_isSome (now e : DateTime) (b : ExpiryBucket) (h : now < e)
    (hdate : e.date = bucketDate now.date b) : (bucketForExpiry now e).isSome = true := by
  unfold bucketForExpiry
  rw [if_neg (not_le.mpr h)]
  simp only
  split_ifs with h0 h1 h2 h3 h4
  all_goals first | rfl | skip
  -- The date is that of no bucket, against what is given.
  cases b with
  | d1 => exact absurd (sub_eq_zero.mpr hdate) h0
  | d2 =>
      rw [bucketDate] at hdate
      omega
  | w1 => exact absurd hdate h2
  | w2 => exact absurd hdate h3
  | w3 => exact absurd hdate h4

/-- The next three Fridays are the dates of the weekly buckets. -/
theorem NextFriday.bucketDate {today date : Int} (h : NextFriday today date) :
    ∃ b, date = bucketDate today b := by
  have hfriday := h.friday
  have hlater := h.later
  have hwithin := h.within
  have hsome : date = OptionsBot.bucketDate today .w1 ∨ date = OptionsBot.bucketDate today .w2 ∨
      date = OptionsBot.bucketDate today .w3 := by
    simp only [OptionsBot.bucketDate, fridaysAfter, weekday] at hfriday ⊢
    split_ifs <;> omega
  rcases hsome with hb | hb | hb
  · exact ⟨_, hb⟩
  · exact ⟨_, hb⟩
  · exact ⟨_, hb⟩

/-- Two expiries to come are in one bucket only on one date, and in different
    buckets in the order of their dates. Those of today and tomorrow are in the
    first two, and those of the next three Fridays are in some bucket. -/
theorem buckets_right (now e e' : DateTime) (he : now < e) :
    (∀ b b', bucketForExpiry now e = some b → bucketForExpiry now e' = some b' →
      (b = b' ↔ e.date = e'.date) ∧ (b.place < b'.place ↔ e.date < e'.date)) ∧
    (e.date = now.date → bucketForExpiry now e = some .d1) ∧
    (e.date = now.date + 1 → bucketForExpiry now e = some .d2) ∧
    (NextFriday now.date e.date → (bucketForExpiry now e).isSome = true) := by
  refine ⟨fun b b' hb hb' => ?_, fun htoday => ?_, fun htomorrow => ?_, fun hfriday => ?_⟩
  · have hsame : b = b' → e.date = e'.date := by
      rintro rfl
      rw [(bucketForExpiry_date now e b hb).2, (bucketForExpiry_date now e' b hb').2]
    have hlt := bucketDate_lt now e e' b b' hb hb'
    have hgt := bucketDate_lt now e' e b' b hb' hb
    -- Of two buckets one comes first, or they are the same.
    rcases Nat.lt_trichotomy b.place b'.place with h | h | h
    · refine ⟨⟨hsame, fun heq => ?_⟩, fun _ => hlt h, fun _ => h⟩
      exact absurd heq (hlt h).ne
    · have hb := hsame (place_inj b b' h)
      refine ⟨⟨hsame, fun _ => place_inj b b' h⟩, fun hplace => ?_, fun hdate => ?_⟩
      · omega
      · omega
    · refine ⟨⟨hsame, fun heq => ?_⟩, fun hplace => ?_, fun hdate => ?_⟩
      · exact absurd heq (hgt h).ne'
      · omega
      · exact absurd hdate (not_lt.mpr (hgt h).le)
  · unfold bucketForExpiry
    rw [if_neg (not_le.mpr he)]
    simp only
    rw [if_pos (by omega)]
  · unfold bucketForExpiry
    rw [if_neg (not_le.mpr he)]
    simp only
    rw [if_neg (by omega), if_pos (by omega)]
  · rcases hfriday.bucketDate with ⟨b, hb⟩
    exact bucketForExpiry_isSome now e b he hb

/-- On a Thursday the Friday is tomorrow, and the one after it is in the second
    weekly bucket. -/
theorem buckets_right_thursday :
    bucketForExpiry (combine (ymdToOrdinal 2026 5 14) (hourMinute 10 0))
        (stampedExpiry (ymdToOrdinal 2026 5 15)) = some .d2 ∧
      (bucketForExpiry (combine (ymdToOrdinal 2026 5 14) (hourMinute 10 0))
        (stampedExpiry (ymdToOrdinal 2026 5 22))).isSome = true := by
  have h := buckets_right (combine (ymdToOrdinal 2026 5 14) (hourMinute 10 0))
    (stampedExpiry (ymdToOrdinal 2026 5 22)) (stampedExpiry (ymdToOrdinal 2026 5 15)) (by decide)
  exact ⟨by decide, h.2.2.2 ⟨by decide, by decide, by decide⟩⟩

end OptionsBot
