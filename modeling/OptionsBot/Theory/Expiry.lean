import OptionsBot.Core.Directional
import OptionsBot.Core.LongStraddle

/-!
# When Options Settle

Options of a date settle at 17:30 on the IST clock. Everything else in the
system reads instants as naive UTC, and the symbol parser stamps 17:30 on the
encoded date without converting, so the expiry of every listed option is the
zone's offset too late. The two strategies that count hours to expiry therefore
start closing five and a half hours after they should.

## Main definitions

* `settlementUtc`: The instant the options of a date settle.
* `encodedDate`: The date a symbol encodes.
* `InForceWindow`: A tick less than a number of hours before settlement.

## Theorems

* `settlementUtc_eq_sessionClose`: The session-close helper agrees with it.
* `parseSymbol_offset`: How late the parsed expiry is.
* `missed_tick`: A window of any length has a tick the late expiry misses.
* `parseSymbol_never_settles`: No accepted symbol's expiry is its settlement.
-/

namespace OptionsBot

/-- The instant the options of a date settle, as naive UTC. -/
def settlementUtc (date : Int) : DateTime := istToUtc (combine date sessionClose)

/-- The date a symbol encodes. -/
def encodedDate (symbol : String) : Option Int :=
  match matchSymbol symbol with
  | none => none
  | some (_, _, _, raw) => (strptimeDdmmyy raw).toOption

/-- The tick is less than so many hours before settlement, and not after it. -/
def InForceWindow (settle now : DateTime) (hours : ℚ) : Prop :=
  0 ≤ settle.hoursSince now ∧ settle.hoursSince now < hours

/-- Earlier on a date, the next session close is that date's settlement. -/
theorem settlementUtc_eq_sessionClose (t : DateTime) (date : Int)
    (hdate : (utcToIst t).date = date) (hbefore : (utcToIst t).timeOfDay < sessionClose) :
    indiaOptionsSessionCloseUtc t = settlementUtc date := by
  rw [sessionClose_before t hbefore, hdate]
  rfl

theorem encodedDate_parsed (symbol : String) (p : ParsedSymbol)
    (h : parseSymbol symbol = .ok (some p)) : encodedDate symbol = some p.expiry.date := by
  unfold parseSymbol at h
  unfold encodedDate
  -- Both functions read the date off the same match.
  rcases hmatch : matchSymbol symbol with _ | ⟨opt, und, strike, raw⟩
  · rw [hmatch] at h
    simp only [Except.ok.injEq, reduceCtorEq] at h
  · rw [hmatch] at h
    rcases hdate : strptimeDdmmyy raw with e | date
    · simp only [hdate, reduceCtorEq] at h
    · simp only [hdate] at h
      cases h
      have hd : (combine date (hourMinute 17 30)).date = date :=
        date_combine date _ (by decide) (by decide)
      simp only [hdate, Except.toOption, hd]

/-- The parsed expiry is the settlement of its date, moved by the zone's offset. -/
theorem parseSymbol_offset (symbol : String) (p : ParsedSymbol)
    (h : parseSymbol symbol = .ok (some p)) :
    p.expiry = (settlementUtc p.expiry.date).shift istOffset := by
  have hstamp := parseSymbol_expiry symbol p h
  simp only [settlementUtc, istToUtc, DateTime.shift, Int.neg_add_cancel_right]
  exact hstamp

/-- Less than any number of hours before settlement there is a tick more than
    those hours before the late expiry. -/
theorem missed_tick (settle : DateTime) (hours : ℚ) (h : 0 < hours) :
    ∃ now, InForceWindow settle now hours ∧ ¬ (settle.shift istOffset).hoursSince now ≤ hours := by
  -- The first microsecond of the window.
  have hceil : 0 < ⌈hours * 3600000000⌉ := Int.ceil_pos.mpr (by linarith)
  have hlow : hours * 3600000000 ≤ (⌈hours * 3600000000⌉ : ℚ) := Int.le_ceil _
  have hup : (⌈hours * 3600000000⌉ : ℚ) < hours * 3600000000 + 1 := Int.ceil_lt_add_one _
  refine ⟨settle.shift (-(⌈hours * 3600000000⌉ - 1)), ⟨?_, ?_⟩, ?_⟩
  · rw [DateTime.hoursSince]
    refine div_nonneg ?_ (by norm_num)
    have hn : (0 : Int) ≤ settle.micros - (settle.shift (-(⌈hours * 3600000000⌉ - 1))).micros := by
      simp only [DateTime.shift]
      omega
    exact_mod_cast hn
  · rw [DateTime.hoursSince, div_lt_iff₀ (by norm_num)]
    simp only [DateTime.shift]
    push_cast
    linarith
  · rw [DateTime.hoursSince_le_iff, not_le]
    simp only [DateTime.shift, istOffset, hourMinute, microsPerHour]
    push_cast
    linarith

theorem settlementUtc_ne_shift (date : Int) :
    (settlementUtc date).shift istOffset ≠ settlementUtc date := by
  intro h
  have hmicros := congrArg DateTime.micros h
  simp only [DateTime.shift, istOffset, hourMinute, microsPerHour] at hmicros
  omega

/-- The expiry of an accepted symbol is never the settlement of the encoded
    date, by either route, and for any configured hours and any position with
    that expiry there is a tick inside the window at which neither hour-counting
    strategy closes. -/
theorem parseSymbol_never_settles (symbol : String) (p : ParsedSymbol)
    (h : parseSymbol symbol = .ok (some p)) :
    ∃ date, encodedDate symbol = some date ∧
      p.expiry ≠ settlementUtc date ∧
      (∀ t, (utcToIst t).date = date → (utcToIst t).timeOfDay < sessionClose →
        p.expiry ≠ indiaOptionsSessionCloseUtc t) ∧
      (∀ (self : DirectionalStrategy) (position : PositionState) (market : MarketState),
        position.expiry = p.expiry →
        ∃ now, InForceWindow (settlementUtc date) now
            self.config.exits.forceCloseHoursBeforeExpiry ∧
          Action.closeFor .forceCloseExpiry ∉ self.manage position { market with now := now }) ∧
      (∀ (self : LongStraddleStrategy) (position : PositionState) (market : MarketState),
        position.expiry = p.expiry →
        ∃ now, InForceWindow (settlementUtc date) now
            self.config.exits.forceCloseHoursBeforeExpiry ∧
          Action.closeFor .forceCloseExpiry ∉ self.manage position { market with now := now }) := by
  have hoff := parseSymbol_offset symbol p h
  have hne : p.expiry ≠ settlementUtc p.expiry.date := by
    intro heq
    exact settlementUtc_ne_shift p.expiry.date (hoff.symm.trans heq)
  refine ⟨p.expiry.date, encodedDate_parsed symbol p h, hne, ?_, ?_, ?_⟩
  · intro t hdate hbefore
    -- Any earlier instant of the date has the settlement as its next close.
    rw [settlementUtc_eq_sessionClose t _ hdate hbefore]
    exact hne
  · intro self position market hpos
    rcases missed_tick (settlementUtc p.expiry.date) self.config.exits.forceCloseHoursBeforeExpiry
      self.config.exits.forceClose_pos with ⟨now, hwin, hlate⟩
    refine ⟨now, hwin, ?_⟩
    rw [self.manage_force_iff, hpos, hoff]
    exact hlate
  · intro self position market hpos
    rcases missed_tick (settlementUtc p.expiry.date) self.config.exits.forceCloseHoursBeforeExpiry
      self.config.exits.forceClose_pos with ⟨now, hwin, hlate⟩
    refine ⟨now, hwin, ?_⟩
    rw [self.manage_force_iff, hpos, hoff]
    exact hlate

/-- A put expiring on 26 May 2026. -/
def samplePut : ParsedSymbol :=
  { optionType := .put, underlying := .btc, strike := 77000,
    expiry := combine (ymdToOrdinal 2026 5 26) (hourMinute 17 30) }

theorem parseSymbol_never_settles_put : ∃ date, encodedDate "P-BTC-77000-260526" = some date ∧
    samplePut.expiry ≠ settlementUtc date := by
  rcases parseSymbol_never_settles "P-BTC-77000-260526" samplePut (by decide) with
    ⟨date, hdate, hne, _⟩
  exact ⟨date, hdate, hne⟩

/-- At 09:00 on the IST clock of its date, the session close of the sample is
    not its parsed expiry. -/
theorem parseSymbol_not_sessionClose :
    ¬ ∀ (symbol : String) (p : ParsedSymbol) (t : DateTime), parseSymbol symbol = .ok (some p) →
      encodedDate symbol = some (utcToIst t).date → (utcToIst t).timeOfDay < sessionClose →
      p.expiry = indiaOptionsSessionCloseUtc t := by
  intro hall
  have heq := hall "P-BTC-77000-260526" samplePut
    (istToUtc (combine (ymdToOrdinal 2026 5 26) (hourMinute 9 0)))
    (by decide) (by decide) (by decide)
  exact absurd heq (by decide)

end OptionsBot
