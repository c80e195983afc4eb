import OptionsBot.Core.LiveExecutor
import OptionsBot.Lib.Rounding

/-!
# The Limits of the Two Orders

Both limits are rounded to the nearest tick and then to eight digits. The nearest tick
may lie on the far side of the price it was rounded from, by half a tick: beyond the
slip budget for the second order, and at or past the other side of the book for the
first. And a tick with more than eight digits is not what comes out of the second
rounding, unless it is so fine that there is another tick that the rounding finds.

The second rounding is one to the nearest multiple too, of the eighth digit. It moves a
tick by half of that at most, so a tick that is not the nearest is on the same side of the
price as of the nearest one.

## Main definitions

* `InBudget`, `NotCrossing`: What is asked of the two prices.
* `LimitsRight`: Both, and that the prices are whole ticks.
* `EightDigits`, `RoundsInward`, `RoomFor`: What is asked of the roundings.
* `IocLands`, `MakerLands`: The conditions on the two prices.

## Theorems

* `iocLimitPrice_eq`, `makerLimitPrice_eq`: Both limits are rounded prices.
* `eightDigits_iff_of_wide`: On a tick that is not that fine.
* `twice_inBudget_iff`, `twice_notCrossing_iff`: When a price rounded twice is right.
* `limitsRight_iff`: When the two limits are right.
-/

namespace OptionsBot

-- The sample runs below compute with rationals.
attribute [local semireducible] Rat.add Rat.sub Rat.mul Rat.inv

/-- The price the second order's budget is counted from. -/
def iocReference (quote : QuoteSnapshot) : Side → Option ℚ
  | .buy => quote.ask.or quote.mid
  | .sell => quote.bid.or quote.mid

/-- The price at the end of the slip budget. -/
def slipLimit (side : Side) (slipBps : Nat) (ref : ℚ) : ℚ :=
  match side with
  | .buy => ref * (1 + (slipBps : ℚ) / 10000)
  | .sell => ref * (1 - (slipBps : ℚ) / 10000)

/-- A price no worse than another. -/
def InBudget (side : Side) (limit price : ℚ) : Prop :=
  match side with
  | .buy => price ≤ limit
  | .sell => limit ≤ price

/-- The price the first order is placed at. -/
def makerReference (quote : QuoteSnapshot) (side : Side) : Option ℚ :=
  (if side = .buy then quote.bid else quote.ask).or quote.mid

/-- A price that rests on its own side of a book which is not crossed itself. -/
def NotCrossing (quote : QuoteSnapshot) (side : Side) (price : ℚ) : Prop :=
  ∀ bid ask, quote.bid = some bid → quote.ask = some ask → bid < ask →
    match side with
    | .buy => price < ask
    | .sell => bid < price

/-- Both limits are whole ticks, the second within its budget and the first on its own
    side of the book. -/
structure LimitsRight (quote : QuoteSnapshot) (side : Side) (slipBps : Nat) (tick : ℚ) : Prop where
  ioc : ∀ ref price, iocReference quote side = some ref →
    iocLimitPrice quote side slipBps tick = some price →
      MultipleOf tick price ∧ InBudget side (slipLimit side slipBps ref) price
  maker : ∀ price, makerLimitPrice quote side tick = some price →
    MultipleOf tick price ∧ NotCrossing quote side price

theorem iocLimitPrice_eq (quote : QuoteSnapshot) (side : Side) (slipBps : Nat) (tick : ℚ) :
    iocLimitPrice quote side slipBps tick =
      roundTick ((iocReference quote side).map (slipLimit side slipBps)) tick := by
  cases side with
  | buy =>
      simp only [iocLimitPrice, iocReference]
      cases quote.ask.or quote.mid with
      | none => rfl
      | some ref => rfl
  | sell =>
      simp only [iocLimitPrice, iocReference]
      cases quote.bid.or quote.mid with
      | none => rfl
      | some ref => rfl

theorem makerLimitPrice_eq (quote : QuoteSnapshot) (side : Side) (tick : ℚ) :
    makerLimitPrice quote side tick = roundTick (makerReference quote side) tick := by
  unfold makerLimitPrice makerReference
  cases (if side = .buy then quote.bid else quote.ask) with
  | none => rfl
  | some price =>
      rcases roundTick_isSome price tick with ⟨rounded, hrounded⟩
      rw [hrounded, Option.some_or, hrounded]

section Roundings

variable (tick target : ℚ)

/-- The eighth digit. -/
def lastDigit : ℚ := 1 / 10 ^ 8

theorem lastDigit_pos : 0 < lastDigit := by
  norm_num [lastDigit]

/-- Rounded to eight digits, a tick is a tick: some tick of eight digits is what it is rounded
    to. -/
def EightDigits (n : ℚ) : Prop :=
  ∃ k : Int, RoundsTo (n / lastDigit) k ∧ MultipleOf tick (k * lastDigit)

theorem multipleOf_eightDigits_iff (n : ℚ) :
    MultipleOf tick (nearestMultiple lastDigit n) ↔ EightDigits tick n := by
  unfold nearestMultiple EightDigits
  constructor
  · intro h
    exact ⟨_, roundsTo_roundHalfEven _, h⟩
  · rintro ⟨k, hk, h⟩
    rw [(roundHalfEven_eq_iff _ k).mpr hk]
    exact h

/-- A tick that is wider than half of the eighth digit has to have eight digits itself. -/
theorem eightDigits_iff_of_wide (hwide : 1 / 2 / 10 ^ 8 < tick) :
    EightDigits tick (nearestMultiple tick target) ↔ HasDigits 8 (nearestMultiple tick target) := by
  rw [← multipleOf_eightDigits_iff, lastDigit, ← roundDigits_eq_nearest]
  exact multipleOf_roundDigits_iff tick _ 8 hwide

theorem roundTick_eq (htick : 0 < tick) :
    roundTick (some target) tick =
      some (nearestMultiple lastDigit (nearestMultiple tick target)) := by
  rw [lastDigit, ← roundDigits_eq_nearest]
  simp only [roundTick, if_neg (not_le.mpr htick), nearestMultiple]

theorem nearest_lastDigit_eq_iff (n : ℚ) : nearestMultiple lastDigit n = n ↔ HasDigits 8 n := by
  rw [lastDigit, ← roundDigits_eq_nearest, roundDigits_eq_iff]

/-- The end of the budget is rounded towards its inside. -/
def RoundsInward (side : Side) (x : ℚ) : Prop :=
  match side with
  | .buy => RoundsDown x
  | .sell => RoundsUp x

theorem nearest_inBudget_iff (side : Side) (htick : 0 < tick) :
    InBudget side target (nearestMultiple tick target) ↔ RoundsInward side (target / tick) := by
  cases side with
  | buy => exact nearestMultiple_le_iff tick target htick
  | sell => exact le_nearestMultiple_iff tick target htick

/-- A tick that comes out of both roundings is in the budget exactly if the second goes inwards,
    and the first where the second does nothing. -/
theorem twice_inBudget_iff (side : Side) (htick : 0 < tick)
    (hmultiple : MultipleOf tick (nearestMultiple lastDigit (nearestMultiple tick target))) :
    InBudget side target (nearestMultiple lastDigit (nearestMultiple tick target)) ↔
      RoundsInward side (nearestMultiple tick target / lastDigit) ∧
        (HasDigits 8 (nearestMultiple tick target) → RoundsInward side (target / tick)) := by
  rw [← nearest_inBudget_iff lastDigit _ side lastDigit_pos]
  by_cases hdigits : HasDigits 8 (nearestMultiple tick target)
  · rw [(nearest_lastDigit_eq_iff _).mpr hdigits, nearest_inBudget_iff tick target side htick]
    have hself : InBudget side (nearestMultiple tick target) (nearestMultiple tick target) := by
      cases side with
      | buy => exact le_refl (nearestMultiple tick target)
      | sell => exact le_refl (nearestMultiple tick target)
    exact ⟨fun h => ⟨hself, fun _ => h⟩, fun h => h.2 hdigits⟩
  · -- Another tick than the nearest is on the same side of the target as of that.
    rw [and_iff_left (fun h => absurd h hdigits)]
    have hother := other_multiple_le_iff tick target htick _ hmultiple
      (fun h => hdigits ((nearest_lastDigit_eq_iff _).mp h))
    cases side with
    | buy => exact hother.1
    | sell => exact hother.2

end Roundings

section Maker

variable (quote : QuoteSnapshot) (side : Side)

/-- A price is rounded away from the other side of the book, or there is room for a step
    more. -/
def RoomFor (step price : ℚ) : Prop :=
  ∀ bid ask, quote.bid = some bid → quote.ask = some ask → bid < ask →
    match side with
    | .buy => RoundsDown (price / step) ∨ (⌊price / step⌋ + 1) * step < ask
    | .sell => RoundsUp (price / step) ∨ bid < ⌊price / step⌋ * step

/-- A number that is not rounded up is rounded to the integer below. -/
theorem roundHalfEven_of_not_up (x : ℚ) (h : ¬ RoundsUp x) : roundHalfEven x = ⌊x⌋ := by
  refine roundHalfEven_of_down x ?_
  by_contra hnot
  rcases half_le_of_not_down x hnot with ⟨hhalf, hodd⟩
  rcases lt_or_eq_of_le hhalf with hmore | heq
  · exact h (Or.inr (Or.inl hmore))
  · exact h (Or.inr (Or.inr ⟨heq.symm, hodd heq.symm⟩))

/-- There is room where the rounded price is short of the other side, if it is short of it
    whenever it is rounded away from it. -/
theorem notCrossing_iff_room (step price : ℚ) (hstep : 0 < step)
    (haway : ∀ bid ask, quote.bid = some bid → quote.ask = some ask → bid < ask →
      match side with
      | .buy => nearestMultiple step price ≤ price → nearestMultiple step price < ask
      | .sell => price ≤ nearestMultiple step price → bid < nearestMultiple step price) :
    NotCrossing quote side (nearestMultiple step price) ↔ RoomFor quote side step price := by
  unfold NotCrossing RoomFor
  refine forall₂_congr (fun bid ask => ?_)
  refine forall₃_congr (fun hbid hask hopen => ?_)
  have hshort := haway bid ask hbid hask hopen
  cases side with
  | buy =>
      by_cases hdown : RoundsDown (price / step)
      · exact iff_of_true (hshort ((nearestMultiple_le_iff step price hstep).mpr hdown))
          (Or.inl hdown)
      · simp only [nearestMultiple, roundHalfEven_of_not_down _ hdown, hdown, false_or]
        push_cast
        exact Iff.rfl
  | sell =>
      by_cases hup : RoundsUp (price / step)
      · exact iff_of_true (hshort ((le_nearestMultiple_iff step price hstep).mpr hup))
          (Or.inl hup)
      · simp only [nearestMultiple, roundHalfEven_of_not_up _ hup, hup, false_or]

/-- The price of the first order is its own side of the book, where there is one. -/
theorem makerReference_buy (own bid : ℚ) (hown : makerReference quote .buy = some own)
    (hbid : quote.bid = some bid) : own = bid := by
  rw [makerReference, if_pos rfl, hbid, Option.some_or] at hown
  exact (Option.some.inj hown).symm

theorem makerReference_sell (own ask : ℚ) (hown : makerReference quote .sell = some own)
    (hask : quote.ask = some ask) : own = ask := by
  rw [makerReference, if_neg (by decide), hask, Option.some_or] at hown
  exact (Option.some.inj hown).symm

theorem nearest_notCrossing_iff (tick own : ℚ) (htick : 0 < tick)
    (hown : makerReference quote side = some own) :
    NotCrossing quote side (nearestMultiple tick own) ↔ RoomFor quote side tick own := by
  refine notCrossing_iff_room quote side tick own htick (fun bid ask hbid hask hopen => ?_)
  cases side with
  | buy =>
      intro hle
      exact (hle.trans (makerReference_buy quote own bid hown hbid).le).trans_lt hopen
  | sell =>
      intro hle
      exact hopen.trans_le ((makerReference_sell quote own ask hown hask).ge.trans hle)

/-- A tick that comes out of both roundings does not cross exactly if there is room for the
    second, and for the first where the second does nothing. -/
theorem twice_notCrossing_iff (tick own : ℚ) (htick : 0 < tick)
    (hown : makerReference quote side = some own)
    (hmultiple : MultipleOf tick (nearestMultiple lastDigit (nearestMultiple tick own))) :
    NotCrossing quote side (nearestMultiple lastDigit (nearestMultiple tick own)) ↔
      RoomFor quote side lastDigit (nearestMultiple tick own) ∧
        (HasDigits 8 (nearestMultiple tick own) → RoomFor quote side tick own) := by
  by_cases hdigits : HasDigits 8 (nearestMultiple tick own)
  · have hsame := (nearest_lastDigit_eq_iff _).mpr hdigits
    rw [hsame, nearest_notCrossing_iff quote side tick own htick hown]
    have hroom : RoomFor quote side lastDigit (nearestMultiple tick own) := by
      intro bid ask _ _ _
      cases side with
      | buy => exact Or.inl ((nearestMultiple_le_iff _ _ lastDigit_pos).mp hsame.le)
      | sell => exact Or.inl ((le_nearestMultiple_iff _ _ lastDigit_pos).mp hsame.ge)
    exact ⟨fun h => ⟨hroom, fun _ => h⟩, fun h => h.2 hdigits⟩
  · rw [and_iff_left (fun h => absurd h hdigits)]
    have hother := other_multiple_le_iff tick own htick _ hmultiple
      (fun h => hdigits ((nearest_lastDigit_eq_iff _).mp h))
    refine notCrossing_iff_room quote side lastDigit _ lastDigit_pos
      (fun bid ask hbid hask hopen => ?_)
    cases side with
    | buy =>
        intro hle
        have hbelow := hother.1.mpr hle
        exact (hbelow.trans (makerReference_buy quote own bid hown hbid).le).trans_lt hopen
    | sell =>
        intro hle
        have habove := hother.2.mpr hle
        exact hopen.trans_le ((makerReference_sell quote own ask hown hask).ge.trans habove)

end Maker

/-- The condition on the second order's price: the end of its budget is rounded to a tick that
    stays one with eight digits, and inwards. -/
def IocLands (quote : QuoteSnapshot) (side : Side) (slipBps : Nat) (tick : ℚ) : Prop :=
  ∀ ref, iocReference quote side = some ref →
    let nearest := nearestMultiple tick (slipLimit side slipBps ref)
    EightDigits tick nearest ∧ RoundsInward side (nearest / lastDigit) ∧
      (HasDigits 8 nearest → RoundsInward side (slipLimit side slipBps ref / tick))

/-- The condition on the first order's price: its own side of the book is rounded to a tick that
    stays one with eight digits, and away from the other side or with room to it. -/
def MakerLands (quote : QuoteSnapshot) (side : Side) (tick : ℚ) : Prop :=
  ∀ own, makerReference quote side = some own →
    let nearest := nearestMultiple tick own
    EightDigits tick nearest ∧ RoomFor quote side lastDigit nearest ∧
      (HasDigits 8 nearest → RoomFor quote side tick own)

/-- The second order's price is right exactly under its condition. -/
theorem ioc_right_iff (side : Side) (tick target : ℚ) (htick : 0 < tick) :
    (MultipleOf tick (nearestMultiple lastDigit (nearestMultiple tick target)) ∧
      InBudget side target (nearestMultiple lastDigit (nearestMultiple tick target))) ↔
      EightDigits tick (nearestMultiple tick target) ∧
        RoundsInward side (nearestMultiple tick target / lastDigit) ∧
          (HasDigits 8 (nearestMultiple tick target) → RoundsInward side (target / tick)) := by
  rw [← multipleOf_eightDigits_iff]
  exact and_congr_right (fun h => twice_inBudget_iff tick target side htick h)

/-- So is the first order's. -/
theorem maker_right_iff (quote : QuoteSnapshot) (side : Side) (tick own : ℚ) (htick : 0 < tick)
    (hown : makerReference quote side = some own) :
    (MultipleOf tick (nearestMultiple lastDigit (nearestMultiple tick own)) ∧
      NotCrossing quote side (nearestMultiple lastDigit (nearestMultiple tick own))) ↔
      EightDigits tick (nearestMultiple tick own) ∧
        RoomFor quote side lastDigit (nearestMultiple tick own) ∧
          (HasDigits 8 (nearestMultiple tick own) → RoomFor quote side tick own) := by
  rw [← multipleOf_eightDigits_iff]
  exact and_congr_right (fun h => twice_notCrossing_iff quote side tick own htick hown h)

/-- The two limits are right exactly under the conditions on the prices they aim at. -/
theorem limitsRight_iff (quote : QuoteSnapshot) (side : Side) (slipBps : Nat) (tick : ℚ)
    (htick : 0 < tick) :
    LimitsRight quote side slipBps tick ↔
      IocLands quote side slipBps tick ∧ MakerLands quote side tick := by
  constructor
  · intro h
    refine ⟨fun ref href => ?_, fun own hown => ?_⟩
    · refine (ioc_right_iff side tick _ htick).mp (h.ioc ref _ href ?_)
      rw [iocLimitPrice_eq, href]
      exact roundTick_eq tick _ htick
    · refine (maker_right_iff quote side tick own htick hown).mp (h.maker _ ?_)
      rw [makerLimitPrice_eq, hown]
      exact roundTick_eq tick own htick
  · rintro ⟨hioc, hmaker⟩
    refine ⟨fun ref price href hprice => ?_, fun price hprice => ?_⟩
    · rw [iocLimitPrice_eq, href, Option.map_some, roundTick_eq tick _ htick] at hprice
      cases hprice
      exact (ioc_right_iff side tick _ htick).mpr (hioc ref href)
    · rw [makerLimitPrice_eq] at hprice
      cases hown : makerReference quote side with
      | none =>
          rw [hown] at hprice
          cases hprice
      | some own =>
          rw [hown, roundTick_eq tick own htick] at hprice
          cases hprice
          exact (maker_right_iff quote side tick own htick hown).mpr (hmaker own hown)

/-- A budget that ends just above a tick, over a bid that is one. -/
theorem limitsRight_quoted :
    LimitsRight { bid := some 100, ask := some 101 } .buy 50 (1 / 2) := by
  refine (limitsRight_iff _ .buy 50 (1 / 2) (by norm_num)).mpr ⟨?_, ?_⟩
  · intro ref href
    cases href
    have hnearest : nearestMultiple (1 / 2) (slipLimit .buy 50 101) = 203 / 2 := by decide
    have hfloor : ⌊slipLimit .buy 50 101 / (1 / 2 : ℚ)⌋ = 203 := by decide
    have hdigits : HasDigits 8 (203 / 2) := ⟨10150000000, by norm_num⟩
    refine ⟨(eightDigits_iff_of_wide _ _ (by norm_num)).mpr (by rw [hnearest]; exact hdigits),
      ?_, fun _ => Or.inl ?_⟩
    · rw [hnearest]
      exact (nearestMultiple_le_iff _ _ lastDigit_pos).mp
        ((nearest_lastDigit_eq_iff _).mpr hdigits).le
    · rw [hfloor]
      norm_num [slipLimit]
  · intro own hown
    cases hown
    have hnearest : nearestMultiple (1 / 2) 100 = 100 := by decide
    have hfloor : ⌊(100 : ℚ) / (1 / 2)⌋ = 200 := by decide
    have hdigits : HasDigits 8 100 := ⟨10000000000, by norm_num⟩
    refine ⟨(eightDigits_iff_of_wide _ _ (by norm_num)).mpr (by rw [hnearest]; exact hdigits),
      fun bid ask hbid hask hopen => Or.inl ?_, fun _ bid ask hbid hask hopen => Or.inl (Or.inl ?_)⟩
    · rw [hnearest]
      exact (nearestMultiple_le_iff _ _ lastDigit_pos).mp
        ((nearest_lastDigit_eq_iff _).mpr hdigits).le
    · rw [hfloor]
      norm_num

/-- Fifty basis points above an ask of 160 end at 160.8, and the limit is 161. -/
theorem ioc_beyond_budget :
    iocLimitPrice { bid := some (319 / 2), ask := some 160 } .buy 50 (1 / 2) = some 161 ∧
      ¬ LimitsRight { bid := some (319 / 2), ask := some 160 } .buy 50 (1 / 2) := by
  have hprice : iocLimitPrice { bid := some (319 / 2), ask := some 160 } .buy 50 (1 / 2) =
      some 161 := by decide
  refine ⟨hprice, fun h => ?_⟩
  have hbudget := (h.ioc 160 161 rfl hprice).2
  simp only [InBudget, slipLimit] at hbudget
  norm_num at hbudget

end OptionsBot
