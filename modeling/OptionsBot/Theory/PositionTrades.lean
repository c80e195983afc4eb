import OptionsBot.Core.MainLoop
import OptionsBot.Core.OpenPositions
import OptionsBot.Theory.EntryRows
import OptionsBot.Theory.EntryTime
import OptionsBot.Theory.Symbols

/-!
# The Trade of a Position

The exchange knows a position by its symbol, and the database knows a trade by the symbol its
signal was for. The report looks for the same text first and then for a pattern, in which a
wildcard stands for the type and the date.

The pattern is matched without regard to the case of letters and could be met by accident, by an
underlying and a strike that stand in other places. For the symbols of options it is not: it
finds exactly the trades on the same underlying and with the same text of the strike. Since every
trade of the strategy is on a listed option, that holds of the rows of every run.

## Main definitions

* `OptionParts`: The parts of the symbol of an option.
* `underlyingStrike`: The underlying and the strike that a symbol has.
* `IsLatest`: A row is the last of those of which something holds.
* `Finds`: What a lookup of a symbol finds.

## Theorems

* `optionParts_of_parse`: What is parsed has its four parts.
* `OptionParts.optionType`, `OptionParts.underlying`: What the report reads off a symbol.
* `OptionParts.onStrike_iff`: What the pattern finds.
* `latestEntry_some`, `latestEntry_none`: What a query with an order and a limit returns.
* `findTradeForSymbol_finds`: A lookup among rows that are on listed options.
* `position_finds_trade`: The trade of a position, after any run.
-/

namespace OptionsBot

section Digits

/-- A digit is none of the other symbols. -/
theorem ne_of_isDecimal (c x : Char) (hc : isDecimal c = true) (hx : isDecimal x = false) :
    c ≠ x := by
  intro heq
  rw [heq, hx] at hc
  cases hc

theorem digitZeros_apart : ∀ z ∈ digitZeros, z = 48 ∨ 100 < z := by decide

/-- Digits have no case. -/
theorem toLower_isDecimal (c : Char) (hc : isDecimal c = true) : c.toLower = c := by
  unfold isDecimal decimalDigit at hc
  rw [Option.isSome_map] at hc
  rcases Option.isSome_iff_exists.mp hc with ⟨z, hz⟩
  have hrange : z ≤ c.toNat ∧ c.toNat < z + 10 := by
    simpa only [decide_eq_true_eq] using List.find?_some hz
  have hcase : ¬ (c.val ≥ 'A'.val ∧ c.val ≤ 'Z'.val) := by
    intro h
    have hlow : 65 ≤ c.toNat := h.1
    have hhigh : c.toNat ≤ 90 := h.2
    rcases digitZeros_apart z (List.mem_of_find?_eq_some hz) with hzero | habove
    · omega
    · omega
  exact dif_neg hcase

theorem map_toLower (cs : List Char) (x : Char) (hx : x.toLower = x)
    (h : ∀ c ∈ cs, isDecimal c = true ∨ c = x) : cs.map Char.toLower = cs := by
  refine (List.map_congr_left fun c hc => ?_).trans (List.map_id cs)
  rcases h c hc with hdigit | rfl
  · exact toLower_isDecimal c hdigit
  · exact hx

/-- A symbol that is neither a digit nor the other one is not among them. -/
theorem not_mem_digits (cs : List Char) (x y : Char) (hx : isDecimal x = false) (hne : x ≠ y)
    (h : ∀ c ∈ cs, isDecimal c = true ∨ c = y) : x ∉ cs := by
  intro hmem
  rcases h x hmem with hdigit | heq
  · exact ne_of_isDecimal x x hdigit hx rfl
  · exact hne heq

end Digits

/-- The underlying of a symbol and the text of its strike. -/
def underlyingStrike (symbol : String) : List (List Char) := ((symbolParts symbol).drop 1).take 2

/-- The parts of the symbol of an option. -/
structure OptionParts (p : ParsedSymbol) (symbol : String) (strike date : List Char) : Prop where
  text : symbol.toList = Text.joined '-'
    [[typeChar p.optionType], underlyingChars p.underlying, strike, date]
  strike : ∀ c ∈ strike, isDecimal c = true ∨ c = '.'
  date : ∀ c ∈ date, isDecimal c = true ∨ c = '\n'

/-- What is parsed has its four parts. -/
theorem optionParts_of_parse (symbol : String) (p : ParsedSymbol)
    (h : parseSymbol symbol = .ok (some p)) : ∃ strike date, OptionParts p symbol strike date := by
  unfold parseSymbol at h
  rcases hmatch : matchSymbol symbol with _ | ⟨optionType, underlying, x, raw⟩
  · rw [hmatch] at h
    cases h
  · rw [hmatch] at h
    simp only at h
    split at h
    · cases h
    · cases h
      -- The strike has a point only before a digit, and the date may end in a line break.
      rcases matchSymbol_chars symbol optionType underlying x raw hmatch with
        ⟨whole, frac, tail, _, hdigits, htail, htext, _⟩
      refine ⟨whole ++ (if frac = [] then [] else '.' :: frac), raw ++ tail, ?_, ?_, ?_⟩
      · rw [htext]
        simp only [Text.joined, List.singleton_append, List.append_assoc]
      · intro c hc
        rcases List.mem_append.mp hc with hwhole | hfrac
        · exact Or.inl (hdigits c (by simp [hwhole]))
        · split_ifs at hfrac with hnil
          · cases hfrac
          · rcases List.mem_cons.mp hfrac with hpoint | hmem
            · exact Or.inr hpoint
            · exact Or.inl (hdigits c (by simp [hmem]))
      · intro c hc
        rcases List.mem_append.mp hc with hraw | hend
        · exact Or.inl (hdigits c (by simp [hraw]))
        · rcases htail with rfl | rfl
          · cases hend
          · exact Or.inr (List.mem_singleton.mp hend)

namespace OptionParts

variable {p : ParsedSymbol} {symbol : String} {strike date : List Char}

/-- No part has a dash. -/
theorem dashless (h : OptionParts p symbol strike date) :
    ∀ part ∈ [[typeChar p.optionType], underlyingChars p.underlying, strike, date], '-' ∉ part := by
  intro part hpart
  simp only [List.mem_cons, List.not_mem_nil, or_false] at hpart
  rcases hpart with rfl | rfl | rfl | rfl
  · cases p.optionType <;> decide
  · cases p.underlying <;> decide
  · exact not_mem_digits _ '-' '.' (by decide) (by decide) h.strike
  · exact not_mem_digits _ '-' '\n' (by decide) (by decide) h.date

theorem parts (h : OptionParts p symbol strike date) : symbolParts symbol =
    [[typeChar p.optionType], underlyingChars p.underlying, strike, date] := by
  have hdash := h.dashless
  rw [symbolParts, h.text]
  simp only [Text.joined]
  rw [List.splitOn_append_cons_self_of_not_mem (hdash _ (by simp)),
    List.splitOn_append_cons_self_of_not_mem (hdash _ (by simp)),
    List.splitOn_append_cons_self_of_not_mem (hdash _ (by simp)),
    List.splitOn_eq_singleton (hdash _ (by simp))]

theorem contract (h : OptionParts p symbol strike date) :
    underlyingStrike symbol = [underlyingChars p.underlying, strike] := by
  rw [underlyingStrike, h.parts]
  rfl

theorem nonempty (h : OptionParts p symbol strike date) : symbol ≠ "" := by
  intro hempty
  have htext := h.text
  rw [hempty] at htext
  cases htext

/-- The type that the report reads off a symbol is the option's. -/
theorem optionType (h : OptionParts p symbol strike date) :
    optionTypeFromSymbol symbol = some p.optionType := by
  unfold optionTypeFromSymbol Text.startsWith
  rw [h.text]
  cases p.optionType with
  | call =>
      rw [if_pos]
      exact decide_eq_true (List.prefix_append ['C', '-'] _)
  | put =>
      rw [if_neg, if_pos]
      · exact decide_eq_true (List.prefix_append ['P', '-'] _)
      · intro hcall
        exact absurd (List.cons_prefix_cons.mp (of_decide_eq_true hcall)).1 (by decide)

/-- So is the underlying. -/
theorem underlying (h : OptionParts p symbol strike date) :
    symbolUnderlying symbol = some p.underlying.value := by
  -- A name of three letters is in the part of the underlying, or nowhere.
  have hfind : ∀ (name : String) (c : Char), name.toList.length = 3 → '-' ∉ name.toList →
      c ∈ name.toList → isDecimal c = false → c ≠ '.' → c ≠ '\n' →
      (Text.occursIn name symbol = true ↔ name.toList <:+: underlyingChars p.underlying) := by
    intro name c hlength hdash hc hletter hpoint hline
    have hne : name.toList ≠ [] := List.ne_nil_of_mem hc
    have hoff : ∀ part : List Char, c ∉ part → ¬ name.toList <:+: part :=
      fun part hpart hfound => hpart (hfound.subset hc)
    rw [Text.occursIn, decide_eq_true_eq, h.text, Text.infix_joined_iff _ _ hne hdash]
    constructor
    · rintro ⟨part, hpart, hfound⟩
      simp only [List.mem_cons, List.not_mem_nil, or_false] at hpart
      rcases hpart with rfl | rfl | rfl | rfl
      · have hle := hfound.length_le
        rw [hlength, List.length_singleton] at hle
        omega
      · exact hfound
      · exact absurd hfound (hoff _
          (not_mem_digits _ c '.' hletter hpoint h.strike))
      · exact absurd hfound (hoff _
          (not_mem_digits _ c '\n' hletter hline h.date))
    · intro hfound
      exact ⟨_, by simp, hfound⟩
  have hbtc := hfind "BTC" 'B' (by decide) (by decide) (by decide) (by decide) (by decide)
    (by decide)
  have heth := hfind "ETH" 'E' (by decide) (by decide) (by decide) (by decide) (by decide)
    (by decide)
  unfold symbolUnderlying
  cases hund : p.underlying with
  | btc =>
      rw [hund] at hbtc
      rw [if_pos (hbtc.mpr (by decide))]
      rfl
  | eth =>
      rw [hund] at hbtc heth
      rw [if_neg (fun hoccurs => absurd (hbtc.mp hoccurs) (by decide)),
        if_pos (heth.mpr (by decide))]
      rfl

section Pattern

variable {q : ParsedSymbol} {other : String} {strike' date' : List Char}

/-- In lower letters the parts of a symbol stand as they do, with the digits as they are. -/
theorem lower (h : OptionParts p symbol strike date) :
    symbol.toList.map Char.toLower = Text.joined '-'
      [[(typeChar p.optionType).toLower], (underlyingChars p.underlying).map Char.toLower, strike,
        date] := by
  have hstrike := map_toLower strike '.' (by decide) h.strike
  have hdate := map_toLower date '\n' (by decide) h.date
  rw [h.text]
  simp only [Text.joined, List.map_append, List.map_cons, List.map_nil, hstrike, hdate]
  rfl

theorem lowerUnderlying_cases (u : Underlying) :
    (underlyingChars u).map Char.toLower = ['b', 't', 'c'] ∨
      (underlyingChars u).map Char.toLower = ['e', 't', 'h'] := by
  cases u <;> decide

/-- A strike is no underlying, since that has letters. -/
theorem strike_ne_underlying (h : OptionParts p symbol strike date) (u : Underlying) :
    strike ≠ (underlyingChars u).map Char.toLower := by
  intro heq
  have ht : 't' ∈ strike := by
    rw [heq]
    rcases lowerUnderlying_cases u with hname | hname <;> rw [hname] <;> decide
  exact not_mem_digits strike 't' '.' (by decide) (by decide) h.strike ht

/-- What stands between two dashes of a symbol in lower letters is its underlying or its strike. -/
theorem enclosed_lower (h : OptionParts p symbol strike date) (w : List Char) (hw : '-' ∉ w)
    (hin : '-' :: (w ++ ['-']) <:+: symbol.toList.map Char.toLower) :
    w = (underlyingChars p.underlying).map Char.toLower ∨ w = strike := by
  have hdash : ∀ part ∈ [[(typeChar p.optionType).toLower],
      (underlyingChars p.underlying).map Char.toLower, strike, date], '-' ∉ part := by
    intro part hpart
    simp only [List.mem_cons, List.not_mem_nil, or_false] at hpart
    rcases hpart with rfl | rfl | rfl | rfl
    · cases p.optionType <;> decide
    · rcases lowerUnderlying_cases p.underlying with hname | hname <;> rw [hname] <;> decide
    · exact h.dashless _ (by simp)
    · exact h.dashless _ (by simp)
  rw [h.lower] at hin
  have hmem := (Text.enclosed_joined_iff w _ hw hdash).mp hin
  simpa only [List.tail_cons, List.dropLast_cons_cons, List.dropLast_singleton, List.mem_cons,
    List.not_mem_nil, or_false] using hmem

/-- Between its wildcards the pattern has none. -/
theorem pattern_plain (h : OptionParts p symbol strike date) :
    '%' ∉ '-' :: (underlyingChars p.underlying ++ '-' :: (strike ++ ['-'])) ∧
      '_' ∉ '-' :: (underlyingChars p.underlying ++ '-' :: (strike ++ ['-'])) := by
  have hplain : ∀ x, isDecimal x = false → x ≠ '.' → x ≠ '-' →
      x ∉ underlyingChars p.underlying →
      x ∉ '-' :: (underlyingChars p.underlying ++ '-' :: (strike ++ ['-'])) := by
    intro x hx hpoint hminus hletters hmem
    have hdigits := not_mem_digits strike x '.' hx hpoint h.strike
    simp only [List.mem_cons, List.mem_append, List.not_mem_nil, or_false] at hmem
    tauto
  have hwild : '%' ∉ underlyingChars p.underlying ∧ '_' ∉ underlyingChars p.underlying := by
    cases p.underlying <;> decide
  exact ⟨hplain '%' (by decide) (by decide) (by decide) hwild.1,
    hplain '_' (by decide) (by decide) (by decide) hwild.2⟩

/-- The pattern finds exactly the options on the same underlying and strike. -/
theorem onStrike_iff (h : OptionParts p symbol strike date)
    (h' : OptionParts q other strike' date') :
    onStrike (underlyingChars p.underlying) strike other = true ↔
      underlyingChars q.underlying = underlyingChars p.underlying ∧ strike' = strike := by
  have hminus : Char.toLower '-' = '-' := rfl
  unfold onStrike
  rw [Pattern.like_contains_iff _ _ _ _ _ h.pattern_plain]
  simp only [List.map_cons, List.map_append, List.map_nil, hminus,
    map_toLower strike '.' (by decide) h.strike]
  constructor
  · intro hfound
    -- Each of the two parts stands between two dashes, so it is one of two parts there.
    have hname : (underlyingChars p.underlying).map Char.toLower =
        (underlyingChars q.underlying).map Char.toLower := by
      have hlower : '-' ∉ (underlyingChars p.underlying).map Char.toLower := by
        rcases lowerUnderlying_cases p.underlying with hname | hname <;> rw [hname] <;> decide
      rcases h'.enclosed_lower _ hlower
          (List.IsInfix.trans ⟨[], strike ++ ['-'], by simp⟩ hfound) with hsame | hdigits
      · exact hsame
      · exact absurd hdigits.symm (h'.strike_ne_underlying p.underlying)
    have hstrike : strike = strike' := by
      rcases h'.enclosed_lower strike (h.dashless _ (by simp)) (List.IsInfix.trans
          ⟨'-' :: (underlyingChars p.underlying).map Char.toLower, [], by simp⟩ hfound) with
        hletter | hsame
      · exact absurd hletter (h.strike_ne_underlying q.underlying)
      · exact hsame
    refine ⟨?_, hstrike.symm⟩
    revert hname
    cases p.underlying <;> cases q.underlying <;> decide
  · rintro ⟨hname, rfl⟩
    rw [h'.lower, hname]
    exact ⟨[(typeChar q.optionType).toLower], date', by simp [Text.joined]⟩

/-- Of two symbols of options it says whether their underlyings and strikes are the same. -/
theorem sameStrike_iff (h : OptionParts p symbol strike date)
    (h' : OptionParts q other strike' date') :
    onStrike (underlyingChars p.underlying) strike other = true ↔
      underlyingStrike other = underlyingStrike symbol := by
  rw [h.onStrike_iff h', h.contract, h'.contract, List.cons.injEq,
    List.cons.injEq, eq_self, and_true]

end Pattern

end OptionParts

section Query

/-- A row is of the strategy, and its signal was for a symbol of which something holds. -/
def TradeRecord.SignalFor (p : String → Prop) (t : TradeRecord) : Prop :=
  t.trade.strategyId = .directional ∧ ∃ signal ∈ t.signal, p signal.intendedSymbol

/-- A row is the last of those of which something holds. -/
structure IsLatest (p : TradeRecord → Prop) (rows : List TradeRecord) (t : TradeRecord) :
    Prop where
  found : t ∈ rows
  holds : p t
  last : ∀ t' ∈ rows, p t' → t'.trade.entryTs ≤ t.trade.entryTs

variable (rows : List TradeRecord) (t : TradeRecord) (p : String → Bool)

theorem latestEntry_some (h : latestEntry rows = some t) :
    t ∈ rows ∧ ∀ t' ∈ rows, t'.trade.entryTs ≤ t.trade.entryTs := by
  have : Std.Total (fun a b : TradeRecord => b.trade.entryTs ≤ a.trade.entryTs) :=
    ⟨fun _ _ => le_total _ _⟩
  have : IsTrans TradeRecord (fun a b => b.trade.entryTs ≤ a.trade.entryTs) :=
    ⟨fun _ _ _ hab hbc => hbc.trans hab⟩
  have hsorted := List.pairwise_insertionSort
    (fun a b : TradeRecord => b.trade.entryTs ≤ a.trade.entryTs) rows
  have hmem := fun t' => List.mem_insertionSort (x := t')
    (fun a b : TradeRecord => b.trade.entryTs ≤ a.trade.entryTs) (l := rows)
  unfold latestEntry at h
  rcases hrows : rows.insertionSort (fun a b => b.trade.entryTs ≤ a.trade.entryTs) with
    _ | ⟨first, rest⟩
  · rw [hrows] at h
    cases h
  · rw [hrows] at h hsorted
    cases h
    refine ⟨(hmem t).mp (hrows ▸ List.mem_cons_self), fun t' ht' => ?_⟩
    -- The others stand behind the first.
    rcases List.mem_cons.mp (hrows ▸ (hmem t').mpr ht') with rfl | hrest
    · exact le_refl _
    · exact List.rel_of_pairwise_cons hsorted hrest

theorem latestEntry_none : latestEntry rows = none ↔ rows = [] := by
  rw [latestEntry, List.head?_eq_none_iff, ← List.length_eq_zero_iff, List.length_insertionSort,
    List.length_eq_zero_iff]

theorem mem_directionalRows :
    t ∈ directionalRows p rows ↔ t ∈ rows ∧ t.SignalFor (fun s => p s = true) := by
  rw [directionalRows, List.mem_filter, decide_eq_true_eq]
  rfl

/-- What the query returns is the last row of those it is about. -/
theorem latestEntry_isLatest (h : latestEntry (directionalRows p rows) = some t) :
    IsLatest (TradeRecord.SignalFor (fun s => p s = true)) rows t := by
  rcases latestEntry_some _ t h with ⟨hfound, hlast⟩
  rcases (mem_directionalRows rows t p).mp hfound with ⟨hmem, hholds⟩
  exact ⟨hmem, hholds, fun t' ht' hp =>
    hlast t' ((mem_directionalRows rows t' p).mpr ⟨ht', hp⟩)⟩

/-- If it returns nothing, there is none. -/
theorem latestEntry_absent (h : latestEntry (directionalRows p rows) = none) :
    ∀ t ∈ rows, ¬ t.SignalFor (fun s => p s = true) := by
  intro t ht hp
  have hmem := (mem_directionalRows rows t p).mpr ⟨ht, hp⟩
  rw [(latestEntry_none _).mp h] at hmem
  cases hmem

end Query

/-- What a lookup finds: the last row for the symbol itself, or if there is none, the last one for
    an option on the same underlying and strike. -/
inductive Finds (rows : List TradeRecord) (symbol : String) : Option TradeRecord → Prop where
  | itself (t : TradeRecord) (h : IsLatest (TradeRecord.SignalFor (· = symbol)) rows t) :
      Finds rows symbol (some t)
  | near (t : TradeRecord) (hnone : ∀ t' ∈ rows, ¬ t'.SignalFor (· = symbol))
      (h : IsLatest (TradeRecord.SignalFor (underlyingStrike · = underlyingStrike symbol)) rows t) :
      Finds rows symbol (some t)
  | absent (hnone : ∀ t ∈ rows,
      ¬ t.SignalFor (underlyingStrike · = underlyingStrike symbol)) : Finds rows symbol none

/-- A row of the strategy is on the option that its signal was for. -/
def TradeRecord.Listed (t : TradeRecord) : Prop :=
  t.trade.strategyId = .directional → ∃ signal q, t.signal = some signal ∧
    parseSymbol signal.intendedSymbol = .ok (some q) ∧ t.trade.underlying = q.underlying

section Lookup

variable {p : ParsedSymbol} {symbol : String} {strike date : List Char}

theorem TradeRecord.signalFor_exact (t : TradeRecord) :
    t.SignalFor (fun s => decide (s = symbol) = true) ↔ t.SignalFor (· = symbol) := by
  simp only [TradeRecord.SignalFor, decide_eq_true_eq]

/-- Of a row that is on an option, the pattern finds the underlying and the strike. -/
theorem TradeRecord.signalFor_onStrike (h : OptionParts p symbol strike date) (t : TradeRecord)
    (ht : t.Listed) :
    t.SignalFor (fun s => onStrike (underlyingChars p.underlying) strike s = true) ↔
      t.SignalFor (underlyingStrike · = underlyingStrike symbol) := by
  unfold TradeRecord.SignalFor
  refine and_congr_right fun hdirectional => ?_
  rcases ht hdirectional with ⟨signal, q, hsignal, hparse, _⟩
  rcases optionParts_of_parse _ q hparse with ⟨strike', date', h'⟩
  rw [hsignal]
  simp only [Option.mem_some_iff, exists_eq_left', h.sameStrike_iff h']

/-- The trade that is found is on the underlying of the symbol. -/
theorem TradeRecord.signalFor_underlying (h : OptionParts p symbol strike date) (t : TradeRecord)
    (ht : t.Listed) (hfor : t.SignalFor (underlyingStrike · = underlyingStrike symbol)) :
    t.trade.underlying = p.underlying := by
  rcases hfor with ⟨hdirectional, signal', hsignal', hsame⟩
  rcases ht hdirectional with ⟨signal, q, hsignal, hparse, hund⟩
  rcases optionParts_of_parse _ q hparse with ⟨strike', date', h'⟩
  rw [hsignal, Option.mem_some_iff] at hsignal'
  subst hsignal'
  rw [h.contract, h'.contract, List.cons.injEq] at hsame
  have hname := hsame.1
  rw [hund]
  revert hname
  cases p.underlying <;> cases q.underlying <;> decide

theorem findTradeForSymbol_finds (rows : List TradeRecord) (hrows : ∀ t ∈ rows, t.Listed)
    (h : OptionParts p symbol strike date) :
    Finds rows symbol (findTradeForSymbol rows symbol) := by
  unfold findTradeForSymbol
  rw [h.parts]
  -- The pattern is asked for only when the text itself has found nothing.
  rcases hexact : latestEntry (directionalRows (fun s => s = symbol) rows) with _ | t
  · have hnone := latestEntry_absent rows _ hexact
    simp only [TradeRecord.signalFor_exact] at hnone
    simp only
    rcases hnear : latestEntry (directionalRows
        (onStrike (underlyingChars p.underlying) strike) rows) with _ | t
    · refine Finds.absent fun t ht hfor => ?_
      exact latestEntry_absent rows _ hnear t ht ((t.signalFor_onStrike h (hrows t ht)).mpr hfor)
    · have hlatest := latestEntry_isLatest rows t _ hnear
      refine Finds.near t hnone ⟨hlatest.found, ?_, fun t' ht' hfor => ?_⟩
      · exact (t.signalFor_onStrike h (hrows t hlatest.found)).mp hlatest.holds
      · exact hlatest.last t' ht' ((t'.signalFor_onStrike h (hrows t' ht')).mpr hfor)
  · have hlatest := latestEntry_isLatest rows t _ hexact
    refine Finds.itself t ⟨hlatest.found, ?_, fun t' ht' hfor => ?_⟩
    · exact t.signalFor_exact.mp hlatest.holds
    · exact hlatest.last t' ht' (t'.signalFor_exact.mpr hfor)

theorem findTradeForSymbol_mem (rows : List TradeRecord) (symbol : String) (t : TradeRecord)
    (h : findTradeForSymbol rows symbol = some t) : t ∈ rows := by
  unfold findTradeForSymbol at h
  split at h
  · next hexact =>
    cases h
    exact (latestEntry_isLatest rows t _ hexact).found
  · split at h
    · exact (latestEntry_isLatest rows t _ h).found
    · cases h

theorem Finds.underlying (h : OptionParts p symbol strike date) {rows : List TradeRecord}
    (hrows : ∀ t ∈ rows, t.Listed) {found : Option TradeRecord} (hfinds : Finds rows symbol found) :
    ∀ t ∈ found, t.trade.underlying = p.underlying := by
  intro t ht
  cases hfinds with
  | itself t' hlatest =>
      rw [Option.mem_some_iff] at ht
      subst ht
      -- The same symbol has in particular the same underlying and strike.
      rcases hlatest.holds with ⟨hdirectional, signal, hsignal, heq⟩
      exact t'.signalFor_underlying h (hrows t' hlatest.found)
        ⟨hdirectional, signal, hsignal, heq ▸ rfl⟩
  | near t' _ hlatest =>
      rw [Option.mem_some_iff] at ht
      subst ht
      exact t'.signalFor_underlying h (hrows t' hlatest.found) hlatest.holds
  | absent _ => cases ht

end Lookup

namespace MainLoop

variable (s : MainLoop)

/-- The rows that explain themselves are on the options of their signals. -/
theorem listed_record (h : EntriesSound s) : ∀ t ∈ s.rows.map DeskRow.record, t.Listed := by
  intro t ht hdirectional
  rcases List.mem_map.mp ht with ⟨row, hrow, rfl⟩
  rcases (h.sound row hrow).2 hdirectional with ⟨signal, q, spot, atr, hexplained⟩
  exact ⟨signal, q, hexplained.recorded, hexplained.symbol, hexplained.underlying⟩

/-- After any run that began with an empty book, the report finds for the symbol of an option the
    last trade of the strategy on that option, or if there was none, the last one on the same
    underlying and strike, and nothing if there was none of these either. The trade is on the
    underlying that the report reads off the symbol. -/
theorem position_finds_trade (hrows : s.rows = []) (events : List LifeEvent)
    (hdecided : Along live Decided s events) (symbol : String) (p : ParsedSymbol)
    (hparse : parseSymbol symbol = .ok (some p)) :
    Finds ((events.foldl live s).rows.map DeskRow.record) symbol
        (findTradeForSymbol ((events.foldl live s).rows.map DeskRow.record) symbol) ∧
      ∀ t ∈ findTradeForSymbol ((events.foldl live s).rows.map DeskRow.record) symbol,
        symbolUnderlying symbol = some t.trade.underlying.value := by
  have hlisted := listed_record _ (s.explained_run (s.entriesSound_nil hrows) events hdecided)
  rcases optionParts_of_parse symbol p hparse with ⟨strike, date, hparts⟩
  have hfinds := findTradeForSymbol_finds _ hlisted hparts
  refine ⟨hfinds, fun t ht => ?_⟩
  rw [hparts.underlying, hfinds.underlying hparts hlisted t ht]

/-- The lone call breaks out, at ten in the morning of the day before it expires. -/
def breakoutMarket : MarketState :=
  loneMarket "C-BTC-97000-130526"
    { optionType := .call, underlying := .btc, strike := 97000,
      expiry := combine (ymdToOrdinal 2026 5 13) (hourMinute 17 30) }
    (combine (ymdToOrdinal 2026 5 12) (hourMinute 10 0))

/-- What the strategy decides on there. -/
def breakoutIntent : Option Intent :=
  ((loneStrategy shippedDirectionalExpiry .btc).evaluateOne breakoutMarket .btc).toOption.bind
    Decision.intent

/-- The entries of that tick, which are filled at the mark. -/
def breakoutEvents : List LifeEvent :=
  breakoutIntent.toList.map (fun intent => .desk (.enter
    { intent := intent
      sizing := { decision := .approved, intent := intent, sizedLots := 1 }
      outcome := .answered
        { success := true
          tradeId := 1
          fills := intent.legs.map (fun leg =>
            { symbol := leg.symbol, side := .buy, qtyRequested := 1, qtyFilled := 1,
              avgFillPrice := some 1, legIdx := 0, clientOrderId := .missingQuote }) } false
      chain := breakoutMarket.chain
      mode := .dry }))

def breakoutLoop : MainLoop :=
  { rows := []
    phase := .entering { engine := trailEngine, market := breakoutMarket,
                         lastTs := (soldTick 110 12).lastTs } }

theorem breakout_decided : Along live Decided breakoutLoop breakoutEvents := by
  unfold breakoutEvents
  rcases hintent : breakoutIntent with _ | intent
  · trivial
  · refine ⟨fun t hphase _ => ?_, trivial⟩
    cases hphase
    rcases Option.bind_eq_some_iff.mp hintent with ⟨d, hd, hsome⟩
    exact ⟨⟨loneStrategy shippedDirectionalExpiry .btc, breakoutMarket.chain, .btc, d,
      ok_of_toOption _ _ hd, hsome⟩, fun result raises houtcome _ => by
        cases houtcome
        rw [List.map_map]
        rfl⟩

/-- Another expiry of the strike is matched to the trade of the breakout. -/
theorem position_finds_breakout :
    (findTradeForSymbol ((breakoutEvents.foldl live breakoutLoop).rows.map DeskRow.record)
        "P-BTC-97000-150526").isSome = true ∧
      Finds ((breakoutEvents.foldl live breakoutLoop).rows.map DeskRow.record) "P-BTC-97000-150526"
        (findTradeForSymbol ((breakoutEvents.foldl live breakoutLoop).rows.map DeskRow.record)
          "P-BTC-97000-150526") :=
  ⟨by decide +kernel, (position_finds_trade breakoutLoop rfl breakoutEvents breakout_decided
    "P-BTC-97000-150526" { optionType := .put, underlying := .btc, strike := 97000,
                           expiry := combine (ymdToOrdinal 2026 5 15) (hourMinute 17 30) }
    (by decide)).1⟩

end MainLoop

end OptionsBot
