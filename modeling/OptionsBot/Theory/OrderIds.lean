import OptionsBot.Core.LiveStop
import OptionsBot.Core.Optimize
import OptionsBot.Theory.Symbols

/-!
# What is Read Back from an Order's Id

An order's id is five tokens: the strategy, the last six characters of the trade's id,
the leg, the start of what the order is for, and a digest. Three readers take it apart.
One matches a pattern for the first number, one looks for words, and one looks for a
trade's id between two hyphens.

Neither a number nor a digest has a letter of the words, so the words are those of the
fourth token. A trade's id comes back if it has at most six digits. The third reader
cannot tell the trade from the leg. And an order of a rollback is not one of the
strategy by its first token.

The digest enters as a parameter, and what is asked of it is that it is made of the
digits of a hexadecimal number.

## Main definitions

* `OrderPurpose`: What the live executor places an order for.
* `directionalOrderId`: The id of a directional trade's order.
* `Recovered`: What the three readers should make of it.

## Theorems

* `digitsValue_numeral`, `digitsValue_lt`: Numbers as texts.
* `orderId_tokens`: The five tokens.
* `tradeIdFromCoid_order`, `isOrderOfTrade_order`, `word_in_order`: The three readers.
* `roles_order`: The words of each purpose.
* `recovered_iff`: When all three are right.
-/

namespace OptionsBot

section Numerals

/-- The text of a number. -/
def numeral (n : Nat) : List Char := (toString n).toList

theorem numeral_eq (n : Nat) : numeral n = Nat.toDigits 10 n := by
  rw [numeral, Nat.toString_eq_repr, Nat.toList_repr]

theorem isDigit_numeral (n : Nat) : ∀ c ∈ numeral n, c.isDigit = true := by
  intro c hc
  rw [numeral_eq] at hc
  exact Nat.isDigit_of_mem_toDigits (by decide) (by decide) hc

theorem numeral_ne_nil (n : Nat) : numeral n ≠ [] := by
  rw [numeral_eq]
  exact Nat.toDigits_ne_nil

theorem numeral_digits (n : Nat) : ∃ ds : List (Fin 10), numeral n = ds.map digitChar :=
  digits_of_isDigit (numeral n) (isDigit_numeral n)

theorem decimalDigit_of_isDigit (c : Char) (h : c.isDigit = true) :
    decimalDigit c = some (c.toNat - '0'.toNat) := by
  rcases digitChar_of_isDigit c h with ⟨d, rfl⟩
  have hall : ∀ d : Fin 10, decimalDigit (digitChar d) =
      some ((digitChar d).toNat - '0'.toNat) := by decide
  exact hall d

theorem digitsValue_eq (cs : List Char) (h : ∀ c ∈ cs, c.isDigit = true) :
    digitsValue cs = Nat.ofDigitChars 10 cs 0 := by
  rw [digitsValue, Nat.ofDigitChars_eq_foldl]
  apply List.foldl_ext
  intro acc c hc
  rw [decimalDigit_of_isDigit c (h c hc), Option.getD_some]

theorem digitsValue_numeral (n : Nat) : digitsValue (numeral n) = n := by
  rw [digitsValue_eq _ (isDigit_numeral n), numeral_eq, Nat.ofDigitChars_ten_toDigits]

theorem numeral_inj (m n : Nat) (h : numeral m = numeral n) : m = n := by
  rw [← digitsValue_numeral m, h, digitsValue_numeral]

theorem digitsValue_lt (cs : List Char) (h : ∀ c ∈ cs, c.isDigit = true) :
    digitsValue cs < 10 ^ cs.length := by
  rcases digits_of_isDigit cs h with ⟨ds, rfl⟩
  rw [digitsValue_digits, List.length_map]
  exact spelled_lt ds

/-- The last six characters of a number. -/
def shortId (n : Nat) : List Char := (numeral n).drop ((numeral n).length - 6)

theorem isDigit_shortId (n : Nat) : ∀ c ∈ shortId n, c.isDigit = true :=
  fun c hc => isDigit_numeral n c (List.mem_of_mem_drop hc)

theorem shortId_ne_nil (n : Nat) : shortId n ≠ [] := by
  intro h
  have hlength := congrArg List.length h
  have hpos := List.length_pos_iff.mpr (numeral_ne_nil n)
  rw [shortId, List.length_drop, List.length_nil] at hlength
  omega

/-- A number of at most six digits is read back from its last six characters, and no
    larger one is. -/
theorem digitsValue_shortId_iff (n : Nat) : digitsValue (shortId n) = n ↔ n < 10 ^ 6 := by
  constructor
  · intro h
    -- Whatever number they are the end of, six digits are below a million.
    have hlt := digitsValue_lt (shortId n) (isDigit_shortId n)
    have hlength : (shortId n).length ≤ 6 := by
      rw [shortId, List.length_drop]
      omega
    rw [h] at hlt
    exact lt_of_lt_of_le hlt (Nat.pow_le_pow_right (by decide) hlength)
  · intro h
    have hlength : (numeral n).length ≤ 6 := by
      rw [numeral_eq]
      exact (Nat.length_toDigits_le_iff (by decide) (by decide)).mpr h
    rw [shortId, Nat.sub_eq_zero_of_le hlength, List.drop_zero, digitsValue_numeral]

end Numerals

/-- What the live executor places an order for. -/
inductive OrderPurpose where
  | entry
  | entryIoc
  | exit (trigger : ExitTrigger)
  | trail (newStopPrice : Int)
  | rollback
  deriving DecidableEq

namespace OrderPurpose

/-- The purpose the id is generated with. -/
def text : OrderPurpose → String
  | entry => "entry"
  | entryIoc => "entry_ioc"
  | exit trigger => "exit_" ++ trigger.value
  | trail newStopPrice => "trail_" ++ toString newStopPrice
  | rollback => "rollback"

/-- The strategy the id is generated with. -/
def strategyId : OrderPurpose → String
  | rollback => "rollback"
  | _ => "directional"

/-- The order opens its trade. -/
def opens : OrderPurpose → Bool
  | entry => true
  | entryIoc => true
  | _ => false

/-- The order closes its trade, or undoes its entry. -/
def closes : OrderPurpose → Bool
  | exit _ => true
  | rollback => true
  | _ => false

end OrderPurpose

section OrderId

variable (hexdigest : String → String) (tradeId leg : Nat) (purpose : OrderPurpose) (salt : String)

/-- The id of an order of a directional trade. -/
def directionalOrderId : String :=
  generateClientOrderId hexdigest purpose.strategyId tradeId (leg : Int) purpose.text salt

/-- The text the digest is taken of. -/
def digestInput : String :=
  purpose.strategyId ++ "|" ++ toString tradeId ++ "|" ++ toString (leg : Int) ++ "|" ++
    purpose.text ++ "|" ++ salt

/-- The three readers recover the trade, what the order was for, and of which trades it
    is an order. -/
structure Recovered (coid : String) (tradeId : Nat) (purpose : OrderPurpose) : Prop where
  decoded : tradeIdFromCoid coid = some tradeId
  opens : isEntryCoid coid = purpose.opens
  closes : isExitCoid coid = purpose.closes
  fetched : ∀ q, 1 ≤ q → (isOrderOfTrade q coid = true ↔ q = tradeId)

/-- The tokens of an order's id. -/
def orderTokens : List (List Char) :=
  [(compactStrategy purpose.strategyId).toList, shortId tradeId, numeral leg,
    (compactPurpose purpose.text).toList,
    ((hexdigest (digestInput tradeId leg purpose salt)).toList.take 10)]

theorem orderId_tokens :
    (directionalOrderId hexdigest tradeId leg purpose salt).toList =
      Text.joined '-' (orderTokens hexdigest tradeId leg purpose salt) := by
  have hdash : "-".toList = ['-'] := by decide
  have hleg : (toString (leg : Int)).toList = numeral leg := rfl
  simp only [directionalOrderId, generateClientOrderId, String.toList_append, hdash, lastChars,
    takeChars, String.toList_ofList, orderTokens, Text.joined, hleg, shortId, numeral, digestInput,
    List.append_assoc, List.cons_append, List.nil_append]

end OrderId

section PurposeTokens

theorem compactPurpose_toList (purpose : String)
    (hne : (purpose.toList.map Char.toLower).filter Char.isAlphanum ≠ []) :
    (compactPurpose purpose).toList =
      ((purpose.toList.map Char.toLower).filter Char.isAlphanum).take 6 := by
  have hlower : purpose.toLower.toList = purpose.toList.map Char.toLower := String.toList_map
  have htoken : (String.ofList ((purpose.toList.map Char.toLower).filter
      Char.isAlphanum)).isEmpty = false := by
    simpa using hne
  simp only [compactPurpose, hlower, htoken, takeChars, String.toList_ofList, Bool.false_eq_true,
    if_false]

theorem compact_entry : (compactPurpose OrderPurpose.entry.text).toList = "entry".toList := by
  rw [compactPurpose_toList _ (by decide)]
  decide

theorem compact_entryIoc :
    (compactPurpose OrderPurpose.entryIoc.text).toList = "entryi".toList := by
  rw [compactPurpose_toList _ (by decide)]
  decide

theorem compact_rollback :
    (compactPurpose OrderPurpose.rollback.text).toList = "rollba".toList := by
  rw [compactPurpose_toList _ (by decide)]
  decide

/-- The tokens of the exits, by the first letters of the trigger. -/
theorem compact_exit (trigger : ExitTrigger) :
    (compactPurpose (OrderPurpose.exit trigger).text).toList ∈
      ["exitta", "exitpr", "exitun", "exittr", "exitti", "exitfo", "exitte", "exitde",
        "exitga"].map String.toList := by
  cases trigger <;> (rw [compactPurpose_toList _ (by decide)]; decide)

theorem digits_kept (ds : List (Fin 10)) :
    ((ds.map digitChar).map Char.toLower).filter Char.isAlphanum = ds.map digitChar := by
  have hkept : ∀ d : Fin 10, (digitChar d).toLower = digitChar d ∧
      (digitChar d).isAlphanum = true := by decide
  induction ds with
  | nil => rfl
  | cons d rest ih =>
      rw [List.map_cons, List.map_cons, (hkept d).1, List.filter_cons_of_pos (hkept d).2, ih]

theorem numeral_kept (n : Nat) :
    ((numeral n).map Char.toLower).filter Char.isAlphanum = numeral n := by
  rcases numeral_digits n with ⟨ds, hds⟩
  rw [hds, digits_kept]

/-- The digits of a price, without its sign. -/
theorem price_kept (price : Int) : ∃ n : Nat,
    ((toString price).toList.map Char.toLower).filter Char.isAlphanum = numeral n := by
  cases price with
  | ofNat n => exact ⟨n, numeral_kept n⟩
  | negSucc n =>
      -- The sign is no letter and no digit, so it is dropped.
      refine ⟨n + 1, ?_⟩
      have hsign : (toString (Int.negSucc n)).toList = '-' :: numeral (n + 1) := by
        have htext : toString (Int.negSucc n) = "-" ++ (n + 1).repr := rfl
        rw [htext, String.toList_append]
        rfl
      rw [hsign, List.map_cons, List.filter_cons_of_neg (by decide), numeral_kept]

theorem compact_trail (price : Int) : ∃ d : Fin 10,
    (compactPurpose (OrderPurpose.trail price).text).toList = "trail".toList ++ [digitChar d] := by
  rcases price_kept price with ⟨n, hn⟩
  rcases numeral_digits n with ⟨ds, hds⟩
  have htext : ((OrderPurpose.trail price).text.toList.map Char.toLower).filter Char.isAlphanum =
      "trail".toList ++ numeral n := by
    have hlead : ("trail_".toList.map Char.toLower).filter Char.isAlphanum = "trail".toList := by
      decide
    rw [OrderPurpose.text, String.toList_append, List.map_append, List.filter_append, hn, hlead]
  cases ds with
  | nil => exact absurd hds (numeral_ne_nil n)
  | cons d rest =>
      -- The word takes five of the six characters.
      refine ⟨d, ?_⟩
      have hne : "trail".toList ++ numeral n ≠ [] :=
        List.append_ne_nil_of_right_ne_nil _ (numeral_ne_nil n)
      rw [compactPurpose_toList _ (by rw [htext]; exact hne), htext, hds, List.map_cons,
        List.take_append]
      rfl

/-- A purpose's token has no hyphen, and starts with a letter. -/
theorem purposeToken_letter (purpose : OrderPurpose) : ∃ c rest,
    (compactPurpose purpose.text).toList = c :: rest ∧ c.isDigit = false ∧ '-' ∉ c :: rest := by
  cases purpose with
  | entry => exact ⟨'e', "ntry".toList, compact_entry, by decide, by decide⟩
  | entryIoc => exact ⟨'e', "ntryi".toList, compact_entryIoc, by decide, by decide⟩
  | exit trigger =>
      have hall : ∀ token ∈ ["exitta", "exitpr", "exitun", "exittr", "exitti", "exitfo", "exitte",
          "exitde", "exitga"].map String.toList, ∃ rest, token = 'e' :: rest ∧
          '-' ∉ 'e' :: rest := by
        simp
      rcases hall _ (compact_exit trigger) with ⟨rest, htoken, hdash⟩
      exact ⟨'e', rest, htoken, by decide, hdash⟩
  | trail price =>
      rcases compact_trail price with ⟨d, hd⟩
      have hdash : ∀ d : Fin 10, '-' ∉ "trail".toList ++ [digitChar d] := by decide
      exact ⟨'t', "rail".toList ++ [digitChar d], hd, by decide, hdash d⟩
  | rollback => exact ⟨'r', "ollba".toList, compact_rollback, by decide, by decide⟩

end PurposeTokens

/-- The digits of a hexadecimal number. -/
def hexDigits : List Char := "0123456789abcdef".toList

section Readers

variable (hexdigest : String → String)
  (hhex : ∀ raw, ∀ c ∈ (hexdigest raw).toList, c ∈ hexDigits)
  (tradeId leg : Nat) (purpose : OrderPurpose) (salt : String)

theorem mem_hexDigits_of_isDigit (c : Char) (h : c.isDigit = true) : c ∈ hexDigits := by
  rcases digitChar_of_isDigit c h with ⟨d, rfl⟩
  have hall : ∀ d : Fin 10, digitChar d ∈ hexDigits := by decide
  exact hall d

theorem dash_notMem_digits (cs : List Char) (h : ∀ c ∈ cs, c.isDigit = true) : '-' ∉ cs :=
  fun hdash => absurd (h '-' hdash) (by decide)

theorem compactStrategy_directional (h : purpose ≠ .rollback) :
    (compactStrategy purpose.strategyId).toList = ['d', 'r'] := by
  have hid : purpose.strategyId = "directional" := by
    cases purpose with
    | rollback => exact absurd rfl h
    | entry => rfl
    | entryIoc => rfl
    | exit trigger => rfl
    | trail price => rfl
  rw [hid]
  rfl

theorem dash_notMem_strategy : '-' ∉ (compactStrategy purpose.strategyId).toList := by
  by_cases h : purpose = .rollback
  · rw [h]
    decide
  · rw [compactStrategy_directional purpose h]
    decide

include hhex in
/-- No token has the separator in it. -/
theorem dash_notMem_tokens : ∀ t ∈ orderTokens hexdigest tradeId leg purpose salt, '-' ∉ t := by
  intro t ht
  simp only [orderTokens, List.mem_cons, List.not_mem_nil, or_false] at ht
  rcases ht with rfl | rfl | rfl | rfl | rfl
  · exact dash_notMem_strategy purpose
  · exact dash_notMem_digits _ (isDigit_shortId tradeId)
  · exact dash_notMem_digits _ (isDigit_numeral leg)
  · rcases purposeToken_letter purpose with ⟨c, rest, htoken, -, hdash⟩
    rw [htoken]
    exact hdash
  · intro hdash
    exact absurd (hhex _ _ (List.mem_of_mem_take hdash)) (by decide)

include hhex in
/-- A word with a letter that is no hexadecimal digit is found in the fourth token, or
    not at all. -/
theorem word_in_order (word : String) (hword : '-' ∉ word.toList)
    (hletter : ∃ c ∈ word.toList, c ∉ hexDigits)
    (hstrategy : ¬ word.toList <:+: (compactStrategy purpose.strategyId).toList) :
    Text.occursIn word (directionalOrderId hexdigest tradeId leg purpose salt) =
      Text.occursIn word (compactPurpose purpose.text) := by
  rcases hletter with ⟨c, hc, hnot⟩
  have hne : word.toList ≠ [] := List.ne_nil_of_mem hc
  have hdigits : ∀ cs : List Char, (∀ x ∈ cs, x ∈ hexDigits) → ¬ word.toList <:+: cs :=
    fun cs hcs h => hnot (hcs c (h.subset hc))
  unfold Text.occursIn
  rw [orderId_tokens, decide_eq_decide, Text.infix_joined_iff _ _ hne hword]
  simp only [orderTokens, List.exists_mem_cons_iff, List.not_mem_nil, false_and, exists_false,
    or_false, hstrategy, false_or]
  have hshort := hdigits _ (fun x hx => mem_hexDigits_of_isDigit x (isDigit_shortId tradeId x hx))
  have hleg := hdigits _ (fun x hx => mem_hexDigits_of_isDigit x (isDigit_numeral leg x hx))
  have hdigest := hdigits ((hexdigest (digestInput tradeId leg purpose salt)).toList.take 10)
    (fun x hx => hhex _ x (List.mem_of_mem_take hx))
  simp only [hshort, hleg, hdigest, false_or, or_false]

include hhex in
/-- The words say of an order of the strategy whether it opens or closes its trade. -/
theorem roles_order (h : purpose ≠ .rollback) :
    isEntryCoid (directionalOrderId hexdigest tradeId leg purpose salt) = purpose.opens ∧
      isExitCoid (directionalOrderId hexdigest tradeId leg purpose salt) = purpose.closes := by
  have hstrategy := compactStrategy_directional purpose h
  have hexit := word_in_order hexdigest hhex tradeId leg purpose salt "exit" (by decide)
    ⟨'x', by decide, by decide⟩ (by rw [hstrategy]; decide)
  have htrail := word_in_order hexdigest hhex tradeId leg purpose salt "trail" (by decide)
    ⟨'t', by decide, by decide⟩ (by rw [hstrategy]; decide)
  have hentry := word_in_order hexdigest hhex tradeId leg purpose salt "entry" (by decide)
    ⟨'n', by decide, by decide⟩ (by rw [hstrategy]; decide)
  have hrollback := word_in_order hexdigest hhex tradeId leg purpose salt "rollback" (by decide)
    ⟨'o', by decide, by decide⟩ (by rw [hstrategy]; decide)
  rw [isEntryCoid, isExitCoid, hexit, htrail, hentry, hrollback]
  unfold Text.occursIn
  cases purpose with
  | rollback => exact absurd rfl h
  | entry =>
      rw [compact_entry]
      decide
  | entryIoc =>
      rw [compact_entryIoc]
      decide
  | exit trigger =>
      have hall : ∀ token ∈ ["exitta", "exitpr", "exitun", "exittr", "exitti", "exitfo", "exitte",
          "exitde", "exitga"].map String.toList,
          "exit".toList <:+: token ∧ ¬ "rollback".toList <:+: token := by decide
      rcases hall _ (compact_exit trigger) with ⟨hfound, hnot⟩
      simp only [hfound, hnot, decide_true, Bool.not_true, Bool.false_and, Bool.true_or]
      exact ⟨rfl, rfl⟩
  | trail price =>
      rcases compact_trail price with ⟨d, hd⟩
      have hall : ∀ d : Fin 10, "trail".toList <:+: "trail".toList ++ [digitChar d] ∧
          ¬ "exit".toList <:+: "trail".toList ++ [digitChar d] ∧
          ¬ "rollback".toList <:+: "trail".toList ++ [digitChar d] := by decide
      rcases hall d with ⟨hfound, hexitnot, hrollbacknot⟩
      rw [hd]
      simp only [hfound, hexitnot, hrollbacknot, decide_true, decide_false, Bool.not_true,
        Bool.and_false, Bool.false_and, Bool.or_self]
      exact ⟨rfl, rfl⟩

/-- The pattern reads the last six characters of the trade's id. -/
theorem tradeIdFromCoid_order (h : purpose ≠ .rollback) :
    tradeIdFromCoid (directionalOrderId hexdigest tradeId leg purpose salt) =
      some (digitsValue (shortId tradeId)) := by
  rcases digits_of_isDigit (shortId tradeId) (isDigit_shortId tradeId) with ⟨ds, hds⟩
  rcases numeral_digits leg with ⟨ls, hls⟩
  have hdash : isDecimal '-' = false := by decide
  have hfirst := takeWhile_digits ds '-'
  have hsecond := takeWhile_digits ls '-'
  unfold tradeIdFromCoid
  rw [orderId_tokens, orderTokens, compactStrategy_directional purpose h]
  simp only [Text.joined, List.cons_append, List.nil_append, hds, hls, (hfirst _ hdash).1,
    (hfirst _ hdash).2, (hsecond _ hdash).1, (hsecond _ hdash).2]
  rw [if_neg]
  rw [← hds, ← hls]
  exact not_or.mpr ⟨shortId_ne_nil tradeId, numeral_ne_nil leg⟩

/-- An order of a rollback is not one of the strategy. -/
theorem tradeIdFromCoid_rollback :
    tradeIdFromCoid (directionalOrderId hexdigest tradeId leg .rollback salt) = none := by
  have hrollback : (compactStrategy OrderPurpose.rollback.strategyId).toList = ['r', 'b'] := rfl
  unfold tradeIdFromCoid
  rw [orderId_tokens, orderTokens, hrollback]
  rfl

include hhex in
/-- Between two hyphens stand the short id and the leg. -/
theorem isOrderOfTrade_order (h : purpose ≠ .rollback) (q : Nat) :
    isOrderOfTrade q (directionalOrderId hexdigest tradeId leg purpose salt) = true ↔
      numeral q = shortId tradeId ∨ numeral q = numeral leg := by
  have hdash : "-".toList = ['-'] := by decide
  have hlead : "dr-".toList = ['d', 'r', '-'] := by decide
  have hstart : Text.startsWith "dr-" (directionalOrderId hexdigest tradeId leg purpose salt) =
      true := by
    unfold Text.startsWith
    rw [orderId_tokens, orderTokens, compactStrategy_directional purpose h, hlead]
    simp [Text.joined]
  have hneedle : ("-" ++ toString q ++ "-").toList = '-' :: (numeral q ++ ['-']) := by
    rw [String.toList_append, String.toList_append, hdash]
    rfl
  rw [isOrderOfTrade, hstart, Bool.true_and, Text.occursIn, hneedle, orderId_tokens,
    decide_eq_true_eq, Text.enclosed_joined_iff _ _ (dash_notMem_digits _ (isDigit_numeral q))
      (dash_notMem_tokens hexdigest hhex tradeId leg purpose salt), orderTokens]
  -- A purpose starts with a letter, so it is no number.
  have hletter : numeral q ≠ (compactPurpose purpose.text).toList := by
    rcases purposeToken_letter purpose with ⟨c, rest, htoken, hc, -⟩
    intro heq
    have hdigit := isDigit_numeral q c (by rw [heq, htoken]; exact List.mem_cons_self)
    rw [hc] at hdigit
    cases hdigit
  simp only [List.tail_cons, List.dropLast_cons_cons, List.dropLast_singleton, List.mem_cons,
    List.not_mem_nil, or_false, hletter]

include hhex in
/-- All three readers are right for the orders of a strategy's trade with at most six
    digits, whose leg is the first one or numbered as the trade is. -/
theorem recovered_iff :
    Recovered (directionalOrderId hexdigest tradeId leg purpose salt) tradeId purpose ↔
      purpose ≠ .rollback ∧ tradeId < 10 ^ 6 ∧ (leg = 0 ∨ leg = tradeId) := by
  constructor
  · intro h
    have hpurpose : purpose ≠ .rollback := by
      intro heq
      have hdecoded := h.decoded
      rw [heq, tradeIdFromCoid_rollback] at hdecoded
      cases hdecoded
    refine ⟨hpurpose, ?_, ?_⟩
    · have hdecoded := h.decoded
      rw [tradeIdFromCoid_order hexdigest tradeId leg purpose salt hpurpose] at hdecoded
      exact (digitsValue_shortId_iff tradeId).mp (Option.some.inj hdecoded)
    · by_cases hleg : leg = 0
      · exact Or.inl hleg
      · right
        refine (h.fetched leg (Nat.one_le_iff_ne_zero.mpr hleg)).mp ?_
        exact (isOrderOfTrade_order hexdigest hhex tradeId leg purpose salt hpurpose leg).mpr
          (Or.inr rfl)
  · rintro ⟨hpurpose, hsmall, hleg⟩
    have hshort : shortId tradeId = numeral tradeId := by
      have hlength : (numeral tradeId).length ≤ 6 := by
        rw [numeral_eq]
        exact (Nat.length_toDigits_le_iff (by decide) (by decide)).mpr hsmall
      rw [shortId, Nat.sub_eq_zero_of_le hlength, List.drop_zero]
    rcases roles_order hexdigest hhex tradeId leg purpose salt hpurpose with ⟨hopens, hcloses⟩
    refine ⟨?_, hopens, hcloses, ?_⟩
    · rw [tradeIdFromCoid_order hexdigest tradeId leg purpose salt hpurpose,
        (digitsValue_shortId_iff tradeId).mpr hsmall]
    · intro q hq
      rw [isOrderOfTrade_order hexdigest hhex tradeId leg purpose salt hpurpose q, hshort]
      constructor
      · rintro (htrade | hlegs)
        · exact numeral_inj q tradeId htrade
        · have heq := numeral_inj q leg hlegs
          omega
      · intro heq
        exact Or.inl (by rw [heq])

end Readers

/-- The digest of one text, wherever it is asked for. -/
def sampleDigest (_ : String) : String := "0a1b2c3d4e5f60718293a4b5c6d7e8f901234567"

theorem sampleDigest_hex (raw : String) : ∀ c ∈ (sampleDigest raw).toList, c ∈ hexDigits := by
  have hall : (sampleDigest raw).toList.all (fun c => decide (c ∈ hexDigits)) = true := by
    unfold sampleDigest
    decide
  exact fun c hc => of_decide_eq_true (List.all_eq_true.mp hall c hc)

/-- The entry of trade 1042 is recovered. -/
theorem recovered_entry :
    Recovered (directionalOrderId sampleDigest 1042 0 .entry "3fb24d67") 1042 .entry :=
  (recovered_iff sampleDigest sampleDigest_hex 1042 0 .entry "3fb24d67").mpr
    ⟨by decide, by decide, Or.inl rfl⟩

/-- The rollback of trade 1042 is not one of the strategy's orders, and an entry of the
    millionth trade is read as one of trade zero. -/
theorem recovered_fails :
    tradeIdFromCoid (directionalOrderId sampleDigest 1042 0 .rollback "3fb24d67") = none ∧
    tradeIdFromCoid (directionalOrderId sampleDigest 1000000 0 .entry "3fb24d67") = some 0 ∧
    ¬ Recovered (directionalOrderId sampleDigest 1042 0 .rollback "3fb24d67") 1042 .rollback ∧
    ¬ Recovered (directionalOrderId sampleDigest 1000000 0 .entry "3fb24d67") 1000000 .entry := by
  have hrollback := tradeIdFromCoid_rollback sampleDigest 1042 0 "3fb24d67"
  have hmillionth : tradeIdFromCoid
      (directionalOrderId sampleDigest 1000000 0 .entry "3fb24d67") = some 0 := by
    rw [tradeIdFromCoid_order sampleDigest 1000000 0 .entry "3fb24d67" (by decide), shortId,
      numeral_eq]
    decide
  refine ⟨hrollback, hmillionth, fun h => ?_, fun h => ?_⟩
  · have hdecoded := h.decoded
    rw [hrollback] at hdecoded
    cases hdecoded
  · have hdecoded := h.decoded
    rw [hmillionth] at hdecoded
    cases hdecoded

end OptionsBot
