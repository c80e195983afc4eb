import OptionsBot.Lib.Delimited
import OptionsBot.Lib.JsonTree

/-!
# JSON as a Text

The text that a JSON value is written as: without blanks, and with nothing but ASCII
letters, so that any other sign is escaped by its UTF-16 units. A value can be read back
from its text. Every token but a number says itself where it ends, and behind a number
comes a sign that no number contains.

How a float is written is a parameter, with what is relied on: the text of a float gives
it back, and has a point or an exponent, which the text of an integer has not.

## Main definitions

* `FloatText`: How floats are written.
* `escapeChar`, `quoted`: A sign, and a text in quotes.
* `dumps`: The text of a value.

## Theorems

* `escapeChar_selfDelimiting`: An escape says itself where it ends.
* `quoted_append_inj`: So does a text in quotes.
* `dumps_append_inj`: A value that is followed by no letter of a number.
* `dumps_injective`: Values of one text are equal.
-/

namespace OptionsBot

/-- The letters of numbers. -/
def IsNumeric (c : Char) : Prop :=
  c.isDigit = true ∨ c = '-' ∨ c = '+' ∨ c = '.' ∨ c = 'e'

/-- How floats are written. -/
structure FloatText where
  shown : ℚ → List Char
  shown_inj : ∀ x y, shown x = shown y → x = y
  numeric : ∀ x, ∀ c ∈ shown x, IsNumeric c
  leads : ∀ x, ∃ c rest, shown x = c :: rest ∧ (c.isDigit = true ∨ c = '-')
  marked : ∀ x, '.' ∈ shown x ∨ 'e' ∈ shown x

namespace JsonText

def quoteMark : Char := Char.ofNat 34

def backslash : Char := Char.ofNat 92

/-- The signs with an escape of one letter. -/
def shortEscape (c : Char) : Option Char :=
  if c = quoteMark then some quoteMark
  else if c = backslash then some backslash
  else if c.toNat = 10 then some 'n'
  else if c.toNat = 13 then some 'r'
  else if c.toNat = 9 then some 't'
  else if c.toNat = 12 then some 'f'
  else if c.toNat = 8 then some 'b'
  else none

/-- Four hexadecimal digits. -/
def hex4 (n : Nat) : List Char :=
  [Nat.digitChar (n / 4096 % 16), Nat.digitChar (n / 256 % 16), Nat.digitChar (n / 16 % 16),
    Nat.digitChar (n % 16)]

/-- The escape of a UTF-16 unit. -/
def unitEscape (n : Nat) : List Char := backslash :: 'u' :: hex4 n

/-- A sign within a text. -/
def escapeChar (c : Char) : List Char :=
  match shortEscape c with
  | some letter => [backslash, letter]
  | none =>
    if 32 ≤ c.toNat ∧ c.toNat ≤ 126 then [c]
    else if c.toNat < 65536 then unitEscape c.toNat
    else
      unitEscape (55296 + (c.toNat - 65536) / 1024) ++
        unitEscape (56320 + (c.toNat - 65536) % 1024)

/-- A text in quotes. -/
def quoted (text : String) : List Char :=
  quoteMark :: (text.toList.flatMap escapeChar ++ [quoteMark])

mutual

/-- `dumps(value, separators=(",", ":"))`. -/
def dumps (floats : FloatText) : JsonTree → List Char
  | .null => "null".toList
  | .flag true => "true".toList
  | .flag false => "false".toList
  | .integer n => (toString n).toList
  | .real x => floats.shown x
  | .text s => quoted s
  | .array [] => ['[', ']']
  | .array (item :: items) => '[' :: (dumps floats item ++ dumpsItems floats items)
  | .object [] => [Char.ofNat 123, Char.ofNat 125]
  | .object ((key, value) :: fields) =>
    Char.ofNat 123 :: (quoted key ++ ':' :: (dumps floats value ++ dumpsFields floats fields))

/-- The items behind the first, with the bracket that ends an array. -/
def dumpsItems (floats : FloatText) : List JsonTree → List Char
  | [] => [']']
  | item :: items => ',' :: (dumps floats item ++ dumpsItems floats items)

/-- The fields behind the first, with the brace that ends an object. -/
def dumpsFields (floats : FloatText) : List (String × JsonTree) → List Char
  | [] => [Char.ofNat 125]
  | (key, value) :: fields =>
    ',' :: (quoted key ++ ':' :: (dumps floats value ++ dumpsFields floats fields))

end

theorem digitChar_inj (m n : Nat) (hm : m < 16) (hn : n < 16)
    (h : Nat.digitChar m = Nat.digitChar n) : m = n := by
  have key : ∀ m n : Fin 16, Nat.digitChar m = Nat.digitChar n → m = n := by decide
  exact congrArg Fin.val (key ⟨m, hm⟩ ⟨n, hn⟩ h)

theorem unitEscape_append_inj (m n : Nat) (r s : List Char) (hm : m < 65536) (hn : n < 65536)
    (h : unitEscape m ++ r = unitEscape n ++ s) : m = n ∧ r = s := by
  simp only [unitEscape, hex4, List.cons_append, List.nil_append, List.cons.injEq, true_and] at h
  rcases h with ⟨h3, h2, h1, h0, hrest⟩
  have e3 := digitChar_inj _ _ (Nat.mod_lt _ (by omega)) (Nat.mod_lt _ (by omega)) h3
  have e2 := digitChar_inj _ _ (Nat.mod_lt _ (by omega)) (Nat.mod_lt _ (by omega)) h2
  have e1 := digitChar_inj _ _ (Nat.mod_lt _ (by omega)) (Nat.mod_lt _ (by omega)) h1
  have e0 := digitChar_inj _ _ (Nat.mod_lt _ (by omega)) (Nat.mod_lt _ (by omega)) h0
  exact ⟨by omega, hrest⟩

/-- Signs of one short escape are equal. -/
theorem shortEscape_inj (c d m : Char) (hc : shortEscape c = some m)
    (hd : shortEscape d = some m) : c = d := by
  have key : ∀ (c : Char), shortEscape c = some m →
      (c = quoteMark ∧ m = quoteMark) ∨ (c = backslash ∧ m = backslash) ∨
        (c.toNat = 10 ∧ m = 'n') ∨ (c.toNat = 13 ∧ m = 'r') ∨ (c.toNat = 9 ∧ m = 't') ∨
          (c.toNat = 12 ∧ m = 'f') ∨ (c.toNat = 8 ∧ m = 'b') := by
    intro c hc
    unfold shortEscape at hc
    split_ifs at hc <;> cases hc <;> simp only [*, and_self, true_or, or_true]
  have hlevel : ∀ (n : Nat), c.toNat = n → d.toNat = n → c = d :=
    fun n hcn hdn => Char.toNat_inj.mp (hcn.trans hdn.symm)
  rcases key c hc with ⟨h, hm⟩ | ⟨h, hm⟩ | ⟨h, hm⟩ | ⟨h, hm⟩ | ⟨h, hm⟩ | ⟨h, hm⟩ | ⟨h, hm⟩ <;>
    subst hm <;>
    rcases key d hd with ⟨h', hm'⟩ | ⟨h', hm'⟩ | ⟨h', hm'⟩ | ⟨h', hm'⟩ | ⟨h', hm'⟩ | ⟨h', hm'⟩ |
      ⟨h', hm'⟩ <;>
    first
      | exact absurd hm' (by decide)
      | exact h.trans h'.symm
      | exact hlevel _ h h'

theorem shortEscape_ne (c m : Char) (h : shortEscape c = some m) : m ≠ 'u' := by
  rintro rfl
  unfold shortEscape at h
  split_ifs at h <;> revert h <;> decide

/-- The code of a sign has one of four forms. -/
theorem escapeChar_cases (c : Char) :
    (∃ m, shortEscape c = some m ∧ escapeChar c = [backslash, m]) ∨
      (c ≠ backslash ∧ c ≠ quoteMark ∧ escapeChar c = [c]) ∨
      (c.toNat < 65536 ∧ escapeChar c = unitEscape c.toNat) ∨
      (65536 ≤ c.toNat ∧ escapeChar c = unitEscape (55296 + (c.toNat - 65536) / 1024) ++
        unitEscape (56320 + (c.toNat - 65536) % 1024)) := by
  unfold escapeChar
  rcases hshort : shortEscape c with _ | m
  · simp only
    by_cases hplain : 32 ≤ c.toNat ∧ c.toNat ≤ 126
    · rw [if_pos hplain]
      refine Or.inr (Or.inl ⟨?_, ?_, rfl⟩)
      all_goals
        rintro rfl
        revert hshort
        decide
    · rw [if_neg hplain]
      by_cases hbasic : c.toNat < 65536
      · rw [if_pos hbasic]
        exact Or.inr (Or.inr (Or.inl ⟨hbasic, rfl⟩))
      · rw [if_neg hbasic]
        exact Or.inr (Or.inr (Or.inr ⟨Nat.le_of_not_lt hbasic, rfl⟩))
  · exact Or.inl ⟨m, rfl, rfl⟩

/-- No sign has a number that starts a pair of units. -/
theorem toNat_valid (c : Char) : c.toNat < 55296 ∨ (57343 < c.toNat ∧ c.toNat < 1114112) := c.valid

/-- An escape says itself where it ends. -/
theorem escapeChar_selfDelimiting : Text.SelfDelimiting escapeChar := by
  intro c d r s h
  have hc := toNat_valid c
  have hd := toNat_valid d
  rcases escapeChar_cases c with ⟨m, hm, ec⟩ | ⟨hback, -, ec⟩ | ⟨hlow, ec⟩ | ⟨hhigh, ec⟩ <;>
    rcases escapeChar_cases d with ⟨m', hm', ed⟩ | ⟨hback', -, ed⟩ | ⟨hlow', ed⟩ | ⟨hhigh', ed⟩ <;>
    rw [ec, ed] at h
  · simp only [List.cons_append, List.nil_append, List.cons.injEq, true_and] at h
    exact ⟨shortEscape_inj c d m hm (h.1 ▸ hm'), h.2⟩
  · exact absurd (List.cons.inj h).1.symm hback'
  · exact absurd (List.cons.inj (List.cons.inj h).2).1 (shortEscape_ne c m hm)
  · exact absurd (List.cons.inj (List.cons.inj h).2).1 (shortEscape_ne c m hm)
  · exact absurd (List.cons.inj h).1 hback
  · exact ⟨(List.cons.inj h).1, (List.cons.inj h).2⟩
  · exact absurd (List.cons.inj h).1 hback
  · exact absurd (List.cons.inj h).1 hback
  · exact absurd (List.cons.inj (List.cons.inj h).2).1.symm (shortEscape_ne d m' hm')
  · exact absurd (List.cons.inj h).1.symm hback'
  · rcases unitEscape_append_inj _ _ _ _ hlow hlow' h with ⟨hn, hrest⟩
    exact ⟨Char.toNat_inj.mp hn, hrest⟩
  · -- A single unit is no first unit of a pair.
    rw [List.append_assoc] at h
    rcases unitEscape_append_inj _ _ _ _ hlow (by omega) h with ⟨hn, -⟩
    exact absurd hn (by omega)
  · exact absurd (List.cons.inj (List.cons.inj h).2).1.symm (shortEscape_ne d m' hm')
  · exact absurd (List.cons.inj h).1.symm hback'
  · rw [List.append_assoc] at h
    rcases unitEscape_append_inj _ _ _ _ (by omega) hlow' h with ⟨hn, -⟩
    exact absurd hn (by omega)
  · rw [List.append_assoc, List.append_assoc] at h
    rcases unitEscape_append_inj _ _ _ _ (by omega) (by omega) h with ⟨hfirst, hrest⟩
    rcases unitEscape_append_inj _ _ _ _ (by omega) (by omega) hrest with ⟨hsecond, hend⟩
    exact ⟨Char.toNat_inj.mp (by omega), hend⟩

/-- No escape starts with a quotation mark. -/
theorem escapeChar_leads (c : Char) : ∃ d rest, escapeChar c = d :: rest ∧ d ≠ quoteMark := by
  rcases escapeChar_cases c with ⟨m, -, ec⟩ | ⟨-, hquote, ec⟩ | ⟨-, ec⟩ | ⟨-, ec⟩
  · exact ⟨backslash, [m], ec, by decide⟩
  · exact ⟨c, [], ec, hquote⟩
  · exact ⟨backslash, _, ec, by decide⟩
  · exact ⟨backslash, _, ec, by decide⟩

/-- A text in quotes says itself where it ends. -/
theorem quoted_append_inj (x y : String) (r s : List Char) (h : quoted x ++ r = quoted y ++ s) :
    x = y ∧ r = s := by
  simp only [quoted, List.cons_append, List.append_assoc, List.nil_append, List.cons.injEq,
    true_and] at h
  rcases escapeChar_selfDelimiting.terminated quoteMark escapeChar_leads _ _ r s h with
    ⟨hxy, hrs⟩
  exact ⟨String.toList_inj.mp hxy, hrs⟩

section Integers

theorem natText_eq (n : Nat) : (toString n).toList = Nat.toDigits 10 n := by
  rw [Nat.toString_eq_repr, Nat.toList_repr]

theorem natText_inj (m n : Nat) (h : (toString m).toList = (toString n).toList) : m = n := by
  rw [natText_eq, natText_eq] at h
  rw [← Nat.ofDigitChars_ten_toDigits (n := m), h, Nat.ofDigitChars_ten_toDigits]

theorem isDigit_natText (n : Nat) : ∀ c ∈ (toString n).toList, c.isDigit = true := by
  intro c hc
  rw [natText_eq] at hc
  exact Nat.isDigit_of_mem_toDigits (by decide) (by decide) hc

theorem intText_negSucc (n : Nat) :
    (toString (Int.negSucc n)).toList = '-' :: (toString (n + 1)).toList := by
  have htext : toString (Int.negSucc n) = "-" ++ (n + 1).repr := rfl
  rw [htext, String.toList_append]
  rfl

theorem natText_leads (n : Nat) : ∃ c rest, (toString n).toList = c :: rest ∧ c.isDigit = true := by
  rcases htext : (toString n).toList with _ | ⟨c, rest⟩
  · rw [natText_eq] at htext
    exact absurd htext Nat.toDigits_ne_nil
  · exact ⟨c, rest, rfl, isDigit_natText n c (htext ▸ List.mem_cons_self)⟩

theorem mem_intText (n : Int) (c : Char) (hc : c ∈ (toString n).toList) :
    c.isDigit = true ∨ c = '-' := by
  cases n with
  | ofNat n => exact Or.inl (isDigit_natText n c hc)
  | negSucc n =>
      rw [intText_negSucc, List.mem_cons] at hc
      exact hc.symm.imp (isDigit_natText _ c) id

theorem intText_leads (n : Int) :
    ∃ c rest, (toString n).toList = c :: rest ∧ (c.isDigit = true ∨ c = '-') := by
  cases n with
  | ofNat n =>
      rcases natText_leads n with ⟨c, rest, htext, hc⟩
      exact ⟨c, rest, htext, Or.inl hc⟩
  | negSucc n => exact ⟨'-', _, intText_negSucc n, Or.inr rfl⟩

theorem intText_inj (m n : Int) (h : (toString m).toList = (toString n).toList) : m = n := by
  -- A text with a sign is no text of digits.
  have hsign : ∀ (k : Nat) (t : List Char), (toString k).toList ≠ '-' :: t := by
    intro k t heq
    have hdigit := isDigit_natText k '-' (heq ▸ List.mem_cons_self)
    exact absurd hdigit (by decide)
  cases m with
  | ofNat m =>
      cases n with
      | ofNat n => exact congrArg Int.ofNat (natText_inj m n h)
      | negSucc n => exact absurd (h.trans (intText_negSucc n)) (hsign m _)
  | negSucc m =>
      cases n with
      | ofNat n => exact absurd (h.symm.trans (intText_negSucc m)) (hsign n _)
      | negSucc n =>
          rw [intText_negSucc, intText_negSucc, List.cons.injEq] at h
          have hsucc := natText_inj _ _ h.2
          exact congrArg Int.negSucc (by omega)

end Integers

/-- What the text of a value starts with. -/
def Leads : JsonTree → Char → Prop
  | .null, c => c = 'n'
  | .flag true, c => c = 't'
  | .flag false, c => c = 'f'
  | .integer _, c => c.isDigit = true ∨ c = '-'
  | .real _, c => c.isDigit = true ∨ c = '-'
  | .text _, c => c = quoteMark
  | .array _, c => c = '['
  | .object _, c => c = Char.ofNat 123

theorem dumps_leads (floats : FloatText) (x : JsonTree) :
    ∃ c rest, dumps floats x = c :: rest ∧ Leads x c := by
  cases x with
  | null => exact ⟨'n', "ull".toList, by rw [dumps]; rfl, rfl⟩
  | flag b =>
      cases b with
      | true => exact ⟨'t', "rue".toList, by rw [dumps]; rfl, rfl⟩
      | false => exact ⟨'f', "alse".toList, by rw [dumps]; rfl, rfl⟩
  | integer n =>
      rw [dumps]
      exact intText_leads n
  | real v =>
      rw [dumps]
      exact floats.leads v
  | text s => exact ⟨quoteMark, _, by rw [dumps, quoted], rfl⟩
  | array items =>
      cases items with
      | nil => exact ⟨'[', [']'], by rw [dumps], rfl⟩
      | cons item items => exact ⟨'[', _, by rw [dumps], rfl⟩
  | object fields =>
      cases fields with
      | nil => exact ⟨Char.ofNat 123, _, by rw [dumps], rfl⟩
      | cons field fields => exact ⟨Char.ofNat 123, _, by rw [dumps], rfl⟩

/-- The kinds of values, as far as the first letter shows them. -/
def family : JsonTree → Nat
  | .null => 0
  | .flag true => 1
  | .flag false => 2
  | .integer _ | .real _ => 3
  | .text _ => 4
  | .array _ => 5
  | .object _ => 6

/-- The kind that a first letter shows. -/
def familyOfLead (c : Char) : Nat :=
  if c = 'n' then 0 else if c = 't' then 1 else if c = 'f' then 2 else if c = quoteMark then 4
  else if c = '[' then 5 else if c = Char.ofNat 123 then 6 else 3

theorem familyOfLead_numeric (c : Char) (hc : c.isDigit = true ∨ c = '-') :
    familyOfLead c = 3 := by
  have hne : ∀ d : Char, d.isDigit = false → d ≠ '-' → c ≠ d := by
    rintro d hd hminus rfl
    rcases hc with hc | hc
    · rw [hd] at hc
      cases hc
    · exact hminus hc
  simp only [familyOfLead, hne 'n' (by decide) (by decide), hne 't' (by decide) (by decide),
    hne 'f' (by decide) (by decide), hne quoteMark (by decide) (by decide),
    hne '[' (by decide) (by decide), hne (Char.ofNat 123) (by decide) (by decide), if_false]

theorem familyOfLead_eq (x : JsonTree) (c : Char) (h : Leads x c) : familyOfLead c = family x := by
  cases x with
  | flag b => cases b <;> (cases h; rfl)
  | integer n => exact familyOfLead_numeric c h
  | real v => exact familyOfLead_numeric c h
  | _ => cases h; rfl

/-- Texts that go on to be equal start with values of one kind. -/
theorem family_eq (floats : FloatText) (x y : JsonTree) (r s : List Char)
    (h : dumps floats x ++ r = dumps floats y ++ s) : family x = family y := by
  rcases dumps_leads floats x with ⟨c, rest, hx, hc⟩
  rcases dumps_leads floats y with ⟨d, rest', hy, hd⟩
  rw [hx, hy, List.cons_append, List.cons_append, List.cons.injEq] at h
  rw [← familyOfLead_eq x c hc, ← familyOfLead_eq y d hd, h.1]

theorem numeric_intText (n : Int) : ∀ c ∈ (toString n).toList, IsNumeric c :=
  fun c hc => (mem_intText n c hc).imp id Or.inl

/-- The text of an integer is no text of a float. -/
theorem intText_ne_shown (floats : FloatText) (n : Int) (v : ℚ) :
    (toString n).toList ≠ floats.shown v := by
  intro heq
  rcases floats.marked v with hmark | hmark
  all_goals
    rcases mem_intText n _ (heq ▸ hmark) with hc | hc
    · exact absurd hc (by decide)
    · exact absurd hc (by decide)

theorem stops_mark (c : Char) (r : List Char) (hc : ¬ IsNumeric c) :
    Text.Stops IsNumeric (c :: r) :=
  Text.stops_cons IsNumeric c r hc

theorem dumpsItems_stops (floats : FloatText) (items : List JsonTree) (r : List Char) :
    Text.Stops IsNumeric (dumpsItems floats items ++ r) := by
  cases items with
  | nil => exact stops_mark ']' _ (by unfold IsNumeric; decide)
  | cons item items => exact stops_mark ',' _ (by unfold IsNumeric; decide)

theorem dumpsFields_stops (floats : FloatText) (fields : List (String × JsonTree))
    (r : List Char) : Text.Stops IsNumeric (dumpsFields floats fields ++ r) := by
  cases fields with
  | nil => exact stops_mark (Char.ofNat 125) _ (by unfold IsNumeric; decide)
  | cons field fields => exact stops_mark ',' _ (by unfold IsNumeric; decide)

/-- No value starts with the bracket that ends an array. -/
theorem dumps_ne_bracket (floats : FloatText) (x : JsonTree) (r s : List Char) :
    dumps floats x ++ r ≠ ']' :: s := by
  intro h
  rcases dumps_leads floats x with ⟨c, rest, hx, hc⟩
  rw [hx, List.cons_append, List.cons.injEq] at h
  rw [h.1] at hc
  cases x with
  | flag b => cases b <;> exact absurd (show ']' = _ from hc) (by decide)
  | integer n => exact absurd (show ']'.isDigit = true ∨ ']' = '-' from hc) (by decide)
  | real v => exact absurd (show ']'.isDigit = true ∨ ']' = '-' from hc) (by decide)
  | _ => exact absurd (show ']' = _ from hc) (by decide)

mutual

/-- A value that is followed by no letter of a number can be read back. -/
theorem dumps_append_inj (floats : FloatText) (x y : JsonTree) (r s : List Char)
    (hr : Text.Stops IsNumeric r) (hs : Text.Stops IsNumeric s)
    (h : dumps floats x ++ r = dumps floats y ++ s) : x = y ∧ r = s := by
  have hfamily := family_eq floats x y r s h
  match x, y with
  | .null, .null => exact ⟨rfl, List.append_cancel_left h⟩
  | .flag true, .flag true => exact ⟨rfl, List.append_cancel_left h⟩
  | .flag false, .flag false => exact ⟨rfl, List.append_cancel_left h⟩
  | .integer m, .integer n =>
      rw [dumps, dumps] at h
      rcases Text.append_inj_of_stops IsNumeric _ _ r s (numeric_intText m) (numeric_intText n)
        hr hs h with ⟨htext, hrest⟩
      exact ⟨congrArg JsonTree.integer (intText_inj m n htext), hrest⟩
  | .real v, .real w =>
      rw [dumps, dumps] at h
      rcases Text.append_inj_of_stops IsNumeric _ _ r s (floats.numeric v) (floats.numeric w)
        hr hs h with ⟨htext, hrest⟩
      exact ⟨congrArg JsonTree.real (floats.shown_inj v w htext), hrest⟩
  | .integer n, .real v =>
      rw [dumps, dumps] at h
      exact absurd (Text.append_inj_of_stops IsNumeric _ _ r s (numeric_intText n)
        (floats.numeric v) hr hs h).1 (intText_ne_shown floats n v)
  | .real v, .integer n =>
      rw [dumps, dumps] at h
      exact absurd (Text.append_inj_of_stops IsNumeric _ _ r s (floats.numeric v)
        (numeric_intText n) hr hs h).1.symm (intText_ne_shown floats n v)
  | .text t, .text u =>
      rw [dumps, dumps] at h
      rcases quoted_append_inj t u r s h with ⟨htext, hrest⟩
      exact ⟨congrArg JsonTree.text htext, hrest⟩
  | .array [], .array [] => exact ⟨rfl, List.append_cancel_left h⟩
  | .array (item :: items), .array (item' :: items') =>
      rw [dumps, dumps, List.cons_append, List.cons_append, List.append_assoc,
        List.append_assoc] at h
      rcases dumps_append_inj floats item item' _ _ (dumpsItems_stops floats items r)
        (dumpsItems_stops floats items' s) (List.cons.inj h).2 with ⟨hitem, hitems⟩
      rcases dumpsItems_append_inj floats items items' r s hitems with ⟨hmore, hrest⟩
      exact ⟨by rw [hitem, hmore], hrest⟩
  | .array [], .array (item :: items) =>
      rw [dumps, dumps, List.cons_append, List.cons_append, List.cons_append,
        List.append_assoc] at h
      exact absurd (List.cons.inj h).2.symm (dumps_ne_bracket floats item _ _)
  | .array (item :: items), .array [] =>
      rw [dumps, dumps, List.cons_append, List.cons_append, List.cons_append,
        List.append_assoc] at h
      exact absurd (List.cons.inj h).2 (dumps_ne_bracket floats item _ _)
  | .object [], .object [] => exact ⟨rfl, List.append_cancel_left h⟩
  | .object ((key, value) :: fields), .object ((key', value') :: fields') =>
      rw [dumps, dumps, List.cons_append, List.cons_append, List.append_assoc,
        List.append_assoc] at h
      rcases quoted_append_inj key key' _ _ (List.cons.inj h).2 with ⟨hkey, hvalues⟩
      rw [List.cons_append, List.cons_append, List.append_assoc, List.append_assoc] at hvalues
      rcases dumps_append_inj floats value value' _ _ (dumpsFields_stops floats fields r)
        (dumpsFields_stops floats fields' s) (List.cons.inj hvalues).2 with ⟨hvalue, hfields⟩
      rcases dumpsFields_append_inj floats fields fields' r s hfields with ⟨hmore, hrest⟩
      exact ⟨by rw [hkey, hvalue, hmore], hrest⟩
  | .object [], .object ((key, value) :: fields) =>
      rw [dumps, dumps, quoted, List.cons_append, List.cons_append, List.cons_append,
        List.cons_append] at h
      exact absurd (List.cons.inj (List.cons.inj h).2).1 (by decide)
  | .object ((key, value) :: fields), .object [] =>
      rw [dumps, dumps, quoted, List.cons_append, List.cons_append, List.cons_append,
        List.cons_append] at h
      exact absurd (List.cons.inj (List.cons.inj h).2).1 (by decide)

theorem dumpsItems_append_inj (floats : FloatText) (items items' : List JsonTree)
    (r s : List Char) (h : dumpsItems floats items ++ r = dumpsItems floats items' ++ s) :
    items = items' ∧ r = s := by
  match items, items' with
  | [], [] => exact ⟨rfl, List.append_cancel_left h⟩
  | item :: items, item' :: items' =>
      rw [dumpsItems, dumpsItems, List.cons_append, List.cons_append, List.append_assoc,
        List.append_assoc] at h
      rcases dumps_append_inj floats item item' _ _ (dumpsItems_stops floats items r)
        (dumpsItems_stops floats items' s) (List.cons.inj h).2 with ⟨hitem, hitems⟩
      rcases dumpsItems_append_inj floats items items' r s hitems with ⟨hmore, hrest⟩
      exact ⟨by rw [hitem, hmore], hrest⟩
  | [], item :: items =>
      rw [dumpsItems, dumpsItems, List.cons_append, List.cons_append] at h
      exact absurd (List.cons.inj h).1 (by decide)
  | item :: items, [] =>
      rw [dumpsItems, dumpsItems, List.cons_append, List.cons_append] at h
      exact absurd (List.cons.inj h).1 (by decide)

theorem dumpsFields_append_inj (floats : FloatText) (fields fields' : List (String × JsonTree))
    (r s : List Char) (h : dumpsFields floats fields ++ r = dumpsFields floats fields' ++ s) :
    fields = fields' ∧ r = s := by
  match fields, fields' with
  | [], [] => exact ⟨rfl, List.append_cancel_left h⟩
  | (key, value) :: fields, (key', value') :: fields' =>
      rw [dumpsFields, dumpsFields, List.cons_append, List.cons_append, List.append_assoc,
        List.append_assoc] at h
      rcases quoted_append_inj key key' _ _ (List.cons.inj h).2 with ⟨hkey, hvalues⟩
      rw [List.cons_append, List.cons_append, List.append_assoc, List.append_assoc] at hvalues
      rcases dumps_append_inj floats value value' _ _ (dumpsFields_stops floats fields r)
        (dumpsFields_stops floats fields' s) (List.cons.inj hvalues).2 with ⟨hvalue, hrest⟩
      rcases dumpsFields_append_inj floats fields fields' r s hrest with ⟨hmore, hend⟩
      exact ⟨by rw [hkey, hvalue, hmore], hend⟩
  | [], (key, value) :: fields =>
      rw [dumpsFields, dumpsFields, List.cons_append, List.cons_append] at h
      exact absurd (List.cons.inj h).1 (by decide)
  | (key, value) :: fields, [] =>
      rw [dumpsFields, dumpsFields, List.cons_append, List.cons_append] at h
      exact absurd (List.cons.inj h).1 (by decide)

end

/-- Values of one text are equal. -/
theorem dumps_injective (floats : FloatText) (x y : JsonTree)
    (h : dumps floats x = dumps floats y) : x = y :=
  (dumps_append_inj floats x y [] [] (Text.stops_nil _) (Text.stops_nil _)
    (by rw [h])).1

end JsonText

end OptionsBot
