import OptionsBot.Lib.Delimited

/-!
# Percent Encoding

Names and values in the query of an address. A text is encoded byte by byte: letters,
digits and a few signs stay, a space becomes a plus, and of any other byte the two
hexadecimal digits are written behind a percent sign. The signs that structure a query
are never left over, so it can be read back.

## Main definitions

* `quoteByte`, `quotePlus`: The encoding of a byte, and of a text.
* `urlencode`: The query of a list of parameters.

## Theorems

* `quoteByte_selfDelimiting`: A byte's code says itself where it ends.
* `quotePlus_injective`: Texts of one encoding are equal.
* `urlencode_injective`: Lists of parameters of one query are equal.
-/

namespace OptionsBot

namespace Percent

/-- The bytes that stay: letters, digits, and `_`, `.`, `-`, `~`. -/
def isSafe (b : UInt8) : Bool :=
  let c := Char.ofUInt8 b
  decide (b < 128) && (c.isAlphanum || c == '_' || c == '.' || c == '-' || c == '~')

/-- A hexadecimal digit in upper case. -/
def hexDigit (n : Nat) : Char := (Nat.digitChar n).toUpper

/-- The code of a byte. -/
def quoteByte (b : UInt8) : List Char :=
  if isSafe b then [Char.ofUInt8 b]
  else if b = 32 then ['+']
  else ['%', hexDigit (b.toNat / 16), hexDigit (b.toNat % 16)]

/-- `quote_plus(text)`. -/
def quotePlus (text : String) : List Char := text.toUTF8.data.toList.flatMap quoteByte

/-- `urlencode(params)`. -/
def urlencode (params : List (String × String)) : List Char :=
  Text.joined '&' (params.map (fun p => quotePlus p.1 ++ '=' :: quotePlus p.2))

/-- The signs of an encoded text. -/
def IsQuoted (c : Char) : Prop :=
  c.isAlphanum = true ∨ c = '_' ∨ c = '.' ∨ c = '-' ∨ c = '~' ∨ c = '+' ∨ c = '%'

theorem hexDigit_inj (m n : Nat) (hm : m < 16) (hn : n < 16) (h : hexDigit m = hexDigit n) :
    m = n := by
  have key : ∀ m n : Fin 16, hexDigit m = hexDigit n → m = n := by decide
  exact congrArg Fin.val (key ⟨m, hm⟩ ⟨n, hn⟩ h)

theorem isAlphanum_hexDigit (n : Nat) (hn : n < 16) : (hexDigit n).isAlphanum = true := by
  have key : ∀ n : Fin 16, (hexDigit n).isAlphanum = true := by decide
  exact key ⟨n, hn⟩

theorem toNat_lt (b : UInt8) : b.toNat < 256 := b.toNat_lt

theorem ofUInt8_inj (a b : UInt8) (h : Char.ofUInt8 a = Char.ofUInt8 b) : a = b := by
  have hval : a.toUInt32.toNat = b.toUInt32.toNat := congrArg Char.toNat h
  rw [UInt8.toNat_toUInt32, UInt8.toNat_toUInt32] at hval
  exact UInt8.toNat_inj.mp hval

/-- A byte that stays is no sign of the encoding. -/
theorem isQuoted_of_isSafe (b : UInt8) (h : isSafe b = true) :
    IsQuoted (Char.ofUInt8 b) ∧ Char.ofUInt8 b ≠ '+' ∧ Char.ofUInt8 b ≠ '%' := by
  simp only [isSafe, Bool.and_eq_true, decide_eq_true_eq, Bool.or_eq_true, beq_iff_eq] at h
  rcases h with ⟨-, (((hc | hc) | hc) | hc) | hc⟩
  · refine ⟨Or.inl hc, ?_, ?_⟩
    all_goals
      intro heq
      rw [heq] at hc
      exact absurd hc (by decide)
  all_goals
    rw [hc]
    exact ⟨by unfold IsQuoted; decide, by decide, by decide⟩

/-- The code of a byte has one of three forms. -/
theorem quoteByte_cases (b : UInt8) :
    (quoteByte b = [Char.ofUInt8 b] ∧ Char.ofUInt8 b ≠ '+' ∧ Char.ofUInt8 b ≠ '%') ∨
      (quoteByte b = ['+'] ∧ b = 32) ∨
      quoteByte b = ['%', hexDigit (b.toNat / 16), hexDigit (b.toNat % 16)] := by
  unfold quoteByte
  by_cases hsafe : isSafe b = true
  · rw [if_pos hsafe]
    exact Or.inl ⟨rfl, (isQuoted_of_isSafe b hsafe).2⟩
  · rw [if_neg hsafe]
    by_cases hspace : b = 32
    · rw [if_pos hspace]
      exact Or.inr (Or.inl ⟨rfl, hspace⟩)
    · rw [if_neg hspace]
      exact Or.inr (Or.inr rfl)

theorem isQuoted_of_mem_quoteByte (b : UInt8) (c : Char) (hc : c ∈ quoteByte b) :
    IsQuoted c := by
  have hhigh := isAlphanum_hexDigit (b.toNat / 16) (by have := toNat_lt b; omega)
  have hlow := isAlphanum_hexDigit (b.toNat % 16) (by omega)
  unfold quoteByte at hc
  by_cases hsafe : isSafe b = true
  · rw [if_pos hsafe, List.mem_singleton] at hc
    exact hc ▸ (isQuoted_of_isSafe b hsafe).1
  · rw [if_neg hsafe] at hc
    by_cases hspace : b = 32
    · rw [if_pos hspace, List.mem_singleton] at hc
      exact hc ▸ Or.inr (Or.inr (Or.inr (Or.inr (Or.inr (Or.inl rfl)))))
    · rw [if_neg hspace] at hc
      simp only [List.mem_cons, List.not_mem_nil, or_false] at hc
      rcases hc with rfl | rfl | rfl
      · exact Or.inr (Or.inr (Or.inr (Or.inr (Or.inr (Or.inr rfl)))))
      · exact Or.inl hhigh
      · exact Or.inl hlow

/-- A byte's code says itself where it ends. -/
theorem quoteByte_selfDelimiting : Text.SelfDelimiting quoteByte := by
  intro a b r s h
  rcases quoteByte_cases a with ⟨ha, hplus, hpercent⟩ | ⟨ha, ha32⟩ | ha <;>
    rcases quoteByte_cases b with ⟨hb, hplus', hpercent'⟩ | ⟨hb, hb32⟩ | hb <;>
    rw [ha, hb] at h <;>
    simp only [List.cons_append, List.nil_append, List.cons.injEq] at h
  · exact ⟨ofUInt8_inj a b h.1, h.2⟩
  · exact absurd h.1 hplus
  · exact absurd h.1 hpercent
  · exact absurd h.1.symm hplus'
  · exact ⟨by rw [ha32, hb32], h.2⟩
  · exact absurd h.1 (by decide)
  · exact absurd h.1.symm hpercent'
  · exact absurd h.1 (by decide)
  · -- Two hexadecimal codes have the same two digits.
    have hlt := toNat_lt a
    have hlt' := toNat_lt b
    have hhigh := hexDigit_inj _ _ (by omega) (by omega) h.2.1
    have hlow := hexDigit_inj _ _ (by omega) (by omega) h.2.2.1
    exact ⟨UInt8.toNat_inj.mp (by omega), h.2.2.2⟩

theorem isQuoted_of_mem_quotePlus (text : String) (c : Char) (hc : c ∈ quotePlus text) :
    IsQuoted c := by
  rcases List.mem_flatMap.mp hc with ⟨b, -, hb⟩
  exact isQuoted_of_mem_quoteByte b c hb

theorem utf8_inj (s t : String) (h : s.toUTF8.data.toList = t.toUTF8.data.toList) : s = t :=
  String.toByteArray_inj.mp (ByteArray.ext (Array.toList_inj.mp h))

/-- A sign that no encoding contains. -/
theorem not_mem_quotePlus (text : String) (c : Char) (hc : ¬ IsQuoted c) :
    c ∉ quotePlus text :=
  fun hmem => hc (isQuoted_of_mem_quotePlus text c hmem)

/-- Texts of one encoding are equal. -/
theorem quotePlus_injective (s t : String) (h : quotePlus s = quotePlus t) : s = t := by
  -- The codes are read up to an end mark that none of them starts with.
  have hmark : ∀ b, ∃ c rest, quoteByte b = c :: rest ∧ c ≠ '&' := by
    intro b
    rcases hcode : quoteByte b with _ | ⟨c, rest⟩
    · rcases quoteByte_cases b with ⟨hb, -⟩ | ⟨hb, -⟩ | hb <;> rw [hb] at hcode <;> cases hcode
    · refine ⟨c, rest, rfl, fun heq => ?_⟩
      have hc := isQuoted_of_mem_quoteByte b c (hcode ▸ List.mem_cons_self)
      rw [heq] at hc
      exact absurd hc (by unfold IsQuoted; decide)
  have hbytes := quoteByte_selfDelimiting.terminated '&' hmark s.toUTF8.data.toList
    t.toUTF8.data.toList [] [] (by rw [← quotePlus, ← quotePlus, h])
  exact utf8_inj s t hbytes.1

/-- Lists of parameters of one query are equal. -/
theorem urlencode_injective (ps qs : List (String × String)) (h : urlencode ps = urlencode qs) :
    ps = qs := by
  have hequals : ¬ IsQuoted '=' := by unfold IsQuoted; decide
  have hand : ¬ IsQuoted '&' := by unfold IsQuoted; decide
  have htoken : ∀ (xs : List (String × String)),
      ∀ t ∈ xs.map (fun p => quotePlus p.1 ++ '=' :: quotePlus p.2), t ≠ [] ∧ '&' ∉ t := by
    intro xs t ht
    rcases List.mem_map.mp ht with ⟨p, -, rfl⟩
    refine ⟨by simp, ?_⟩
    rw [List.mem_append, List.mem_cons]
    rintro (hmem | heq | hmem)
    · exact not_mem_quotePlus _ _ hand hmem
    · exact absurd heq (by decide)
    · exact not_mem_quotePlus _ _ hand hmem
  have htokens := Text.joined_inj '&' _ _ (htoken ps) (htoken qs) h
  refine List.map_injective_iff.mpr ?_ htokens
  rintro ⟨k, v⟩ ⟨k', v'⟩ hpair
  rcases Text.append_sep_inj '=' _ _ _ _ (not_mem_quotePlus k _ hequals)
    (not_mem_quotePlus k' _ hequals) hpair with ⟨hk, hv⟩
  rw [quotePlus_injective k k' hk, quotePlus_injective v v' hv]

/-- The signs of a query. -/
theorem mem_urlencode (ps : List (String × String)) (c : Char) (hc : c ∈ urlencode ps) :
    IsQuoted c ∨ c = '=' ∨ c = '&' := by
  unfold urlencode at hc
  generalize htokens : ps.map (fun p => quotePlus p.1 ++ '=' :: quotePlus p.2) = tokens at hc
  have htoken : ∀ t ∈ tokens, ∀ c ∈ t, IsQuoted c ∨ c = '=' := by
    intro t ht d hd
    rw [← htokens] at ht
    rcases List.mem_map.mp ht with ⟨p, -, rfl⟩
    rw [List.mem_append, List.mem_cons] at hd
    rcases hd with hd | hd | hd
    · exact Or.inl (isQuoted_of_mem_quotePlus _ _ hd)
    · exact Or.inr hd
    · exact Or.inl (isQuoted_of_mem_quotePlus _ _ hd)
  rcases Text.mem_joined '&' tokens c hc with ⟨t, ht, hct⟩ | heq
  · exact (htoken t ht c hct).imp id Or.inl
  · exact Or.inr (Or.inr heq)

end Percent

end OptionsBot
