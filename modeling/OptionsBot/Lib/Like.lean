import Mathlib.Data.List.Infix

/-!
# Patterns with Wildcards

A pattern of symbols in which one symbol stands for any text and another for any one symbol. The
others stand for themselves, up to what a folding of symbols makes the same, such as letters in
two cases.

A text without wildcards between two symbols for any text is looked for anywhere: then the match
is a question of parts of the folded texts.

## Main definitions

* `like`: A text matches a pattern.

## Theorems

* `like_any_iff`: A pattern that starts with any text.
* `like_plain_iff`: One that starts with symbols for themselves.
* `like_contains_iff`: Plain symbols between any texts.
-/

namespace OptionsBot

namespace Pattern

variable {α : Type} [DecidableEq α] (any one : α) (fold : α → α)

/-- A text matches a pattern. -/
def like : (pattern text : List α) → Bool
  | [], text => text.isEmpty
  | c :: pattern, text =>
    if c = any then text.tails.any (like pattern)
    else
      match text with
      | [] => false
      | d :: rest => (decide (c = one) || decide (fold c = fold d)) && like pattern rest

theorem like_any_iff (pattern text : List α) :
    like any one fold (any :: pattern) text = true ↔
      ∃ rest, rest <:+ text ∧ like any one fold pattern rest = true := by
  simp only [like, if_true, List.any_eq_true, List.mem_tails]

theorem like_nil_iff (text : List α) : like any one fold [] text = true ↔ text = [] := by
  rw [like, List.isEmpty_iff]

/-- At its end, any text matches. -/
theorem like_rest (text : List α) : like any one fold [any] text = true := by
  rw [like_any_iff]
  exact ⟨[], List.nil_suffix, (like_nil_iff any one fold []).mpr rfl⟩

/-- Symbols for themselves match as many symbols that fold to the same. -/
theorem like_plain_iff (w pattern text : List α) (hplain : any ∉ w ∧ one ∉ w) :
    like any one fold (w ++ pattern) text = true ↔
      ∃ lead rest, text = lead ++ rest ∧ lead.map fold = w.map fold ∧
        like any one fold pattern rest = true := by
  -- Each plain symbol takes one symbol of the text, so the induction follows the plain part.
  induction w generalizing text with
  | nil =>
      refine ⟨fun h => ⟨[], text, rfl, rfl, h⟩, fun h => ?_⟩
      rcases h with ⟨lead, rest, rfl, hlead, h⟩
      rw [List.map_nil, List.map_eq_nil_iff] at hlead
      rwa [hlead]
  | cons c w ih =>
      have hany : c ≠ any := fun h => hplain.1 (h ▸ List.mem_cons_self)
      have hone : c ≠ one := fun h => hplain.2 (h ▸ List.mem_cons_self)
      have hw : any ∉ w ∧ one ∉ w :=
        ⟨fun h => hplain.1 (List.mem_cons_of_mem c h), fun h => hplain.2 (List.mem_cons_of_mem c h)⟩
      cases text with
      | nil =>
          rw [List.cons_append, like, if_neg hany]
          simp only [Bool.false_eq_true, false_iff]
          intro h
          rcases h with ⟨lead, rest, hnil, hlead, _⟩
          rw [(List.append_eq_nil_iff.mp hnil.symm).1] at hlead
          cases hlead
      | cons d text =>
          rw [List.cons_append, like, if_neg hany]
          simp only [hone, decide_false, Bool.false_or, Bool.and_eq_true, decide_eq_true_eq]
          rw [ih text hw]
          constructor
          · intro h
            rcases h with ⟨hfold, lead, rest, htext, hlead, hmatch⟩
            refine ⟨d :: lead, rest, by rw [htext, List.cons_append], ?_, hmatch⟩
            rw [List.map_cons, List.map_cons, hfold, hlead]
          · intro h
            rcases h with ⟨lead, rest, htext, hlead, hmatch⟩
            cases lead with
            | nil => cases hlead
            | cons e lead =>
                rw [List.cons_append, List.cons.injEq] at htext
                rw [List.map_cons, List.map_cons, List.cons.injEq] at hlead
                exact ⟨by rw [htext.1, hlead.1], lead, rest, htext.2, hlead.2, hmatch⟩

/-- Symbols for themselves between any texts are looked for anywhere. -/
theorem like_contains_iff (w text : List α) (hplain : any ∉ w ∧ one ∉ w) :
    like any one fold (any :: (w ++ [any])) text = true ↔ w.map fold <:+: text.map fold := by
  rw [like_any_iff]
  constructor
  · intro h
    rcases h with ⟨tail, ⟨before, rfl⟩, htail⟩
    rcases (like_plain_iff any one fold w [any] tail hplain).mp htail with
      ⟨lead, rest, rfl, hlead, _⟩
    exact ⟨before.map fold, rest.map fold, by rw [← hlead]; simp only [List.map_append,
      List.append_assoc]⟩
  · intro h
    rcases h with ⟨before, after, hfolded⟩
    -- Folding keeps the places, so the part of the folded text is one of the text.
    rcases List.map_eq_append_iff.mp hfolded.symm with ⟨start, rest, rfl, hstart, hrest⟩
    rcases List.map_eq_append_iff.mp hstart with ⟨lead, found, rfl, _, hfound⟩
    refine ⟨found ++ rest, ⟨lead, by rw [List.append_assoc]⟩, ?_⟩
    exact (like_plain_iff any one fold w [any] _ hplain).mpr
      ⟨found, rest, rfl, hfound, like_rest any one fold rest⟩

end Pattern

end OptionsBot
