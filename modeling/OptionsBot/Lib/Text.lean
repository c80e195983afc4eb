import Mathlib.Data.List.Infix

/-!
# Tokens in a Text

Tokens joined by a separator, and what a search for a part of the text finds. A part
without the separator lies within one token, and a part between two separators is a
token that is neither the first nor the last.

## Main definitions

* `occursIn`, `startsWith`: `needle in text` and `text.startswith(lead)`.
* `joined`: Tokens with a separator between any two.

## Theorems

* `infix_joined_iff`: A part without the separator.
* `enclosed_joined_iff`: A part between two separators.
-/

namespace OptionsBot

namespace Text

/-- `needle in text`. -/
def occursIn (needle text : String) : Bool := decide (needle.toList <:+: text.toList)

/-- `text.startswith(lead)`. -/
def startsWith (lead text : String) : Bool := decide (lead.toList <+: text.toList)

section Joined

variable {α : Type} (sep : α)

/-- Tokens with a separator between any two. -/
def joined : List (List α) → List α
  | [] => []
  | [t] => t
  | t :: u :: rest => t ++ sep :: joined (u :: rest)

variable {sep}

/-- Before the separator there is nothing but the first token. -/
theorem prefix_append_sep_iff (w t r : List α) (hw : sep ∉ w) :
    w <+: t ++ sep :: r ↔ w <+: t := by
  induction t generalizing w with
  | nil =>
      cases w with
      | nil => simp
      | cons c w =>
          rw [List.nil_append, List.prefix_cons_iff, List.prefix_nil]
          simp only [List.cons_ne_nil, false_or, List.cons.injEq, iff_false]
          rintro ⟨u, ⟨heq, -⟩, -⟩
          exact hw (heq ▸ List.mem_cons_self)
  | cons c t ih =>
      cases w with
      | nil => simp
      | cons d w =>
          rw [List.cons_append, List.cons_prefix_cons, List.cons_prefix_cons,
            ih w (fun h => hw (List.mem_cons_of_mem d h))]

theorem infix_append_sep_iff (w t r : List α) (hw : sep ∉ w) :
    w <:+: t ++ sep :: r ↔ w <:+: t ∨ w <:+: r := by
  induction t with
  | nil =>
      -- The part does not start with the separator, so it starts behind it.
      rw [List.nil_append, List.infix_cons_iff, List.infix_nil]
      have hlead := prefix_append_sep_iff w [] r hw
      rw [List.nil_append, List.prefix_nil] at hlead
      rw [hlead]
  | cons c t ih =>
      have hlead := prefix_append_sep_iff w (c :: t) r hw
      rw [List.cons_append] at hlead
      rw [List.cons_append, List.infix_cons_iff, List.infix_cons_iff, ih, hlead, or_assoc]

/-- A part without the separator lies within one token. -/
theorem infix_joined_iff (w : List α) (tokens : List (List α)) (hne : w ≠ []) (hw : sep ∉ w) :
    w <:+: joined sep tokens ↔ ∃ t ∈ tokens, w <:+: t := by
  induction tokens with
  | nil => simp [joined, hne]
  | cons t rest ih =>
      cases rest with
      | nil => simp [joined]
      | cons u rest =>
          rw [joined, infix_append_sep_iff w t _ hw, ih]
          simp

theorem enclosed_append_sep_iff (w t r : List α) (ht : sep ∉ t) :
    sep :: (w ++ [sep]) <:+: t ++ sep :: r ↔
      w ++ [sep] <+: r ∨ sep :: (w ++ [sep]) <:+: r := by
  induction t with
  | nil => simp [List.infix_cons_iff, List.cons_prefix_cons]
  | cons c t ih =>
      have hc : sep ≠ c := fun h => ht (h ▸ List.mem_cons_self)
      rw [List.cons_append, List.infix_cons_iff, List.cons_prefix_cons]
      simp only [hc, false_and, false_or]
      exact ih (fun h => ht (List.mem_cons_of_mem c h))

/-- What ends with the separator and starts a text is the text's first token. -/
theorem ended_prefix_iff (w t r : List α) (hw : sep ∉ w) (ht : sep ∉ t) :
    w ++ [sep] <+: t ++ sep :: r ↔ w = t := by
  induction t generalizing w with
  | nil =>
      cases w with
      | nil => simp
      | cons c w =>
          have hc : c ≠ sep := fun h => hw (h ▸ List.mem_cons_self)
          simp [List.cons_prefix_cons, hc]
  | cons d t ih =>
      have hd : sep ≠ d := fun h => ht (h ▸ List.mem_cons_self)
      cases w with
      | nil => simp [List.cons_prefix_cons, hd]
      | cons c w =>
          rw [List.cons_append, List.cons_append, List.cons_prefix_cons,
            ih w (fun h => hw (List.mem_cons_of_mem c h))
              (fun h => ht (List.mem_cons_of_mem d h)), List.cons.injEq]

/-- A part between two separators is a token that is neither the first nor the last. -/
theorem enclosed_joined_iff (w : List α) (tokens : List (List α)) (hw : sep ∉ w)
    (htokens : ∀ t ∈ tokens, sep ∉ t) :
    sep :: (w ++ [sep]) <:+: joined sep tokens ↔ w ∈ tokens.tail.dropLast := by
  have hsingle : ∀ t : List α, sep ∉ t → ¬ sep :: (w ++ [sep]) <:+: t :=
    fun t ht h => ht (h.subset List.mem_cons_self)
  induction tokens with
  | nil => simp [joined]
  | cons t rest ih =>
      have ht := htokens t List.mem_cons_self
      cases rest with
      | nil => simpa [joined] using hsingle t ht
      | cons u rest =>
          have hrest : sep :: (w ++ [sep]) <:+: joined sep (u :: rest) ↔ w ∈ rest.dropLast :=
            ih (fun v hv => htokens v (List.mem_cons_of_mem t hv))
          have hu := htokens u (List.mem_cons_of_mem t List.mem_cons_self)
          rw [joined, enclosed_append_sep_iff w t _ ht, hrest, List.tail_cons]
          cases rest with
          | nil =>
              -- The second token is the last, and no separator follows it.
              have hlast : ¬ w ++ [sep] <+: u := fun h => hu (h.subset (by simp))
              simp [joined, hlast]
          | cons v rest =>
              rw [joined, ended_prefix_iff w u _ hw hu, List.dropLast_cons_cons, List.mem_cons]

end Joined

end Text

end OptionsBot
