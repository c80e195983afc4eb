import OptionsBot.Lib.Text

/-!
# Texts That Can Be Told Apart

When a text made of parts determines its parts. A part ends where its letters do, or it
says itself where it ends. The two cover what formats are made of: numbers and words are
of the first kind, quoted texts and escapes of the second.

## Main definitions

* `Stops`: A rest that is empty or goes on with a letter of another kind.
* `SelfDelimiting`: A code that says itself where it ends.

## Theorems

* `append_inj_of_stops`: A part that ends where its letters do.
* `append_sep_inj`: A part that ends before its first separator.
* `SelfDelimiting.terminated`: A sequence of codes up to an end mark.
* `joined_inj`: Tokens between separators.
-/

namespace OptionsBot

namespace Text

variable {α β : Type}

/-- Nothing is left, or what is left goes on with a letter of another kind. -/
def Stops (kind : β → Prop) (rest : List β) : Prop := ∀ c ∈ rest.head?, ¬ kind c

theorem stops_nil (kind : β → Prop) : Stops kind [] := by
  intro c hc
  cases hc

theorem stops_cons (kind : β → Prop) (c : β) (rest : List β) (hc : ¬ kind c) :
    Stops kind (c :: rest) := by
  intro d hd
  rw [List.head?_cons, Option.mem_some_iff] at hd
  rwa [← hd]

/-- A part whose letters are of one kind ends where they do. -/
theorem append_inj_of_stops (kind : β → Prop) (x y r s : List β) (hx : ∀ c ∈ x, kind c)
    (hy : ∀ c ∈ y, kind c) (hr : Stops kind r) (hs : Stops kind s) (h : x ++ r = y ++ s) :
    x = y ∧ r = s := by
  induction x generalizing y with
  | nil =>
      cases y with
      | nil => exact ⟨rfl, h⟩
      | cons d y =>
          -- The rest behind nothing goes on with a letter of the kind, which it does not.
          rw [List.nil_append, List.cons_append] at h
          exact absurd (hy d List.mem_cons_self) (hr d (by rw [h, List.head?_cons]; rfl))
  | cons c x ih =>
      cases y with
      | nil =>
          rw [List.nil_append, List.cons_append] at h
          exact absurd (hx c List.mem_cons_self) (hs c (by rw [← h, List.head?_cons]; rfl))
      | cons d y =>
          rw [List.cons_append, List.cons_append, List.cons.injEq] at h
          rcases ih y (fun c hc => hx c (List.mem_cons_of_mem _ hc))
            (fun c hc => hy c (List.mem_cons_of_mem _ hc)) h.2 with ⟨hxy, hrs⟩
          exact ⟨by rw [h.1, hxy], hrs⟩

/-- A part without the separator ends before the first one. -/
theorem append_sep_inj (sep : β) (x y r s : List β) (hx : sep ∉ x) (hy : sep ∉ y)
    (h : x ++ sep :: r = y ++ sep :: s) : x = y ∧ r = s := by
  have hstop : ∀ t, Stops (fun c => c ≠ sep) (sep :: t) :=
    fun t => stops_cons _ _ _ (not_not_intro rfl)
  rcases append_inj_of_stops (fun c => c ≠ sep) x y (sep :: r) (sep :: s)
    (fun c hc heq => hx (heq ▸ hc)) (fun c hc heq => hy (heq ▸ hc)) (hstop r) (hstop s) h with
    ⟨hxy, hrs⟩
  exact ⟨hxy, (List.cons.inj hrs).2⟩

/-- No code is the beginning of another one, so a code says itself where it ends. -/
def SelfDelimiting (code : α → List β) : Prop :=
  ∀ a b r s, code a ++ r = code b ++ s → a = b ∧ r = s

section SelfDelimiting

variable {code : α → List β}

/-- A sequence of codes ends at a mark that starts none of them. -/
theorem SelfDelimiting.terminated (hcode : SelfDelimiting code) (mark : β)
    (hmark : ∀ a, ∃ c rest, code a = c :: rest ∧ c ≠ mark) (xs ys : List α) (r s : List β)
    (h : xs.flatMap code ++ mark :: r = ys.flatMap code ++ mark :: s) : xs = ys ∧ r = s := by
  induction xs generalizing ys with
  | nil =>
      cases ys with
      | nil =>
          rw [List.flatMap_nil, List.nil_append, List.nil_append] at h
          exact ⟨rfl, (List.cons.inj h).2⟩
      | cons b ys =>
          rcases hmark b with ⟨c, rest, hc, hne⟩
          rw [List.flatMap_nil, List.nil_append, List.flatMap_cons, hc, List.cons_append,
            List.cons_append, List.cons.injEq] at h
          exact absurd h.1.symm hne
  | cons a xs ih =>
      cases ys with
      | nil =>
          rcases hmark a with ⟨c, rest, hc, hne⟩
          rw [List.flatMap_nil, List.nil_append, List.flatMap_cons, hc, List.cons_append,
            List.cons_append, List.cons.injEq] at h
          exact absurd h.1 hne
      | cons b ys =>
          rw [List.flatMap_cons, List.flatMap_cons, List.append_assoc, List.append_assoc] at h
          rcases hcode a b _ _ h with ⟨hab, htail⟩
          rcases ih ys htail with ⟨hxy, hrs⟩
          exact ⟨by rw [hab, hxy], hrs⟩

end SelfDelimiting

/-- What is between the separators comes from a token. -/
theorem mem_joined (sep : β) (tokens : List (List β)) (c : β) (hc : c ∈ joined sep tokens) :
    (∃ t ∈ tokens, c ∈ t) ∨ c = sep := by
  induction tokens with
  | nil => cases hc
  | cons t rest ih =>
      cases rest with
      | nil => exact Or.inl ⟨t, List.mem_cons_self, hc⟩
      | cons u rest =>
          rw [joined, List.mem_append, List.mem_cons] at hc
          rcases hc with hc | hc | hc
          · exact Or.inl ⟨t, List.mem_cons_self, hc⟩
          · exact Or.inr hc
          · rcases ih hc with ⟨t', ht, hct⟩ | hsep
            · exact Or.inl ⟨t', List.mem_cons_of_mem _ ht, hct⟩
            · exact Or.inr hsep

/-- Tokens without the separator are told apart by it. -/
theorem joined_inj (sep : β) (xs ys : List (List β)) (hx : ∀ t ∈ xs, t ≠ [] ∧ sep ∉ t)
    (hy : ∀ t ∈ ys, t ≠ [] ∧ sep ∉ t) (h : joined sep xs = joined sep ys) : xs = ys := by
  have hne : ∀ (t : List β) (rest : List (List β)), t ≠ [] → joined sep (t :: rest) ≠ [] := by
    intro t rest ht
    cases rest with
    | nil => exact ht
    | cons u rest => exact List.append_ne_nil_of_left_ne_nil ht _
  induction xs generalizing ys with
  | nil =>
      cases ys with
      | nil => rfl
      | cons u ys => exact absurd h.symm (hne u ys (hy u List.mem_cons_self).1)
  | cons t xs ih =>
      cases ys with
      | nil => exact absurd h (hne t xs (hx t List.mem_cons_self).1)
      | cons u ys =>
          have ht := (hx t List.mem_cons_self).2
          have hu := (hy u List.mem_cons_self).2
          have hxs := fun t ht => hx t (List.mem_cons_of_mem _ ht)
          have hys := fun t ht => hy t (List.mem_cons_of_mem _ ht)
          -- A separator lies behind the first token exactly if there is a second.
          cases xs with
          | nil =>
              cases ys with
              | nil => exact congrArg (fun t => [t]) h
              | cons v ys =>
                  rw [joined, joined] at h
                  exact absurd (h ▸ List.mem_append_right _ List.mem_cons_self) ht
          | cons w xs =>
              cases ys with
              | nil =>
                  rw [joined, joined] at h
                  exact absurd (h ▸ List.mem_append_right _ List.mem_cons_self) hu
              | cons v ys =>
                  rw [joined, joined] at h
                  rcases append_sep_inj sep t u _ _ ht hu h with ⟨htu, hrest⟩
                  rw [htu, ih (v :: ys) hxs hys hrest]

end Text

end OptionsBot
