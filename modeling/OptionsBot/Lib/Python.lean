import Mathlib.Data.Rat.Floor

/-!
# Python Conventions

The parts of Python's built-in behaviour that the translated code leans on and
that Lean spells differently: exceptions as values, the truthiness of `x or y`
on floats, negative indices in slices, and NaN.

Floats are exact rationals throughout, and a NaN is a missing value: a test
that reads one takes the branch a false comparison takes.

## Main definitions

* `PyError`: The exceptions the code can raise.
* `orFloat`: `x or d` on an optional float, where zero counts as absent.
* `sliceIndex`: A slice bound, with negative bounds counted from the end.
* `slice`: `xs[start:stop]`.
* `sliceFrom`: `xs[start:]`.
* `last`, `index`: `xs[-1]` and `xs[i]`, which raise outside the sequence.
* `roundHalfEven`: `round(x)`, ties to the even integer.
* `truncate`: `int(x)`, towards zero.
* `roundDigits`: `round(x, digits)`.
* `forEach`: A loop for its effects, which ends at the first item that raises.

## Theorems

* `orFloat_some_zero`: A default of zero does not show.
* `mapM_ok_iff`: What a loop that may raise collects.
* `mapM_isOk`: A loop whose body raises on no item returns.
* `mem_mapM_ok`, `mapM_ok_mem`, `map_mapM_ok`, `length_mapM_ok`: What is collected comes from the
  items, one from each.
* `forEach_ends_iff`, `forEach_append`, `forEach_stops`: How far such a loop gets.
* `mem_forEach`: What it has done, it has done to an item.
* `bind_isOk_iff`, `of_bind_ok`: When two steps in a row raise nothing, and what they return.
* `forEach_mapM`: A loop over what another has collected.
* `mem_of_last`, `mem_of_index`: What an index reads is an item.
-/

namespace OptionsBot

/-- The exceptions the code can raise. -/
inductive PyError where
  | zeroDivisionError
  | valueError (message : String)
  | keyError (key : String)
  | indexError
  | typeError (message : String)
  | integrityError (constraint : String)
  | attributeError (name : String)
  | overflowError
  deriving DecidableEq, Repr

/-- `x or d` on an optional float: both `None` and `0.0` are falsy. -/
def orFloat (x : Option ℚ) (d : ℚ) : ℚ :=
  match x with
  | none => d
  | some v => if v = 0 then d else v

theorem orFloat_some_zero (v : ℚ) : orFloat (some v) 0 = v := by
  simp only [orFloat]
  split_ifs with h
  · exact h.symm
  · rfl

/-- A slice bound against a sequence of length `n`. -/
def sliceIndex (n : Nat) (i : Int) : Nat :=
  if i < 0 then (n + i).toNat else min i.toNat n

/-- `xs[start:stop]`. -/
def slice {α : Type} (xs : List α) (start stop : Int) : List α :=
  (xs.take (sliceIndex xs.length stop)).drop (sliceIndex xs.length start)

/-- `xs[start:]`. -/
def sliceFrom {α : Type} (xs : List α) (start : Int) : List α :=
  xs.drop (sliceIndex xs.length start)

/-- `xs[-1]`. -/
def last {α : Type} (xs : List α) : Except PyError α :=
  match xs.getLast? with
  | none => .error .indexError
  | some x => .ok x

theorem last_ready {α : Type} (xs : List α) (h : xs ≠ []) : ∃ x ∈ xs, last xs = .ok x := by
  refine ⟨xs.getLast h, List.getLast_mem h, ?_⟩
  rw [last, List.getLast?_eq_some_getLast h]

/-- `xs[i]`, with a negative index counted from the end. -/
def index {α : Type} (xs : List α) (i : Int) : Except PyError α :=
  match (if i < 0 then (if 0 ≤ xs.length + i then xs[(xs.length + i).toNat]? else none)
    else xs[i.toNat]?) with
  | none => .error .indexError
  | some x => .ok x

/-- `round(x)`: the nearest integer, ties to the even one. -/
def roundHalfEven (x : ℚ) : Int :=
  let f := ⌊x⌋
  if x - f < 1 / 2 then f
  else if 1 / 2 < x - f then f + 1
  else if f % 2 = 0 then f
  else f + 1

/-- A number at or above an integer is not rounded below it. -/
theorem le_roundHalfEven (n : Int) (x : ℚ) (h : (n : ℚ) ≤ x) : n ≤ roundHalfEven x := by
  have hfloor := Int.le_floor.mpr h
  unfold roundHalfEven
  simp only
  split_ifs
  · exact hfloor
  · omega
  · exact hfloor
  · omega

/-- `int(x)`, towards zero. -/
def truncate (x : ℚ) : Int := if 0 ≤ x then ⌊x⌋ else -⌊-x⌋

/-- `round(x, digits)`. -/
def roundDigits (x : ℚ) (digits : Nat) : ℚ := roundHalfEven (x * 10 ^ digits) / 10 ^ digits

theorem ok_of_toOption {α ε : Type} (e : Except ε α) (a : α) (h : e.toOption = some a) :
    e = .ok a := by
  cases e with
  | error x => cases h
  | ok b =>
      cases h
      rfl

/-- Two steps in a row raise nothing, if whether the second does is up to itself alone. -/
theorem bind_isOk_iff {α β ε : Type} (x : Except ε α) (f : α → Except ε β) (P : Prop)
    (hf : ∀ a, (∃ y, f a = .ok y) ↔ P) :
    (∃ y, (x >>= f) = .ok y) ↔ (∃ a, x = .ok a) ∧ P := by
  cases x with
  | error e =>
      refine ⟨fun h => ?_, fun h => ?_⟩
      · rcases h with ⟨y, hy⟩
        cases hy
      · rcases h with ⟨⟨a, ha⟩, -⟩
        cases ha
  | ok a => exact ⟨fun h => ⟨⟨a, rfl⟩, (hf a).mp h⟩, fun h => (hf a).mpr h.2⟩

/-- What two steps in a row return, the second has returned. -/
theorem of_bind_ok {α β ε : Type} {x : Except ε α} {f : α → Except ε β} {P : β → Prop}
    (hf : ∀ a y, f a = .ok y → P y) : ∀ y, (x >>= f) = .ok y → P y := by
  intro y h
  cases x with
  | error e => cases h
  | ok a => exact hf a y h

/-- A loop that may raise collects, item by item, what the body returns. -/
theorem mapM_ok_iff {α β ε : Type} (f : α → Except ε β) (xs : List α) (ys : List β) :
    xs.mapM f = .ok ys ↔ List.Forall₂ (fun x y => f x = .ok y) xs ys := by
  induction xs generalizing ys with
  | nil =>
      rw [List.mapM_nil, List.forall₂_nil_left_iff]
      exact ⟨fun h => by cases h; rfl, fun h => by rw [h]; rfl⟩
  | cons a rest ih =>
      rw [List.mapM_cons, List.forall₂_cons_left_iff]
      constructor
      · intro h
        rcases hfa : f a with e | b
        · rw [hfa] at h
          cases h
        · rcases hrest : rest.mapM f with e | bs
          · rw [hfa, hrest] at h
            cases h
          · rw [hfa, hrest] at h
            cases h
            exact ⟨b, bs, rfl, (ih bs).mp hrest, rfl⟩
      · rintro ⟨b, bs, hfa, hrest, rfl⟩
        rw [hfa, (ih bs).mpr hrest]
        rfl

/-- A loop whose body raises on no item returns. -/
theorem mapM_isOk {α β ε : Type} (f : α → Except ε β) (xs : List α)
    (h : ∀ x ∈ xs, ∃ y, f x = .ok y) : ∃ ys, xs.mapM f = .ok ys := by
  induction xs with
  | nil => exact ⟨[], rfl⟩
  | cons a rest ih =>
      rcases h a List.mem_cons_self with ⟨b, hb⟩
      rcases ih (fun x hx => h x (List.mem_cons_of_mem a hx)) with ⟨bs, hbs⟩
      exact ⟨b :: bs, (mapM_ok_iff f _ _).mpr
        (List.Forall₂.cons hb ((mapM_ok_iff f _ _).mp hbs))⟩

/-- What a loop that may raise collects comes from one of its items. -/
theorem mem_mapM_ok {α β ε : Type} (f : α → Except ε β) (xs : List α) (ys : List β)
    (h : xs.mapM f = .ok ys) : ∀ y ∈ ys, ∃ x ∈ xs, f x = .ok y := by
  have hall := (mapM_ok_iff f xs ys).mp h
  clear h
  induction hall with
  | nil => exact fun y hy => absurd hy List.not_mem_nil
  | cons hab _ ih =>
      intro y hy
      rcases List.mem_cons.mp hy with rfl | hin
      · exact ⟨_, List.mem_cons_self, hab⟩
      · rcases ih y hin with ⟨x, hx, hxy⟩
        exact ⟨x, List.mem_cons_of_mem _ hx, hxy⟩

/-- From each of its items a loop that may raise has collected something. -/
theorem mapM_ok_mem {α β ε : Type} (f : α → Except ε β) (xs : List α) (ys : List β)
    (h : xs.mapM f = .ok ys) : ∀ x ∈ xs, ∃ y ∈ ys, f x = .ok y := by
  have hall := (mapM_ok_iff f xs ys).mp h
  clear h
  induction hall with
  | nil => exact fun x hx => absurd hx List.not_mem_nil
  | cons hab _ ih =>
      intro x hx
      rcases List.mem_cons.mp hx with rfl | hin
      · exact ⟨_, List.mem_cons_self, hab⟩
      · rcases ih x hin with ⟨y, hy, hxy⟩
        exact ⟨y, List.mem_cons_of_mem _ hy, hxy⟩

/-- What a function sees of the results, another sees of what they come from. -/
theorem map_mapM_ok {α β γ ε : Type} (f : α → Except ε β) (g : β → γ) (g' : α → γ)
    (hf : ∀ x y, f x = .ok y → g y = g' x) (xs : List α) (ys : List β)
    (h : xs.mapM f = .ok ys) : ys.map g = xs.map g' := by
  have hall := (mapM_ok_iff f xs ys).mp h
  clear h
  induction hall with
  | nil => rfl
  | cons hab _ ih => rw [List.map_cons, List.map_cons, hf _ _ hab, ih]

/-- A loop whose body turns each result into another turns the list of them. -/
theorem mapM_results {α β γ ε : Type} (f : α → Except ε β) (g : β → γ) (xs : List α) :
    xs.mapM (fun x => (f x).map g) = (xs.mapM f).map (List.map g) := by
  induction xs with
  | nil => rfl
  | cons a rest ih =>
      rw [List.mapM_cons, List.mapM_cons, ih]
      cases f a with
      | error e => rfl
      | ok b =>
          cases rest.mapM f with
          | error e => rfl
          | ok bs => rfl

/-- A loop that may raise collects one result for each item. -/
theorem length_mapM_ok {α β ε : Type} (f : α → Except ε β) (xs : List α) (ys : List β)
    (h : xs.mapM f = .ok ys) : ys.length = xs.length :=
  ((mapM_ok_iff f xs ys).mp h).length_eq.symm

/-- A loop for its effects: those of the items before the first that raises, and what that one
    raised. -/
def forEach {α β ε : Type} (f : α → Except ε β) : List α → List β × Option ε
  | [] => ([], none)
  | x :: rest =>
    match f x with
    | .error e => ([], some e)
    | .ok y => (y :: (forEach f rest).1, (forEach f rest).2)

/-- A loop reaches its end when no item raises. -/
theorem forEach_ends_iff {α β ε : Type} (f : α → Except ε β) (xs : List α) :
    (forEach f xs).2 = none ↔ ∀ x ∈ xs, ∃ y, f x = .ok y := by
  induction xs with
  | nil => exact ⟨fun _ x hx => absurd hx List.not_mem_nil, fun _ => rfl⟩
  | cons a rest ih =>
      rw [List.forall_mem_cons, ← ih, forEach]
      cases f a with
      | error e =>
          refine ⟨fun h => absurd h (Option.some_ne_none e), fun h => ?_⟩
          rcases h.1 with ⟨y, hy⟩
          cases hy
      | ok b => exact ⟨fun h => ⟨⟨b, rfl⟩, h⟩, fun h => h.2⟩

/-- What a loop has done, it has done to one of its items. -/
theorem mem_forEach {α β ε : Type} (f : α → Except ε β) (xs : List α) :
    ∀ y ∈ (forEach f xs).1, ∃ x ∈ xs, f x = .ok y := by
  induction xs with
  | nil => exact fun y hy => absurd hy List.not_mem_nil
  | cons a rest ih =>
      rw [forEach]
      cases ha : f a with
      | error e => exact fun y hy => absurd hy List.not_mem_nil
      | ok b =>
          intro y hy
          rcases List.mem_cons.mp hy with rfl | hrest
          · exact ⟨a, List.mem_cons_self, ha⟩
          · rcases ih y hrest with ⟨x, hx, hxy⟩
            exact ⟨x, List.mem_cons_of_mem _ hx, hxy⟩

/-- A loop over what another loop has collected is a loop over the items of that one. -/
theorem forEach_mapM {α β γ ε : Type} (g : α → Except ε β) (f : β → Except ε γ)
    (f' : α → Except ε γ) (hf : ∀ x y, g x = .ok y → f' x = f y) (xs : List α) (ys : List β)
    (h : xs.mapM g = .ok ys) : forEach f ys = forEach f' xs := by
  have hall := (mapM_ok_iff g xs ys).mp h
  clear h
  induction hall with
  | nil => rfl
  | cons hab _ ih => rw [forEach, forEach, hf _ _ hab, ih]

/-- Behind items that do not raise, a loop goes on with the others. -/
theorem forEach_append {α β ε : Type} (f : α → Except ε β) (before after : List α)
    (hbefore : (forEach f before).2 = none) :
    forEach f (before ++ after) =
      ((forEach f before).1 ++ (forEach f after).1, (forEach f after).2) := by
  induction before with
  | nil => rfl
  | cons a rest ih =>
      cases ha : f a with
      | error e =>
          rw [forEach, ha] at hbefore
          cases hbefore
      | ok b =>
          have hrest : (forEach f rest).2 = none := by
            rw [forEach, ha] at hbefore
            exact hbefore
          simp only [List.cons_append, forEach, ha, ih hrest]

/-- What comes after an item that raises is not reached. -/
theorem forEach_stops {α β ε : Type} (f : α → Except ε β) (before after : List α) (x : α) (e : ε)
    (hbefore : (forEach f before).2 = none) (h : f x = .error e) :
    forEach f (before ++ x :: after) = ((forEach f before).1, some e) := by
  simp only [forEach_append f before _ hbefore, forEach, h, List.append_nil]

theorem mem_of_last {α : Type} (xs : List α) (x : α) (h : last xs = .ok x) : x ∈ xs := by
  unfold last at h
  split at h
  · cases h
  · next y hy =>
    cases h
    exact List.mem_of_getLast? hy

theorem mem_of_index {α : Type} (xs : List α) (i : Int) (x : α) (h : index xs i = .ok x) :
    x ∈ xs := by
  unfold index at h
  split at h
  · cases h
  · next hy =>
    cases h
    split_ifs at hy
    · exact List.mem_of_getElem? hy
    · exact List.mem_of_getElem? hy

example : slice [1, 2, 3, 4, 5] (-3) (-1) = [3, 4] := by decide

end OptionsBot
