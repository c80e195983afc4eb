import OptionsBot.Lib.Python

/-!
# Nested JSON Values

A decoded JSON value with all that is inside of it, for code that reads a field of
a field. Three things are done to a value whose kind is not known: it is tested for
being true, it is read as a number, and it is asked for a field.

Integers have no bound, and one too large for a float does not convert: that is an
exception of its own, which a handler for texts and wrong types lets through. Only
an object has fields to ask for.

## Main definitions

* `JsonTree`: A decoded value.
* `JsonTree.truthy`, `JsonTree.or`: A value as a condition, and `x or y`.
* `JsonTree.Fits`: A value that a float does not overflow on.
* `JsonTree.asFloat`: A value as a number, or none if it is not one.
* `JsonTree.fields`: The fields of a value, where it has fields.
* `JsonFields.get`: Reading a field.

## Theorems

* `asFloat_ok_iff`: When reading a number does not raise.
* `fields_error`: Without fields, asking for them raises.
-/

namespace OptionsBot

/-- A decoded JSON value. -/
inductive JsonTree where
  | null
  | flag (value : Bool)
  | integer (value : Int)
  | real (value : ℚ)
  | text (value : String)
  | array (items : List JsonTree)
  | object (fields : List (String × JsonTree))

/-- The fields of an object, in order. -/
abbrev JsonFields := List (String × JsonTree)

/-- The integers from here on round to a float that is not finite. -/
def floatLimit : Int := 2 ^ 1024 - 2 ^ 970

namespace JsonTree

/-- `bool(x)`. -/
def truthy : JsonTree → Bool
  | null => false
  | flag b => b
  | integer n => decide (n ≠ 0)
  | real x => decide (x ≠ 0)
  | text s => decide (s ≠ "")
  | array items => !items.isEmpty
  | object fields => !fields.isEmpty

/-- `x or y`. -/
def or (x y : JsonTree) : JsonTree := if x.truthy then x else y

/-- A float does not overflow on the value. -/
def Fits : JsonTree → Prop
  | integer n => |n| < floatLimit
  | _ => True

/-- `float(x)`, where `None` and the empty text are none, and a text or a type
    that does not convert is too. An integer that is too large raises. -/
def asFloat (parse : String → Option ℚ) : JsonTree → Except PyError (Option ℚ)
  | null => .ok none
  | flag b => .ok (some (if b then 1 else 0))
  | integer n => if |n| < floatLimit then .ok (some n) else .error .overflowError
  | real x => .ok (some x)
  | text s => .ok (if s = "" then none else parse s)
  | array _ => .ok none
  | object _ => .ok none

/-- `x.get`, which only an object has. -/
def fields : JsonTree → Except PyError JsonFields
  | object fields => .ok fields
  | _ => .error (.attributeError "get")

theorem asFloat_ok_iff (parse : String → Option ℚ) (x : JsonTree) :
    (∃ v, x.asFloat parse = .ok v) ↔ x.Fits := by
  cases x with
  | integer n =>
      simp only [asFloat, Fits]
      by_cases h : |n| < floatLimit
      · rw [if_pos h]
        exact ⟨fun _ => h, fun _ => ⟨_, rfl⟩⟩
      · rw [if_neg h]
        refine ⟨fun hok => ?_, fun hfits => absurd hfits h⟩
        rcases hok with ⟨v, hv⟩
        cases hv
  | _ => exact ⟨fun _ => trivial, fun _ => ⟨_, rfl⟩⟩

theorem fields_error (x : JsonTree) (h : ¬ ∃ fields, x = .object fields) :
    x.fields = .error (.attributeError "get") := by
  cases x with
  | object fields => exact absurd ⟨fields, rfl⟩ h
  | _ => rfl

end JsonTree

/-- `d.get(key)`. -/
def JsonFields.get (o : JsonFields) (key : String) : JsonTree :=
  ((o.find? (fun field => decide (field.1 = key))).map Prod.snd).getD .null

end OptionsBot
