import OptionsBot.Lib.Python

/-!
# JSON Replies

The values a decoded JSON reply is made of, with the conversions Python code
applies to a field it knows nothing about: `str`, `float`, `x or d`, and
`d.get(key)`.

A number keeps its text beside its value, since `str` of an integer and of a
float of one value differ. Of an array or an object inside a value only what the
conversions see is kept: its text and whether it is empty.

`float` of a text is the text's own reading, which is a parameter: whatever
Python reads, a text that reads as no number raises.

## Main definitions

* `Json`: A decoded value.
* `Json.truthy`, `Json.str`, `Json.float`: The three conversions.
* `JsonObject`: An object, its fields in order.
* `JsonObject.get`, `JsonObject.getStr`, `JsonObject.getStrOrEmpty`, `JsonObject.getFloatOr`:
  Reading a field.
-/

namespace OptionsBot

/-- A decoded JSON value. -/
inductive Json where
  | null
  | flag (value : Bool)
  | number (value : ℚ) (shown : String)
  | text (value : String)
  | compound (isEmpty : Bool) (shown : String)
  deriving DecidableEq

namespace Json

/-- `bool(x)`. -/
def truthy : Json → Bool
  | null => false
  | flag b => b
  | number x _ => decide (x ≠ 0)
  | text s => decide (s ≠ "")
  | compound isEmpty _ => !isEmpty

/-- `str(x)`. -/
def str : Json → String
  | null => "None"
  | flag true => "True"
  | flag false => "False"
  | number _ shown => shown
  | text s => s
  | compound _ shown => shown

/-- `float(x)`, with the reading of a text given. -/
def float (parse : String → Option ℚ) : Json → Except PyError ℚ
  | null => .error (.typeError "float() argument must be a string or a real number")
  | flag b => .ok (if b then 1 else 0)
  | number x _ => .ok x
  | text s =>
    match parse s with
    | none => .error (.valueError "could not convert string to float")
    | some x => .ok x
  | compound _ _ => .error (.typeError "float() argument must be a string or a real number")

end Json

/-- An object, its fields in order. -/
abbrev JsonObject := List (String × Json)

namespace JsonObject

/-- `d.get(key)`. -/
def get (o : JsonObject) (key : String) : Option Json :=
  (o.find? (fun field => decide (field.1 = key))).map Prod.snd

/-- `str(d.get(key))`. A missing field is `None`, and so is its text. -/
def getStr (o : JsonObject) (key : String) : String := ((o.get key).getD .null).str

/-- `str(d.get(key) or "")`. -/
def getStrOrEmpty (o : JsonObject) (key : String) : String :=
  let value := (o.get key).getD .null
  if value.truthy then value.str else ""

/-- `float(d.get(key) or default)`. -/
def getFloatOr (parse : String → Option ℚ) (o : JsonObject) (key : String) (default : ℚ) :
    Except PyError ℚ :=
  let value := (o.get key).getD .null
  if value.truthy then value.float parse else .ok default

end JsonObject

end OptionsBot
