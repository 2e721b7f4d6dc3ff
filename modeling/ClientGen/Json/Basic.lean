import ClientGen.Decimal.Binary64

/-!
# JSON values

The values that a document may carry without the generator knowing their
shape: defaults, examples and the entries of an enumeration. A number is an
integer if it is written as one and fits 64 bits, with or without sign;
otherwise it is a floating-point value.

The fields of an object are a list. A value that was *read* has them sorted by
key and without repetition (`Json.ofFields`); a value that the generator
itself builds lists them as they are to be written.
-/

namespace ClientGen

/-- A number: an integer, or a floating-point value. -/
inductive Json.Number where
  | integer (n : Int)
  | float (x : Decimal.Binary64)
deriving DecidableEq, Repr, Inhabited

/-- **A JSON value.** -/
inductive Json where
  | null
  | bool (b : Bool)
  | number (n : Json.Number)
  | text (s : String)
  | list (items : List Json)
  | object (fields : List (String × Json))
deriving Repr, Inhabited

namespace Json

/-- The integer `n` as a JSON value. -/
def ofInt (n : Int) : Json := .number (.integer n)

/-- The text, if the value is one. -/
def text? : Json → Option String
  | .text s => some s
  | _ => none

/-- Whether the value is `null`. -/
def isNull : Json → Bool
  | .null => true
  | _ => false

/-- Whether the value is a text. -/
def isText (j : Json) : Bool := j.text?.isSome

/-- Writes a field among fields sorted by key; a present key takes the new
value. -/
def insertField (key : String) (value : Json) : List (String × Json) → List (String × Json)
  | [] => [(key, value)]
  | (k, v) :: fields =>
    if key = k then (k, value) :: fields
    else if key < k then (key, value) :: (k, v) :: fields
    else (k, v) :: insertField key value fields

/-- **The object that fields read in this order make**: sorted by key, the last
value of a repeated key. -/
def ofFields (fields : List (String × Json)) : Json :=
  .object (fields.foldl (fun acc f => insertField f.1 f.2 acc) [])

end Json

end ClientGen
