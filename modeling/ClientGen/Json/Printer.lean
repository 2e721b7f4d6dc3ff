import ClientGen.Decimal.Shortest
import ClientGen.Json.Basic

/-!
# Writing JSON

`compact` writes a value without any blanks, `pretty` on several lines with an
indentation of two. Both write the fields of an object in the order in which
the value lists them.
-/

namespace ClientGen.Json

/-- Numbers of a JSON text: whole ones keep a fraction of `.0`, and exponents of
the leading digit from -5 to 15 are written positionally. -/
def numberLayout : Decimal.Layout where
  tie := .even
  plainFrom := some (-5)
  plainTo := some 15
  pointZero := true

/-- The text of an integer. -/
def integerChars (n : Int) : List Char :=
  (if n < 0 then ['-'] else []) ++ Decimal.digitsOf n.natAbs

/-- The text of a number; a value that is no finite number has none of its own. -/
def numberChars : Number → List Char
  | .integer n => integerChars n
  | .float x => if x.isFinite then (numberLayout.text x).toList else "null".toList

/-- One hexadecimal digit, in lower case. -/
def hexDigit (n : Nat) : Char := (Nat.toDigits 16 n).headD '0'

/-- **A character inside a quoted text.** Only the quote, the backslash and the
control characters are escaped. -/
def escapedChar (c : Char) : List Char :=
  if c = '"' then ['\\', '"']
  else if c = '\\' then ['\\', '\\']
  else if c = '\n' then ['\\', 'n']
  else if c = '\r' then ['\\', 'r']
  else if c = '\t' then ['\\', 't']
  else if c = '\x08' then ['\\', 'b']
  else if c = '\x0c' then ['\\', 'f']
  else if c.toNat < 0x20 then
    ['\\', 'u', '0', '0', hexDigit (c.toNat / 16), hexDigit (c.toNat % 16)]
  else [c]

/-- A text between quotes. -/
def quotedChars (s : String) : List Char := '"' :: s.toList.flatMap escapedChar ++ ['"']

/-- The texts one after the other, with a separator between neighbours. -/
def separated (sep : List Char) : List (List Char) → List Char
  | [] => []
  | [t] => t
  | t :: ts => t ++ sep ++ separated sep ts

mutual

/-- **The compact text of a value.** -/
def chars : Json → List Char
  | .null => "null".toList
  | .bool b => if b then "true".toList else "false".toList
  | .number n => numberChars n
  | .text s => quotedChars s
  | .list items => '[' :: separated [','] (charsOfItems items) ++ [']']
  | .object fields => '\x7b' :: separated [','] (charsOfFields fields) ++ ['\x7d']

/-- The compact texts of the items of a list. -/
def charsOfItems : List Json → List (List Char)
  | [] => []
  | j :: js => chars j :: charsOfItems js

/-- The compact texts of the fields of an object. -/
def charsOfFields : List (String × Json) → List (List Char)
  | [] => []
  | (k, v) :: fs => (quotedChars k ++ ':' :: chars v) :: charsOfFields fs

end

/-- The compact text of a value. -/
def compact (j : Json) : String := String.ofList j.chars

/-- A line break and the indentation of a nesting level. -/
def lineBreak (level : Nat) : List Char := '\n' :: List.replicate (2 * level) ' '

mutual

/-- **The text of a value on several lines**, at a nesting level. -/
def prettyChars (level : Nat) : Json → List Char
  | .list [] => ['[', ']']
  | .list (item :: items) =>
    '[' :: separated [','] (prettyItems (level + 1) (item :: items)) ++ lineBreak level ++ [']']
  | .object [] => ['\x7b', '\x7d']
  | .object (field :: fields) =>
    '\x7b' :: separated [','] (prettyFields (level + 1) (field :: fields)) ++ lineBreak level
      ++ ['\x7d']
  | .null => "null".toList
  | .bool b => if b then "true".toList else "false".toList
  | .number n => numberChars n
  | .text s => quotedChars s

/-- The items of a list, each on a line of its own. -/
def prettyItems (level : Nat) : List Json → List (List Char)
  | [] => []
  | j :: js => (lineBreak level ++ prettyChars level j) :: prettyItems level js

/-- The fields of an object, each on a line of its own. -/
def prettyFields (level : Nat) : List (String × Json) → List (List Char)
  | [] => []
  | (k, v) :: fs =>
    (lineBreak level ++ quotedChars k ++ [':', ' '] ++ prettyChars level v)
      :: prettyFields level fs

end

/-- The text of a value on several lines. -/
def pretty (j : Json) : String := String.ofList (j.prettyChars 0)

end ClientGen.Json
