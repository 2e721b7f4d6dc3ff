import ClientGen.Json.Printer
import ClientGen.Text.Search
import ClientGen.Yaml.Resolution
import ClientGen.Yaml.Cursor

/-!
# Writing YAML

A value is written in block style, the fields of an object in the order in
which it lists them. A text is written plain where it reads back as the same
text, as a block if it has several lines, between single quotes where it would
be read as something else, and between double quotes where it holds characters
that need an escape.
-/

namespace ClientGen.Yaml

/-- The manners of writing a text. -/
inductive Manner where
  | plain
  | single
  | double
  | literal
deriving DecidableEq, Repr

/-- Whether a plain scalar of this spelling is read as something other than a text,
or looks like a number. -/
def isAmbiguous (s : String) : Bool :=
  hasLeadingZero s.toList
    || match resolve s with
      | .text _ => false
      | _ => true

/-- Whether a character is written without an escape. -/
def isPrintable (c : Char) : Bool :=
  let n := c.toNat
  n = 0xA || (0x20 ≤ n && n ≤ 0x7E) || (0xA0 ≤ n && n ≤ 0xD7FF)
    || (0xE000 ≤ n && n ≤ 0xFFFD && n ≠ 0xFEFF)

/-- The characters that no plain scalar begins with. -/
def leadingMarks : List Char :=
  ['#', ',', '[', ']', '\x7b', '\x7d', '&', '*', '!', '|', '>', '\'', '"', '%', '@', '\x60']

/-- Whether a plain scalar would end inside this text, or be a comment from there. -/
def breaksPlain : List Char → Bool
  | [] => false
  | c :: cs =>
    (c = ':' && endsWord cs) || (isSpace c && cs.head? = some '#') || breaksPlain cs

/-- Whether a text can be written plain, apart from how it would be read. -/
def allowsPlain (cs : List Char) : Bool :=
  match cs with
  | [] => true
  | c :: rest =>
    !(leadingMarks.contains c || ((c = '?' || c = ':' || c = '-') && endsWord rest)
      || c = ' ' || cs.getLast? = some ' ' || cs.any isBreak || breaksPlain cs
      || ['-', '-', '-'].isPrefixOf cs || ['.', '.', '.'].isPrefixOf cs)

/-- Whether a character of one class stands directly before one of another. -/
def hasPair (p q : Char → Bool) : List Char → Bool
  | [] => false
  | c :: cs => (p c && cs.head?.any q) || hasPair p q cs

/-- Whether a text needs double quotes in any case: a space at the end of a line
would be lost otherwise. -/
def needsEscapes (cs : List Char) : Bool :=
  cs.any (fun c => !isPrintable c) || hasPair (· = ' ') isBreak cs

/-- **The manner of writing a text.** A space at the start of a line would be lost
between single quotes, and one at the very end in a block. -/
def mannerOf (s : String) : Manner :=
  let cs := s.toList
  if needsEscapes cs then .double
  else if cs.contains '\n' then
    (if cs.getLast? = some ' ' then .double else .literal)
  else if isAmbiguous s || !allowsPlain cs then
    (if hasPair isBreak (· = ' ') cs then .double else .single)
  else .plain

/-- Hexadecimal digits in upper case, at least `width` of them. -/
def hexDigits (width n : Nat) : List Char :=
  let digits := (Nat.toDigits 16 n).map Char.toUpper
  List.replicate (width - digits.length) '0' ++ digits

/-- A character between double quotes. -/
def doubleQuotedChar (c : Char) : List Char :=
  match c with
  | '\x00' => ['\\', '0']
  | '\x07' => ['\\', 'a']
  | '\x08' => ['\\', 'b']
  | '\t' => ['\\', 't']
  | '\n' => ['\\', 'n']
  | '\x0b' => ['\\', 'v']
  | '\x0c' => ['\\', 'f']
  | '\r' => ['\\', 'r']
  | '\x1b' => ['\\', 'e']
  | '"' => ['\\', '"']
  | '\\' => ['\\', '\\']
  | '\x85' => ['\\', 'N']
  | '\u2028' => ['\\', 'L']
  | '\u2029' => ['\\', 'P']
  | c =>
    if isPrintable c then [c]
    else if c.toNat ≤ 0xFF then ['\\', 'x'] ++ hexDigits 2 c.toNat
    else if c.toNat ≤ 0xFFFF then ['\\', 'u'] ++ hexDigits 4 c.toNat
    else ['\\', 'U'] ++ hexDigits 8 c.toNat

/-- What stands behind the sign of a literal block: a width if the first line would
hide the indentation, and what becomes of the breaks at the end. -/
def literalHints (cs : List Char) : String :=
  (if cs.head?.any (fun c => c = ' ' || isBreak c) then "2" else "")
    ++ match cs.reverse with
      | c :: d :: _ => if !isBreak c then "-" else if isBreak d then "+" else ""
      | [c] => if isBreak c then "+" else "-"
      | [] => "-"

/-- The lines of a text, each with the break that ends it. -/
def linesOf : List Char → List (List Char)
  | [] => []
  | c :: cs =>
    if isBreak c then [c] :: linesOf cs
    else
      match linesOf cs with
      | [] => [[c]]
      | l :: ls => (c :: l) :: ls

/-- The lines of a text that ends with a break, or is given one. -/
def endedLines (cs : List Char) : List String :=
  (linesOf (if cs.getLast?.any isBreak then cs else cs ++ ['\n'])).map String.ofList

/-- A text between single quotes. -/
def singleQuoted (s : String) : String := "'" ++ Text.replace s "'" "''" ++ "'"

/-- A text between double quotes. -/
def doubleQuoted (s : String) : String :=
  "\"" ++ String.ofList (s.toList.flatMap doubleQuotedChar) ++ "\""

/-- **The lines of a text as a scalar**, of which the first goes behind its mark. -/
def scalarLines (s : String) : List String :=
  match mannerOf s with
  | .plain => endedLines s.toList
  | .single => endedLines (singleQuoted s).toList
  | .double => endedLines (doubleQuoted s).toList
  | .literal => ("|" ++ literalHints s.toList ++ "\n") :: endedLines s.toList

/-- A key, which stays on its line. -/
def keyText (s : String) : String :=
  if s.toList.any isBreak then doubleQuoted s
  else
    match mannerOf s with
    | .plain => s
    | .single => singleQuoted s
    | _ => doubleQuoted s

/-- A line moved to the right; an empty one stays empty. -/
def indented (line : String) : String :=
  if line.toList.head?.any isBreak then line else "  " ++ line

/-- Puts a mark before the first line and indents the others. -/
def marked (mark : String) : List String → List String
  | [] => []
  | l :: ls => (mark ++ l) :: ls.map indented

mutual

/-- The lines of a value on its own, each with its break. -/
def valueLines : Json → List String
  | .null => ["null\n"]
  | .bool b => [if b then "true\n" else "false\n"]
  | .number n => endedLines (Json.numberChars n)
  | .text s => scalarLines s
  | .list items => if items.isEmpty then ["[]\n"] else itemLines items
  | .object fields => if fields.isEmpty then ["\x7b\x7d\n"] else fieldLines fields

/-- The lines of the items of a list. -/
def itemLines : List Json → List String
  | [] => []
  | j :: js => marked "- " (valueLines j) ++ itemLines js

/-- The lines of the fields of an object. The items of a list are not indented
below its key. -/
def fieldLines : List (String × Json) → List String
  | [] => []
  | (k, v) :: fs =>
    (match v with
      | .list (item :: items) => (keyText k ++ ":\n") :: itemLines (item :: items)
      | .object (field :: fields) =>
        (keyText k ++ ":\n") :: (fieldLines (field :: fields)).map indented
      | v => marked (keyText k ++ ": ") (valueLines v)) ++ fieldLines fs

end

/-- **The YAML text of a value**, without the break that ends it. -/
def print (j : Json) : String := String.ofList (Text.join "" (valueLines j)).toList.dropLast

end ClientGen.Yaml
