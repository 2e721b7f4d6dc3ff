/-!
# Finding and replacing inside a text

Texts are searched as lists of characters, from the left and without overlap.
The functions on `String` at the end are these on the characters of the text.
-/

namespace ClientGen.Text

/-- **Replaces every occurrence** of a nonempty pattern, from the left and
without overlap. `skip` counts the characters of the occurrence being replaced
that are still to be passed over. -/
def replaceFrom (pattern replacement : List Char) : Nat → List Char → List Char
  | _, [] => []
  | skip + 1, _ :: cs => replaceFrom pattern replacement skip cs
  | 0, c :: cs =>
    if pattern.isPrefixOf (c :: cs) then
      replacement ++ replaceFrom pattern replacement (pattern.length - 1) cs
    else
      c :: replaceFrom pattern replacement 0 cs

/-- Replaces the first occurrence of a nonempty pattern. -/
def replaceFirstIn (pattern replacement : List Char) : List Char → List Char
  | [] => []
  | c :: cs =>
    if pattern.isPrefixOf (c :: cs) then
      replacement ++ (c :: cs).drop pattern.length
    else
      c :: replaceFirstIn pattern replacement cs

/-- The pieces between the occurrences of a separator; `n` separators make
`n + 1` pieces. -/
def pieces (sep : Char) : List Char → List (List Char)
  | [] => [[]]
  | c :: cs =>
    if c = sep then
      [] :: pieces sep cs
    else
      match pieces sep cs with
      | [] => [[c]]
      | p :: ps => (c :: p) :: ps

/-- What follows the last separator: everything, if there is none. -/
def afterLast (sep : Char) (cs : List Char) : List Char :=
  (cs.reverse.takeWhile (· ≠ sep)).reverse

/-- The parts before and after the first separator. -/
def splitFirst? (sep : Char) : List Char → Option (List Char × List Char)
  | [] => none
  | c :: cs =>
    if c = sep then some ([], cs)
    else (splitFirst? sep cs).map (fun p => (c :: p.1, p.2))

/-- Drops the longest run of one character at the end. -/
def dropTrailing (c : Char) (cs : List Char) : List Char :=
  (cs.reverse.dropWhile (· = c)).reverse

/-- Every occurrence of `pattern` in `s` becomes `replacement`. -/
def replace (s pattern replacement : String) : String :=
  String.ofList (replaceFrom pattern.toList replacement.toList 0 s.toList)

/-- The first occurrence of `pattern` in `s` becomes `replacement`. -/
def replaceFirst (s pattern replacement : String) : String :=
  String.ofList (replaceFirstIn pattern.toList replacement.toList s.toList)

/-- The pieces of `s` between the separators. -/
def split (s : String) (sep : Char) : List String :=
  (pieces sep s.toList).map String.ofList

/-- Whether `s` begins with `front`. -/
def startsWith (s front : String) : Bool := front.toList.isPrefixOf s.toList

/-- Whether `s` ends with `back`. -/
def endsWith (s back : String) : Bool := back.toList.isSuffixOf s.toList

/-- What remains of `s` after `front`, if it begins with it. -/
def afterFront? (s front : String) : Option String :=
  if startsWith s front then some (String.ofList (s.toList.drop front.length)) else none

/-- Whether two texts differ at most in the case of ASCII letters. -/
def sameIgnoringCase (a b : String) : Bool := a.toLower = b.toLower

/-- The texts one after the other, with a separator between neighbours. -/
def join (sep : String) : List String → String
  | [] => ""
  | [s] => s
  | s :: ss => s ++ sep ++ join sep ss

end ClientGen.Text
