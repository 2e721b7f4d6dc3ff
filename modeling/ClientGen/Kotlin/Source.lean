import ClientGen.Text.Search

/-!
# Text of generated files

A generated file is a list of lines. The helpers here put text of the document
into them: into a comment, where the end of the comment must not occur, into a
list with separators, and into the path that a package has below its source
folder.
-/

namespace ClientGen.Kotlin

/-- **A generated file**, at its path below the output directory. -/
structure SourceFile where
  path : String
  content : String
deriving DecidableEq, Repr, Inhabited

/-- The text of lines, each of which ends with a line break. -/
def unlines : List String → String
  | [] => ""
  | l :: ls => l ++ "\n" ++ unlines ls

/-- Lines that are there under a condition. -/
def linesIf (b : Bool) (lines : List String) : List String := if b then lines else []

/-- A text, unless it is absent or empty. -/
def nonempty? (s : Option String) : Option String := s.filter (fun s => !s.isEmpty)

/-- Lines about a text, unless it is absent or empty. -/
def linesFor (s : Option String) (lines : String → List String) : List String :=
  match nonempty? s with
  | some s => lines s
  | none => []

/-- **A text inside a comment**: the sign that ends the comment is broken up. -/
def commented (s : String) : String := Text.replace s "*/" "*\\/"

/-- The word for a minus sign, as it occurs in identifiers. -/
def minusWord : List Char := ['m', 'i', 'n', 'u', 's']

/-- Whether a text begins with the word for a minus sign, in any case of letters. -/
def startsWithMinus (cs : List Char) : Bool :=
  (cs.take minusWord.length).map Char.toLower == minusWord

/-- Drops every word for a minus sign. `skip` counts the characters of the word at
hand that are still to be passed over. -/
def dropMinus : Nat → List Char → List Char
  | _, [] => []
  | skip + 1, _ :: cs => dropMinus skip cs
  | 0, c :: cs =>
    if startsWithMinus (c :: cs) then dropMinus (minusWord.length - 1) cs
    else c :: dropMinus 0 cs

/-- **A name without the words for a minus sign** in it. -/
def withoutMinus (name : String) : String := String.ofList (dropMinus 0 name.toList)

/-- The file name for a class, which has no backticks. -/
def fileStem (className : String) : String :=
  String.ofList (((className.toList.dropWhile (· = '\x60')).reverse.dropWhile
    (· = '\x60')).reverse)

/-- **The folder of a package** below a source folder. -/
def packageFolder (sourceFolder package : String) : String :=
  let below := Text.replace package "." "/"
  if sourceFolder.isEmpty then below
  else String.ofList (Text.dropTrailing '/' sourceFolder.toList) ++ "/" ++ below

/-- The file of a class in a folder. -/
def classFile (folder className : String) : String := folder ++ "/" ++ fileStem className ++ ".kt"

/-- The file with the documentation of a class. -/
def documentationFile (className : String) : String := "docs/" ++ fileStem className ++ ".md"

/-- The lines at the top of every class file. -/
def banner (generator package : String) : List String :=
  ["/**", " * This file was generated by " ++ generator ++ ". Do not edit it by hand.", " */",
   "package " ++ package, ""]

end ClientGen.Kotlin
