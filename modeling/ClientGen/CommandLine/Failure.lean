import ClientGen.Kotlin.Variant
import ClientGen.Task.Execution

/-!
# Failures

A command that fails says what it was about, and below that what lies behind
it: each cause of the one before. A single cause stands alone, several are
numbered.
-/

namespace ClientGen.CommandLine

/-- **A failure** with its causes, the nearest first. -/
structure Failure where
  message : String
  causes : List String := []
deriving DecidableEq, Repr, Inhabited

namespace Failure

/-- A failure as the cause of another. -/
def within (context : String) (f : Failure) : Failure := ⟨context, f.message :: f.causes⟩

/-- A failure to resolve or load. -/
def ofConfiguration (e : ConfigurationError) : Failure := ⟨e.message, e.causes⟩

/-- A failure to read a document. -/
def ofDocument (e : DocumentError) : Failure := ⟨e.message, []⟩

/-- A failure to convert a document. -/
def ofConversion (e : ConversionError) : Failure := ⟨e.message, e.causes⟩

/-- A failure of a generator. -/
def ofGenerator (e : Kotlin.GeneratorError) : Failure := ⟨e.message, e.causes⟩

/-- A failure of a task. -/
def ofTask (e : TaskError) : Failure := ⟨e.message, e.causes⟩

/-- A text with something before its first line and something before each further
one. -/
def hanging (first further text : String) : String :=
  first ++ Text.replace text "\n" ("\n" ++ further)

/-- The number of a cause, in a column of five. -/
def number (n : Nat) : String :=
  let digits := Nat.repr n
  "".pushn ' ' (5 - digits.length) ++ digits ++ ": "

/-- The causes with their numbers, from `n` on. -/
def numbered (n : Nat) : List String → List String
  | [] => []
  | cause :: causes => hanging (number n) "       " cause :: numbered (n + 1) causes

/-- The lines of the causes. -/
def causeLines : List String → List String
  | [] => []
  | [cause] => ["", "Caused by:", hanging "    " "    " cause]
  | causes => "" :: "Caused by:" :: numbered 0 causes

/-- **The text of a failure.** -/
def text (f : Failure) : String :=
  Text.join "\n" (("Error: " ++ f.message) :: causeLines f.causes)

end Failure

end ClientGen.CommandLine
