/-!
# Words of an identifier, and its case styles

An identifier is read as a sequence of words, and a case style writes the
words back in its own manner. Words are separated by every character that is
neither a letter nor a digit, and inside such a run by the humps of its
letters: a word ends after a lower-case letter that an upper-case one follows
(`petId` is `pet`, `Id`), and before the last capital of several that a
lower-case letter follows (`HTTPServer` is `HTTP`, `Server`). A digit has no
case and so neither ends nor begins a word.

Everything here is about ASCII letters: the identifiers it is applied to have
been cleared of all other characters before.
-/

namespace ClientGen.Text

/-- Whether a character is an ASCII letter or digit. -/
def isAlphanumeric (c : Char) : Bool := c.isAlpha || c.isDigit

/-- The case of the letters read last in the word at hand: none yet, or the
case of the latest cased letter. -/
inductive LetterRun where
  | fresh
  | lower
  | upper
deriving DecidableEq, Repr

/-- The run after one more character; a digit leaves it as it is. -/
def LetterRun.next (run : LetterRun) (c : Char) : LetterRun :=
  if c.isLower then .lower else if c.isUpper then .upper else run

/-- **The humps of one alphanumeric run.** `word` holds the characters of the
word at hand, latest first. -/
def humps : LetterRun → List Char → List Char → List (List Char)
  | _, [], [] => []
  | _, word, [] => [word.reverse]
  | _, word, [c] => [(c :: word).reverse]
  | run, word, c :: next :: cs =>
    if run.next c = .lower ∧ next.isUpper then
      (c :: word).reverse :: humps .fresh [] (next :: cs)
    else if run = .upper ∧ c.isUpper ∧ next.isLower then
      word.reverse :: humps .fresh [c] (next :: cs)
    else
      humps (run.next c) (c :: word) (next :: cs)

/-- The maximal runs of letters and digits, in order; `run` holds the run at
hand, latest character first. -/
def alphanumericRuns : List Char → List Char → List (List Char)
  | run, [] => if run.isEmpty then [] else [run.reverse]
  | run, c :: cs =>
    if isAlphanumeric c then alphanumericRuns (c :: run) cs
    else if run.isEmpty then alphanumericRuns [] cs
    else run.reverse :: alphanumericRuns [] cs

/-- **The words of a text.** -/
def words (cs : List Char) : List (List Char) :=
  (alphanumericRuns [] cs).flatMap (humps .fresh [])

/-- First letter upper case, the others lower case. -/
def capitalized : List Char → List Char
  | [] => []
  | c :: cs => c.toUpper :: cs.map Char.toLower

/-- Each word capitalized, without separators: `petId` becomes `PetId`. -/
def pascalCase (cs : List Char) : List Char := (words cs).flatMap capitalized

/-- As `pascalCase`, but the first word in lower case: `PetId` becomes `petId`. -/
def camelCase (cs : List Char) : List Char :=
  match words cs with
  | [] => []
  | w :: ws => w.map Char.toLower ++ ws.flatMap capitalized

/-- The words in lower case, joined by underscores: `petId` becomes `pet_id`. -/
def snakeCase (cs : List Char) : List Char :=
  List.intercalate ['_'] ((words cs).map (·.map Char.toLower))

end ClientGen.Text
