import ClientGen.Text.Case

/-!
# Turning any text into an identifier

A name of the document may be any text; an identifier of the generated code
may not. `sanitize` keeps what can be kept: a special character becomes its
word (`-` is `Minus`), what is then left besides ASCII letters, digits and
underscores collapses into an underscore, a leading digit gets an underscore
in front, and a name of underscores alone becomes `Underscore`.

A case style drops the underscores again, so `recase` puts the one back that
keeps a digit from leading, and `escapeReserved` puts a reserved word between
backticks.
-/

namespace ClientGen.Naming

/-- The words that may stand as an identifier only between backticks. -/
def reservedWords : List String :=
  ["abstract", "annotation", "as", "break", "case", "catch", "class", "companion", "const",
   "constructor", "continue", "crossinline", "data", "delegate", "do", "else", "enum",
   "external", "false", "final", "finally", "for", "fun", "if", "in", "infix", "init",
   "inline", "inner", "interface", "internal", "is", "it", "lateinit", "lazy", "noinline",
   "null", "object", "open", "operator", "out", "override", "package", "private",
   "protected", "public", "reified", "return", "sealed", "super", "suspend", "tailrec",
   "this", "throw", "true", "try", "typealias", "typeof", "val", "var", "vararg", "when",
   "while"]

/-- Whether a text is a reserved word, in exactly this spelling. -/
def isReserved (word : String) : Bool := reservedWords.contains word

/-- The word that stands for a special character. -/
def wordFor? : Char → Option String
  | '$' => some "Dollar"
  | '^' => some "Caret"
  | '|' => some "Pipe"
  | '=' => some "Equal"
  | '*' => some "Star"
  | '-' => some "Minus"
  | '&' => some "Ampersand"
  | '%' => some "Percent"
  | '#' => some "Hash"
  | '@' => some "At"
  | '!' => some "Exclamation"
  | '+' => some "Plus"
  | ':' => some "Colon"
  | ';' => some "Semicolon"
  | '>' => some "Greater_Than"
  | '<' => some "Less_Than"
  | '.' => some "Period"
  | '?' => some "Question_Mark"
  | ',' => some "Comma"
  | '\'' => some "Quote"
  | '"' => some "Double_Quote"
  | '/' => some "Slash"
  | '\\' => some "Back_Slash"
  | '(' => some "Left_Parenthesis"
  | ')' => some "Right_Parenthesis"
  | '\x7b' => some "Left_Curly_Bracket"
  | '\x7d' => some "Right_Curly_Bracket"
  | '[' => some "Left_Square_Bracket"
  | ']' => some "Right_Square_Bracket"
  | '~' => some "Tilde"
  | '\x60' => some "Backtick"
  | _ => none

/-- Every special character spelled out. -/
def spellOut (cs : List Char) : List Char :=
  cs.flatMap (fun c => match wordFor? c with
    | some w => w.toList
    | none => [c])

/-- Whether a character may stand in an identifier. -/
def isIdentifierChar (c : Char) : Bool := Text.isAlphanumeric c || c = '_'

/-- Each run of foreign characters becomes one underscore. `inRun` tells whether
the character before was foreign, so an underscore of the text itself ends a
run and the next foreign character writes one more. -/
def collapseForeign : Bool → List Char → List Char
  | _, [] => []
  | inRun, c :: cs =>
    if isIdentifierChar c then c :: collapseForeign false cs
    else if inRun then collapseForeign true cs
    else '_' :: collapseForeign true cs

/-- Whether a digit comes first. -/
def startsWithDigit : List Char → Bool
  | [] => false
  | c :: _ => c.isDigit

/-- An underscore before a leading digit. -/
def guardDigit (cs : List Char) : List Char := if startsWithDigit cs then '_' :: cs else cs

/-- What a name of underscores alone is called. -/
def underscoreName : String := "Underscore"

/-- **The identifier of a text**: special characters spelled out, all other
foreign ones collapsed, no leading digit, not underscores alone. -/
def sanitizeChars (cs : List Char) : List Char :=
  let guarded := guardDigit (collapseForeign false (spellOut cs))
  if !guarded.isEmpty && guarded.all (· = '_') then underscoreName.toList else guarded

/-- `sanitizeChars` on texts. -/
def sanitize (name : String) : String := String.ofList (sanitizeChars name.toList)

/-- A word between backticks. -/
def backticked (word : String) : String := "\x60" ++ word ++ "\x60"

/-- A reserved word goes between backticks; any other stays as it is. -/
def escapeReserved (word : String) : String := if isReserved word then backticked word else word

/-- An identifier in a case style, with the underscore that a digit in front
needs: a case style drops leading underscores. -/
def recase (style : List Char → List Char) (name : String) : String :=
  String.ofList (guardDigit (style name.toList))

end ClientGen.Naming
