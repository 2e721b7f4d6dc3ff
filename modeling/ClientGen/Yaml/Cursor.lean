/-!
# A place in a YAML text

The structure of a YAML text hangs on columns and lines, so a reader carries
its place along: a `Cursor` is the text still to be read, with the line, the
column and the number of bytes before it. Columns count characters.

There are five line breaks. Two of them are separators that a scalar keeps as
they are; the others count as a line feed (`lineFeedOf`).
-/

namespace ClientGen.Yaml

/-- Whether a character is a space or a tab. -/
def isBlank (c : Char) : Bool := c = ' ' || c = '\t'

/-- Whether a character breaks a line. -/
def isBreak (c : Char) : Bool :=
  c = '\n' || c = '\r' || c = '\x85' || c = '\u2028' || c = '\u2029'

/-- Whether a character is a blank or breaks a line. -/
def isSpace (c : Char) : Bool := isBlank c || isBreak c

/-- Whether a text has ended or goes on with a blank or a line break. -/
def endsWord : List Char → Bool
  | [] => true
  | c :: _ => isSpace c

/-- Whether a text has ended or goes on with a line break. -/
def endsLine : List Char → Bool
  | [] => true
  | c :: _ => isBreak c

/-- What a line break stands for inside a scalar. -/
def lineFeedOf (c : Char) : Char := if c = '\u2028' || c = '\u2029' then c else '\n'

/-- Whether a character may occur in a text at all. -/
def isAllowed (c : Char) : Bool :=
  let n := c.toNat
  n = 0x9 || n = 0xA || n = 0xD || (0x20 ≤ n && n ≤ 0x7E) || n = 0x85
    || (0xA0 ≤ n && n ≤ 0xD7FF) || (0xE000 ≤ n && n ≤ 0xFFFD) || 0x10000 ≤ n

/-- Whether a character may occur in the name of an anchor or a label. -/
def isWordChar (c : Char) : Bool := c.isAlpha || c.isDigit || c = '_' || c = '-'

/-- **A place in a text.** -/
structure Cursor where
  /-- The text from here on. -/
  rest : List Char
  line : Nat := 0
  column : Nat := 0
  /-- The number of bytes before. -/
  index : Nat := 0
deriving Repr, Inhabited

/-- The number of bytes of a text. -/
def byteCount (cs : List Char) : Nat := (cs.map Char.utf8Size).foldr (· + ·) 0

namespace Cursor

/-- The place behind one character that breaks no line. -/
def next (c : Cursor) : Cursor :=
  { c with
    rest := c.rest.drop 1
    column := c.column + 1
    index := c.index + byteCount (c.rest.take 1) }

/-- The place `n` characters further on the line. -/
def advance (n : Nat) (c : Cursor) : Cursor :=
  { c with
    rest := c.rest.drop n
    column := c.column + n
    index := c.index + byteCount (c.rest.take n) }

/-- The start of the next line. A return and a line feed are one break. -/
def nextLine (c : Cursor) : Cursor :=
  let width := match c.rest with
    | '\r' :: '\n' :: _ => 2
    | _ => 1
  { rest := c.rest.drop width
    line := c.line + 1
    column := 0
    index := c.index + byteCount (c.rest.take width) }

/-- The place behind all characters of a class; it must not hold line breaks. -/
def skip (p : Char → Bool) (c : Cursor) : Cursor := c.advance (c.rest.takeWhile p).length

/-- The place at the end of the line. -/
def toLineEnd (c : Cursor) : Cursor := c.skip (fun ch => !isBreak ch)

/-- Whether a line begins here with a byte order mark. -/
def atMark (c : Cursor) : Bool := c.column = 0 && c.rest.head? = some '\ufeff'

/-- Whether three characters stand here as a word of their own. -/
def atWord (word : List Char) (c : Cursor) : Bool :=
  word.isPrefixOf c.rest && endsWord (c.rest.drop word.length)

/-- Whether a line begins here with a mark of the start or the end of a document. -/
def atDocumentMark (c : Cursor) : Bool :=
  c.column = 0 && (c.atWord ['-', '-', '-'] || c.atWord ['.', '.', '.'])

end Cursor

/-- **The blanks between two words of a scalar.** Blanks on one line stay; a line
break folds into a space, and further ones stay for themselves. -/
structure Gap where
  /-- The blanks before any line break, latest first. -/
  blanks : List Char := []
  /-- Whether a line has ended in the gap. -/
  broken : Bool := false
  /-- The first line break that counts. -/
  first : Option Char := none
  /-- The line breaks after it, latest first. -/
  more : List Char := []
deriving Repr, Inhabited

namespace Gap

/-- Whether nothing stands between the words. -/
def isEmpty (g : Gap) : Bool := g.blanks.isEmpty && !g.broken

/-- One more blank; after a line break it is indentation and does not count. -/
def blank (c : Char) (g : Gap) : Gap := if g.broken then g else { g with blanks := c :: g.blanks }

/-- One more line break. -/
def lineBreak (c : Char) (g : Gap) : Gap :=
  if g.broken then { g with more := lineFeedOf c :: g.more }
  else { broken := true, first := some (lineFeedOf c) }

/-- The gap of a line break that was escaped. -/
def escapedBreak : Gap := { broken := true }

/-- What the gap contributes to the scalar. -/
def text (g : Gap) : List Char :=
  if g.broken then
    match g.first with
    | some '\n' => if g.more.isEmpty then [' '] else g.more.reverse
    | some c => c :: g.more.reverse
    | none => g.more.reverse
  else g.blanks.reverse

end Gap

end ClientGen.Yaml
