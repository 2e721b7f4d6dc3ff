import ClientGen.Yaml.Scalar

/-!
# The tokens of a YAML text

The tokens make the structure of a text explicit: where a block of a deeper
indentation begins and ends, and which node is a key. Neither shows at the
place itself. A block ends where a line is indented less (`closeBlocks`), and a
node turns out to be a key only at the colon behind it, so the place of every
node that may be a key is remembered (`Candidate`), and the tokens `key` and,
for the first key of a block, `blockMappingStart` are put in there later.

A key must end on its line and within `keyLimit` bytes. Where indentation
demands a key, a candidate that gets no colon is an error.
-/

namespace ClientGen.Yaml

/-- How a scalar is written. -/
inductive Style where
  | plain
  /-- As a block whose line breaks stay. -/
  | literal
  /-- As a block whose lines are folded. -/
  | folded
  | quoted
deriving DecidableEq, Repr, Inhabited

/-- **A token.** -/
inductive Token where
  /-- A directive with the version of the format. -/
  | version (major minor : Nat)
  /-- A directive that declares a handle of labels. -/
  | handle (name expansion : String)
  | documentStart
  | documentEnd
  | blockSequenceStart
  | blockMappingStart
  | blockEnd
  | flowSequenceStart
  | flowSequenceEnd
  | flowMappingStart
  | flowMappingEnd
  | blockEntry
  | flowEntry
  | key
  | value
  | aliasOf (name : String)
  | anchor (name : String)
  | label (handle suffix : String)
  | scalar (text : String) (style : Style)
deriving DecidableEq, Repr, Inhabited

/-- A node that may turn out to be a key. -/
structure Candidate where
  /-- Whether the indentation demands a key here. -/
  required : Bool
  /-- The number of tokens before it. -/
  tokens : Nat
  line : Nat
  column : Nat
  index : Nat
deriving Repr, Inhabited

/-- A key may be this many bytes long. -/
def keyLimit : Nat := 1024

/-- **The state between two tokens.** -/
structure Lexer where
  at_ : Cursor
  /-- The tokens read, latest first. -/
  done : List Token := []
  count : Nat := 0
  /-- The column of the block at hand. -/
  indent : Int := -1
  /-- The columns of the blocks around it, innermost first. -/
  outer : List Int := []
  /-- The candidate outside all brackets, or inside the innermost ones. -/
  candidate : Option Candidate := none
  /-- The candidates around the brackets, innermost first: one for each bracket
  that is open. -/
  suspended : List (Option Candidate) := []
  /-- Whether a key may begin here. -/
  keyAllowed : Bool := true
deriving Inhabited

namespace Lexer

/-- Whether the place is inside brackets. -/
def inFlow (l : Lexer) : Bool := !l.suspended.isEmpty

/-- Appends a token. -/
def emit (l : Lexer) (t : Token) : Lexer := { l with done := t :: l.done, count := l.count + 1 }

/-- Puts a token behind the first `n` tokens. -/
def insert (l : Lexer) (n : Nat) (t : Token) : Lexer :=
  let behind := l.count - n
  { l with done := l.done.take behind ++ t :: l.done.drop behind, count := l.count + 1 }

/-- Moves to a place. -/
def moveTo (l : Lexer) (at_ : Cursor) : Lexer := { l with at_ }

/-- Whether a candidate can no longer be followed by its colon. -/
def isStale (l : Lexer) (c : Candidate) : Bool :=
  c.line < l.at_.line || c.index + keyLimit < l.at_.index

/-- A candidate as it stands at this place: a stale one is none, unless it was
required. -/
def refreshed? (l : Lexer) : Option Candidate → Option (Option Candidate)
  | none => some none
  | some c => if l.isStale c then (if c.required then none else some none) else some (some c)

/-- Drops the candidates that are stale. -/
def dropStale? (l : Lexer) : Option Lexer := do
  let candidate ← l.refreshed? l.candidate
  let suspended ← l.suspended.mapM l.refreshed?
  return { l with candidate, suspended }

/-- Gives up the candidate at hand, unless a key is required. -/
def dropCandidate? (l : Lexer) : Option Lexer :=
  if l.candidate.any (·.required) then none else some { l with candidate := none }

/-- Makes the next token a candidate, where a key may begin. -/
def propose? (l : Lexer) : Option Lexer :=
  if l.keyAllowed then do
    let required := !l.inFlow && l.indent = l.at_.column
    let l ← l.dropCandidate?
    return { l with candidate := some { required, tokens := l.count, line := l.at_.line,
                                        column := l.at_.column, index := l.at_.index } }
  else some l

/-- **Opens a block** at a column deeper than the block at hand; its token goes
behind the first `n` tokens. -/
def openBlock (l : Lexer) (column : Nat) (n : Nat) (start : Token) : Lexer :=
  if !l.inFlow && l.indent < column then
    { l.insert n start with indent := column, outer := l.indent :: l.outer }
  else l

/-- Closes the blocks of a list that are deeper than a column. -/
def closeDeeper (column : Int) : List Int → Lexer → Lexer
  | [], l => l
  | i :: is, l =>
    if l.indent > column then
      closeDeeper column is { l.emit .blockEnd with indent := i, outer := is }
    else l

/-- **Closes all blocks** that are deeper than a column. -/
def closeBlocks (l : Lexer) (column : Int) : Lexer :=
  if l.inFlow then l else closeDeeper column l.outer l

/-- Passes over blanks, comments and line breaks between two tokens. -/
def toNextToken : Nat → Lexer → Lexer
  | 0, l => l
  | fuel + 1, l =>
    -- A tab does not indent: where a key may begin it is left to fail as a token.
    let tabs := l.inFlow || !l.keyAllowed
    let at_ := if l.at_.atMark then l.at_.next else l.at_
    let at_ := at_.skip (fun c => c = ' ' || (tabs && c = '\t'))
    let at_ := if at_.rest.head? = some '#' then at_.toLineEnd else at_
    match at_.rest with
    | c :: _ =>
      if isBreak c then
        toNextToken fuel { l with at_ := at_.nextLine, keyAllowed := l.keyAllowed || !l.inFlow }
      else l.moveTo at_
    | [] => l.moveTo at_

/-! ## Single tokens -/

/-- A bracket that opens. -/
def openBracket? (l : Lexer) (start : Token) : Option Lexer := do
  let l ← l.propose?
  return { l.emit start with
    suspended := l.candidate :: l.suspended, candidate := none, keyAllowed := true
    at_ := l.at_.next }

/-- A bracket that closes. -/
def closeBracket? (l : Lexer) (stop : Token) : Option Lexer := do
  let l ← l.dropCandidate?
  let (candidate, suspended) := match l.suspended with
    | c :: cs => (c, cs)
    | [] => (none, [])
  return { l.emit stop with candidate, suspended, keyAllowed := false, at_ := l.at_.next }

/-- A comma inside brackets. -/
def flowEntry? (l : Lexer) : Option Lexer := do
  let l ← l.dropCandidate?
  return { l.emit .flowEntry with keyAllowed := true, at_ := l.at_.next }

/-- The dash of an item of a list. -/
def blockEntry? (l : Lexer) : Option Lexer := do
  if !l.inFlow && !l.keyAllowed then none
  else
    let l := l.openBlock l.at_.column l.count .blockSequenceStart
    let l ← l.dropCandidate?
    return { l.emit .blockEntry with keyAllowed := true, at_ := l.at_.next }

/-- The question mark before a key. -/
def key? (l : Lexer) : Option Lexer := do
  if !l.inFlow && !l.keyAllowed then none
  else
    let l := l.openBlock l.at_.column l.count .blockMappingStart
    let l ← l.dropCandidate?
    return { l.emit .key with keyAllowed := !l.inFlow, at_ := l.at_.next }

/-- **The colon before a value.** It makes the candidate at hand a key; without
one the key is left out. -/
def value? (l : Lexer) : Option Lexer :=
  match l.candidate with
  | some c =>
    -- The block of the first key begins before the token of that key.
    let l := l.insert c.tokens .key
    let l := l.openBlock c.column c.tokens .blockMappingStart
    some { l.emit .value with candidate := none, keyAllowed := false, at_ := l.at_.next }
  | none =>
    if !l.inFlow && !l.keyAllowed then none
    else
      let l := l.openBlock l.at_.column l.count .blockMappingStart
      some { l.emit .value with keyAllowed := !l.inFlow, at_ := l.at_.next }

/-- What may stand behind the name of an anchor. -/
def endsAnchor : List Char → Bool
  | [] => true
  | c :: _ => isSpace c || ['?', ':', ',', ']', '\x7d', '%', '@', '\x60'].contains c

/-- The name behind the mark of an anchor or alias. -/
def named? (l : Lexer) (token : String → Token) : Option Lexer := do
  let l ← l.propose?
  let at_ := l.at_.next
  let name := at_.rest.takeWhile isWordChar
  let behind := at_.advance name.length
  if name.isEmpty || !endsAnchor behind.rest then none
  else return { l.emit (token (String.ofList name)) with keyAllowed := false, at_ := behind }

/-- Whether a character may occur in a label; some only between angle brackets. -/
def isLabelChar (verbatim : Bool) (c : Char) : Bool :=
  isWordChar c || [';', '/', '?', ':', '@', '&', '=', '+', '$', '.', '!', '~', '*', '\'',
    '(', ')', '%'].contains c || (verbatim && [',', '[', ']'].contains c)

/-- The text of a label with its percent escapes decoded, byte by byte. -/
def decodeLabel? : Nat → List Char → Option (List UInt8)
  | 0, _ => none
  | _ + 1, [] => some []
  | fuel + 1, '%' :: a :: b :: cs => do
    return UInt8.ofNat (← hexNumber? [a, b]) :: (← decodeLabel? fuel cs)
  | fuel + 1, c :: cs =>
    if c = '%' then none
    else do return (String.ofList [c]).toUTF8.toList ++ (← decodeLabel? fuel cs)

/-- The characters of a label at the start of a text. -/
def readLabel? (verbatim : Bool) (cs : List Char) : Option (String × Nat) := do
  let written := cs.takeWhile (isLabelChar verbatim)
  let bytes ← decodeLabel? (written.length + 1) written
  return (← String.fromUTF8? bytes.toByteArray, written.length)

/-- A handle at the start of a text: an exclamation mark, and perhaps a word and
another mark. -/
def readHandle (cs : List Char) : List Char :=
  let word := (cs.drop 1).takeWhile isWordChar
  let closing := (cs.drop (1 + word.length)).takeWhile (· = '!')
  '!' :: word ++ closing.take 1

/-- The label of a node. -/
def label? (l : Lexer) : Option Lexer := do
  let l ← l.propose?
  let cs := l.at_.rest
  let (handle, suffix, length) ←
    -- `!<label>` is spelled out, `!handle!suffix` and `!suffix` go by a handle, and `!` is a label
    if cs.drop 1 |>.head? |>.any (· = '<') then do
      let (suffix, n) ← readLabel? true (cs.drop 2)
      if n = 0 || (cs.drop (n + 2)).head? ≠ some '>' then none
      else some ("", suffix, n + 3)
    else
      let handle := readHandle cs
      if handle.length > 1 && handle.getLast? = some '!' then do
        let (suffix, n) ← readLabel? false (cs.drop handle.length)
        if n = 0 then none else some (String.ofList handle, suffix, handle.length + n)
      else do
        let (suffix, n) ← readLabel? false (cs.drop 1)
        if suffix.isEmpty then some ("", "!", 1) else some ("!", suffix, n + 1)
  let behind := l.at_.advance length
  if endsWord behind.rest || (l.inFlow && behind.rest.head? = some ',') then
    return { l.emit (.label handle suffix) with keyAllowed := false, at_ := behind }
  else none

/-- A block scalar. -/
def block? (l : Lexer) (folded : Bool) : Option Lexer := do
  let l ← l.dropCandidate?
  let (text, at_) ← readBlock? folded l.indent l.at_.next
  let style := if folded then .folded else .literal
  return { l.emit (.scalar text style) with keyAllowed := true, at_ }

/-- A quoted scalar. -/
def quoted? (l : Lexer) (quote : Char) : Option Lexer := do
  let l ← l.propose?
  let (text, at_) ← readQuoted? quote (l.at_.rest.length + 1) [] {} l.at_.next
  return { l.emit (.scalar text .quoted) with keyAllowed := false, at_ }

/-- A plain scalar. -/
def plain? (l : Lexer) : Option Lexer := do
  let l ← l.propose?
  let (text, at_, onNewLine) ←
    readPlain? l.inFlow (l.indent + 1) (l.at_.rest.length + 1) [] {} l.at_
  return { l.emit (.scalar text .plain) with keyAllowed := onNewLine, at_ }

/-- A mark of the start or the end of a document. -/
def documentMark? (l : Lexer) (mark : Token) : Option Lexer := do
  let l ← (l.closeBlocks (-1)).dropCandidate?
  return { l.emit mark with keyAllowed := false, at_ := l.at_.advance 3 }

/-- A decimal number at the start of a text, and its length. -/
def readNumber? (cs : List Char) : Option (Nat × Nat) :=
  let digits := cs.takeWhile Char.isDigit
  if digits.isEmpty || digits.length > 9 then none
  else some (digits.foldl (fun n c => n * 10 + (c.toNat - '0'.toNat)) 0, digits.length)

/-- The arguments of a directive: its token and the place behind. -/
def directiveArguments? (name : String) (at_ : Cursor) : Option (Token × Cursor) :=
  match name with
  | "YAML" => do
    let (major, n) ← readNumber? at_.rest
    let at_ := at_.advance n
    if at_.rest.head? ≠ some '.' then none
    else
      let (minor, m) ← readNumber? at_.next.rest
      return (.version major minor, at_.next.advance m)
  | "TAG" => do
    if at_.rest.head? ≠ some '!' then none
    else
      let handle := readHandle at_.rest
      if handle.length > 1 && handle.getLast? ≠ some '!' then none
      else
        let at_ := at_.advance handle.length
        if !at_.rest.head?.any isBlank then none
        else
          let at_ := at_.skip isBlank
          let (expansion, n) ← readLabel? true at_.rest
          if n = 0 || !endsWord (at_.rest.drop n) then none
          else return (.handle (String.ofList handle) expansion, at_.advance n)
  | _ => none

/-- A directive. -/
def directive? (l : Lexer) : Option Lexer := do
  let l ← (l.closeBlocks (-1)).dropCandidate?
  let at_ := l.at_.next
  let name := at_.rest.takeWhile isWordChar
  let at_ := at_.advance name.length
  if name.isEmpty || !endsWord at_.rest then none
  else
    let (token, at_) ← directiveArguments? (String.ofList name) (at_.skip isBlank)
    let at_ := at_.skip isBlank
    let at_ := if at_.rest.head? = some '#' then at_.toLineEnd else at_
    if !endsLine at_.rest then none
    else
      return { l.emit token with
        keyAllowed := false, at_ := if at_.rest.isEmpty then at_ else at_.nextLine }

/-- The characters that a plain scalar cannot begin with, unless a word goes on
behind one of the first three. -/
def indicators : List Char :=
  ['-', '?', ':', ',', '[', ']', '\x7b', '\x7d', '#', '&', '*', '!', '|', '>', '\'', '"', '%',
   '@', '\x60']

/-- Whether a plain scalar begins with this text. -/
def startsPlain (inFlow : Bool) : List Char → Bool
  | [] => false
  | c :: cs =>
    !(isSpace c || indicators.contains c)
      || (c = '-' && !(cs.head?.any isBlank))
      || (!inFlow && (c = '?' || c = ':') && !endsWord cs)

/-- The token that begins at this place with a character. -/
def token? (l : Lexer) (c : Char) (cs : List Char) : Option Lexer :=
  if l.at_.column = 0 && c = '%' then l.directive?
  else if l.at_.column = 0 && l.at_.atWord ['-', '-', '-'] then l.documentMark? .documentStart
  else if l.at_.column = 0 && l.at_.atWord ['.', '.', '.'] then l.documentMark? .documentEnd
  else if c = '[' then l.openBracket? .flowSequenceStart
  else if c = '\x7b' then l.openBracket? .flowMappingStart
  else if c = ']' then l.closeBracket? .flowSequenceEnd
  else if c = '\x7d' then l.closeBracket? .flowMappingEnd
  else if c = ',' then l.flowEntry?
  else if c = '-' && endsWord cs then l.blockEntry?
  else if c = '?' && (l.inFlow || endsWord cs) then l.key?
  else if c = ':' && (l.inFlow || endsWord cs) then l.value?
  else if c = '*' then l.named? .aliasOf
  else if c = '&' then l.named? .anchor
  else if c = '!' then l.label?
  else if c = '|' && !l.inFlow then l.block? false
  else if c = '>' && !l.inFlow then l.block? true
  else if c = '\'' || c = '"' then l.quoted? c
  else if startsPlain l.inFlow (c :: cs) then l.plain?
  else none

/-- The end of the text: all blocks are closed. -/
def finish? (l : Lexer) : Option Lexer :=
  let l := { l with at_ := { l.at_ with line := l.at_.line + 1, column := 0 } }
  (l.closeBlocks (-1)).dropCandidate?

/-- **Reads tokens** to the end of the text. -/
def run? : Nat → Lexer → Option (List Token)
  | 0, _ => none
  | fuel + 1, l => do
    let l ← (toNextToken (l.at_.rest.length + 1) l).dropStale?
    let l := l.closeBlocks l.at_.column
    match l.at_.rest with
    | [] => return (← l.finish?).done.reverse
    | c :: cs => run? fuel (← l.token? c cs)

end Lexer

/-- **The tokens of a text.** -/
def tokens? (text : String) : Option (List Token) :=
  let cs := text.toList
  if cs.all isAllowed then Lexer.run? (cs.length + 1) { at_ := { rest := cs } } else none

end ClientGen.Yaml
