import ClientGen.Yaml.Cursor

/-!
# Reading the text of a YAML scalar

There are three manners of writing a scalar: plain, between quotes, and as a
block of indented lines. Each reader starts at the first character that belongs
to it and returns the text together with the place behind.

All of them go character by character and bound their steps by the length of
the text.
-/

namespace ClientGen.Yaml

/-- The characters that delimit nodes inside brackets. -/
def isFlowMark (c : Char) : Bool :=
  c = ',' || c = '[' || c = ']' || c = '\x7b' || c = '\x7d'

/-- Whether a plain scalar ends before this text. -/
def endsPlain (inFlow : Bool) : List Char → Bool
  | [] => true
  | ':' :: cs => endsWord cs
  | c :: _ => inFlow && isFlowMark c

/-- Whether a colon stands directly before a mark of the brackets around it. -/
def hasMisplacedColon (inFlow : Bool) : List Char → Bool
  | ':' :: c :: _ => inFlow && (isFlowMark c || c = '?')
  | _ => false

/-- **Reads a plain scalar.** `indent` is the column its further lines must have
at least. The last part of the result tells whether the place is on another
line than the end of the scalar. -/
def readPlain? (inFlow : Bool) (indent : Int) :
    Nat → List Char → Gap → Cursor → Option (String × Cursor × Bool)
  | 0, _, _, _ => none
  | fuel + 1, done, gap, at_ =>
    let finish := some (String.ofList done.reverse, at_, gap.broken)
    match at_.rest with
    | [] => finish
    | c :: _ =>
      if isBlank c then
        if gap.broken && at_.column < indent && c = '\t' then none
        else readPlain? inFlow indent fuel done (gap.blank c) at_.next
      else if isBreak c then
        readPlain? inFlow indent fuel done (gap.lineBreak c) at_.nextLine
      -- behind a gap a scalar can end: at a line further left, a document mark or a comment
      else if !gap.isEmpty
          && ((!inFlow && at_.column < indent) || at_.atDocumentMark || c = '#') then
        finish
      else if hasMisplacedColon inFlow at_.rest then none
      else if endsPlain inFlow at_.rest then finish
      else readPlain? inFlow indent fuel (c :: (gap.text.reverse ++ done)) {} at_.next

/-- The character that an escape of one letter stands for. -/
def escaped? : Char → Option Char
  | '0' => some '\x00'
  | 'a' => some '\x07'
  | 'b' => some '\x08'
  | 't' => some '\t'
  | '\t' => some '\t'
  | 'n' => some '\n'
  | 'v' => some '\x0b'
  | 'f' => some '\x0c'
  | 'r' => some '\r'
  | 'e' => some '\x1b'
  | ' ' => some ' '
  | '"' => some '"'
  | '/' => some '/'
  | '\\' => some '\\'
  | 'N' => some '\x85'
  | '_' => some '\xa0'
  | 'L' => some '\u2028'
  | 'P' => some '\u2029'
  | _ => none

/-- The number of hexadecimal digits behind the letter of an escape. -/
def escapeDigits? : Char → Option Nat
  | 'x' => some 2
  | 'u' => some 4
  | 'U' => some 8
  | _ => none

/-- The value of a hexadecimal digit. -/
def hexDigit? (c : Char) : Option Nat :=
  if c.isDigit then some (c.toNat - '0'.toNat)
  else if 'a' ≤ c && c ≤ 'f' then some (c.toNat - 'a'.toNat + 10)
  else if 'A' ≤ c && c ≤ 'F' then some (c.toNat - 'A'.toNat + 10)
  else none

/-- The number that hexadecimal digits write. -/
def hexNumber? (cs : List Char) : Option Nat :=
  cs.foldlM (fun n c => (hexDigit? c).map (n * 16 + ·)) 0

/-- The character of a code point, if it is one. -/
def charOf? (n : Nat) : Option Char :=
  if n ≤ 0x10FFFF && !(0xD800 ≤ n && n ≤ 0xDFFF) then some (Char.ofNat n) else none

/-- **The character of an escape** behind its backslash, and the length of it. -/
def readEscape? : List Char → Option (Char × Nat)
  | [] => none
  | c :: cs =>
    match escapeDigits? c with
    | some digits =>
      if cs.length < digits then none
      else do return (← charOf? (← hexNumber? (cs.take digits)), digits + 1)
    | none => do return (← escaped? c, 1)

/-- **Reads a quoted scalar** behind its opening quote. -/
def readQuoted? (quote : Char) : Nat → List Char → Gap → Cursor → Option (String × Cursor)
  | 0, _, _, _ => none
  | fuel + 1, done, gap, at_ =>
    let filled := gap.text.reverse ++ done
    if at_.atDocumentMark then none
    else match at_.rest with
    | [] => none
    | c :: cs =>
      if c = quote then
        -- between single quotes a quote is written twice
        if quote = '\'' && cs.head? = some '\'' then
          readQuoted? quote fuel ('\'' :: filled) {} (at_.advance 2)
        else some (String.ofList filled.reverse, at_.next)
      else if c = '\\' && quote = '"' then
        -- at the end of a line a backslash joins the line with the next
        if cs.head?.any isBreak then
          readQuoted? quote fuel filled Gap.escapedBreak at_.next.nextLine
        else do
          let (char, length) ← readEscape? cs
          readQuoted? quote fuel (char :: filled) {} (at_.advance (length + 1))
      else if isBlank c then readQuoted? quote fuel done (gap.blank c) at_.next
      else if isBreak c then readQuoted? quote fuel done (gap.lineBreak c) at_.nextLine
      else readQuoted? quote fuel (c :: filled) {} at_.next

/-- What becomes of the line breaks at the end of a block. -/
inductive Chomping where
  | strip
  | clip
  | keep
deriving DecidableEq, Repr, Inhabited

/-- The head of a block: its chomping, and its indentation if it is given. -/
structure BlockHead where
  chomping : Chomping := .clip
  increment : Option Nat := none
deriving Repr, Inhabited

/-- The chomping of an indicator. -/
def chompingOf? : Char → Option Chomping
  | '+' => some .keep
  | '-' => some .strip
  | _ => none

/-- Reads an indentation indicator: a digit that is not zero. -/
def readIncrement? (at_ : Cursor) : Option (Option Nat × Cursor) :=
  match at_.rest with
  | c :: _ =>
    if c = '0' then none
    else if c.isDigit then some (some (c.toNat - '0'.toNat), at_.next)
    else some (none, at_)
  | [] => some (none, at_)

/-- Reads the indicators of a block, in either order. -/
def readBlockHead? (at_ : Cursor) : Option (BlockHead × Cursor) :=
  match at_.rest.head?.bind chompingOf? with
  | some chomping => do
    let (increment, at_) ← readIncrement? at_.next
    return ({ chomping, increment }, at_)
  | none => do
    let (increment, behind) ← readIncrement? at_
    match increment, behind.rest.head?.bind chompingOf? with
    | some _, some chomping => return ({ chomping, increment }, behind.next)
    | _, _ => return ({ increment }, behind)

/-- Passes over the empty lines of a block and the indentation behind them. With
no indentation given, `widest` collects the widest one seen. The breaks are
returned latest first. -/
def passBreaks? (indent : Option Nat) :
    Nat → List Char → Nat → Cursor → Option (List Char × Nat × Cursor)
  | 0, _, _, _ => none
  | fuel + 1, breaks, widest, at_ =>
    let room := match indent with
      | some n => n - at_.column
      | none => at_.rest.length
    let at_ := at_.advance ((at_.rest.take room).takeWhile (· = ' ')).length
    let widest := max widest at_.column
    match at_.rest with
    | c :: _ =>
      if indent.all (at_.column < ·) && c = '\t' then none
      else if isBreak c then passBreaks? indent fuel (lineFeedOf c :: breaks) widest at_.nextLine
      else some (breaks, widest, at_)
    | [] => some (breaks, widest, at_)

/-- The parts of a block read so far. -/
structure Block where
  /-- The text, latest character first. -/
  done : List Char := []
  /-- The break behind the latest line. -/
  lineEnd : Option Char := none
  /-- The breaks of the empty lines after it, latest first. -/
  breaks : List Char := []
  /-- Whether the latest line began with a blank. -/
  indented : Bool := false
deriving Repr, Inhabited

/-- The text of a block up to a line that begins with a blank or not. In a folded
block the break between two lines that do not is a space. -/
def Block.joined (b : Block) (folded startsBlank : Bool) : List Char :=
  let ending :=
    if folded && b.lineEnd = some '\n' && !b.indented && !startsBlank then
      (if b.breaks.isEmpty then [' '] else [])
    else b.lineEnd.toList
  b.breaks ++ ending ++ b.done

/-- Reads the lines of a block that have its indentation. -/
def readLines? (folded : Bool) (indent : Nat) : Nat → Block → Cursor → Option (Block × Cursor)
  | 0, _, _ => none
  | fuel + 1, b, at_ =>
    if at_.column ≠ indent || at_.rest.isEmpty then some (b, at_)
    else do
      let startsBlank := at_.rest.head?.any isBlank
      let line := at_.rest.takeWhile (fun c => !isBreak c)
      let ended := at_.toLineEnd
      let done := line.reverse ++ b.joined folded startsBlank
      match ended.rest with
      | [] => return ({ done, indented := startsBlank }, ended)
      | c :: _ =>
        let (breaks, _, next) ← passBreaks? (some indent) (ended.rest.length + 1) [] 0
          ended.nextLine
        readLines? folded indent fuel
          { done, lineEnd := some (lineFeedOf c), breaks, indented := startsBlank } next

/-- The text of a whole block. -/
def Block.text (b : Block) (chomping : Chomping) : String :=
  let chomped := match chomping with
    | .strip => b.done
    | .clip => b.lineEnd.toList ++ b.done
    | .keep => b.breaks ++ b.lineEnd.toList ++ b.done
  String.ofList chomped.reverse

/-- **Reads a block** behind its indicator, inside nodes of an indentation. -/
def readBlock? (folded : Bool) (outer : Int) (at_ : Cursor) : Option (String × Cursor) := do
  let (head, at_) ← readBlockHead? at_
  let at_ := at_.skip isBlank
  let at_ := if at_.rest.head? = some '#' then at_.toLineEnd else at_
  if !endsLine at_.rest then none
  else
    let at_ := if at_.rest.isEmpty then at_ else at_.nextLine
    let given := head.increment.map (fun n => (max outer 0).toNat + n)
    let fuel := at_.rest.length + 1
    let (breaks, widest, at_) ← passBreaks? given fuel [] 0 at_
    let indent := given.getD (max widest (max (outer + 1) 1).toNat)
    let (b, at_) ← readLines? folded indent fuel { breaks } at_
    return (b.text head.chomping, at_)

end ClientGen.Yaml
