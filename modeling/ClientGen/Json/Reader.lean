import ClientGen.Tree.Basic

/-!
# Reading JSON

The reader is strict: no comments, no trailing commas, no leading zeros, no
characters of control inside a text, nothing but blanks after the value. What
is well formed but cannot be represented becomes an unreadable scalar:

* a number beyond the range of floating point,
* a text with one half of a surrogate pair,
* a list or an object nested deeper than `depthLimit`.

A number keeps the digits that fit 64 bits; if it has a fraction, an exponent
or more digits, it is those digits as a floating-point value, scaled by a power
of ten (`scaled?`). Whether a digit still fits is tested anew behind the point.
-/

namespace ClientGen.Json

open Decimal (Binary64)

/-- Lists and objects may be nested this deep. -/
def depthLimit : Nat := 127

/-- Whether a character is a blank between the tokens of a JSON text. -/
def isBlank (c : Char) : Bool := c = ' ' || c = '\n' || c = '\t' || c = '\r'

/-- The text after its leading blanks. -/
def skipBlanks (cs : List Char) : List Char := cs.dropWhile isBlank

/-! ## Numbers -/

/-- The value of a decimal digit. -/
def digitValue (c : Char) : Nat := c.toNat - '0'.toNat

/-- The digits of one side of the point, as far as the number fits 64 bits. -/
structure Significand where
  value : Nat := 0
  /-- How many digits had to be left out. -/
  leftOut : Nat := 0
  /-- Whether a digit has been left out, after which all are. -/
  full : Bool := false

/-- One more digit: it is left out once the digits no longer fit 64 bits. -/
def Significand.push (s : Significand) (c : Char) : Significand :=
  let next := s.value * 10 + digitValue c
  if s.full || next ≥ Nat.pow 2 64 then { s with leftOut := s.leftOut + 1, full := true }
  else { s with value := next }

/-- A power of ten as a floating-point value. -/
def powerOfTen (n : Nat) : Binary64 := Binary64.ofNat false (Nat.pow 10 n)

/-- The greatest power of ten that is a finite value. -/
def greatestPower : Nat := 308

/-- **Scales a value by a power of ten**, rounding at each step. An exponent below
the least power is applied in steps, of which `steps` bounds the number; no
result is given if the value grows out of range. -/
def scaled? (x : Binary64) (exponent : Int) : Nat → Option Binary64
  | 0 => some x
  | steps + 1 =>
    if exponent.natAbs ≤ greatestPower then
      if exponent < 0 then some (x.divide (powerOfTen exponent.natAbs))
      else
        let y := x.multiply (powerOfTen exponent.natAbs)
        if y.isFinite then some y else none
    else if x.isZero then some x
    else if exponent > 0 then none
    else scaled? (x.divide (powerOfTen greatestPower)) (exponent + greatestPower) steps

/-- The floating-point scalar of a significand and an exponent. Three steps take
any significand of 64 bits to zero. -/
def floatScalar (negative : Bool) (significand : Nat) (exponent : Int) : Scalar :=
  match scaled? (Binary64.ofNat false significand) exponent 4 with
  | some x => .float (if negative then x.negate else x)
  | none => .unreadable

/-- The scalar of a whole number. A negative zero, and a number that does not
fit 64 bits with its sign, is a floating-point value. -/
def wholeScalar (negative : Bool) (n : Nat) : Scalar :=
  if !negative then .natural n
  else if n = 0 || n > Nat.pow 2 63 then .float (Binary64.ofNat true n)
  else .negative n

/-- The exponent after `e`, if there is one: a sign and at least one digit. -/
def readExponent? : List Char → Option (Option Int × List Char)
  | c :: cs =>
    if c = 'e' || c = 'E' then
      let (negative, cs) := match cs with
        | '+' :: r => (false, r)
        | '-' :: r => (true, r)
        | r => (false, r)
      let digits := cs.takeWhile Char.isDigit
      if digits.isEmpty then none
      else
        let n := digits.foldl (fun n c => n * 10 + digitValue c) 0
        some (some (if negative then -(n : Int) else n), cs.dropWhile Char.isDigit)
    else some (none, c :: cs)
  | [] => some (none, [])

/-- **Reads a number** behind its sign. -/
def readMagnitude? (negative : Bool) (cs : List Char) : Option (Scalar × List Char) := do
  let whole := cs.takeWhile Char.isDigit
  let rest := cs.dropWhile Char.isDigit
  if whole.isEmpty then none
  else if whole.length > 1 ∧ whole.head? = some '0' then none
  else
    let s := whole.foldl Significand.push {}
    let (fraction, rest) ← match rest with
      | '.' :: r =>
        let digits := r.takeWhile Char.isDigit
        if digits.isEmpty then none else some (digits, r.dropWhile Char.isDigit)
      | r => some ([], r)
    let f := fraction.foldl Significand.push { value := s.value }
    -- the digits that fit make a whole number, so the exponent has to put the point in its place
    let kept := fraction.length - f.leftOut
    let (exponent, rest) ← readExponent? rest
    if fraction.isEmpty && exponent.isNone && !s.full then
      return (wholeScalar negative s.value, rest)
    else
      return (floatScalar negative f.value ((s.leftOut : Int) - kept + exponent.getD 0), rest)

/-- Reads a number. -/
def readNumber? : List Char → Option (Scalar × List Char)
  | '-' :: cs => readMagnitude? true cs
  | cs => readMagnitude? false cs

/-! ## Texts -/

/-- The value of a hexadecimal digit. -/
def hexValue? (c : Char) : Option Nat :=
  if c.isDigit then some (digitValue c)
  else if 'a' ≤ c && c ≤ 'f' then some (c.toNat - 'a'.toNat + 10)
  else if 'A' ≤ c && c ≤ 'F' then some (c.toNat - 'A'.toNat + 10)
  else none

/-- The number that four hexadecimal digits write. -/
def readHex? : List Char → Option (Nat × List Char)
  | a :: b :: c :: d :: cs => do
    let n := (((← hexValue? a) * 16 + (← hexValue? b)) * 16 + (← hexValue? c)) * 16
      + (← hexValue? d)
    return (n, cs)
  | _ => none

/-- The character of an escape of one letter. -/
def escapedLetter? : Char → Option Char
  | '"' => some '"'
  | '\\' => some '\\'
  | '/' => some '/'
  | 'b' => some '\x08'
  | 'f' => some '\x0c'
  | 'n' => some '\n'
  | 'r' => some '\r'
  | 't' => some '\t'
  | _ => none

/-- Whether a code unit is the first half of a surrogate pair. -/
def isHighHalf (n : Nat) : Bool := 0xD800 ≤ n && n < 0xDC00

/-- Whether a code unit is the second half of a surrogate pair. -/
def isLowHalf (n : Nat) : Bool := 0xDC00 ≤ n && n < 0xE000

/-- Reads what follows `\u`: one code unit, or the pair that two escapes make.
A half without its partner is no character. -/
def readUnit? (cs : List Char) : Option (Option Char × List Char) := do
  let (high, rest) ← readHex? cs
  if isHighHalf high then
    match rest with
    | '\\' :: 'u' :: r =>
      let (low, r) ← readHex? r
      if isLowHalf low then
        return (some (Char.ofNat (0x10000 + (high - 0xD800) * 0x400 + (low - 0xDC00))), r)
      else
        return (none, rest)
    | _ => return (none, rest)
  else if isLowHalf high then return (none, rest)
  else return (some (Char.ofNat high), rest)

/-- **Reads a text** behind its opening quote. `done` holds what was read, latest
first, or nothing once a half of a pair stood alone. -/
def readText? : Nat → Option (List Char) → List Char → Option (Option String × List Char)
  | 0, _, _ => none
  | _ + 1, _, [] => none
  | fuel + 1, done, c :: cs =>
    if c = '"' then some (done.map (fun d => String.ofList d.reverse), cs)
    else if c = '\\' then
      match cs with
      | 'u' :: r => do
        let (char, r) ← readUnit? r
        readText? fuel (do return (← char) :: (← done)) r
      | e :: r => do readText? fuel (done.map ((← escapedLetter? e) :: ·)) r
      | [] => none
    else if c.toNat < 0x20 then none
    else readText? fuel (done.map (c :: ·)) cs

/-- The node of a text; with a half of a pair in it, it denotes nothing. -/
def textNode : Option String → Tree
  | some s => .ofText s
  | none => .unreadable

/-! ## Values -/

/-- What remains behind an expected word. -/
def afterWord? (word : String) (cs : List Char) : Option (List Char) :=
  if word.toList.isPrefixOf cs then some (cs.drop word.length) else none

/-- A list or an object at a depth, unless it is nested too deep. -/
def atDepth (depth : Nat) (t : Tree) : Tree := if depth > depthLimit then .unreadable else t

mutual

/-- **Reads a value** inside `depth` lists and objects. -/
def readValue? : Nat → Nat → List Char → Option (Tree × List Char)
  | 0, _, _ => none
  | fuel + 1, depth, cs =>
    match skipBlanks cs with
    | [] => none
    | '"' :: r => do
      let (s, r) ← readText? (r.length + 1) (some []) r
      return (textNode s, r)
    | '[' :: r => do
      let (items, r) ← match skipBlanks r with
        | ']' :: r => some ([], r)
        | r => readItems? fuel (depth + 1) r
      return (atDepth (depth + 1) (.list items), r)
    | '\x7b' :: r => do
      let (entries, r) ← match skipBlanks r with
        | '\x7d' :: r => some ([], r)
        | r => readEntries? fuel (depth + 1) r
      return (atDepth (depth + 1) (.record entries), r)
    | 'n' :: r => do return (.scalar .null, ← afterWord? "ull" r)
    | 't' :: r => do return (.scalar (.bool true), ← afterWord? "rue" r)
    | 'f' :: r => do return (.scalar (.bool false), ← afterWord? "alse" r)
    | c :: r => do
      let (n, r) ← readNumber? (c :: r)
      return (.scalar n, r)

/-- Reads the items of a list behind `[`, at least one. -/
def readItems? : Nat → Nat → List Char → Option (List Tree × List Char)
  | 0, _, _ => none
  | fuel + 1, depth, cs => do
    let (item, r) ← readValue? fuel depth cs
    match skipBlanks r with
    | ',' :: r => do
      let (items, r) ← readItems? fuel depth r
      return (item :: items, r)
    | ']' :: r => return ([item], r)
    | _ => none

/-- Reads the entries of an object behind its brace, at least one. -/
def readEntries? : Nat → Nat → List Char → Option (List (Tree × Tree) × List Char)
  | 0, _, _ => none
  | fuel + 1, depth, cs => do
    match skipBlanks cs with
    | '"' :: r => do
      let (key, r) ← readText? (r.length + 1) (some []) r
      match skipBlanks r with
      | ':' :: r => do
        let (value, r) ← readValue? fuel depth r
        match skipBlanks r with
        | ',' :: r => do
          let (entries, r) ← readEntries? fuel depth r
          return ((textNode key, value) :: entries, r)
        | '\x7d' :: r => return ([(textNode key, value)], r)
        | _ => none
      | _ => none
    | _ => none

end

/-- **Reads a JSON text.** Nothing but blanks may follow the value. -/
def read? (text : String) : Option Tree := do
  let cs := text.toList
  let (t, rest) ← readValue? (2 * cs.length + 2) 0 cs
  if (skipBlanks rest).isEmpty then some t else none

end ClientGen.Json
