import ClientGen.Tree.Basic

/-!
# The value of a plain YAML scalar

Where anything is expected, a plain scalar is `null`, a flag, a number or a text,
by its spelling alone. The spellings are few: `null` has four and the empty one,
a flag three for each value; an integer is decimal, or hexadecimal, octal or
binary behind its mark. A decimal number that begins with a zero and goes on
with digits is a text, unless it is labelled as a floating-point value.

An integer that does not fit 64 bits is unreadable if it fits 128 bits, and a
floating-point value otherwise; a floating-point number out of range is a text.
-/

namespace ClientGen.Yaml

open Decimal (Binary64)

/-- Whether a text spells `null`. -/
def isNullWord (s : String) : Bool := ["~", "null", "Null", "NULL"].contains s

/-- The flag that a text spells. -/
def flagOf? (s : String) : Option Bool :=
  if ["true", "True", "TRUE"].contains s then some true
  else if ["false", "False", "FALSE"].contains s then some false
  else none

/-- The value of a digit in a base of at most sixteen. -/
def digitOf? (base : Nat) (c : Char) : Option Nat :=
  let n :=
    if c.isDigit then c.toNat - '0'.toNat
    else if 'a' ≤ c && c ≤ 'f' then c.toNat - 'a'.toNat + 10
    else if 'A' ≤ c && c ≤ 'F' then c.toNat - 'A'.toNat + 10
    else base
  if n < base then some n else none

/-- The number that digits of a base write; there must be one. -/
def digitsOf? (base : Nat) (cs : List Char) : Option Nat :=
  if cs.isEmpty then none
  else cs.foldlM (fun n c => (digitOf? base c).map (n * base + ·)) 0

/-- Whether a text is a number but for a zero too many in front. -/
def hasLeadingZero (cs : List Char) : Bool :=
  let cs := match cs with
    | '-' :: r => r
    | '+' :: r => r
    | r => r
  cs.length > 1 && cs.head? = some '0' && cs.all Char.isDigit

/-- The magnitude of an integer without sign. -/
def magnitudeOf? : List Char → Option Nat
  | '0' :: 'x' :: cs => digitsOf? 16 cs
  | '0' :: 'o' :: cs => digitsOf? 8 cs
  | '0' :: 'b' :: cs => digitsOf? 2 cs
  | cs => if hasLeadingZero cs then none else digitsOf? 10 cs

/-- The scalar of a whole number without a minus sign, if it fits 128 bits. -/
def naturalScalar? (n : Nat) : Option Scalar :=
  if n < Nat.pow 2 64 then some (.natural n) else if n < Nat.pow 2 128 then some .unreadable else none

/-- The scalar of a whole number with a minus sign, if it fits 128 bits. -/
def negativeScalar? (n : Nat) : Option Scalar :=
  if n ≤ Nat.pow 2 63 then some (.negative n) else if n ≤ Nat.pow 2 127 then some .unreadable else none

/-- **The integer that a text spells**, as a scalar. -/
def integerOf? (s : String) : Option Scalar :=
  match s.toList with
  | '+' :: cs => (magnitudeOf? cs).bind naturalScalar?
  | '-' :: cs => (magnitudeOf? cs).bind negativeScalar?
  | cs => (magnitudeOf? cs).bind naturalScalar?

/-- The exponent at the end of a decimal number. -/
def exponentOf? : List Char → Option Int
  | [] => some 0
  | e :: cs =>
    if e = 'e' || e = 'E' then
      match cs with
      | '-' :: ds => (digitsOf? 10 ds).map (fun n => -(n : Int))
      | '+' :: ds => (digitsOf? 10 ds).map Int.ofNat
      | ds => (digitsOf? 10 ds).map Int.ofNat
    else none

/-- The value of an unsigned decimal number: digits, perhaps a point with digits,
perhaps an exponent. At least one digit stands before or behind the point. -/
def decimalOf? (negative : Bool) (cs : List Char) : Option Binary64 := do
  let whole := cs.takeWhile Char.isDigit
  let rest := cs.drop whole.length
  let (fraction, rest) := match rest with
    | '.' :: r => (r.takeWhile Char.isDigit, r.dropWhile Char.isDigit)
    | r => ([], r)
  let digits ← digitsOf? 10 (whole ++ fraction)
  let exponent ← exponentOf? rest
  return Binary64.ofDecimal negative digits (exponent - fraction.length)

/-- A value, if it is finite. -/
def finite? (x : Binary64) : Option Binary64 := if x.isFinite then some x else none

/-- **The floating-point value that a text spells.** -/
def floatOf? (s : String) : Option Binary64 :=
  if [".inf", ".Inf", ".INF", "+.inf", "+.Inf", "+.INF"].contains s then some (.infinite false)
  else if ["-.inf", "-.Inf", "-.INF"].contains s then some (.infinite true)
  else if [".nan", ".NaN", ".NAN"].contains s then some .nan
  else match s.toList with
    | '-' :: cs => (decimalOf? true cs).bind finite?
    | '+' :: cs => (decimalOf? false cs).bind finite?
    | cs => (decimalOf? false cs).bind finite?

/-- **The value of a plain scalar.** -/
def resolve (s : String) : Scalar :=
  if s.isEmpty || isNullWord s then .null
  else match flagOf? s with
    | some b => .bool b
    | none =>
      match integerOf? s with
      | some value => value
      | none =>
        if hasLeadingZero s.toList then .text s
        else match floatOf? s with
          | some x => .float x
          | none => .text s

end ClientGen.Yaml
