/-!
# Binary floating-point values, exactly

A number of a document that is no 64-bit integer is held in binary floating
point with 53 bits: a mantissa below `2 ^ 53` times a power of two. All
arithmetic is done on natural numbers and rounded once, to nearest with ties
to even, so every result is the one that the standard prescribes.

The representation of a finite value is unique: the mantissa is at least
`2 ^ 52` unless the exponent is the least one, `-1074`.
-/

namespace ClientGen.Decimal

/-- **A binary floating-point value**: a signed `mantissa * 2 ^ exponent`, an
infinity, or no number. Zero has a sign as well. -/
inductive Binary64 where
  | finite (negative : Bool) (mantissa : Nat) (exponent : Int)
  | infinite (negative : Bool)
  | nan
deriving DecidableEq, Repr, Inhabited

namespace Binary64

/-- The exponent of the least positive value. -/
def leastExponent : Int := -1074

/-- The exponent of the greatest finite value. -/
def greatestExponent : Int := 971

/-- Zero with a sign. -/
def zero (negative : Bool) : Binary64 := .finite negative 0 leastExponent

/-- A quotient as numerator and denominator after division by `2 ^ e`. -/
def scaled (num den : Nat) (e : Int) : Nat × Nat :=
  if e < 0 then (num <<< e.natAbs, den) else (num, den <<< e.natAbs)

/-- The nearest natural number to a quotient, a tie going to the even one. -/
def nearest (num den : Nat) : Nat :=
  let q := num / den
  let r := num % den
  if 2 * r < den then q else if den < 2 * r then q + 1 else q + q % 2

/-- **The nearest value to a quotient.** The exponent is chosen so that the
quotient has 53 bits before the point, but never below the least one. -/
def ofRatio (negative : Bool) (num den : Nat) : Binary64 :=
  if num = 0 then zero negative
  else
    let first := max ((num.log2 : Int) - den.log2 - 53) leastExponent
    let (a, b) := scaled num den first
    let e := if a / b < Nat.pow 2 53 then first else first + 1
    let (a, b) := scaled num den e
    let m := nearest a b
    let (m, e) := if m = Nat.pow 2 53 then (Nat.pow 2 52, e + 1) else (m, e)
    if e > greatestExponent then .infinite negative else .finite negative m e

/-- The nearest value to a natural number. -/
def ofNat (negative : Bool) (n : Nat) : Binary64 := ofRatio negative n 1

/-- The nearest value to an integer; zero is positive. -/
def ofInt (n : Int) : Binary64 := ofNat (n < 0) n.natAbs

/-- A finite magnitude as a quotient. -/
def ratio (mantissa : Nat) (exponent : Int) : Nat × Nat :=
  if exponent < 0 then (mantissa, 1 <<< exponent.natAbs) else (mantissa <<< exponent.natAbs, 1)

/-- The quotient of two magnitudes, correctly rounded. -/
def divide : Binary64 → Binary64 → Binary64
  | .finite s m e, .finite t n f =>
    let (a, b) := ratio m e
    let (c, d) := ratio n f
    ofRatio (s != t) (a * d) (b * c)
  | _, _ => .nan

/-- The product of two magnitudes, correctly rounded. -/
def multiply : Binary64 → Binary64 → Binary64
  | .finite s m e, .finite t n f =>
    let (a, b) := ratio m e
    let (c, d) := ratio n f
    ofRatio (s != t) (a * c) (b * d)
  | _, _ => .nan

/-- Whether a value is a zero of either sign. -/
def isZero : Binary64 → Bool
  | .finite _ 0 _ => true
  | _ => false

/-- Whether a value is a number that is not infinite. -/
def isFinite : Binary64 → Bool
  | .finite .. => true
  | _ => false

/-- The value with the opposite sign. -/
def negate : Binary64 → Binary64
  | .finite s m e => .finite (!s) m e
  | .infinite s => .infinite (!s)
  | .nan => .nan

/-- The number of decimal digits of a natural number; zero has one. -/
def digitCount (n : Nat) : Nat := (Nat.toDigits 10 n).length

/-- **The nearest value to `digits * 10 ^ exponent`.** Exponents so large or so
small that the answer is plain are not computed with. -/
def ofDecimal (negative : Bool) (digits : Nat) (exponent : Int) : Binary64 :=
  if digits = 0 then zero negative
  else if exponent > 400 then .infinite negative
  else if exponent + digitCount digits < -400 then zero negative
  else if exponent < 0 then ofRatio negative digits (Nat.pow 10 exponent.natAbs)
  else ofNat negative (digits * Nat.pow 10 exponent.natAbs)

end Binary64

end ClientGen.Decimal
