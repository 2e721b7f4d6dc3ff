import ClientGen.Decimal.Binary64

/-!
# The fewest decimal digits that identify a value

A floating-point value is written with the fewest digits that read back to it,
and among those with the ones nearest to it. The reals that read back to a
value form an interval around it, whose ends belong to it when the mantissa is
even. For one digit, two digits and so on, the value's two neighbours on the
grid of that many digits are tested against the interval; the first grid with
a hit wins, and of two hits the nearer.

How the digits are then laid out – where positional notation ends, what stands
behind a whole number – is a `Layout` and belongs to the format that is
written.
-/

namespace ClientGen.Decimal

open Binary64 (digitCount)

/-- A positive decimal `digits * 10 ^ exponent`. -/
structure Figure where
  digits : Nat
  exponent : Int
deriving DecidableEq, Repr

/-- The reals that read back to a magnitude, as numerators over one common
denominator. -/
structure Interval where
  low : Nat
  value : Nat
  high : Nat
  den : Nat
  /-- Whether the ends belong to the interval. -/
  closed : Bool

/-- **The interval of a magnitude.** It reaches half way to the neighbours; at
a power of two the lower neighbour is nearer. -/
def Interval.of (mantissa : Nat) (exponent : Int) : Interval :=
  let (unit, den) := Binary64.ratio 1 exponent
  let below := if mantissa = Nat.pow 2 52 ∧ exponent > Binary64.leastExponent then 1 else 2
  { low := (4 * mantissa - below) * unit
    value := 4 * mantissa * unit
    high := (4 * mantissa + 2) * unit
    den := 4 * den
    closed := mantissa % 2 = 0 }

/-- The decimal exponent of the leading digit of a positive quotient. -/
def leadingExponent (num den : Nat) : Int :=
  if den ≤ num then digitCount (num / den) - 1
  else
    let n := digitCount (den / num)
    if den ≤ num * Nat.pow 10 (n - 1) then -(n - 1 : Nat) else -(n : Nat)

/-- A decimal as a quotient. -/
def Figure.ratio (f : Figure) : Nat × Nat :=
  if f.exponent < 0 then (f.digits, Nat.pow 10 f.exponent.natAbs)
  else (f.digits * Nat.pow 10 f.exponent.natAbs, 1)

/-- Whether a decimal lies in the interval, so that it reads back. -/
def Interval.holds (i : Interval) (f : Figure) : Bool :=
  let (a, b) := f.ratio
  let x := a * i.den
  if i.closed then i.low * b ≤ x && x ≤ i.high * b else i.low * b < x && x < i.high * b

/-- Which of two neighbours a value half way between them takes. -/
inductive Tie where
  | even
  | up
deriving DecidableEq, Repr

/-- Whether the upper neighbour of `lower + rest / den` is taken: it is nearer,
or as near and the tie goes there. -/
def Tie.goesUp (tie : Tie) (lower rest den : Nat) : Bool :=
  den < 2 * rest || (den == 2 * rest && (tie == .up || lower % 2 == 1))

/-- The hit of one grid: of the value's two neighbours on it those that read
back, and of two the nearer. -/
def Interval.hit? (i : Interval) (tie : Tie) (exponent : Int) : Option Figure :=
  let (a, b) := if exponent < 0 then (i.value * Nat.pow 10 exponent.natAbs, i.den)
    else (i.value, i.den * Nat.pow 10 exponent.natAbs)
  let lower := a / b
  let r := a % b
  let low : Figure := ⟨lower, exponent⟩
  let high : Figure := ⟨lower + 1, exponent⟩
  match lower ≠ 0 && i.holds low, i.holds high with
  | true, true => some (if tie.goesUp lower r b then high else low)
  | true, false => some low
  | false, true => some high
  | false, false => none

/-- Moves trailing zeros from the digits to the exponent. The first argument
bounds their number. -/
def Figure.trimmed : Nat → Figure → Figure
  | 0, f => f
  | n + 1, f =>
    if f.digits % 10 = 0 ∧ f.digits ≠ 0 then trimmed n ⟨f.digits / 10, f.exponent + 1⟩ else f

/-- The first hit among the grids of `count` digits and more, `left` of them. -/
def Interval.search (i : Interval) (tie : Tie) (leading : Int) : Nat → Nat → Figure
  | 0, _ => ⟨i.value / i.den, 0⟩
  | left + 1, count =>
    match i.hit? tie (leading - count + 1) with
    | some f => f
    | none => i.search tie leading left (count + 1)

/-- **The shortest decimal** that reads back to a positive magnitude. Seventeen
digits always suffice. -/
def shortest (tie : Tie) (mantissa : Nat) (exponent : Int) : Figure :=
  let i := Interval.of mantissa exponent
  (i.search tie (leadingExponent i.value i.den) 17 1).trimmed 20

/-- The decisions of a number format about the layout of its digits. -/
structure Layout where
  /-- Which neighbour a value half way between two takes. -/
  tie : Tie
  /-- The exponents of the leading digit that are written positionally, from
  this one on; all of them if absent. -/
  plainFrom : Option Int
  /-- The greatest exponent written positionally; any if absent. -/
  plainTo : Option Int
  /-- Whether a whole number in positional notation gets a fraction of `.0`. -/
  pointZero : Bool

/-- The digits of a natural number as text. -/
def digitsOf (n : Nat) : List Char := Nat.toDigits 10 n

/-- Positional notation: the point behind, inside or before the digits. -/
def positional (pointZero : Bool) (digits : List Char) (exponent : Int) : List Char :=
  if 0 ≤ exponent then
    digits ++ List.replicate exponent.toNat '0' ++ (if pointZero then ['.', '0'] else [])
  else
    let places := exponent.natAbs
    if places < digits.length then
      digits.take (digits.length - places) ++ '.' :: digits.drop (digits.length - places)
    else
      '0' :: '.' :: List.replicate (places - digits.length) '0' ++ digits

/-- Scientific notation: one digit before the point, a signed exponent. -/
def scientific (digits : List Char) (leading : Int) : List Char :=
  let fraction := match digits.drop 1 with
    | [] => []
    | rest => '.' :: rest
  digits.take 1 ++ fraction ++ 'e' :: (if leading < 0 then '-' else '+') :: digitsOf leading.natAbs

/-- The text of a positive decimal in a layout. -/
def Layout.figure (l : Layout) (f : Figure) : List Char :=
  let digits := digitsOf f.digits
  let leading := f.exponent + digits.length - 1
  if l.plainFrom.all (· ≤ leading) && l.plainTo.all (leading ≤ ·) then
    positional l.pointZero digits f.exponent
  else
    scientific digits leading

/-- **The text of a value in a layout.** -/
def Layout.text (l : Layout) : Binary64 → String
  | .finite negative mantissa exponent =>
    let sign := if negative then ['-'] else []
    let body := if mantissa = 0 then positional l.pointZero ['0'] 0
      else l.figure (shortest l.tie mantissa exponent)
    String.ofList (sign ++ body)
  | .infinite negative => if negative then "-inf" else "inf"
  | .nan => "NaN"

end ClientGen.Decimal
