/-!
# The shortest decimal of a binary64 float

A finite float denotes `m · 2 ^ q`.  The reals that round to it form an interval around it, whose
ends belong to it exactly when `m` is even.  The shortest decimal is the first one met when the
decimal grids with 1, 2, 3, … significant digits are searched in turn for a point in that interval;
of two points on one grid the nearer one is taken.  On each grid only the two neighbours of the
value need to be looked at, since any grid point in the interval has one of them between itself and
the value.

All arithmetic is exact: a real is a quotient of natural numbers over one common denominator.
-/

namespace SolidityDocs.Decimal

/-- A decimal `d₁.d₂d₃… · 10 ^ exponent` with its significant digits in order. -/
structure Scientific where
  digits : List Nat
  exponent : Int
  deriving DecidableEq, Repr

/-- The reals that round to one float: its value and the two ends, as quotients over one
denominator.  The ends themselves round to the float if the interval is closed. -/
structure Interval where
  lower : Nat
  value : Nat
  upper : Nat
  denom : Nat
  closed : Bool

namespace Interval

/-- The interval of `m · 2 ^ q`.  Above a power of two the gap to the next smaller float is half as
wide, which `narrow` tells. -/
def ofBinary (m : Nat) (q : Int) (narrow : Bool) : Interval :=
  let unit := Nat.pow 2 (q - 2).toNat
  { lower := (4 * m - if narrow then 1 else 2) * unit
    value := 4 * m * unit
    upper := (4 * m + 2) * unit
    denom := Nat.pow 2 (2 - q).toNat
    closed := m % 2 == 0 }

/-- The decimal exponent of the first significant digit of `num / den`, both positive. -/
def leadingExponent (num den : Nat) : Int :=
  if den ≤ num then ((Nat.toDigits 10 (num / den)).length : Int) - 1
  else
    let zeros := ((List.range 400).find? fun j => den ≤ num * Nat.pow 10 (j + 1)).getD 400
    Int.negSucc zeros

/-- Whether the grid point `d · 10 ^ e` lies in the interval. -/
def contains (i : Interval) (d : Nat) (e : Int) : Bool :=
  let point := d * i.denom * Nat.pow 10 e.toNat
  let scale := Nat.pow 10 (-e).toNat
  if i.closed then i.lower * scale ≤ point && point ≤ i.upper * scale
  else i.lower * scale < point && point < i.upper * scale

/-- The point of the grid `10 ^ e` that is in the interval and nearest to the value. -/
def nearest? (i : Interval) (e : Int) : Option Nat :=
  let num := i.value * Nat.pow 10 (-e).toNat
  let den := i.denom * Nat.pow 10 e.toNat
  let below := num / den
  let above := below + 1
  let nearerBelow := 2 * (num % den) < den || (2 * (num % den) == den && below % 2 == 0)
  match i.contains below e && 0 < below, i.contains above e with
  | true, true => some (if nearerBelow then below else above)
  | true, false => some below
  | false, true => some above
  | false, false => none

/-- The shortest decimal in the interval; seventeen digits always suffice. -/
def shortest (i : Interval) : Scientific :=
  let first := leadingExponent i.value i.denom
  let hit := (List.range 17).findSome? fun (n : Nat) =>
    (i.nearest? (first - n)).map fun d => (d, first - (n : Int))
  let (d, e) := hit.getD (0, 0)
  let text := Nat.toDigits 10 d
  { digits := (text.reverse.dropWhile (· == '0')).reverse.map fun c => c.toNat - '0'.toNat
    exponent := e + text.length - 1 }

end Interval

/-- The fraction of a float has 52 bits. -/
def fractionBound : Nat := Nat.pow 2 52

/-- The exponent of a float has 11 bits. -/
def exponentBound : Nat := Nat.pow 2 11

/-- The shortest decimal that reads back as the finite, non-zero float `x` without its sign. -/
def shortest (x : Float) : Scientific :=
  let bits := x.toBits.toNat
  let fraction := bits % fractionBound
  let biased := bits / fractionBound % exponentBound
  if biased = 0 then (Interval.ofBinary fraction (-1074) false).shortest
  else
    (Interval.ofBinary (fractionBound + fraction) (Int.ofNat biased - 1075)
      (fraction == 0 && biased != 1)).shortest

/-- How the text of a float is laid out: the least and the greatest exponent of the first digit for
which no exponent is written, and the least number of digits in an exponent. -/
structure Layout where
  positionalFrom : Int
  positionalTo : Int
  exponentDigits : Nat

namespace Layout

/-- The text of a decimal. -/
def write (l : Layout) (s : Scientific) : String :=
  let digits := s.digits.map Nat.digitChar
  let zeros (n : Nat) : List Char := List.replicate n '0'
  let chars : List Char :=
    if s.exponent < l.positionalFrom || l.positionalTo < s.exponent then
      let power := Nat.toDigits 10 s.exponent.natAbs
      digits.take 1 ++ (if digits.length ≤ 1 then [] else '.' :: digits.drop 1) ++
        ['e', if s.exponent < 0 then '-' else '+'] ++
        zeros (l.exponentDigits - power.length) ++ power
    else if s.exponent < 0 then
      ['0', '.'] ++ zeros (s.exponent.natAbs - 1) ++ digits
    else
      let whole := s.exponent.toNat + 1
      if digits.length ≤ whole then digits ++ zeros (whole - digits.length) ++ ['.', '0']
      else digits.take whole ++ '.' :: digits.drop whole
  String.ofList chars

/-- The text of a finite float, with a sign when its sign bit is set. -/
def writeFloat (l : Layout) (x : Float) : String :=
  let sign := if x.toBits.toNat / (fractionBound * exponentBound) = 1 then "-" else ""
  let size := if x == 0 then "0.0" else l.write (shortest x)
  sign ++ size

end Layout

end SolidityDocs.Decimal
