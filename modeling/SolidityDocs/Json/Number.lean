import SolidityDocs.Decimal.Shortest
import SolidityDocs.Json.Error
import SolidityDocs.Text.Basic

/-!
# JSON numbers

An integer literal that fits 64 bits (unsigned, or signed when it is negative) is an integer; every
other literal, and `-0`, is a binary64 float.  A float is computed from the leading digits of the
literal: as many digits as fit 64 bits make the significand, which is converted to a float and then
multiplied or divided by one power of ten.

* `NumberLiteral`: the parts of a literal.
* `NumberLiteral.value`: the number that a literal denotes, or `numberOutOfRange`.
-/

namespace SolidityDocs.Json

open Text (digitValue digitsValue)

/-- A number as its literal denotes it: an integer from `0` to `2 ^ 64 - 1`, the integer `-n` for
`n` from `1` to `2 ^ 63`, or any other number as a float. -/
inductive Number
  | natural (n : Nat)
  | negative (n : Nat)
  | float (x : Float)

/-- The parts of a number literal; each digit list holds decimal digits only.  The sign of an
exponent is `true` for minus. -/
structure NumberLiteral where
  minus : Bool
  whole : List Char
  fraction : Option (List Char)
  exponent : Option (Bool × List Char)

/-- The greatest 64-bit natural number. -/
def maxUnsigned : Nat := Nat.pow 2 64 - 1

/-- Appends digits to a significand up to the first one that does not fit 64 bits, and counts the
digits taken. -/
def absorb (significand : Nat) : List Char → Nat × Nat
  | [] => (significand, 0)
  | c :: cs =>
    let next := significand * 10 + digitValue c
    if next ≤ maxUnsigned then
      let (s, n) := absorb next cs
      (s, n + 1)
    else (significand, 0)

/-- The float `significand · 10 ^ exponent`, rounded after the conversion of the significand and
after each multiplication or division. -/
def scaleFloat (significand : Nat) (exponent : Int) : Except SyntaxError Float :=
  let f := significand.toUInt64.toFloat
  let power (n : Nat) : Float := Float.ofScientific 1 false n
  if significand = 0 then .ok f
  else if 308 < exponent then .error .numberOutOfRange
  else if 0 ≤ exponent then
    let x := f * power exponent.toNat
    if x.isInf then .error .numberOutOfRange else .ok x
  else if -308 ≤ exponent then .ok (f / power exponent.natAbs)
  else if -616 ≤ exponent then .ok (f / power 308 / power (exponent.natAbs - 308))
  else .ok 0

namespace NumberLiteral

/-- The float that a literal denotes. -/
def floatValue (l : NumberLiteral) : Except SyntaxError Float :=
  let (s, n) := absorb 0 l.whole
  let (s, m) := absorb s (l.fraction.getD [])
  let start : Int := (l.whole.length - n : Nat) - (m : Int)
  let size : Except SyntaxError Float :=
    match l.exponent with
    | none => scaleFloat s start
    | some (below, digits) =>
      let e := digitsValue digits
      if e < Nat.pow 2 31 then scaleFloat s (if below then start - e else start + e)
      else if s ≠ 0 ∧ !below then .error .numberOutOfRange
      else .ok 0
  size.map fun x => if l.minus then -x else x

/-- Whether the literal is an integer that fits 64 bits, and which one. -/
def integer? (l : NumberLiteral) : Option Number :=
  match l.fraction, l.exponent with
  | none, none =>
    let n := digitsValue l.whole
    if l.minus then
      if 1 ≤ n ∧ n ≤ Nat.pow 2 63 then some (.negative n) else none
    else if n ≤ maxUnsigned then some (.natural n) else none
  | _, _ => none

/-- The number that a literal denotes. -/
def value (l : NumberLiteral) : Except SyntaxError Number :=
  match l.integer? with
  | some n => .ok n
  | none => l.floatValue.map .float

end NumberLiteral

/-- Floats are written with sixteen places at most, and beyond that with a signed exponent of two
digits or more. -/
def Number.layout : Decimal.Layout := ⟨-5, 15, 2⟩

end SolidityDocs.Json
