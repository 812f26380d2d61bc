import SolidityDocs.Toml.DateTime
import SolidityDocs.Toml.Scan
import SolidityDocs.Toml.Value

/-!
# TOML numbers, truth values and dates

All of these are words: runs of letters, digits and a few signs.  A word is taken as a whole and
then classified.  A date and a time of day may be separated by one space; together they count as one
word.
-/

namespace SolidityDocs.Toml

open Text (digitsValue hexValue?)

/-! ## Digits -/

/-- The digits of a number without the underscores, each of which stands between two digits; the
flag says whether a digit has just been read. -/
def groupedDigits? (isDigit : Char → Bool) (afterDigit : Bool) : List Char → Option (List Char)
  | [] => if afterDigit then some [] else none
  | c :: cs =>
    if c = '_' then if afterDigit then groupedDigits? isDigit false cs else none
    else if isDigit c then (groupedDigits? isDigit true cs).map (c :: ·)
    else none

/-- The digits of a decimal number without leading zeros. -/
def wholeDigits? (cs : List Char) : Option (List Char) := do
  let ds ← groupedDigits? Char.isDigit false cs
  guard (ds.length = 1 ∨ ds.head? ≠ some '0')
  return ds

/-- The value of digits in a base. -/
def valueInBase (base : Nat) (cs : List Char) : Nat :=
  cs.foldl (fun n c => base * n + (hexValue? c).getD 0) 0

/-- Whether a character is a digit in a base. -/
def isDigitIn (base : Nat) (c : Char) : Bool :=
  match hexValue? c with
  | some d => d < base
  | none => false

/-! ## Integers -/

/-- An integer in a base other than ten, after its mark. -/
def baseInteger? (base : Nat) (cs : List Char) : Option Int :=
  (groupedDigits? (isDigitIn base) false cs).map fun ds => (valueInBase base ds : Int)

/-- A decimal integer without its sign. -/
def decimal? (cs : List Char) : Option Nat := (wholeDigits? cs).map digitsValue

/-- The integer that a word denotes. -/
def integer? : List Char → Option Int
  | '0' :: 'x' :: cs => baseInteger? 16 cs
  | '0' :: 'o' :: cs => baseInteger? 8 cs
  | '0' :: 'b' :: cs => baseInteger? 2 cs
  | '+' :: cs => (decimal? cs).map fun n => (n : Int)
  | '-' :: cs => (decimal? cs).map fun n => -(n : Int)
  | cs => (decimal? cs).map fun n => (n : Int)

/-! ## Floats -/

/-- Whether `digits · 10 ^ scale` rounds to a finite 64-bit float. -/
def isFinite (digits : List Char) (scale : Int) : Bool :=
  let digits := digits.dropWhile fun c => c = '0'
  let size : Int := digits.length + scale
  let bound : Nat := Nat.pow 2 1024 - Nat.pow 2 970
  if digits.isEmpty || size ≤ 300 then true
  else if 310 ≤ size then false
  else digitsValue digits * Nat.pow 10 scale.toNat < bound * Nat.pow 10 (-scale).toNat

/-- The text without the sign at its front. -/
def unsigned : List Char → List Char
  | '+' :: cs => cs
  | '-' :: cs => cs
  | cs => cs

/-- The exponent that a text denotes. -/
def exponent? (cs : List Char) : Option Int := do
  let ds ← groupedDigits? Char.isDigit false (unsigned cs)
  return if cs.head? = some '-' then -(digitsValue ds : Int) else digitsValue ds

/-- Splits a text at the first character with a property. -/
def splitAt? (p : Char → Bool) (cs : List Char) : List Char × Option (List Char) :=
  (cs.takeWhile fun c => !p c, (cs.dropWhile fun c => !p c).tail?)

/-- Whether a word is a float, and then whether it is in range. -/
def float? (word : List Char) : Option Bool :=
  let cs := unsigned word
  if cs = ['i', 'n', 'f'] ∨ cs = ['n', 'a', 'n'] then some true
  else do
    let (mantissa, power) := splitAt? (fun c => c = 'e' || c = 'E') cs
    let (whole, fraction) := splitAt? (fun c => c = '.') mantissa
    guard (power.isSome ∨ fraction.isSome)
    let ws ← wholeDigits? whole
    let fs ← match fraction with
      | none => some []
      | some f => groupedDigits? Char.isDigit false f
    let e ← match power with
      | none => some 0
      | some p => exponent? p
    return isFinite (ws ++ fs) (e - fs.length)

/-! ## Words -/

/-- Whether a character may stand in a word. -/
def isWordChar (c : Char) : Bool :=
  c.isAlphanum || c = '_' || c = '+' || c = '-' || c = '.' || c = ':'

/-- The value that a word denotes. -/
def ofWord? (word : List Char) : Option Value :=
  if word = ['t', 'r', 'u', 'e'] then some (.boolean true)
  else if word = ['f', 'a', 'l', 's', 'e'] then some (.boolean false)
  else
    match integer? word, float? word with
    | some n, _ => some (.integer n)
    | none, some b => some (.float b)
    | none, none => if isDateTime word then some .dateTime else none

/-- Takes a word, or a date and a time of day. -/
def word (cs : List Char) : List Char × List Char :=
  let first := cs.takeWhile isWordChar
  let rest := cs.dropWhile isWordChar
  match rest with
  | ' ' :: c :: more =>
    if isDate first && c.isDigit then
      (first ++ ' ' :: (c :: more).takeWhile isWordChar, (c :: more).dropWhile isWordChar)
    else (first, rest)
  | _ => (first, rest)

/-- A number, a truth value or a date. -/
def scalar : Scan Value := fun cs =>
  let (w, rest) := word cs
  (ofWord? w).map fun v => (v, rest)

end SolidityDocs.Toml
