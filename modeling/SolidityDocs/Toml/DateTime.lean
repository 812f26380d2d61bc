import SolidityDocs.Text.Basic

/-!
# TOML dates and times

A date, a time of day, or both, and in the last case also an offset.  The seconds may be left out.
Only well-formedness matters: nothing here computes with dates.
-/

namespace SolidityDocs.Toml

open Text (digitsValue)

/-- Two digits from the front of a text. -/
def twoDigits? : List Char → Option (Nat × List Char)
  | a :: b :: cs => if a.isDigit && b.isDigit then some (digitsValue [a, b], cs) else none
  | _ => none

/-- The text after a character. -/
def after? (c : Char) : List Char → Option (List Char)
  | d :: cs => if d = c then some cs else none
  | [] => none

/-- Whether a year has a leap day. -/
def isLeap (year : Nat) : Bool := year % 4 = 0 && (year % 100 ≠ 0 || year % 400 = 0)

/-- The number of days of a month. -/
def daysOf (year month : Nat) : Nat :=
  if month = 2 then if isLeap year then 29 else 28
  else if month = 4 || month = 6 || month = 9 || month = 11 then 30
  else 31

/-- The text after the date at its front. -/
def afterDate? (cs : List Char) : Option (List Char) := do
  let (century, cs) ← twoDigits? cs
  let (year, cs) ← twoDigits? cs
  let cs ← after? '-' cs
  let (month, cs) ← twoDigits? cs
  let cs ← after? '-' cs
  let (day, cs) ← twoDigits? cs
  guard (1 ≤ month ∧ month ≤ 12 ∧ 1 ≤ day ∧ day ≤ daysOf (100 * century + year) month)
  return cs

/-- The text after the seconds at its front, if there are any. -/
def afterSeconds? : List Char → Option (List Char)
  | ':' :: cs => do
    let (second, cs) ← twoDigits? cs
    guard (second ≤ 60)
    match cs with
    | '.' :: digit :: cs => if digit.isDigit then some (cs.dropWhile Char.isDigit) else none
    | '.' :: [] => none
    | cs => return cs
  | cs => some cs

/-- The text after the hours and minutes at its front. -/
def afterMinutes? (cs : List Char) : Option (List Char) := do
  let (hour, cs) ← twoDigits? cs
  let cs ← after? ':' cs
  let (minute, cs) ← twoDigits? cs
  guard (hour ≤ 23 ∧ minute ≤ 59)
  return cs

/-- The text after the time of day at its front. -/
def afterTime? (cs : List Char) : Option (List Char) := do afterSeconds? (← afterMinutes? cs)

/-- Whether a text is an offset, or nothing. -/
def isOffset : List Char → Bool
  | [] => true
  | ['Z'] => true
  | ['z'] => true
  | '+' :: cs => afterMinutes? cs = some []
  | '-' :: cs => afterMinutes? cs = some []
  | _ => false

/-- Whether a text is a date alone. -/
def isDate (cs : List Char) : Bool := afterDate? cs = some []

/-- Whether a text is a date, a time of day or both. -/
def isDateTime (cs : List Char) : Bool :=
  match afterDate? cs with
  | none => afterTime? cs = some []
  | some [] => true
  | some (c :: cs) =>
    (c = 'T' || c = 't' || c = ' ') && ((afterTime? cs).map isOffset).getD false

end SolidityDocs.Toml
