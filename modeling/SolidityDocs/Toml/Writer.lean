import SolidityDocs.Toml.Quoted

/-!
# Writing TOML strings

A string is written in the plainest form that shows it as it is: between quotes if nothing in it
needs a backslash, else between apostrophes, else between three quotes, else between three
apostrophes.  Only a string that none of these can show is written with escapes.
-/

namespace SolidityDocs.Toml

open Text (apostrophe)

/-- The forms of a string: between quotes or apostrophes, one or three of them. -/
inductive StringForm
  | basic
  | literal
  | multiBasic
  | multiLiteral
  deriving DecidableEq, Repr

/-- Whether a character can only be written as an escape. -/
def isHidden (c : Char) : Bool := !isPlain c && c ≠ '\n'

/-- The length of the longest run of a character; `run` is the length of the run so far. -/
def longestRun (mark : Char) (run : Nat) : List Char → Nat
  | [] => run
  | c :: cs => if c = mark then longestRun mark (run + 1) cs else max run (longestRun mark 0 cs)

/-- The form of a string. -/
def formOf (cs : List Char) : StringForm :=
  let hidden := cs.any isHidden
  let backslash := cs.contains '\\'
  let newline := cs.contains '\n'
  let quotes := longestRun '"' 0 cs
  let marks := longestRun apostrophe 0 cs
  if !hidden && !backslash && quotes = 0 && !newline then .basic
  else if !hidden && marks = 0 && !newline then .literal
  else if !hidden && !backslash && quotes ≤ 2 then .multiBasic
  else if !hidden && marks ≤ 2 then .multiLiteral
  else if newline then .multiBasic
  else .basic

/-- A character by its code point, which is below `2 ^ 16`. -/
def codeEscape (c : Char) : List Char :=
  let digits := (Nat.toDigits 16 c.toNat).map Char.toUpper
  ['\\', 'u'] ++ List.replicate (4 - digits.length) '0' ++ digits

/-- A character other than a quote between quotes. -/
def basicChar (multi : Bool) (c : Char) : List Char :=
  match c with
  | '\x08' => ['\\', 'b']
  | '\t' => ['\\', 't']
  | '\n' => if multi then ['\n'] else ['\\', 'n']
  | '\x0c' => ['\\', 'f']
  | '\r' => ['\\', 'r']
  | '\\' => ['\\', '\\']
  | c => if isHidden c then codeEscape c else [c]

/-- A text between quotes.  Of the quotes in it, `quotes` have been written one after the other; the
one after `allowed` quotes needs a backslash. -/
def basicText (multi : Bool) (allowed quotes : Nat) : List Char → List Char
  | [] => []
  | c :: cs =>
    if c = '"' then
      if quotes < allowed then '"' :: basicText multi allowed (quotes + 1) cs
      else '\\' :: '"' :: basicText multi allowed 0 cs
    else basicChar multi c ++ basicText multi allowed 0 cs

/-- The line break that precedes a text of several lines. -/
def leadingNewline (cs : List Char) : List Char := if cs.contains '\n' then ['\n'] else []

/-- A string in a form. -/
def writeForm (cs : List Char) : StringForm → List Char
  | .basic => ['"'] ++ basicText false 0 0 cs ++ ['"']
  | .literal => [apostrophe] ++ cs ++ [apostrophe]
  | .multiBasic =>
    List.replicate 3 '"' ++ leadingNewline cs ++ basicText true 2 0 cs ++ List.replicate 3 '"'
  | .multiLiteral =>
    List.replicate 3 apostrophe ++ leadingNewline cs ++ cs ++ List.replicate 3 apostrophe

/-- A string. -/
def writeString (s : String) : String := String.ofList (writeForm s.toList (formOf s.toList))

end SolidityDocs.Toml
