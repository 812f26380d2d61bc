import SolidityDocs.Text.Basic
import SolidityDocs.Toml.Scan

/-!
# TOML strings

A string stands between quotes or apostrophes, one of them or three.  Between quotes, a backslash
starts an escape; between apostrophes, every character stands for itself.  A string with three marks
may span lines; a line break right after the opening marks does not count, and one or two marks may
stand before the closing ones.
-/

namespace SolidityDocs.Toml

open Text (apostrophe)

/-- What a backslash has left open: nothing, the escape itself, a code point of which digits are
missing, the line break that a backslash at the end of a line hides, or the text after it, whose
blanks are hidden as well. -/
inductive Pending
  | none
  | escape
  | code (missing value : Nat)
  | newline
  | indent
  deriving DecidableEq, Repr

/-- The character that stands after a backslash for another one. -/
def escaped? : Char → Option Char
  | 'b' => some '\x08'
  | 't' => some '\t'
  | 'n' => some '\n'
  | 'f' => some '\x0c'
  | 'r' => some '\r'
  | 'e' => some '\x1b'
  | '"' => some '"'
  | '\\' => some '\\'
  | _ => none

/-- How many digits the code point after a backslash and this letter has. -/
def codeLength? : Char → Option Nat
  | 'x' => some 2
  | 'u' => some 4
  | 'U' => some 8
  | _ => none

/-- The character with a code point. -/
def scalar? (n : Nat) : Option Char := if n.isValidChar then some (Char.ofNat n) else none

/-! ## Between quotes -/

/-- The text up to the closing quote. -/
def basicBody : Pending → List Char → Option (List Char × List Char)
  | _, [] => none
  | .escape, c :: cs =>
    match escaped? c, codeLength? c with
    | some e, _ => cons? e (basicBody .none cs)
    | none, some n => basicBody (.code n 0) cs
    | none, none => none
  | .code n v, c :: cs =>
    match Text.hexValue? c with
    | none => none
    | some d =>
      if n ≤ 1 then
        match scalar? (16 * v + d) with
        | none => none
        | some e => cons? e (basicBody .none cs)
      else basicBody (.code (n - 1) (16 * v + d)) cs
  | _, c :: cs =>
    if c = '"' then some ([], cs)
    else if c = '\\' then basicBody .escape cs
    else if isPlain c then cons? c (basicBody .none cs)
    else none

/-- The text after three closing marks: up to two more of them belong to the string. -/
def closing (mark : Char) : List Char → List Char × List Char
  | c :: d :: cs =>
    if c = mark then if d = mark then ([c, d], cs) else ([c], d :: cs) else ([], c :: d :: cs)
  | [c] => if c = mark then ([c], []) else ([], [c])
  | [] => ([], [])

/-- Whether a text starts with three marks, and what follows them. -/
def afterMarks? (mark : Char) : List Char → Option (List Char)
  | a :: b :: c :: cs => if a = mark ∧ b = mark ∧ c = mark then some cs else none
  | _ => none

/-- The text up to three closing quotes. -/
def multiBasicBody : Pending → List Char → Option (List Char × List Char)
  | _, [] => none
  | .escape, c :: cs =>
    match escaped? c, codeLength? c with
    | some e, _ => cons? e (multiBasicBody .none cs)
    | none, some n => multiBasicBody (.code n 0) cs
    | none, none =>
      if c = '\n' then multiBasicBody .indent cs
      else if isSpace c || c = '\r' && cs.head? = some '\n' then multiBasicBody .newline cs
      else none
  | .code n v, c :: cs =>
    match Text.hexValue? c with
    | none => none
    | some d =>
      if n ≤ 1 then
        match scalar? (16 * v + d) with
        | none => none
        | some e => cons? e (multiBasicBody .none cs)
      else multiBasicBody (.code (n - 1) (16 * v + d)) cs
  | .newline, c :: cs =>
    if c = '\n' then multiBasicBody .indent cs
    else if isSpace c || c = '\r' && cs.head? = some '\n' then multiBasicBody .newline cs
    else none
  | p, c :: cs =>
    if p = .indent ∧ (isSpace c || c = '\n' || c = '\r' && cs.head? = some '\n') then
      multiBasicBody .indent cs
    else
      match afterMarks? '"' (c :: cs) with
      | some rest => some (closing '"' rest)
      | none =>
        if c = '\\' then multiBasicBody .escape cs
        else if isPlain c || c = '\n' || c = '\r' && cs.head? = some '\n' then
          cons? c (multiBasicBody .none cs)
        else none

/-! ## Between apostrophes -/

/-- The text up to the closing apostrophe. -/
def literalBody : List Char → Option (List Char × List Char)
  | [] => none
  | c :: cs =>
    if c = apostrophe then some ([], cs)
    else if isPlain c then cons? c (literalBody cs)
    else none

/-- The text up to three closing apostrophes. -/
def multiLiteralBody : List Char → Option (List Char × List Char)
  | [] => none
  | c :: cs =>
    match afterMarks? apostrophe (c :: cs) with
    | some rest => some (closing apostrophe rest)
    | none =>
      if isPlain c || c = '\n' || c = '\r' && cs.head? = some '\n' then
        cons? c (multiLiteralBody cs)
      else none

/-! ## Strings -/

/-- The text after a line break at its front, if there is one. -/
def skipNewline (cs : List Char) : List Char := (afterNewline? cs).getD cs

/-- A string on one line. -/
def lineString : Scan String
  | [] => none
  | c :: cs =>
    let body :=
      if c = '"' then basicBody .none cs
      else if c = apostrophe then literalBody cs
      else none
    body.map fun (part, rest) => (String.ofList part, rest)

/-- A string. -/
def anyString : Scan String := fun cs =>
  match afterMarks? '"' cs, afterMarks? apostrophe cs with
  | some rest, _ =>
    (multiBasicBody .none (skipNewline rest)).map fun (part, rest) => (String.ofList part, rest)
  | none, some rest =>
    (multiLiteralBody (skipNewline rest)).map fun (part, rest) => (String.ofList part, rest)
  | none, none => lineString cs

end SolidityDocs.Toml
