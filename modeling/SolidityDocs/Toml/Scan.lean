/-!
# Scanning TOML text

The parts of a TOML text are taken from its front, one after the other.  A `Scan` gives the part and
the text after it, or nothing when the text is not well formed there; why it is not does not matter
to anyone.

Inside brackets, comments and line breaks may stand between the parts (`skipGap`); everywhere else a
part ends with its line (`lineEnd`).
-/

namespace SolidityDocs.Toml

/-- Takes a part from the front of a text. -/
abbrev Scan (α : Type) := List Char → Option (α × List Char)

/-- Whether a character separates parts of one line. -/
def isSpace (c : Char) : Bool := c = ' ' || c = '\t'

/-- Whether a character may stand for itself in strings and comments: any character but the control
characters other than the tab. -/
def isPlain (c : Char) : Bool := c = '\t' || (0x20 ≤ c.toNat && c.toNat ≠ 0x7f)

/-- The text after the spaces at its front. -/
def skipSpace (cs : List Char) : List Char := cs.dropWhile isSpace

/-- The text after the line break at its front. -/
def afterNewline? : List Char → Option (List Char)
  | '\n' :: cs => some cs
  | '\r' :: '\n' :: cs => some cs
  | _ => none

/-- The text after the comment at its front, if there is one. -/
def skipComment : List Char → List Char
  | '#' :: cs => cs.dropWhile isPlain
  | cs => cs

/-- The text after the rest of a line that has no part left. -/
def lineEnd (cs : List Char) : Option (List Char) :=
  match skipComment (skipSpace cs) with
  | [] => some []
  | c :: cs => afterNewline? (c :: cs)

/-- The text after spaces, line breaks and comments; the flag says whether a comment is open. -/
def skipGap (comment : Bool) : List Char → List Char
  | [] => []
  | '\n' :: cs => skipGap false cs
  | '\r' :: '\n' :: cs => skipGap false cs
  | c :: cs =>
    if comment then if isPlain c then skipGap true cs else c :: cs
    else if isSpace c then skipGap false cs
    else if c = '#' then skipGap true cs
    else c :: cs

/-- Puts a character in front of the part that a scan has taken. -/
def cons? (c : Char) : Option (List Char × List Char) → Option (List Char × List Char)
  | none => none
  | some (part, rest) => some (c :: part, rest)

@[simp] theorem cons?_none (c : Char) : cons? c none = none := rfl

@[simp] theorem cons?_some (c : Char) (part rest : List Char) :
    cons? c (some (part, rest)) = some (c :: part, rest) := rfl

end SolidityDocs.Toml
