import SolidityDocs.Text.Alphanumeric
import SolidityDocs.Text.Basic

/-!
# Environment files

An environment file sets variables, one a line: `NAME=value`, where the word `export` may precede
the name.  A value stands as it is, between apostrophes, or between quotes; `$NAME` and
`${NAME}` in it stand for the value of a variable.  A `#` after a blank starts a comment.

A quote or apostrophe that is still open at the end of a line joins the next line to it.  The first
line that makes no sense ends the file; the variables before it count.

The text is read into names and pieces (`EnvFile.parse`) without knowing the environment, and the
pieces are filled in afterwards (`EnvFile.apply`).
-/

namespace SolidityDocs.EnvFile

/-- A piece of a value: a character that stands for itself, or the value of a variable. -/
inductive Piece
  | char (c : Char)
  | reference (name : String)
  deriving DecidableEq, Repr

/-! ## Lines -/

/-- What is open at some point of a line.  After a blank, a comment may start. -/
inductive Open
  | nothing
  | blank
  | escape
  | quote
  | quoteEscape
  | apostrophe
  | apostropheEscape
  deriving DecidableEq, Repr

/-- What is open after a character that follows a word. -/
def Open.afterWord (c : Char) : Open :=
  if c = '\\' then escape
  else if c = '"' then quote
  else if c = Text.apostrophe then apostrophe
  else nothing

/-- What is open after a character. -/
def Open.next (c : Char) : Open → Open
  | nothing => if Text.isBlank c && c ≠ '\n' && c ≠ '\r' then blank else afterWord c
  | blank => afterWord c
  | escape => nothing
  | quote => if c = '\\' then quoteEscape else if c = '"' then nothing else quote
  | quoteEscape => quote
  | apostrophe =>
    if c = '\\' then apostropheEscape else if c = Text.apostrophe then nothing else apostrophe
  | apostropheEscape => apostrophe

/-- Goes through a line.  Gives the text before a comment, or what is open at the end. -/
def goThrough : Open → List Char → Except (List Char) Open
  | o, [] => .ok o
  | o, c :: cs =>
    if o = .blank ∧ c = '#' then .error []
    else
      match goThrough (o.next c) cs with
      | .error before => .error (c :: before)
      | .ok o => .ok o

/-- The lines of a text, each with its line break. -/
def brokenLines : List Char → List (List Char)
  | [] => []
  | c :: cs =>
    if c = '\n' then [c] :: brokenLines cs
    else
      match brokenLines cs with
      | [] => [[c]]
      | line :: lines => (c :: line) :: lines

/-- A line without its line break. -/
def withoutBreak (cs : List Char) : List Char :=
  match cs.reverse with
  | '\n' :: '\r' :: rest => rest.reverse
  | '\n' :: rest => rest.reverse
  | _ => cs

/-- Joins lines on which something is open with the lines after them.  A line that is open at the
end of the text is missing its end, and stands as `none`. -/
def joinedLines (before : List Char) (o : Open) : List (List Char) → List (Option (List Char))
  | [] => if o = .nothing then [] else [none]
  | line :: lines =>
    let text := before ++ line
    if (Text.trimStart text).head? = some '#' then joinedLines [] .nothing lines
    else
      match goThrough o line with
      | .error kept => some (before ++ kept) :: joinedLines [] .nothing lines
      | .ok .nothing => some (withoutBreak text) :: joinedLines [] .nothing lines
      | .ok o => joinedLines text o lines

/-! ## Values -/

/-- Where the reading of a value stands; `quoted` tells whether a quote is open.  Between
apostrophes every character stands for itself.  The name of a variable may be between braces. -/
inductive Reading
  | text (quoted : Bool)
  | literal
  | escape (quoted : Bool)
  | name (quoted : Bool) (letters : List Char)
  | braced (quoted : Bool) (letters : List Char)
  | done

/-- The character that stands after a backslash for another one. -/
def escaped? (c : Char) : Option Char :=
  if c = 'n' then some '\n'
  else if c = '\\' || c = Text.apostrophe || c = '"' || c = '$' || c = ' ' then some c
  else none

/-- Puts pieces in front of others. -/
def before? (ps : List Piece) (rest : Option (List Piece)) : Option (List Piece) :=
  rest.map fun qs => ps ++ qs

/-- A variable by the letters of its name in reverse. -/
def variableOf (letters : List Char) : Piece := .reference (String.ofList letters.reverse)

/-- The pieces of a value. -/
def pieces : Reading → List Char → Option (List Piece)
  | .text quoted, [] => if quoted then none else some []
  | .literal, [] => none
  | .escape quoted, [] => if quoted then none else some []
  | .name quoted letters, [] => if quoted then none else some [variableOf letters]
  | .braced _ _, [] => none
  | .done, [] => some []
  | .done, c :: cs =>
    if c = ' ' || c = '\t' then pieces .done cs else if c = '#' then some [] else none
  | .escape quoted, c :: cs =>
    match escaped? c with
    | none => none
    | some e => before? [.char e] (pieces (.text quoted) cs)
  | .literal, c :: cs =>
    if c = Text.apostrophe then pieces (.text false) cs else before? [.char c] (pieces .literal cs)
  | .name quoted letters, c :: cs =>
    if Text.isAlphanumeric c then pieces (.name quoted (c :: letters)) cs
    else if c = '\x7b' && letters.isEmpty then pieces (.braced quoted []) cs
    else if c = '$' then before? [variableOf letters] (pieces (.name quoted []) cs)
    else before? [variableOf letters, .char c] (pieces (.text quoted) cs)
  | .braced quoted letters, c :: cs =>
    if c = '\x7d' then before? [variableOf letters] (pieces (.text quoted) cs)
    else pieces (.braced quoted (c :: letters)) cs
  | .text quoted, c :: cs =>
    if c = '$' then pieces (.name quoted []) cs
    else if c = '\\' then pieces (.escape quoted) cs
    else if c = '"' then pieces (.text !quoted) cs
    else if quoted then before? [.char c] (pieces (.text quoted) cs)
    else if c = Text.apostrophe then pieces .literal cs
    else if c = ' ' || c = '\t' then pieces .done cs
    else before? [.char c] (pieces (.text quoted) cs)

/-! ## Assignments -/

/-- A variable with the pieces of its value. -/
structure Assignment where
  name : String
  value : List Piece
  deriving DecidableEq, Repr

/-- The name at the front of a line, and the text after it and the blanks. -/
def nameOf? : List Char → Option (List Char × List Char)
  | [] => none
  | c :: cs =>
    let inName (c : Char) : Bool := c.isAlphanum || c = '_' || c = '.'
    if c.isAlpha || c = '_' then
      some (c :: cs.takeWhile inName, Text.trimStart (cs.dropWhile inName))
    else none

/-- The text after an equals sign. -/
def afterEquals? : List Char → Option (List Char)
  | '=' :: cs => some cs
  | _ => none

/-- The name that a line sets, and the text after the equals sign. -/
def target? (cs : List Char) : Option (List Char × List Char) := do
  let (name, cs) ← nameOf? cs
  match afterEquals? cs with
  | some cs => return (name, cs)
  | none =>
    guard (name = ['e', 'x', 'p', 'o', 'r', 't'])
    let (name, cs) ← nameOf? cs
    return (name, ← afterEquals? cs)

/-- Whether a text is empty or a comment. -/
def isIdle (cs : List Char) : Bool := cs.isEmpty || cs.head? = some '#'

/-- The assignments of a line: one or none. -/
def assignments? (line : List Char) : Option (List Assignment) :=
  let cs := Text.trim line
  if isIdle cs then some []
  else do
    let (name, cs) ← target? cs
    let cs := Text.trimStart cs
    let value ← if isIdle cs then some [] else pieces (.text false) cs
    return [⟨String.ofList name, value⟩]

/-- The assignments of lines up to the first line that makes no sense. -/
def ofLines : List (Option (List Char)) → List Assignment
  | [] => []
  | none :: _ => []
  | some line :: lines =>
    match assignments? line with
    | none => []
    | some as => as ++ ofLines lines

/-- The assignments of an environment file. -/
def parse (text : String) : List Assignment :=
  ofLines (joinedLines [] .nothing (brokenLines (Text.skipMark text.toList)))

/-! ## Variables -/

/-- The variables of an environment. -/
abbrev Variables := List (String × String)

/-- The text of a piece. -/
def Piece.fill (vars : Variables) : Piece → List Char
  | .char c => [c]
  | .reference name => ((vars.lookup name).getD "").toList

/-- Carries out an assignment, unless the variable is set. -/
def assign (vars : Variables) (a : Assignment) : Variables :=
  if (vars.lookup a.name).isSome then vars
  else (a.name, String.ofList (a.value.flatMap (Piece.fill vars))) :: vars

/-- The environment with the variables of a file. -/
def apply (vars : Variables) (as : List Assignment) : Variables := as.foldl assign vars

/-- The names that assignments set or mention. -/
def mentioned (as : List Assignment) : List String :=
  as.flatMap fun a => a.name :: a.value.filterMap fun p =>
    match p with
    | .char _ => none
    | .reference name => some name

end SolidityDocs.EnvFile
