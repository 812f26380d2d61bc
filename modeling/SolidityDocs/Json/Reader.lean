import SolidityDocs.Json.ReadError
import SolidityDocs.Map.Ordered

/-!
# Reading values

A `Reader` reads a tree into a type.  A value is either streamed, that is read while the text is
scanned, or buffered, that is read from a value that has been kept whole.  The two differ where a
reader does not look at everything: a streamed reader still meets the defects of the text that
follows, a buffered one knows that there are none.

This module has the readers for single values, lists and maps, and the combinators for optional
and buffered values and for alternatives.  Records, keywords and tagged nodes have modules of their
own.
-/

namespace SolidityDocs.Json

/-- Where a value is read from: from the text while it is scanned, or from a value kept whole. -/
inductive Source
  | streamed
  | buffered
  deriving DecidableEq, Repr

/-- Reads a tree into a type. -/
abbrev Reader (α : Type) := Source → Tree → Except ReadError α

/-- Fails with a defect of the text, if there is one. -/
def check : Option SyntaxError → Except ReadError Unit
  | none => .ok ()
  | some e => .error (.text e)

@[simp] theorem check_none : check none = .ok () := rfl

@[simp] theorem check_some (e : SyntaxError) : check (some e) = .error (.text e) := rfl

/-- The text of a key. -/
def readKey : Key → Except ReadError String
  | .ok k => .ok k
  | .error e => .error (.text e)

@[simp] theorem readKey_ok (k : String) : readKey (.ok k) = .ok k := rfl

namespace Reader

variable {α β : Type}

/-- Reads a string. -/
def string : Reader String := fun _ t =>
  match t with
  | .string (.ok s) => .ok s
  | t => .error (t.mismatch .string)

/-- Reads a boolean. -/
def boolean : Reader Bool := fun _ t =>
  match t with
  | .bool b => .ok b
  | t => .error (t.mismatch .boolean)

/-- Reads a natural number below a bound. -/
def natural (expected : Expected) (bound : Nat) : Reader Nat := fun _ t =>
  match t with
  | .number (.ok (.natural n)) =>
    if n < bound then .ok n
    else .error (.data (.invalidValue (.number (.natural n)) expected))
  | .number (.ok (.negative n)) => .error (.data (.invalidValue (.number (.negative n)) expected))
  | t => .error (t.mismatch expected)

/-- Reads a natural number of 32 bits. -/
def word32 : Reader Nat := natural .word32 (Nat.pow 2 32)

/-- Reads a natural number of 64 bits. -/
def word64 : Reader Nat := natural .word64 (Nat.pow 2 64)

/-- Reads a value or `null`. -/
def option (r : Reader α) : Reader (Option α) := fun s t =>
  match t with
  | .null => .ok none
  | t => (r s t).map some

/-- Reads a list. -/
def list (r : Reader α) : Reader (List α) := fun s t =>
  match t with
  | .list items ending => do
    let values ← items.mapM (r s)
    check (ending.error? .kept)
    return values
  | t => .error (t.mismatch .list)

/-- Reads an entry of a map. -/
def entry (r : Reader α) (s : Source) (e : Key × Tree) : Except ReadError (String × α) := do
  let k ← readKey e.1
  let v ← r s e.2
  return (k, v)

/-- Reads an object as a map; a key that occurs again keeps its place with the last value. -/
def map (r : Reader α) : Reader (OrderedMap String α) := fun s t =>
  match t with
  | .object entries ending => do
    let es ← entries.mapM (entry r s)
    check (ending.error? .kept)
    return .ofList es
  | t => .error (t.mismatch .map)

/-- Keeps the value whole before it is read. -/
def buffer (r : Reader α) : Reader α := fun _ t => do
  check (t.fault? .kept)
  r .buffered t

/-- The result of the first reader that accepts the value. -/
def firstOf (name : String) (readers : List (Reader α)) : Reader α := buffer fun s t =>
  match readers.findSome? fun r => (r s t).toOption with
  | some a => .ok a
  | none => .error (.data (.noAlternative name))

/-- Reads a whole text; only blanks may follow the value. -/
def parse (r : Reader α) (text : String) : Except ReadError α := do
  let scanned := Tree.scan text.toList
  let a ← r .streamed scanned.1
  if scanned.2.all Token.isBlank then return a else .error (.text .trailingCharacters)

end Reader

end SolidityDocs.Json
