import SolidityDocs.Json.Value
import SolidityDocs.Line.Offset

/-!
# Line numbers

The line of a byte offset is one more than the number of newline bytes before it; an offset past the
end of the text counts as its end.  `scanLine` counts the newlines in the text each time.  A
`LineTable` lists the positions of all newlines once, and then finds the line of an offset by
bisection.
-/

namespace SolidityDocs

/-- The bytes of a text. -/
def textBytes (text : String) : List UInt8 := text.toUTF8.data.toList

/-- The newline byte. -/
def newline : UInt8 := 10

/-- The line of a descriptor in a text, counted from one.  No descriptor has line zero. -/
def scanLine (text : String) : Option String → Nat
  | none => 0
  | some descriptor => 1 + ((textBytes text).take (startOffset descriptor)).count newline

/-- The byte positions of the newlines of a text, in order, and the number of its bytes. -/
structure LineTable where
  newlines : Array Nat
  length : Nat
  deriving DecidableEq, Repr

namespace LineTable

/-- The positions of the newlines in a list of bytes, the first of which has the given position. -/
def positions (start : Nat) : List UInt8 → List Nat
  | [] => []
  | b :: bs => if b = newline then start :: positions (start + 1) bs else positions (start + 1) bs

/-- The table of a text. -/
def ofText (text : String) : LineTable :=
  let bytes := textBytes text
  ⟨(positions 0 bytes).toArray, bytes.length⟩

/-- The first index from `lo` up to `hi` whose entry is not below `x`, in an increasing array. -/
def bisect (a : Array Nat) (x lo hi : Nat) : Nat :=
  if lo < hi then
    let mid := (lo + hi) / 2
    if a.getD mid 0 < x then bisect a x (mid + 1) hi else bisect a x lo mid
  else lo
termination_by hi - lo

/-- The line of a byte offset. -/
def lineAt (t : LineTable) (start : Nat) : Nat :=
  1 + bisect t.newlines (min start t.length) 0 t.newlines.size

/-- The line of a descriptor.  No descriptor has line zero. -/
def lineOf (t : LineTable) : Option String → Nat
  | none => 0
  | some descriptor => t.lineAt (startOffset descriptor)

/-- The number of lines. -/
def lineCount (t : LineTable) : Nat := t.newlines.size + 1

/-- The table as a JSON value. -/
def toJson (t : LineTable) : Json.Value :=
  .object [("newlines", .ofList .nat t.newlines.toList), ("len", .nat t.length)]

end LineTable

end SolidityDocs
