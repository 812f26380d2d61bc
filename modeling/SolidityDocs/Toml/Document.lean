import SolidityDocs.Toml.Quoted
import SolidityDocs.Toml.Scalar
import SolidityDocs.Toml.Table

/-!
# TOML documents

A document is a sequence of statements, one a line: a key with its value, or the header of the table
to which the following keys belong.  The statements are read first and then carried out in order.

Values nest in lists and in tables, eighty levels deep at most.
-/

namespace SolidityDocs.Toml

/-! ## Keys -/

/-- Whether a character may stand in a key without quotes. -/
def isKeyChar (c : Char) : Bool := c.isAlphanum || c = '_' || c = '-'

/-- A key without dots. -/
def simpleKey : Scan String
  | [] => none
  | c :: cs =>
    if isKeyChar c then
      some (String.ofList (c :: cs.takeWhile isKeyChar), cs.dropWhile isKeyChar)
    else lineString (c :: cs)

/-- A key with so many dots at most, and the spaces after it. -/
def dottedKey : Nat → Scan KeyPath
  | 0, cs => do
    let (k, cs) ← simpleKey cs
    return (⟨[], k⟩, skipSpace cs)
  | dots + 1, cs => do
    let (k, cs) ← simpleKey cs
    match skipSpace cs with
    | '.' :: cs =>
      let (p, cs) ← dottedKey dots (skipSpace cs)
      return (⟨k :: p.through, p.key⟩, cs)
    | cs => return (⟨[], k⟩, cs)

/-- A key, and the spaces after it. -/
def keyPath : Scan KeyPath := fun cs => dottedKey cs.length cs

/-! ## Values -/

/-- The items of a list up to the closing bracket, so many at most. -/
def listItems (item : Scan Value) : Nat → Scan (List Value)
  | 0, _ => none
  | n + 1, cs =>
    match skipGap false cs with
    | ']' :: cs => some ([], cs)
    | cs => do
      let (v, cs) ← item cs
      match skipGap false cs with
      | ',' :: cs =>
        let (vs, cs) ← listItems item n cs
        return (v :: vs, cs)
      | ']' :: cs => return ([v], cs)
      | _ => none

/-- A key with its value. -/
def keyValue (item : Scan Value) : Scan (KeyPath × Value) := fun cs => do
  let (p, cs) ← keyPath cs
  match cs with
  | '=' :: cs =>
    let (v, cs) ← item (skipSpace cs)
    return ((p, v), cs)
  | _ => none

/-- The entries of a table up to the closing brace, so many at most. -/
def tableEntries (item : Scan Value) : Nat → Entries → Scan Entries
  | 0, _, _ => none
  | n + 1, es, cs =>
    match skipGap false cs with
    | '\x7d' :: cs => some (es, cs)
    | cs => do
      let ((p, v), cs) ← keyValue item cs
      let es ← assign p v es
      match skipGap false cs with
      | ',' :: cs => tableEntries item n es cs
      | '\x7d' :: cs => return (es, cs)
      | _ => none

/-- A value without parts. -/
def flatValue : Scan Value
  | [] => none
  | c :: cs =>
    if c = '"' || c = Text.apostrophe then
      (anyString (c :: cs)).map fun (s, rest) => (.string s, rest)
    else scalar (c :: cs)

/-- A value with so many levels of lists and tables at most. -/
def valueWithin : Nat → Scan Value
  | 0, cs => flatValue cs
  | depth + 1, cs =>
    match cs with
    | '[' :: cs =>
      (listItems (valueWithin depth) (cs.length + 1) cs).map fun (vs, rest) => (.list vs, rest)
    | '\x7b' :: cs =>
      (tableEntries (valueWithin depth) (cs.length + 1) [] cs).map fun (es, rest) =>
        (.table (Node.entriesValue es), rest)
    | cs => flatValue cs

/-- How many levels of lists and tables a value has at most. -/
def maxDepth : Nat := 80

/-- A value. -/
def value : Scan Value := valueWithin maxDepth

/-! ## Statements -/

/-- A statement of a document: it gives a key a value, or starts a table, or a table of a list. -/
inductive Statement
  | entry (p : KeyPath) (v : Value)
  | table (p : KeyPath)
  | item (p : KeyPath)

/-- The name of a table up to the closing bracket. -/
def headerName (cs : List Char) : Option (KeyPath × List Char) := do
  let (p, cs) ← keyPath (skipSpace cs)
  match cs with
  | ']' :: cs => return (p, cs)
  | _ => none

/-- The statement of a line, if it has one. -/
def statement : Scan (Option Statement) := fun cs =>
  match skipSpace cs with
  | [] => some (none, [])
  | '[' :: '[' :: cs => do
    let (p, cs) ← headerName cs
    match cs with
    | ']' :: cs => return (some (.item p), cs)
    | _ => none
  | '[' :: cs => do
    let (p, cs) ← headerName cs
    return (some (.table p), cs)
  | c :: cs =>
    if c = '#' || c = '\n' || c = '\r' then some (none, c :: cs)
    else (keyValue value (c :: cs)).map fun ((p, v), rest) => (some (.entry p v), rest)

/-- The statements of so many lines at most. -/
def statements : Nat → List Char → Option (List Statement)
  | _, [] => some []
  | 0, _ :: _ => none
  | n + 1, c :: cs => do
    let (s, rest) ← statement (c :: cs)
    let rest ← lineEnd rest
    let ss ← statements n rest
    return s.toList ++ ss

/-! ## Documents -/

/-- A document under construction: the entries so far, and the name of the table to which the next
key belongs. -/
structure Draft where
  root : Entries := []
  current : List String := []

/-- Carries out a statement. -/
def Draft.run (d : Draft) : Statement → Option Draft
  | .entry p v => do
    let root ← changeAt false (fun _ es => assign p v es) d.current .header d.root
    return { d with root }
  | .table p => do
    let root ← define p d.root
    return ⟨root, p.toList⟩
  | .item p => do
    let root ← extend p d.root
    return ⟨root, p.toList⟩

/-- The entries of a document. -/
def parse (text : String) : Option (List (String × Value)) := do
  let cs := Text.skipMark text.toList
  let ss ← statements cs.length cs
  let d ← ss.foldlM Draft.run {}
  return Node.entriesValue d.root

end SolidityDocs.Toml
