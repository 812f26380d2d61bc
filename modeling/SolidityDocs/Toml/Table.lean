import SolidityDocs.Map.Ordered
import SolidityDocs.Toml.Value

/-!
# Tables under construction

A TOML text builds its tables piece by piece, and the rules on what may be extended depend on how a
table came about.  A header `[a.b]` defines `a.b` once; tables that it merely passes through may be
defined later.  A dotted key `a.b = 1` creates `a` for dotted keys alone.  A table written as a
value is complete.
-/

namespace SolidityDocs.Toml

/-- How a table came about: by a header or the start of the text, because the header of another
table passes through it, or because a dotted key does. -/
inductive Origin
  | header
  | implied
  | dotted
  deriving DecidableEq, Repr

/-- What stands under a key of a table under construction.  In a list of tables, the last one is
under construction. -/
inductive Node
  | value (v : Value)
  | table (origin : Origin) (entries : List (String × Node))
  | tables (earlier : List (List (String × Node))) (last : List (String × Node))

namespace Node

mutual

/-- The value that has been built. -/
def toValue : Node → Value
  | value v => v
  | table _ entries => .table (entriesValue entries)
  | tables earlier last => .list (itemsValue earlier ++ [.table (entriesValue last)])

/-- The values of a table that has been built. -/
def entriesValue : List (String × Node) → List (String × Value)
  | [] => []
  | (k, n) :: es => (k, toValue n) :: entriesValue es

/-- The tables of a list that has been built. -/
def itemsValue : List (List (String × Node)) → List Value
  | [] => []
  | es :: rest => .table (entriesValue es) :: itemsValue rest

end

end Node

/-- The entries of a table under construction. -/
abbrev Entries := List (String × Node)

/-- A dotted key, or the name of a table: the tables it passes through, and the last key. -/
structure KeyPath where
  through : List String
  key : String
  deriving DecidableEq, Repr

/-- All keys of a path. -/
def KeyPath.toList (p : KeyPath) : List String := p.through ++ [p.key]

/-- Sets the value of a key. -/
def setEntry (k : String) (n : Node) : Entries → Entries
  | [] => [(k, n)]
  | e :: es => if e.1 = k then (k, n) :: es else e :: setEntry k n es

/-- Whether a dotted key may pass through a table. -/
def Origin.isOpen : Origin → Bool
  | header => false
  | implied => true
  | dotted => true

/-- Changes the table at the end of a way, and creates the tables on the way that are missing.
Dotted keys pass through tables that no header defines; headers pass through any table, and through
a list of tables into its last one. -/
def changeAt (dotted : Bool) (change : Origin → Entries → Option Entries) :
    List String → Origin → Entries → Option Entries
  | [], origin, es => change origin es
  | k :: way, _, es =>
    match es.lookup k with
    | none =>
      let origin : Origin := if dotted then .dotted else .implied
      (changeAt dotted change way origin []).map fun sub => setEntry k (.table origin sub) es
    | some (.table origin sub) =>
      if dotted && !origin.isOpen then none
      else
        (changeAt dotted change way origin sub).map fun sub => setEntry k (.table origin sub) es
    | some (.tables earlier last) =>
      (changeAt dotted change way .header last).map fun last =>
        setEntry k (.tables earlier last) es
    | some (.value _) => none

/-- Gives a new key of a table a value. -/
def assign (p : KeyPath) (v : Value) (es : Entries) : Option Entries :=
  let isDotted := !p.through.isEmpty
  changeAt isDotted (fun origin es =>
    if (origin == .dotted) == isDotted && (es.lookup p.key).isNone then
      some (setEntry p.key (.value v) es)
    else none) p.through .header es

/-- Defines the table of a header. -/
def define (p : KeyPath) (es : Entries) : Option Entries :=
  changeAt false (fun _ es =>
    match es.lookup p.key with
    | none => some (setEntry p.key (.table .header []) es)
    | some (.table .implied sub) => some (setEntry p.key (.table .header sub) es)
    | some _ => none) p.through .header es

/-- Adds a table to the list of a header. -/
def extend (p : KeyPath) (es : Entries) : Option Entries :=
  changeAt false (fun _ es =>
    match es.lookup p.key with
    | none => some (setEntry p.key (.tables [] []) es)
    | some (.tables earlier last) => some (setEntry p.key (.tables (earlier ++ [last]) []) es)
    | some _ => none) p.through .header es

end SolidityDocs.Toml
