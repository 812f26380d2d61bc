import SolidityDocs.Document.Grouping

/-!
# Sections

A section holds the documentation of one kind: by file and name, in the order of the roster, with
the entry of each definition that has declarations.
-/

namespace SolidityDocs

/-- The documentation of one kind, by file and name. -/
structure Section where
  kind : Kind
  files : OrderedMap String (OrderedMap String ContractEntry)

namespace Section

/-- Adds the entry of a definition, if the grouping still has its declarations, and takes them out
of the grouping. -/
def add (s : OrderedMap String (OrderedMap String ContractEntry) × Grouping) (c : Collected) :
    OrderedMap String (OrderedMap String ContractEntry) × Grouping :=
  let (files, g) := s
  match g.take c.file c.definition.name with
  | (none, g) => (files, g)
  | (some d, g) =>
    let entries := (files.get? c.file).getD .empty
    let entry := d.withInherits c.definition.baseNames
    (files.insert c.file (entries.insert c.definition.name entry), g)

/-- Joins the definitions of a roster with their declarations. -/
def build (r : Roster) (g : Grouping) : Section :=
  ⟨r.kind, (r.toList.foldl add (.empty, g)).1⟩

/-- The number of entries. -/
def size (s : Section) : Nat := s.files.values.foldr (fun m n => m.size + n) 0

/-- Whether there are no entries. -/
def isEmpty (s : Section) : Bool := s.files.isEmpty

/-- Documents the definitions of a kind. -/
def extract (c : Compilation) (kind : Kind) : Logged Section := do
  let r ← Roster.collect c kind
  let g ← Grouping.aggregate r
  let s := build r g
  Logged.emit (.extracted kind s.size r.size)
  return s

end Section

end SolidityDocs
