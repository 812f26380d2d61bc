import SolidityDocs.Artifact.Compilation

/-!
# Rosters

A roster lists the definitions of one kind in a compilation, by file and name.  When a file defines
a name twice, the later definition takes the place of the earlier one, with a warning.
-/

namespace SolidityDocs

/-- A definition with the file in which it stands and the lines of that file. -/
structure Collected where
  file : String
  definition : Ast.ContractDefinition
  lines : LineTable

/-- The file and the name of a definition. -/
def Collected.key (c : Collected) : String × String := (c.file, c.definition.name)

/-- The definitions of one kind, by file and name. -/
structure Roster where
  kind : Kind
  contracts : OrderedMap (String × String) Collected

namespace Roster

/-- The definitions of a kind in a file, in order. -/
def inSource (kind : Kind) (f : SourceFile) : List Collected :=
  match f.ast with
  | none => []
  | some u =>
    (u.contracts.filter fun c => c.contractKind = some kind).map fun c => ⟨f.path, c, f.lines⟩

/-- The definitions of a kind in all files, in order. -/
def definitions (c : Compilation) (kind : Kind) : List Collected :=
  c.toList.flatMap (inSource kind)

/-- Adds a definition, with a warning when it replaces another one. -/
def add (kind : Kind) (m : OrderedMap (String × String) Collected) (c : Collected) :
    Logged (OrderedMap (String × String) Collected) := do
  Logged.emitIf (m.contains c.key) (.duplicate c.file c.definition.name kind)
  return m.insert c.key c

/-- Collects the definitions of a kind. -/
def collect (c : Compilation) (kind : Kind) : Logged Roster := do
  let contracts ← Logged.fold (add kind) .empty (definitions c kind)
  Logged.emit (.collected kind contracts.size)
  return ⟨kind, contracts⟩

/-- The definitions in order. -/
def toList (r : Roster) : List Collected := r.contracts.values

/-- The definitions of one file, in order. -/
def inFile (r : Roster) (file : String) : List Collected := r.toList.filter fun c => c.file = file

/-- The definition with a name in a file. -/
def get? (r : Roster) (file name : String) : Option Collected :=
  r.toList.find? fun c => c.file = file ∧ c.definition.name = name

/-- The number of definitions. -/
def size (r : Roster) : Nat := r.contracts.size

/-- Whether there are no definitions. -/
def isEmpty (r : Roster) : Bool := r.contracts.isEmpty

end Roster

end SolidityDocs
