import SolidityDocs.Document.Section
import SolidityDocs.Entry.Reader

/-!
# Documents

A document has an entry for every file of a compilation: its imports, and the documentation of its
contracts, interfaces and libraries.  It is assembled from an empty entry for each file, one section
after the other.
-/

namespace SolidityDocs

open Json (Reader Record Value ReadError)

/-- The documentation of a file: the paths of its imports, and its definitions by kind and name. -/
structure FileEntry where
  imports : List String := []
  contracts : OrderedMap String ContractEntry := .empty
  interfaces : OrderedMap String ContractEntry := .empty
  libraries : OrderedMap String ContractEntry := .empty
  deriving DecidableEq

namespace FileEntry

/-- The part of a file with the entries of a kind. -/
def part (f : FileEntry) : Kind → OrderedMap String ContractEntry
  | .contract => f.contracts
  | .interface => f.interfaces
  | .library => f.libraries

/-- The file with other entries of a kind. -/
def setPart (f : FileEntry) (kind : Kind) (part : OrderedMap String ContractEntry) : FileEntry :=
  match kind with
  | .contract => { f with contracts := part }
  | .interface => { f with interfaces := part }
  | .library => { f with libraries := part }

/-- The fields of a file. -/
def record : Record FileEntry where
  name := "FileDoc"
  fields := [
    .needed "imports" (.list .string) fun v f => { f with imports := v },
    .needed "contracts" (.map ContractEntry.record.read) fun v f => { f with contracts := v },
    .needed "interfaces" (.map ContractEntry.record.read) fun v f => { f with interfaces := v },
    .needed "libraries" (.map ContractEntry.record.read) fun v f => { f with libraries := v }]
  blank := {}

/-- The documentation of a file as a JSON object. -/
def toJson (f : FileEntry) : Value :=
  .object [("imports", .ofList .string f.imports),
    ("contracts", f.contracts.toJson ContractEntry.toJson),
    ("interfaces", f.interfaces.toJson ContractEntry.toJson),
    ("libraries", f.libraries.toJson ContractEntry.toJson)]

end FileEntry

/-- The documentation of a compilation, by path. -/
structure Document where
  files : OrderedMap String FileEntry
  deriving DecidableEq

/-- How much a document holds, in files and in definitions of each kind. -/
structure Stats where
  files : Nat
  contracts : Nat
  interfaces : Nat
  libraries : Nat
  deriving DecidableEq, Repr

namespace Document

/-- The document without files. -/
def empty : Document := ⟨.empty⟩

/-- The number of entries of a kind. -/
def count (d : Document) (kind : Kind) : Nat :=
  d.files.values.foldr (fun f n => (f.part kind).size + n) 0

/-- How much the document holds. -/
def stats (d : Document) : Stats where
  files := d.files.size
  contracts := d.count .contract
  interfaces := d.count .interface
  libraries := d.count .library

/-- The entry of a file. -/
def file? (d : Document) (path : String) : Option FileEntry := d.files.get? path

/-! ## Assembly -/

/-- An empty entry for each file. -/
def skeleton (c : Compilation) : Document := ⟨c.files.mapValues fun _ _ => {}⟩

/-- Changes the entry of a file, which is empty if there is none. -/
def update (d : Document) (path : String) (f : FileEntry → FileEntry) : Document :=
  ⟨d.files.insert path (f ((d.files.get? path).getD {}))⟩

/-- Adds a section. -/
def addSection (d : Document) (s : Section) : Document :=
  s.files.entries.foldl (fun d e =>
    d.update e.1 fun f => f.setPart s.kind ((f.part s.kind).insertAll e.2.entries)) d

/-- The paths that a file imports. -/
def importsOf (u : Ast.SourceUnit) : List String :=
  u.imports.filterMap Ast.ImportDirective.absolutePath

/-- Sets the imports of one file, if it has a syntax tree. -/
def addImportsOf (d : Document) (f : SourceFile) : Logged Document :=
  match f.ast with
  | none => pure d
  | some u => do
    Logged.emit (.importsResolved f.path (importsOf u).length)
    return d.update f.path fun e => { e with imports := importsOf u }

/-- Sets the imports of every file with a syntax tree. -/
def addImports (d : Document) (c : Compilation) : Logged Document :=
  Logged.fold addImportsOf d c.toList

/-- The documentation of a compilation. -/
def ofCompilation (c : Compilation) : Logged Document := do
  let d ← Logged.fold (fun d kind => do
    let s ← Section.extract c kind
    return d.addSection s) (skeleton c) Kind.all
  let d ← d.addImports c
  let n := d.stats
  Logged.emit (.built n.files n.contracts n.interfaces n.libraries)
  return d

/-- The documentation of two artifacts. -/
def build (input : CompilerInput) (output : CompilerOutput) :
    Except ArtifactError (Logged Document) := do
  let c ← Compilation.join input output
  return c >>= ofCompilation

/-- The documentation of the texts of two artifacts; the input is read first. -/
def buildFromTexts (input output : String) : Except ArtifactError (Logged Document) := do
  let i ← CompilerInput.parse input
  let o ← CompilerOutput.parse output
  build i o

/-! ## Text -/

/-- The document as a JSON object. -/
def toJson (d : Document) : Value := d.files.toJson FileEntry.toJson

/-- The text of the document, with so many blanks a level. -/
def render (d : Document) (indent : Nat) : String := d.toJson.pretty indent

/-- Reads a document. -/
def read : Reader Document := fun s t => (Reader.map FileEntry.record.read s t).map .mk

/-- Reads a document from its text. -/
def parse (text : String) : Except ReadError Document := read.parse text

end Document

end SolidityDocs
