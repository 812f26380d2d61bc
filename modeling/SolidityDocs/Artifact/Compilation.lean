import SolidityDocs.Artifact.Basic
import SolidityDocs.Line.Table
import SolidityDocs.Log

/-!
# Compilations

A compilation joins the two artifacts by path.  The input decides which files there are and in which
order; the output adds their syntax trees.  A file without a text counts as empty.
-/

namespace SolidityDocs

/-- A file of a compilation, with the lines of its text and its syntax tree. -/
structure SourceFile where
  path : String
  lines : LineTable
  ast : Option Ast.SourceUnit

/-- The files of a compilation by path, in the order of the input. -/
structure Compilation where
  files : OrderedMap String SourceFile

namespace Compilation

/-- The syntax tree that the output has for a path. -/
def astOf? (output : OrderedMap String OutputSource) (path : String) : Option Ast.SourceUnit :=
  (output.get? path).bind OutputSource.ast

/-- The file of an entry of the input. -/
def fileOf (output : OrderedMap String OutputSource) (path : String) (source : SourceText) :
    SourceFile where
  path := path
  lines := .ofText (source.text?.getD "")
  ast := astOf? output path

/-- What is missing for an entry of the input. -/
def gaps (output : OrderedMap String OutputSource) (path : String) (source : SourceText) :
    List Event :=
  (if source.text?.isNone then [.noText path] else []) ++
    (if (astOf? output path).isNone then [.noAst path] else [])

/-- Joins the sources of the two artifacts. -/
def ofSources (input : OrderedMap String SourceText) (output : OrderedMap String OutputSource) :
    Logged Compilation where
  value := ⟨input.mapValues (fileOf output)⟩
  events :=
    input.entries.flatMap (fun e => gaps output e.1 e.2) ++
      (output.keys.filter fun path => !input.contains path).map .outputOnly

/-- Joins two artifacts. -/
def join (input : CompilerInput) (output : CompilerOutput) :
    Except ArtifactError (Logged Compilation) :=
  match input.sources, output.sources with
  | none, _ => .error (.missingSources .input)
  | some _, none => .error (.missingSources .output)
  | some i, some o => .ok (ofSources i o)

/-- The files in order. -/
def toList (c : Compilation) : List SourceFile := c.files.values

/-- The file at a path. -/
def get? (c : Compilation) (path : String) : Option SourceFile := c.files.get? path

/-- The paths of the files, in order. -/
def paths (c : Compilation) : List String := c.files.keys

end Compilation

end SolidityDocs
