import SolidityDocs.Ast.Reader
import SolidityDocs.Ast.Writer
import SolidityDocs.Entry.Writer

/-!
# Compiler artifacts

A compilation leaves two artifacts: the compiler's input, which has the text of each source, and its
output, which has the syntax tree of each source.  Both hold their sources by path, in order.

An artifact is read from its JSON text.  It may be malformed, or it may lack its `sources`; these
are the only errors, and the second is found only when the whole text has been read.
-/

namespace SolidityDocs

open Json (Reader Record Field Value ReadError)

/-- The two artifacts of a compilation. -/
inductive Artifact
  | input
  | output
  deriving DecidableEq, Repr

/-- The name of an artifact in messages. -/
def Artifact.label : Artifact → String
  | input => "solc input"
  | output => "solc output"

/-- Why an artifact cannot be used: its text does not decode, or it has no `sources`. -/
inductive ArtifactError
  | malformed (artifact : Artifact) (e : ReadError)
  | missingSources (artifact : Artifact)

/-- The wording of an error about an artifact. -/
def ArtifactError.message : ArtifactError → String
  | malformed artifact e => "malformed " ++ artifact.label ++ ": " ++ e.message
  | missingSources artifact =>
    artifact.label ++ " has no `sources` object; was it produced by a compatible solc version?"

/-! ## The input -/

/-- The text of a source as the input carries it: alone, or in an object that may lack it. -/
inductive SourceText
  | plain (text : String)
  | wrapped (content : Option String)
  deriving DecidableEq, Repr

namespace SourceText

/-- The text, if the input carries it. -/
def text? : SourceText → Option String
  | plain text => some text
  | wrapped content => content

/-- The fields of the object form. -/
def contentRecord : Record SourceText where
  name := "SourceText"
  fields := [.optional "content" (.option .string) fun v _ => .wrapped v]
  blank := .wrapped none

/-- Reads either form. -/
def read : Reader SourceText :=
  .firstOf "SourceText"
    [fun s t => (Reader.string s t).map .plain, contentRecord.readObjectOnly]

/-- The text of a source as a JSON value. -/
def toJson : SourceText → Value
  | plain text => .string text
  | wrapped content => .object [("content", .ofOption .string content)]

end SourceText

/-- The compiler's input: the texts of the sources by path. -/
structure CompilerInput where
  sources : Option (OrderedMap String SourceText)

namespace CompilerInput

/-- The fields of the input. -/
def record : Record CompilerInput where
  name := "SolcInput"
  fields := [.optional "sources" (.option (.map SourceText.read)) fun v _ => ⟨v⟩]
  blank := ⟨none⟩

/-- The input as a JSON value. -/
def toJson (i : CompilerInput) : Value :=
  .object [("sources", .ofOption (OrderedMap.toJson SourceText.toJson) i.sources)]

/-- Reads the input from its text, and checks that it has sources. -/
def parse (text : String) : Except ArtifactError CompilerInput :=
  match record.read.parse text with
  | .error e => .error (.malformed .input e)
  | .ok i => if i.sources.isSome then .ok i else .error (.missingSources .input)

end CompilerInput

/-! ## The output -/

/-- What the output has for a source. -/
structure OutputSource where
  id : Option Nat := none
  ast : Option Ast.SourceUnit := none

namespace OutputSource

/-- The fields of a source of the output. -/
def record : Record OutputSource where
  name := "OutputSource"
  fields := [
    .optional "id" (.option .word32) fun v s => { s with id := v },
    .optional "ast" (.option Ast.SourceUnit.record.read) fun v s => { s with ast := v }]
  blank := {}

/-- A source of the output as a JSON value. -/
def toJson (s : OutputSource) : Value :=
  .object [("id", .ofOption .nat s.id), ("ast", .ofOption Ast.SourceUnit.toJson s.ast)]

end OutputSource

/-- The compiler's output: what it has for each source, by path. -/
structure CompilerOutput where
  sources : Option (OrderedMap String OutputSource)

namespace CompilerOutput

/-- The fields of the output. -/
def record : Record CompilerOutput where
  name := "SolcOutput"
  fields := [.optional "sources" (.option (.map OutputSource.record.read)) fun v _ => ⟨v⟩]
  blank := ⟨none⟩

/-- The output as a JSON value. -/
def toJson (o : CompilerOutput) : Value :=
  .object [("sources", .ofOption (OrderedMap.toJson OutputSource.toJson) o.sources)]

/-- Reads the output from its text, and checks that it has sources. -/
def parse (text : String) : Except ArtifactError CompilerOutput :=
  match record.read.parse text with
  | .error e => .error (.malformed .output e)
  | .ok o => if o.sources.isSome then .ok o else .error (.missingSources .output)

end CompilerOutput

end SolidityDocs
