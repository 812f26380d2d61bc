import SolidityDocs.Document.Basic
import SolidityDocs.Settings.Load

/-!
# Writing the document

Reads both artifacts, builds the document and writes it where the settings say.  Nothing is created
or written before the document is complete.
-/

namespace SolidityDocs

/-- Why no document has been written: an artifact is not there or cannot be read, the artifacts of a
directory do not make a document, the directory of the document cannot be created, or the document
cannot be written. -/
inductive DocsError
  | missing (path : String)
  | unreadable (path : String)
  | rejected (cache : String) (cause : ArtifactError)
  | noDirectory (dir : String)
  | notWritten (path : String)

namespace DocsError

/-- The wording of an error. -/
def message : DocsError → String
  | missing path => "Compiler artifact not found: " ++ path
  | unreadable path => "Failed to read " ++ path
  | rejected cache _ => "Failed to process artifacts in " ++ cache
  | noDirectory dir => "Failed to create " ++ dir
  | notWritten path => "Failed to write " ++ path

/-- What is wrong with an artifact, if that is the reason. -/
def cause? : DocsError → Option ArtifactError
  | rejected _ cause => some cause
  | _ => none

end DocsError

/-- Where a document has been written, and how much it holds. -/
structure Written where
  path : String
  stats : Stats
  deriving DecidableEq, Repr

namespace Docs

variable {m : Type → Type} [Monad m]

/-- The text of an artifact. -/
def readArtifact (fs : FileSystem m) (path : String) : ExceptT DocsError m String := do
  unless ← fs.isPresent path do throw (.missing path)
  match ← fs.read path with
  | none => throw (.unreadable path)
  | some text => return text

/-- The document of the artifacts. -/
def compose (fs : FileSystem m) (s : Settings) : ExceptT DocsError m (Logged Document) := do
  let input ← readArtifact fs s.inputPath
  let output ← readArtifact fs s.outputPath
  match Document.buildFromTexts input output with
  | .error e => throw (.rejected s.cache e)
  | .ok d => return d

/-- Writes a document. -/
def publish (fs : FileSystem m) (s : Settings) (d : Document) : ExceptT DocsError m Written := do
  unless ← fs.createDirs s.dir do throw (.noDirectory s.dir)
  unless ← fs.write s.documentPath (d.render s.indent) do throw (.notWritten s.documentPath)
  return ⟨s.documentPath, d.stats⟩

/-- Builds and writes the document, and tells what happened while it was built. -/
def run (fs : FileSystem m) (s : Settings) : m (Logged (Except DocsError Written)) := do
  match ← (compose fs s).run with
  | .error e => return ⟨.error e, []⟩
  | .ok d => return ⟨← (publish fs s d.value).run, d.events⟩

end Docs

end SolidityDocs
