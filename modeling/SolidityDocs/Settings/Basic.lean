import SolidityDocs.Files.Basic

/-!
# Settings

The settings say where the artifacts of a compilation are read from, and where and how the document
is written.
-/

namespace SolidityDocs

/-- The settings of a run: the directory of the artifacts and their names in it, the directory of
the document and its name in it, and the number of blanks a level in the document. -/
structure Settings where
  cache : String := "cache"
  inputFile : String := "solc-input.json"
  outputFile : String := "solc-output.json"
  dir : String := "ast-docs"
  file : String := "ast-docs.json"
  indent : Nat := 4
  deriving DecidableEq, Repr

namespace Settings

/-- The path of the compiler's input. -/
def inputPath (s : Settings) : String := joinPath s.cache s.inputFile

/-- The path of the compiler's output. -/
def outputPath (s : Settings) : String := joinPath s.cache s.outputFile

/-- The path of the document. -/
def documentPath (s : Settings) : String := joinPath s.dir s.file

end Settings

end SolidityDocs
