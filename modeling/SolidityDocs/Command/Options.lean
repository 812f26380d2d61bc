import SolidityDocs.Settings.Basic

/-!
# The command line

Options are read from left to right.  An option with a value stays open until the next option or the
end of the line; only then is it checked, so a call for help or for the version that comes earlier
is heard, and one that comes later is not.
-/

namespace SolidityDocs

/-- The options that take a value. -/
inductive OptionName
  | cacheDir
  | docDir
  | outputName
  | config
  deriving DecidableEq, Repr

namespace OptionName

/-- All options that take a value. -/
def all : List OptionName := [cacheDir, docDir, outputName, config]

/-- The name of an option on the command line. -/
def name : OptionName → String
  | cacheDir => "cache-dir"
  | docDir => "ast-doc-dir"
  | outputName => "output-name"
  | config => "config"

/-- The environment variable that stands in for an option. -/
def variableName? : OptionName → Option String
  | cacheDir => some "ASTDOC_CACHE_DIR"
  | docDir => some "ASTDOC_DIR"
  | outputName => none
  | config => none

/-- Whether a value makes sense: a path is not empty. -/
def accepts : OptionName → String → Bool
  | outputName, _ => true
  | _, value => value ≠ ""

end OptionName

/-- What the command line and the environment ask for: the values of options, and whether events are
logged to a file. -/
structure Options where
  values : List (OptionName × String) := []
  fileLog : Bool := true
  deriving DecidableEq, Repr

namespace Options

/-- The value of an option. -/
def get? (o : Options) (n : OptionName) : Option String := o.values.lookup n

/-- Gives an option a value, which it may have only once. -/
def set (o : Options) (n : OptionName) (value : String) : Option Options :=
  if (o.get? n).isSome || !n.accepts value then none
  else some { o with values := (n, value) :: o.values }

/-- Takes the value of an option from the environment if the command line has none. -/
def fill (lookup : String → Option String) (o : Options) (n : OptionName) : Option Options :=
  match o.get? n, n.variableName?.bind lookup with
  | none, some value => o.set n value
  | _, _ => some o

/-- Takes the missing values from the environment. -/
def fillAll (lookup : String → Option String) (o : Options) : Option Options :=
  OptionName.all.foldlM (fill lookup) o

/-- The settings with the values of the options. -/
def override (o : Options) (s : Settings) : Settings :=
  { s with
    cache := (o.get? .cacheDir).getD s.cache
    dir := (o.get? .docDir).getD s.dir
    file := (o.get? .outputName).getD s.file }

end Options

/-- What a command line asks for. -/
inductive Request
  | run (o : Options)
  | version
  | help
  | misuse
  deriving DecidableEq, Repr

namespace Request

/-- A command line that has been read in part: the options so far, and the one that is still open,
with its value if it has one. -/
structure Progress where
  options : Options := {}
  pending : Option (OptionName × Option String) := none

/-- Closes the open option. -/
def Progress.settle (p : Progress) : Option Options :=
  match p.pending with
  | none => some p.options
  | some (_, none) => none
  | some (n, some value) => p.options.set n value

/-- The kinds of arguments.  A long option may have a value after an equals sign. -/
inductive Argument
  | separator
  | long (name : String) (value : Option String)
  | short (letter : Char)
  | plain (text : String)

/-- Classifies an argument. -/
def Argument.of (text : String) : Argument :=
  match text.toList with
  | ['-', '-'] => .separator
  | '-' :: '-' :: cs =>
    .long (String.ofList (cs.takeWhile fun c => c ≠ '='))
      ((cs.dropWhile fun c => c ≠ '=').tail?.map String.ofList)
  | '-' :: c :: _ => .short c
  | _ => .plain text

/-- Answers a call for something else than a run, unless the open option is wrong. -/
def Progress.interrupt (p : Progress) (r : Request) : Request :=
  match p.settle with
  | none => .misuse
  | some _ => r

/-- What a command line asks for that ends here. -/
def Progress.finish (p : Progress) : Request :=
  match p.settle with
  | none => .misuse
  | some o => .run o

/-- Reads arguments from left to right. -/
def read (p : Progress) : List String → Request
  | [] => p.finish
  | text :: rest =>
    match Argument.of text with
    | .separator => if rest.isEmpty then p.finish else .misuse
    | .short 'V' => p.interrupt .version
    | .short 'h' => p.interrupt .help
    | .short _ => .misuse
    | .long "version" none => p.interrupt .version
    | .long "help" none => p.interrupt .help
    | .long "no-file-log" none =>
      match p.settle with
      | none => .misuse
      | some o => if o.fileLog then read ⟨{ o with fileLog := false }, none⟩ rest else .misuse
    | .long name value =>
      match OptionName.all.find? fun n => n.name = name, p.settle with
      | some n, some o => read ⟨o, some (n, value)⟩ rest
      | _, _ => .misuse
    | .plain text =>
      match p.pending with
      | some (n, none) => read { p with pending := some (n, some text) } rest
      | _ => .misuse

/-- What a command line asks for, in an environment. -/
def ofArguments (lookup : String → Option String) (arguments : List String) : Request :=
  match read {} arguments with
  | .run o =>
    match o.fillAll lookup with
    | none => .misuse
    | some o => .run o
  | r => r

end Request

end SolidityDocs
