import SolidityDocs.Command.Docs
import SolidityDocs.Command.EnvFile
import SolidityDocs.Command.Options

/-!
# The command

A run takes its variables from the environment and from the file `.env`, reads the command line,
loads the settings and writes the document.
-/

namespace SolidityDocs

/-- Why a run fails. -/
inductive CommandError
  | settings (e : SettingsError)
  | docs (e : DocsError)

/-- The wording of an error. -/
def CommandError.message : CommandError → String
  | settings e => e.message
  | docs e => e.message

/-- How a run ends: with a document, in a failure, with a text that was asked for, or with a command
line that makes no sense. -/
inductive Ending
  | finished (w : Written)
  | failed (e : CommandError)
  | text (t : String)
  | misuse

/-- What a run leaves behind besides files: how it ends, whether it keeps a log file, and what
happened while the document was built. -/
structure Outcome where
  ending : Ending
  fileLog : Bool := false
  events : List Event := []

namespace Outcome

/-- The exit code. -/
def exitCode (o : Outcome) : Nat :=
  match o.ending with
  | .finished _ => 0
  | .text _ => 0
  | .failed _ => 1
  | .misuse => 2

/-- The text for the standard output. -/
def output (o : Outcome) : String :=
  match o.ending with
  | .text t => t
  | _ => ""

/-- The message of an error. -/
def message? (o : Outcome) : Option String :=
  match o.ending with
  | .failed e => some e.message
  | _ => none

end Outcome

namespace Command

variable {m : Type → Type} [Monad m]

/-- The name and the version of the program. -/
def versionText : String := "astdoc 0.0.2\n"

/-- A line of the overview. -/
def helpLine (usage : String) (meaning : String) : String :=
  "  " ++ usage ++ String.ofList (List.replicate (33 - usage.length) ' ') ++ meaning ++ "\n"

/-- What an option says about its variable. -/
def variableNote (lookup : String → Option String) (n : OptionName) : String :=
  match n.variableName? with
  | none => ""
  | some v => " [env: " ++ v ++ "=" ++ (lookup v).getD "" ++ "]"

/-- The overview of the options. -/
def helpText (lookup : String → Option String) : String :=
  "AstDoc - Extracts a documentation model from Solidity compiler artifacts\n\n" ++
    "Usage: astdoc [OPTIONS]\n\nOptions:\n" ++
    helpLine "    --cache-dir <CACHE_DIR>"
      ("Directory holding solc-input.json and solc-output.json" ++
        variableNote lookup .cacheDir) ++
    helpLine "    --ast-doc-dir <AST_DOC_DIR>"
      ("Directory the document is written to" ++ variableNote lookup .docDir) ++
    helpLine "    --output-name <OUTPUT_NAME>" "File name of the written document" ++
    helpLine "    --config <CONFIG>" "Config file (default: ./astdoc.toml, then ~/.astdoc.toml)" ++
    helpLine "    --no-file-log" "Only log to the console" ++
    helpLine "-h, --help" "Print help" ++
    helpLine "-V, --version" "Print version"

/-- The name of the environment file. -/
def envFileName : String := ".env"

/-- The assignments of the environment file. -/
def envAssignments (fs : FileSystem m) : m (List EnvFile.Assignment) := do
  return ((← fs.read envFileName).map EnvFile.parse).getD []

/-- The home directory. -/
def homeOf (vars : EnvFile.Variables) : Option String :=
  (vars.lookup "HOME").filter fun home => home ≠ ""

/-- A run with options. -/
def runWith (fs : FileSystem m) (vars : EnvFile.Variables) (o : Options) : m Outcome := do
  match ← (Settings.load fs (homeOf vars) (o.get? .config)).run with
  | .error e => return { ending := .failed (.settings e), fileLog := o.fileLog }
  | .ok s =>
    let result ← Docs.run fs (o.override s)
    let ending : Ending :=
      match result.value with
      | .ok w => .finished w
      | .error e => .failed (.docs e)
    return { ending := ending, fileLog := o.fileLog, events := result.events }

/-- A run with arguments, in an environment that has the variables of the environment file. -/
def run (fs : FileSystem m) (vars : EnvFile.Variables) (arguments : List String) : m Outcome := do
  let lookup (name : String) : Option String := vars.lookup name
  match Request.ofArguments lookup arguments with
  | .misuse => return { ending := .misuse }
  | .version => return { ending := .text versionText }
  | .help => return { ending := .text (helpText lookup) }
  | .run o => runWith fs vars o

/-- A run with arguments, in an environment that lacks the variables of the environment file. -/
def start (fs : FileSystem m) (vars : EnvFile.Variables) (arguments : List String) :
    m Outcome := do
  let as ← envAssignments fs
  run fs (EnvFile.apply vars as) arguments

end Command

end SolidityDocs
