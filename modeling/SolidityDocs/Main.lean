import SolidityDocs.Command.Run

/-!
# The program

Carries out a run on real files, and prints what it leaves behind.
-/

namespace SolidityDocs.Program

/-- Whether an action goes well. -/
def succeeds (action : IO Unit) : IO Bool := do
  try
    action
    return true
  catch _ => return false

/-- The operations on real files. -/
def files : FileSystem IO where
  isPresent path := succeeds (discard (IO.FS.realPath path))
  read path := do
    try
      return some (← IO.FS.readFile path)
    catch _ => return none
  createDirs path := if path.isEmpty then return true else succeeds (IO.FS.createDirAll path)
  write path content := succeeds (IO.FS.writeFile path content)

/-- The variables that a run may ask for. -/
def knownVariables (as : List EnvFile.Assignment) : IO EnvFile.Variables := do
  let names := "HOME" :: OptionName.all.filterMap OptionName.variableName? ++ EnvFile.mentioned as
  let values ← names.mapM fun name => do return (← IO.getEnv name).map fun value => (name, value)
  return values.filterMap id

/-- The directory of the log files. -/
def logDir : IO String := do
  let temp := (← IO.getEnv "TMPDIR").getD "/tmp"
  return joinPath temp "astdoc-logs/astdoc"

/-- Whether the console shows an event. -/
def isShown (e : Event) : Bool := e.level = .info || e.level = .warn

/-- Prints what a run leaves behind. -/
def report (o : Outcome) : IO Unit := do
  IO.print o.output
  for e in o.events do
    if isShown e then IO.eprintln e.line
  match o.ending with
  | .failed e => IO.eprintln ("Error: " ++ e.message)
  | .misuse => IO.eprintln "error: invalid arguments\n\nFor more information, try '--help'."
  | _ => return

/-- A run on real files. -/
def run (arguments : List String) : IO UInt32 := do
  let as ← Command.envAssignments files
  let vars ← knownVariables as
  let outcome ← Command.run files (EnvFile.apply vars as) arguments
  if outcome.fileLog then discard (files.createDirs (← logDir))
  report outcome
  return outcome.exitCode.toUInt32

end SolidityDocs.Program

def main (arguments : List String) : IO UInt32 := SolidityDocs.Program.run arguments
