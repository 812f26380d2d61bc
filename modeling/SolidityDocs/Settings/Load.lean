import SolidityDocs.Files.Basic
import SolidityDocs.Settings.Format
import SolidityDocs.Text.Quoted

/-!
# Settings files

The settings come from the file that is asked for, else from `astdoc.toml` in the working directory,
else from `.astdoc.toml` in the home directory; without any of these the defaults apply.
-/

namespace SolidityDocs

/-- Why settings cannot be loaded or saved.  The file that was asked for is not there or cannot be
read, its text does not describe settings, settings have no text, or the file cannot be written. -/
inductive SettingsError
  | notFound (path : String)
  | unreadable (path : String)
  | malformed (path : String)
  | unwritable
  | notSaved (path : String)
  deriving DecidableEq, Repr

/-- The wording of an error about settings. -/
def SettingsError.message : SettingsError → String
  | notFound path => "Config file not found: " ++ path
  | unreadable path => "Failed to read config file: " ++ Text.quoted .both path
  | malformed path => "Failed to parse config file as TOML: " ++ Text.quoted .both path
  | unwritable => "Failed to serialize config to TOML"
  | notSaved path => "Failed to write config file: " ++ Text.quoted .both path

namespace Settings

variable {m : Type → Type} [Monad m]

/-- The name of the settings file in the working directory. -/
def localName : String := "astdoc.toml"

/-- The name of the settings file in the home directory. -/
def userName : String := ".astdoc.toml"

/-- The settings file that applies, if there is one. -/
def locate (fs : FileSystem m) (home explicit : Option String) :
    ExceptT SettingsError m (Option String) := do
  match explicit with
  | some path =>
    if ← fs.isPresent path then return some path else throw (.notFound path)
  | none =>
    if ← fs.isPresent localName then return some localName
    match home with
    | none => return none
    | some home =>
      let path := joinPath home userName
      if ← fs.isPresent path then return some path else return none

/-- The settings in a file. -/
def loadFrom (fs : FileSystem m) (path : String) : ExceptT SettingsError m Settings := do
  match ← fs.read path with
  | none => throw (.unreadable path)
  | some text =>
    match Settings.parse text with
    | none => throw (.malformed path)
    | some s => return s

/-- The settings that apply. -/
def load (fs : FileSystem m) (home explicit : Option String) :
    ExceptT SettingsError m Settings := do
  match ← locate fs home explicit with
  | none => return {}
  | some path => loadFrom fs path

/-- Writes settings to a file. -/
def save (fs : FileSystem m) (s : Settings) (path : String) : ExceptT SettingsError m Unit := do
  match s.write with
  | none => throw .unwritable
  | some text => unless ← fs.write path text do throw (.notSaved path)

end Settings

end SolidityDocs
