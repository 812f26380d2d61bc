import SolidityDocs.Settings.Basic
import SolidityDocs.Toml.Document
import SolidityDocs.Toml.Writer

/-!
# The text of settings

Settings are kept as TOML, in two groups: `paths` and `output`.  A text sets what it mentions; the
rest keeps its default.  A group is a table, or a list of its values in order.
-/

namespace SolidityDocs.Settings

open Toml (Value)

/-- Reads one setting of a group; `set` fails on a value of another type. -/
structure Setting where
  key : String
  set : Value → Settings → Option Settings

/-- A setting that is a string. -/
def textSetting (key : String) (set : String → Settings → Settings) : Setting where
  key := key
  set := fun v s =>
    match v with
    | .string t => some (set t s)
    | _ => none

/-- A setting that is a natural number below `2 ^ 64`. -/
def numberSetting (key : String) (set : Nat → Settings → Settings) : Setting where
  key := key
  set := fun v s =>
    match v with
    | .integer (.ofNat n) => if n < Nat.pow 2 64 then some (set n s) else none
    | _ => none

/-- The settings of `paths`, in order. -/
def pathSettings : List Setting :=
  [textSetting "cache" fun t s => { s with cache := t },
    textSetting "input_file" fun t s => { s with inputFile := t },
    textSetting "output_file" fun t s => { s with outputFile := t }]

/-- The settings of `output`, in order. -/
def outputSettings : List Setting :=
  [textSetting "dir" fun t s => { s with dir := t },
    textSetting "file" fun t s => { s with file := t },
    numberSetting "indent" fun n s => { s with indent := n }]

/-- Takes over one entry of a group.  What has no meaning is ignored, but its numbers have to be in
range. -/
def setEntry (group : List Setting) (s : Settings) (e : String × Value) : Option Settings :=
  match group.find? fun g => g.key = e.1 with
  | some g => g.set e.2 s
  | none => if e.2.inRange then some s else none

/-- Takes over values in order; values beyond the settings of the group are ignored. -/
def setItems (s : Settings) : List Setting → List Value → Option Settings
  | g :: group, v :: vs => do setItems (← g.set v s) group vs
  | _, _ => some s

/-- Takes over a group. -/
def setGroup (group : List Setting) (s : Settings) : Value → Option Settings
  | .table entries => entries.foldlM (setEntry group) s
  | .list items => setItems s group items
  | .dateTime => some s
  | _ => none

/-- Takes over one entry of the text. -/
def setTop (s : Settings) (e : String × Value) : Option Settings :=
  if e.1 = "paths" then setGroup pathSettings s e.2
  else if e.1 = "output" then setGroup outputSettings s e.2
  else if e.2.inRange then some s
  else none

/-- Reads settings from their text. -/
def parse (text : String) : Option Settings := do
  let entries ← Toml.parse text
  entries.foldlM setTop {}

/-! ## Writing -/

/-- One line of the text. -/
def line (key value : String) : String := key ++ " = " ++ value ++ "\n"

/-- The text of settings, if their numbers fit a signed 64-bit integer. -/
def write (s : Settings) : Option String :=
  if s.indent < Nat.pow 2 63 then
    some ("[paths]\n" ++ line "cache" (Toml.writeString s.cache) ++
      line "input_file" (Toml.writeString s.inputFile) ++
      line "output_file" (Toml.writeString s.outputFile) ++ "\n[output]\n" ++
      line "dir" (Toml.writeString s.dir) ++ line "file" (Toml.writeString s.file) ++
      line "indent" (toString s.indent))
  else none

end SolidityDocs.Settings
