import SolidityDocs.Entry.Basic
import SolidityDocs.Json.Value

/-!
# Writing entries

A field without a value is left out.  A declaration is written as its entry, without a word for its
category.
-/

namespace SolidityDocs

open Json (Value)

/-- A guard as a JSON object. -/
def Guard.toJson (g : Guard) : Value :=
  .object [("lineNumber", .nat g.lineNumber), ("name", .string g.name)]

/-- A function as a JSON object. -/
def FunctionEntry.toJson (e : FunctionEntry) : Value :=
  .object
    ([("name", .string e.name), ("signature", .string e.signature), ("returns", .string e.returns),
        ("events", .ofList .string e.events)] ++
      (Value.optionalEntry "payable" .bool e.payable ++
        (("modifiers", .ofList .string e.modifiers) ::
          (Value.optionalEntry "visibility" Visibility.toJson e.visibility ++
            (Value.optionalEntry "stateMutability" Mutability.toJson e.stateMutability ++
              [("requires", .ofList Guard.toJson e.requires),
                ("lineNumber", .nat e.lineNumber)])))))

/-- An event as a JSON object. -/
def EventEntry.toJson (e : EventEntry) : Value :=
  .object [("name", .string e.name), ("parameters", .string e.parameters),
    ("lineNumber", .nat e.lineNumber)]

/-- A state variable as a JSON object. -/
def VariableEntry.toJson (e : VariableEntry) : Value :=
  .object
    (("name", .string e.name) ::
      (Value.optionalEntry "constant" .bool e.constant ++
        (("type", .string e.type) :: ("lineNumber", .nat e.lineNumber) ::
          Value.optionalEntry "visibility" Visibility.toJson e.visibility)))

/-- A modifier as a JSON object. -/
def ModifierEntry.toJson (e : ModifierEntry) : Value :=
  .object
    (("name", .string e.name) :: ("parameters", .string e.parameters) ::
      (Value.optionalEntry "visibility" Visibility.toJson e.visibility ++
        [("lineNumber", .nat e.lineNumber)]))

/-- A member of a struct type as a JSON object. -/
def StructMember.toJson (m : StructMember) : Value :=
  .object [("name", .string m.name), ("type", .string m.type)]

/-- A struct type as a JSON object. -/
def StructEntry.toJson (e : StructEntry) : Value :=
  .object [("name", .string e.name), ("members", .ofList StructMember.toJson e.members),
    ("lineNumber", .nat e.lineNumber)]

/-- A declaration as a JSON object. -/
def Declaration.toJson : Declaration → Value
  | function e => e.toJson
  | event e => e.toJson
  | stateVariable e => e.toJson
  | modifier e => e.toJson
  | structType e => e.toJson

/-- The lists of declarations by the names of their categories. -/
def Declarations.jsonEntries (d : Declarations) : List (String × Value) :=
  [("functions", .ofList FunctionEntry.toJson d.functions),
    ("events", .ofList EventEntry.toJson d.events),
    ("variables", .ofList VariableEntry.toJson d.stateVariables),
    ("modifiers", .ofList ModifierEntry.toJson d.modifiers),
    ("structs", .ofList StructEntry.toJson d.structs)]

/-- The declarations of a contract as a JSON object. -/
def Declarations.toJson (d : Declarations) : Value := .object d.jsonEntries

/-- The documentation of a contract as a JSON object. -/
def ContractEntry.toJson (d : ContractEntry) : Value :=
  .object (d.jsonEntries ++ [("inherits", .ofList .string d.inherits)])

/-- A map as a JSON object. -/
def OrderedMap.toJson {α : Type} (f : α → Value) (m : OrderedMap String α) : Value :=
  .object (m.entries.map fun e => (e.1, f e.2))

end SolidityDocs
