import SolidityDocs.Entry.Guard

/-!
# Extraction of entries

The entry of each member of a contract.  A member of another type has none.
-/

namespace SolidityDocs

open Ast (Member VariableDeclaration FunctionDefinition EventDefinition ModifierDefinition
  StructDefinition)

/-- A list of texts in parentheses. -/
def parenthesized (texts : List String) : String := "(" ++ ", ".intercalate texts ++ ")"

/-- A parameter: its type and its name, with a blank between them also when it has no name. -/
def parameterText (p : VariableDeclaration) : String := p.givenType ++ " " ++ p.name

/-- The parameters of a declaration. -/
def parametersText (ps : Ast.ParameterList) : String :=
  parenthesized (ps.parameters.map parameterText)

/-- The entry of a function. -/
def functionEntry (lines : LineTable) (f : FunctionDefinition) : Logged FunctionEntry := do
  let requires ← match f.body with
    | some body => guards lines body
    | none => pure []
  return {
    name := if f.name.isEmpty then f.kindLabel else f.name
    signature := f.name ++ parametersText f.parameters
    returns := parenthesized (f.returnParameters.parameters.map VariableDeclaration.givenType)
    events := (f.body.map emittedEvents).getD []
    payable := f.payable
    modifiers := f.modifiers.filterMap fun m => m.modifierName.name
    visibility := f.visibility
    stateMutability := f.stateMutability
    requires := requires
    lineNumber := lines.lineOf f.src }

/-- The entry of an event. -/
def eventEntry (lines : LineTable) (e : EventDefinition) : EventEntry where
  name := e.name
  parameters := parametersText e.parameters
  lineNumber := lines.lineOf e.src

/-- The entry of a state variable. -/
def variableEntry (lines : LineTable) (v : VariableDeclaration) : VariableEntry where
  name := v.name
  constant := v.constant
  type := v.writtenType?.getD ""
  lineNumber := lines.lineOf v.src
  visibility := v.visibility

/-- The entry of a modifier. -/
def modifierEntry (lines : LineTable) (m : ModifierDefinition) : ModifierEntry where
  name := m.name
  parameters := parametersText m.parameters
  visibility := m.visibility
  lineNumber := lines.lineOf m.src

/-- The entry of a struct type. -/
def structEntry (lines : LineTable) (s : StructDefinition) : StructEntry where
  name := s.name
  members := s.members.map fun m => ⟨m.name, m.givenType⟩
  lineNumber := lines.lineOf s.src

/-- The category of a member, if it has one. -/
def memberCategory? : Member → Option Category
  | .function _ => some .functions
  | .event _ => some .events
  | .stateVariable _ => some .stateVariables
  | .modifier _ => some .modifiers
  | .structType _ => some .structs
  | .other => none

/-- The declaration of a member, if it is documented. -/
def declarationOf (lines : LineTable) : Member → Logged (Option Declaration)
  | .function f => do
    let e ← functionEntry lines f
    return some (.function e)
  | .event e => pure (some (.event (eventEntry lines e)))
  | .stateVariable v => pure (some (.stateVariable (variableEntry lines v)))
  | .modifier m => pure (some (.modifier (modifierEntry lines m)))
  | .structType s => pure (some (.structType (structEntry lines s)))
  | .other => pure none

/-- The declaration of a member has the category of the member. -/
theorem map_category_declarationOf (lines : LineTable) (m : Member) :
    (declarationOf lines m).value.map Declaration.category = memberCategory? m := by
  cases m <;> rfl

end SolidityDocs
