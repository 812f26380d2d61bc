import SolidityDocs.Ast.Basic

/-!
# Writing syntax trees

Every field is written, a missing one as `null`.  A node of several variants names its variant
first.  A call that stands as a statement is written with its own `nodeType` field besides the name
of the variant, so that key occurs twice.
-/

namespace SolidityDocs.Ast

open Json (Value)

/-- An optional string. -/
def stringValue (s : Option String) : Value := .ofOption .string s

/-- An optional boolean. -/
def booleanValue (b : Option Bool) : Value := .ofOption .bool b

/-- A node with the name of its variant first. -/
def tagged (variant : String) (fields : List (String × Value)) : Value :=
  .object (("nodeType", .string variant) :: fields)

/-- The fields as a JSON object. -/
def TypeDescriptions.toJson (d : TypeDescriptions) : Value :=
  .object [("typeString", stringValue d.typeString),
    ("typeIdentifier", stringValue d.typeIdentifier)]

/-- The fields of an expression, given the value of the expression inside it. -/
def Expression.entries (e : Expression) (inner : Value) : List (String × Value) :=
  [("nodeType", stringValue e.nodeType), ("name", stringValue e.name),
    ("memberName", stringValue e.memberName), ("expression", inner),
    ("argumentTypes", .ofOption (.ofList TypeDescriptions.toJson) e.argumentTypes),
    ("typeDescriptions", e.typeDescriptions.toJson), ("src", stringValue e.src)]

/-- An expression as a JSON object. -/
def Expression.toJson : Expression → Value
  | ⟨nodeType, name, memberName, none, types, descriptions, src⟩ =>
    .object (entries ⟨nodeType, name, memberName, none, types, descriptions, src⟩ .null)
  | ⟨nodeType, name, memberName, some e, types, descriptions, src⟩ =>
    .object (entries ⟨nodeType, name, memberName, some e, types, descriptions, src⟩ e.toJson)

/-- The fields of an expression. -/
def Expression.fields (e : Expression) : List (String × Value) :=
  e.entries (.ofOption toJson e.expression)

/-- A statement as a JSON object. -/
def Statement.toJson : Statement → Value
  | .expression s =>
    tagged "ExpressionStatement"
      [("expression", .ofOption Expression.toJson s.expression), ("src", stringValue s.src)]
  | .emit s =>
    tagged "EmitStatement"
      [("eventCall", .ofOption Expression.toJson s.eventCall), ("src", stringValue s.src)]
  | .call e => tagged "FunctionCall" e.fields
  | .other => tagged "Other" []

/-- A block as a JSON object. -/
def Block.toJson (b : Block) : Value :=
  .object [("statements", .ofList Statement.toJson b.statements), ("src", stringValue b.src)]

/-- A name as a JSON object. -/
def IdentifierPath.toJson (p : IdentifierPath) : Value :=
  .object [("name", stringValue p.name), ("src", stringValue p.src)]

/-- A type as a JSON object. -/
def TypeName.toJson (t : TypeName) : Value :=
  .object [("nodeType", stringValue t.nodeType), ("typeDescriptions", t.typeDescriptions.toJson)]

/-- The fields of a variable. -/
def VariableDeclaration.fields (d : VariableDeclaration) : List (String × Value) :=
  [("name", .string d.name), ("constant", booleanValue d.constant),
    ("stateVariable", booleanValue d.stateVariable),
    ("visibility", .ofOption Visibility.toJson d.visibility),
    ("typeName", .ofOption TypeName.toJson d.typeName),
    ("typeDescriptions", d.typeDescriptions.toJson), ("src", stringValue d.src)]

/-- A variable as a JSON object. -/
def VariableDeclaration.toJson (d : VariableDeclaration) : Value := .object d.fields

/-- A list of parameters as a JSON object. -/
def ParameterList.toJson (p : ParameterList) : Value :=
  .object [("parameters", .ofList VariableDeclaration.toJson p.parameters)]

/-- The use of a modifier as a JSON object. -/
def ModifierInvocation.toJson (m : ModifierInvocation) : Value :=
  .object [("modifierName", m.modifierName.toJson), ("src", stringValue m.src)]

/-- The fields of a function. -/
def FunctionDefinition.fields (f : FunctionDefinition) : List (String × Value) :=
  [("name", .string f.name), ("kind", stringValue f.kind),
    ("isConstructor", booleanValue f.isConstructor), ("parameters", f.parameters.toJson),
    ("returnParameters", f.returnParameters.toJson),
    ("modifiers", .ofList ModifierInvocation.toJson f.modifiers),
    ("visibility", .ofOption Visibility.toJson f.visibility), ("payable", booleanValue f.payable),
    ("stateMutability", .ofOption Mutability.toJson f.stateMutability),
    ("body", .ofOption Block.toJson f.body), ("src", stringValue f.src)]

/-- The fields of an event. -/
def EventDefinition.fields (e : EventDefinition) : List (String × Value) :=
  [("name", .string e.name), ("parameters", e.parameters.toJson), ("src", stringValue e.src)]

/-- The fields of a modifier. -/
def ModifierDefinition.fields (m : ModifierDefinition) : List (String × Value) :=
  [("name", .string m.name), ("parameters", m.parameters.toJson),
    ("visibility", .ofOption Visibility.toJson m.visibility), ("src", stringValue m.src)]

/-- The fields of a struct type. -/
def StructDefinition.fields (s : StructDefinition) : List (String × Value) :=
  [("name", .string s.name), ("members", .ofList VariableDeclaration.toJson s.members),
    ("src", stringValue s.src)]

/-- A member as a JSON object. -/
def Member.toJson : Member → Value
  | .function f => tagged "FunctionDefinition" f.fields
  | .event e => tagged "EventDefinition" e.fields
  | .stateVariable v => tagged "VariableDeclaration" v.fields
  | .modifier m => tagged "ModifierDefinition" m.fields
  | .structType s => tagged "StructDefinition" s.fields
  | .other => tagged "Other" []

/-- A base as a JSON object. -/
def InheritanceSpecifier.toJson (b : InheritanceSpecifier) : Value :=
  .object [("baseName", b.baseName.toJson)]

/-- The fields of a contract. -/
def ContractDefinition.fields (c : ContractDefinition) : List (String × Value) :=
  [("name", .string c.name), ("contractKind", .ofOption (fun k => .string k.name) c.contractKind),
    ("baseContracts", .ofList InheritanceSpecifier.toJson c.baseContracts),
    ("nodes", .ofList Member.toJson c.nodes), ("src", stringValue c.src)]

/-- The fields of an import. -/
def ImportDirective.fields (i : ImportDirective) : List (String × Value) :=
  [("file", stringValue i.file), ("absolutePath", stringValue i.absolutePath),
    ("src", stringValue i.src)]

/-- A node at the top level as a JSON object. -/
def TopLevel.toJson : TopLevel → Value
  | .contract c => tagged "ContractDefinition" c.fields
  | .importDirective i => tagged "ImportDirective" i.fields
  | .other => tagged "Other" []

/-- The syntax tree of a file as a JSON object. -/
def SourceUnit.toJson (u : SourceUnit) : Value :=
  .object [("absolutePath", stringValue u.absolutePath), ("nodes", .ofList TopLevel.toJson u.nodes)]

end SolidityDocs.Ast
