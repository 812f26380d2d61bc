import SolidityDocs.Ast.Keyword

/-!
# Syntax trees of Solidity sources

The part of the compiler's syntax tree that documentation needs.  Every field of a node may be
missing in the compiler's output, so each has a default.  Nodes of other types are kept as `other`,
without their fields.

Expressions nest through the callee of a call, to any depth; nothing else recurs.
-/

namespace SolidityDocs.Ast

/-- What the compiler says about a type: its source form, and the compiler's own name for it. -/
structure TypeDescriptions where
  typeString : Option String := none
  typeIdentifier : Option String := none
  deriving DecidableEq, Repr

/-- An expression.  The expression in it is the callee of a call, or what an accessed member belongs
to.  At a callee, `argumentTypes` are the types of the arguments of the call. -/
structure Expression where
  nodeType : Option String := none
  name : Option String := none
  memberName : Option String := none
  expression : Option Expression := none
  argumentTypes : Option (List TypeDescriptions) := none
  typeDescriptions : TypeDescriptions := {}
  src : Option String := none

namespace Expression

/-- The type of the last argument at a call. -/
def lastArgumentType? (e : Expression) : Option String :=
  (e.argumentTypes.bind List.getLast?).bind TypeDescriptions.typeString

/-- The name by which the expression refers to something. -/
def referredName? (e : Expression) : Option String := e.name.or e.memberName

end Expression

/-- An expression as a statement. -/
structure ExpressionStatement where
  expression : Option Expression := none
  src : Option String := none

/-- A statement that emits an event, with the call that builds the event. -/
structure EmitStatement where
  eventCall : Option Expression := none
  src : Option String := none

/-- The name of the emitted event. -/
def EmitStatement.eventName? (s : EmitStatement) : Option String :=
  (s.eventCall.bind Expression.expression).bind Expression.referredName?

/-- A statement.  A call may stand as a statement by itself, without an expression statement around
it. -/
inductive Statement
  | expression (s : ExpressionStatement)
  | emit (s : EmitStatement)
  | call (e : Expression)
  | other

/-- The expression of a statement that may be a call to a guard: what an expression statement wraps,
or what a bare call applies. -/
def Statement.candidate? : Statement → Option Expression
  | .expression s => s.expression
  | .call e => e.expression
  | _ => none

/-- A block of statements.  Only those at its top level are kept. -/
structure Block where
  statements : List Statement := []
  src : Option String := none

/-- A name in source form. -/
structure IdentifierPath where
  name : Option String := none
  src : Option String := none
  deriving DecidableEq, Repr

/-- A type in source form. -/
structure TypeName where
  nodeType : Option String := none
  typeDescriptions : TypeDescriptions := {}
  deriving DecidableEq, Repr

/-- A variable: a state variable, a parameter or a member of a struct.  Its name is empty when it
has none. -/
structure VariableDeclaration where
  name : String := ""
  constant : Option Bool := none
  stateVariable : Option Bool := none
  visibility : Option Visibility := none
  typeName : Option TypeName := none
  typeDescriptions : TypeDescriptions := {}
  src : Option String := none
  deriving DecidableEq, Repr

namespace VariableDeclaration

/-- The type as written, or else as the compiler gives it. -/
def writtenType? (v : VariableDeclaration) : Option String :=
  (v.typeName.bind fun t => t.typeDescriptions.typeString).or v.typeDescriptions.typeString

/-- The type as the compiler gives it, or else as written; empty when neither is known. -/
def givenType (v : VariableDeclaration) : String :=
  (v.typeDescriptions.typeString.or v.writtenType?).getD ""

end VariableDeclaration

/-- A list of parameters. -/
structure ParameterList where
  parameters : List VariableDeclaration := []
  deriving DecidableEq, Repr

/-- The use of a modifier on a function. -/
structure ModifierInvocation where
  modifierName : IdentifierPath := {}
  src : Option String := none
  deriving DecidableEq, Repr

/-- A function, a constructor, or a function without a name.  In the last case the name is empty. -/
structure FunctionDefinition where
  name : String := ""
  kind : Option String := none
  isConstructor : Option Bool := none
  parameters : ParameterList := {}
  returnParameters : ParameterList := {}
  modifiers : List ModifierInvocation := []
  visibility : Option Visibility := none
  payable : Option Bool := none
  stateMutability : Option Mutability := none
  body : Option Block := none
  src : Option String := none

/-- The word for a function without a name. -/
def FunctionDefinition.kindLabel (f : FunctionDefinition) : String :=
  f.kind.getD (if f.isConstructor = some true then "constructor" else "fallback")

/-- An event. -/
structure EventDefinition where
  name : String := ""
  parameters : ParameterList := {}
  src : Option String := none
  deriving DecidableEq, Repr

/-- A modifier. -/
structure ModifierDefinition where
  name : String := ""
  parameters : ParameterList := {}
  visibility : Option Visibility := none
  src : Option String := none
  deriving DecidableEq, Repr

/-- A struct type. -/
structure StructDefinition where
  name : String := ""
  members : List VariableDeclaration := []
  src : Option String := none
  deriving DecidableEq, Repr

/-- A member of a contract. -/
inductive Member
  | function (f : FunctionDefinition)
  | event (e : EventDefinition)
  | stateVariable (v : VariableDeclaration)
  | modifier (m : ModifierDefinition)
  | structType (s : StructDefinition)
  | other

/-- A base of a contract. -/
structure InheritanceSpecifier where
  baseName : IdentifierPath := {}
  deriving DecidableEq, Repr

/-- A contract, an interface or a library; which of these it is need not be known. -/
structure ContractDefinition where
  name : String := ""
  contractKind : Option Kind := none
  baseContracts : List InheritanceSpecifier := []
  nodes : List Member := []
  src : Option String := none

/-- The names of the bases, where they are known. -/
def ContractDefinition.baseNames (c : ContractDefinition) : List String :=
  c.baseContracts.filterMap fun b => b.baseName.name

/-- An import of another file: the file as it is written, and as the compiler found it. -/
structure ImportDirective where
  file : Option String := none
  absolutePath : Option String := none
  src : Option String := none
  deriving DecidableEq, Repr

/-- A node at the top level of a file. -/
inductive TopLevel
  | contract (c : ContractDefinition)
  | importDirective (i : ImportDirective)
  | other

/-- The syntax tree of a file. -/
structure SourceUnit where
  absolutePath : Option String := none
  nodes : List TopLevel := []

namespace SourceUnit

/-- The contracts, interfaces and libraries of a file, in order. -/
def contracts (u : SourceUnit) : List ContractDefinition :=
  u.nodes.filterMap fun
    | .contract c => some c
    | _ => none

/-- The imports of a file, in order. -/
def imports (u : SourceUnit) : List ImportDirective :=
  u.nodes.filterMap fun
    | .importDirective i => some i
    | _ => none

end SourceUnit

end SolidityDocs.Ast
