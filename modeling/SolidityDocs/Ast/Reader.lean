import SolidityDocs.Ast.Basic
import SolidityDocs.Json.Node

/-!
# Reading syntax trees

Each node type is described by its fields, none of which is required.  Expressions recur, so their
reader takes a bound on the nesting; the depth of the tree that is read is always enough.
-/

namespace SolidityDocs.Ast

open Json (Reader Record Field Variants)

/-- An optional string. -/
def optionalString : Reader (Option String) := .option .string

/-- An optional boolean. -/
def optionalBoolean : Reader (Option Bool) := .option .boolean

/-- The fields of `TypeDescriptions`. -/
def TypeDescriptions.record : Record TypeDescriptions where
  name := "TypeDescriptions"
  fields := [
    .optional "typeString" optionalString fun v d => { d with typeString := v },
    .optional "typeIdentifier" optionalString fun v d => { d with typeIdentifier := v }]
  blank := {}

/-! ## Expressions -/

namespace Expression

/-- The fields of an expression, given the reader of the expressions inside it. -/
def record (inner : Reader Expression) : Record Expression where
  name := "Expression"
  fields := [
    .optional "nodeType" optionalString fun v e => { e with nodeType := v },
    .optional "name" optionalString fun v e => { e with name := v },
    .optional "memberName" optionalString fun v e => { e with memberName := v },
    .optional "expression" (.option inner) fun v e => { e with expression := v },
    .optional "argumentTypes" (.option (.list TypeDescriptions.record.read))
      fun v e => { e with argumentTypes := v },
    .optional "typeDescriptions" TypeDescriptions.record.read
      fun v e => { e with typeDescriptions := v },
    .optional "src" optionalString fun v e => { e with src := v }]
  blank := {}

/-- Refuses every expression; it is used only below the depth of a tree. -/
def refuse : Reader Expression := fun _ t => .error (t.mismatch (.record "Expression"))

/-- Reads an expression with at most so many expressions inside one another. -/
def readWithin : Nat → Reader Expression
  | 0 => (record refuse).read
  | n + 1 => (record (readWithin n)).read

/-- Reads an expression.  Its parts are less deep than the tree it is read from. -/
def read : Reader Expression := fun s t => readWithin t.depth s t

end Expression

/-! ## Statements -/

/-- The fields of an expression statement. -/
def ExpressionStatement.record : Record ExpressionStatement where
  name := "ExpressionStatement"
  fields := [
    .optional "expression" (.option Expression.read) fun v s => { s with expression := v },
    .optional "src" optionalString fun v s => { s with src := v }]
  blank := {}

/-- The fields of an emit statement. -/
def EmitStatement.record : Record EmitStatement where
  name := "EmitStatement"
  fields := [
    .optional "eventCall" (.option Expression.read) fun v s => { s with eventCall := v },
    .optional "src" optionalString fun v s => { s with src := v }]
  blank := {}

/-- The statements that matter. -/
def Statement.variants : Variants Statement where
  name := "Statement"
  known := [
    ("ExpressionStatement", fun s t => (ExpressionStatement.record.read s t).map .expression),
    ("EmitStatement", fun s t => (EmitStatement.record.read s t).map .emit),
    ("FunctionCall", fun s t => (Expression.read s t).map .call)]
  other := .other

/-- The fields of a block. -/
def Block.record : Record Block where
  name := "Block"
  fields := [
    .optional "statements" (.list Statement.variants.read) fun v b => { b with statements := v },
    .optional "src" optionalString fun v b => { b with src := v }]
  blank := {}

/-! ## Members -/

/-- The fields of a name. -/
def IdentifierPath.record : Record IdentifierPath where
  name := "NamePath"
  fields := [
    .optional "name" optionalString fun v p => { p with name := v },
    .optional "src" optionalString fun v p => { p with src := v }]
  blank := {}

/-- The fields of a type. -/
def TypeName.record : Record TypeName where
  name := "TypeName"
  fields := [
    .optional "nodeType" optionalString fun v t => { t with nodeType := v },
    .optional "typeDescriptions" TypeDescriptions.record.read
      fun v t => { t with typeDescriptions := v }]
  blank := {}

/-- The fields of a variable. -/
def VariableDeclaration.record : Record VariableDeclaration where
  name := "VariableDeclaration"
  fields := [
    .optional "name" .string fun v d => { d with name := v },
    .optional "constant" optionalBoolean fun v d => { d with constant := v },
    .optional "stateVariable" optionalBoolean fun v d => { d with stateVariable := v },
    .optional "visibility" (.option Visibility.read) fun v d => { d with visibility := v },
    .optional "typeName" (.option TypeName.record.read) fun v d => { d with typeName := v },
    .optional "typeDescriptions" TypeDescriptions.record.read
      fun v d => { d with typeDescriptions := v },
    .optional "src" optionalString fun v d => { d with src := v }]
  blank := {}

/-- The fields of a list of parameters. -/
def ParameterList.record : Record ParameterList where
  name := "ParameterList"
  fields := [
    .optional "parameters" (.list VariableDeclaration.record.read)
      fun v p => { p with parameters := v }]
  blank := {}

/-- The fields of the use of a modifier. -/
def ModifierInvocation.record : Record ModifierInvocation where
  name := "ModifierInvocation"
  fields := [
    .optional "modifierName" IdentifierPath.record.read fun v m => { m with modifierName := v },
    .optional "src" optionalString fun v m => { m with src := v }]
  blank := {}

/-- The fields of a function. -/
def FunctionDefinition.record : Record FunctionDefinition where
  name := "FunctionDefinition"
  fields := [
    .optional "name" .string fun v f => { f with name := v },
    .optional "kind" optionalString fun v f => { f with kind := v },
    .optional "isConstructor" optionalBoolean fun v f => { f with isConstructor := v },
    .optional "parameters" ParameterList.record.read fun v f => { f with parameters := v },
    .optional "returnParameters" ParameterList.record.read
      fun v f => { f with returnParameters := v },
    .optional "modifiers" (.list ModifierInvocation.record.read)
      fun v f => { f with modifiers := v },
    .optional "visibility" (.option Visibility.read) fun v f => { f with visibility := v },
    .optional "payable" optionalBoolean fun v f => { f with payable := v },
    .optional "stateMutability" (.option Mutability.read)
      fun v f => { f with stateMutability := v },
    .optional "body" (.option Block.record.read) fun v f => { f with body := v },
    .optional "src" optionalString fun v f => { f with src := v }]
  blank := {}

/-- The fields of an event. -/
def EventDefinition.record : Record EventDefinition where
  name := "EventDefinition"
  fields := [
    .optional "name" .string fun v e => { e with name := v },
    .optional "parameters" ParameterList.record.read fun v e => { e with parameters := v },
    .optional "src" optionalString fun v e => { e with src := v }]
  blank := {}

/-- The fields of a modifier. -/
def ModifierDefinition.record : Record ModifierDefinition where
  name := "ModifierDefinition"
  fields := [
    .optional "name" .string fun v m => { m with name := v },
    .optional "parameters" ParameterList.record.read fun v m => { m with parameters := v },
    .optional "visibility" (.option Visibility.read) fun v m => { m with visibility := v },
    .optional "src" optionalString fun v m => { m with src := v }]
  blank := {}

/-- The fields of a struct type. -/
def StructDefinition.record : Record StructDefinition where
  name := "StructDefinition"
  fields := [
    .optional "name" .string fun v s => { s with name := v },
    .optional "members" (.list VariableDeclaration.record.read)
      fun v s => { s with members := v },
    .optional "src" optionalString fun v s => { s with src := v }]
  blank := {}

/-- The members that matter. -/
def Member.variants : Variants Member where
  name := "ContractMember"
  known := [
    ("FunctionDefinition", fun s t => (FunctionDefinition.record.read s t).map .function),
    ("EventDefinition", fun s t => (EventDefinition.record.read s t).map .event),
    ("VariableDeclaration", fun s t => (VariableDeclaration.record.read s t).map .stateVariable),
    ("ModifierDefinition", fun s t => (ModifierDefinition.record.read s t).map .modifier),
    ("StructDefinition", fun s t => (StructDefinition.record.read s t).map .structType)]
  other := .other

/-! ## Files -/

/-- The fields of a base. -/
def InheritanceSpecifier.record : Record InheritanceSpecifier where
  name := "InheritanceSpecifier"
  fields := [
    .optional "baseName" IdentifierPath.record.read fun v b => { b with baseName := v }]
  blank := {}

/-- Reads the kind of a contract.  A word that names no kind counts as no kind. -/
def readKind : Reader (Option Kind) := fun s t =>
  (optionalString s t).map fun name => name.bind Kind.ofName?

/-- The fields of a contract. -/
def ContractDefinition.record : Record ContractDefinition where
  name := "ContractDefinition"
  fields := [
    .optional "name" .string fun v c => { c with name := v },
    .optional "contractKind" readKind fun v c => { c with contractKind := v },
    .optional "baseContracts" (.list InheritanceSpecifier.record.read)
      fun v c => { c with baseContracts := v },
    .optional "nodes" (.list Member.variants.read) fun v c => { c with nodes := v },
    .optional "src" optionalString fun v c => { c with src := v }]
  blank := {}

/-- The fields of an import. -/
def ImportDirective.record : Record ImportDirective where
  name := "ImportDirective"
  fields := [
    .optional "file" optionalString fun v i => { i with file := v },
    .optional "absolutePath" optionalString fun v i => { i with absolutePath := v },
    .optional "src" optionalString fun v i => { i with src := v }]
  blank := {}

/-- The nodes at the top level that matter. -/
def TopLevel.variants : Variants TopLevel where
  name := "SourceUnitNode"
  known := [
    ("ContractDefinition", fun s t => (ContractDefinition.record.read s t).map .contract),
    ("ImportDirective", fun s t => (ImportDirective.record.read s t).map .importDirective)]
  other := .other

/-- The fields of a file. -/
def SourceUnit.record : Record SourceUnit where
  name := "SourceUnit"
  fields := [
    .optional "absolutePath" optionalString fun v u => { u with absolutePath := v },
    .optional "nodes" (.list TopLevel.variants.read) fun v u => { u with nodes := v }]
  blank := {}

end SolidityDocs.Ast
