import SolidityDocs.Entry.Basic
import SolidityDocs.Json.Record

/-!
# Reading entries

Unlike the nodes of a syntax tree, an entry has to be complete: only the fields that are left out
when they have no value may be missing.  A declaration carries no word for its category; the
categories are tried in order, and the first one that accepts the value counts.
-/

namespace SolidityDocs

open Json (Reader Record Field)

/-- The fields of a guard. -/
def Guard.record : Record Guard where
  name := "RequireSite"
  fields := [
    .needed "lineNumber" .word64 fun v g => { g with lineNumber := v },
    .needed "name" .string fun v g => { g with name := v }]
  blank := ⟨0, ""⟩

/-- The fields of a function. -/
def FunctionEntry.record : Record FunctionEntry where
  name := "FunctionDoc"
  fields := [
    .needed "name" .string fun v e => { e with name := v },
    .needed "signature" .string fun v e => { e with signature := v },
    .needed "returns" .string fun v e => { e with returns := v },
    .needed "events" (.list .string) fun v e => { e with events := v },
    .optional "payable" (.option .boolean) fun v e => { e with payable := v },
    .needed "modifiers" (.list .string) fun v e => { e with modifiers := v },
    .optional "visibility" (.option Visibility.read) fun v e => { e with visibility := v },
    .optional "stateMutability" (.option Mutability.read)
      fun v e => { e with stateMutability := v },
    .needed "requires" (.list Guard.record.read) fun v e => { e with requires := v },
    .needed "lineNumber" .word64 fun v e => { e with lineNumber := v }]
  blank := ⟨"", "", "", [], none, [], none, none, [], 0⟩

/-- The fields of an event. -/
def EventEntry.record : Record EventEntry where
  name := "EventDoc"
  fields := [
    .needed "name" .string fun v e => { e with name := v },
    .needed "parameters" .string fun v e => { e with parameters := v },
    .needed "lineNumber" .word64 fun v e => { e with lineNumber := v }]
  blank := ⟨"", "", 0⟩

/-- The fields of a state variable. -/
def VariableEntry.record : Record VariableEntry where
  name := "VariableDoc"
  fields := [
    .needed "name" .string fun v e => { e with name := v },
    .optional "constant" (.option .boolean) fun v e => { e with constant := v },
    .needed "type" .string fun v e => { e with type := v },
    .needed "lineNumber" .word64 fun v e => { e with lineNumber := v },
    .optional "visibility" (.option Visibility.read) fun v e => { e with visibility := v }]
  blank := ⟨"", none, "", 0, none⟩

/-- The fields of a modifier. -/
def ModifierEntry.record : Record ModifierEntry where
  name := "ModifierDoc"
  fields := [
    .needed "name" .string fun v e => { e with name := v },
    .needed "parameters" .string fun v e => { e with parameters := v },
    .optional "visibility" (.option Visibility.read) fun v e => { e with visibility := v },
    .needed "lineNumber" .word64 fun v e => { e with lineNumber := v }]
  blank := ⟨"", "", none, 0⟩

/-- The fields of a member of a struct type. -/
def StructMember.record : Record StructMember where
  name := "StructMember"
  fields := [
    .needed "name" .string fun v m => { m with name := v },
    .needed "type" .string fun v m => { m with type := v }]
  blank := ⟨"", ""⟩

/-- The fields of a struct type. -/
def StructEntry.record : Record StructEntry where
  name := "StructDoc"
  fields := [
    .needed "name" .string fun v e => { e with name := v },
    .needed "members" (.list StructMember.record.read) fun v e => { e with members := v },
    .needed "lineNumber" .word64 fun v e => { e with lineNumber := v }]
  blank := ⟨"", [], 0⟩

namespace Declaration

/-- Reads a declaration of a known category. -/
def readAs : Category → Reader Declaration
  | .functions => fun s t => (FunctionEntry.record.read s t).map .function
  | .events => fun s t => (EventEntry.record.read s t).map .event
  | .stateVariables => fun s t => (VariableEntry.record.read s t).map .stateVariable
  | .modifiers => fun s t => (ModifierEntry.record.read s t).map .modifier
  | .structs => fun s t => (StructEntry.record.read s t).map .structType

/-- Reads a declaration of the first category that accepts it. -/
def read : Reader Declaration := .firstOf "DeclarationRecord" (Category.all.map readAs)

end Declaration

/-- The fields of the declarations of a contract. -/
def Declarations.record : Record Declarations where
  name := "ContractDeclarations"
  fields := [
    .needed "functions" (.list FunctionEntry.record.read) fun v d => { d with functions := v },
    .needed "events" (.list EventEntry.record.read) fun v d => { d with events := v },
    .needed "variables" (.list VariableEntry.record.read) fun v d => { d with stateVariables := v },
    .needed "modifiers" (.list ModifierEntry.record.read) fun v d => { d with modifiers := v },
    .needed "structs" (.list StructEntry.record.read) fun v d => { d with structs := v }]
  blank := {}

/-- The fields of the documentation of a contract. -/
def ContractEntry.record : Record ContractEntry where
  name := "ContractDoc"
  fields := [
    .needed "functions" (.list FunctionEntry.record.read) fun v d => { d with functions := v },
    .needed "events" (.list EventEntry.record.read) fun v d => { d with events := v },
    .needed "variables" (.list VariableEntry.record.read) fun v d => { d with stateVariables := v },
    .needed "modifiers" (.list ModifierEntry.record.read) fun v d => { d with modifiers := v },
    .needed "structs" (.list StructEntry.record.read) fun v d => { d with structs := v },
    .needed "inherits" (.list .string) fun v d => { d with inherits := v }]
  blank := {}

end SolidityDocs
