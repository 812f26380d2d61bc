import SolidityDocs.Ast.Keyword
import SolidityDocs.Map.Ordered

/-!
# Entries of the documentation

A documented declaration is a `Declaration`, of one of five categories.  The declarations of one
contract are kept in five lists, one for each category, in their order of declaration.
-/

namespace SolidityDocs

/-- A guard in the body of a function: a call that may revert, as it is shown. -/
structure Guard where
  lineNumber : Nat
  name : String
  deriving DecidableEq, Repr

/-- A documented function.  A function without a name is shown by the word for it, but its signature
has the name as written.  The body emits the events, and its guards are the requires. -/
structure FunctionEntry where
  name : String
  signature : String
  returns : String
  events : List String
  payable : Option Bool
  modifiers : List String
  visibility : Option Visibility
  stateMutability : Option Mutability
  requires : List Guard
  lineNumber : Nat
  deriving DecidableEq, Repr

/-- A documented event. -/
structure EventEntry where
  name : String
  parameters : String
  lineNumber : Nat
  deriving DecidableEq, Repr

/-- A documented state variable. -/
structure VariableEntry where
  name : String
  constant : Option Bool
  type : String
  lineNumber : Nat
  visibility : Option Visibility
  deriving DecidableEq, Repr

/-- A documented modifier. -/
structure ModifierEntry where
  name : String
  parameters : String
  visibility : Option Visibility
  lineNumber : Nat
  deriving DecidableEq, Repr

/-- A member of a struct type. -/
structure StructMember where
  name : String
  type : String
  deriving DecidableEq, Repr

/-- A documented struct type. -/
structure StructEntry where
  name : String
  members : List StructMember
  lineNumber : Nat
  deriving DecidableEq, Repr

/-- A documented declaration. -/
inductive Declaration
  | function (e : FunctionEntry)
  | event (e : EventEntry)
  | stateVariable (e : VariableEntry)
  | modifier (e : ModifierEntry)
  | structType (e : StructEntry)
  deriving DecidableEq, Repr

/-- The category of a declaration. -/
def Declaration.category : Declaration → Category
  | function _ => .functions
  | event _ => .events
  | stateVariable _ => .stateVariables
  | modifier _ => .modifiers
  | structType _ => .structs

/-- The documented declarations of one contract. -/
structure Declarations where
  functions : List FunctionEntry := []
  events : List EventEntry := []
  stateVariables : List VariableEntry := []
  modifiers : List ModifierEntry := []
  structs : List StructEntry := []
  deriving DecidableEq, Repr

namespace Declarations

/-- Adds a declaration at the end of the list of its category. -/
def push (d : Declarations) : Declaration → Declarations
  | .function e => { d with functions := d.functions ++ [e] }
  | .event e => { d with events := d.events ++ [e] }
  | .stateVariable e => { d with stateVariables := d.stateVariables ++ [e] }
  | .modifier e => { d with modifiers := d.modifiers ++ [e] }
  | .structType e => { d with structs := d.structs ++ [e] }

/-- Adds the lists of another contract after those of this one. -/
def append (d e : Declarations) : Declarations where
  functions := d.functions ++ e.functions
  events := d.events ++ e.events
  stateVariables := d.stateVariables ++ e.stateVariables
  modifiers := d.modifiers ++ e.modifiers
  structs := d.structs ++ e.structs

/-- The declarations of one category, in order. -/
def ofCategory (d : Declarations) : Category → List Declaration
  | .functions => d.functions.map .function
  | .events => d.events.map .event
  | .stateVariables => d.stateVariables.map .stateVariable
  | .modifiers => d.modifiers.map .modifier
  | .structs => d.structs.map .structType

/-- The number of declarations of one category. -/
def count (d : Declarations) (c : Category) : Nat := (d.ofCategory c).length

/-- Whether there are no declarations. -/
def isEmpty (d : Declarations) : Bool := Category.all.all fun c => d.count c == 0

/-- Adding a declaration adds it to its own category alone. -/
theorem ofCategory_push (d : Declarations) (r : Declaration) (c : Category) :
    (d.push r).ofCategory c = d.ofCategory c ++ if r.category = c then [r] else [] := by
  cases r <;> cases c <;> simp [push, ofCategory, Declaration.category]

/-- Adding the lists of another contract adds category by category. -/
theorem ofCategory_append (d e : Declarations) (c : Category) :
    (d.append e).ofCategory c = d.ofCategory c ++ e.ofCategory c := by
  cases c <;> simp [append, ofCategory]

end Declarations

/-- The documentation of one contract: its declarations and the names of its bases. -/
structure ContractEntry extends Declarations where
  inherits : List String := []
  deriving DecidableEq, Repr

/-- The documentation of a contract with the given bases. -/
def Declarations.withInherits (d : Declarations) (inherits : List String) : ContractEntry :=
  ⟨d, inherits⟩

end SolidityDocs
