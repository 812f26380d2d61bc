import SolidityDocs.Json.Keyword
import SolidityDocs.Json.Value

/-!
# Keywords of declarations

Closed sets of words, each with the name under which it is written and the list of its members in
order.  A keyword is read by its name.
-/

namespace SolidityDocs

/-- The kinds of contract-like definitions. -/
inductive Kind
  | contract
  | interface
  | library
  deriving DecidableEq, Repr

namespace Kind

/-- The keyword of a kind. -/
def name : Kind → String
  | contract => "contract"
  | interface => "interface"
  | library => "library"

/-- All kinds, in order. -/
def all : List Kind := [contract, interface, library]

/-- The kinds by their keywords. -/
def names : List (String × Kind) := all.map fun k => (k.name, k)

/-- The kind with a keyword. -/
def ofName? (s : String) : Option Kind := names.lookup s

/-- Reads a kind. -/
def read : Json.Reader Kind := .keyword names

@[simp] theorem ofName?_name (k : Kind) : ofName? k.name = some k := by cases k <;> rfl

end Kind

/-- Who may use a declaration; `default` is whatever the compiler takes for the default. -/
inductive Visibility
  | pub
  | internal
  | priv
  | external
  | default
  deriving DecidableEq, Repr

namespace Visibility

/-- The keyword of a visibility. -/
def name : Visibility → String
  | pub => "public"
  | internal => "internal"
  | priv => "private"
  | external => "external"
  | default => "default"

/-- All visibilities, in order. -/
def all : List Visibility := [pub, internal, priv, external, default]

/-- The visibilities by their keywords. -/
def names : List (String × Visibility) := all.map fun v => (v.name, v)

/-- Reads a visibility. -/
def read : Json.Reader Visibility := .keyword names

/-- The JSON value of a visibility. -/
def toJson (v : Visibility) : Json.Value := .string v.name

end Visibility

/-- What a function may do to the state of the chain; `constant` is the older word for `view`. -/
inductive Mutability
  | pure
  | view
  | payable
  | nonpayable
  | constant
  deriving DecidableEq, Repr

namespace Mutability

/-- The keyword of a mutability. -/
def name : Mutability → String
  | pure => "pure"
  | view => "view"
  | payable => "payable"
  | nonpayable => "nonpayable"
  | constant => "constant"

/-- All mutabilities, in order. -/
def all : List Mutability := [pure, view, payable, nonpayable, constant]

/-- The mutabilities by their keywords. -/
def names : List (String × Mutability) := all.map fun m => (m.name, m)

/-- Reads a mutability. -/
def read : Json.Reader Mutability := .keyword names

/-- The JSON value of a mutability. -/
def toJson (m : Mutability) : Json.Value := .string m.name

end Mutability

/-- The categories of documented declarations. -/
inductive Category
  | functions
  | events
  | stateVariables
  | modifiers
  | structs
  deriving DecidableEq, Repr

namespace Category

/-- The keyword of a category. -/
def name : Category → String
  | functions => "functions"
  | events => "events"
  | stateVariables => "variables"
  | modifiers => "modifiers"
  | structs => "structs"

/-- All categories, in order. -/
def all : List Category := [functions, events, stateVariables, modifiers, structs]

/-- The categories by their keywords. -/
def names : List (String × Category) := all.map fun c => (c.name, c)

/-- Reads a category. -/
def read : Json.Reader Category := .keyword names

end Category

end SolidityDocs
