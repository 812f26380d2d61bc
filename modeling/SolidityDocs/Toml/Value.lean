/-!
# TOML values

Of a float only one thing matters: whether it is in the range of 64-bit floats.  Of a date nothing
matters but that it is one.
-/

namespace SolidityDocs.Toml

/-- A TOML value.  A float is kept as far as whether it is in range, and the keys of a table are
distinct. -/
inductive Value
  | string (s : String)
  | integer (n : Int)
  | float (inRange : Bool)
  | boolean (b : Bool)
  | dateTime
  | list (items : List Value)
  | table (entries : List (String × Value))

namespace Value

/-- Whether an integer fits 128 bits, signed or unsigned. -/
def integerInRange : Int → Bool
  | .ofNat n => n < Nat.pow 2 128
  | .negSucc n => n < Nat.pow 2 127

mutual

/-- Whether every number in a value is in range. -/
def inRange : Value → Bool
  | integer n => integerInRange n
  | float b => b
  | list items => itemsInRange items
  | table entries => entriesInRange entries
  | string _ => true
  | boolean _ => true
  | dateTime => true

/-- Whether every number in the items of a list is in range. -/
def itemsInRange : List Value → Bool
  | [] => true
  | v :: vs => inRange v && itemsInRange vs

/-- Whether every number in the values of a table is in range. -/
def entriesInRange : List (String × Value) → Bool
  | [] => true
  | (_, v) :: es => inRange v && entriesInRange es

end

end Value

end SolidityDocs.Toml
