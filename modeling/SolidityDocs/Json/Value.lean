/-!
# JSON values and their text

A `Value` is what this library writes: `null`, booleans, natural numbers, strings, lists and objects
whose entries stand in a fixed order.  One writer serves the compact and the indented form; the two
differ only in the `Layout`, that is in what separates the parts of a list or an object.

The writer puts a value in front of the text that follows it, so no text is copied twice.
-/

namespace SolidityDocs.Json

/-- A JSON value to be written.  An object may hold a key more than once. -/
inductive Value
  | null
  | bool (b : Bool)
  | nat (n : Nat)
  | string (s : String)
  | list (items : List Value)
  | object (entries : List (String × Value))

/-- What separates the parts of a list or an object at a depth, and a key from its value. -/
structure Layout where
  lineBreak : Nat → List Char
  colon : List Char

namespace Layout

/-- Everything on one line without blanks. -/
def compact : Layout := ⟨fun _ => [], [':']⟩

/-- Every part on a line of its own, indented by `n` blanks a level. -/
def indented (n : Nat) : Layout :=
  ⟨fun depth => '\n' :: List.replicate (n * depth) ' ', [':', ' ']⟩

end Layout

/-! ## Strings -/

/-- A control character by its code point, in four hex digits. -/
def escapeCode (c : Char) : List Char :=
  ['\\', 'u', '0', '0', Nat.digitChar (c.toNat / 16), Nat.digitChar (c.toNat % 16)]

/-- One character of a string. -/
def escapeChar (c : Char) : List Char :=
  match c with
  | '"' => ['\\', '"']
  | '\\' => ['\\', '\\']
  | '\x08' => ['\\', 'b']
  | '\x0c' => ['\\', 'f']
  | '\n' => ['\\', 'n']
  | '\r' => ['\\', 'r']
  | '\t' => ['\\', 't']
  | c => if c.toNat < 0x20 then escapeCode c else [c]

/-- A string in front of a text. -/
def writeString (s : String) (rest : List Char) : List Char :=
  '"' :: s.toList.foldr (fun c text => escapeChar c ++ text) ('"' :: rest)

/-! ## Values -/

namespace Value

/-- The text of a literal, in front of a text. -/
def writeLiteral (s : String) (rest : List Char) : List Char := s.toList ++ rest

mutual

/-- A value at a depth, in front of a text. -/
def write (l : Layout) (depth : Nat) (rest : List Char) : Value → List Char
  | .null => writeLiteral "null" rest
  | .bool true => writeLiteral "true" rest
  | .bool false => writeLiteral "false" rest
  | .nat n => Nat.toDigits 10 n ++ rest
  | .string s => writeString s rest
  | .list [] => '[' :: ']' :: rest
  | .list (v :: vs) =>
    '[' :: (l.lineBreak (depth + 1) ++
      write l (depth + 1) (writeItems l depth rest vs) v)
  | .object [] => '\x7b' :: '\x7d' :: rest
  | .object ((k, v) :: es) =>
    '\x7b' :: (l.lineBreak (depth + 1) ++
      writeString k (l.colon ++ write l (depth + 1) (writeEntries l depth rest es) v))

/-- The items of a list after its first one, and its end. -/
def writeItems (l : Layout) (depth : Nat) (rest : List Char) : List Value → List Char
  | [] => l.lineBreak depth ++ ']' :: rest
  | v :: vs =>
    ',' :: (l.lineBreak (depth + 1) ++ write l (depth + 1) (writeItems l depth rest vs) v)

/-- The entries of an object after its first one, and its end. -/
def writeEntries (l : Layout) (depth : Nat) (rest : List Char) :
    List (String × Value) → List Char
  | [] => l.lineBreak depth ++ '\x7d' :: rest
  | (k, v) :: es =>
    ',' :: (l.lineBreak (depth + 1) ++
      writeString k (l.colon ++ write l (depth + 1) (writeEntries l depth rest es) v))

end

/-- The text of a value in a layout. -/
def render (l : Layout) (v : Value) : String := String.ofList (v.write l 0 [])

/-- The compact text of a value. -/
def compact (v : Value) : String := v.render .compact

/-- The text of a value with `n` blanks a level. -/
def pretty (n : Nat) (v : Value) : String := v.render (.indented n)

/-- A value that may be missing. -/
def ofOption {α : Type} (f : α → Value) : Option α → Value
  | none => .null
  | some a => f a

/-- A list of values. -/
def ofList {α : Type} (f : α → Value) (as : List α) : Value := .list (as.map f)

/-- An entry that is left out when it has no value. -/
def optionalEntry {α : Type} (k : String) (f : α → Value) : Option α → List (String × Value)
  | none => []
  | some a => [(k, f a)]

end Value

end SolidityDocs.Json
