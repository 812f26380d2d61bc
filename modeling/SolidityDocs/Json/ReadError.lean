import SolidityDocs.Json.Tree
import SolidityDocs.Text.Quoted

/-!
# Errors of reading a JSON text into a type

A reader fails with a `ReadError`: either the text is not JSON, or the value does not fit.  The
causes of the second kind are a `DataError`; its message names what was found and what would have
fitted.
-/

namespace SolidityDocs.Json

/-- What stands in the text where something else was expected. -/
inductive Found
  | null
  | bool (b : Bool)
  | number (n : Number)
  | string (s : String)
  | list
  | object

/-- What would have fitted.  Besides the plain types, this may be an object that is a map, a natural
number of 32 or 64 bits, the name of a variant, a keyword alone or as the key of an object, an
object with one entry, a record type, or a type of tagged nodes. -/
inductive Expected
  | string
  | boolean
  | list
  | map
  | word32
  | word64
  | unit
  | variant
  | keyword
  | singleEntry
  | record (name : String)
  | node (name : String)

/-- How many elements a list should have had: as many as a record type has fields, or as many as
have been used. -/
inductive Arity
  | record (name : String) (fields : Nat)
  | used (n : Nat)

/-- The ways in which a value fails to fit its type.  A type is invalid for a value of the wrong
sort, and a value if it is of the right sort but out of range. -/
inductive DataError
  | invalidType (found : Found) (expected : Expected)
  | invalidValue (found : Found) (expected : Expected)
  | invalidLength (n : Nat) (arity : Arity)
  | missingField (key : String)
  | duplicateField (key : String)
  | unknownVariant (name : String) (known : List String)
  | noAlternative (name : String)

/-- Reading fails because the text is not JSON, or because its value does not fit. -/
inductive ReadError
  | text (e : SyntaxError)
  | data (e : DataError)

/-- The classes of errors: the text is not JSON, its value does not fit, or it ends too early. -/
inductive ErrorClass
  | grammar
  | data
  | eof
  deriving DecidableEq, Repr

/-- Text between backquotes. -/
def backquoted (s : String) : String := "`" ++ s ++ "`"

/-- The wording of what was found. -/
def Found.message : Found → String
  | null => "null"
  | bool b => "boolean " ++ backquoted (if b then "true" else "false")
  | number (.natural n) => "integer " ++ backquoted (toString n)
  | number (.negative n) => "integer " ++ backquoted ("-" ++ toString n)
  | number (.float x) => "floating point " ++ backquoted (Number.layout.writeFloat x)
  | string s => "string " ++ Text.quoted .double s
  | list => "sequence"
  | object => "map"

/-- The wording of what was expected. -/
def Expected.message : Expected → String
  | string => "a string"
  | boolean => "a boolean"
  | list => "a sequence"
  | map => "a map"
  | word32 => "u32"
  | word64 => "usize"
  | unit => "unit"
  | variant => "variant identifier"
  | keyword => "string or map"
  | singleEntry => "map with a single key"
  | record name => "struct " ++ name
  | node name => "internally tagged enum " ++ name

/-- The wording of a number of elements. -/
def Arity.message : Arity → String
  | record name fields => "struct " ++ name ++ " with " ++ elements fields
  | used n => elements n ++ " in sequence"
where
  elements (n : Nat) : String := toString n ++ if n = 1 then " element" else " elements"

/-- The wording of a value that does not fit. -/
def DataError.message : DataError → String
  | invalidType found expected =>
    "invalid type: " ++ found.message ++ ", expected " ++ expected.message
  | invalidValue found expected =>
    "invalid value: " ++ found.message ++ ", expected " ++ expected.message
  | invalidLength n arity => "invalid length " ++ toString n ++ ", expected " ++ arity.message
  | missingField key => "missing field " ++ backquoted key
  | duplicateField key => "duplicate field " ++ backquoted key
  | unknownVariant name known =>
    "unknown variant " ++ backquoted name ++ ", expected one of " ++
      ", ".intercalate (known.map backquoted)
  | noAlternative name => "data did not match any variant of untagged enum " ++ name

namespace ReadError

/-- The wording of an error of reading. -/
def message : ReadError → String
  | text e => e.message
  | data e => e.message

/-- The class of an error of reading. -/
def errorClass : ReadError → ErrorClass
  | text e => if e.isEof then .eof else .grammar
  | data _ => .data

end ReadError

/-- The name of a class of errors. -/
def ErrorClass.label : ErrorClass → String
  | grammar => "syntax"
  | data => "data"
  | eof => "eof"

/-- What a reader finds that keeps the value, unless the text is not JSON there.  A list or an
object counts as such from its first character on. -/
def Tree.found : Tree → Except SyntaxError Found
  | .null => .ok .null
  | .bool b => .ok (.bool b)
  | .number n => n.map .number
  | .string s => s.map .string
  | .list _ _ => .ok .list
  | .object _ _ => .ok .object
  | .absent => .error .eofValue
  | .badString f => .error f.kept
  | .bad f => .error f.kept

/-- What a reader finds that expects a value and meets the token. -/
def Token.found : Token → Except SyntaxError Found
  | .openObject => .ok .object
  | .openList => .ok .list
  | .null => .ok .null
  | .bool b => .ok (.bool b)
  | .number n => n.map .number
  | .string s => s.map .string
  | .badString f => .error f.kept
  | .bad f => .error f.kept
  | .closeObject | .closeList | .comma | .colon => .error .expectedValue

/-- The error of finding something else than expected. -/
def ReadError.unexpected (found : Except SyntaxError Found) (expected : Expected) : ReadError :=
  match found with
  | .ok f => .data (.invalidType f expected)
  | .error e => .text e

/-- The error of a value that is not of the expected sort. -/
def Tree.mismatch (t : Tree) (expected : Expected) : ReadError := .unexpected t.found expected

end SolidityDocs.Json
