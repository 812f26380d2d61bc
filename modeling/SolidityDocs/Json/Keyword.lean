import SolidityDocs.Json.Reader

/-!
# Reading keywords

A keyword is written as a string, or as an object whose only key is the keyword and whose value is
`null`.  A streamed keyword decides at its first character whether it can be one, so anything else
is an error of the text; a buffered one looks at the whole value, and then takes an empty object for
`null` as well.
-/

namespace SolidityDocs.Json

namespace Keyword

variable {α : Type}

/-- The value of a keyword. -/
def ofName (names : List (String × α)) (name : String) : Except ReadError α :=
  match names.lookup name with
  | some a => .ok a
  | none => .error (.data (.unknownVariant name (names.map Prod.fst)))

/-- The place after the only entry of a streamed object. -/
def entryEnd (others : List (Key × Tree)) (ending : ObjectEnd) : Except ReadError Unit :=
  match others, ending with
  | [], .closed => .ok ()
  | [], .unclosed => .error (.text .eofObject)
  | _, _ => .error (.text .expectedValue)

/-- The error of an object without a first entry. -/
def noEntry : ObjectEnd → ReadError
  | .noKey t => .unexpected t.found .variant
  | .badKey f => .text f.kept
  | .unclosed | .commaAtEnd => .text .eofValue
  | .closed | .noComma | .trailingComma => .text .expectedValue
  | .noColon _ e => .text e

/-- Reads the value `null` of the only entry. -/
def readUnit (s : Source) (t : Tree) : Except ReadError Unit :=
  match s, t with
  | _, .null => .ok ()
  | .buffered, .object [] _ => .ok ()
  | _, t => .error (t.mismatch .unit)

/-- Reads a keyword from the text. -/
def readStreamed (names : List (String × α)) : Tree → Except ReadError α
  | .string (.ok s) => ofName names s
  | .string (.error e) => .error (.text e)
  | .badString f => .error (.text f.kept)
  | .absent => .error (.text .eofValue)
  | .object [] (.noColon k e) => do
    let k ← readKey k
    let _ ← ofName names k
    .error (.text e)
  | .object [] ending => .error (noEntry ending)
  | .object ((k, t) :: others) ending => do
    let k ← readKey k
    let a ← ofName names k
    readUnit .streamed t
    entryEnd others ending
    return a
  | .null | .bool _ | .number _ | .list _ _ | .bad _ => .error (.text .expectedValue)

/-- Reads a keyword from a value that has been kept whole. -/
def readBuffered (names : List (String × α)) : Tree → Except ReadError α
  | .string (.ok s) => ofName names s
  | .object [(k, t)] _ => do
    let k ← readKey k
    let a ← ofName names k
    readUnit .buffered t
    return a
  | .object _ _ => .error (.data (.invalidValue .object .singleEntry))
  | t => .error (t.mismatch .keyword)

end Keyword

/-- Reads one of the given keywords. -/
def Reader.keyword {α : Type} (names : List (String × α)) : Reader α := fun s t =>
  match s with
  | .streamed => Keyword.readStreamed names t
  | .buffered => Keyword.readBuffered names t

end SolidityDocs.Json
