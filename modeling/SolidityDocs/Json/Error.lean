/-!
# What can be wrong with a JSON text

A text can fail in two ways.  It may not be JSON at all, which is a `SyntaxError`; or it may be
JSON that does not fit the type it is read into, which is a `DataError`.  Both are causes, and
their wording stands in one place, `SyntaxError.message` and `DataError.message`.

A defect of the text does not look the same to every reader.  A reader that keeps a value decodes
its strings and numbers; a reader that skips a value only looks for its end.  A `Fault` therefore
records both views of one defect.
-/

namespace SolidityDocs.Json

/-- The ways in which a text fails to be JSON.  The text may end too early: where a value should
stand or in a literal, in a string, in an object, or in a list.  An `expectedIdent` is a literal
that starts like `true`, `false` or `null` and goes on differently.  An `invalidNumber` has a
leading zero, or no digits where they are due.  A surrogate escape is a `loneSurrogate` if its
neighbour does not pair with it, and an `endOfHexEscape` if no `\u` escape follows it. -/
inductive SyntaxError
  | eofValue
  | eofString
  | eofObject
  | eofList
  | expectedValue
  | expectedIdent
  | invalidNumber
  | numberOutOfRange
  | keyMustBeString
  | expectedColon
  | expectedObjectEnd
  | expectedListEnd
  | trailingComma
  | trailingCharacters
  | invalidEscape
  | loneSurrogate
  | endOfHexEscape
  | controlCharacter
  deriving DecidableEq, Repr

/-- The wording of a syntax error. -/
def SyntaxError.message : SyntaxError → String
  | eofValue => "EOF while parsing a value"
  | eofString => "EOF while parsing a string"
  | eofObject => "EOF while parsing an object"
  | eofList => "EOF while parsing a list"
  | expectedValue => "expected value"
  | expectedIdent => "expected ident"
  | invalidNumber => "invalid number"
  | numberOutOfRange => "number out of range"
  | keyMustBeString => "key must be a string"
  | expectedColon => "expected `:`"
  | expectedObjectEnd => "expected `,` or `\x7d`"
  | expectedListEnd => "expected `,` or `]`"
  | trailingComma => "trailing comma"
  | trailingCharacters => "trailing characters"
  | invalidEscape => "invalid escape"
  | loneSurrogate => "lone leading surrogate in hex escape"
  | endOfHexEscape => "unexpected end of hex escape"
  | controlCharacter => "control character (\\u0000-\\u001F) found while parsing a string"

/-- Whether more text could still repair the error. -/
def SyntaxError.isEof : SyntaxError → Bool
  | eofValue | eofString | eofObject | eofList => true
  | _ => false

/-- The two ways of going over a value: decoding its strings and numbers, or only looking for its
end. -/
inductive Use
  | kept
  | skipped
  deriving DecidableEq, Repr

/-- A defect of the text, as each use of the value reports it. -/
structure Fault where
  kept : SyntaxError
  skipped : SyntaxError
  deriving DecidableEq, Repr

namespace Fault

/-- A defect that both uses report alike. -/
def both (e : SyntaxError) : Fault := ⟨e, e⟩

/-- The error that a use reports. -/
def error (f : Fault) : Use → SyntaxError
  | .kept => f.kept
  | .skipped => f.skipped

@[simp] theorem error_kept (f : Fault) : f.error .kept = f.kept := rfl

@[simp] theorem error_skipped (f : Fault) : f.error .skipped = f.skipped := rfl

@[simp] theorem error_both (e : SyntaxError) (u : Use) : (both e).error u = e := by
  cases u <;> rfl

end Fault

end SolidityDocs.Json
