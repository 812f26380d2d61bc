import SolidityDocs.Text.Basic
import SolidityDocs.Text.Printable

/-!
# Quoted text

Text in double quotes, as messages show it.  A quote, a backslash and the usual control characters
are written with a backslash, and a character without a shape of its own by its code point in
braces, so the quoted form always stands on one line.
-/

namespace SolidityDocs.Text

/-- Which quotes are written with a backslash: the double quote, or the apostrophe as well. -/
inductive QuoteStyle
  | double
  | both
  deriving DecidableEq, Repr

/-- The code point of a character in braces. -/
def codePoint (c : Char) : List Char :=
  ['\\', 'u', '\x7b'] ++ Nat.toDigits 16 c.toNat ++ ['\x7d']

/-- One character inside quotes. -/
def quoteChar (style : QuoteStyle) (c : Char) : List Char :=
  match c with
  | '\x00' => ['\\', '0']
  | '\t' => ['\\', 't']
  | '\r' => ['\\', 'r']
  | '\n' => ['\\', 'n']
  | '\\' => ['\\', '\\']
  | '"' => ['\\', '"']
  | c =>
    if c = apostrophe then (if style = .both then ['\\', c] else [c])
    else if isPrintable c then [c]
    else codePoint c

/-- Text in double quotes. -/
def quoted (style : QuoteStyle) (s : String) : String :=
  String.ofList (['"'] ++ s.toList.flatMap (quoteChar style) ++ ['"'])

end SolidityDocs.Text
