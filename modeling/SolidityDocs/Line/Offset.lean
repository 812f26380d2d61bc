import SolidityDocs.Text.Basic

/-!
# Source descriptors

A node of a syntax tree says where it stands in its file by a descriptor `start:length:file`.  Only
the start matters here: a byte offset.  It is read as a signed number of 64 bits, which is then
taken as an offset.  A start that is no such number, or a negative one, counts as the beginning of
the file.
-/

namespace SolidityDocs

/-- The part of a descriptor that gives the start, without the blanks around it. -/
def startText (descriptor : String) : List Char :=
  Text.trim (descriptor.toList.takeWhile fun c => c ≠ ':')

/-- The value of digits that is not above a limit. -/
def digitsUpTo? (limit : Nat) (digits : List Char) : Option Nat :=
  (Text.digits? digits).filter fun n => n ≤ limit

/-- The signed number of 64 bits that a text stands for.  There is one negative number more than
there are positive ones. -/
def signedValue? : List Char → Option Int
  | '-' :: digits => (digitsUpTo? (Nat.pow 2 63) digits).map Int.negOfNat
  | '+' :: digits => (digitsUpTo? (Nat.pow 2 63 - 1) digits).map Int.ofNat
  | digits => (digitsUpTo? (Nat.pow 2 63 - 1) digits).map Int.ofNat

/-- The byte offset at which the descriptor starts. -/
def startOffset (descriptor : String) : Nat :=
  ((signedValue? (startText descriptor)).bind Int.toNat?).getD 0

end SolidityDocs
