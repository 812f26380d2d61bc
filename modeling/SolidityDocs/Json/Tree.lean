import SolidityDocs.Json.Token

/-!
# What a JSON text holds, up to its first defect

`Tree.scan` turns a text into a tree and never fails.  Where the text stops being JSON the tree
stops too, and the place is marked: a value that is absent or not well formed, or a list or object
that does not end properly.  A reader that walks the tree in the order of the text therefore meets
values that do not fit its type and defects of the text in the order in which they stand there, and
the first one it meets is its error.  Values that a reader skips and values that it keeps are the
same trees; `Tree.fault?` tells which defect either use of a tree would report.

The scanner is a machine that takes one token at a time.  Its state holds the lists and objects
around the current place, so nesting costs no recursion.
-/

namespace SolidityDocs.Json

/-- A key of an object, or the reason why it has no value. -/
abbrev Key := Except SyntaxError String

/-- How a list ends.  It is unclosed if the text ends after an item or at the first place, or if the
last item is not well formed.  Otherwise its bracket follows an item, or no comma follows one, or
the bracket or the end of the text follows a comma. -/
inductive ListEnd
  | closed
  | unclosed
  | noComma
  | trailingComma
  | commaAtEnd
  deriving DecidableEq, Repr

/-- How an object ends.  It may end in all the ways of a list, but also at something that is no
string in the place of a key, at a string there that is not well formed, or at a key without a
colon. -/
inductive ObjectEnd
  | closed
  | unclosed
  | noComma
  | trailingComma
  | commaAtEnd
  | noKey (found : Token)
  | badKey (f : Fault)
  | noColon (key : Key) (e : SyntaxError)

/-- A JSON value, as far as the text holds it.  A number or string has its value or the reason why
it has none, and an object may hold a key more than once.  Where a value should stand, the text may
also end, or hold something that is not well formed. -/
inductive Tree
  | null
  | bool (b : Bool)
  | number (n : Except SyntaxError Number)
  | string (s : Except SyntaxError String)
  | list (items : List Tree) (ending : ListEnd)
  | object (entries : List (Key × Tree)) (ending : ObjectEnd)
  | absent
  | badString (f : Fault)
  | bad (f : Fault)

/-! ## The defect that a use of a value reports -/

/-- The defect of a literal without a value; a reader that skips the literal does not see it. -/
def Use.literalError? {α : Type} (u : Use) (x : Except SyntaxError α) : Option SyntaxError :=
  match u, x with
  | .kept, .error e => some e
  | _, _ => none

/-- The defect at the end of a list, when every item has been read. -/
def ListEnd.error? : ListEnd → Use → Option SyntaxError
  | .closed, _ => none
  | .unclosed, _ => some .eofList
  | .noComma, _ => some .expectedListEnd
  | .trailingComma, .kept => some .trailingComma
  | .trailingComma, .skipped => some .expectedValue
  | .commaAtEnd, _ => some .eofValue

/-- The defect at the end of a list for a reader that wants no further item, whatever follows. -/
def ListEnd.errorAfterLast? : ListEnd → Option SyntaxError
  | .closed => none
  | .unclosed => some .eofList
  | .trailingComma => some .trailingComma
  | .noComma | .commaAtEnd => some .trailingCharacters

/-- The defect at the end of an object, when every entry has been read. -/
def ObjectEnd.error? : ObjectEnd → Use → Option SyntaxError
  | .closed, _ => none
  | .unclosed, _ => some .eofObject
  | .noComma, _ => some .expectedObjectEnd
  | .trailingComma, .kept => some .trailingComma
  | .trailingComma, .skipped => some .keyMustBeString
  | .commaAtEnd, .kept => some .eofValue
  | .commaAtEnd, .skipped => some .eofObject
  | .noKey _, _ => some .keyMustBeString
  | .badKey f, u => some (f.error u)
  | .noColon k e, u => some ((u.literalError? k).getD e)

namespace Tree

mutual

/-- The first defect of the text that a use of the value reports. -/
def fault? (u : Use) : Tree → Option SyntaxError
  | .null => none
  | .bool _ => none
  | .number n => u.literalError? n
  | .string s => u.literalError? s
  | .list items ending => (itemsFault? u items).or (ending.error? u)
  | .object entries ending => (entriesFault? u entries).or (ending.error? u)
  | .absent => some .eofValue
  | .badString f => some (f.error u)
  | .bad f => some (f.error u)

/-- The first defect among the items of a list. -/
def itemsFault? (u : Use) : List Tree → Option SyntaxError
  | [] => none
  | t :: ts => (fault? u t).or (itemsFault? u ts)

/-- The first defect among the entries of an object. -/
def entriesFault? (u : Use) : List (Key × Tree) → Option SyntaxError
  | [] => none
  | (k, t) :: es => (u.literalError? k).or ((fault? u t).or (entriesFault? u es))

end

mutual

/-- How deep lists and objects nest. -/
def depth : Tree → Nat
  | .list items _ => itemsDepth items
  | .object entries _ => entriesDepth entries
  | _ => 0

/-- One more than the greatest depth of an item. -/
def itemsDepth : List Tree → Nat
  | [] => 0
  | t :: ts => max (depth t + 1) (itemsDepth ts)

/-- One more than the greatest depth of a value of an entry. -/
def entriesDepth : List (Key × Tree) → Nat
  | [] => 0
  | (_, t) :: es => max (depth t + 1) (entriesDepth es)

end

theorem depth_lt_of_mem_items {t : Tree} {items : List Tree} (ht : t ∈ items) (ending : ListEnd) :
    t.depth < (Tree.list items ending).depth := by
  rw [depth]
  induction items with
  | nil => cases ht
  | cons u us ih =>
    rw [itemsDepth]
    rcases List.mem_cons.mp ht with rfl | ht
    · omega
    · have := ih ht
      omega

theorem depth_lt_of_mem_entries {k : Key} {t : Tree} {entries : List (Key × Tree)}
    (ht : (k, t) ∈ entries) (ending : ObjectEnd) :
    t.depth < (Tree.object entries ending).depth := by
  rw [depth]
  induction entries with
  | nil => cases ht
  | cons e es ih =>
    obtain ⟨l, u⟩ := e
    rw [entriesDepth]
    rcases List.mem_cons.mp ht with h | ht
    · cases h
      omega
    · have := ih ht
      omega

/-! ## The scanner -/

/-- A list or object around the current place, its items or entries in reverse. -/
inductive Frame
  | item (items : List Tree)
  | entry (entries : List (Key × Tree)) (key : Key)

/-- What the scanner waits for.  At the first item of a list or the first key of an object, the list
or object may also end. -/
inductive State
  | value (around : List Frame)
  | item (first : Bool) (items : List Tree) (around : List Frame)
  | itemEnd (items : List Tree) (around : List Frame)
  | key (first : Bool) (entries : List (Key × Tree)) (around : List Frame)
  | colon (entries : List (Key × Tree)) (key : Key) (around : List Frame)
  | entryEnd (entries : List (Key × Tree)) (around : List Frame)

/-- Puts a value with a defect into what is around it; nothing follows it there. -/
def cutOff : List Frame → Tree → Tree
  | [], t => t
  | .item items :: around, t => cutOff around (.list (t :: items).reverse .unclosed)
  | .entry entries key :: around, t =>
    cutOff around (.object ((key, t) :: entries).reverse .unclosed)

/-- The outcome of a token: another state, or the finished tree. -/
abbrev Step := State ⊕ Tree

/-- Puts a complete value into what is around it. -/
def complete : List Frame → Tree → Step
  | [], t => .inr t
  | .item items :: around, t => .inl (.itemEnd (t :: items) around)
  | .entry entries key :: around, t => .inl (.entryEnd ((key, t) :: entries) around)

/-- The token is the first one of a value. -/
def startValue (around : List Frame) : Token → Step
  | .openObject => .inl (.key true [] around)
  | .openList => .inl (.item true [] around)
  | .null => complete around .null
  | .bool b => complete around (.bool b)
  | .number n => complete around (.number n)
  | .string s => complete around (.string s)
  | .badString f => .inr (cutOff around (.badString f))
  | .bad f => .inr (cutOff around (.bad f))
  | .closeObject | .closeList | .comma | .colon =>
    .inr (cutOff around (.bad (.both .expectedValue)))

/-- Takes one token. -/
def State.step : State → Token → Step
  | .value around, t => startValue around t
  | .item first items around, .closeList =>
    if first then complete around (.list items.reverse .closed)
    else .inr (cutOff around (.list items.reverse .trailingComma))
  | .item _ items around, t => startValue (.item items :: around) t
  | .itemEnd items around, .closeList => complete around (.list items.reverse .closed)
  | .itemEnd items around, .comma => .inl (.item false items around)
  | .itemEnd items around, _ => .inr (cutOff around (.list items.reverse .noComma))
  | .key first entries around, .closeObject =>
    if first then complete around (.object entries.reverse .closed)
    else .inr (cutOff around (.object entries.reverse .trailingComma))
  | .key _ entries around, .string k => .inl (.colon entries k around)
  | .key _ entries around, .badString f =>
    .inr (cutOff around (.object entries.reverse (.badKey f)))
  | .key _ entries around, t => .inr (cutOff around (.object entries.reverse (.noKey t)))
  | .colon entries k around, .colon => .inl (.value (.entry entries k :: around))
  | .colon entries k around, _ =>
    .inr (cutOff around (.object entries.reverse (.noColon k .expectedColon)))
  | .entryEnd entries around, .closeObject => complete around (.object entries.reverse .closed)
  | .entryEnd entries around, .comma => .inl (.key false entries around)
  | .entryEnd entries around, _ => .inr (cutOff around (.object entries.reverse .noComma))

/-- The text has ended. -/
def State.atEnd : State → Tree
  | .value around => cutOff around .absent
  | .item first items around =>
    cutOff around (.list items.reverse (if first then .unclosed else .commaAtEnd))
  | .itemEnd items around => cutOff around (.list items.reverse .unclosed)
  | .key first entries around =>
    cutOff around (.object entries.reverse (if first then .unclosed else .commaAtEnd))
  | .colon entries k around => cutOff around (.object entries.reverse (.noColon k .eofObject))
  | .entryEnd entries around => cutOff around (.object entries.reverse .unclosed)

/-- Takes tokens until the value is complete or broken off, and gives the text after it. -/
def run (s : State) (cs : List Char) : Tree × List Char :=
  match h : Token.next? cs with
  | none => (s.atEnd, [])
  | some (t, rest) =>
    have := Token.length_lt_of_next? h
    match s.step t with
    | .inl s' => run s' rest
    | .inr tree => (tree, rest)
termination_by cs.length

/-- The value at the start of a text, and the text after it. -/
def scan (cs : List Char) : Tree × List Char := run (.value []) cs

end Tree

end SolidityDocs.Json
