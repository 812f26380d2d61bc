import SolidityDocs.Json.Number

/-!
# Tokens of a JSON text

`Token.next?` takes the first token off a text.  A token never depends on what stands before it, so
a reader can decide by itself whether the token fits its place.

A string or number may be well formed and still have no value: a surrogate escape without its
partner, or a number beyond the range of floats.  Such a token carries the error in place of the
value, because a reader that skips the token never looks at it.  A token that is not well formed
carries a `Fault`, and nothing after it is a token.

Main statement: `Token.length_lt_of_next?`, a token takes at least one character.
-/

namespace SolidityDocs.Json

/-- A piece of JSON text.  A number or string has its value or the reason why it has none.  A bad
token is text that starts no token, or a literal or number that is not well formed. -/
inductive Token
  | openObject
  | closeObject
  | openList
  | closeList
  | comma
  | colon
  | null
  | bool (b : Bool)
  | number (n : Except SyntaxError Number)
  | string (s : Except SyntaxError String)
  | badString (f : Fault)
  | bad (f : Fault)

namespace Token

/-- The characters that separate tokens. -/
def isBlank (c : Char) : Bool := c == ' ' || c == '\n' || c == '\t' || c == '\r'

/-! ## Literals -/

/-- Takes the rest of a literal off a text. -/
def literal : List Char → List Char → Except SyntaxError (List Char)
  | [], cs => .ok cs
  | _ :: _, [] => .error .eofValue
  | e :: es, c :: cs => if c = e then literal es cs else .error .expectedIdent

theorem length_le_of_literal {es cs rest : List Char} (h : literal es cs = .ok rest) :
    rest.length ≤ cs.length := by
  induction es generalizing cs with
  | nil => cases h; exact Nat.le_refl _
  | cons e es ih =>
    cases cs with
    | nil => cases h
    | cons c cs =>
      rw [literal] at h
      split at h
      · exact Nat.le_succ_of_le (ih h)
      · cases h

/-! ## Numbers -/

/-- Digits are due at the end of the text: a reader that keeps the number waits for them. -/
def digitsDue : List Char → Fault
  | [] => ⟨.eofValue, .invalidNumber⟩
  | _ :: _ => .both .invalidNumber

/-- The sign of an exponent, `true` for minus, and the text after it. -/
def exponentSign : List Char → Bool × List Char
  | '-' :: r => (true, r)
  | '+' :: r => (false, r)
  | r => (false, r)

/-- The exponent of a number, after its sign and digits before the exponent have been read. -/
def numberExponent (minus : Bool) (whole : List Char) (fraction : Option (List Char))
    (cs : List Char) : Except Fault (NumberLiteral × List Char) :=
  match cs with
  | c :: r =>
    if c = 'e' ∨ c = 'E' then
      let signed := exponentSign r
      let digits := signed.2.takeWhile Char.isDigit
      if digits.isEmpty then .error (digitsDue signed.2)
      else
        .ok (⟨minus, whole, fraction, some (signed.1, digits)⟩, signed.2.dropWhile Char.isDigit)
    else .ok (⟨minus, whole, fraction, none⟩, c :: r)
  | [] => .ok (⟨minus, whole, fraction, none⟩, [])

/-- The fraction and exponent of a number, after its digits before the point. -/
def numberFraction (minus : Bool) (whole cs : List Char) :
    Except Fault (NumberLiteral × List Char) :=
  match cs with
  | '.' :: r =>
    let digits := r.takeWhile Char.isDigit
    if digits.isEmpty then .error (digitsDue r)
    else numberExponent minus whole (some digits) (r.dropWhile Char.isDigit)
  | cs => numberExponent minus whole none cs

/-- A number after its sign.  A zero stands alone before the point. -/
def numberWhole (minus : Bool) (cs : List Char) : Except Fault (NumberLiteral × List Char) :=
  let digits := cs.takeWhile Char.isDigit
  match digits with
  | [] => .error (digitsDue cs)
  | '0' :: _ :: _ => .error (.both .invalidNumber)
  | digits => numberFraction minus digits (cs.dropWhile Char.isDigit)

theorem length_dropWhile_le {α : Type} (p : α → Bool) (l : List α) :
    (l.dropWhile p).length ≤ l.length :=
  (List.dropWhile_suffix p).length_le

theorem length_exponentSign_le (r : List Char) : (exponentSign r).2.length ≤ r.length := by
  unfold exponentSign
  split <;> simp

theorem length_le_of_numberExponent {minus : Bool} {whole : List Char}
    {fraction : Option (List Char)} {cs rest : List Char} {l : NumberLiteral}
    (h : numberExponent minus whole fraction cs = .ok (l, rest)) : rest.length ≤ cs.length := by
  unfold numberExponent at h
  split at h
  · rename_i c r
    split at h
    · simp only at h
      split at h
      · cases h
      · cases h
        exact Nat.le_trans (length_dropWhile_le _ _)
          (Nat.le_succ_of_le (length_exponentSign_le r))
    · cases h; exact Nat.le_refl _
  · cases h; exact Nat.le_refl _

theorem length_le_of_numberFraction {minus : Bool} {whole cs rest : List Char} {l : NumberLiteral}
    (h : numberFraction minus whole cs = .ok (l, rest)) : rest.length ≤ cs.length := by
  unfold numberFraction at h
  split at h
  · simp only at h
    split at h
    · cases h
    · exact Nat.le_trans (length_le_of_numberExponent h)
        (Nat.le_succ_of_le (length_dropWhile_le _ _))
  · exact length_le_of_numberExponent h

theorem length_le_of_numberWhole {minus : Bool} {cs rest : List Char} {l : NumberLiteral}
    (h : numberWhole minus cs = .ok (l, rest)) : rest.length ≤ cs.length := by
  unfold numberWhole at h
  simp only at h
  split at h
  · cases h
  · cases h
  · exact Nat.le_trans (length_le_of_numberFraction h) (length_dropWhile_le _ _)

/-! ## Strings -/

/-- The value of four hex digits. -/
def hexUnit? (a b c d : Char) : Option Nat := do
  let a ← Text.hexValue? a
  let b ← Text.hexValue? b
  let c ← Text.hexValue? c
  let d ← Text.hexValue? d
  return ((a * 16 + b) * 16 + c) * 16 + d

/-- The code unit of a `\u` escape.  The four digits are bytes of the text, so a text with fewer
bytes left has ended. -/
def codeUnit (cs : List Char) : Except SyntaxError (Nat × List Char) :=
  if (cs.take 4).foldr (fun c n => c.utf8Size + n) 0 < 4 then .error .eofString
  else
    match cs with
    | a :: b :: c :: d :: rest =>
      match hexUnit? a b c d with
      | some n => .ok (n, rest)
      | none => .error .invalidEscape
    | _ => .error .invalidEscape

theorem length_lt_of_codeUnit {cs rest : List Char} {n : Nat} (h : codeUnit cs = .ok (n, rest)) :
    rest.length < cs.length := by
  unfold codeUnit at h
  split at h
  · cases h
  · split at h
    · split at h
      · cases h; simp only [List.length_cons]; omega
      · cases h
    · cases h

/-- Whether a code unit is the first half of a surrogate pair. -/
def isLeading (n : Nat) : Bool := 0xD800 ≤ n && n ≤ 0xDBFF

/-- Whether a code unit is the second half of a surrogate pair. -/
def isTrailing (n : Nat) : Bool := 0xDC00 ≤ n && n ≤ 0xDFFF

/-- The character that a surrogate pair denotes. -/
def pairValue (n m : Nat) : Char := Char.ofNat ((n - 0xD800) * 0x400 + (m - 0xDC00) + 0x10000)

/-- The character of a one-letter escape. -/
def escapeValue? : Char → Option Char
  | '"' => some '"'
  | '\\' => some '\\'
  | '/' => some '/'
  | 'b' => some '\x08'
  | 'f' => some '\x0c'
  | 'n' => some '\n'
  | 'r' => some '\r'
  | 't' => some '\t'
  | _ => none

/-- What an escape adds to a string: a character, or the first reason why the string has no value.
The rest of the text follows. -/
structure Escape where
  value : Except SyntaxError Char
  rest : List Char

/-- An escape, after its backslash.  A leading surrogate takes the escape after it when that is a
trailing one. -/
def escape (cs : List Char) : Except SyntaxError Escape :=
  match cs with
  | [] => .error .eofString
  | 'u' :: cs =>
    match codeUnit cs with
    | .error e => .error e
    | .ok (n, rest) =>
      if isTrailing n then .ok ⟨.error .loneSurrogate, rest⟩
      else if isLeading n then
        match rest with
        | [] => .error .eofString
        | ['\\'] => .error .eofString
        | '\\' :: 'u' :: after =>
          match codeUnit after with
          | .error e => .error e
          | .ok (m, rest') =>
            if isTrailing m then .ok ⟨.ok (pairValue n m), rest'⟩
            else .ok ⟨.error .loneSurrogate, rest⟩
        | rest => .ok ⟨.error .endOfHexEscape, rest⟩
      else .ok ⟨.ok (Char.ofNat n), rest⟩
  | c :: cs =>
    match escapeValue? c with
    | some v => .ok ⟨.ok v, cs⟩
    | none => .error .invalidEscape

theorem length_lt_of_escape {cs : List Char} {e : Escape} (h : escape cs = .ok e) :
    e.rest.length < cs.length := by
  unfold escape at h
  split at h
  · cases h
  · rename_i cs
    split at h
    · cases h
    · rename_i n rest hu
      have hlt := length_lt_of_codeUnit hu
      simp only [List.length_cons]
      split at h
      · cases h; simp only; omega
      · split at h
        · split at h
          · cases h
          · cases h
          · rename_i after
            split at h
            · cases h
            · rename_i m rest' hm
              have hm' := length_lt_of_codeUnit hm
              simp only [List.length_cons] at hlt
              split at h
              · cases h; simp only; omega
              · cases h; simp only [List.length_cons]; omega
          · cases h; simp only; omega
        · cases h; simp only; omega
  · rename_i c cs _
    split at h
    · cases h; simp
    · cases h

/-- The value of a string under construction: its characters in reverse, or the first reason why it
has no value. -/
def pushChar (s : Except SyntaxError (List Char)) (c : Except SyntaxError Char) :
    Except SyntaxError (List Char) :=
  match s, c with
  | .ok cs, .ok c => .ok (c :: cs)
  | .ok _, .error e => .error e
  | .error e, _ => .error e

/-- The fault of a string that breaks off: a reader that keeps the string meets an earlier reason
first. -/
def breakOff (s : Except SyntaxError (List Char)) (e : SyntaxError) : Fault :=
  match s with
  | .ok _ => .both e
  | .error first => ⟨first, e⟩

/-- A string after its opening quote, with what has been read of it so far. -/
def stringBody (cs : List Char) (sofar : Except SyntaxError (List Char)) : Token × List Char :=
  match cs with
  | [] => (.badString (breakOff sofar .eofString), [])
  | '"' :: rest => (.string (sofar.map fun s => String.ofList s.reverse), rest)
  | '\\' :: rest =>
    match h : escape rest with
    | .error e => (.badString (breakOff sofar e), [])
    | .ok e =>
      have := length_lt_of_escape h
      stringBody e.rest (pushChar sofar e.value)
  | c :: rest =>
    if c.toNat < 0x20 then (.badString (breakOff sofar .controlCharacter), [])
    else stringBody rest (pushChar sofar (.ok c))
termination_by cs.length
decreasing_by all_goals simp only [List.length_cons]; omega

theorem length_le_stringBody (cs : List Char) (sofar : Except SyntaxError (List Char)) :
    (stringBody cs sofar).2.length ≤ cs.length := by
  fun_induction stringBody cs sofar with
  | case1 => simp
  | case2 => simp
  | case3 => simp
  | case4 sofar rest e h ih =>
    have := length_lt_of_escape h
    simp only [List.length_cons]
    omega
  | case5 => simp
  | case6 sofar c rest _ _ _ ih =>
    simp only [List.length_cons]
    omega

/-! ## The first token -/

/-- A literal whose first letter has been read. -/
def ofLiteral (t : Token) : Except SyntaxError (List Char) → Token × List Char
  | .ok rest => (t, rest)
  | .error e => (.bad (.both e), [])

/-- A number that has been read. -/
def ofNumber : Except Fault (NumberLiteral × List Char) → Token × List Char
  | .ok (l, rest) => (.number l.value, rest)
  | .error f => (.bad f, [])

/-- The token that starts with the character `c`, which is not blank. -/
def startingWith (c : Char) (cs : List Char) : Token × List Char :=
  match c with
  | '\x7b' => (.openObject, cs)
  | '\x7d' => (.closeObject, cs)
  | '[' => (.openList, cs)
  | ']' => (.closeList, cs)
  | ',' => (.comma, cs)
  | ':' => (.colon, cs)
  | '"' => stringBody cs (.ok [])
  | 'n' => ofLiteral .null (literal ['u', 'l', 'l'] cs)
  | 't' => ofLiteral (.bool true) (literal ['r', 'u', 'e'] cs)
  | 'f' => ofLiteral (.bool false) (literal ['a', 'l', 's', 'e'] cs)
  | '-' => ofNumber (numberWhole true cs)
  | c =>
    if c.isDigit then ofNumber (numberWhole false (c :: cs))
    else (.bad (.both .expectedValue), cs)

/-- The first token of a text and the text after it, or nothing when only blanks are left. -/
def next? (cs : List Char) : Option (Token × List Char) :=
  match cs.dropWhile isBlank with
  | [] => none
  | c :: rest => some (startingWith c rest)

/-! ## A token takes at least one character -/

theorem length_ofLiteral_le {t : Token} {es cs : List Char} :
    (ofLiteral t (literal es cs)).2.length ≤ cs.length := by
  cases h : literal es cs with
  | ok rest => exact length_le_of_literal h
  | error e => simp [ofLiteral]

theorem length_ofNumber_le {minus : Bool} {cs : List Char} :
    (ofNumber (numberWhole minus cs)).2.length ≤ cs.length := by
  cases h : numberWhole minus cs with
  | ok p =>
    obtain ⟨l, rest⟩ := p
    exact length_le_of_numberWhole h
  | error f => simp [ofNumber]

theorem length_ofNumber_digit_lt {c : Char} {cs : List Char} (hc : c.isDigit = true) :
    (ofNumber (numberWhole false (c :: cs))).2.length ≤ cs.length := by
  have hd : ((c :: cs).dropWhile Char.isDigit).length ≤ cs.length := by
    rw [List.dropWhile_cons_of_pos hc]
    exact length_dropWhile_le _ _
  cases h : numberWhole false (c :: cs) with
  | ok p =>
    obtain ⟨l, rest⟩ := p
    unfold numberWhole at h
    simp only at h
    split at h
    · cases h
    · cases h
    · exact Nat.le_trans (length_le_of_numberFraction h) hd
  | error f => simp [ofNumber]

theorem length_startingWith_le (c : Char) (cs : List Char) :
    (startingWith c cs).2.length ≤ cs.length := by
  unfold startingWith
  split
  case h_12 =>
    split
    · exact length_ofNumber_digit_lt ‹_›
    · exact Nat.le_refl _
  all_goals first
    | exact Nat.le_refl _
    | exact length_le_stringBody _ _
    | exact length_ofLiteral_le
    | exact length_ofNumber_le

/-- A token takes at least one character. -/
theorem length_lt_of_next? {cs rest : List Char} {t : Token} (h : next? cs = some (t, rest)) :
    rest.length < cs.length := by
  unfold next? at h
  have hd := length_dropWhile_le isBlank cs
  split at h
  · cases h
  · rename_i c r heq
    rw [heq] at hd
    have hs := length_startingWith_le c r
    rw [Option.some.inj h] at hs
    simp only [List.length_cons] at hd
    exact Nat.lt_of_le_of_lt hs hd

end Token

end SolidityDocs.Json
