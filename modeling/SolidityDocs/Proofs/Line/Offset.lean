import SolidityDocs.Proofs.Line.Extent
import SolidityDocs.Proofs.Text.Basic

/-!
# The line of a decimal offset

A descriptor gives an offset in decimal form, and further parts may follow after a colon.  The
offset of such a descriptor is its number, but only as long as the number is below `2 ^ 63`.  A
larger one counts as no number at all, so that the offset is zero (`startOffset_toString`).  The
number is read with its sign first and is taken as an offset afterwards; `startOffset_eq` puts the
two steps together.

An offset past the end of a text is on the last line.  A number that is too large is on the first
line instead.  So the line of a descriptor is not the one of its number as soon as a newline stands
before that number, the lines do not grow with the numbers, and not every number past the end leads
to the last line.  `line_toString_iff` says for each of the three when it holds: for all numbers
below `2 ^ 63`, and for larger ones only if nothing but the first line is concerned.
`scanLine_two_pow_63` is an offset past the end that is on the first of three lines.
-/

namespace SolidityDocs

/-! ## The start of a descriptor -/

/-- What may follow the number in a descriptor: nothing, or a colon and more. -/
def IsTail (tail : String) : Prop := tail = "" ∨ ∃ more, tail = ":" ++ more

/-- The first colon of a descriptor ends its start. -/
theorem takeWhile_append_tail {cs : List Char} (hcs : ':' ∉ cs) {tail : String}
    (htail : IsTail tail) : (cs ++ tail.toList).takeWhile (fun c => c ≠ ':') = cs := by
  have hpos : ∀ c ∈ cs, decide (c ≠ ':') = true := by
    intro c hc
    exact decide_eq_true fun heq => hcs (heq ▸ hc)
  rw [List.takeWhile_append_of_pos hpos]
  rcases htail with rfl | ⟨more, rfl⟩
  · exact List.append_nil _
  · rw [String.toList_append]
    exact List.append_nil _

theorem startText_toString (n : Nat) {tail : String} (htail : IsTail tail) :
    startText (toString n ++ tail) = Nat.toDigits 10 n := by
  have hdigit := Text.isDigit_toDigits n
  have hcolon : ':' ∉ Nat.toDigits 10 n := fun hc => by cases hdigit ':' hc
  unfold startText
  rw [String.toList_append, Nat.toString_eq_repr, Nat.toList_repr,
    takeWhile_append_tail hcolon htail]
  exact (Text.trimmed_of_forall fun c hc => Text.isBlank_of_isDigit (hdigit c hc)).trim_eq

/-- The digits of a number, which a plus sign may precede. -/
def unsignedDigits : List Char → List Char
  | '+' :: cs => cs
  | cs => cs

theorem unsignedDigits_of_ne {cs : List Char} (hplus : ∀ digits, cs ≠ '+' :: digits) :
    unsignedDigits cs = cs := by
  unfold unsignedDigits
  split
  · next digits => exact absurd rfl (hplus digits)
  · rfl

/-- Digits have no sign in front. -/
theorem unsignedDigits_of_forall {cs : List Char} (hcs : ∀ c ∈ cs, c.isDigit = true) :
    unsignedDigits cs = cs := by
  refine unsignedDigits_of_ne ?_
  rintro digits rfl
  have hdigit := hcs '+' (List.mem_cons_self ..)
  cases hdigit

/-- A number that is not negative is an offset. -/
theorem toNat?_digitsUpTo? (digits : List Char) :
    (((digitsUpTo? (Nat.pow 2 63 - 1) digits).map Int.ofNat).bind Int.toNat?).getD 0 =
      if digits ≠ [] ∧ digits.all Char.isDigit ∧ Text.digitsValue digits < 2 ^ 63 then
        Text.digitsValue digits
      else 0 := by
  have hbound : Text.digitsValue digits ≤ Nat.pow 2 63 - 1 ↔ Text.digitsValue digits < 2 ^ 63 :=
    Nat.le_sub_one_iff_lt (by decide)
  unfold digitsUpTo? Text.digits?
  by_cases hdigits : digits ≠ [] ∧ digits.all Char.isDigit = true
  · by_cases hsmall : Text.digitsValue digits < 2 ^ 63
    · rw [if_pos hdigits, if_pos ⟨hdigits.1, hdigits.2, hsmall⟩, Option.filter_some,
        if_pos (decide_eq_true (hbound.mpr hsmall))]
      rfl
    · rw [if_pos hdigits, if_neg fun h => hsmall h.2.2, Option.filter_some,
        if_neg fun h => hsmall (hbound.mp (of_decide_eq_true h))]
      rfl
  · rw [if_neg hdigits, if_neg fun h => hdigits ⟨h.1, h.2.1⟩]
    rfl

/-- A negative number is no offset, and minus zero is zero. -/
theorem toNat?_neg (value : Option Nat) :
    ((value.map Int.negOfNat).bind Int.toNat?).getD 0 = 0 := by
  rcases value with _ | _ | n <;> rfl

/-- The offset of a descriptor is found by one test of its digits, because a minus sign never leads
to an offset other than zero. -/
theorem startOffset_eq (descriptor : String) :
    startOffset descriptor =
      let digits := unsignedDigits (startText descriptor)
      if digits ≠ [] ∧ digits.all Char.isDigit ∧ Text.digitsValue digits < 2 ^ 63 then
        Text.digitsValue digits
      else 0 := by
  unfold startOffset
  generalize startText descriptor = cs
  unfold signedValue?
  split
  · next digits =>
    rw [toNat?_neg]
    -- the minus sign stays in front of the digits, and is none of them
    exact (if_neg fun h => Bool.false_ne_true h.2.1).symm
  · next digits => exact toNat?_digitsUpTo? digits
  · next hplus => rw [toNat?_digitsUpTo?, unsignedDigits_of_ne hplus]

/-- **The offset of a decimal number is the number, unless it is too large.** -/
theorem startOffset_toString (n : Nat) {tail : String} (htail : IsTail tail) :
    startOffset (toString n ++ tail) = if n < 2 ^ 63 then n else 0 := by
  have hdigits : (Nat.toDigits 10 n).all Char.isDigit = true :=
    List.all_eq_true.mpr (Text.isDigit_toDigits n)
  rw [startOffset_eq]
  simp only [startText_toString n htail, unsignedDigits_of_forall (Text.isDigit_toDigits n),
    Text.digitsValue_toDigits, hdigits, ne_eq, Nat.toDigits_ne_nil, not_false_eq_true, true_and]

/-! ## Lines -/

namespace LineTable

section Decimal

variable (text : String) {tail : String} (htail : IsTail tail)

include htail

theorem scanLine_toString_of_lt {n : Nat} (hn : n < 2 ^ 63) :
    scanLine text (some (toString n ++ tail)) = 1 + ((textBytes text).take n).count newline := by
  show 1 + ((textBytes text).take (startOffset (toString n ++ tail))).count newline = _
  rw [startOffset_toString n htail, if_pos hn]

theorem scanLine_toString_of_le {n : Nat} (hn : 2 ^ 63 ≤ n) :
    scanLine text (some (toString n ++ tail)) = 1 := by
  show 1 + ((textBytes text).take (startOffset (toString n ++ tail))).count newline = _
  rw [startOffset_toString n htail, if_neg (not_lt.mpr hn)]
  rfl

/-- The line of a number counts the newlines before it, unless it is too large and there are any. -/
theorem scanLine_toString_eq_iff (n : Nat) :
    scanLine text (some (toString n ++ tail)) =
        1 + ((textBytes text).take (min n text.utf8ByteSize)).count newline ↔
      n < 2 ^ 63 ∨ newline ∉ (textBytes text).take n := by
  rw [← length_textBytes, ← List.take_eq_take_min]
  rcases Nat.lt_or_ge n (2 ^ 63) with hn | hn
  · rw [scanLine_toString_of_lt text htail hn]
    exact ⟨fun _ => .inl hn, fun _ => rfl⟩
  · rw [scanLine_toString_of_le text htail hn, ← List.count_eq_zero]
    omega

/-- A number gives no later line than a larger one, unless that one is too large. -/
theorem scanLine_toString_le_iff {n m : Nat} (hnm : n ≤ m) :
    scanLine text (some (toString n ++ tail)) ≤ scanLine text (some (toString m ++ tail)) ↔
      m < 2 ^ 63 ∨ scanLine text (some (toString n ++ tail)) = 1 := by
  rcases Nat.lt_or_ge m (2 ^ 63) with hm | hm
  · have hle := count_take_mono (textBytes text) hnm
    rw [scanLine_toString_of_lt text htail hm,
      scanLine_toString_of_lt text htail (Nat.lt_of_le_of_lt hnm hm)]
    omega
  · have hpos : 1 ≤ scanLine text (some (toString n ++ tail)) := Nat.le_add_right 1 _
    rw [scanLine_toString_of_le text htail hm]
    omega

/-- A number past the end gives the last line, unless it is too large. -/
theorem scanLine_toString_eq_lineCount_iff {n : Nat} (hn : text.utf8ByteSize ≤ n) :
    scanLine text (some (toString n ++ tail)) = (ofText text).lineCount ↔
      n < 2 ^ 63 ∨ (ofText text).lineCount = 1 := by
  rw [← length_textBytes] at hn
  rcases Nat.lt_or_ge n (2 ^ 63) with hlt | hge
  · rw [scanLine_toString_of_lt text htail hlt, List.take_of_length_le hn, lineCount_ofText,
      length_pieces]
    omega
  · rw [scanLine_toString_of_le text htail hge]
    omega

/-- **When the line of a descriptor is the one of its number.**  The number is in decimal form, and
a colon and more may follow.  The first statement compares the line with the newlines before the
number, the second one the lines of two numbers, and the third one is about numbers past the end. -/
theorem line_toString_iff :
    (∀ n : Nat, (ofText text).lineOf (some (toString n ++ tail)) =
      scanLine text (some (toString n ++ tail))) ∧
    (∀ n : Nat, scanLine text (some (toString n ++ tail)) =
        1 + ((textBytes text).take (min n text.utf8ByteSize)).count newline ↔
      n < 2 ^ 63 ∨ newline ∉ (textBytes text).take n) ∧
    (∀ n m : Nat, n ≤ m →
      (scanLine text (some (toString n ++ tail)) ≤ scanLine text (some (toString m ++ tail)) ↔
        m < 2 ^ 63 ∨ scanLine text (some (toString n ++ tail)) = 1)) ∧
    ∀ n : Nat, text.utf8ByteSize ≤ n →
      (scanLine text (some (toString n ++ tail)) = (ofText text).lineCount ↔
        n < 2 ^ 63 ∨ (ofText text).lineCount = 1) :=
  ⟨fun n => lineAt_ofText text (startOffset (toString n ++ tail)),
    scanLine_toString_eq_iff text htail, fun _ _ => scanLine_toString_le_iff text htail,
    fun _ => scanLine_toString_eq_lineCount_iff text htail⟩

end Decimal

/-- The largest number that counts is past the end of a text of three lines, and on the last one. -/
theorem line_toString_iff_largest :
    IsTail ":1:0" ∧ "a\nb\nc".utf8ByteSize ≤ 2 ^ 63 - 1 ∧
      scanLine "a\nb\nc" (some (toString (2 ^ 63 - 1) ++ ":1:0")) =
        (ofText "a\nb\nc").lineCount := by
  have htail : IsTail ":1:0" := .inr ⟨"1:0", rfl⟩
  obtain ⟨-, -, -, hpast⟩ := line_toString_iff "a\nb\nc" htail
  have hsize : "a\nb\nc".utf8ByteSize ≤ 2 ^ 63 - 1 := by decide
  exact ⟨htail, hsize, (hpast _ hsize).mpr (.inl (by decide))⟩

/-- **The next number is on the first line.**  It is past the end of the text as well. -/
theorem scanLine_two_pow_63 :
    scanLine "a\nb\nc" (some "9223372036854775808:1:0") = 1 ∧
    (ofText "a\nb\nc").lineOf (some "9223372036854775808:1:0") = 1 ∧
    1 + ((textBytes "a\nb\nc").take (min 9223372036854775808 "a\nb\nc".utf8ByteSize)).count
      newline = 3 ∧
    (ofText "a\nb\nc").lineCount = 3 := by
  have hscan : scanLine "a\nb\nc" (some "9223372036854775808:1:0") = 1 :=
    scanLine_toString_of_le "a\nb\nc" (n := 9223372036854775808) (.inr ⟨"1:0", rfl⟩) (by decide)
  exact ⟨hscan, (lineAt_ofText _ _).trans hscan, by decide, by decide⟩

end LineTable

end SolidityDocs
