import SolidityDocs.Proofs.Line.Offset

/-!
# Which descriptors have which offset

The offset of a descriptor is found in steps.  The text in front of the first colon is cut off and
trimmed, a sign is taken away, the rest is tested for digits, their value is compared with a limit
that depends on the sign, and a negative value is refused.  Whatever fails on the way gives the
offset zero, so it is not plain from the steps which texts count and which do not.  This file says
it without them.

A descriptor `Starts` with a text if it is that text, with blanks around it, up to the first colon
or to its end.  Every descriptor starts with exactly one text (`starts_iff`).  The texts that count
are those of a grammar: `Text.Digits` puts digits one after the other, each with the value that this
gives, and a `Text.Numeral` may have a plus sign in front.  So zeros in front do not matter, and a
minus sign, a blank inside, a digit of another script or a second sign never belongs to a numeral
(`Text.not_numeral_iff`).

* `startOffset_of_numeral`, `startOffset_of_not_numeral`: the offset by the grammar.
* `startOffset_reads`: the offsets of all descriptors.
-/

namespace SolidityDocs

namespace Text

/-! ## Numerals -/

/-- Decimal digits, at least one, and their value. -/
inductive Digits : List Char → Nat → Prop
  | single {d : Nat} (hd : d < 10) : Digits [d.digitChar] d
  | concat {cs : List Char} {n d : Nat} (hcs : Digits cs n) (hd : d < 10) :
    Digits (cs ++ [d.digitChar]) (10 * n + d)

/-- Decimal digits with or without a plus sign, and their value. -/
inductive Numeral : List Char → Nat → Prop
  | plain {cs : List Char} {n : Nat} (hcs : Digits cs n) : Numeral cs n
  | plus {cs : List Char} {n : Nat} (hcs : Digits cs n) : Numeral ('+' :: cs) n

theorem digitsValue_concat (cs : List Char) (c : Char) :
    digitsValue (cs ++ [c]) = 10 * digitsValue cs + digitValue c := by
  unfold digitsValue
  rw [List.foldl_concat]

theorem digitValue_digitChar {d : Nat} (hd : d < 10) : digitValue d.digitChar = d :=
  Nat.toNat_digitChar_sub_48_of_lt_ten hd

/-- Every decimal digit is the digit of its value. -/
theorem exists_digitChar {c : Char} (hc : c.isDigit = true) : ∃ d < 10, d.digitChar = c := by
  have hrange : 48 ≤ c.toNat ∧ c.toNat ≤ 57 := Char.isDigit_iff_toNat.mp hc
  have hlt : c.toNat - 48 < 10 := by omega
  refine ⟨c.toNat - 48, hlt, Char.toNat_inj.mp ?_⟩
  rw [Nat.toNat_digitChar_of_lt_ten hlt]
  omega

/-- The grammar of digits: what the test for digits lets through, with its value. -/
theorem digits_iff {cs : List Char} {n : Nat} :
    Digits cs n ↔ cs ≠ [] ∧ (∀ c ∈ cs, c.isDigit = true) ∧ digitsValue cs = n := by
  have hdigit : ∀ {d : Nat}, d < 10 → d.digitChar.isDigit = true := fun hd => by
    rw [Nat.isDigit_digitChar, decide_eq_true hd]
  constructor
  · intro h
    induction h with
    | single hd =>
      refine ⟨List.cons_ne_nil _ _, fun c hc => ?_, ?_⟩
      · rw [List.mem_singleton.mp hc]
        exact hdigit hd
      · exact (digitsValue_concat [] _).trans ((Nat.zero_add _).trans (digitValue_digitChar hd))
    | concat _ hd ih =>
      obtain ⟨-, hall, hvalue⟩ := ih
      refine ⟨List.append_ne_nil_of_right_ne_nil _ (List.cons_ne_nil _ _), fun c hc => ?_, ?_⟩
      · rcases List.mem_append.mp hc with hc | hc
        · exact hall c hc
        · rw [List.mem_singleton.mp hc]
          exact hdigit hd
      · rw [digitsValue_concat, hvalue, digitValue_digitChar hd]
  · rintro ⟨hne, hall, rfl⟩
    -- the grammar adds digits at the end, so the induction is from there
    induction cs using List.reverseRecOn with
    | nil => exact absurd rfl hne
    | append_singleton cs c ih =>
      obtain ⟨d, hd, rfl⟩ := exists_digitChar (hall c (by simp))
      rw [digitsValue_concat, digitValue_digitChar hd]
      by_cases hcs : cs = []
      · rw [hcs]
        exact (Nat.zero_add d).symm ▸ Digits.single hd
      · exact .concat (ih hcs fun c hc => hall c (List.mem_append_left _ hc)) hd

/-- A numeral is known by its digits, because a sign is no digit. -/
theorem numeral_iff {cs : List Char} {n : Nat} : Numeral cs n ↔ Digits (unsignedDigits cs) n := by
  constructor
  · rintro (hcs | hcs)
    · rw [unsignedDigits_of_forall (digits_iff.mp hcs).2.1]
      exact hcs
    · exact hcs
  · intro h
    unfold unsignedDigits at h
    split at h
    · exact .plus h
    · exact .plain h

theorem Numeral.unique {cs : List Char} {n m : Nat} (hn : Numeral cs n) (hm : Numeral cs m) :
    n = m :=
  (digits_iff.mp (numeral_iff.mp hn)).2.2.symm.trans (digits_iff.mp (numeral_iff.mp hm)).2.2

theorem not_digits_iff {cs : List Char} :
    (∀ n, ¬ Digits cs n) ↔ cs = [] ∨ ∃ c ∈ cs, c.isDigit = false := by
  constructor
  · intro h
    by_contra hall
    push Not at hall
    refine h _ (digits_iff.mpr ⟨hall.1, fun c hc => ?_, rfl⟩)
    exact Bool.eq_true_of_not_eq_false (hall.2 c hc)
  · rintro (rfl | ⟨c, hc, hdigit⟩) n hn
    · exact (digits_iff.mp hn).1 rfl
    · have htrue := (digits_iff.mp hn).2.1 c hc
      rw [hdigit] at htrue
      cases htrue

/-- **What is no numeral.**  It is empty, or a plus sign alone, or it has a character that is no
decimal digit, other than a plus sign in front. -/
theorem not_numeral_iff {cs : List Char} :
    (∀ n, ¬ Numeral cs n) ↔ cs = [] ∨ cs = ['+'] ∨
      ∃ before c after, cs = before ++ c :: after ∧ c.isDigit = false ∧
        (c = '+' → before ≠ []) := by
  simp only [numeral_iff, not_digits_iff]
  unfold unsignedDigits
  split
  · next cs =>
    constructor
    · rintro (rfl | ⟨c, hc, hdigit⟩)
      · exact .inr (.inl rfl)
      · obtain ⟨before, after, rfl⟩ := List.append_of_mem hc
        exact .inr (.inr ⟨'+' :: before, c, after, rfl, hdigit, fun _ => List.cons_ne_nil _ _⟩)
    · rintro (hnil | hplus | ⟨before, c, after, hcut, hdigit, hfront⟩)
      · cases hnil
      · exact .inl (List.cons.inj hplus).2
      · cases before with
        | nil => exact absurd rfl (hfront (List.cons.inj hcut).1.symm)
        | cons b before =>
          refine .inr ⟨c, ?_, hdigit⟩
          rw [(List.cons.inj hcut).2]
          exact List.mem_append_right _ (List.mem_cons_self ..)
  · next cs hsign =>
    constructor
    · rintro (rfl | ⟨c, hc, hdigit⟩)
      · exact .inl rfl
      · obtain ⟨before, after, rfl⟩ := List.append_of_mem hc
        refine .inr (.inr ⟨before, c, after, rfl, hdigit, ?_⟩)
        rintro rfl rfl
        exact hsign after rfl
    · rintro (hnil | hplus | ⟨before, c, after, rfl, hdigit, -⟩)
      · exact .inl hnil
      · exact absurd hplus (hsign [])
      · exact .inr ⟨c, List.mem_append_right _ (List.mem_cons_self ..), hdigit⟩

/-- A text without a small value is no numeral, or one with a large value. -/
theorem not_exists_numeral_le_iff {cs : List Char} (bound : Nat) :
    (¬ ∃ n ≤ bound, Numeral cs n) ↔ (∀ n, ¬ Numeral cs n) ∨ ∃ n > bound, Numeral cs n := by
  constructor
  · intro hnone
    by_cases hnumeral : ∃ n, Numeral cs n
    · obtain ⟨n, hn⟩ := hnumeral
      exact .inr ⟨n, Nat.lt_of_not_le fun hle => hnone ⟨n, hle, hn⟩, hn⟩
    · exact .inl (not_exists.mp hnumeral)
  · rintro (hnone | ⟨m, hm, hnumeral⟩) ⟨n, hle, hn⟩
    · exact hnone n hn
    · have heq := hn.unique hnumeral
      omega

end Text

/-! ## Starts -/

/-- The descriptor is the text with blanks around it, up to the first colon or to its end.  The text
has no colon, and no blanks at its ends. -/
structure Starts (descriptor start : String) : Prop where
  trimmed : Text.Trimmed start.toList
  colon : ':' ∉ start.toList
  split : ∃ lead trail tail : String, Text.Blanks lead.toList ∧ Text.Blanks trail.toList ∧
    IsTail tail ∧ descriptor = lead ++ start ++ trail ++ tail

/-- A text falls into what is in front of its first colon and the rest. -/
theorem exists_tail (descriptor : String) :
    ∃ tail, IsTail tail ∧
      descriptor.toList = descriptor.toList.takeWhile (fun c => c ≠ ':') ++ tail.toList := by
  refine ⟨.ofList (descriptor.toList.dropWhile fun c => c ≠ ':'), ?_, ?_⟩
  · have hnot := List.head?_dropWhile_not (fun c => decide (c ≠ ':')) descriptor.toList
    cases hrest : descriptor.toList.dropWhile fun c => c ≠ ':' with
    | nil => exact .inl rfl
    | cons c more =>
      rw [hrest] at hnot
      have hcolon : c = ':' := by simpa using hnot
      refine .inr ⟨.ofList more, String.toList_inj.mp ?_⟩
      simp only [String.toList_append, String.toList_ofList, hcolon]
      exact List.singleton_append.symm
  · rw [String.toList_ofList, List.takeWhile_append_dropWhile]

theorem colon_notMem_of_blanks {cs : List Char} (hcs : Text.Blanks cs) : ':' ∉ cs := fun hc => by
  cases hcs ':' hc

/-- **Every descriptor starts with one text.** -/
theorem starts_iff {descriptor start : String} :
    Starts descriptor start ↔ startText descriptor = start.toList := by
  unfold startText
  constructor
  · rintro ⟨htrimmed, hcolon, lead, trail, tail, hlead, htrail, htail, rfl⟩
    have hfront : ':' ∉ lead.toList ++ start.toList ++ trail.toList := by
      simp only [List.mem_append, not_or]
      exact ⟨⟨colon_notMem_of_blanks hlead, hcolon⟩, colon_notMem_of_blanks htrail⟩
    rw [String.toList_append, String.toList_append, String.toList_append,
      takeWhile_append_tail hfront htail]
    exact Text.trim_blanks hlead htrail htrimmed
  · intro h
    obtain ⟨htrimmed, lead, trail, hlead, htrail, hcut⟩ := Text.trim_eq_iff.mp h
    obtain ⟨tail, htail, hdescriptor⟩ := exists_tail descriptor
    refine ⟨htrimmed, fun hcolon => ?_, .ofList lead, .ofList trail, tail, ?_, ?_, htail, ?_⟩
    · have hmem : ':' ∈ descriptor.toList.takeWhile (fun c => c ≠ ':') := by
        rw [hcut]
        exact List.mem_append_left _ (List.mem_append_right _ hcolon)
      have hne := List.mem_takeWhile_imp hmem
      simp at hne
    · rwa [String.toList_ofList]
    · rwa [String.toList_ofList]
    · apply String.toList_inj.mp
      rw [hdescriptor, hcut]
      simp only [String.toList_append, String.toList_ofList]

/-! ## Offsets -/

/-- A numeral gives its value, unless that is too large. -/
theorem startOffset_of_numeral {descriptor : String} {n : Nat}
    (h : Text.Numeral (startText descriptor) n) :
    startOffset descriptor = if n < 2 ^ 63 then n else 0 := by
  obtain ⟨hne, hall, hvalue⟩ := Text.digits_iff.mp (Text.numeral_iff.mp h)
  rw [startOffset_eq]
  simp only [hvalue, List.all_eq_true.mpr hall, hne, ne_eq, not_false_eq_true, true_and]

/-- Anything else gives zero. -/
theorem startOffset_of_not_numeral {descriptor : String}
    (h : ∀ n, ¬ Text.Numeral (startText descriptor) n) : startOffset descriptor = 0 := by
  rw [startOffset_eq]
  refine if_neg ?_
  rintro ⟨hne, hall, -⟩
  have hdigits := Text.digits_iff.mpr ⟨hne, List.all_eq_true.mp hall, rfl⟩
  exact h _ (Text.numeral_iff.mpr hdigits)

/-- **The offsets of all descriptors.**  Every descriptor starts with one text.  If that is a
numeral whose value is below `2 ^ 63`, the offset is this value, and it is zero for every other
text: for an empty one, for a sign alone, for one with a character that does not belong to a
numeral, and for a larger numeral.  So a decimal number below `2 ^ 63` in front of a colon is the
offset, whatever follows. -/
theorem startOffset_reads :
    (∀ descriptor, ∃! start, Starts descriptor start) ∧
    (∀ descriptor start, Starts descriptor start →
      (∀ n, Text.Numeral start.toList n → n ≤ 2 ^ 63 - 1 → startOffset descriptor = n) ∧
      ((¬ ∃ n ≤ 2 ^ 63 - 1, Text.Numeral start.toList n) → startOffset descriptor = 0)) ∧
    (∀ cs, (¬ ∃ n ≤ 2 ^ 63 - 1, Text.Numeral cs n) ↔
      cs = [] ∨ cs = ['+'] ∨
      (∃ before c after, cs = before ++ c :: after ∧ c.isDigit = false ∧
        (c = '+' → before ≠ [])) ∨
      ∃ n > 2 ^ 63 - 1, Text.Numeral cs n) ∧
    ∀ (n : Nat) (suffix : String), n ≤ 2 ^ 63 - 1 →
      startOffset (toString n ++ ":" ++ suffix) = n := by
  refine ⟨fun descriptor => ?_, fun descriptor start hstart => ⟨?_, ?_⟩, fun cs => ?_, ?_⟩
  · refine ⟨.ofList (startText descriptor), starts_iff.mpr String.toList_ofList.symm, ?_⟩
    intro start hstart
    rw [starts_iff.mp hstart, String.ofList_toList]
  · intro n hn hle
    rw [← starts_iff.mp hstart] at hn
    rw [startOffset_of_numeral hn, if_pos (by omega)]
  · intro hnone
    rw [← starts_iff.mp hstart, Text.not_exists_numeral_le_iff] at hnone
    rcases hnone with hnone | ⟨n, hlarge, hn⟩
    · exact startOffset_of_not_numeral hnone
    · rw [startOffset_of_numeral hn, if_neg (by omega)]
  · rw [Text.not_exists_numeral_le_iff, Text.not_numeral_iff, or_assoc, or_assoc]
  · intro n suffix hn
    rw [String.append_assoc, startOffset_toString n (.inr ⟨suffix, rfl⟩), if_pos (by omega)]

/-- A numeral with a sign, with zeros in front and with blanks around it has its value as offset,
and so has the largest one that counts, while a minus sign, a blank inside and the next larger value
all lead to zero. -/
theorem startOffset_reads_padded :
    Starts "\u3000+007\t:12:0" "+007" ∧ Text.Numeral "+007".toList 7 ∧
      startOffset "\u3000+007\t:12:0" = 7 ∧
    Starts "-7:12:0" "-7" ∧ startOffset "-7:12:0" = 0 ∧
    Starts " 1 2:" "1 2" ∧ startOffset " 1 2:" = 0 ∧
    Starts "9223372036854775808" "9223372036854775808" ∧
      startOffset "9223372036854775808" = 0 ∧
    startOffset (toString (2 ^ 63 - 1) ++ ":" ++ "0:0") = 2 ^ 63 - 1 := by
  obtain ⟨-, hread, hother, hdecimal⟩ := startOffset_reads
  have hpadded : Starts "\u3000+007\t:12:0" "+007" := starts_iff.mpr (by decide)
  have hminus : Starts "-7:12:0" "-7" := starts_iff.mpr (by decide)
  have hinside : Starts " 1 2:" "1 2" := starts_iff.mpr (by decide)
  have hlarge : Starts "9223372036854775808" "9223372036854775808" := starts_iff.mpr (by decide)
  have hzero : Text.Digits ['0'] 0 := .single (d := 0) (by decide)
  have hseven : Text.Numeral "+007".toList 7 :=
    .plus (.concat (d := 7) (.concat (d := 0) hzero (by decide)) (by decide))
  have hnext : Text.Numeral "9223372036854775808".toList (2 ^ 63) :=
    .plain (Text.digits_iff.mpr ⟨by decide, List.all_eq_true.mp (by decide), by decide⟩)
  refine ⟨hpadded, hseven, (hread _ _ hpadded).1 7 hseven (by decide), hminus,
    (hread _ _ hminus).2 ?_, hinside, (hread _ _ hinside).2 ?_, hlarge,
    (hread _ _ hlarge).2 ?_, hdecimal _ _ (Nat.le_refl _)⟩
  · exact (hother _).mpr (.inr (.inr (.inl ⟨[], '-', ['7'], rfl, rfl, nofun⟩)))
  · exact (hother _).mpr (.inr (.inr (.inl ⟨['1'], ' ', ['2'], rfl, rfl, nofun⟩)))
  · exact (hother _).mpr (.inr (.inr (.inr ⟨2 ^ 63, by decide, hnext⟩)))

end SolidityDocs
