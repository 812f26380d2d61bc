import Mathlib
import SolidityDocs.Toml.Writer

/-!
# Reading written strings

A string is written in one of four forms, and whichever it is, the reader finds the string again in
front of any text that does not go on with a quote or an apostrophe.

Between quotes, characters are written one by one, and so they are read.  The readers for one quote
and for three quotes agree on all characters but the line break and the quote, so their common rules
are collected in `ReadsEscapes` and a written character is followed through these rules only once
(`ReadsEscapes.body_basicChar`).

## Marks at the end

Between three marks, up to two of them may stand in a row, and they may also stand at the very end,
in front of the closing ones.  The reader stops at the first three marks it meets and then takes
further marks, two at most, as part of the string.  So a run of marks within the string has to be
told from one at its end: the first is read mark by mark, and the second is read at once, together
with the closing marks (`afterMarks?_replicate`, `closing_replicate`).

* `basicBody_basicText`, `literalBody_append`: a string in one line.
* `multiBasicBody_basicText`, `multiLiteralBody_append`: a string in several lines.
* `anyString_writeString`: a written string is read as itself.
-/

namespace SolidityDocs.Toml

open Text (apostrophe hexValue?)

/-! ## One character between quotes -/

/-- What the readers of strings between quotes have in common: after a backslash, a character stands
for another one or starts a code point, which ends with its last digit.  Any other character stands
for itself. -/
structure ReadsEscapes (body : Pending → List Char → Option (List Char × List Char)) : Prop where
  backslash : ∀ cs, body .none ('\\' :: cs) = body .escape cs
  escaped : ∀ {c e} cs, escaped? c = some e → body .escape (c :: cs) = cons? e (body .none cs)
  code : ∀ {c n} cs, escaped? c = none → codeLength? c = some n →
    body .escape (c :: cs) = body (.code n 0) cs
  digit : ∀ {n v c d} cs, hexValue? c = some d → 1 < n →
    body (.code n v) (c :: cs) = body (.code (n - 1) (16 * v + d)) cs
  lastDigit : ∀ {v c d e} cs, hexValue? c = some d → scalar? (16 * v + d) = some e →
    body (.code 1 v) (c :: cs) = cons? e (body .none cs)
  plain : ∀ {c} cs, c ≠ '"' → c ≠ '\\' → isPlain c = true →
    body .none (c :: cs) = cons? c (body .none cs)

theorem readsEscapes_basicBody : ReadsEscapes basicBody where
  backslash cs := rfl
  escaped cs he := by
    rw [basicBody]
    simp only [he]
  code cs he hn := by
    rw [basicBody]
    simp only [he, hn]
  digit cs hd hn := by
    rw [basicBody]
    simp only [hd, if_neg (not_le.mpr hn)]
  lastDigit cs hd he := by
    rw [basicBody]
    simp only [hd, he, Nat.le_refl, if_true]
  plain cs hquote hslash hc := by
    rw [basicBody, if_neg hquote, if_neg hslash, if_pos hc] <;> simp

theorem afterMarks?_of_ne {mark c : Char} (h : c ≠ mark) (cs : List Char) :
    afterMarks? mark (c :: cs) = none := by
  unfold afterMarks?
  split
  · next heq =>
    cases heq
    exact if_neg fun hmarks => h hmarks.1
  · rfl

theorem readsEscapes_multiBasicBody : ReadsEscapes multiBasicBody where
  backslash cs := by
    rw [multiBasicBody, afterMarks?_of_ne (by decide)] <;> simp
  escaped cs he := by
    rw [multiBasicBody]
    simp only [he]
  code cs he hn := by
    rw [multiBasicBody]
    simp only [he, hn]
  digit cs hd hn := by
    rw [multiBasicBody]
    simp only [hd, if_neg (not_le.mpr hn)]
  lastDigit cs hd he := by
    rw [multiBasicBody]
    simp only [hd, he, Nat.le_refl, if_true]
  plain cs hquote hslash hc := by
    rw [multiBasicBody, afterMarks?_of_ne hquote] <;> simp [hslash, hc]

/-- A character that has to be written as an escape is an ASCII character. -/
theorem toNat_lt_of_isHidden {c : Char} (h : isHidden c = true) : c.toNat < 128 := by
  simp only [isHidden, isPlain, Bool.and_eq_true, Bool.not_eq_true', Bool.or_eq_false_iff,
    Bool.and_eq_false_iff, decide_eq_false_iff_not] at h
  obtain ⟨⟨-, h⟩, -⟩ := h
  omega

theorem isPlain_of_not_isHidden {c : Char} (h : isHidden c = false) (hc : c ≠ '\n') :
    isPlain c = true := by
  simpa [isHidden, hc] using h

/-- The digits of an escaped character. -/
theorem codeEscape_eq {c : Char} (h : c.toNat < 128) :
    codeEscape c = ['\\', 'u', '0', '0', (Nat.digitChar (c.toNat / 16)).toUpper,
      (Nat.digitChar (c.toNat % 16)).toUpper] := by
  have hdigits : ∀ n < 128, List.replicate (4 - (Nat.toDigits 16 n).length) '0' ++
      (Nat.toDigits 16 n).map Char.toUpper =
        ['0', '0', (Nat.digitChar (n / 16)).toUpper, (Nat.digitChar (n % 16)).toUpper] := by
    decide
  unfold codeEscape
  simp only [List.length_map, List.append_assoc, hdigits _ h]
  rfl

theorem hexValue?_toUpper_digitChar : ∀ d < 16, hexValue? (Nat.digitChar d).toUpper = some d := by
  decide

namespace ReadsEscapes

variable {body : Pending → List Char → Option (List Char × List Char)} (h : ReadsEscapes body)

include h

/-- An escaped character is read as itself. -/
theorem body_codeEscape {c : Char} (hc : c.toNat < 128) (rest : List Char) :
    body .none (codeEscape c ++ rest) = cons? c (body .none rest) := by
  have hzero : hexValue? '0' = some 0 := rfl
  have hhigh := hexValue?_toUpper_digitChar (c.toNat / 16) (by omega)
  have hlow := hexValue?_toUpper_digitChar (c.toNat % 16) (by omega)
  have hvalid : c.toNat.isValidChar := c.valid
  have hscalar : scalar? (16 * (c.toNat / 16) + c.toNat % 16) = some c := by
    rw [Nat.div_add_mod, scalar?, if_pos hvalid, Char.ofNat_toNat]
  rw [codeEscape_eq hc]
  simp only [List.cons_append, List.nil_append]
  rw [h.backslash, h.code _ rfl rfl, h.digit _ hzero (by decide), h.digit _ hzero (by decide),
    h.digit _ hhigh (by decide), Nat.zero_add]
  exact h.lastDigit _ hlow hscalar

theorem body_escaped {c e : Char} (he : escaped? c = some e) (rest : List Char) :
    body .none ('\\' :: c :: rest) = cons? e (body .none rest) := by
  rw [h.backslash, h.escaped _ he]

/-- **A written character is read as itself.** -/
theorem body_basicChar {multi : Bool} {c : Char} (hquote : c ≠ '"')
    (hbreak : multi = true → c ≠ '\n') (rest : List Char) :
    body .none (basicChar multi c ++ rest) = cons? c (body .none rest) := by
  unfold basicChar
  split
  case h_3 =>
    rw [if_neg fun hmulti => hbreak hmulti rfl]
    exact h.body_escaped rfl rest
  case h_7 hnot _ _ hslash =>
    split
    · next hhidden => exact h.body_codeEscape (toNat_lt_of_isHidden hhidden) rest
    · next hshown =>
      refine h.plain rest hquote hslash (isPlain_of_not_isHidden ?_ hnot)
      simpa using hshown
  all_goals exact h.body_escaped rfl rest

end ReadsEscapes

/-! ## Strings in one line -/

/-- A text between quotes is read as itself. -/
theorem basicBody_basicText (quotes : Nat) (cs rest : List Char) :
    basicBody .none (basicText false 0 quotes cs ++ '"' :: rest) = some (cs, rest) := by
  induction cs generalizing quotes with
  | nil => rfl
  | cons c cs ih =>
    unfold basicText
    split
    · next hquote =>
      rw [if_neg (Nat.not_lt_zero quotes), List.cons_append, List.cons_append,
        readsEscapes_basicBody.body_escaped rfl, ih, hquote]
      rfl
    · next hquote =>
      have hline : false = true → c ≠ '\n' := nofun
      rw [List.append_assoc, readsEscapes_basicBody.body_basicChar hquote hline, ih]
      rfl

/-- A text between apostrophes is read as itself. -/
theorem literalBody_append {cs : List Char} (h : ∀ c ∈ cs, isPlain c = true ∧ c ≠ apostrophe)
    (rest : List Char) : literalBody (cs ++ apostrophe :: rest) = some (cs, rest) := by
  induction cs with
  | nil => rfl
  | cons c cs ih =>
    obtain ⟨⟨hplain, hmark⟩, hcs⟩ := List.forall_mem_cons.mp h
    rw [List.cons_append, literalBody, if_neg hmark, if_pos hplain, ih hcs]
    rfl

/-! ## Three marks -/

/-- Text that does not go on with a mark of a string. -/
def Unmarked (cs : List Char) : Prop := ∀ c ∈ cs.head?, c ≠ '"' ∧ c ≠ apostrophe

section Marks

variable {mark : Char}

/-- A mark that is not followed by two more. -/
theorem afterMarks?_cons_eq_none {cs : List Char}
    (h : ∀ rest, cs ≠ mark :: mark :: rest) : afterMarks? mark (mark :: cs) = none := by
  unfold afterMarks?
  split
  · next a b c rest heq =>
    obtain ⟨rfl, rfl⟩ := List.cons.inj heq
    refine if_neg fun ⟨_, hb, hc⟩ => h rest ?_
    rw [hb, hc]
  · rfl

theorem afterMarks?_three (rest : List Char) :
    afterMarks? mark (List.replicate 3 mark ++ rest) = some rest := if_pos ⟨rfl, rfl, rfl⟩

/-- Marks at the end of a string in front of the closing ones. -/
theorem afterMarks?_replicate (n : Nat) (rest : List Char) :
    afterMarks? mark (List.replicate n mark ++ (List.replicate 3 mark ++ rest)) =
      some (List.replicate n mark ++ rest) := by
  have hcomm : List.replicate n mark ++ (List.replicate 3 mark ++ rest) =
      List.replicate 3 mark ++ (List.replicate n mark ++ rest) := by
    rw [← List.append_assoc, ← List.append_assoc, List.replicate_append_replicate,
      List.replicate_append_replicate, Nat.add_comm]
  rw [hcomm, afterMarks?_three]

theorem closing_of_head {rest : List Char} (h : ∀ c ∈ rest.head?, c ≠ mark) :
    closing mark rest = ([], rest) := by
  unfold closing
  split
  · exact if_neg (h _ rfl)
  · exact if_neg (h _ rfl)
  · rfl

/-- Up to two marks after the closing ones belong to the string. -/
theorem closing_replicate {n : Nat} (hn : n ≤ 2) {rest : List Char}
    (h : ∀ c ∈ rest.head?, c ≠ mark) :
    closing mark (List.replicate n mark ++ rest) = (List.replicate n mark, rest) := by
  match n, hn with
  | 0, _ => exact closing_of_head h
  | 1, _ =>
    cases rest with
    | nil => exact if_pos rfl
    | cons c cs => exact (if_pos rfl).trans (if_neg (h c rfl))
  | 2, _ => exact (if_pos rfl).trans (if_pos rfl)

end Marks

/-! ## Strings in several lines -/

/-- What is written for a character does not start with a quote, and only line breaks are written as
they are. -/
theorem exists_basicChar_eq_cons (multi : Bool) {c : Char} (hquote : c ≠ '"') :
    ∃ d ds, basicChar multi c = d :: ds ∧ d ≠ '"' ∧ d ≠ '\r' ∧ (d = '\n' → c = '\n') := by
  unfold basicChar
  split
  case h_3 =>
    cases multi with
    | true => exact ⟨_, _, rfl, by decide, by decide, fun _ => rfl⟩
    | false => exact ⟨_, _, rfl, by decide, by decide, fun _ => rfl⟩
  case h_7 _ _ _ hreturn _ =>
    split
    · exact ⟨_, _, rfl, by decide, by decide, nofun⟩
    · exact ⟨_, _, rfl, hquote, hreturn, id⟩
  all_goals exact ⟨_, _, rfl, by decide, by decide, by decide⟩

theorem multiBasicBody_of_afterMarks {cs rest : List Char} (h : afterMarks? '"' cs = some rest) :
    multiBasicBody .none cs = some (closing '"' rest) := by
  cases cs with
  | nil => cases h
  | cons c cs => rw [multiBasicBody, h] <;> simp

/-- A quote that is not followed by two more stands for itself. -/
theorem multiBasicBody_quote {cs : List Char} (h : ∀ rest, cs ≠ '"' :: '"' :: rest) :
    multiBasicBody .none ('"' :: cs) = cons? '"' (multiBasicBody .none cs) := by
  rw [multiBasicBody, afterMarks?_cons_eq_none h] <;> simp [isPlain]

theorem multiBasicBody_newline (cs : List Char) :
    multiBasicBody .none ('\n' :: cs) = cons? '\n' (multiBasicBody .none cs) := by
  rw [multiBasicBody, afterMarks?_of_ne (by decide)] <;> simp

/-- One or two quotes are written as they are. -/
theorem basicText_replicate {quotes n : Nat} (h : quotes + n ≤ 2) :
    basicText true 2 quotes (List.replicate n '"') = List.replicate n '"' := by
  induction n generalizing quotes with
  | zero => rfl
  | succ n ih =>
    rw [List.replicate_succ, basicText, if_pos rfl, if_pos (by omega), ih (by omega)]

/-- A quote that may not be written as it is has a backslash in front. -/
theorem exists_basicText_eq_cons {multi : Bool} {allowed quotes : Nat} {c : Char}
    (h : c = '"' → allowed ≤ quotes) (cs : List Char) :
    ∃ d ds, basicText multi allowed quotes (c :: cs) = d :: ds ∧ d ≠ '"' := by
  unfold basicText
  split
  · next hquote =>
    rw [if_neg (not_lt.mpr (h hquote))]
    exact ⟨_, _, rfl, by decide⟩
  · next hquote =>
    obtain ⟨d, ds, heq, hd, -⟩ := exists_basicChar_eq_cons multi hquote
    rw [heq]
    exact ⟨_, _, rfl, hd⟩

/-- The first of two quotes in a row is not followed by two more, unless the string ends. -/
theorem basicText_ne_quotes {quotes : Nat} {cs : List Char} (hquotes : quotes < 2)
    (h : ∀ n, quotes + 1 + n ≤ 2 → cs ≠ List.replicate n '"') (more rest : List Char) :
    basicText true 2 (quotes + 1) cs ++ more ≠ '"' :: '"' :: rest := by
  intro heq
  match cs with
  | [] => exact h 0 (by omega) rfl
  | c :: cs =>
    by_cases hnext : c = '"' ∧ quotes = 0
    · obtain ⟨rfl, rfl⟩ := hnext
      rw [basicText, if_pos rfl, if_pos (by decide), List.cons_append] at heq
      match cs with
      | [] => exact h 1 (by decide) rfl
      | d :: cs =>
        obtain ⟨e, es, htext, he⟩ := exists_basicText_eq_cons (fun _ => Nat.le_refl 2) cs
        rw [htext] at heq
        exact he (List.cons.inj (List.cons.inj heq).2).1
    · have hescaped : c = '"' → 2 ≤ quotes + 1 := by
        intro hquote
        have hzero : quotes ≠ 0 := fun hzero => hnext ⟨hquote, hzero⟩
        omega
      obtain ⟨e, es, htext, he⟩ := exists_basicText_eq_cons hescaped cs
      rw [htext] at heq
      exact he (List.cons.inj heq).1

/-- **A text between three quotes is read as itself.** -/
theorem multiBasicBody_basicText {quotes : Nat} (hquotes : quotes ≤ 2) (cs : List Char)
    {rest : List Char} (hrest : Unmarked rest) :
    multiBasicBody .none (basicText true 2 quotes cs ++ (List.replicate 3 '"' ++ rest)) =
      some (cs, rest) := by
  induction cs generalizing quotes with
  | nil =>
    show multiBasicBody .none (List.replicate 3 '"' ++ rest) = _
    rw [multiBasicBody_of_afterMarks (afterMarks?_three rest),
      closing_of_head fun c hc => (hrest c hc).1]
  | cons c cs ih =>
    by_cases hrun : ∃ n, quotes + n ≤ 2 ∧ c :: cs = List.replicate n '"'
    · -- the string ends with quotes, which are read together with the closing ones
      obtain ⟨n, hn, heq⟩ := hrun
      rw [heq, basicText_replicate hn, multiBasicBody_of_afterMarks (afterMarks?_replicate n rest),
        closing_replicate (by omega) fun c hc => (hrest c hc).1]
    · unfold basicText
      split
      · next hquote =>
        split
        · next hlt =>
          have hend : ∀ n, quotes + 1 + n ≤ 2 → cs ≠ List.replicate n '"' := fun n hn heq =>
            hrun ⟨n + 1, by omega, by rw [hquote, heq, List.replicate_succ]⟩
          rw [List.cons_append, multiBasicBody_quote (basicText_ne_quotes hlt hend _),
            ih (by omega), hquote]
          rfl
        · rw [List.cons_append, List.cons_append, readsEscapes_multiBasicBody.body_escaped rfl,
            ih (by omega), hquote]
          rfl
      · next hquote =>
        rw [List.append_assoc]
        by_cases hbreak : c = '\n'
        · rw [hbreak]
          show multiBasicBody .none ('\n' :: (basicText true 2 0 cs ++ _)) = _
          rw [multiBasicBody_newline, ih (by omega)]
          rfl
        · rw [readsEscapes_multiBasicBody.body_basicChar hquote fun _ => hbreak, ih (by omega)]
          rfl

theorem multiLiteralBody_of_afterMarks {cs rest : List Char}
    (h : afterMarks? apostrophe cs = some rest) :
    multiLiteralBody cs = some (closing apostrophe rest) := by
  cases cs with
  | nil => cases h
  | cons c cs => rw [multiLiteralBody, h]

theorem multiLiteralBody_cons {c : Char} {cs : List Char} (hc : isPlain c = true ∨ c = '\n')
    (h : afterMarks? apostrophe (c :: cs) = none) :
    multiLiteralBody (c :: cs) = cons? c (multiLiteralBody cs) := by
  rw [multiLiteralBody, h]
  rcases hc with hc | hc <;> simp [hc]

theorem le_longestRun (mark : Char) (run : Nat) (cs : List Char) :
    run ≤ longestRun mark run cs := by
  induction cs generalizing run with
  | nil => exact Nat.le_refl run
  | cons c cs ih =>
    unfold longestRun
    split
    · exact Nat.le_of_succ_le (ih (run + 1))
    · exact Nat.le_max_left ..

/-- In a text without three marks in a row, the first of two is not followed by two more, unless the
text ends. -/
theorem append_ne_marks {mark : Char} {run : Nat} {cs : List Char}
    (hrun : longestRun mark (run + 1) cs ≤ 2) (h : ∀ n ≤ 1, cs ≠ List.replicate n mark)
    (more rest : List Char) :
    cs ++ more ≠ mark :: mark :: rest := by
  intro heq
  match cs with
  | [] => exact h 0 (by decide) rfl
  | [c] =>
    refine h 1 (Nat.le_refl 1) ?_
    rw [(List.cons.inj heq).1]
    rfl
  | c :: d :: cs =>
    obtain ⟨rfl, heq⟩ := List.cons.inj heq
    obtain ⟨rfl, -⟩ := List.cons.inj heq
    rw [longestRun, if_pos rfl, longestRun, if_pos rfl] at hrun
    have hle := le_longestRun d (run + 1 + 1 + 1) cs
    omega

/-- **A text between three apostrophes is read as itself.** -/
theorem multiLiteralBody_append {run : Nat} {cs rest : List Char}
    (hcs : ∀ c ∈ cs, isPlain c = true ∨ c = '\n') (hrun : longestRun apostrophe run cs ≤ 2)
    (hrest : Unmarked rest) :
    multiLiteralBody (cs ++ (List.replicate 3 apostrophe ++ rest)) = some (cs, rest) := by
  induction cs generalizing run with
  | nil =>
    rw [List.nil_append, multiLiteralBody_of_afterMarks (afterMarks?_three rest),
      closing_of_head fun c hc => (hrest c hc).2]
  | cons c cs ih =>
    obtain ⟨hc, htail⟩ := List.forall_mem_cons.mp hcs
    rw [longestRun] at hrun
    split at hrun
    · next hmark =>
      subst hmark
      by_cases hend : ∃ n ≤ 1, cs = List.replicate n apostrophe
      · -- the string ends with apostrophes, which are read together with the closing ones
        obtain ⟨n, hn, heq⟩ := hend
        rw [heq, ← List.replicate_succ,
          multiLiteralBody_of_afterMarks (afterMarks?_replicate (n + 1) rest),
          closing_replicate (by omega) fun c hc => (hrest c hc).2]
      · have hmarks : ∀ n ≤ 1, cs ≠ List.replicate n apostrophe := fun n hn heq =>
          hend ⟨n, hn, heq⟩
        have hnone := afterMarks?_cons_eq_none
          (append_ne_marks hrun hmarks (List.replicate 3 apostrophe ++ rest))
        rw [List.cons_append, multiLiteralBody_cons hc hnone, ih htail hrun]
        rfl
    · next hmark =>
      have hnone := afterMarks?_of_ne hmark (cs ++ (List.replicate 3 apostrophe ++ rest))
      have hzero : longestRun apostrophe 0 cs ≤ 2 := le_trans (Nat.le_max_right ..) hrun
      rw [List.cons_append, multiLiteralBody_cons hc hnone, ih htail hzero]
      rfl

/-! ## Forms -/

/-- A form can show a string.  Between quotes, every string can be shown. -/
def StringForm.Shows (cs : List Char) : StringForm → Prop
  | .basic => True
  | .literal => ∀ c ∈ cs, isPlain c = true ∧ c ≠ apostrophe
  | .multiBasic => True
  | .multiLiteral => (∀ c ∈ cs, isPlain c = true ∨ c = '\n') ∧ longestRun apostrophe 0 cs ≤ 2

theorem notMem_of_longestRun {mark : Char} {run : Nat} {cs : List Char}
    (h : longestRun mark run cs = 0) : mark ∉ cs := by
  induction cs generalizing run with
  | nil => exact List.not_mem_nil
  | cons c cs ih =>
    rw [longestRun] at h
    split at h
    · have hle := le_longestRun mark (run + 1) cs
      omega
    · next hc =>
      have hzero : longestRun mark 0 cs = 0 := by omega
      rw [List.mem_cons, not_or]
      exact ⟨Ne.symm hc, ih hzero⟩

theorem isPlain_or_newline {cs : List Char} (h : cs.any isHidden = false) :
    ∀ c ∈ cs, isPlain c = true ∨ c = '\n' := by
  intro c hc
  by_cases hbreak : c = '\n'
  · exact .inr hbreak
  · exact .inl (isPlain_of_not_isHidden (List.any_eq_false.mp h c hc |> eq_false_of_ne_true) hbreak)

/-- The form of a string can show it. -/
theorem shows_formOf (cs : List Char) : (formOf cs).Shows cs := by
  unfold formOf
  simp only
  split_ifs with hbasic hliteral hmulti hmultiLiteral hnewline
  · trivial
  · simp only [Bool.and_eq_true, Bool.not_eq_true', decide_eq_true_eq] at hliteral
    obtain ⟨⟨hhidden, hmarks⟩, hbreak⟩ := hliteral
    intro c hc
    have hne : c ≠ '\n' := by
      rintro rfl
      simp [hc] at hbreak
    refine ⟨(isPlain_or_newline hhidden c hc).resolve_right hne, ?_⟩
    rintro rfl
    exact notMem_of_longestRun hmarks hc
  · trivial
  · simp only [Bool.and_eq_true, Bool.not_eq_true', decide_eq_true_eq] at hmultiLiteral
    exact ⟨isPlain_or_newline hmultiLiteral.1, hmultiLiteral.2⟩
  · trivial
  · trivial

/-- A line break after the opening marks is left out, and there is one if the string has any. -/
theorem skipNewline_leadingNewline {cs text : List Char}
    (h : '\n' ∉ cs → ∀ c ∈ text.head?, c ≠ '\n' ∧ c ≠ '\r') :
    skipNewline (leadingNewline cs ++ text) = text := by
  unfold leadingNewline
  split
  · rfl
  · next hbreak =>
    have hnone : afterNewline? text = none := by
      unfold afterNewline?
      split
      · exact absurd rfl (h (by simpa using hbreak) _ rfl).1
      · exact absurd rfl (h (by simpa using hbreak) _ rfl).2
      · rfl
    rw [List.nil_append, skipNewline, hnone, Option.getD_none]

theorem head_basicText {cs : List Char} (h : '\n' ∉ cs) (rest : List Char) :
    ∀ c ∈ (basicText true 2 0 cs ++ '"' :: rest).head?, c ≠ '\n' ∧ c ≠ '\r' := by
  have hquote : ∀ text : List Char, ∀ c ∈ ('"' :: text).head?, c ≠ '\n' ∧ c ≠ '\r' := by
    intro text c hc
    cases hc
    decide
  match cs with
  | [] => exact hquote rest
  | c :: cs =>
    unfold basicText
    split
    · exact hquote _
    · next hne =>
      obtain ⟨d, ds, heq, -, hreturn, hbreak⟩ := exists_basicChar_eq_cons true hne
      rw [heq]
      intro e he
      cases he
      exact ⟨fun hd => h (hbreak hd ▸ List.mem_cons_self ..), hreturn⟩

/-- A mark at the front, and not three of them. -/
theorem anyString_of_eq_none {cs : List Char} (hquotes : afterMarks? '"' cs = none)
    (hmarks : afterMarks? apostrophe cs = none) : anyString cs = lineString cs := by
  unfold anyString
  rw [hquotes, hmarks]

theorem anyString_basic (cs : List Char) {rest : List Char} (hrest : Unmarked rest) :
    anyString (writeForm cs .basic ++ rest) = some (String.ofList cs, rest) := by
  have htext : writeForm cs .basic ++ rest = '"' :: (basicText false 0 0 cs ++ '"' :: rest) := by
    simp [writeForm]
  have hnext : ∀ more, basicText false 0 0 cs ++ '"' :: rest ≠ '"' :: '"' :: more := by
    intro more heq
    match cs with
    | [] => exact (hrest '"' (by rw [(List.cons.inj heq).2]; rfl)).1 rfl
    | c :: cs =>
      obtain ⟨d, ds, hcons, hd⟩ := exists_basicText_eq_cons (fun _ => Nat.le_refl 0) cs
      rw [hcons] at heq
      exact hd (List.cons.inj heq).1
  rw [htext,
    anyString_of_eq_none (afterMarks?_cons_eq_none hnext) (afterMarks?_of_ne (by decide) _)]
  show (basicBody .none _).map _ = _
  rw [basicBody_basicText]
  rfl

theorem anyString_literal {cs : List Char} (hcs : StringForm.literal.Shows cs) {rest : List Char}
    (hrest : Unmarked rest) :
    anyString (writeForm cs .literal ++ rest) = some (String.ofList cs, rest) := by
  have htext : writeForm cs .literal ++ rest = apostrophe :: (cs ++ apostrophe :: rest) := by
    simp [writeForm]
  have hnext : ∀ more, cs ++ apostrophe :: rest ≠ apostrophe :: apostrophe :: more := by
    intro more heq
    match cs with
    | [] => exact (hrest apostrophe (by rw [(List.cons.inj heq).2]; rfl)).2 rfl
    | c :: cs => exact (hcs c (List.mem_cons_self ..)).2 (List.cons.inj heq).1
  rw [htext,
    anyString_of_eq_none (afterMarks?_of_ne (by decide) _) (afterMarks?_cons_eq_none hnext)]
  show (literalBody _).map _ = _
  rw [literalBody_append hcs]
  rfl

theorem anyString_multiBasic (cs : List Char) {rest : List Char} (hrest : Unmarked rest) :
    anyString (writeForm cs .multiBasic ++ rest) = some (String.ofList cs, rest) := by
  have htext : writeForm cs .multiBasic ++ rest = List.replicate 3 '"' ++
      (leadingNewline cs ++ (basicText true 2 0 cs ++ (List.replicate 3 '"' ++ rest))) := by
    simp [writeForm]
  have hhead : '\n' ∉ cs → ∀ c ∈ (basicText true 2 0 cs ++ (List.replicate 3 '"' ++ rest)).head?,
      c ≠ '\n' ∧ c ≠ '\r' := fun hbreak => head_basicText hbreak _
  unfold anyString
  rw [htext, afterMarks?_three]
  show (multiBasicBody .none (skipNewline _)).map _ = _
  rw [skipNewline_leadingNewline hhead, multiBasicBody_basicText (Nat.zero_le 2) cs hrest]
  rfl

theorem anyString_multiLiteral {cs : List Char} (hcs : StringForm.multiLiteral.Shows cs)
    {rest : List Char} (hrest : Unmarked rest) :
    anyString (writeForm cs .multiLiteral ++ rest) = some (String.ofList cs, rest) := by
  have htext : writeForm cs .multiLiteral ++ rest = List.replicate 3 apostrophe ++
      (leadingNewline cs ++ (cs ++ (List.replicate 3 apostrophe ++ rest))) := by
    simp [writeForm]
  have hhead : '\n' ∉ cs → ∀ c ∈ (cs ++ (List.replicate 3 apostrophe ++ rest)).head?,
      c ≠ '\n' ∧ c ≠ '\r' := by
    intro hbreak c hc
    match cs with
    | [] =>
      cases hc
      decide
    | d :: cs =>
      obtain rfl : d = c := Option.some.inj hc
      have hne : d ≠ '\n' := fun h => hbreak (h ▸ List.mem_cons_self ..)
      have hplain := (hcs.1 d (List.mem_cons_self ..)).resolve_right hne
      refine ⟨hne, ?_⟩
      rintro rfl
      cases hplain
  have hmarks : afterMarks? '"' (List.replicate 3 apostrophe ++
      (leadingNewline cs ++ (cs ++ (List.replicate 3 apostrophe ++ rest)))) = none :=
    afterMarks?_of_ne (by decide) _
  unfold anyString
  rw [htext, hmarks, afterMarks?_three]
  show (multiLiteralBody (skipNewline _)).map _ = _
  rw [skipNewline_leadingNewline hhead, multiLiteralBody_append hcs.1 hcs.2 hrest]
  rfl

/-- **A written string is read as itself.** -/
theorem anyString_writeString (s : String) {rest : List Char} (hrest : Unmarked rest) :
    anyString ((writeString s).toList ++ rest) = some (s, rest) := by
  have hshows := shows_formOf s.toList
  rw [writeString, String.toList_ofList]
  cases hform : formOf s.toList with
  | basic => rw [anyString_basic _ hrest, String.ofList_toList]
  | literal => rw [anyString_literal (hform ▸ hshows) hrest, String.ofList_toList]
  | multiBasic => rw [anyString_multiBasic _ hrest, String.ofList_toList]
  | multiLiteral => rw [anyString_multiLiteral (hform ▸ hshows) hrest, String.ofList_toList]

end SolidityDocs.Toml
