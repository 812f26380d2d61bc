import Mathlib
import SolidityDocs.Text.Lower

/-!
# Looking for a word in lower case

A word of ASCII letters is looked for in any case of letters by looking for it in the lower-case
form of a text.  That is not the same thing as looking for it letter by letter, since the lower-case
form of a character need not be one character, and since a few characters outside of ASCII have
ASCII letters in theirs.  The Kelvin sign becomes `k`, and the dotted capital I becomes `i` with a
dot above.

`LowerForm` collects what has to be known of the lower-case form of a text.  It is a relation,
because characters without ASCII letters in their lower-case form may become anything else, also
depending on their surroundings, as a sigma at the end of a word does.  A word can be found where it
does not stand only if it has a `k`, or if it ends in `i`; inside of the word, the dot above gives
the dotted `i` away.  The words without either are the `Unambiguous` ones.

* `lowerForm_lower`: `lower` gives one of the lower-case forms.
* `LowerForm.infix_iff`: an unambiguous word is found in a lower-case form exactly if it occurs in
  the text, up to the case of ASCII letters.
-/

namespace SolidityDocs.Text

/-! ## Lower-case forms -/

/-- A text and its lower-case form.  Besides ASCII letters, the dotted capital I becomes `i` with a
dot above, and the Kelvin sign becomes `k`.  Any other character becomes something without ASCII
letters, but does not vanish. -/
inductive LowerForm : List Char → List Char → Prop
  | nil : LowerForm [] []
  | letter {c cs ts} (hc : c.isAlpha) (h : LowerForm cs ts) : LowerForm (c :: cs) (c.toLower :: ts)
  | dotted {cs ts} (h : LowerForm cs ts) : LowerForm ('\u0130' :: cs) ('i' :: '\u0307' :: ts)
  | kelvin {cs ts} (h : LowerForm cs ts) : LowerForm ('\u212a' :: cs) ('k' :: ts)
  | other {c cs piece ts} (hc : ¬c.isAlpha) (hdotted : c ≠ '\u0130') (hkelvin : c ≠ '\u212a')
    (hne : piece ≠ []) (hpiece : ∀ d ∈ piece, ¬d.isAlpha) (h : LowerForm cs ts) :
    LowerForm (c :: cs) (piece ++ ts)

/-- Most characters become one character. -/
theorem LowerForm.char {c d : Char} {cs ts : List Char} (hc : ¬c.isAlpha) (hdotted : c ≠ '\u0130')
    (hkelvin : c ≠ '\u212a') (hd : ¬d.isAlpha) (h : LowerForm cs ts) :
    LowerForm (c :: cs) (d :: ts) := by
  refine .other hc hdotted hkelvin (List.cons_ne_nil d []) (fun e he => ?_) h
  rwa [List.mem_singleton.mp he]

/-- A character that is not an ASCII letter stays as it is. -/
theorem toLower_of_not_isAlpha {c : Char} (hc : ¬c.isAlpha) : c.toLower = c := by
  apply Char.toLower_eq_of_not_isUpper
  intro hupper
  exact hc (by rw [Char.isAlpha, hupper, Bool.true_or])

/-- **`lower` gives one of the lower-case forms.** -/
theorem lowerForm_lower (cs : List Char) : LowerForm cs (lower cs) := by
  induction cs with
  | nil => exact .nil
  | cons c cs ih =>
    show LowerForm (c :: cs) (lowerChar c ++ lower cs)
    unfold lowerChar
    split_ifs with hdotted hkelvin
    · subst hdotted
      exact .dotted ih
    · subst hkelvin
      exact .kelvin ih
    · by_cases hc : c.isAlpha
      · exact .letter hc ih
      · rw [toLower_of_not_isAlpha hc]
        exact .char hc hdotted hkelvin hc ih

/-! ## Words that are looked for -/

/-- A word does not start with a character that it does not have. -/
theorem not_prefix_of_notMem {word : List Char} (hne : word ≠ []) {d : Char} (hd : d ∉ word)
    (ts : List Char) : ¬word <+: d :: ts := by
  obtain ⟨c, word, rfl⟩ := List.exists_cons_of_ne_nil hne
  intro h
  obtain ⟨rfl, -⟩ := List.cons_prefix_cons.mp h
  exact hd List.mem_cons_self

/-- A word of lower-case ASCII letters that no other characters can be taken for.  It has no `k`,
which could come from the Kelvin sign, and it does not end with an `i`, before the dot above would
show. -/
structure Unambiguous (word : List Char) : Prop where
  isLower : ∀ c ∈ word, c.isLower
  notMem_k : 'k' ∉ word
  getLast?_ne_i : word.getLast? ≠ some 'i'

namespace Unambiguous

variable {word : List Char}

theorem tail {c : Char} (hw : Unambiguous (c :: word)) : Unambiguous word where
  isLower := fun d hd => hw.isLower d (List.mem_cons_of_mem _ hd)
  notMem_k := fun hk => hw.notMem_k (List.mem_cons_of_mem _ hk)
  getLast?_ne_i := by
    intro hlast
    apply hw.getLast?_ne_i
    rw [List.getLast?_cons, hlast]
    rfl

theorem notMem_of_not_isAlpha (hw : Unambiguous word) {d : Char} (hd : ¬d.isAlpha) :
    d ∉ word := by
  intro hmem
  exact hd (by rw [Char.isAlpha, hw.isLower d hmem, Bool.or_true])

/-- The word does not start with anything but a letter. -/
theorem not_prefix_cons (hw : Unambiguous word) (hne : word ≠ []) {d : Char} (hd : ¬d.isAlpha)
    (ts : List Char) : ¬word <+: d :: ts :=
  not_prefix_of_notMem hne (hw.notMem_of_not_isAlpha hd) ts

/-- The word does not start a text with anything but a letter in front, in any case of letters. -/
theorem not_prefix_map_cons (hw : Unambiguous word) (hne : word ≠ []) {c : Char}
    (hc : ¬c.isAlpha) (cs : List Char) : ¬word <+: (c :: cs).map Char.toLower := by
  rw [List.map_cons, toLower_of_not_isAlpha hc]
  exact hw.not_prefix_cons hne hc _

/-- The word does not start with the lower-case form of the dotted capital I. -/
theorem not_prefix_dotted (hw : Unambiguous word) (hne : word ≠ []) (ts : List Char) :
    ¬word <+: 'i' :: '\u0307' :: ts := by
  match word, hw, hne with
  | [c], hw, _ =>
    intro h
    obtain ⟨rfl, -⟩ := List.cons_prefix_cons.mp h
    exact hw.getLast?_ne_i rfl
  | _ :: c :: word, hw, _ =>
    intro h
    exact hw.tail.not_prefix_cons (List.cons_ne_nil _ _) (by decide) _
      (List.cons_prefix_cons.mp h).2

/-- The word occurs nowhere in a piece without letters, nor does it start there. -/
theorem infix_append_iff (hw : Unambiguous word) (hne : word ≠ []) {piece : List Char}
    (hpiece : ∀ d ∈ piece, ¬d.isAlpha) (ts : List Char) :
    word <:+: piece ++ ts ↔ word <:+: ts := by
  induction piece with
  | nil => rfl
  | cons d piece ih =>
    obtain ⟨hd, hpiece⟩ := List.forall_mem_cons.mp hpiece
    rw [List.cons_append, List.infix_cons_iff, ih hpiece]
    exact or_iff_right (hw.not_prefix_cons hne hd _)

end Unambiguous

/-! ## Finding a word -/

namespace LowerForm

variable {cs ts word : List Char}

/-- The word starts a lower-case form exactly if it starts the text. -/
theorem prefix_iff (h : LowerForm cs ts) (hw : Unambiguous word) :
    word <+: ts ↔ word <+: cs.map Char.toLower := by
  -- Only a letter can go with a letter of the word, and then the rest of the word is looked for.
  induction h generalizing word with
  | nil => rfl
  | @letter c cs ts _ _ ih =>
    cases word with
    | nil => simp
    | cons d word =>
      rw [List.map_cons, List.cons_prefix_cons, List.cons_prefix_cons, ih hw.tail]
  | @dotted cs ts =>
    rcases eq_or_ne word [] with rfl | hne
    · simp
    · exact iff_of_false (hw.not_prefix_dotted hne ts)
        (hw.not_prefix_map_cons hne (by decide) cs)
  | @kelvin cs ts =>
    rcases eq_or_ne word [] with rfl | hne
    · simp
    · exact iff_of_false (not_prefix_of_notMem hne hw.notMem_k ts)
        (hw.not_prefix_map_cons hne (by decide) cs)
  | @other c cs piece ts hc _ _ hpne hpiece =>
    rcases eq_or_ne word [] with rfl | hne
    · simp
    · obtain ⟨d, piece, rfl⟩ := List.exists_cons_of_ne_nil hpne
      exact iff_of_false (hw.not_prefix_cons hne (hpiece d List.mem_cons_self) (piece ++ ts))
        (hw.not_prefix_map_cons hne hc cs)

/-- The word occurs in a lower-case form exactly if it occurs in the text. -/
theorem infix_map_toLower_iff (h : LowerForm cs ts) (hw : Unambiguous word) (hne : word ≠ []) :
    word <:+: ts ↔ word <:+: cs.map Char.toLower := by
  induction h with
  | nil => rfl
  | @letter c cs ts hc h ih =>
    rw [List.infix_cons_iff, ih, (h.letter hc).prefix_iff hw, List.map_cons, List.infix_cons_iff]
  | @dotted cs ts h ih =>
    have hdot : ¬word <+: '\u0307' :: ts := hw.not_prefix_cons hne (by decide) ts
    rw [List.infix_cons_iff, List.infix_cons_iff, or_iff_right hdot, ih, h.dotted.prefix_iff hw,
      List.map_cons, List.infix_cons_iff]
  | @kelvin cs ts h ih =>
    rw [List.infix_cons_iff, ih, h.kelvin.prefix_iff hw, List.map_cons, List.infix_cons_iff]
  | @other c cs piece ts hc hd hk hpne hpiece h ih =>
    rw [hw.infix_append_iff hne hpiece, ih, List.map_cons, List.infix_cons_iff]
    exact (or_iff_right (hw.not_prefix_map_cons hne hc cs)).symm

/-- **An unambiguous word is found in a lower-case form exactly if it occurs in the text**, up to
the case of ASCII letters. -/
theorem infix_iff (h : LowerForm cs ts) (hw : Unambiguous word) (hne : word ≠ []) :
    word <:+: ts ↔ ∃ w, w <:+: cs ∧ w.map Char.toLower = word := by
  rw [h.infix_map_toLower_iff hw hne, List.infix_map_iff]
  exact exists_congr fun w => and_congr_right fun _ => eq_comm

end LowerForm

end SolidityDocs.Text
