/-!
# Lower case, as far as ASCII letters are concerned

Besides the ASCII capitals, two characters have a lower-case form with an ASCII letter in it: the
dotted capital I (`U+0130`), which becomes `i` with a dot above, and the Kelvin sign (`U+212A`),
which becomes `k`.  No other character can contribute an ASCII letter, so looking for an ASCII word
in `lower s` finds the same places as looking for it in the full lower-case form of `s`.
-/

namespace SolidityDocs.Text

/-- The lower-case form of a character. -/
def lowerChar (c : Char) : List Char :=
  if c = '\u0130' then ['i', '\u0307']
  else if c = '\u212a' then ['k']
  else [c.toLower]

/-- The lower-case form of a text. -/
def lower (cs : List Char) : List Char := cs.flatMap lowerChar

/-- Whether a word occurs in a text. -/
def occursIn (word : List Char) : List Char → Bool
  | [] => word.isEmpty
  | c :: cs => word.isPrefixOf (c :: cs) || occursIn word cs

/-- A word occurs in a text exactly when the text has it as a contiguous part. -/
theorem occursIn_iff {word cs : List Char} : occursIn word cs = true ↔ word <:+: cs := by
  induction cs with
  | nil => simp [occursIn]
  | cons c cs ih =>
    rw [occursIn, Bool.or_eq_true, List.isPrefixOf_iff_prefix, ih, List.infix_cons_iff]

end SolidityDocs.Text
