import Mathlib
import SolidityDocs.Text.Basic

/-!
# Numbers and blanks in texts

The decimal form of a number has digits only, no needless zero in front, and the number as its
value.  All readers of numbers come back to these three facts.

Trimming goes through a text twice, once from each end, and says nothing about what it leaves.  What
it leaves is known from two things: it neither starts nor ends with a blank, and with blanks around
it, it is the text.  No text can be cut in two such ways, because a blank in front of the one cut
would be the start of what the other one leaves.

* `isDigit_toDigits`, `eq_zero_of_head?_toDigits`, `digitsValue_toDigits`: decimal forms.
* `trimmed_trim`, `exists_append_trim`: what trimming leaves is such a cut.
* `trim_blanks`: every such cut is what trimming leaves.
* `trim_eq_iff`: the two together.
-/

namespace SolidityDocs.Text

/-! ## Decimal forms -/

theorem isDigit_toDigits (n : Nat) : ∀ c ∈ Nat.toDigits 10 n, c.isDigit = true :=
  fun _ hc => Nat.isDigit_of_mem_toDigits (by decide) (Nat.le_refl 10) hc

/-- Only zero is written with a zero in front. -/
theorem eq_zero_of_head?_toDigits {n : Nat} (h : (Nat.toDigits 10 n).head? = some '0') : n = 0 := by
  induction n using Nat.strongRecOn with
  | ind n ih =>
    rcases Nat.lt_or_ge n 10 with hn | hn
    · rw [Nat.toDigits_of_lt_base hn, List.head?_cons, Option.some.injEq] at h
      exact Nat.digitChar_eq_zero.mp h
    · rw [Nat.toDigits_of_base_le (by decide) hn,
        List.head?_append_of_ne_nil _ Nat.toDigits_ne_nil] at h
      have hdiv : n / 10 = 0 := ih (n / 10) (by omega) h
      omega

theorem digitsValue_toDigits (n : Nat) : digitsValue (Nat.toDigits 10 n) = n := by
  have h := Nat.ofDigitChars_ten_toDigits (n := n)
  rw [Nat.ofDigitChars_eq_foldl] at h
  exact h

/-! ## Blanks -/

theorem isBlank_of_isDigit {c : Char} (hc : c.isDigit = true) : isBlank c = false := by
  simp only [Char.isDigit, Bool.and_eq_true, decide_eq_true_eq, UInt32.le_iff_toNat_le] at hc
  have hlow : 48 ≤ c.toNat := hc.1
  have hhigh : c.toNat ≤ 57 := hc.2
  simp only [isBlank, blankRanges, List.any_cons, List.any_nil, Bool.or_false,
    Bool.or_eq_false_iff, Bool.and_eq_false_iff, decide_eq_false_iff_not]
  omega

/-- The text has nothing but blanks. -/
def Blanks (cs : List Char) : Prop := ∀ c ∈ cs, isBlank c = true

/-- The text neither starts nor ends with a blank. -/
structure Trimmed (cs : List Char) : Prop where
  head : ∀ c, cs.head? = some c → isBlank c = false
  last : ∀ c, cs.getLast? = some c → isBlank c = false

theorem trimmed_of_forall {cs : List Char} (h : ∀ c ∈ cs, isBlank c = false) : Trimmed cs :=
  ⟨fun c hc => h c (List.mem_of_head? hc), fun c hc => h c (List.mem_of_getLast? hc)⟩

/-! ## What trimming leaves -/

theorem trimEnd_eq_rdropWhile (cs : List Char) : trimEnd cs = cs.rdropWhile isBlank := rfl

theorem trimmed_trim (cs : List Char) : Trimmed (trim cs) := by
  constructor
  case head =>
    intro c hc
    -- the start is not touched any more when the end is trimmed
    obtain ⟨rest, hrest⟩ : trim cs <+: trimStart cs := List.rdropWhile_prefix isBlank _
    have hstart : (cs.dropWhile isBlank).head? = some c := by
      show (trimStart cs).head? = some c
      rw [← hrest, List.head?_append, hc, Option.some_or]
    have hnot := List.head?_dropWhile_not isBlank cs
    rw [hstart] at hnot
    exact hnot
  case last =>
    intro c hc
    have hne : (trimStart cs).rdropWhile isBlank ≠ [] :=
      List.ne_nil_of_mem (List.mem_of_getLast? hc)
    have hnot := List.rdropWhile_last_not isBlank (trimStart cs) hne
    have hlast : some (((trimStart cs).rdropWhile isBlank).getLast hne) = some c :=
      (List.getLast?_eq_some_getLast hne).symm.trans hc
    rw [Option.some.inj hlast] at hnot
    exact Bool.eq_false_of_not_eq_true hnot

/-- Trimming takes only blanks away. -/
theorem exists_append_trim (cs : List Char) :
    ∃ lead trail, Blanks lead ∧ Blanks trail ∧ cs = lead ++ trim cs ++ trail := by
  refine ⟨cs.takeWhile isBlank, (trimStart cs).rtakeWhile isBlank, fun c => List.mem_takeWhile_imp,
    fun c => List.mem_rtakeWhile_imp, ?_⟩
  unfold trim
  rw [trimEnd_eq_rdropWhile, List.append_assoc, List.rdropWhile_append_rtakeWhile]
  exact List.takeWhile_append_dropWhile.symm

/-! ## What is left is determined -/

theorem dropWhile_of_head? {cs : List Char} (h : ∀ c, cs.head? = some c → isBlank c = false) :
    cs.dropWhile isBlank = cs := by
  cases cs with
  | nil => rfl
  | cons c cs => rw [List.dropWhile_cons_of_neg (by rw [h c rfl]; exact nofun)]

/-- Blanks around a trimmed text are taken away, and nothing else is. -/
theorem trim_blanks {lead cs trail : List Char} (hlead : Blanks lead) (htrail : Blanks trail)
    (hcs : Trimmed cs) : trim (lead ++ cs ++ trail) = cs := by
  have hback : (cs ++ trail).rdropWhile isBlank = cs := by
    unfold List.rdropWhile
    rw [List.reverse_append,
      List.dropWhile_append_of_pos fun c hc => htrail c (List.mem_reverse.mp hc),
      dropWhile_of_head? fun c hc => hcs.last c (by rwa [List.head?_reverse] at hc),
      List.reverse_reverse]
  unfold trim trimStart
  rw [trimEnd_eq_rdropWhile, List.append_assoc, List.dropWhile_append_of_pos hlead]
  cases cs with
  | nil =>
    -- nothing is left between the blanks, so the first pass takes all of them
    have hall : trail.dropWhile isBlank = [] := List.dropWhile_eq_nil_iff.mpr htrail
    rw [List.nil_append, hall]
    rfl
  | cons c cs =>
    have hfront : (c :: cs ++ trail).dropWhile isBlank = c :: cs ++ trail :=
      dropWhile_of_head? fun d hd => hcs.head d hd
    rw [hfront, hback]

/-- A trimmed text stays as it is. -/
theorem Trimmed.trim_eq {cs : List Char} (hcs : Trimmed cs) : trim cs = cs := by
  have hnil : Blanks [] := nofun
  have h := trim_blanks hnil hnil hcs
  rwa [List.nil_append, List.append_nil] at h

/-- **What trimming leaves.**  It is trimmed, and the text is that with blanks around it. -/
theorem trim_eq_iff {cs ds : List Char} :
    trim cs = ds ↔
      Trimmed ds ∧ ∃ lead trail, Blanks lead ∧ Blanks trail ∧ cs = lead ++ ds ++ trail := by
  constructor
  · rintro rfl
    exact ⟨trimmed_trim cs, exists_append_trim cs⟩
  · rintro ⟨hds, lead, trail, hlead, htrail, rfl⟩
    exact trim_blanks hlead htrail hds

end SolidityDocs.Text
