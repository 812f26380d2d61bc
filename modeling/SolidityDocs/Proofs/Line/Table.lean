import Mathlib
import SolidityDocs.Line.Table

/-!
# What a line table knows

A line table keeps the positions of the newlines of a text and its length, and finds the line of an
offset by bisection among the positions.  Here the outcome is put in terms of the text again: the
line of an offset is one more than the number of newline bytes before it.

Bisection is proved without any mention of order.  An index *cuts* an array at `x` when the entries
before it are below `x` and the others are not.  Bisection between two bounds finds every cut
between them, because at each step the entry in the middle tells on which side the cut lies.  Order
is only needed to know that there is a cut: in an increasing list, it is the number of entries below
`x`.

The offset is cut down to the length of the text before the search, and this makes no difference,
since there are no newlines from there on.  So neither the length of a text nor any byte but the
newlines has a say in its lines.

* `LineTable.bisect_eq_of_cuts`: bisection finds the cut.
* `LineTable.lineAt_ofText`: the line of an offset counts the newlines before it.
* `LineTable.lineOf_ofText_congr`: texts with newlines in the same places have the same lines.
* `LineTable.lineOf_ofText_eq_scanLine`: the table of a text agrees with scanning the text.
-/

namespace SolidityDocs

namespace LineTable

/-! ## Bisection -/

/-- The entries before the index are below `x`, and the others are not. -/
structure Cuts (l : List Nat) (x r : Nat) : Prop where
  le_length : r ≤ l.length
  below : ∀ k ∈ l.take r, k < x
  above : ∀ k ∈ l.drop r, x ≤ k

/-- An entry below `x` stands before the cut, and only such an entry does. -/
theorem Cuts.lt_iff {l : List Nat} {x r : Nat} (hr : Cuts l x r) {i : Nat} (hi : i < l.length) :
    l.toArray.getD i 0 < x ↔ i < r := by
  have hget : l.toArray.getD i 0 = l[i] := by simp [hi]
  rw [hget]
  constructor
  · intro hlt
    by_contra hle
    have hmem : l[i] ∈ l.drop r :=
      List.mem_drop_iff_getElem.mpr ⟨i - r, by omega, by congr 1; omega⟩
    have hge := hr.above _ hmem
    omega
  · intro hlt
    exact hr.below _ (List.mem_take_iff_getElem.mpr ⟨i, by omega, rfl⟩)

/-- **Bisection finds the cut.** -/
theorem bisect_eq_of_cuts {l : List Nat} {x r : Nat} (hr : Cuts l x r) {lo hi : Nat}
    (hlo : lo ≤ r) (hhi : r ≤ hi) (hlen : hi ≤ l.length) : bisect l.toArray x lo hi = r := by
  fun_induction bisect l.toArray x lo hi with
  | case1 lo hi hlt mid hmid ih =>
    -- the entry in the middle is below, so the cut lies after it
    have hmr : mid < r := (hr.lt_iff (by omega)).mp hmid
    exact ih (by omega) hhi hlen
  | case2 lo hi hlt mid hmid ih =>
    have hrm : ¬ mid < r := fun h => hmid ((hr.lt_iff (by omega)).mpr h)
    exact ih hlo (by omega) (by omega)
  | case3 lo hi hge => omega

/-- In an increasing list, the number of entries below `x` is the cut. -/
theorem cuts_countP {l : List Nat} (hl : l.Pairwise (· < ·)) (x : Nat) :
    Cuts l x (l.countP fun k => k < x) := by
  induction l with
  | nil => exact ⟨Nat.le_refl 0, List.forall_mem_nil _, List.forall_mem_nil _⟩
  | cons k l ih =>
    obtain ⟨hk, hl⟩ := List.pairwise_cons.mp hl
    obtain ⟨hle, hbelow, habove⟩ := ih hl
    by_cases hkx : k < x
    · rw [List.countP_cons_of_pos (by simpa using hkx)]
      refine ⟨Nat.succ_le_succ hle, ?_, habove⟩
      rw [List.take_succ_cons]
      exact List.forall_mem_cons.mpr ⟨hkx, hbelow⟩
    · -- the first entry is not below, so none is
      have hall : ∀ j ∈ k :: l, x ≤ j := by
        refine List.forall_mem_cons.mpr ⟨by omega, fun j hj => ?_⟩
        have hkj := hk j hj
        omega
      have hzero : ((k :: l).countP fun j => j < x) = 0 := by
        rw [List.countP_eq_zero]
        intro j hj
        have hxj := hall j hj
        simpa using hxj
      rw [hzero]
      exact ⟨Nat.zero_le _, List.forall_mem_nil _, hall⟩

/-! ## The positions of the newlines -/

theorem le_of_mem_positions {start k : Nat} {bs : List UInt8} (h : k ∈ positions start bs) :
    start ≤ k := by
  induction bs generalizing start with
  | nil => cases h
  | cons b bs ih =>
    rw [positions] at h
    split at h
    · rcases List.mem_cons.mp h with rfl | h
      · exact Nat.le_refl _
      · exact Nat.le_of_succ_le (ih h)
    · exact Nat.le_of_succ_le (ih h)

theorem sorted_positions (start : Nat) (bs : List UInt8) :
    (positions start bs).Pairwise (· < ·) := by
  induction bs generalizing start with
  | nil => exact List.Pairwise.nil
  | cons b bs ih =>
    rw [positions]
    split
    · exact List.pairwise_cons.mpr ⟨fun k hk => le_of_mem_positions hk, ih _⟩
    · exact ih _

/-- The positions below a place are those of the newlines before it. -/
theorem countP_positions (start n : Nat) (bs : List UInt8) :
    ((positions start bs).countP fun k => k < start + n) = (bs.take n).count newline := by
  induction bs generalizing start n with
  | nil => rw [positions, List.take_nil, List.countP_nil, List.count_nil]
  | cons b bs ih =>
    cases n with
    | zero =>
      rw [List.take_zero, List.count_nil, List.countP_eq_zero]
      intro k hk
      have hle := le_of_mem_positions hk
      simpa using hle
    | succ n =>
      have hplace : start + (n + 1) = start + 1 + n := by omega
      rw [hplace, List.take_succ_cons, positions]
      by_cases hb : b = newline
      · rw [if_pos hb, List.countP_cons_of_pos (by simp; omega), ih, hb, List.count_cons_self]
      · rw [if_neg hb, ih, List.count_cons_of_ne hb]

/-! ## Lines -/

/-- **The line of an offset counts the newlines before it.**  That the offset is cut down to the
length of the text makes no difference. -/
theorem lineAt_ofText (text : String) (start : Nat) :
    (ofText text).lineAt start = 1 + ((textBytes text).take start).count newline := by
  have hcut := cuts_countP (sorted_positions 0 (textBytes text))
    (min start (textBytes text).length)
  have hcount := countP_positions 0 (min start (textBytes text).length) (textBytes text)
  rw [Nat.zero_add] at hcount
  have htake : (textBytes text).take (min start (textBytes text).length) =
      (textBytes text).take start := by
    rw [List.take_eq_take_iff]
    omega
  have hline : (ofText text).lineAt start = 1 + bisect (positions 0 (textBytes text)).toArray
      (min start (textBytes text).length) 0 (positions 0 (textBytes text)).length := rfl
  rw [hline, bisect_eq_of_cuts hcut (Nat.zero_le _) hcut.le_length (Nat.le_refl _), hcount,
    htake]

/-- Lists with newlines in the same places have equally many before any place. -/
theorem count_take_congr {bs cs : List UInt8}
    (h : ∀ k : Nat, bs[k]? = some newline ↔ cs[k]? = some newline) (n : Nat) :
    (bs.take n).count newline = (cs.take n).count newline := by
  have hone : ∀ o : Option UInt8,
      o.toList.count newline = if o = some newline then 1 else 0 := by
    rintro (_ | b)
    · rfl
    · simp [List.count_cons]
  induction n with
  | zero => rfl
  | succ n ih =>
    simp only [List.take_add_one, List.count_append, ih, hone, h n]

/-- **Texts with newlines in the same places have the same lines.** -/
theorem lineOf_ofText_congr {text text' : String}
    (h : ∀ k : Nat, (textBytes text)[k]? = some newline ↔ (textBytes text')[k]? = some newline) :
    (ofText text).lineOf = (ofText text').lineOf := by
  funext descriptor
  cases descriptor with
  | none => rfl
  | some descriptor =>
    show (ofText text).lineAt (startOffset descriptor) =
      (ofText text').lineAt (startOffset descriptor)
    rw [lineAt_ofText, lineAt_ofText, count_take_congr h]

/-! ## The table and the scan -/

theorem length_textBytes (text : String) : (textBytes text).length = text.utf8ByteSize := rfl

/-- **The table of a text agrees with scanning the text.**  Every descriptor, and also none, has the
same line either way.  In particular the search among the positions of the newlines, for an offset
that is cut down to the length of the text, counts the newlines before the offset. -/
theorem lineOf_ofText_eq_scanLine (text : String) :
    (∀ descriptor : Option String, (ofText text).lineOf descriptor = scanLine text descriptor) ∧
    ∀ start : Nat, (ofText text).lineAt start =
      1 + ((textBytes text).take (min start text.utf8ByteSize)).count newline := by
  constructor
  · rintro (_ | descriptor)
    · rfl
    · exact lineAt_ofText text (startOffset descriptor)
  · intro start
    have htake : (textBytes text).take (min start text.utf8ByteSize) =
        (textBytes text).take start := by
      rw [List.take_eq_take_iff, length_textBytes]
      omega
    rw [lineAt_ofText, htake]

end LineTable

end SolidityDocs
