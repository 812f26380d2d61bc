import SolidityDocs.Proofs.Line.Table

/-!
# Which offsets are on a line

A line table gives the line of an offset.  Here the question is turned round: which offsets are on a
given line?  The newlines of a text cut it into pieces, and the offsets on a line are those of one
piece, together with the newline that ends it.  The last piece has no newline at its end.  Instead
all offsets from its start on are on the last line, also those past the end of the text.

Around the piece of a line stand the pieces before it, each with its newline behind it, and the
pieces after it, each with its newline in front.  So the newlines before an offset tell on which
side of the piece the offset is: there are as many as pieces before if the offset is in the piece or
at its end, there are fewer if it is further to the front, and more if it is further to the back
(`count_take_eq_iff`).

* `lineCount_ofText`: there are as many lines as pieces.
* `extent_piece`: where the piece of a line stands, and which offsets are on the line.
* `lineAt_covers_pieces`: every offset is on one line, and every line has its piece.
-/

namespace SolidityDocs

namespace LineTable

/-! ## Pieces -/

/-- The pieces of a list of bytes between its newlines. -/
def pieces (bytes : List UInt8) : List (List UInt8) := bytes.splitOn newline

/-- Where a piece starts: after the pieces before it, each with its newline. -/
def pieceStart (bytes : List UInt8) (i : Nat) : Nat :=
  (((pieces bytes).take i).map fun piece => piece.length + 1).sum

/-- Bytes in front of the others extend the first piece, and newlines start a new one. -/
theorem pieces_cons (b : UInt8) (bs : List UInt8) :
    pieces (b :: bs) =
      if b = newline then [] :: pieces bs else (pieces bs).modifyHead (b :: ·) := by
  unfold pieces
  rw [List.splitOn_cons_eq_if_modifyHead]
  simp only [beq_iff_eq]

theorem pieces_ne_nil (bs : List UInt8) : pieces bs ≠ [] := List.splitOn_ne_nil newline bs

theorem length_pieces (bs : List UInt8) : (pieces bs).length = bs.count newline + 1 := by
  induction bs with
  | nil => rfl
  | cons b bs ih =>
    rw [pieces_cons]
    split
    · next hb => rw [List.length_cons, ih, hb, List.count_cons_self]
    · next hb => rw [List.length_modifyHead, ih, List.count_cons_of_ne hb]

theorem newline_notMem_of_mem_pieces {bs piece : List UInt8} (h : piece ∈ pieces bs) :
    newline ∉ piece := by
  induction bs generalizing piece with
  | nil =>
    rw [List.mem_singleton.mp h]
    exact List.not_mem_nil
  | cons b bs ih =>
    rw [pieces_cons] at h
    split at h
    · rcases List.mem_cons.mp h with rfl | h
      · exact List.not_mem_nil
      · exact ih h
    · next hb =>
      obtain ⟨first, others, hpieces⟩ := List.exists_cons_of_ne_nil (pieces_ne_nil bs)
      rw [hpieces] at h ih
      rcases List.mem_cons.mp h with rfl | h
      · rw [List.mem_cons, not_or]
        exact ⟨Ne.symm hb, ih (List.mem_cons_self ..)⟩
      · exact ih (List.mem_cons_of_mem _ h)

/-! ## Around a piece -/

/-- Pieces with a newline behind each. -/
def endedPieces (ps : List (List UInt8)) : List UInt8 := ps.flatMap fun p => p ++ [newline]

/-- Pieces with a newline in front of each. -/
def startedPieces (ps : List (List UInt8)) : List UInt8 := ps.flatMap fun p => newline :: p

theorem intercalate_cons (p : List UInt8) (ps : List (List UInt8)) :
    [newline].intercalate (p :: ps) = p ++ startedPieces ps := by
  induction ps generalizing p with
  | nil => simp [startedPieces]
  | cons q ps ih =>
    rw [List.intercalate_cons_cons, ih]
    simp [startedPieces]

/-- The text around a piece. -/
theorem intercalate_append_cons (before after : List (List UInt8)) (piece : List UInt8) :
    [newline].intercalate (before ++ piece :: after) =
      endedPieces before ++ (piece ++ startedPieces after) := by
  induction before with
  | nil => exact intercalate_cons piece after
  | cons p before ih =>
    have hne : before ++ piece :: after ≠ [] := by simp
    rw [List.cons_append, List.intercalate_cons_of_ne_nil hne, ih]
    simp [endedPieces]

theorem length_endedPieces (ps : List (List UInt8)) :
    (endedPieces ps).length = (ps.map fun p => p.length + 1).sum := by
  simp [endedPieces, List.length_flatMap]

theorem count_endedPieces {ps : List (List UInt8)} (h : ∀ p ∈ ps, newline ∉ p) :
    (endedPieces ps).count newline = ps.length := by
  induction ps with
  | nil => rfl
  | cons p ps ih =>
    have hp : p.count newline = 0 := List.count_eq_zero.mpr (h p (List.mem_cons_self ..))
    have hps := ih fun q hq => h q (List.mem_cons_of_mem _ hq)
    rw [endedPieces, List.flatMap_cons, ← endedPieces, List.count_append, List.count_append, hp,
      hps, List.count_singleton_self, List.length_cons]
    omega

/-- Unless there is no piece before it, a piece comes after a newline. -/
theorem exists_endedPieces_eq_concat {ps : List (List UInt8)} (h : ps ≠ []) :
    ∃ front, endedPieces ps = front ++ [newline] := by
  obtain ⟨ps, p, rfl⟩ := List.eq_nil_or_concat ps |>.resolve_left h
  exact ⟨endedPieces ps ++ p, by simp [endedPieces]⟩

/-- Unless there is no piece after it, a piece comes before a newline. -/
theorem exists_startedPieces_eq_cons {ps : List (List UInt8)} (h : ps ≠ []) :
    ∃ back, startedPieces ps = newline :: back := by
  obtain ⟨p, ps, rfl⟩ := List.exists_cons_of_ne_nil h
  exact ⟨p ++ startedPieces ps, rfl⟩

theorem count_take_mono (bs : List UInt8) {n m : Nat} (h : n ≤ m) :
    (bs.take n).count newline ≤ (bs.take m).count newline :=
  (List.take_sublist_take_left h).count_le newline

/-! ## Newlines before an offset -/

section Around

variable {before after : List (List UInt8)} {piece : List UInt8}

/-- In front of a piece there are fewer newlines than pieces before it. -/
theorem count_take_lt (hbefore : ∀ p ∈ before, newline ∉ p) (rest : List UInt8) {n : Nat}
    (hn : n < (endedPieces before).length) :
    ((endedPieces before ++ rest).take n).count newline < before.length := by
  have hne : before ≠ [] := by
    rintro rfl
    exact Nat.not_lt_zero n hn
  obtain ⟨front, hfront⟩ := exists_endedPieces_eq_concat hne
  have hcount := congrArg (List.count newline) hfront
  rw [count_endedPieces hbefore, List.count_append, List.count_singleton_self] at hcount
  rw [hfront, List.length_append, List.length_singleton] at hn
  have hmono := count_take_mono (endedPieces before ++ rest) (Nat.le_of_lt_succ hn)
  rw [hfront, List.append_assoc, List.take_left] at hmono
  rw [hfront, List.append_assoc]
  omega

/-- Behind a piece and its newline there are more newlines than pieces before it. -/
theorem lt_count_take (hbefore : ∀ p ∈ before, newline ∉ p) (hafter : after ≠ []) {n : Nat}
    (hn : (endedPieces before).length + piece.length < n) :
    before.length <
      ((endedPieces before ++ (piece ++ startedPieces after)).take n).count newline := by
  obtain ⟨back, hback⟩ := exists_startedPieces_eq_cons hafter
  have hmono := count_take_mono (endedPieces before ++ (piece ++ startedPieces after))
    (show (endedPieces before).length + (piece.length + 1) ≤ n by omega)
  rw [List.take_length_add_append, hback, List.take_length_add_append, List.take_succ_cons,
    List.take_zero, List.count_append, List.count_append, count_endedPieces hbefore,
    List.count_singleton_self] at hmono
  rw [hback]
  omega

/-- In a piece there are as many newlines as pieces before it. -/
theorem count_take_eq (hbefore : ∀ p ∈ before, newline ∉ p) (hpiece : newline ∉ piece) {n : Nat}
    (hstart : (endedPieces before).length ≤ n)
    (hend : after ≠ [] → n ≤ (endedPieces before).length + piece.length) :
    ((endedPieces before ++ (piece ++ startedPieces after)).take n).count newline =
      before.length := by
  obtain ⟨k, rfl⟩ := Nat.exists_eq_add_of_le hstart
  rw [List.take_length_add_append, List.count_append, count_endedPieces hbefore]
  have hnone : ((piece ++ startedPieces after).take k).count newline = 0 := by
    rw [List.count_eq_zero]
    intro hmem
    by_cases hne : after = []
    · -- nothing follows the last piece
      rw [hne, startedPieces, List.flatMap_nil, List.append_nil] at hmem
      exact hpiece (List.mem_of_mem_take hmem)
    · have hk := hend hne
      rw [List.take_append_of_le_length (by omega)] at hmem
      exact hpiece (List.mem_of_mem_take hmem)
  omega

/-- **The newlines before an offset tell whether it is in a piece.**  The newline at the end of the
piece counts as part of it, and so does everything behind the last piece. -/
theorem count_take_eq_iff (hbefore : ∀ p ∈ before, newline ∉ p) (hpiece : newline ∉ piece)
    (n : Nat) :
    ((endedPieces before ++ (piece ++ startedPieces after)).take n).count newline = before.length ↔
      (endedPieces before).length ≤ n ∧
        (after ≠ [] → n ≤ (endedPieces before).length + piece.length) := by
  constructor
  · intro hn
    constructor
    · by_contra hlt
      have hfewer := count_take_lt hbefore (piece ++ startedPieces after) (not_le.mp hlt)
      omega
    · intro hne
      by_contra hlt
      have hmore : before.length < _ := lt_count_take hbefore hne (not_le.mp hlt)
      omega
  · rintro ⟨hstart, hend⟩
    exact count_take_eq hbefore hpiece hstart hend

end Around

/-! ## Lines -/

theorem length_positions (start : Nat) (bs : List UInt8) :
    (positions start bs).length = bs.count newline := by
  induction bs generalizing start with
  | nil => rfl
  | cons b bs ih =>
    rw [positions]
    split
    · next hb => rw [List.length_cons, ih, hb, List.count_cons_self]
    · next hb => rw [ih, List.count_cons_of_ne hb]

/-- **There are as many lines as pieces.** -/
theorem lineCount_ofText (text : String) :
    (ofText text).lineCount = (pieces (textBytes text)).length := by
  rw [length_pieces, ← length_positions 0]
  rfl

/-- Where the piece of a line stands in a text, and which offsets are on the line.  Lines are
counted from one, and pieces from zero.

The piece has no newline, and one ends it unless it is the last piece, with which the text ends.
The offsets on the line are those of the piece and of the newline that ends it.  On the last line,
they are all those from the start of the piece on.  The newline in front of the piece is on the line
before. -/
structure Extent (text : String) (i : Nat) (piece : List UInt8) (first : Nat) : Prop where
  bytes : ((textBytes text).drop first).take piece.length = piece
  newline_notMem : newline ∉ piece
  ended : i + 1 < (ofText text).lineCount → (textBytes text)[first + piece.length]? = some newline
  last : i + 1 = (ofText text).lineCount → first + piece.length = (textBytes text).length
  lineAt_eq_iff : ∀ offset, (ofText text).lineAt offset = i + 1 ↔
    first ≤ offset ∧ (i + 1 < (ofText text).lineCount → offset ≤ first + piece.length)
  lineAt_first : (ofText text).lineAt first = i + 1
  before : 0 < i →
    (textBytes text)[first - 1]? = some newline ∧ (ofText text).lineAt (first - 1) = i

section Pieces

variable {text : String} {before after : List (List UInt8)} {piece : List UInt8}

theorem textBytes_eq_of_pieces (h : pieces (textBytes text) = before ++ piece :: after) :
    textBytes text = endedPieces before ++ (piece ++ startedPieces after) := by
  rw [← intercalate_append_cons, ← h]
  exact (List.intercalate_splitOn newline).symm

theorem ne_nil_iff_of_pieces (h : pieces (textBytes text) = before ++ piece :: after) :
    after ≠ [] ↔ before.length + 1 < (ofText text).lineCount := by
  rw [lineCount_ofText, h, List.length_append, List.length_cons, ← List.length_pos_iff]
  omega

/-- A piece comes after a newline, which is on the line before. -/
theorem lineAt_pred_of_pieces (h : pieces (textBytes text) = before ++ piece :: after)
    (hne : before ≠ []) :
    (textBytes text)[(endedPieces before).length - 1]? = some newline ∧
      (ofText text).lineAt ((endedPieces before).length - 1) = before.length := by
  have hfree : ∀ p ∈ before, newline ∉ p := fun p hp =>
    newline_notMem_of_mem_pieces (h ▸ List.mem_append_left _ hp)
  obtain ⟨front, hfront⟩ := exists_endedPieces_eq_concat hne
  have hcount := congrArg (List.count newline) hfront
  rw [count_endedPieces hfree, List.count_append, List.count_singleton_self] at hcount
  have hpred : (endedPieces before).length - 1 = front.length := by
    rw [hfront, List.length_append, List.length_singleton, Nat.add_sub_cancel]
  rw [hpred, lineAt_ofText, textBytes_eq_of_pieces h, hfront, List.append_assoc, List.take_left]
  refine ⟨?_, by omega⟩
  rw [List.getElem?_append_right (Nat.le_refl _), Nat.sub_self]
  rfl

/-- The extent of a line, by the pieces around its own. -/
theorem extent_of_pieces (h : pieces (textBytes text) = before ++ piece :: after) :
    Extent text before.length piece (endedPieces before).length := by
  have hbytes := textBytes_eq_of_pieces h
  have hafter := ne_nil_iff_of_pieces h
  have hmem : ∀ p ∈ before ++ piece :: after, newline ∉ p := fun p hp =>
    newline_notMem_of_mem_pieces (h ▸ hp)
  have hbefore : ∀ p ∈ before, newline ∉ p := fun p hp => hmem p (List.mem_append_left _ hp)
  have hpiece : newline ∉ piece := hmem piece (by simp)
  have hline : ∀ offset, (ofText text).lineAt offset = before.length + 1 ↔
      (endedPieces before).length ≤ offset ∧ (before.length + 1 < (ofText text).lineCount →
        offset ≤ (endedPieces before).length + piece.length) := by
    intro offset
    rw [← hafter, ← count_take_eq_iff hbefore hpiece, lineAt_ofText, hbytes]
    omega
  exact {
    bytes := by rw [hbytes, List.drop_left, List.take_left]
    newline_notMem := hpiece
    ended := by
      intro hlt
      obtain ⟨back, hback⟩ := exists_startedPieces_eq_cons (hafter.mpr hlt)
      rw [hbytes, hback, ← List.append_assoc, ← List.length_append,
        List.getElem?_append_right (Nat.le_refl _), Nat.sub_self]
      rfl
    last := by
      intro heq
      have hnil : after = [] := by
        by_contra hne
        have hlt := hafter.mp hne
        omega
      rw [hbytes, hnil, List.length_append]
      simp [startedPieces]
    lineAt_eq_iff := hline
    lineAt_first := (hline _).mpr ⟨Nat.le_refl _, fun _ => Nat.le_add_right _ _⟩
    before := fun hpos => lineAt_pred_of_pieces h (List.length_pos_iff.mp hpos) }

end Pieces

/-- **The extent of a line.** -/
theorem extent_piece (text : String) {i : Nat} (hi : i < (pieces (textBytes text)).length) :
    Extent text i (pieces (textBytes text))[i] (pieceStart (textBytes text) i) := by
  have hsplit : pieces (textBytes text) = (pieces (textBytes text)).take i ++
      (pieces (textBytes text))[i] :: (pieces (textBytes text)).drop (i + 1) := by
    rw [List.getElem_cons_drop, List.take_append_drop]
  have h := extent_of_pieces hsplit
  rw [length_endedPieces, List.length_take_of_le (Nat.le_of_lt hi)] at h
  exact h

/-- **Lines split the offsets.**  There are as many lines as pieces, every offset is on one of the
lines, and the offsets on a line are those of its piece and of the newline that ends it. -/
theorem lineAt_covers_pieces (text : String) :
    (pieces (textBytes text)).length = (ofText text).lineCount ∧
    [newline].intercalate (pieces (textBytes text)) = textBytes text ∧
    (∀ offset, 1 ≤ (ofText text).lineAt offset ∧
      (ofText text).lineAt offset ≤ (ofText text).lineCount) ∧
    ∀ (i : Nat) (hi : i < (pieces (textBytes text)).length),
      Extent text i (pieces (textBytes text))[i] (pieceStart (textBytes text) i) := by
  refine ⟨(lineCount_ofText text).symm, List.intercalate_splitOn newline, fun offset => ?_,
    fun i hi => extent_piece text hi⟩
  rw [lineCount_ofText, length_pieces, lineAt_ofText]
  have hle : ((textBytes text).take offset).count newline ≤ (textBytes text).count newline :=
    (List.take_sublist offset _).count_le newline
  omega

/-- The third line of a text with an empty line, a character of two bytes and a newline at the end.
-/
theorem lineAt_covers_pieces_umlaut :
    2 < (pieces (textBytes "a\n\nü\n")).length ∧ Extent "a\n\nü\n" 2 (textBytes "ü") 3 :=
  ⟨by decide, (lineAt_covers_pieces "a\n\nü\n").2.2.2 2 (by decide)⟩

end LineTable

end SolidityDocs
