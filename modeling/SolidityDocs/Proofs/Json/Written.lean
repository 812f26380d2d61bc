import SolidityDocs.Json.Tree
import SolidityDocs.Json.Value
import SolidityDocs.Proofs.Text.Basic

/-!
# Scanning what was written

A value has a tree of its own, `Value.tree`, which is what a reader of its text should see.  This
file proves that the scanner finds exactly that tree in the text of the value, whatever the layout,
as long as the layout puts nothing but blanks between tokens.

The scanner is a machine that takes one token after the other, and the writer puts a value in front
of the text that follows.  So the statement to prove by induction is about a value in front of any
text: the machine takes the tokens of the value and goes on as if the whole value were one token
(`Tree.run_write`).  A number is the only token that could swallow a part of what follows, hence
`Delimited`.

Numbers are written with all their digits, but only those of 64 bits are read as integers again.  A
value whose numbers all are is one that `Fits`.

* `Value.tree`: the tree of a value.
* `Token.next?_writeString`, `Token.next?_toDigits`: the token of a string and of a number.
* `Tree.scan_render`: scanning the text of a value gives the tree of the value.
-/

namespace SolidityDocs.Json

/-! ## The tree of a value -/

namespace Value

mutual

/-- The tree of a value. -/
def tree : Value → Tree
  | .null => .null
  | .bool b => .bool b
  | .nat n => .number (.ok (.natural n))
  | .string s => .string (.ok s)
  | .list items => .list (itemTrees items) .closed
  | .object entries => .object (entryTrees entries) .closed

/-- The trees of the items of a list. -/
def itemTrees : List Value → List Tree
  | [] => []
  | v :: vs => tree v :: itemTrees vs

/-- The trees of the entries of an object. -/
def entryTrees : List (String × Value) → List (Key × Tree)
  | [] => []
  | (k, v) :: es => (.ok k, tree v) :: entryTrees es

end

mutual

/-- Every number in the value is below `2 ^ 64`. -/
def Fits : Value → Prop
  | .nat n => n < Nat.pow 2 64
  | .list items => ItemsFit items
  | .object entries => EntriesFit entries
  | .null | .bool _ | .string _ => True

/-- Every number in the items is below `2 ^ 64`. -/
def ItemsFit : List Value → Prop
  | [] => True
  | v :: vs => Fits v ∧ ItemsFit vs

/-- Every number in the entries is below `2 ^ 64`. -/
def EntriesFit : List (String × Value) → Prop
  | [] => True
  | (_, v) :: es => Fits v ∧ EntriesFit es

end

theorem itemTrees_eq_map (vs : List Value) : itemTrees vs = vs.map tree := by
  induction vs with
  | nil => rfl
  | cons v vs ih => rw [itemTrees, ih, List.map_cons]

theorem entryTrees_eq_map (es : List (String × Value)) :
    entryTrees es = es.map fun e => (.ok e.1, e.2.tree) := by
  induction es with
  | nil => rfl
  | cons e es ih => rw [entryTrees, ih, List.map_cons]

theorem itemsFit_iff {vs : List Value} : ItemsFit vs ↔ ∀ v ∈ vs, v.Fits := by
  induction vs with
  | nil => simp [ItemsFit]
  | cons v vs ih => rw [ItemsFit, ih, List.forall_mem_cons]

theorem entriesFit_iff {es : List (String × Value)} : EntriesFit es ↔ ∀ e ∈ es, e.2.Fits := by
  induction es with
  | nil => simp [EntriesFit]
  | cons e es ih => rw [EntriesFit, ih, List.forall_mem_cons]

end Value

/-! ## Layouts -/

/-- Only blanks stand between the tokens: in line breaks, and after colons. -/
structure Layout.IsBlank (l : Layout) : Prop where
  lineBreak : ∀ depth, ∀ c ∈ l.lineBreak depth, Token.isBlank c = true
  colon : ∃ blanks, l.colon = ':' :: blanks ∧ ∀ c ∈ blanks, Token.isBlank c = true

theorem Layout.isBlank_compact : Layout.compact.IsBlank where
  lineBreak := by
    intro depth c hc
    cases hc
  colon := ⟨[], rfl, by simp⟩

theorem Layout.isBlank_indented (n : Nat) : (Layout.indented n).IsBlank where
  lineBreak := by
    intro depth c hc
    rcases List.mem_cons.mp hc with rfl | hc
    · rfl
    · rw [List.eq_of_mem_replicate hc]
      rfl
  colon := ⟨[' '], rfl, by simp [Token.isBlank]⟩

/-- Text that cannot continue a number. -/
def Delimited (cs : List Char) : Prop :=
  ∀ c ∈ cs.head?, c.isDigit = false ∧ c ≠ '.' ∧ c ≠ 'e' ∧ c ≠ 'E'

theorem delimited_nil : Delimited [] := by
  intro c hc
  cases hc

theorem delimited_cons {c : Char} (h : c.isDigit = false ∧ c ≠ '.' ∧ c ≠ 'e' ∧ c ≠ 'E')
    (cs : List Char) : Delimited (c :: cs) := by
  intro x hx
  cases hx
  exact h

theorem delimited_of_isBlank {c : Char} (h : Token.isBlank c = true) (cs : List Char) :
    Delimited (c :: cs) := by
  refine delimited_cons ?_ cs
  simp only [Token.isBlank, Bool.or_eq_true, beq_iff_eq] at h
  rcases h with ((rfl | rfl) | rfl) | rfl <;> decide

theorem delimited_append {bs cs : List Char} (hb : ∀ c ∈ bs, Token.isBlank c = true)
    (hc : Delimited cs) : Delimited (bs ++ cs) := by
  cases bs with
  | nil => exact hc
  | cons b bs => exact delimited_of_isBlank (hb b (List.mem_cons_self ..)) _

/-! ## Tokens -/

namespace Token

theorem next?_append {bs : List Char} (hb : ∀ c ∈ bs, isBlank c = true) (cs : List Char) :
    next? (bs ++ cs) = next? cs := by
  unfold next?
  rw [List.dropWhile_append_of_pos hb]

theorem next?_cons {c : Char} (hc : isBlank c = false) (cs : List Char) :
    next? (c :: cs) = some (startingWith c cs) := by
  unfold next?
  rw [List.dropWhile_cons_of_neg (by rw [hc]; exact Bool.false_ne_true)]

/-! ### Strings -/

theorem hexUnit?_escapeCode :
    ∀ n < 32, hexUnit? '0' '0' (Nat.digitChar (n / 16)) (Nat.digitChar (n % 16)) = some n := by
  decide

theorem utf8Size_digitChar : ∀ n < 16, (Nat.digitChar n).utf8Size = 1 := by decide

/-- An escaped control character is read as itself. -/
theorem escape_escapeCode {c : Char} (hc : c.toNat < 32) (rest : List Char) :
    escape ('u' :: '0' :: '0' :: Nat.digitChar (c.toNat / 16) :: Nat.digitChar (c.toNat % 16) ::
      rest) = .ok ⟨.ok c, rest⟩ := by
  have h₁ := utf8Size_digitChar (c.toNat / 16) (by omega)
  have h₂ := utf8Size_digitChar (c.toNat % 16) (by omega)
  have hzero : ('0' : Char).utf8Size = 1 := rfl
  have hunit : codeUnit ('0' :: '0' :: Nat.digitChar (c.toNat / 16) ::
      Nat.digitChar (c.toNat % 16) :: rest) = .ok (c.toNat, rest) := by
    unfold codeUnit
    simp only [List.take_succ_cons, List.take_zero, List.foldr_cons, List.foldr_nil, h₁, h₂, hzero,
      hexUnit?_escapeCode c.toNat hc]
    rfl
  have htrail : isTrailing c.toNat = false := by
    unfold isTrailing
    simp only [Bool.and_eq_false_iff, decide_eq_false_iff_not]
    omega
  have hlead : isLeading c.toNat = false := by
    unfold isLeading
    simp only [Bool.and_eq_false_iff, decide_eq_false_iff_not]
    omega
  unfold escape
  simp only [hunit, htrail, hlead, Char.ofNat_toNat]
  rfl

theorem stringBody_escape {cs rest : List Char} {c : Char} (h : escape cs = .ok ⟨.ok c, rest⟩)
    (acc : List Char) : stringBody ('\\' :: cs) (.ok acc) = stringBody rest (.ok (c :: acc)) := by
  rw [stringBody]
  split
  case h_1 e he =>
    rw [h] at he
    cases he
  case h_2 e he =>
    rw [h] at he
    cases he
    rfl

/-- One written character is read as itself. -/
theorem stringBody_escapeChar (c : Char) (rest acc : List Char) :
    stringBody (escapeChar c ++ rest) (.ok acc) = stringBody rest (.ok (c :: acc)) := by
  unfold escapeChar
  split
  case h_8 hquote hslash _ _ _ _ _ =>
    split
    case isTrue hc => exact stringBody_escape (escape_escapeCode hc rest) acc
    case isFalse hc =>
      rw [List.singleton_append, stringBody.eq_def]
      split
      all_goals simp_all [pushChar]
  all_goals exact stringBody_escape rfl acc

theorem stringBody_foldr (s rest acc : List Char) :
    stringBody (s.foldr (fun c text => escapeChar c ++ text) ('"' :: rest)) (.ok acc) =
      (.string (.ok (String.ofList (acc.reverse ++ s))), rest) := by
  induction s generalizing acc with
  | nil =>
    rw [List.foldr_nil, stringBody, List.append_nil]
    rfl
  | cons c s ih =>
    rw [List.foldr_cons, stringBody_escapeChar, ih, List.reverse_cons, List.append_assoc,
      List.singleton_append]

/-- The token of a written string. -/
theorem next?_writeString (s : String) (rest : List Char) :
    next? (writeString s rest) = some (.string (.ok s), rest) := by
  unfold writeString
  rw [next?_cons (by decide)]
  show some (stringBody _ (.ok [])) = _
  rw [stringBody_foldr, List.reverse_nil, List.nil_append, String.ofList_toList]

/-! ### Numbers -/

open Text (isDigit_toDigits eq_zero_of_head?_toDigits digitsValue_toDigits)

theorem takeWhile_toDigits (n : Nat) {rest : List Char} (hr : Delimited rest) :
    (Nat.toDigits 10 n ++ rest).takeWhile Char.isDigit = Nat.toDigits 10 n := by
  rw [List.takeWhile_append_of_pos (isDigit_toDigits n)]
  cases rest with
  | nil => rw [List.takeWhile_nil, List.append_nil]
  | cons c cs =>
    rw [List.takeWhile_cons_of_neg (by simp [(hr c rfl).1]), List.append_nil]

theorem dropWhile_toDigits (n : Nat) {rest : List Char} (hr : Delimited rest) :
    (Nat.toDigits 10 n ++ rest).dropWhile Char.isDigit = rest := by
  rw [List.dropWhile_append_of_pos (isDigit_toDigits n)]
  cases rest with
  | nil => rfl
  | cons c cs => rw [List.dropWhile_cons_of_neg (by simp [(hr c rfl).1])]

theorem numberFraction_of_delimited (digits : List Char) {rest : List Char}
    (hr : Delimited rest) :
    numberFraction false digits rest = .ok (⟨false, digits, none, none⟩, rest) := by
  unfold numberFraction
  split
  · exact absurd rfl (hr '.' rfl).2.1
  · unfold numberExponent
    split
    · rename_i c r _
      obtain ⟨-, -, he, hE⟩ := hr c rfl
      rw [if_neg (not_or.mpr ⟨he, hE⟩)]
    · rfl

theorem numberWhole_toDigits (n : Nat) {rest : List Char} (hr : Delimited rest) :
    numberWhole false (Nat.toDigits 10 n ++ rest) =
      .ok (⟨false, Nat.toDigits 10 n, none, none⟩, rest) := by
  unfold numberWhole
  simp only [takeWhile_toDigits n hr, dropWhile_toDigits n hr]
  split
  · rename_i h
    exact absurd h Nat.toDigits_ne_nil
  · rename_i c cs h
    have hn : n = 0 := eq_zero_of_head?_toDigits (by rw [h, List.head?_cons])
    rw [hn, Nat.toDigits_zero] at h
    cases h
  · exact numberFraction_of_delimited _ hr

theorem value_toDigits {n : Nat} (hn : n < Nat.pow 2 64) :
    NumberLiteral.value ⟨false, Nat.toDigits 10 n, none, none⟩ = .ok (.natural n) := by
  have hmax : n ≤ maxUnsigned := Nat.le_sub_one_of_lt hn
  simp [NumberLiteral.value, NumberLiteral.integer?, digitsValue_toDigits, hmax]

theorem startingWith_of_isDigit {c : Char} (hc : c.isDigit = true) (cs : List Char) :
    startingWith c cs = ofNumber (numberWhole false (c :: cs)) := by
  unfold startingWith
  split
  case h_12 => rw [if_pos hc]
  all_goals cases hc

theorem isBlank_of_isDigit {c : Char} (hc : c.isDigit = true) : isBlank c = false := by
  cases hb : isBlank c with
  | false => rfl
  | true => exact absurd hc (by rw [(delimited_of_isBlank hb [] c rfl).1]; decide)

/-- The token of a written number. -/
theorem next?_toDigits {n : Nat} (hn : n < Nat.pow 2 64) {rest : List Char} (hr : Delimited rest) :
    next? (Nat.toDigits 10 n ++ rest) = some (.number (.ok (.natural n)), rest) := by
  have hwhole := numberWhole_toDigits n hr
  cases hd : Nat.toDigits 10 n with
  | nil => exact absurd hd Nat.toDigits_ne_nil
  | cons c cs =>
    have hc : c.isDigit = true := isDigit_toDigits n c (hd ▸ List.mem_cons_self ..)
    rw [hd] at hwhole
    rw [List.cons_append] at hwhole ⊢
    rw [next?_cons (isBlank_of_isDigit hc), startingWith_of_isDigit hc, hwhole]
    show some (Token.number (NumberLiteral.value _), rest) = _
    rw [← hd, value_toDigits hn]

end Token

/-! ## The machine on a written value -/

namespace Tree

/-- Goes on after a token. -/
def resume : Step → List Char → Tree × List Char
  | .inl s, rest => run s rest
  | .inr t, rest => (t, rest)

theorem run_of_next? {s : State} {cs rest : List Char} {t : Token}
    (h : Token.next? cs = some (t, rest)) : run s cs = resume (s.step t) rest := by
  rw [run]
  split
  case h_1 h' =>
    rw [h] at h'
    cases h'
  case h_2 h' =>
    rw [h] at h'
    cases h'
    cases s.step t <;> rfl

theorem run_append {bs : List Char} (hb : ∀ c ∈ bs, Token.isBlank c = true) (s : State)
    (cs : List Char) : run s (bs ++ cs) = run s cs := by
  have hnext := Token.next?_append hb cs
  cases h : Token.next? cs with
  | none =>
    rw [h] at hnext
    rw [run, run]
    split
    case h_2 h' => rw [hnext] at h'; cases h'
    split
    case h_2 h' => rw [h] at h'; cases h'
    rfl
  | some p =>
    rw [h] at hnext
    rw [run_of_next? hnext, run_of_next? h]

/-- In the state a value is due, which then goes into `around`. -/
def Awaits (s : State) (around : List Frame) : Prop :=
  ∀ t : Token, t ≠ .closeList → s.step t = startValue around t

theorem awaits_value (around : List Frame) : Awaits (.value around) around := by
  intro t ht
  rfl

theorem awaits_item (first : Bool) (items : List Tree) (around : List Frame) :
    Awaits (.item first items around) (.item items :: around) := by
  intro t ht
  cases t with
  | closeList => exact absurd rfl ht
  | _ => rfl

theorem run_of_awaits {s : State} {around : List Frame} (hs : Awaits s around)
    {cs rest : List Char} {t : Token} (h : Token.next? cs = some (t, rest))
    (ht : t ≠ .closeList) : run s cs = resume (startValue around t) rest := by
  rw [run_of_next? h, hs t ht]

theorem delimited_writeItems {l : Layout} (hl : l.IsBlank) (depth : Nat) (rest : List Char)
    (vs : List Value) : Delimited (Value.writeItems l depth rest vs) := by
  cases vs with
  | nil => exact delimited_append (hl.lineBreak depth) (delimited_cons (by decide) rest)
  | cons v vs => exact delimited_cons (by decide) _

theorem delimited_writeEntries {l : Layout} (hl : l.IsBlank) (depth : Nat) (rest : List Char)
    (es : List (String × Value)) : Delimited (Value.writeEntries l depth rest es) := by
  cases es with
  | nil => exact delimited_append (hl.lineBreak depth) (delimited_cons (by decide) rest)
  | cons e es => exact delimited_cons (by decide) _

/-- A key and its colon bring the machine to the value. -/
theorem run_key {l : Layout} (hl : l.IsBlank) (depth : Nat) (first : Bool)
    (entries : List (Key × Tree)) (around : List Frame) (k : String) (cs : List Char) :
    run (.key first entries around) (l.lineBreak depth ++ writeString k (l.colon ++ cs)) =
      run (.value (.entry entries (.ok k) :: around)) cs := by
  obtain ⟨blanks, hcolon, hblanks⟩ := hl.colon
  have hnext : Token.next? (l.colon ++ cs) = some (.colon, blanks ++ cs) := by
    rw [hcolon, List.cons_append, Token.next?_cons (by decide)]
    rfl
  rw [run_append (hl.lineBreak depth), run_of_next? (Token.next?_writeString k _)]
  show run (.colon entries (.ok k) around) _ = _
  rw [run_of_next? hnext]
  show run (.value (.entry entries (.ok k) :: around)) (blanks ++ cs) = _
  rw [run_append hblanks]

mutual

/-- The machine takes a written value as if it were one token. -/
theorem run_write {l : Layout} (hl : l.IsBlank) : ∀ (v : Value), v.Fits → ∀ (depth : Nat)
    {rest : List Char}, Delimited rest → ∀ {s : State} {around : List Frame}, Awaits s around →
    run s (v.write l depth rest) = resume (complete around v.tree) rest
  | .null, _, depth, rest, _, s, around, hs =>
    run_of_awaits hs (t := .null) rfl (by simp)
  | .bool true, _, depth, rest, _, s, around, hs =>
    run_of_awaits hs (t := .bool true) rfl (by simp)
  | .bool false, _, depth, rest, _, s, around, hs =>
    run_of_awaits hs (t := .bool false) rfl (by simp)
  | .nat n, hn, depth, rest, hr, s, around, hs =>
    run_of_awaits hs (Token.next?_toDigits hn hr) (by simp)
  | .string k, _, depth, rest, _, s, around, hs =>
    run_of_awaits hs (Token.next?_writeString k rest) (by simp)
  | .list [], _, depth, rest, _, s, around, hs => by
    rw [Value.write, run_of_awaits hs (t := .openList) rfl (by simp)]
    exact run_of_next? (s := .item true [] around) (t := .closeList) rfl
  | .list (v :: vs), hv, depth, rest, hr, s, around, hs => by
    rw [Value.write, run_of_awaits hs (t := .openList) rfl (by simp)]
    show run (.item true [] around) _ = _
    rw [run_append (hl.lineBreak _),
      run_write hl v hv.1 _ (delimited_writeItems hl depth rest vs) (awaits_item true [] around)]
    exact run_writeItems hl vs hv.2 depth hr [v.tree] around
  | .object [], _, depth, rest, _, s, around, hs => by
    rw [Value.write, run_of_awaits hs (t := .openObject) rfl (by simp)]
    exact run_of_next? (s := .key true [] around) (t := .closeObject) rfl
  | .object ((k, v) :: es), hv, depth, rest, hr, s, around, hs => by
    rw [Value.write, run_of_awaits hs (t := .openObject) rfl (by simp)]
    show run (.key true [] around) _ = _
    rw [run_key hl, run_write hl v hv.1 _ (delimited_writeEntries hl depth rest es)
      (awaits_value _)]
    exact run_writeEntries hl es hv.2 depth hr [(.ok k, v.tree)] around

/-- The rest of a written list. -/
theorem run_writeItems {l : Layout} (hl : l.IsBlank) : ∀ (vs : List Value), Value.ItemsFit vs →
    ∀ (depth : Nat) {rest : List Char}, Delimited rest →
    ∀ (items : List Tree) (around : List Frame),
    run (.itemEnd items around) (Value.writeItems l depth rest vs) =
      resume (complete around (.list (items.reverse ++ Value.itemTrees vs) .closed)) rest
  | [], _, depth, rest, _, items, around => by
    rw [Value.writeItems, run_append (hl.lineBreak depth), run_of_next? (t := .closeList) rfl,
      Value.itemTrees, List.append_nil]
    rfl
  | v :: vs, hv, depth, rest, hr, items, around => by
    rw [Value.writeItems, run_of_next? (t := .comma) rfl]
    show run (.item false items around) _ = _
    rw [run_append (hl.lineBreak _),
      run_write hl v hv.1 _ (delimited_writeItems hl depth rest vs)
        (awaits_item false items around)]
    show run (.itemEnd (v.tree :: items) around) _ = _
    rw [run_writeItems hl vs hv.2 depth hr (v.tree :: items) around, List.reverse_cons,
      List.append_assoc, List.singleton_append, Value.itemTrees]

/-- The rest of a written object. -/
theorem run_writeEntries {l : Layout} (hl : l.IsBlank) : ∀ (es : List (String × Value)),
    Value.EntriesFit es → ∀ (depth : Nat) {rest : List Char}, Delimited rest →
    ∀ (entries : List (Key × Tree)) (around : List Frame),
    run (.entryEnd entries around) (Value.writeEntries l depth rest es) =
      resume (complete around (.object (entries.reverse ++ Value.entryTrees es) .closed)) rest
  | [], _, depth, rest, _, entries, around => by
    rw [Value.writeEntries, run_append (hl.lineBreak depth), run_of_next? (t := .closeObject) rfl,
      Value.entryTrees, List.append_nil]
    rfl
  | (k, v) :: es, hv, depth, rest, hr, entries, around => by
    rw [Value.writeEntries, run_of_next? (t := .comma) rfl]
    show run (.key false entries around) _ = _
    rw [run_key hl, run_write hl v hv.1 _ (delimited_writeEntries hl depth rest es)
      (awaits_value _)]
    show run (.entryEnd ((.ok k, v.tree) :: entries) around) _ = _
    rw [run_writeEntries hl es hv.2 depth hr ((.ok k, v.tree) :: entries) around,
      List.reverse_cons, List.append_assoc, List.singleton_append, Value.entryTrees]

end

/-- **Scanning the text of a value gives the tree of the value.** -/
theorem scan_render {l : Layout} (hl : l.IsBlank) {v : Value} (hv : v.Fits) :
    scan (v.render l).toList = (v.tree, []) := by
  rw [Value.render, String.toList_ofList]
  exact run_write hl v hv 0 delimited_nil (awaits_value [])

end Tree

end SolidityDocs.Json
