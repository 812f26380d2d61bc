import Mathlib
import SolidityDocs.Proofs.Text.Basic
import SolidityDocs.Proofs.Toml.Quoted
import SolidityDocs.Toml.Document

/-!
# Reading written tables

The plainest documents consist of tables whose entries are strings and numbers, each entry and each
header on a line of its own, with empty lines in between.  Such a document is read as the tables
that it shows, in their order.

* `scalar_toDigits`: a number is read as itself.
* `statement_text`: a line is read as the statement that it shows.
* `statements_linesText`: so are all lines of a document.
* `run_table`, `run_tables`: the statements of tables build these tables.
* `parse_linesText`: a document is read as its tables.
-/

namespace SolidityDocs.Toml

open Text (apostrophe isDigit_toDigits eq_zero_of_head?_toDigits digitsValue_toDigits)

/-! ## Numbers -/

theorem groupedDigits?_of_forall {ds : List Char} (hds : ∀ c ∈ ds, c.isDigit = true)
    {afterDigit : Bool} (h : afterDigit = true ∨ ds ≠ []) :
    groupedDigits? Char.isDigit afterDigit ds = some ds := by
  induction ds generalizing afterDigit with
  | nil =>
    obtain rfl := h.resolve_right (fun hne => hne rfl)
    rfl
  | cons d ds ih =>
    have hd : d.isDigit = true := hds d (List.mem_cons_self ..)
    have hline : d ≠ '_' := by
      rintro rfl
      cases hd
    rw [groupedDigits?, if_neg hline, if_pos hd,
      ih (fun c hc => hds c (List.mem_cons_of_mem _ hc)) (.inl rfl), Option.map_some]

theorem decimal?_toDigits (n : Nat) : decimal? (Nat.toDigits 10 n) = some n := by
  have hgroup : groupedDigits? Char.isDigit false (Nat.toDigits 10 n) = some (Nat.toDigits 10 n) :=
    groupedDigits?_of_forall (isDigit_toDigits n) (.inr Nat.toDigits_ne_nil)
  have hzero : (Nat.toDigits 10 n).length = 1 ∨ (Nat.toDigits 10 n).head? ≠ some '0' := by
    by_cases h : (Nat.toDigits 10 n).head? = some '0'
    · rw [eq_zero_of_head?_toDigits h]
      exact .inl rfl
    · exact .inr h
  simp [decimal?, wholeDigits?, hgroup, hzero, digitsValue_toDigits]

/-- The marks of other forms of integers are no digits, so a number written with digits alone is
none of these. -/
theorem integer?_toDigits (n : Nat) : integer? (Nat.toDigits 10 n) = some (n : Int) := by
  have hdigits := isDigit_toDigits n
  have hdecimal := decimal?_toDigits n
  revert hdigits hdecimal
  generalize Nat.toDigits 10 n = ds
  intro hdigits hdecimal
  unfold integer?
  split
  case h_1 => exact absurd (hdigits 'x' (by simp)) (by decide)
  case h_2 => exact absurd (hdigits 'o' (by simp)) (by decide)
  case h_3 => exact absurd (hdigits 'b' (by simp)) (by decide)
  case h_4 => exact absurd (hdigits '+' (by simp)) (by decide)
  case h_5 => exact absurd (hdigits '-' (by simp)) (by decide)
  case h_6 =>
    rw [hdecimal]
    rfl

theorem word_append_newline {w : List Char} (hw : ∀ c ∈ w, isWordChar c = true) (rest : List Char) :
    word (w ++ '\n' :: rest) = (w, '\n' :: rest) := by
  have hstop : isWordChar '\n' = false := by decide
  simp [word, List.takeWhile_append_of_pos hw, List.dropWhile_append_of_pos hw, hstop]

theorem isWordChar_of_isDigit {c : Char} (hc : c.isDigit = true) : isWordChar c = true := by
  simp [isWordChar, Char.isAlphanum, hc]

/-- **A written number is read as itself.** -/
theorem scalar_toDigits (n : Nat) (rest : List Char) :
    scalar (Nat.toDigits 10 n ++ '\n' :: rest) = some (.integer n, '\n' :: rest) := by
  have hdigits := isDigit_toDigits n
  have hword := word_append_newline (fun c hc => isWordChar_of_isDigit (hdigits c hc)) rest
  have htrue : Nat.toDigits 10 n ≠ ['t', 'r', 'u', 'e'] := by
    intro h
    rw [h] at hdigits
    exact absurd (hdigits 't' (by simp)) (by decide)
  have hfalse : Nat.toDigits 10 n ≠ ['f', 'a', 'l', 's', 'e'] := by
    intro h
    rw [h] at hdigits
    exact absurd (hdigits 'f' (by simp)) (by decide)
  rw [scalar, hword]
  show (ofWord? _).map _ = _
  rw [ofWord?, if_neg htrue, if_neg hfalse, integer?_toDigits]
  rfl

/-! ## Lines -/

/-- A key that needs no quotes: it has characters, and all of them may stand in such a key. -/
structure BareKey where
  name : String
  ne_nil : name.toList ≠ []
  isKeyChar : ∀ c ∈ name.toList, isKeyChar c = true

/-- A value that takes one line: a string or a natural number. -/
inductive Flat
  | string (s : String)
  | number (n : Nat)
  deriving DecidableEq

namespace Flat

/-- The text of a value. -/
def text : Flat → List Char
  | string s => (writeString s).toList
  | number n => Nat.toDigits 10 n

/-- The value as it is read. -/
def value : Flat → Value
  | string s => .string s
  | number n => .integer n

end Flat

/-- A line of a plain document. -/
inductive Line
  | blank
  | header (name : BareKey)
  | entry (key : BareKey) (v : Flat)

namespace Line

/-- The text of a line, without its end. -/
def text : Line → List Char
  | blank => []
  | header name => '[' :: (name.name.toList ++ [']'])
  | entry key v => key.name.toList ++ ' ' :: '=' :: ' ' :: v.text

/-- The statement that a line shows, if it shows one. -/
def statement? : Line → Option Statement
  | blank => none
  | header name => some (.table ⟨[], name.name⟩)
  | entry key v => some (.entry ⟨[], key.name⟩ v.value)

end Line

/-- The text of lines. -/
def linesText (lines : List Line) : List Char := lines.flatMap fun l => l.text ++ ['\n']

theorem linesText_cons (l : Line) (lines : List Line) :
    linesText (l :: lines) = l.text ++ '\n' :: linesText lines := by
  simp [linesText]

/-! ### Keys -/

/-- The characters of a key differ from all characters that cannot stand in one. -/
theorem ne_of_isKeyChar {c d : Char} (hc : isKeyChar c = true) (hd : isKeyChar d = false) :
    c ≠ d := by
  rintro rfl
  rw [hc] at hd
  cases hd

theorem BareKey.exists_cons (key : BareKey) :
    ∃ c cs, key.name.toList = c :: cs ∧ Toml.isKeyChar c = true ∧
      ∀ d ∈ cs, Toml.isKeyChar d = true := by
  have hkey := key.isKeyChar
  cases hname : key.name.toList with
  | nil => exact absurd hname key.ne_nil
  | cons c cs =>
    rw [hname] at hkey
    exact ⟨c, cs, rfl, List.forall_mem_cons.mp hkey⟩

theorem isSpace_of_isKeyChar {c : Char} (hc : isKeyChar c = true) : isSpace c = false := by
  have hblank : c ≠ ' ' := ne_of_isKeyChar hc (by decide)
  have htab : c ≠ '\t' := ne_of_isKeyChar hc (by decide)
  simp [isSpace, hblank, htab]

theorem skipSpace_cons_of_eq_false {c : Char} (hc : isSpace c = false) (cs : List Char) :
    skipSpace (c :: cs) = c :: cs :=
  List.dropWhile_cons_of_neg (by rw [hc]; decide)

theorem simpleKey_bareKey (key : BareKey) {d : Char} (hd : isKeyChar d = false) (rest : List Char) :
    simpleKey (key.name.toList ++ d :: rest) = some (key.name, d :: rest) := by
  obtain ⟨c, cs, hname, hc, hcs⟩ := key.exists_cons
  have htake : (cs ++ d :: rest).takeWhile isKeyChar = cs := by
    rw [List.takeWhile_append_of_pos hcs, List.takeWhile_cons_of_neg (by rw [hd]; decide),
      List.append_nil]
  have hdrop : (cs ++ d :: rest).dropWhile isKeyChar = d :: rest := by
    rw [List.dropWhile_append_of_pos hcs, List.dropWhile_cons_of_neg (by rw [hd]; decide)]
  rw [hname, List.cons_append, simpleKey, if_pos hc, htake, hdrop, ← hname, String.ofList_toList]

theorem keyPath_bareKey (key : BareKey) {d e : Char} (hd : isKeyChar d = false)
    {rest after : List Char} (hskip : skipSpace (d :: rest) = e :: after) (he : e ≠ '.') :
    keyPath (key.name.toList ++ d :: rest) = some (⟨[], key.name⟩, e :: after) := by
  have hkey := simpleKey_bareKey key hd rest
  rw [keyPath]
  cases (key.name.toList ++ d :: rest).length with
  | zero => simp [dottedKey, hkey, hskip]
  | succ dots =>
    rw [dottedKey, hkey, Option.bind_eq_bind, Option.bind_some]
    dsimp only
    rw [hskip]
    split
    case h_1 heq => exact absurd (List.cons.inj heq).1 he
    case h_2 => rfl

/-! ### Values -/

theorem valueWithin_cons_of_ne (depth : Nat) {c : Char} (hlist : c ≠ '[') (htable : c ≠ '\x7b')
    (cs : List Char) : valueWithin depth (c :: cs) = flatValue (c :: cs) := by
  cases depth with
  | zero => rfl
  | succ depth =>
    rw [valueWithin]
    · exact fun _ heq => hlist (List.cons.inj heq).1
    · exact fun _ heq => htable (List.cons.inj heq).1

/-- A string begins with a quote or an apostrophe, whatever its form. -/
theorem writeString_eq_cons (s : String) :
    ∃ c cs, (writeString s).toList = c :: cs ∧ (c = '"' ∨ c = apostrophe) := by
  rw [writeString, String.toList_ofList]
  cases formOf s.toList with
  | basic => exact ⟨'"', _, rfl, .inl rfl⟩
  | literal => exact ⟨apostrophe, _, rfl, .inr rfl⟩
  | multiBasic => exact ⟨'"', _, rfl, .inl rfl⟩
  | multiLiteral => exact ⟨apostrophe, _, rfl, .inr rfl⟩

theorem toDigits_eq_cons (n : Nat) : ∃ c cs, Nat.toDigits 10 n = c :: cs ∧ c.isDigit = true := by
  have hdigits := isDigit_toDigits n
  obtain ⟨c, cs, htext⟩ := List.exists_cons_of_ne_nil (Nat.toDigits_ne_nil (n := n) (b := 10))
  rw [htext] at hdigits
  exact ⟨c, cs, htext, hdigits c (List.mem_cons_self ..)⟩

namespace Flat

theorem text_eq_cons (v : Flat) :
    ∃ c cs, v.text = c :: cs ∧ (c = '"' ∨ c = apostrophe ∨ c.isDigit = true) := by
  cases v with
  | string s =>
    obtain ⟨c, cs, htext, hc⟩ := writeString_eq_cons s
    exact ⟨c, cs, htext, hc.imp_right .inl⟩
  | number n =>
    obtain ⟨c, cs, htext, hc⟩ := toDigits_eq_cons n
    exact ⟨c, cs, htext, .inr (.inr hc)⟩

theorem flatValue_text (v : Flat) (rest : List Char) :
    flatValue (v.text ++ '\n' :: rest) = some (v.value, '\n' :: rest) := by
  cases v with
  | string s =>
    have hrest : Unmarked ('\n' :: rest) := by
      rintro c ⟨⟩
      decide
    have hread := anyString_writeString s hrest
    obtain ⟨c, cs, htext, hc⟩ := writeString_eq_cons s
    show flatValue ((writeString s).toList ++ _) = _
    rw [htext, List.cons_append] at hread ⊢
    rw [flatValue, if_pos (by simpa using hc), hread]
    rfl
  | number n =>
    have hread := scalar_toDigits n rest
    obtain ⟨c, cs, htext, hc⟩ := toDigits_eq_cons n
    have hquote : c ≠ '"' := by
      rintro rfl
      cases hc
    have hmark : c ≠ apostrophe := by
      rintro rfl
      cases hc
    show flatValue (Nat.toDigits 10 n ++ _) = _
    rw [htext, List.cons_append] at hread ⊢
    rw [flatValue, if_neg (by simp [hquote, hmark]), hread]
    rfl

/-- **A written value is read as itself.** -/
theorem value_text (v : Flat) (rest : List Char) :
    Toml.value (v.text ++ '\n' :: rest) = some (v.value, '\n' :: rest) := by
  obtain ⟨c, cs, htext, hc⟩ := v.text_eq_cons
  have hlist : c ≠ '[' := by rintro rfl; revert hc; decide
  have htable : c ≠ '\x7b' := by rintro rfl; revert hc; decide
  rw [← v.flatValue_text rest, htext, List.cons_append]
  exact valueWithin_cons_of_ne maxDepth hlist htable _

end Flat

/-! ### Statements -/

theorem headerName_bareKey (name : BareKey) (rest : List Char) :
    headerName (name.name.toList ++ ']' :: rest) = some (⟨[], name.name⟩, rest) := by
  obtain ⟨c, cs, hname, hc, -⟩ := name.exists_cons
  have hskip : skipSpace (name.name.toList ++ ']' :: rest) = name.name.toList ++ ']' :: rest := by
    rw [hname]
    exact skipSpace_cons_of_eq_false (isSpace_of_isKeyChar hc) _
  have hclose : skipSpace (']' :: rest) = ']' :: rest := rfl
  rw [headerName, hskip, keyPath_bareKey name (by decide) hclose (by decide)]
  rfl

theorem keyValue_entry (key : BareKey) (v : Flat) (rest : List Char) :
    keyValue value (key.name.toList ++ ' ' :: '=' :: ' ' :: (v.text ++ '\n' :: rest)) =
      some ((⟨[], key.name⟩, v.value), '\n' :: rest) := by
  obtain ⟨c, cs, htext, hc⟩ := v.text_eq_cons
  have hspace : isSpace c = false := by
    rcases hc with rfl | rfl | hc
    · rfl
    · rfl
    · exact isSpace_of_isKeyChar (by simp [isKeyChar, Char.isAlphanum, hc])
  have hskip : skipSpace (' ' :: (v.text ++ '\n' :: rest)) = v.text ++ '\n' :: rest := by
    rw [htext]
    exact skipSpace_cons_of_eq_false hspace _
  have hequal : skipSpace (' ' :: '=' :: ' ' :: (v.text ++ '\n' :: rest)) =
      '=' :: ' ' :: (v.text ++ '\n' :: rest) := rfl
  rw [keyValue, keyPath_bareKey key (by decide) hequal (by decide)]
  show (value (skipSpace _)).bind _ = _
  rw [hskip, v.value_text]
  rfl

theorem statement_header {c : Char} (hc : c ≠ '[') (cs : List Char) :
    statement ('[' :: c :: cs) =
      (headerName (c :: cs)).map fun (p, rest) => (some (.table p), rest) := by
  rw [statement, skipSpace_cons_of_eq_false (by decide)]
  split
  case h_1 heq => cases heq
  case h_2 heq => exact absurd (List.cons.inj (List.cons.inj heq).2).1 hc
  case h_3 heq =>
    obtain rfl := (List.cons.inj heq).2
    cases headerName (c :: cs) <;> rfl
  case h_4 hother heq => exact absurd (List.cons.inj heq).1.symm hother

theorem statement_key {c : Char} (hc : isKeyChar c = true) (cs : List Char) :
    statement (c :: cs) =
      (keyValue value (c :: cs)).map fun ((p, v), rest) => (some (.entry p v), rest) := by
  have hheader : c ≠ '[' := ne_of_isKeyChar hc (by decide)
  have hcomment : c ≠ '#' := ne_of_isKeyChar hc (by decide)
  have hnewline : c ≠ '\n' := ne_of_isKeyChar hc (by decide)
  have hreturn : c ≠ '\r' := ne_of_isKeyChar hc (by decide)
  rw [statement, skipSpace_cons_of_eq_false (isSpace_of_isKeyChar hc)]
  split
  case h_1 heq => cases heq
  case h_2 heq => exact absurd (List.cons.inj heq).1 hheader
  case h_3 heq => exact absurd (List.cons.inj heq).1 hheader
  case h_4 heq =>
    obtain ⟨rfl, rfl⟩ := List.cons.inj heq
    rw [if_neg (by simp [hcomment, hnewline, hreturn])]

/-- **A line is read as the statement that it shows.** -/
theorem statement_text (l : Line) (rest : List Char) :
    statement (l.text ++ '\n' :: rest) = some (l.statement?, '\n' :: rest) := by
  cases l with
  | blank => rfl
  | header name =>
    obtain ⟨c, cs, hname, hc, -⟩ := name.exists_cons
    have hread := headerName_bareKey name ('\n' :: rest)
    have htext : (Line.header name).text ++ '\n' :: rest =
        '[' :: (name.name.toList ++ ']' :: '\n' :: rest) := by
      simp [Line.text]
    rw [hname, List.cons_append] at htext hread
    rw [htext, statement_header (ne_of_isKeyChar hc (by decide)), hread]
    rfl
  | entry key v =>
    obtain ⟨c, cs, hname, hc, -⟩ := key.exists_cons
    have hread := keyValue_entry key v rest
    have htext : (Line.entry key v).text ++ '\n' :: rest =
        key.name.toList ++ ' ' :: '=' :: ' ' :: (v.text ++ '\n' :: rest) := by
      simp [Line.text]
    rw [hname, List.cons_append] at htext hread
    rw [htext, statement_key hc, hread]
    rfl

/-! ## Documents -/

theorem statements_of_statement {n : Nat} {cs rest : List Char} {s : Option Statement}
    (hne : cs ≠ []) (hs : statement cs = some (s, '\n' :: rest)) :
    statements (n + 1) cs = (statements n rest).map (s.toList ++ ·) := by
  obtain ⟨c, cs, rfl⟩ := List.exists_cons_of_ne_nil hne
  have hend : lineEnd ('\n' :: rest) = some rest := rfl
  simp only [statements, hs, Option.bind_eq_bind, Option.bind_some, hend]
  cases statements n rest <;> rfl

theorem statements_linesText {n : Nat} {lines : List Line} (hn : lines.length ≤ n) :
    statements n (linesText lines) = some (lines.filterMap Line.statement?) := by
  induction lines generalizing n with
  | nil => cases n <;> rfl
  | cons l lines ih =>
    obtain _ | n := n
    · cases hn
    · have hne : linesText (l :: lines) ≠ [] := by simp [linesText_cons]
      rw [linesText_cons] at hne ⊢
      rw [statements_of_statement hne (statement_text l _), ih (Nat.le_of_succ_le_succ hn)]
      cases hl : l.statement? <;> simp [hl]

theorem length_le_length_linesText (lines : List Line) :
    lines.length ≤ (linesText lines).length := by
  induction lines with
  | nil => exact Nat.le_refl 0
  | cons l lines ih =>
    rw [linesText_cons, List.length_cons, List.length_append, List.length_cons]
    omega

/-! ### Tables -/

theorem setEntry_of_notMem {k : String} {es : Entries} (h : k ∉ es.map Prod.fst) (n : Node) :
    setEntry k n es = es ++ [(k, n)] := by
  induction es with
  | nil => rfl
  | cons e es ih =>
    rw [List.map_cons, List.mem_cons, not_or] at h
    rw [setEntry, if_neg (Ne.symm h.1), ih h.2, List.cons_append]

theorem setEntry_concat {k : String} {es : Entries} (h : k ∉ es.map Prod.fst) (n n' : Node) :
    setEntry k n (es ++ [(k, n')]) = es ++ [(k, n)] := by
  induction es with
  | nil => exact if_pos rfl
  | cons e es ih =>
    rw [List.map_cons, List.mem_cons, not_or] at h
    rw [List.cons_append, setEntry, if_neg (Ne.symm h.1), ih h.2, List.cons_append]

theorem lookup_eq_none_of_notMem {k : String} {es : Entries} (h : k ∉ es.map Prod.fst) :
    es.lookup k = none := by
  induction es with
  | nil => rfl
  | cons e es ih =>
    rw [List.map_cons, List.mem_cons, not_or] at h
    rw [lookup_cons_ite, if_neg h.1, ih h.2]

theorem lookup_concat {k : String} {es : Entries} (h : k ∉ es.map Prod.fst) (n : Node) :
    (es ++ [(k, n)]).lookup k = some n := by
  induction es with
  | nil => rw [List.nil_append, lookup_cons_ite, if_pos rfl]
  | cons e es ih =>
    rw [List.map_cons, List.mem_cons, not_or] at h
    rw [List.cons_append, lookup_cons_ite, if_neg h.1, ih h.2]

/-- A header adds an empty table to a document that has none of that name. -/
theorem run_header {d : Draft} {name : String} (h : name ∉ d.root.map Prod.fst) :
    d.run (.table ⟨[], name⟩) = some ⟨d.root ++ [(name, Node.table .header [])], [name]⟩ := by
  have hdefine : define ⟨[], name⟩ d.root = some (d.root ++ [(name, Node.table .header [])]) := by
    rw [define, changeAt, lookup_eq_none_of_notMem h, setEntry_of_notMem h]
  rw [Draft.run, hdefine]
  rfl

/-- An entry goes to the end of the table that has been started last. -/
theorem run_entry {root es : Entries} {name key : String} (hname : name ∉ root.map Prod.fst)
    (hkey : key ∉ es.map Prod.fst) (v : Value) :
    Draft.run ⟨root ++ [(name, Node.table .header es)], [name]⟩ (.entry ⟨[], key⟩ v) =
      some ⟨root ++ [(name, Node.table .header (es ++ [(key, Node.value v)]))], [name]⟩ := by
  have hassign : assign ⟨[], key⟩ v es = some (es ++ [(key, Node.value v)]) := by
    rw [assign, changeAt, lookup_eq_none_of_notMem hkey, setEntry_of_notMem hkey]
    rfl
  have hchange : changeAt false (fun _ es => assign ⟨[], key⟩ v es) [name] .header
      (root ++ [(name, Node.table .header es)]) =
      some (root ++ [(name, Node.table .header (es ++ [(key, Node.value v)]))]) := by
    rw [changeAt, lookup_concat hname]
    show (changeAt false _ [] _ es).map _ = _
    rw [changeAt, hassign, Option.map_some, setEntry_concat hname]
  rw [Draft.run, hchange]
  rfl

/-- A table with its entries, whose keys are distinct. -/
structure PlainTable where
  name : BareKey
  entries : List (BareKey × Flat)
  nodup_keys : (entries.map fun e => e.1.name).Nodup

namespace PlainTable

/-- The lines of a table. -/
def lines (t : PlainTable) : List Line :=
  .header t.name :: t.entries.map fun e => .entry e.1 e.2

/-- The table as it is read. -/
def value (t : PlainTable) : String × Value :=
  (t.name.name, .table (t.entries.map fun e => (e.1.name, e.2.value)))

/-- The table as it is built. -/
def node (t : PlainTable) : String × Node :=
  (t.name.name, .table .header (t.entries.map fun e => (e.1.name, Node.value e.2.value)))

end PlainTable

theorem run_entries {root es : Entries} {name : String} {entries : List (BareKey × Flat)}
    (hname : name ∉ root.map Prod.fst)
    (hkeys : (es.map Prod.fst ++ entries.map fun e => e.1.name).Nodup) :
    (entries.map fun e => Statement.entry ⟨[], e.1.name⟩ e.2.value).foldlM Draft.run
        ⟨root ++ [(name, Node.table .header es)], [name]⟩ =
      some ⟨root ++ [(name, Node.table .header
        (es ++ entries.map fun e => (e.1.name, Node.value e.2.value)))], [name]⟩ := by
  induction entries generalizing es with
  | nil => simp
  | cons e entries ih =>
    have hkey : e.1.name ∉ es.map Prod.fst := by
      intro hmem
      exact (List.nodup_append.1 hkeys).2.2 _ hmem _ (List.mem_cons_self ..) rfl
    have hkeys' : ((es ++ [(e.1.name, Node.value e.2.value)]).map Prod.fst ++
        entries.map fun e => e.1.name).Nodup := by
      simpa using hkeys
    rw [List.map_cons, List.foldlM_cons, run_entry hname hkey]
    show List.foldlM _ _ _ = _
    rw [ih hkeys', List.append_assoc]
    rfl

theorem filterMap_lines (t : PlainTable) :
    t.lines.filterMap Line.statement? = Statement.table ⟨[], t.name.name⟩ ::
      t.entries.map fun e => Statement.entry ⟨[], e.1.name⟩ e.2.value := by
  have hentry : (Line.statement? ∘ fun e : BareKey × Flat => Line.entry e.1 e.2) =
      fun e => some (Statement.entry ⟨[], e.1.name⟩ e.2.value) := rfl
  rw [PlainTable.lines, List.filterMap_cons, List.filterMap_map, hentry, List.filterMap_eq_map']
  rfl

/-- The statements of a table add the table to the document. -/
theorem run_table {d : Draft} {t : PlainTable} (hname : t.name.name ∉ d.root.map Prod.fst) :
    (t.lines.filterMap Line.statement?).foldlM Draft.run d =
      some ⟨d.root ++ [t.node], [t.name.name]⟩ := by
  have hkeys : (([] : Entries).map Prod.fst ++ t.entries.map fun e => e.1.name).Nodup :=
    t.nodup_keys
  rw [filterMap_lines, List.foldlM_cons, run_header hname]
  exact run_entries hname hkeys

theorem run_tables {d : Draft} {tables : List PlainTable}
    (hnames : (d.root.map Prod.fst ++ tables.map fun t => t.name.name).Nodup) :
    ∃ current, ((tables.flatMap PlainTable.lines).filterMap Line.statement?).foldlM Draft.run d =
      some ⟨d.root ++ tables.map PlainTable.node, current⟩ := by
  induction tables generalizing d with
  | nil => exact ⟨d.current, by simp⟩
  | cons t tables ih =>
    have hname : t.name.name ∉ d.root.map Prod.fst := by
      intro hmem
      exact (List.nodup_append.1 hnames).2.2 _ hmem _ (List.mem_cons_self ..) rfl
    have hnames' : ((d.root ++ [t.node]).map Prod.fst ++
        tables.map fun t => t.name.name).Nodup := by
      simpa [PlainTable.node] using hnames
    obtain ⟨current, hrun⟩ := ih (d := ⟨d.root ++ [t.node], [t.name.name]⟩) hnames'
    refine ⟨current, ?_⟩
    rw [List.flatMap_cons, List.filterMap_append, List.foldlM_append, run_table hname]
    show List.foldlM _ _ _ = _
    rw [hrun, List.append_assoc]
    rfl

theorem entriesValue_map {α : Type} (f : α → String × Node) (xs : List α) :
    Node.entriesValue (xs.map f) = xs.map fun x => ((f x).1, (f x).2.toValue) := by
  induction xs with
  | nil => rfl
  | cons x xs ih => rw [List.map_cons, Node.entriesValue, ih, List.map_cons]

theorem toValue_node (t : PlainTable) : (t.node.1, t.node.2.toValue) = t.value := by
  rw [PlainTable.node, Node.toValue, entriesValue_map]
  rfl

theorem skipMark_cons_of_ne {c : Char} (hc : c ≠ '\ufeff') (cs : List Char) :
    Text.skipMark (c :: cs) = c :: cs := by
  unfold Text.skipMark
  split
  case h_1 heq => exact absurd (List.cons.inj heq).1 hc
  case h_2 => rfl

/-- No line begins with a byte order mark. -/
theorem skipMark_linesText (lines : List Line) :
    Text.skipMark (linesText lines) = linesText lines := by
  cases lines with
  | nil => rfl
  | cons l lines =>
    rw [linesText_cons]
    cases l with
    | blank => rfl
    | header name => rfl
    | entry key v =>
      obtain ⟨c, cs, hname, hc, -⟩ := key.exists_cons
      have hmark : c ≠ '\ufeff' := ne_of_isKeyChar hc (by decide)
      rw [Line.text, hname]
      exact skipMark_cons_of_ne hmark _

/-- **A plain document is read as its tables**, wherever its empty lines stand. -/
theorem parse_linesText {lines : List Line} {tables : List PlainTable}
    (hlines : lines.filterMap Line.statement? =
      (tables.flatMap PlainTable.lines).filterMap Line.statement?)
    (hnames : (tables.map fun t => t.name.name).Nodup) :
    parse (String.ofList (linesText lines)) = some (tables.map PlainTable.value) := by
  obtain ⟨current, hrun⟩ := run_tables (d := {}) hnames
  have hread : statements (linesText lines).length (linesText lines) =
      some (lines.filterMap Line.statement?) :=
    statements_linesText (length_le_length_linesText lines)
  rw [parse, String.toList_ofList, skipMark_linesText]
  simp only [hread, hlines, hrun, Option.bind_eq_bind, Option.bind_some]
  rw [List.nil_append, entriesValue_map]
  exact congrArg some (List.map_congr_left fun t _ => toValue_node t)

end SolidityDocs.Toml
