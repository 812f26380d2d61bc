import SolidityDocs.Proofs.Document.Content
import SolidityDocs.Proofs.Line.Table

/-!
# The entry of a file depends on that file alone

All files of a compilation go through the same stages together: one roster, one grouping by path and
name, one document.  The entry of a file still shows nothing of the other files, of their order, or
of sources that occur in the output only.  It depends on two things that belong to the file itself:
the syntax tree that the output has for its path, and the places of the newlines in its text.

The first half is `Document.file?_ofCompilation`, which gives the entry of a file by its line table
and its syntax tree.  For the second half, every entry uses the line table only to look up the lines
of descriptors (`Described.contractEntry_congr`), and these lines depend on the newlines only
(`LineTable.lineOf_ofText_congr`).  So it does not matter what stands between the newlines, how long
the text is, in which form the input carries it, or whether it carries a text without newlines or
none.

* `Described.part_congr`: the entries of a kind depend on the lines of descriptors.
* `Document.file?_build_congr`: two compilations that agree on a file have the same entry for it.
-/

namespace SolidityDocs

/-! ## Entries depend on the lines of descriptors -/

section Lines

variable {t t' : LineTable} (h : t.lineOf = t'.lineOf)

include h in
theorem guards_congr : guards t = guards t' := by
  have hguard : guardOf? t = guardOf? t' := by
    funext call name
    unfold guardOf?
    rw [h]
  funext body
  unfold guards guardAt
  rw [hguard]

include h in
theorem functionEntry_congr : functionEntry t = functionEntry t' := by
  funext f
  unfold functionEntry
  rw [guards_congr h, h]

include h in
theorem Described.contractEntry_congr :
    Described.contractEntry t = Described.contractEntry t' := by
  have hevent : eventEntry t = eventEntry t' := by
    funext e
    unfold eventEntry
    rw [h]
  have hvariable : variableEntry t = variableEntry t' := by
    funext v
    unfold variableEntry
    rw [h]
  have hmodifier : modifierEntry t = modifierEntry t' := by
    funext m
    unfold modifierEntry
    rw [h]
  have hstruct : structEntry t = structEntry t' := by
    funext s
    unfold structEntry
    rw [h]
  funext c
  unfold Described.contractEntry
  rw [functionEntry_congr h, hevent, hvariable, hmodifier, hstruct]

include h in
/-- Tables with the same lines give the same entries. -/
theorem Described.part_congr (kind : Kind) (ast : Option Ast.SourceUnit) :
    Described.part t kind ast = Described.part t' kind ast := by
  apply OrderedMap.ext
  show Described.entries t _ = Described.entries t' _
  unfold Described.entries
  rw [Described.contractEntry_congr h]

end Lines

/-! ## One file of a compilation -/

/-- The byte positions of the newlines of a source; a source without a text has none. -/
def SourceText.newlines (s : SourceText) : Set Nat :=
  {k | ∃ text, s.text? = some text ∧ (textBytes text)[k]? = some newline}

theorem SourceText.mem_newlines_iff {s : SourceText} {k : Nat} :
    k ∈ s.newlines ↔ (textBytes (s.text?.getD ""))[k]? = some newline := by
  unfold newlines
  cases s.text? with
  | none => simp [textBytes]
  | some text => simp

theorem Compilation.get?_ofSources {input : OrderedMap String SourceText} {path : String}
    {s : SourceText} (hs : input.get? path = some s) (output : OrderedMap String OutputSource) :
    (ofSources input output).value.get? path = some (fileOf output path s) := by
  show (input.mapValues (fileOf output)).get? path = _
  rw [OrderedMap.get?_mapValues, hs]
  rfl

namespace Document

/-- The entry of a file of two artifacts. -/
theorem file?_ofSources {input : OrderedMap String SourceText} {path : String} {s : SourceText}
    (hs : input.get? path = some s) (output : OrderedMap String OutputSource) :
    (ofCompilation (Compilation.ofSources input output).value).value.file? path =
      let lines := LineTable.ofText (s.text?.getD "")
      let ast := Compilation.astOf? output path
      some {
        imports := ast.elim [] importsOf
        contracts := Described.part lines .contract ast
        interfaces := Described.part lines .interface ast
        libraries := Described.part lines .library ast } :=
  file?_ofCompilation (Compilation.keyed_ofSources input output)
    (Compilation.get?_ofSources hs output)

/-- **The entry of a file depends on that file alone.**  Two pairs of artifacts that have newlines
in the same places of a file, and the same syntax tree for it, are both documented, with the same
entry for the file. -/
theorem file?_build_congr {input input' : OrderedMap String SourceText}
    {output output' : OrderedMap String OutputSource} {path : String} {s s' : SourceText}
    (hs : input.get? path = some s) (hs' : input'.get? path = some s')
    (hnewlines : s.newlines = s'.newlines)
    (hast : Compilation.astOf? output path = Compilation.astOf? output' path) :
    ∃ d d' entry,
      (build ⟨some input⟩ ⟨some output⟩).map Logged.value = .ok d ∧
      (build ⟨some input'⟩ ⟨some output'⟩).map Logged.value = .ok d' ∧
      d.file? path = some entry ∧ d'.file? path = some entry := by
  have hlines : (LineTable.ofText (s.text?.getD "")).lineOf =
      (LineTable.ofText (s'.text?.getD "")).lineOf := by
    refine LineTable.lineOf_ofText_congr fun k => ?_
    rw [← SourceText.mem_newlines_iff, ← SourceText.mem_newlines_iff, hnewlines]
  have hentry := file?_ofSources hs output
  have hentry' := file?_ofSources hs' output'
  simp only [← hast, ← Described.part_congr hlines] at hentry'
  exact ⟨_, _, _, rfl, rfl, hentry, hentry'⟩

/-- A file whose event stands after the newline at byte 2.  The other run has another text before
and after that newline, in the other form, and it has more files, in front of this one. -/
theorem file?_build_congr_event :
    let event : Ast.Member := .event { name := "E", src := some "3:1:0" }
    let ast : Ast.SourceUnit := { nodes := [.contract
      { name := "C", contractKind := some .contract, nodes := [event] }] }
    let input : OrderedMap String SourceText := .ofList [("a.sol", .plain "//\n")]
    let input' : OrderedMap String SourceText :=
      .ofList [("b.sol", .wrapped none), ("a.sol", .wrapped (some "é\nx"))]
    let output : OrderedMap String OutputSource := .ofList [("a.sol", ⟨some 0, some ast⟩)]
    let output' : OrderedMap String OutputSource :=
      .ofList [("c.sol", {}), ("a.sol", ⟨some 1, some ast⟩)]
    ∃ d d' entry,
      (build ⟨some input⟩ ⟨some output⟩).map Logged.value = .ok d ∧
      (build ⟨some input'⟩ ⟨some output'⟩).map Logged.value = .ok d' ∧
      d.file? "a.sol" = some entry ∧ d'.file? "a.sol" = some entry := by
  intro event ast input input' output output'
  have hbytes : textBytes "//\n" = [47, 47, 10] := by decide
  have hbytes' : textBytes "é\nx" = [195, 169, 10, 120] := by decide
  have hnewlines : (SourceText.plain "//\n").newlines =
      (SourceText.wrapped (some "é\nx")).newlines := by
    ext k
    rw [SourceText.mem_newlines_iff, SourceText.mem_newlines_iff]
    show (textBytes "//\n")[k]? = some newline ↔ (textBytes "é\nx")[k]? = some newline
    rw [hbytes, hbytes']
    rcases k with _ | _ | _ | _ | k <;> simp [newline]
  exact file?_build_congr rfl rfl hnewlines rfl

end Document

end SolidityDocs
