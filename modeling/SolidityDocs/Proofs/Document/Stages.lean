import SolidityDocs.Proofs.Document.Content

/-!
# The stages of the assembly

A document starts with an empty entry for each file and is filled by four stages: one for each kind
of definitions, and one for the imports.  Each stage goes through the whole compilation, looks up
the entry of a file or makes a new one, and adds to what it finds there.  So a stage might add
files, move entries, or write over the work of another stage, and a stage that is carried out twice
might add everything twice.  None of this happens, and the order of the stages does not matter.

## Why the order does not matter

It would be possible to exchange stages pairwise and to remove repeated ones.  It is simpler to say
what the entry of a file is after any stages (`Described.entryAfter`): the part of a kind is
complete if the stage of that kind is among them, and empty otherwise, and likewise for the imports.
One more stage keeps this (`Document.file?_run`).  The description only asks which stages have been
carried out, not when or how often, and hence neither does the document (`Document.assemble_congr`).

* `Document.keys_assemble`, `Document.file?_assemble`: the document after any stages.
* `Document.exists_file?_run`: a stage changes nothing but what it is about.
* `Document.build_eq_assemble`: all stages, in any order and with any repetitions, give the document
  that is built.
-/

namespace SolidityDocs

/-- A stage of the assembly of a document: the definitions of a kind are added, or the imports are
set. -/
inductive Stage
  | definitions (kind : Kind)
  | imports
  deriving DecidableEq

namespace Stage

/-- Carries out a stage. -/
def run (c : Compilation) (d : Document) : Stage → Logged Document
  | definitions kind => do
    let s ← Section.extract c kind
    return d.addSection s
  | imports => d.addImports c

/-- Two entries of a file differ in nothing but what a stage is about: one part, or the imports. -/
def OnlyChanges : Stage → FileEntry → FileEntry → Prop
  | definitions kind, e, e' => e'.imports = e.imports ∧ ∀ k, k ≠ kind → e'.part k = e.part k
  | imports, e, e' => ∀ k, e'.part k = e.part k

end Stage

/-- Carries out stages one after the other, starting with an empty entry for each file. -/
def Document.assemble (c : Compilation) (stages : List Stage) : Logged Document :=
  Logged.fold (Stage.run c) (skeleton c) stages

/-! ## The entry of a file after some stages -/

namespace FileEntry

/-- An entry is known from its imports and its parts. -/
theorem ext_part {e e' : FileEntry} (himports : e.imports = e'.imports)
    (hpart : ∀ kind, e.part kind = e'.part kind) : e = e' := by
  have hcontracts : e.contracts = e'.contracts := hpart .contract
  have hinterfaces : e.interfaces = e'.interfaces := hpart .interface
  have hlibraries : e.libraries = e'.libraries := hpart .library
  cases e
  cases e'
  simp_all

@[simp] theorem imports_setPart (e : FileEntry) (kind : Kind)
    (m : OrderedMap String ContractEntry) : (e.setPart kind m).imports = e.imports := by
  cases kind <;> rfl

theorem part_setPart (e : FileEntry) (kind : Kind) (m : OrderedMap String ContractEntry)
    (k : Kind) : (e.setPart kind m).part k = if k = kind then m else e.part k := by
  cases kind <;> cases k <;> rfl

end FileEntry

namespace Described

/-- The entry of a file when the given stages have been carried out. -/
def entryAfter (f : SourceFile) (stages : List Stage) : FileEntry :=
  let partAfter := fun kind =>
    if .definitions kind ∈ stages then part f.lines kind f.ast else .empty
  { imports := if .imports ∈ stages then f.ast.elim [] Document.importsOf else []
    contracts := partAfter .contract
    interfaces := partAfter .interface
    libraries := partAfter .library }

theorem part_entryAfter (f : SourceFile) (stages : List Stage) (kind : Kind) :
    (entryAfter f stages).part kind =
      if .definitions kind ∈ stages then part f.lines kind f.ast else .empty := by
  cases kind <;> rfl

theorem imports_entryAfter (f : SourceFile) (stages : List Stage) :
    (entryAfter f stages).imports =
      if .imports ∈ stages then f.ast.elim [] Document.importsOf else [] := rfl

/-- It only matters which stages have been carried out. -/
theorem entryAfter_congr (f : SourceFile) {stages stages' : List Stage}
    (h : ∀ s, s ∈ stages ↔ s ∈ stages') : entryAfter f stages = entryAfter f stages' := by
  unfold entryAfter
  simp only [h]

/-- The stage of a kind completes the part of that kind, whether it was empty or complete. -/
theorem entryAfter_definitions (f : SourceFile) (stages : List Stage) (kind : Kind) :
    (entryAfter f stages).setPart kind
        (((entryAfter f stages).part kind).insertAll (part f.lines kind f.ast).entries) =
      entryAfter f (stages ++ [.definitions kind]) := by
  apply FileEntry.ext_part
  · rw [FileEntry.imports_setPart, imports_entryAfter, imports_entryAfter]
    simp
  · intro k
    rw [FileEntry.part_setPart, part_entryAfter, part_entryAfter, part_entryAfter]
    by_cases hk : k = kind
    · subst hk
      rw [if_pos rfl, if_pos (List.mem_append_right _ (List.mem_singleton_self _))]
      split
      · exact OrderedMap.insertAll_entries _
      · exact OrderedMap.ofList_entries _
    · simp [hk]

/-- The stage of the imports sets them, whether they were set before or not. -/
theorem entryAfter_imports (f : SourceFile) (stages : List Stage) :
    { entryAfter f stages with
      imports := f.ast.elim (entryAfter f stages).imports Document.importsOf } =
      entryAfter f (stages ++ [.imports]) := by
  apply FileEntry.ext_part
  · rw [imports_entryAfter, imports_entryAfter,
      if_pos (List.mem_append_right _ (List.mem_singleton_self _))]
    cases f.ast with
    | none => exact ite_self _
    | some u => rfl
  · intro kind
    have hparts : ∀ (e : FileEntry) (imports : List String),
        { e with imports := imports }.part kind = e.part kind := by
      intro e imports
      cases kind <;> rfl
    rw [hparts, part_entryAfter, part_entryAfter]
    simp

end Described

/-! ## Running stages -/

namespace Document

section Run

variable {c : Compilation} (hc : c.Keyed)

include hc in
/-- A stage adds no file and moves none. -/
theorem keys_run {d : Document} (hd : d.files.keys = c.paths) (s : Stage) :
    (s.run c d).value.files.keys = c.paths := by
  cases s with
  | definitions kind =>
    refine (keys_addSection fun path hpath => ?_).trans hd
    rw [hd]
    exact Section.mem_keys_of_mem_extract hc kind hpath
  | imports => exact (keys_addImports hc hd).trans hd

include hc in
/-- A stage changes nothing but what it is about. -/
theorem exists_file?_run {d : Document} {path : String} (hpath : path ∈ c.paths) {e : FileEntry}
    (he : d.file? path = some e) (s : Stage) :
    ∃ e', (s.run c d).value.file? path = some e' ∧ s.OnlyChanges e e' := by
  cases s with
  | definitions kind =>
    refine ⟨_, file?_addSection he _, FileEntry.imports_setPart _ _ _, fun k hk => ?_⟩
    rw [FileEntry.part_setPart, Section.kind_extract, if_neg hk]
  | imports =>
    obtain ⟨f, hf⟩ := OrderedMap.mem_keys_iff.mp hpath
    refine ⟨_, file?_addImports hc hf he, fun k => ?_⟩
    cases k <;> rfl

variable {path : String} {f : SourceFile} (hf : c.get? path = some f)

include hc hf in
/-- One more stage. -/
theorem file?_run {d : Document} {stages : List Stage}
    (hd : d.file? path = some (Described.entryAfter f stages)) (s : Stage) :
    (s.run c d).value.file? path = some (Described.entryAfter f (stages ++ [s])) := by
  cases s with
  | definitions kind =>
    have hfile := file?_addSection hd (Section.extract c kind).value
    rw [Section.kind_extract, Section.get?_files_extract hc kind hf,
      Described.entryAfter_definitions] at hfile
    exact hfile
  | imports =>
    have hfile := file?_addImports hc hf hd
    rw [Described.entryAfter_imports] at hfile
    exact hfile

theorem value_assemble_concat (c : Compilation) (stages : List Stage) (s : Stage) :
    (assemble c (stages ++ [s])).value = (s.run c (assemble c stages).value).value := by
  unfold assemble
  rw [Logged.value_fold, Logged.value_fold, List.foldl_concat]

include hc in
/-- The files of a document are those of the compilation, after any stages. -/
theorem keys_assemble (stages : List Stage) : (assemble c stages).value.files.keys = c.paths := by
  induction stages using List.reverseRecOn with
  | nil => exact OrderedMap.keys_mapValues _ _
  | append_singleton stages s ih =>
    rw [value_assemble_concat]
    exact keys_run hc ih s

include hc hf in
/-- The entry of a file after any stages. -/
theorem file?_assemble (stages : List Stage) :
    (assemble c stages).value.file? path = some (Described.entryAfter f stages) := by
  induction stages using List.reverseRecOn with
  | nil =>
    have hget : c.files.get? path = some f := hf
    show (c.files.mapValues fun _ _ => ({} : FileEntry)).get? path = _
    rw [OrderedMap.get?_mapValues, hget]
    rfl
  | append_singleton stages s ih =>
    rw [value_assemble_concat]
    exact file?_run hc hf ih s

end Run

/-- **The order of the stages does not matter, nor how often one is carried out.** -/
theorem assemble_congr {c : Compilation} (hc : c.Keyed) {stages stages' : List Stage}
    (h : ∀ s, s ∈ stages ↔ s ∈ stages') :
    (assemble c stages).value = (assemble c stages').value := by
  have hfiles : (assemble c stages).value.files = (assemble c stages').value.files := by
    apply OrderedMap.ext_get?
    · rw [keys_assemble hc, keys_assemble hc]
    · intro path hpath
      rw [keys_assemble hc] at hpath
      obtain ⟨f, hf⟩ := OrderedMap.mem_keys_iff.mp hpath
      have hentry := file?_assemble hc hf stages
      have hentry' := file?_assemble hc hf stages'
      rw [← Described.entryAfter_congr f h] at hentry'
      exact hentry.trans hentry'.symm
  exact congrArg Document.mk hfiles

/-- The stages in the order in which a document is built. -/
theorem value_ofCompilation (c : Compilation) :
    (ofCompilation c).value = (assemble c
      [.definitions .contract, .definitions .interface, .definitions .library, .imports]).value :=
  rfl

/-- **All stages, in any order and with any repetitions, give the document that is built.**  On the
way, the files are always those of the compilation in their order, and each stage changes nothing
but what it is about. -/
theorem build_eq_assemble (input : OrderedMap String SourceText)
    (output : OrderedMap String OutputSource) (stages : List Stage) :
    let c := (Compilation.ofSources input output).value
    ((∀ s, s ∈ stages) →
      (build ⟨some input⟩ ⟨some output⟩).map Logged.value = .ok (assemble c stages).value) ∧
    (∀ done, done <+: stages → (assemble c done).value.files.keys = c.paths) ∧
    ∀ done s, done ++ [s] <+: stages → ∀ path ∈ c.paths, ∃ e e',
      (assemble c done).value.file? path = some e ∧
      (assemble c (done ++ [s])).value.file? path = some e' ∧ s.OnlyChanges e e' := by
  intro c
  have hc : c.Keyed := Compilation.keyed_ofSources input output
  refine ⟨fun hall => ?_, fun done _ => keys_assemble hc done, fun done s _ path hpath => ?_⟩
  · have hbuild : (ofCompilation c).value = (assemble c stages).value := by
      rw [value_ofCompilation]
      refine assemble_congr hc fun s => iff_of_true ?_ (hall s)
      rcases s with (_ | _ | _) | _ <;> simp
    exact congrArg Except.ok hbuild
  · obtain ⟨f, hf⟩ := OrderedMap.mem_keys_iff.mp hpath
    have hentry := file?_assemble hc hf done
    obtain ⟨e', he', hchanges⟩ := exists_file?_run hc hpath hentry s
    refine ⟨_, e', hentry, ?_, hchanges⟩
    rw [value_assemble_concat]
    exact he'

/-- Stages in another order, two of them repeated, for a file that the output does not know and one
that defines a library twice. -/
theorem build_eq_assemble_repeated :
    let library : String → Ast.TopLevel := fun event => .contract
      { name := "L", contractKind := some .library, nodes := [.event { name := event }] }
    let ast : Ast.SourceUnit := { nodes :=
      [library "E", .importDirective { absolutePath := some "b.sol" }, library "F"] }
    let input : OrderedMap String SourceText :=
      .ofList [("b.sol", .wrapped none), ("a.sol", .plain "")]
    let output : OrderedMap String OutputSource := .ofList [("a.sol", ⟨some 0, some ast⟩)]
    let c := (Compilation.ofSources input output).value
    let done : List Stage := [.imports, .definitions .library]
    let stages : List Stage := done ++ [.definitions .contract, .definitions .library,
      .definitions .interface, .imports]
    (∀ s, s ∈ stages) ∧ done <+: stages ∧
      (build ⟨some input⟩ ⟨some output⟩).map Logged.value = .ok (assemble c stages).value ∧
      (assemble c done).value.files.keys = ["b.sol", "a.sol"] ∧
      ∃ e e', (assemble c [.imports]).value.file? "a.sol" = some e ∧
        (assemble c done).value.file? "a.sol" = some e' ∧ e'.imports = e.imports := by
  intro library ast input output c done stages
  have hall : ∀ s, s ∈ stages := by
    intro s
    rcases s with (_ | _ | _) | _ <;> simp [stages, done]
  have hdone : done <+: stages := List.prefix_append _ _
  obtain ⟨hbuild, hkeys, hchanges⟩ := build_eq_assemble input output stages
  refine ⟨hall, hdone, hbuild hall, hkeys done hdone, ?_⟩
  obtain ⟨e, e', he, he', himports, -⟩ :=
    hchanges [.imports] (.definitions .library) hdone "a.sol" (by decide)
  exact ⟨e, e', he, he', himports⟩

end Document

end SolidityDocs
