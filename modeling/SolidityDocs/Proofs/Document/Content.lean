import SolidityDocs.Document.Basic
import SolidityDocs.Proofs.Artifact.Roster
import SolidityDocs.Proofs.Document.Records

/-!
# What a document says

A document is assembled in stages that each go over the whole compilation: the definitions of a kind
are collected, their members are documented category by category into a sorted map, the map is taken
apart again in the order of the roster, and the result is put into the files.  This file describes
the outcome without any of these stages, one file at a time, and proves that the two agree.

For a file, a kind and a name, the place of the name is that of its first definition, its content is
that of its last one, and the name is left out when that last definition has nothing to document.

* `Document.byFile`: the document, described file by file.
* `Section.files_build`: what joining a roster with a grouping gives, for any grouping.
* `Document.file?_ofCompilation`: the entry of one file of an assembled document.
* `Document.build_eq_byFile`: the assembled document is the described one.
-/

namespace SolidityDocs

open Ast (SourceUnit ContractDefinition Member)

/-! ## The description -/

namespace Described

/-- The text of a source, which stands by itself or in an object that may lack it. -/
def text : SourceText → Option String
  | .plain text => some text
  | .wrapped content => content

/-- The definitions of a kind among the nodes at the top level of a file. -/
def definitions (kind : Kind) : Option SourceUnit → List ContractDefinition
  | none => []
  | some u => u.nodes.filterMap fun
    | .contract c => if c.contractKind = some kind then some c else none
    | _ => none

/-- The imported paths that are known, among the nodes at the top level of a file. -/
def imports : Option SourceUnit → List String
  | none => []
  | some u => u.nodes.filterMap fun
    | .importDirective i => i.absolutePath
    | _ => none

/-- Whether a definition has a function, an event, a state variable, a modifier or a struct type. -/
def isDocumented (c : ContractDefinition) : Bool :=
  c.nodes.any fun
    | .other => false
    | _ => true

/-- The entry of a definition: its members of each category in order, and the names of its bases. -/
def contractEntry (lines : LineTable) (c : ContractDefinition) : ContractEntry where
  functions := c.nodes.filterMap fun
    | .function f => some (functionEntry lines f).value
    | _ => none
  events := c.nodes.filterMap fun
    | .event e => some (eventEntry lines e)
    | _ => none
  stateVariables := c.nodes.filterMap fun
    | .stateVariable v => some (variableEntry lines v)
    | _ => none
  modifiers := c.nodes.filterMap fun
    | .modifier m => some (modifierEntry lines m)
    | _ => none
  structs := c.nodes.filterMap fun
    | .structType s => some (structEntry lines s)
    | _ => none
  inherits := c.baseContracts.filterMap fun b => b.baseName.name

/-- The entries of the definitions among `ds`: every name once, in order of the first definition of
that name, with the entry of the last one, if that one is documented. -/
def entries (lines : LineTable) (ds : List ContractDefinition) : List (String × ContractEntry) :=
  (ds.map ContractDefinition.name).eraseDups.filterMap fun name =>
    ((ds.findRev? fun c => c.name = name).filter isDocumented).map fun c =>
      (name, contractEntry lines c)

theorem sublist_keys_filterMap {α β : Type} (f : α → Option β) (as : List α) :
    ((as.filterMap fun a => (f a).map fun b => (a, b)).map Prod.fst).Sublist as := by
  induction as with
  | nil => exact List.Sublist.slnil
  | cons a as ih =>
    cases h : f a with
    | none =>
      rw [List.filterMap_cons_none (by rw [h]; rfl)]
      exact ih.cons a
    | some b =>
      rw [List.filterMap_cons_some (by rw [h]; rfl), List.map_cons]
      exact ih.cons_cons a

theorem nodup_entries (lines : LineTable) (ds : List ContractDefinition) :
    ((entries lines ds).map Prod.fst).Nodup := by
  have h := sublist_keys_filterMap
    (fun name => ((ds.findRev? fun c => c.name = name).filter isDocumented).map
      (contractEntry lines)) (ds.map ContractDefinition.name).eraseDups
  simp only [Option.map_map] at h
  exact h.nodup (nodup_eraseDups _)

/-- The part of a file with the entries of a kind. -/
def part (lines : LineTable) (kind : Kind) (ast : Option SourceUnit) :
    OrderedMap String ContractEntry :=
  ⟨entries lines (definitions kind ast), nodup_entries _ _⟩

/-- The entry of a file with the given text and syntax tree. -/
def fileEntry (text : Option String) (ast : Option SourceUnit) : FileEntry :=
  let lines := LineTable.ofText (text.getD "")
  { imports := imports ast
    contracts := part lines .contract ast
    interfaces := part lines .interface ast
    libraries := part lines .library ast }

end Described

/-- The documentation of two artifacts, file by file in the order of the input. -/
def Document.byFile (input : OrderedMap String SourceText)
    (output : OrderedMap String OutputSource) : Document :=
  ⟨input.mapValues fun path source =>
    Described.fileEntry (Described.text source) ((output.get? path).bind OutputSource.ast)⟩

/-! ## Two artifacts

An example for what goes into a document and what does not. -/

namespace Sample

/-- A definition with bases and members. -/
def definition (kind : Kind) (name : String) (bases : List String) (members : List Member) :
    Ast.TopLevel :=
  .contract {
    name := name
    contractKind := some kind
    baseContracts := bases.map fun base => ⟨{ name := some base }⟩
    nodes := members }

/-- A call to `require`. -/
def require (src : String) (types : List Ast.TypeDescriptions) : Ast.Statement :=
  .expression {
    expression := some {
      expression := some { name := some "require", argumentTypes := some types }
      src := some src } }

/-- A function with two calls to `require`, of which the first cannot be shown. -/
def pay : Ast.FunctionDefinition where
  name := "pay"
  body := some { statements := [require "4:2:0" [{}],
    require "6:2:0" [{}, { typeString := some "literal_string \"no owner\"" }]] }
  src := some "2:9:0"

/-- A source that imports another one.  It defines the contracts `Token` and `Owned` twice each, and
the second `Owned` has nothing to document.  There is also an interface `Token`. -/
def token : SourceUnit where
  nodes := [
    .importDirective { absolutePath := some "Math.sol" },
    definition .contract "Token" [] [.event { name := "Paid" }],
    definition .contract "Owned" [] [.event { name := "Moved" }],
    definition .interface "Token" [] [.event { name := "Sent", src := some "7:1:0" }],
    definition .contract "Token" ["Owned"] [.other, .function pay],
    definition .contract "Owned" [] [.other],
    .importDirective {},
    .other]

/-- A source with one definition. -/
def single (kind : Kind) (name : String) : SourceUnit where
  nodes := [definition kind name [] [.event { name := "Used", src := some "7:1:1" }]]

/-- The input has no text for the second source. -/
def input : OrderedMap String SourceText :=
  .ofList [("Token.sol", .plain "a\nb\nc\nd\n"), ("Math.sol", .wrapped none),
    ("Lost.sol", .wrapped (some ""))]

/-- The output has no syntax tree for the third source, and it has one of which the input does not
know. -/
def output : OrderedMap String OutputSource :=
  .ofList [("Extra.sol", ⟨some 2, some (single .contract "Extra")⟩),
    ("Token.sol", ⟨some 0, some token⟩), ("Math.sol", ⟨some 1, some (single .library "Math")⟩)]

end Sample

/-! ## The nodes of a file -/

namespace Described

theorem text_eq (source : SourceText) : text source = source.text? := by cases source <;> rfl

theorem definitions_some (kind : Kind) (u : SourceUnit) :
    definitions kind (some u) = u.contracts.filter fun c => c.contractKind = some kind := by
  unfold SourceUnit.contracts
  rw [List.filter_filterMap]
  refine List.filterMap_congr fun n _ => ?_
  cases n with
  | contract c => simp only [Option.filter_some, decide_eq_true_eq]
  | importDirective | other => rfl

theorem imports_eq (ast : Option SourceUnit) : imports ast = ast.elim [] Document.importsOf := by
  cases ast with
  | none => rfl
  | some u =>
    show _ = u.imports.filterMap _
    unfold SourceUnit.imports
    rw [List.filterMap_filterMap]
    refine List.filterMap_congr fun n _ => ?_
    cases n <;> rfl

/-! ## The declarations of a definition -/

theorem recordsOf_eq (lines : LineTable) (c : ContractDefinition) (category : Category) :
    Grouping.recordsOf lines category c.nodes =
      (contractEntry lines c).toDeclarations.ofCategory category := by
  unfold Grouping.recordsOf
  cases category <;>
  · simp only [contractEntry, Declarations.ofCategory, List.map_filterMap]
    refine List.filterMap_congr fun m _ => ?_
    cases m <;> rfl

theorem isEmpty_contractEntry (lines : LineTable) (c : ContractDefinition) :
    (contractEntry lines c).isEmpty = !isDocumented c := by
  have hmember : ∀ m : Member, (∀ category, Grouping.recordOf? lines category m = none) ↔
      m = .other := by
    intro m
    constructor
    · intro h
      cases m with
      | function f => cases h .functions
      | event e => cases h .events
      | stateVariable v => cases h .stateVariables
      | modifier x => cases h .modifiers
      | structType s => cases h .structs
      | other => rfl
    · rintro rfl category
      rfl
  have hnone : (contractEntry lines c).isEmpty = true ↔ ∀ m ∈ c.nodes, m = .other := by
    rw [Declarations.isEmpty_iff]
    simp only [← recordsOf_eq, Grouping.recordsOf, List.filterMap_eq_nil_iff]
    constructor
    · intro h m hm
      exact (hmember m).mp fun category => h category m hm
    · intro h category m hm
      exact (hmember m).mpr (h m hm) category
  have hany : isDocumented c = false ↔ ∀ m ∈ c.nodes, m = .other := by
    unfold isDocumented
    rw [List.any_eq_false]
    refine forall₂_congr fun m _ => ?_
    cases m <;> simp
  rw [Bool.eq_iff_iff, hnone, ← hany, Bool.not_eq_true']

end Described

/-! ## Joining a roster with a grouping -/

namespace Section

/-- The entry that a collected definition gets from a grouping, with its file and name. -/
def entryOf? (g : Grouping) (c : Collected) : Option (String × String × ContractEntry) :=
  (g.get? c.file c.definition.name).map fun d =>
    (c.file, c.definition.name, d.withInherits c.definition.baseNames)

/-- The entries carry the keys of the definitions that the grouping contains. -/
theorem map_key_filterMap_entryOf? (g : Grouping) (cs : List Collected) :
    ((cs.filterMap (entryOf? g)).map fun e => (e.1, e.2.1)) =
      (cs.filter fun c => g.contains c.file c.definition.name).map Collected.key := by
  induction cs with
  | nil => rfl
  | cons c cs ih =>
    unfold Grouping.contains at ih ⊢
    cases hslot : g.get? c.file c.definition.name with
    | none =>
      rw [List.filterMap_cons_none (by rw [entryOf?, hslot]; rfl),
        List.filter_cons_of_neg (by rw [hslot]; exact nofun), ih]
    | some d =>
      rw [List.filterMap_cons_some (by rw [entryOf?, hslot]; rfl),
        List.filter_cons_of_pos (by rw [hslot]; rfl), List.map_cons, List.map_cons, ih]
      rfl

/-- The entries of a file with one more. -/
def extend (e : String × String × ContractEntry)
    (old : Option (OrderedMap String ContractEntry)) : OrderedMap String ContractEntry :=
  (old.getD .empty).insert e.2.1 e.2.2

theorem fst_add (files : OrderedMap String (OrderedMap String ContractEntry)) (g : Grouping)
    (c : Collected) :
    (add (files, g) c).1 =
      match entryOf? g c with
      | none => files
      | some e => files.insert e.1 (extend e (files.get? e.1)) := by
  have h := Grouping.fst_take g c.file c.definition.name
  simp only [add, entryOf?, ← h]
  rcases g.take c.file c.definition.name with ⟨_ | d, g'⟩ <;> rfl

theorem snd_add (files : OrderedMap String (OrderedMap String ContractEntry)) (g : Grouping)
    (c : Collected) : (add (files, g) c).2 = (g.take c.file c.definition.name).2 := by
  simp only [add]
  rcases g.take c.file c.definition.name with ⟨_ | d, g'⟩ <;> rfl

/-- Taking slots out of the grouping on the way does not matter, because no key occurs twice. -/
theorem fst_foldl_add (g₀ : Grouping) {cs : List Collected} (hcs : (cs.map Collected.key).Nodup)
    (files : OrderedMap String (OrderedMap String ContractEntry)) (g : Grouping)
    (hg : ∀ c ∈ cs, g.get? c.file c.definition.name = g₀.get? c.file c.definition.name) :
    (cs.foldl add (files, g)).1 =
      files.accumulate (fun e => e.1) extend (cs.filterMap (entryOf? g₀)) := by
  induction cs generalizing files g with
  | nil => rfl
  | cons c cs ih =>
    rw [List.map_cons, List.nodup_cons] at hcs
    have hhere : entryOf? g c = entryOf? g₀ c := by
      unfold entryOf?
      rw [hg c (List.mem_cons_self ..)]
    have hrest : ∀ d ∈ cs, (add (files, g) c).2.get? d.file d.definition.name =
        g₀.get? d.file d.definition.name := by
      intro d hd
      have hne : ¬ (d.file = c.file ∧ d.definition.name = c.definition.name) :=
        fun h => hcs.1 (List.mem_map.mpr ⟨d, hd, Prod.ext h.1 h.2⟩)
      rw [snd_add, Grouping.get?_snd_take, if_neg hne, hg d (List.mem_cons_of_mem _ hd)]
    have hpair : add (files, g) c = ((add (files, g) c).1, (add (files, g) c).2) := rfl
    rw [List.foldl_cons, hpair, ih hcs.2 _ _ hrest, fst_add, hhere]
    cases he : entryOf? g₀ c with
    | none => rw [List.filterMap_cons_none he]
    | some e => rw [List.filterMap_cons_some he]; rfl

/-- A section holds the entries that the definitions of the roster get from the grouping. -/
theorem files_build {r : Roster} (hr : (r.toList.map Collected.key).Nodup) (g : Grouping) :
    (build r g).files =
      OrderedMap.empty.accumulate (fun e => e.1) extend (r.toList.filterMap (entryOf? g)) :=
  fst_foldl_add g hr .empty g fun _ _ => rfl

theorem foldl_extend (es : List (String × String × ContractEntry))
    (old : Option (OrderedMap String ContractEntry)) :
    (es.foldl (fun v e => some (extend e v)) old).getD .empty =
      (old.getD .empty).insertAll (es.map fun e => e.2) := by
  induction es generalizing old with
  | nil => rfl
  | cons e es ih =>
    rw [List.foldl_cons, ih]
    rfl

/-- The part of a section that belongs to one file. -/
theorem get?_files_build {r : Roster} (hr : (r.toList.map Collected.key).Nodup) (g : Grouping)
    (path : String) :
    ((build r g).files.get? path).getD .empty =
      .ofList (((r.inFile path).filterMap (entryOf? g)).map fun e => e.2) := by
  have hsel := filter_filterMap_of_iff (p := fun e : String × String × ContractEntry =>
      decide (e.1 = path)) (q := fun c => decide (c.file = path)) (f := entryOf? g)
    (fun c e he => by
      obtain ⟨d, -, rfl⟩ := Option.map_eq_some_iff.mp he
      rfl)
    r.toList
  rw [files_build hr, OrderedMap.get?_accumulate, hsel, foldl_extend]
  rfl

theorem mem_keys_build {r : Roster} (hr : (r.toList.map Collected.key).Nodup) {g : Grouping}
    {path : String} (h : path ∈ (build r g).files.keys) : ∃ c ∈ r.toList, c.file = path := by
  rw [files_build hr, OrderedMap.keys_accumulate, List.mem_eraseDups, OrderedMap.keys_empty,
    List.nil_append] at h
  obtain ⟨e, he, rfl⟩ := List.mem_map.mp h
  obtain ⟨c, hc, hce⟩ := List.mem_filterMap.mp he
  obtain ⟨d, -, rfl⟩ := Option.map_eq_some_iff.mp hce
  exact ⟨c, hc, rfl⟩

end Section

/-! ## The slots of an aggregated roster -/

theorem Grouping.contributions_of_mem {cs : List Collected} (hcs : (cs.map Collected.key).Nodup)
    {c : Collected} (hc : c ∈ cs) (category : Category) :
    contributions cs c.file c.definition.name category =
      recordsOf c.lines category c.definition.nodes := by
  unfold contributions
  induction cs with
  | nil => cases hc
  | cons d cs ih =>
    rw [List.map_cons, List.nodup_cons] at hcs
    rw [List.flatMap_cons]
    rcases List.mem_cons.mp hc with rfl | hc
    · have hrest : (cs.flatMap fun d => if (c.file, c.definition.name) = d.key then
          recordsOf d.lines category d.definition.nodes else []) = [] := by
        rw [List.flatMap_eq_nil_iff]
        intro d hd
        rw [if_neg fun h => hcs.1 (List.mem_map.mpr ⟨d, hd, h.symm⟩)]
      rw [hrest, List.append_nil]
      exact if_pos rfl
    · have hne : (c.file, c.definition.name) ≠ d.key :=
        fun h => hcs.1 (List.mem_map.mpr ⟨c, hc, h⟩)
      rw [if_neg hne, List.nil_append, ih hcs.2 hc]

/-- A definition of a roster has the slot of its own members, if any of them is documented. -/
theorem Grouping.get?_aggregate {r : Roster} (hr : (r.toList.map Collected.key).Nodup)
    {c : Collected} (hc : c ∈ r.toList) :
    (aggregate r).value.get? c.file c.definition.name =
      if Described.isDocumented c.definition then
        some (Described.contractEntry c.lines c.definition).toDeclarations
      else none := by
  have hrec : ∀ category, (aggregate r).value.records c.file c.definition.name category =
      (Described.contractEntry c.lines c.definition).toDeclarations.ofCategory category := by
    intro category
    rw [records_aggregate, contributions_of_mem hr hc, Described.recordsOf_eq]
  have hempty := Described.isEmpty_contractEntry c.lines c.definition
  by_cases h : Described.isDocumented c.definition = true
  · rw [if_pos h, get?_eq_some_iff (populated_aggregate r)]
    refine ⟨?_, hrec⟩
    rw [hempty, h]
    rfl
  · rw [if_neg h, get?_eq_none_iff (populated_aggregate r)]
    intro category
    rw [hrec]
    refine Declarations.isEmpty_iff.mp ?_ category
    rw [hempty, Bool.eq_false_of_not_eq_true h]
    rfl

theorem Section.entryOf?_aggregate {r : Roster} (hr : (r.toList.map Collected.key).Nodup)
    {c : Collected} (hc : c ∈ r.toList) :
    entryOf? (Grouping.aggregate r).value c =
      if Described.isDocumented c.definition then
        some (c.file, c.definition.name, Described.contractEntry c.lines c.definition)
      else none := by
  unfold entryOf?
  rw [Grouping.get?_aggregate hr hc]
  by_cases h : Described.isDocumented c.definition = true
  · rw [if_pos h, if_pos h]
    rfl
  · rw [if_neg h, if_neg h]
    rfl

/-! ## Assembling the files -/

namespace FileEntry

theorem setPart_part (f : FileEntry) (kind : Kind) : f.setPart kind (f.part kind) = f := by
  cases kind <;> rfl

end FileEntry

namespace Document

theorem files_foldl_update {α : Type} (path : α → String) (f : α → FileEntry → FileEntry)
    (d : Document) (as : List α) :
    (as.foldl (fun d a => d.update (path a) (f a)) d).files =
      d.files.accumulate path (fun a old => f a (old.getD {})) as := by
  induction as generalizing d with
  | nil => rfl
  | cons a as ih => exact ih _

/-- A section reaches only the part of its own kind, in the files that it mentions. -/
theorem file?_addSection {d : Document} {path : String} {f : FileEntry}
    (hf : d.file? path = some f) (s : Section) :
    (d.addSection s).file? path =
      some (f.setPart s.kind
        ((f.part s.kind).insertAll ((s.files.get? path).getD .empty).entries)) := by
  unfold addSection file?
  rw [files_foldl_update, OrderedMap.get?_accumulate]
  have hd : d.files.get? path = some f := hf
  cases hs : s.files.get? path with
  | none =>
    have hnil : (s.files.entries.filter fun e => e.1 = path) = [] := by
      rw [List.filter_eq_nil_iff]
      intro e he hpath
      have hget := OrderedMap.get?_of_mem (m := s.files) (k := e.1) (v := e.2) he
      rw [of_decide_eq_true hpath, hs] at hget
      cases hget
    rw [hnil, List.foldl_nil, hd]
    exact congrArg some (f.setPart_part s.kind).symm
  | some m =>
    rw [OrderedMap.filter_entries_of_get? hs, List.foldl_cons, List.foldl_nil, hd]
    rfl

theorem keys_addSection {d : Document} {s : Section} (h : ∀ p ∈ s.files.keys, p ∈ d.files.keys) :
    (d.addSection s).files.keys = d.files.keys := by
  unfold addSection
  rw [files_foldl_update]
  exact OrderedMap.keys_accumulate_of_subset fun e he => h e.1 (List.mem_map_of_mem he)

/-- The files with syntax trees and what they import. -/
def resolvedImports (c : Compilation) : List (String × List String) :=
  c.toList.filterMap fun f => f.ast.map fun u => (f.path, importsOf u)

theorem files_addImports (d : Document) (c : Compilation) :
    (d.addImports c).value.files =
      d.files.accumulate (fun e => e.1) (fun e old => { old.getD {} with imports := e.2 })
        (resolvedImports c) := by
  unfold addImports resolvedImports
  rw [Logged.value_fold]
  induction c.toList generalizing d with
  | nil => rfl
  | cons f fs ih =>
    rw [List.foldl_cons, ih]
    cases hast : f.ast with
    | none =>
      rw [List.filterMap_cons_none (by rw [hast]; rfl)]
      simp only [addImportsOf, hast, Logged.value_pure]
    | some u =>
      rw [List.filterMap_cons_some (by rw [hast]; rfl)]
      simp only [addImportsOf, hast]
      rfl

/-- Imports are set where there is a syntax tree, and nothing else is. -/
theorem file?_addImports {d : Document} {c : Compilation} (hc : c.Keyed) {path : String}
    {f : SourceFile} (hf : c.get? path = some f) {e : FileEntry} (he : d.file? path = some e) :
    (d.addImports c).value.file? path =
      some { e with imports := f.ast.elim e.imports importsOf } := by
  have hpath : f.path = path := hc (path, f) (OrderedMap.mem_of_get? hf)
  have hsel := filter_filterMap_of_iff (p := fun e : String × List String => decide (e.1 = path))
    (q := fun f => decide (f.path = path))
    (f := fun f : SourceFile => f.ast.map fun u => (f.path, importsOf u))
    (fun f e he => by
      obtain ⟨u, -, rfl⟩ := Option.map_eq_some_iff.mp he
      rfl)
    c.toList
  have hd : d.files.get? path = some e := he
  unfold file?
  rw [files_addImports, OrderedMap.get?_accumulate]
  unfold resolvedImports
  rw [hsel, Compilation.filter_toList hc hf, hd]
  cases hast : f.ast with
  | none => rw [List.filterMap_cons_none (by rw [hast]; rfl)]; rfl
  | some u => rw [List.filterMap_cons_some (by rw [hast]; rfl)]; rfl

theorem keys_addImports {d : Document} {c : Compilation} (hc : c.Keyed)
    (h : d.files.keys = c.files.keys) : (d.addImports c).value.files.keys = d.files.keys := by
  rw [files_addImports]
  refine OrderedMap.keys_accumulate_of_subset fun e he => ?_
  obtain ⟨f, hf, hfe⟩ := List.mem_filterMap.mp he
  obtain ⟨u, -, rfl⟩ := Option.map_eq_some_iff.mp hfe
  obtain ⟨x, hx, rfl⟩ := List.mem_map.mp hf
  rw [h, hc x hx]
  exact List.mem_map_of_mem hx

end Document

/-! ## The sections of a compilation -/

namespace Section

variable {c : Compilation} (hc : c.Keyed) (kind : Kind)

theorem value_extract :
    (extract c kind).value =
      build (Roster.collect c kind).value
        (Grouping.aggregate (Roster.collect c kind).value).value := rfl

@[simp] theorem kind_extract : (extract c kind).value.kind = kind := rfl

include hc in
/-- A section mentions only files of the compilation. -/
theorem mem_keys_of_mem_extract {path : String} (h : path ∈ (extract c kind).value.files.keys) :
    path ∈ c.files.keys := by
  rw [value_extract] at h
  obtain ⟨d, hd, rfl⟩ := mem_keys_build (Roster.nodup_key_collect c kind) h
  rw [Roster.toList_collect] at hd
  obtain ⟨k, -, hk⟩ := List.mem_filterMap.mp hd
  rw [List.findRev?_eq_find?_reverse] at hk
  have hmem : d ∈ Roster.definitions c kind := List.mem_reverse.mp (List.mem_of_find?_eq_some hk)
  obtain ⟨f, hf, hdf⟩ := List.mem_flatMap.mp hmem
  obtain ⟨e, he, rfl⟩ := List.mem_map.mp hf
  rw [Roster.file_of_mem_inSource kind hdf, hc e he]
  exact List.mem_map_of_mem he

theorem inSource_eq_map (f : SourceFile) :
    Roster.inSource kind f =
      (Described.definitions kind f.ast).map fun d => ⟨f.path, d, f.lines⟩ := by
  unfold Roster.inSource
  cases f.ast with
  | none => rfl
  | some u => rw [Described.definitions_some]

include hc in
/-- The part of a section that belongs to a file is the described one. -/
theorem get?_files_extract {path : String} {f : SourceFile} (hf : c.get? path = some f) :
    ((extract c kind).value.files.get? path).getD .empty =
      Described.part f.lines kind f.ast := by
  have hr := Roster.nodup_key_collect c kind
  have hentry : ∀ d ∈ (Roster.collect c kind).value.inFile path,
      entryOf? (Grouping.aggregate (Roster.collect c kind).value).value d =
        if Described.isDocumented d.definition then
          some (d.file, d.definition.name, Described.contractEntry d.lines d.definition)
        else none :=
    fun d hd => entryOf?_aggregate hr (List.mem_filter.mp hd).1
  have hlist : (((Roster.collect c kind).value.inFile path).filterMap
      (entryOf? (Grouping.aggregate (Roster.collect c kind).value).value)).map (fun e => e.2) =
        Described.entries f.lines (Described.definitions kind f.ast) := by
    rw [List.filterMap_congr hentry, Roster.inFile_collect kind hc hf, inSource_eq_map,
      List.map_map, List.filterMap_filterMap, List.map_filterMap]
    refine List.filterMap_congr fun name _ => ?_
    rw [List.findRev?_eq_find?_reverse, ← List.map_reverse, List.find?_map,
      ← List.findRev?_eq_find?_reverse]
    show Option.map _ (Option.bind (Option.map _
      ((Described.definitions kind f.ast).findRev? fun d => d.name = name)) _) = _
    cases hd : (Described.definitions kind f.ast).findRev? fun d => d.name = name with
    | none => rfl
    | some d =>
      have hname : d.name = name := by
        rw [List.findRev?_eq_find?_reverse] at hd
        simpa using List.find?_some hd
      rw [Option.map_some, Option.bind_some]
      by_cases h : Described.isDocumented d = true
      · rw [Option.filter_some_pos h, if_pos h, ← hname]
        rfl
      · rw [Option.filter_some_neg (Bool.eq_false_of_not_eq_true h), if_neg h]
        rfl
  rw [value_extract, get?_files_build hr, hlist]
  exact OrderedMap.ext (OrderedMap.entries_ofList (Described.nodup_entries _ _))

end Section

namespace Document

variable {c : Compilation} (hc : c.Keyed)

include hc in
/-- Putting the sections of a compilation into files adds no file. -/
theorem keys_foldl_addSection (kinds : List Kind) (d : Document)
    (h : d.files.keys = c.files.keys) :
    (kinds.foldl (fun d kind => d.addSection (Section.extract c kind).value) d).files.keys =
      c.files.keys := by
  induction kinds generalizing d with
  | nil => exact h
  | cons kind kinds ih =>
    rw [List.foldl_cons]
    refine ih _ ?_
    rw [keys_addSection, h]
    intro p hp
    rw [h]
    exact Section.mem_keys_of_mem_extract hc kind hp

include hc in
theorem keys_ofCompilation : (ofCompilation c).value.files.keys = c.files.keys := by
  have hskeleton : (skeleton c).files.keys = c.files.keys := OrderedMap.keys_mapValues _ _
  have hsections := keys_foldl_addSection hc Kind.all (skeleton c) hskeleton
  unfold ofCompilation
  simp only [Logged.value_bind, Logged.value_pure, Logged.value_fold]
  rw [keys_addImports hc hsections, hsections]

include hc in
/-- The entry of a file depends on the lines and the syntax tree of that file. -/
theorem file?_ofCompilation {path : String} {f : SourceFile} (hf : c.get? path = some f) :
    (ofCompilation c).value.file? path =
      some {
        imports := f.ast.elim [] importsOf
        contracts := Described.part f.lines .contract f.ast
        interfaces := Described.part f.lines .interface f.ast
        libraries := Described.part f.lines .library f.ast } := by
  have hskeleton : (skeleton c).file? path = some {} := by
    unfold file? skeleton
    rw [OrderedMap.get?_mapValues]
    have hget : c.files.get? path = some f := hf
    rw [hget]
    rfl
  have hstep : ∀ (d : Document) (e : FileEntry) (kind : Kind), d.file? path = some e →
      e.part kind = .empty → (d.addSection (Section.extract c kind).value).file? path =
        some (e.setPart kind (Described.part f.lines kind f.ast)) := by
    intro d e kind hd he
    rw [file?_addSection hd, Section.kind_extract, Section.get?_files_extract hc kind hf, he]
    exact congrArg (fun m => some (e.setPart kind m))
      (OrderedMap.ofList_entries (Described.part f.lines kind f.ast))
  unfold ofCompilation
  simp only [Logged.value_bind, Logged.value_pure, Logged.value_fold, Kind.all, List.foldl_cons,
    List.foldl_nil]
  have h₁ := hstep _ _ .contract hskeleton rfl
  have h₂ := hstep _ _ .interface h₁ rfl
  have h₃ := hstep _ _ .library h₂ rfl
  rw [file?_addImports hc hf h₃]
  rfl

theorem files_ofCompilation (input : OrderedMap String SourceText)
    (output : OrderedMap String OutputSource) :
    (ofCompilation (Compilation.ofSources input output).value).value.files =
      (byFile input output).files := by
  have hc := Compilation.keyed_ofSources input output
  have hkeys : (ofCompilation (Compilation.ofSources input output).value).value.files.keys =
      input.keys := (keys_ofCompilation hc).trans (OrderedMap.keys_mapValues _ _)
  apply OrderedMap.ext_get?
  · rw [hkeys]
    exact (OrderedMap.keys_mapValues _ _).symm
  · intro path hpath
    rw [hkeys] at hpath
    obtain ⟨source, hsource⟩ := OrderedMap.mem_keys_iff.mp hpath
    have hf : (Compilation.ofSources input output).value.get? path =
        some (Compilation.fileOf output path source) := by
      show (input.mapValues (Compilation.fileOf output)).get? path = _
      rw [OrderedMap.get?_mapValues, hsource]
      rfl
    have hentry := file?_ofCompilation hc hf
    unfold file? at hentry
    rw [hentry]
    unfold byFile
    rw [OrderedMap.get?_mapValues, hsource, Option.map_some]
    unfold Described.fileEntry
    rw [Described.imports_eq, Described.text_eq]
    rfl

/-- **The assembled document is the described one.**  When both artifacts have sources, building
succeeds, and what it gives can be read off the artifacts file by file. -/
theorem build_eq_byFile (input : OrderedMap String SourceText)
    (output : OrderedMap String OutputSource) :
    (build ⟨some input⟩ ⟨some output⟩).map Logged.value = .ok (byFile input output) :=
  congrArg (fun files => Except.ok (Document.mk files)) (files_ofCompilation input output)

/-- In the example, the first definitions of `Token` and both of `Owned` are left out, and so are a
call to `require` and the source that the output has alone. -/
theorem build_eq_byFile_sample :
    (build ⟨some Sample.input⟩ ⟨some Sample.output⟩).map Logged.value =
      .ok ⟨.ofList [
        ("Token.sol", {
          imports := ["Math.sol"]
          contracts := .ofList [("Token", {
            functions := [{
              name := "pay", signature := "pay()", returns := "()", events := [], payable := none,
              modifiers := [], visibility := none, stateMutability := none,
              requires := [⟨4, "require(..., no owner)"⟩], lineNumber := 2 }]
            inherits := ["Owned"] })]
          interfaces := .ofList [("Token", { events := [⟨"Sent", "()", 4⟩] })] }),
        ("Math.sol", { libraries := .ofList [("Math", { events := [⟨"Used", "()", 1⟩] })] }),
        ("Lost.sol", {})]⟩ := by
  rw [build_eq_byFile]
  exact congrArg Except.ok (by decide +kernel)

end Document

end SolidityDocs
