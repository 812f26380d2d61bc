import SolidityDocs.Proofs.Artifact.Redefinition
import SolidityDocs.Proofs.Document.Passes

/-!
# Asking a roster

A roster keeps its definitions under their files and names, and it is asked in several ways: for one
definition, for those of a file, for all of them, for their number.  Only the last of these uses the
keys.  A single definition is searched among the stored ones by the file and the name that it
carries itself, and so are the definitions of a file.  The answers fit together as long as every
definition stands under the key that it carries, and as long as a definition that replaces another
one takes its place, so that the definitions of a file stay together.

`Roster.Lists` says all this of a roster, with the nodes of the syntax trees as the only reference:
which keys there are and in which order, what they are bound to, and what each question is answered.

* `Roster.keys_collect_byFile`: the keys of a roster, file by file.
* `Roster.get?_contracts_collect_of_mem`: what a key of a file is bound to.
* `Roster.Keyed.get?_eq`, `Roster.toList_collect_eq_flatMap`: the ways of asking agree.
* `Roster.lists_collect`: the roster of any two artifacts and any kind is as `Lists` says.
-/

namespace SolidityDocs

open Ast (ContractDefinition)

theorem OrderedMap.lookup_eq_find? {κ α : Type} [DecidableEq κ] (es : List (κ × α)) (k : κ) :
    es.lookup k = (es.find? fun e => e.1 = k).map Prod.snd := by
  induction es with
  | nil => rfl
  | cons e es ih =>
    rw [lookup_cons_ite]
    by_cases h : k = e.1
    · rw [if_pos h, List.find?_cons_of_pos (by simp [h]), Option.map_some]
    · rw [if_neg h, List.find?_cons_of_neg (by simpa using Ne.symm h), ih]

theorem Compilation.get?_path {c : Compilation} (hc : c.Keyed) {f : SourceFile}
    (hf : f ∈ c.toList) : c.get? f.path = some f := by
  obtain ⟨e, he, rfl⟩ := List.mem_map.mp hf
  rw [hc e he]
  exact OrderedMap.get?_of_mem he

namespace Roster

/-! ## What a roster should say -/

/-- The keys of the definitions of a kind, file by file, in the order of the definitions. -/
def definedKeys (c : Compilation) (kind : Kind) : List (String × String) :=
  c.files.values.flatMap fun f => (Described.definitions kind f.ast).map fun d => (f.path, d.name)

/-- The roster lists the definitions of a kind in a compilation.

The keys are those of the definitions, and none is listed twice.  They stand in the order of the
files, and in a file in the order of the first definitions of their names.  A key is bound to the
last definition of its name in its file, with the lines of that file.  Looking for a definition
finds the one that stands under the key, and fails for other keys.  The definitions of all files
together, one file after the other, are all definitions, and other files have none.  The size is the
number of different keys. -/
structure Lists (c : Compilation) (kind : Kind) (r : Roster) : Prop where
  kind_eq : r.kind = kind
  nodup_keys : r.contracts.keys.Nodup
  mem_keys : ∀ key, key ∈ r.contracts.keys ↔ key ∈ definedKeys c kind
  keys_eq : r.contracts.keys = c.files.values.flatMap fun f =>
    ((Described.definitions kind f.ast).map ContractDefinition.name).eraseDups.map fun name =>
      (f.path, name)
  get?_contracts : ∀ f ∈ c.files.values, ∀ name, r.contracts.get? (f.path, name) =
    ((Described.definitions kind f.ast).findRev? fun d => d.name = name).map fun d =>
      ⟨f.path, d, f.lines⟩
  get?_eq_some : ∀ file name d,
    r.get? file name = some d ↔ ((file, name), d) ∈ r.contracts.entries
  get?_eq_none : ∀ file name, r.get? file name = none ↔ (file, name) ∉ r.contracts.keys
  toList_eq : r.toList = c.files.keys.flatMap r.inFile
  inFile_eq_nil : ∀ path, path ∉ c.files.keys → r.inFile path = []
  size_eq : r.size = (definedKeys c kind).toFinset.card

/-! ## Keys -/

section Collect

variable {c : Compilation} (hc : c.Keyed) (kind : Kind)

include hc in
/-- The keys of a roster: the names of each file, in order of their first definitions. -/
theorem keys_collect_byFile :
    (collect c kind).value.contracts.keys = c.toList.flatMap fun f =>
      ((Described.definitions kind f.ast).map ContractDefinition.name).eraseDups.map fun name =>
        (f.path, name) := by
  rw [← map_key_toList_collect, toList_collect_byFile kind hc, List.map_flatMap]
  refine List.flatMap_congr fun f _ => ?_
  rw [List.map_map, key_inFileOf, ← List.map_map, map_key_lasts]

include hc in
theorem mem_keys_collect (key : String × String) :
    key ∈ (collect c kind).value.contracts.keys ↔ key ∈ definedKeys c kind := by
  rw [keys_collect_byFile hc kind, definedKeys, List.mem_flatMap, List.mem_flatMap]
  refine exists_congr fun f => and_congr_right fun _ => ?_
  simp only [List.mem_map, List.mem_eraseDups, exists_exists_and_eq_and]

include hc in
/-- A key of a file is bound to the last definition of its name in that file. -/
theorem get?_contracts_collect_of_mem {f : SourceFile} (hf : f ∈ c.toList) (name : String) :
    (collect c kind).value.contracts.get? (f.path, name) =
      ((Described.definitions kind f.ast).findRev? fun d => d.name = name).map (inFileOf f) := by
  rw [get?_contracts_collect, findRev?_definitions kind hc (Compilation.get?_path hc hf),
    Section.inSource_eq_map, findRev?_map]
  rfl

include hc in
/-- The size of a roster is the number of different keys among the definitions. -/
theorem size_collect_eq_card :
    (collect c kind).value.size = (definedKeys c kind).toFinset.card := by
  have hkeys : (definedKeys c kind).toFinset = (collect c kind).value.contracts.keys.toFinset := by
    ext key
    rw [List.mem_toFinset, List.mem_toFinset, mem_keys_collect hc kind]
  rw [hkeys, List.toFinset_card_of_nodup (OrderedMap.nodup_keys _)]
  exact (List.length_map _).symm

end Collect

/-! ## Ways of asking -/

/-- A search by file and name finds what stands under the key. -/
theorem Keyed.get?_eq {r : Roster} (hr : r.Keyed) (file name : String) :
    r.get? file name = r.contracts.get? (file, name) := by
  have hkey : ∀ e ∈ r.contracts.entries,
      decide (e.2.file = file ∧ e.2.definition.name = name) = decide (e.1 = (file, name)) := by
    intro e he
    rw [← hr e he, decide_eq_decide]
    exact Prod.mk_inj.symm
  unfold get? toList OrderedMap.values OrderedMap.get?
  rw [List.find?_map, OrderedMap.lookup_eq_find?]
  congr 1
  exact List.find?_congr hkey

section Collect

variable {c : Compilation} (hc : c.Keyed) (kind : Kind)

include hc in
/-- The definitions of a file that no later one replaces. -/
theorem inFile_collect_eq_lasts {f : SourceFile} (hf : f ∈ c.toList) :
    (collect c kind).value.inFile f.path =
      (lasts ContractDefinition.name (Described.definitions kind f.ast)).map (inFileOf f) := by
  have hlasts : (collect c kind).value.inFile f.path =
      lasts (fun d => d.definition.name) (inSource kind f) :=
    inFile_collect kind hc (Compilation.get?_path hc hf)
  rw [hlasts, Section.inSource_eq_map, lasts_map]
  rfl

include hc in
/-- All definitions are those of the files, one file after the other. -/
theorem toList_collect_eq_flatMap :
    (collect c kind).value.toList = c.paths.flatMap (collect c kind).value.inFile := by
  rw [toList_collect_byFile kind hc, ← Compilation.map_path_toList hc, List.flatMap_map]
  exact List.flatMap_congr fun f hf => (inFile_collect_eq_lasts hc kind hf).symm

include hc in
/-- A path that is not in the compilation has no definitions. -/
theorem inFile_collect_of_notMem {path : String} (hpath : path ∉ c.paths) :
    (collect c kind).value.inFile path = [] := by
  refine List.filter_eq_nil_iff.mpr fun d hd hfile => hpath ?_
  rw [toList_collect_byFile kind hc] at hd
  obtain ⟨f, hf, hd⟩ := List.mem_flatMap.mp hd
  obtain ⟨x, -, rfl⟩ := List.mem_map.mp hd
  rw [← Compilation.map_path_toList hc, ← of_decide_eq_true hfile]
  exact List.mem_map_of_mem hf

end Collect

/-- **A roster lists the definitions of its kind.**  This holds for the compilation of any sources,
whatever they define, how often, and in which order. -/
theorem lists_collect (input : OrderedMap String SourceText)
    (output : OrderedMap String OutputSource) (kind : Kind) :
    let c := (Compilation.ofSources input output).value
    Lists c kind (collect c kind).value := by
  intro c
  have hc : c.Keyed := Compilation.keyed_ofSources input output
  have hr : (collect c kind).value.Keyed := keyed_collect c kind
  constructor
  case kind_eq => rfl
  case nodup_keys => exact OrderedMap.nodup_keys _
  case mem_keys => exact mem_keys_collect hc kind
  case keys_eq => exact keys_collect_byFile hc kind
  case get?_contracts => exact fun f hf name => get?_contracts_collect_of_mem hc kind hf name
  case get?_eq_some =>
    intro file name d
    rw [hr.get?_eq]
    exact ⟨OrderedMap.mem_of_get?, OrderedMap.get?_of_mem⟩
  case get?_eq_none =>
    intro file name
    rw [hr.get?_eq]
    exact OrderedMap.get?_eq_none_iff
  case toList_eq => exact toList_collect_eq_flatMap hc kind
  case inFile_eq_nil => exact fun path hpath => inFile_collect_of_notMem hc kind hpath
  case size_eq => exact size_collect_eq_card hc kind

/-- The contracts of the example: each name once, in the place of its first definition, with its
last definition. -/
theorem lists_collect_sample :
    let c := (Compilation.ofSources Sample.input Sample.output).value
    let r := (collect c .contract).value
    let last : ContractDefinition := {
      name := "Token"
      contractKind := some .contract
      baseContracts := [⟨{ name := some "Owned" }⟩]
      nodes := [.other, .function Sample.pay] }
    r.contracts.keys = [("Token.sol", "Token"), ("Token.sol", "Owned")] ∧ r.size = 2 ∧
      r.get? "Token.sol" "Token" = some ⟨"Token.sol", last, .ofText "a\nb\nc\nd\n"⟩ ∧
      r.get? "Extra.sol" "Extra" = none ∧ r.inFile "Extra.sol" = [] := by
  intro c r last
  have h : Lists c .contract r := lists_collect Sample.input Sample.output .contract
  have hkeys : r.contracts.keys = [("Token.sol", "Token"), ("Token.sol", "Owned")] :=
    h.keys_eq.trans (by decide +kernel)
  refine ⟨hkeys, h.size_eq.trans (by decide +kernel), ?_, ?_, ?_⟩
  · rw [h.get?_eq_some]
    refine OrderedMap.mem_of_get? ?_
    exact h.get?_contracts (Compilation.fileOf Sample.output "Token.sol" _) List.mem_cons_self _
  · rw [h.get?_eq_none, hkeys]
    decide
  · exact h.inFile_eq_nil _ (by decide +kernel)

end Roster

end SolidityDocs
