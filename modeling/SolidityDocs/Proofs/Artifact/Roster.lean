import SolidityDocs.Artifact.Roster
import SolidityDocs.Proofs.Map.Arrival

/-!
# What a roster lists

Collecting goes through the definitions of all files and inserts each under its file and name.  So a
name stands where it was defined first and carries the definition that came last, and what one file
defines never reaches the names of another.

* `Roster.toList_collect`: the definitions of a roster, key by key.
* `Roster.nodup_key_collect`: no key is listed twice.
* `Roster.inFile_collect`: the part of a roster that belongs to one file, by that file alone.
-/

namespace SolidityDocs

/-- Every file of a compilation stands under its own path. -/
def Compilation.Keyed (c : Compilation) : Prop := ∀ e ∈ c.files.entries, e.2.path = e.1

theorem Compilation.keyed_ofSources (input : OrderedMap String SourceText)
    (output : OrderedMap String OutputSource) : (ofSources input output).value.Keyed := by
  intro e he
  obtain ⟨x, -, rfl⟩ := List.mem_map.mp he
  rfl

/-- A path has one file. -/
theorem Compilation.filter_toList {c : Compilation} (hc : c.Keyed) {path : String}
    {f : SourceFile} (hf : c.get? path = some f) :
    (c.toList.filter fun f => f.path = path) = [f] := by
  have hkey : (c.files.entries.filter ((fun f : SourceFile => decide (f.path = path)) ∘
      Prod.snd)) = c.files.entries.filter fun e => e.1 = path :=
    List.filter_congr fun e he => by rw [Function.comp_apply, hc e he]
  unfold toList OrderedMap.values
  rw [List.filter_map, hkey, OrderedMap.filter_entries_of_get? hf]
  rfl

namespace Roster

variable (c : Compilation) (kind : Kind)

theorem contracts_collect :
    (collect c kind).value.contracts =
      .ofList ((definitions c kind).map fun d => (d.key, d)) := by
  unfold OrderedMap.ofList OrderedMap.insertAll
  rw [List.foldl_map]
  exact Logged.value_fold (add kind) .empty (definitions c kind)

theorem keys_contracts_collect :
    (collect c kind).value.contracts.keys = ((definitions c kind).map Collected.key).eraseDups := by
  rw [contracts_collect, OrderedMap.keys_ofList, List.map_map]
  -- pairs have two tests for equality, which agree
  rw [lawful_beq_subsingleton instBEqProd instBEqOfDecidableEq]
  rfl

theorem get?_contracts_collect (k : String × String) :
    (collect c kind).value.contracts.get? k = (definitions c kind).findRev? fun d => d.key = k := by
  rw [contracts_collect, OrderedMap.get?_ofList, OrderedMap.lookup_reverse_map_key]

/-- A roster lists every key once, in order of its first definition, with its last definition. -/
theorem toList_collect :
    (collect c kind).value.toList =
      ((definitions c kind).map Collected.key).eraseDups.filterMap fun k =>
        (definitions c kind).findRev? fun d => d.key = k := by
  unfold toList
  rw [OrderedMap.values_eq_filterMap, keys_contracts_collect]
  exact List.filterMap_congr fun k _ => get?_contracts_collect c kind k

theorem key_of_findRev? {ds : List Collected} {k : String × String} {d : Collected}
    (h : (ds.findRev? fun d => d.key = k) = some d) : d.key = k := by
  rw [List.findRev?_eq_find?_reverse] at h
  simpa using List.find?_some h

/-- Every listed definition stands under its own key. -/
theorem map_key_toList_collect :
    (collect c kind).value.toList.map Collected.key = (collect c kind).value.contracts.keys := by
  have hval : ∀ k ∈ (collect c kind).value.contracts.keys,
      ((collect c kind).value.contracts.get? k).map Collected.key = some k := by
    intro k hk
    obtain ⟨d, hd⟩ := OrderedMap.mem_keys_iff.mp hk
    rw [hd, Option.map_some]
    rw [get?_contracts_collect] at hd
    rw [key_of_findRev? hd]
  unfold toList
  rw [OrderedMap.values_eq_filterMap, List.map_filterMap]
  calc ((collect c kind).value.contracts.keys.filterMap fun k =>
        ((collect c kind).value.contracts.get? k).map Collected.key)
      = (collect c kind).value.contracts.keys.filterMap some := List.filterMap_congr hval
    _ = (collect c kind).value.contracts.keys := List.filterMap_some

theorem nodup_key_collect : ((collect c kind).value.toList.map Collected.key).Nodup := by
  rw [map_key_toList_collect]
  exact OrderedMap.nodup_keys _

/-! ## One file at a time -/

variable {c}

theorem file_of_mem_inSource {f : SourceFile} {d : Collected} (h : d ∈ inSource kind f) :
    d.file = f.path := by
  unfold inSource at h
  cases hast : f.ast with
  | none =>
    rw [hast] at h
    cases h
  | some u =>
    rw [hast] at h
    obtain ⟨x, -, rfl⟩ := List.mem_map.mp h
    rfl

/-- The definitions that stand in a file are those of that file. -/
theorem filter_definitions (hc : c.Keyed) {path : String} {f : SourceFile}
    (hf : c.get? path = some f) :
    ((definitions c kind).filter fun d => d.file = path) = inSource kind f := by
  unfold definitions
  rw [filter_flatMap_of_iff (q := fun f => decide (f.path = path))
      (fun f _ d hd => by rw [file_of_mem_inSource kind hd]),
    Compilation.filter_toList hc hf, List.flatMap_cons, List.flatMap_nil, List.append_nil]

/-- Only the definitions of its own file count for a key. -/
theorem findRev?_definitions (hc : c.Keyed) {path : String} {f : SourceFile}
    (hf : c.get? path = some f) (name : String) :
    ((definitions c kind).findRev? fun d => d.key = (path, name)) =
      (inSource kind f).findRev? fun d => d.definition.name = name := by
  rw [List.findRev?_eq_find?_reverse, List.findRev?_eq_find?_reverse,
    ← filter_definitions kind hc hf, ← List.filter_reverse, List.find?_filter]
  congr 1
  funext d
  unfold Collected.key
  simp [Prod.mk.injEq]

/-- The part of a roster that belongs to one file depends on that file alone: its names in order of
their first definitions, each with its last definition. -/
theorem inFile_collect (hc : c.Keyed) {path : String} {f : SourceFile}
    (hf : c.get? path = some f) :
    (collect c kind).value.inFile path =
      ((inSource kind f).map fun d => d.definition.name).eraseDups.filterMap fun name =>
        (inSource kind f).findRev? fun d => d.definition.name = name := by
  have hkeys : (((definitions c kind).map Collected.key).eraseDups.filter fun k => k.1 = path) =
      ((inSource kind f).map fun d => d.definition.name).eraseDups.map fun n => (path, n) := by
    rw [filter_eraseDups, List.filter_map, map_eraseDups (fun _ _ h => (Prod.mk.inj h).2),
      List.map_map]
    congr 1
    have hsel : ((definitions c kind).filter ((fun k : String × String => decide (k.1 = path)) ∘
        Collected.key)) = inSource kind f := filter_definitions kind hc hf
    rw [hsel]
    refine List.map_congr_left fun d hd => ?_
    have hpath : f.path = path := hc (path, f) (OrderedMap.mem_of_get? hf)
    show (d.file, d.definition.name) = (path, d.definition.name)
    rw [file_of_mem_inSource kind hd, hpath]
  have hsel := filter_filterMap_of_iff
    (p := fun d : Collected => decide (d.file = path)) (q := fun k => decide (k.1 = path))
    (f := fun k => (definitions c kind).findRev? fun d => d.key = k)
    (fun k d hd => by rw [← key_of_findRev? hd]; rfl)
    ((definitions c kind).map Collected.key).eraseDups
  unfold inFile
  rw [toList_collect, hsel, hkeys, List.filterMap_map]
  exact List.filterMap_congr fun name _ => findRev?_definitions kind hc hf name

end Roster

end SolidityDocs
