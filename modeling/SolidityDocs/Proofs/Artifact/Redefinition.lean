import SolidityDocs.Proofs.Document.Content
import SolidityDocs.Proofs.Map.Repetition

/-!
# Definitions that replace others

While a roster is collected, a definition that finds its key taken replaces the one that had it, and
a warning is given.  So each definition either makes the roster longer or gives a warning, and the
two numbers add up to the number of definitions (`Roster.size_fold_add`).  Which definitions are
warned about depends on the keys that have come before (`Roster.events_fold_add`).

Files have their own keys, so both the roster and the warnings can be put together file by file.

* `Roster.events_collect`: the warnings of a roster.
* `Roster.size_collect`: how many definitions are kept.
* `Roster.toList_collect_byFile`, `Roster.repeats_definitions`: kept and replacing definitions, file
  by file.
-/

namespace SolidityDocs

open Ast (ContractDefinition)

theorem Logged.fold_cons {α β : Type} (f : β → α → Logged β) (b : β) (a : α) (as : List α) :
    fold f b (a :: as) = f b a >>= fun b' => fold f b' as := rfl

theorem OrderedMap.contains_iff {κ α : Type} [DecidableEq κ] {m : OrderedMap κ α} {k : κ} :
    m.contains k = true ↔ k ∈ m.keys := by
  unfold contains
  rw [mem_keys_iff, Option.isSome_iff_exists]

/-- A key that is there already takes no more room. -/
theorem OrderedMap.size_insert {κ α : Type} [DecidableEq κ] (m : OrderedMap κ α) (k : κ) (v : α) :
    (m.insert k v).size = m.size + if k ∈ m.keys then 0 else 1 := by
  have hsize : ∀ n : OrderedMap κ α, n.size = n.keys.length := fun n => (List.length_map _).symm
  rw [hsize, hsize, keys_insert]
  by_cases hk : k ∈ m.keys
  · rw [if_pos hk, if_pos hk, Nat.add_zero]
  · rw [if_neg hk, if_neg hk, List.length_append, List.length_singleton]

namespace Compilation

theorem map_path_toList {c : Compilation} (hc : c.Keyed) :
    c.toList.map SourceFile.path = c.paths := by
  unfold toList paths OrderedMap.values OrderedMap.keys
  rw [List.map_map]
  exact List.map_congr_left hc

/-- Different files have different paths. -/
theorem pairwise_path {c : Compilation} (hc : c.Keyed) :
    c.toList.Pairwise fun f f' => f.path ≠ f'.path := by
  have hnodup : (c.toList.map SourceFile.path).Nodup := by
    rw [map_path_toList hc]
    exact c.files.nodup_keys
  exact List.pairwise_map.mp hnodup

end Compilation

namespace Roster

variable (kind : Kind)

/-! ## Collecting -/

/-- The warning about a definition that replaces another one. -/
def replacement (d : Collected) : Event := .duplicate d.file d.definition.name kind

theorem value_add (m : OrderedMap (String × String) Collected) (d : Collected) :
    (add kind m d).value = m.insert d.key d := rfl

theorem events_add (m : OrderedMap (String × String) Collected) (d : Collected) :
    (add kind m d).events = if d.key ∈ m.keys then [replacement kind d] else [] := by
  have hevents : (add kind m d).events =
      (if m.contains d.key then [replacement kind d] else []) ++ [] := rfl
  rw [hevents, List.append_nil]
  simp only [OrderedMap.contains_iff]

/-- A definition is listed or it is warned about. -/
theorem size_add (m : OrderedMap (String × String) Collected) (d : Collected) :
    (add kind m d).value.size + (add kind m d).events.length = m.size + 1 := by
  rw [value_add, events_add, OrderedMap.size_insert]
  by_cases hd : d.key ∈ m.keys
  · rw [if_pos hd, if_pos hd, List.length_singleton]
  · rw [if_neg hd, if_neg hd, List.length_nil]

theorem size_fold_add (m : OrderedMap (String × String) Collected) (ds : List Collected) :
    (Logged.fold (add kind) m ds).value.size + (Logged.fold (add kind) m ds).events.length =
      m.size + ds.length := by
  induction ds generalizing m with
  | nil => rfl
  | cons d ds ih =>
    have hstep := size_add kind m d
    have hrest := ih (add kind m d).value
    rw [Logged.fold_cons, Logged.value_bind, Logged.events_bind, List.length_append,
      List.length_cons]
    omega

/-- The definitions are warned about whose key has come before. -/
theorem events_fold_add (m : OrderedMap (String × String) Collected) (ds : List Collected) :
    (Logged.fold (add kind) m ds).events =
      (repeatsAfter Collected.key m.keys ds).map (replacement kind) := by
  induction ds generalizing m with
  | nil => rfl
  | cons d ds ih =>
    have hearlier : ∀ a ∈ ds, Collected.key a ∈ (m.insert d.key d).keys ↔
        Collected.key a ∈ m.keys ++ [d.key] := by
      intro a _
      rw [OrderedMap.keys_insert]
      by_cases hd : d.key ∈ m.keys
      · rw [if_pos hd, List.mem_append, List.mem_singleton]
        exact ⟨Or.inl, fun h => h.elim id fun heq => heq ▸ hd⟩
      · rw [if_neg hd]
    rw [Logged.fold_cons, Logged.events_bind, events_add, value_add, ih,
      repeatsAfter_congr hearlier, repeatsAfter_cons, List.map_append]
    by_cases hd : d.key ∈ m.keys
    · rw [if_pos hd, if_pos hd]
      rfl
    · rw [if_neg hd, if_neg hd]
      rfl

variable (c : Compilation)

theorem events_collect :
    (collect c kind).events =
      (repeats Collected.key (definitions c kind)).map (replacement kind) ++
        [.collected kind (collect c kind).value.size] := by
  have hevents : (collect c kind).events =
      (Logged.fold (add kind) .empty (definitions c kind)).events ++
        [.collected kind (collect c kind).value.size] := rfl
  rw [hevents, events_fold_add]
  rfl

/-- The definitions that are kept and those that replace others are all definitions. -/
theorem size_collect :
    (collect c kind).value.size + (repeats Collected.key (definitions c kind)).length =
      (definitions c kind).length := by
  have hrun := size_fold_add kind .empty (definitions c kind)
  have hempty : (OrderedMap.empty : OrderedMap (String × String) Collected).size = 0 := rfl
  rw [events_fold_add, List.length_map, hempty, Nat.zero_add] at hrun
  exact hrun

theorem toList_collect_eq_lasts :
    (collect c kind).value.toList = lasts Collected.key (definitions c kind) := by
  unfold toList
  rw [contracts_collect, OrderedMap.values_ofList_key]

theorem length_toList_collect :
    (collect c kind).value.toList.length = (collect c kind).value.size :=
  List.length_map _

/-! ## File by file -/

/-- A definition as it is collected in a file. -/
def inFileOf (f : SourceFile) (d : ContractDefinition) : Collected := ⟨f.path, d, f.lines⟩

theorem key_inFileOf (f : SourceFile) :
    Collected.key ∘ inFileOf f = (fun name => (f.path, name)) ∘ ContractDefinition.name := rfl

variable {c}

/-- Definitions of different files have different keys. -/
theorem pairwise_key (hc : c.Keyed) :
    c.toList.Pairwise fun f f' => ∀ d ∈ inSource kind f, ∀ d' ∈ inSource kind f',
      d.key ≠ d'.key := by
  refine (Compilation.pairwise_path hc).imp fun hpath d hd d' hd' hkey => hpath ?_
  rw [← file_of_mem_inSource kind hd, ← file_of_mem_inSource kind hd']
  exact congrArg Prod.fst hkey

/-- The definitions that a roster keeps, file by file. -/
theorem toList_collect_byFile (hc : c.Keyed) :
    (collect c kind).value.toList =
      c.toList.flatMap fun f =>
        (lasts ContractDefinition.name (Described.definitions kind f.ast)).map (inFileOf f) := by
  rw [toList_collect_eq_lasts]
  unfold definitions
  rw [lasts_flatMap (pairwise_key kind hc)]
  refine List.flatMap_congr fun f _ => ?_
  have hsource : inSource kind f = (Described.definitions kind f.ast).map (inFileOf f) :=
    Section.inSource_eq_map kind f
  rw [hsource, lasts_map, key_inFileOf, lasts_map_key fun _ _ h => (Prod.mk.inj h).2]

/-- The definitions that replace others, file by file. -/
theorem repeats_definitions (hc : c.Keyed) :
    repeats Collected.key (definitions c kind) =
      c.toList.flatMap fun f =>
        (repeats ContractDefinition.name (Described.definitions kind f.ast)).map (inFileOf f) := by
  unfold definitions
  rw [repeats_flatMap (pairwise_key kind hc)]
  refine List.flatMap_congr fun f _ => ?_
  have hsource : inSource kind f = (Described.definitions kind f.ast).map (inFileOf f) :=
    Section.inSource_eq_map kind f
  rw [hsource, repeats_map, key_inFileOf, repeats_map_key fun _ _ h => (Prod.mk.inj h).2]

end Roster

end SolidityDocs
