import SolidityDocs.Proofs.Document.Content
import SolidityDocs.Proofs.Document.Merging

/-!
# Five passes and one

The declarations of a roster are gathered category by category: five times the members of all
definitions are gone through, each pass fills a grouping of its own, and the five groupings are
merged.  The plain way is to go through the members once and to insert each declaration as it comes,
whatever its category.  This file proves that both ways give the same grouping.

Neither way is followed step by step along the other.  Both are put in terms of the lists of a
grouping, where a member of a definition adds its declaration at the end of one list and leaves the
others alone.  A list belongs to one category, so it is filled by one of the five passes, in the
order of the members, and the single pass fills it in the same order
(`Grouping.records_onePass`).  The groupings of two categories never have declarations in the same
list, and therefore it does not matter in which order they are merged
(`Grouping.apart_ofCategory`).

* `Grouping.onePass`: the declarations of a roster, gathered in one pass.
* `Grouping.records_onePass`: its lists.
* `Grouping.aggregate_eq_onePass`: both ways agree, for any order of the categories.
-/

namespace SolidityDocs

open Ast (Member)

/-! ## Rosters under their own keys -/

namespace Roster

/-- Every definition of the roster stands under its own file and name. -/
def Keyed (r : Roster) : Prop := ∀ e ∈ r.contracts.entries, e.2.key = e.1

theorem keyed_collect (c : Compilation) (kind : Kind) : (collect c kind).value.Keyed := by
  intro e he
  have hget := OrderedMap.get?_of_mem (k := e.1) (v := e.2) he
  rw [get?_contracts_collect] at hget
  exact key_of_findRev? hget

theorem Keyed.map_key_toList {r : Roster} (hr : r.Keyed) :
    r.toList.map Collected.key = r.contracts.keys := by
  unfold toList OrderedMap.values OrderedMap.keys
  rw [List.map_map]
  exact List.map_congr_left hr

theorem Keyed.nodup_key {r : Roster} (hr : r.Keyed) : (r.toList.map Collected.key).Nodup := by
  rw [hr.map_key_toList]
  exact r.contracts.nodup_keys

end Roster

namespace Grouping

/-! ## One pass -/

/-- Adds the declaration of a member of a contract, if it is documented. -/
def addDeclared (c : Collected) (g : Grouping) (m : Member) : Grouping :=
  match (declarationOf c.lines m).value with
  | some d => g.insert c.file c.definition.name d
  | none => g

/-- The declarations of a roster, gathered in one pass over the members of its definitions. -/
def onePass (r : Roster) : Grouping :=
  r.toList.foldl (fun g c => c.definition.nodes.foldl (addDeclared c) g) .empty

theorem Tidy.addDeclared {g : Grouping} (hg : g.Tidy) (c : Collected) (m : Member) :
    (g.addDeclared c m).Tidy := by
  unfold Grouping.addDeclared
  split
  · exact hg.insert _ _ _
  · exact hg

/-- A member adds its declaration at the end of the list of its own contract and category. -/
theorem records_addDeclared (c : Collected) (g : Grouping) (m : Member) (file name : String)
    (k : Category) :
    (g.addDeclared c m).records file name k =
      g.records file name k ++
        if (file, name) = c.key then (recordOf? c.lines k m).toList else [] := by
  unfold addDeclared recordOf?
  cases (declarationOf c.lines m).value with
  | none => rw [Option.filter_none, Option.toList_none, ite_self, List.append_nil]
  | some d =>
    have hkey : (file = c.file ∧ name = c.definition.name) ↔ (file, name) = c.key :=
      Prod.mk_inj.symm
    simp only [records_insert, hkey]
    congr 1
    by_cases hslot : (file, name) = c.key
    · by_cases hd : d.category = k
      · rw [if_pos ⟨hslot, hd⟩, if_pos hslot, Option.filter_some_pos (by simpa using hd),
          Option.toList_some]
      · rw [if_neg fun h => hd h.2, if_pos hslot, Option.filter_some_neg (by simpa using hd),
          Option.toList_none]
    · rw [if_neg fun h => hslot h.1, if_neg hslot]

theorem records_foldl_addDeclared (c : Collected) (g : Grouping) (members : List Member)
    (file name : String) (k : Category) :
    (members.foldl (addDeclared c) g).records file name k =
      g.records file name k ++
        if (file, name) = c.key then recordsOf c.lines k members else [] := by
  induction members generalizing g with
  | nil => rw [List.foldl_nil, recordsOf, List.filterMap_nil, ite_self, List.append_nil]
  | cons m members ih =>
    rw [List.foldl_cons, ih, records_addDeclared, List.append_assoc]
    congr 1
    by_cases hslot : (file, name) = c.key
    · rw [if_pos hslot, if_pos hslot, if_pos hslot]
      unfold recordsOf
      cases hm : recordOf? c.lines k m with
      | none => rw [List.filterMap_cons_none hm, Option.toList_none, List.nil_append]
      | some d => rw [List.filterMap_cons_some hm, Option.toList_some, List.singleton_append]
    · rw [if_neg hslot, if_neg hslot, if_neg hslot, List.nil_append]

/-- A pass over more definitions puts their declarations behind those that are there. -/
theorem records_foldl_definitions (g : Grouping) (cs : List Collected) (file name : String)
    (k : Category) :
    (cs.foldl (fun g c => c.definition.nodes.foldl (addDeclared c) g) g).records file name k =
      g.records file name k ++ contributions cs file name k := by
  induction cs generalizing g with
  | nil => rw [List.foldl_nil, contributions, List.flatMap_nil, List.append_nil]
  | cons c cs ih =>
    rw [List.foldl_cons, ih, records_foldl_addDeclared, List.append_assoc]
    rfl

/-- The lists of one pass hold the declarations of their contract and category in order. -/
theorem records_onePass (r : Roster) (file name : String) (k : Category) :
    (onePass r).records file name k = contributions r.toList file name k := by
  unfold onePass
  rw [records_foldl_definitions, records_empty, List.nil_append]

theorem tidy_onePass (r : Roster) : (onePass r).Tidy := by
  unfold onePass
  refine List.foldlRecOn (motive := Tidy) r.toList _ tidy_empty fun g hg c _ => ?_
  exact List.foldlRecOn (motive := Tidy) c.definition.nodes _ hg fun g hg m _ => hg.addDeclared c m

/-! ## Five passes -/

theorem tidy_ofCategory (r : Roster) (k : Category) : (ofCategory r k).value.Tidy := by
  unfold ofCategory
  simp only [Logged.value_fold]
  refine List.foldlRecOn (motive := Tidy) r.toList _ tidy_empty fun g hg c _ => ?_
  refine List.foldlRecOn (motive := Tidy) c.definition.nodes _ hg fun g hg m _ => ?_
  rw [value_addMember]
  split
  · exact hg.insert _ _ _
  · exact hg

/-- Two categories have no list in common. -/
theorem apart_ofCategory (r : Roster) {k l : Category} (hkl : k ≠ l) :
    (ofCategory r k).value.Apart (ofCategory r l).value := by
  intro file name c
  rw [records_ofCategory, records_ofCategory]
  by_cases hk : k = c
  · right
    rw [if_neg fun hl => hkl (hk.trans hl.symm)]
  · left
    rw [if_neg hk]

theorem value_aggregate (r : Roster) :
    (aggregate r).value =
      (Category.all.map fun k => (ofCategory r k).value).foldl merge empty := by
  show (ofCategories r Category.all).value = _
  unfold ofCategories
  rw [Logged.value_fold, List.foldl_map]
  rfl

/-- The passes can be merged in any order. -/
theorem foldl_merge_ofCategory (r : Roster) {categories : List Category}
    (h : categories.Perm Category.all) :
    (categories.map fun k => (ofCategory r k).value).foldl merge empty = (aggregate r).value := by
  have htidy : ∀ g ∈ Category.all.map fun k => (ofCategory r k).value, g.Tidy := by
    intro g hg
    obtain ⟨k, -, rfl⟩ := List.mem_map.mp hg
    exact tidy_ofCategory r k
  have hdistinct : Category.all.Pairwise (· ≠ ·) := by decide
  have hapart : (Category.all.map fun k => (ofCategory r k).value).Pairwise Apart :=
    List.pairwise_map.mpr (hdistinct.imp fun hkl => apart_ofCategory r hkl)
  rw [value_aggregate]
  exact foldl_merge_perm htidy hapart (h.map _)

theorem tidy_aggregate (r : Roster) : (aggregate r).value.Tidy := by
  rw [value_aggregate]
  refine tidy_empty.foldl_merge fun g hg => ?_
  obtain ⟨k, -, rfl⟩ := List.mem_map.mp hg
  exact tidy_ofCategory r k

/-! ## Both ways -/

theorem value_aggregate_eq_onePass (r : Roster) : (aggregate r).value = onePass r := by
  refine (tidy_aggregate r).ext_records (tidy_onePass r) fun file name k => ?_
  rw [records_aggregate, records_onePass]

/-- A definition is documented if one of its members has a category. -/
theorem isDocumented_iff (c : Ast.ContractDefinition) :
    Described.isDocumented c = true ↔ ∃ m ∈ c.nodes, memberCategory? m ≠ none := by
  unfold Described.isDocumented
  rw [List.any_eq_true]
  refine exists_congr fun m => and_congr_right fun _ => ?_
  cases m <;> simp [memberCategory?]

/-- **Five passes give what one pass gives.**  The grouping of all declarations of a roster is the
one that a single walk over the members gives, and so is what the passes of the five categories give
when they are merged in any order.  So a definition has a slot exactly when one of its members has a
category, and then the slot has the declarations of its members in all five lists. -/
theorem aggregate_eq_onePass (r : Roster) :
    (aggregate r).value = onePass r ∧
    (∀ categories : List Category, categories.Perm Category.all →
      (categories.map fun k => (ofCategory r k).value).foldl merge empty = onePass r) ∧
    (r.Keyed → ∀ c ∈ r.toList,
      ((aggregate r).value.contains c.file c.definition.name = true ↔
        ∃ m ∈ c.definition.nodes, memberCategory? m ≠ none) ∧
      ∀ d : Declarations, (aggregate r).value.get? c.file c.definition.name = some d →
        ∀ k, d.ofCategory k = c.definition.nodes.filterMap (recordOf? c.lines k)) := by
  have hone := value_aggregate_eq_onePass r
  refine ⟨hone, fun categories h => (foldl_merge_ofCategory r h).trans hone, ?_⟩
  intro hr c hc
  have hslot := get?_aggregate hr.nodup_key hc
  constructor
  · rw [← isDocumented_iff]
    unfold contains
    rw [hslot]
    by_cases hdoc : Described.isDocumented c.definition = true
    · simp [hdoc]
    · simp [hdoc]
  · intro d hd k
    rw [hslot] at hd
    split at hd
    · rw [← Option.some.inj hd, ← Described.recordsOf_eq]
      rfl
    · cases hd

/-- A contract whose members change their category back and forth, and one without any category: the
passes are merged from the last to the first. -/
theorem aggregate_eq_onePass_mixed :
    let a : Ast.ContractDefinition := { name := "A", contractKind := some .contract, nodes :=
      [.event { name := "E" }, .function { name := "f" }, .other, .event { name := "F" }] }
    let b : Ast.ContractDefinition :=
      { name := "B", contractKind := some .contract, nodes := [.other] }
    let c := (Compilation.ofSources (.ofList [("a.sol", .plain "")])
      (.ofList [("a.sol", ⟨some 0, some { nodes := [.contract a, .contract b] }⟩)])).value
    let r := (Roster.collect c .contract).value
    (Category.all.reverse.map fun k => (ofCategory r k).value).foldl merge empty = onePass r ∧
      (aggregate r).value.contains "a.sol" "A" = true ∧
      (aggregate r).value.contains "a.sol" "B" = false := by
  intro a b c r
  obtain ⟨-, hany, hslots⟩ := aggregate_eq_onePass r
  have hlist : r.toList = [⟨"a.sol", a, .ofText ""⟩, ⟨"a.sol", b, .ofText ""⟩] := rfl
  have hkeyed : r.Keyed := Roster.keyed_collect c .contract
  have ha := (hslots hkeyed ⟨"a.sol", a, .ofText ""⟩ (by simp [hlist])).1
  have hb := (hslots hkeyed ⟨"a.sol", b, .ofText ""⟩ (by simp [hlist])).1
  refine ⟨hany _ (List.reverse_perm _), ha.mpr ?_, Bool.eq_false_of_not_eq_true fun h => ?_⟩
  · exact ⟨.event { name := "E" }, List.mem_cons_self .., by simp [memberCategory?]⟩
  · obtain ⟨m, hm, hcategory⟩ := hb.mp h
    rw [List.mem_singleton.mp hm] at hcategory
    exact hcategory rfl

end Grouping

end SolidityDocs
