import Mathlib
import SolidityDocs.Document.Grouping

/-!
# Groupings as lists of records

A grouping is a map of maps of five lists.  Seen from outside it is one list of declarations for
each file, contract and category, `Grouping.records`.  Adding a declaration puts it at the end of
one such list, and merging joins the lists one by one.

The lists alone do not tell a contract without declarations from one that the grouping does not
have.  No operation leaves such a contract behind; that is `Grouping.Populated`, and with it the
lists determine every slot (`Grouping.get?_eq_some_iff`).

* `Grouping.get?_merge`: what merging does to a slot.
* `Grouping.records_insert`, `Grouping.records_merge`: the same for the lists.
* `Grouping.records_aggregate`: the lists of all declarations of a roster.
-/

namespace SolidityDocs

namespace Declarations

theorem ext_ofCategory {d e : Declarations} (h : ∀ c, d.ofCategory c = e.ofCategory c) : d = e := by
  obtain ⟨f, ev, v, m, s⟩ := d
  obtain ⟨f', ev', v', m', s'⟩ := e
  have hf : f = f' := List.map_injective_iff.mpr (fun _ _ h => Declaration.function.inj h)
    (h .functions)
  have he : ev = ev' := List.map_injective_iff.mpr (fun _ _ h => Declaration.event.inj h)
    (h .events)
  have hv : v = v' := List.map_injective_iff.mpr (fun _ _ h => Declaration.stateVariable.inj h)
    (h .stateVariables)
  have hm : m = m' := List.map_injective_iff.mpr (fun _ _ h => Declaration.modifier.inj h)
    (h .modifiers)
  have hs : s = s' := List.map_injective_iff.mpr (fun _ _ h => Declaration.structType.inj h)
    (h .structs)
  rw [hf, he, hv, hm, hs]

@[simp] theorem ofCategory_default (c : Category) : ({} : Declarations).ofCategory c = [] := by
  cases c <;> rfl

theorem isEmpty_iff {d : Declarations} : d.isEmpty = true ↔ ∀ c, d.ofCategory c = [] := by
  unfold isEmpty count
  rw [List.all_eq_true]
  constructor
  · intro h c
    have hc := h c (by cases c <;> simp [Category.all])
    exact List.length_eq_zero_iff.mp (beq_iff_eq.mp hc)
  · intro h c _
    rw [h c]
    rfl

theorem isEmpty_eq_false_iff {d : Declarations} :
    d.isEmpty = false ↔ ∃ c, d.ofCategory c ≠ [] := by
  rw [← Bool.not_eq_true, isEmpty_iff, not_forall]

end Declarations

namespace Grouping

/-! ## Slots -/

/-- Taking a contract out leaves every other contract as it is. -/
theorem get?_snd_take (g : Grouping) (file name file' name' : String) :
    (g.take file name).2.get? file' name' =
      if file' = file ∧ name' = name then none else g.get? file' name' := by
  unfold take get?
  cases hg : g.files.get? file with
  | none =>
    by_cases hf : file' = file
    · subst hf
      simp [hg]
    · simp [hf]
  | some contracts =>
    simp only [SortedMap.get?_alter]
    by_cases hf : file' = file
    · subst hf
      rw [if_pos rfl, hg]
      have hrest : ∀ n, (contracts.alter name fun _ => none).get? n =
          if n = name then none else contracts.get? n := fun n => contracts.get?_alter name _ n
      by_cases he : (contracts.alter name fun _ => none).isEmpty = true
      · -- the file goes with its last contract
        have hnil : (contracts.alter name fun _ => none).get? name' = none := by
          unfold SortedMap.get?
          rw [List.isEmpty_iff.mp he]
          rfl
        rw [if_pos he, Option.bind_none, Option.bind_some, ← hnil, hrest]
        simp only [true_and]
        by_cases hn : name' = name
        · rw [if_pos hn, if_pos hn]
        · rw [if_neg hn, if_neg hn]
      · rw [if_neg he, Option.bind_some, Option.bind_some, hrest]
        simp only [true_and]
    · simp only [hf, if_false, false_and]

/-- A contract sees only the changes that are made to it. -/
theorem get?_foldl_update {α : Type} (file name : α → String)
    (f : α → Declarations → Declarations) (g : Grouping) (as : List α) (file' name' : String) :
    (as.foldl (fun g a => g.update (file a) (name a) (f a)) g).get? file' name' =
      (as.filter fun a => file' = file a ∧ name' = name a).foldl
        (fun v a => some (f a (v.getD {}))) (g.get? file' name') := by
  induction as generalizing g with
  | nil => rfl
  | cons a as ih =>
    rw [List.foldl_cons, ih, get?_update]
    by_cases h : file' = file a ∧ name' = name a
    · rw [if_pos h, List.filter_cons_of_pos (by simpa using h), List.foldl_cons, h.1, h.2]
    · rw [if_neg h, List.filter_cons_of_neg (by simpa using h)]

/-- The contracts of a grouping with their files and declarations. -/
def slots (g : Grouping) : List (String × String × Declarations) :=
  g.files.entries.flatMap fun e => e.2.entries.map fun x => (e.1, x.1, x.2)

theorem merge_eq_foldl_slots (g h : Grouping) :
    g.merge h = h.slots.foldl (fun g s => g.update s.1 s.2.1 fun ds => ds.append s.2.2) g := by
  unfold merge slots mergeFile
  rw [List.foldl_flatMap]
  simp only [List.foldl_map]

theorem filter_entries_eq {α : Type} {es : List (String × α)}
    (hs : es.Pairwise fun a b => a.1 < b.1) (k : String) :
    (es.filter fun e => k = e.1) = (es.lookup k).toList.map fun v => (k, v) := by
  induction es with
  | nil => rfl
  | cons e es ih =>
    obtain ⟨he, hs'⟩ := List.pairwise_cons.mp hs
    rw [lookup_cons_ite]
    by_cases h : k = e.1
    · subst h
      have hnone : es.lookup e.1 = none := SortedMap.lookup_eq_none_of_lt he
      rw [List.filter_cons_of_pos (by simp), ih hs', hnone, if_pos rfl]
      rfl
    · rw [List.filter_cons_of_neg (by simpa using h), ih hs', if_neg h]

/-- A contract has one slot at most. -/
theorem filter_slots (g : Grouping) (file name : String) :
    (g.slots.filter fun s => file = s.1 ∧ name = s.2.1) =
      (g.get? file name).toList.map fun d => (file, name, d) := by
  have hinner : ∀ e : String × SortedMap Declarations,
      ((e.2.entries.map fun x => (e.1, x.1, x.2)).filter fun s => file = s.1 ∧ name = s.2.1) =
        if file = e.1 then (e.2.get? name).toList.map fun d => (file, name, d) else [] := by
    intro e
    rw [List.filter_map]
    by_cases h : file = e.1
    · have hf := filter_entries_eq e.2.sorted name
      have hcongr : (e.2.entries.filter
          ((fun s : String × String × Declarations => decide (file = s.1 ∧ name = s.2.1)) ∘
            fun x => (e.1, x.1, x.2))) = e.2.entries.filter fun x => name = x.1 :=
        List.filter_congr fun x _ => by simp [h]
      rw [if_pos h, hcongr, hf, List.map_map, h]
      rfl
    · rw [if_neg h, List.filter_eq_nil_iff.mpr (by simp [h]), List.map_nil]
  have houter := filter_entries_eq g.files.sorted file
  unfold slots get? SortedMap.get?
  rw [List.filter_flatMap]
  simp only [hinner]
  calc (g.files.entries.flatMap fun e =>
        if file = e.1 then (e.2.get? name).toList.map fun d => (file, name, d) else [])
      = (g.files.entries.filter fun e => file = e.1).flatMap fun e =>
          (e.2.get? name).toList.map fun d => (file, name, d) := by
        induction g.files.entries with
        | nil => rfl
        | cons e es ih =>
          rw [List.flatMap_cons, ih]
          by_cases h : file = e.1
          · rw [if_pos h, List.filter_cons_of_pos (by simpa using h), List.flatMap_cons]
          · rw [if_neg h, List.filter_cons_of_neg (by simpa using h), List.nil_append]
    _ = _ := by
        rw [houter]
        cases g.files.entries.lookup file with
        | none => rfl
        | some contracts => simp [SortedMap.get?]

/-- Merging adds the declarations of the other grouping after those that are there. -/
theorem get?_merge (g h : Grouping) (file name : String) :
    (g.merge h).get? file name =
      match h.get? file name with
      | none => g.get? file name
      | some d => some (((g.get? file name).getD {}).append d) := by
  rw [merge_eq_foldl_slots,
    get?_foldl_update (fun s => s.1) (fun s => s.2.1) (fun s ds => ds.append s.2.2) g h.slots,
    filter_slots]
  cases h.get? file name with
  | none => rfl
  | some d => rfl

/-! ## Records -/

/-- The declarations of one category of a contract; there are none if the grouping does not have the
contract. -/
def records (g : Grouping) (file name : String) (c : Category) : List Declaration :=
  ((g.get? file name).getD {}).ofCategory c

@[simp] theorem records_empty (file name : String) (c : Category) :
    empty.records file name c = [] :=
  Declarations.ofCategory_default c

/-- A new declaration stands at the end of its own list. -/
theorem records_insert (g : Grouping) (file name : String) (d : Declaration)
    (file' name' : String) (c : Category) :
    (g.insert file name d).records file' name' c =
      g.records file' name' c ++
        if (file' = file ∧ name' = name) ∧ d.category = c then [d] else [] := by
  unfold records
  rw [get?_insert]
  by_cases h : file' = file ∧ name' = name
  · obtain ⟨rfl, rfl⟩ := h
    simp only [if_true, true_and, Option.getD_some]
    exact Declarations.ofCategory_push _ d c
  · simp only [h, if_false, false_and, List.append_nil]

/-- Merging joins the lists one by one. -/
theorem records_merge (g h : Grouping) (file name : String) (c : Category) :
    (g.merge h).records file name c = g.records file name c ++ h.records file name c := by
  unfold records
  rw [get?_merge]
  cases h.get? file name with
  | none => rw [Option.getD_none, Declarations.ofCategory_default, List.append_nil]
  | some d => exact Declarations.ofCategory_append _ d c

/-- Every contract of the grouping has a declaration. -/
def Populated (g : Grouping) : Prop :=
  ∀ file name d, g.get? file name = some d → d.isEmpty = false

theorem populated_empty : empty.Populated := by
  intro file name d h
  cases h

theorem Populated.insert {g : Grouping} (hg : g.Populated) (file name : String)
    (d : Declaration) : (g.insert file name d).Populated := by
  intro file' name' ds hds
  rw [get?_insert] at hds
  split at hds
  · rw [← Option.some.inj hds, Declarations.isEmpty_eq_false_iff]
    refine ⟨d.category, ?_⟩
    rw [Declarations.ofCategory_push, if_pos rfl]
    exact List.append_ne_nil_of_right_ne_nil _ (List.cons_ne_nil _ _)
  · exact hg file' name' ds hds

theorem Populated.merge {g h : Grouping} (hg : g.Populated) (hh : h.Populated) :
    (g.merge h).Populated := by
  intro file name ds hds
  rw [get?_merge] at hds
  cases hd : h.get? file name with
  | none =>
    rw [hd] at hds
    exact hg file name ds hds
  | some d =>
    rw [hd] at hds
    obtain ⟨c, hc⟩ := Declarations.isEmpty_eq_false_iff.mp (hh file name d hd)
    rw [← Option.some.inj hds, Declarations.isEmpty_eq_false_iff]
    refine ⟨c, ?_⟩
    rw [Declarations.ofCategory_append]
    exact List.append_ne_nil_of_right_ne_nil _ hc

/-- The lists of a contract are its slot. -/
theorem get?_eq_some_iff {g : Grouping} (hg : g.Populated) {file name : String}
    {d : Declarations} :
    g.get? file name = some d ↔
      d.isEmpty = false ∧ ∀ c, g.records file name c = d.ofCategory c := by
  constructor
  · intro h
    refine ⟨hg file name d h, fun c => ?_⟩
    unfold records
    rw [h, Option.getD_some]
  · rintro ⟨hd, hrec⟩
    have heq : (g.get? file name).getD {} = d := Declarations.ext_ofCategory hrec
    cases hslot : g.get? file name with
    | none =>
      rw [hslot, Option.getD_none] at heq
      rw [← heq] at hd
      cases hd
    | some e =>
      rw [hslot, Option.getD_some] at heq
      rw [heq]

/-- A contract without declarations has no slot. -/
theorem get?_eq_none_iff {g : Grouping} (hg : g.Populated) {file name : String} :
    g.get? file name = none ↔ ∀ c, g.records file name c = [] := by
  constructor
  · intro h c
    unfold records
    rw [h, Option.getD_none, Declarations.ofCategory_default]
  · intro h
    cases hslot : g.get? file name with
    | none => rfl
    | some d =>
      obtain ⟨hd, hrec⟩ := (get?_eq_some_iff hg).mp hslot
      obtain ⟨c, hc⟩ := Declarations.isEmpty_eq_false_iff.mp hd
      exact absurd ((hrec c).symm.trans (h c)) hc

/-! ## The declarations of a roster -/

/-- The declaration of a member, if it is of a category. -/
def recordOf? (lines : LineTable) (c : Category) (m : Ast.Member) : Option Declaration :=
  (declarationOf lines m).value.filter fun d => d.category = c

/-- The declarations of one category among the members of a definition, in order. -/
def recordsOf (lines : LineTable) (c : Category) (members : List Ast.Member) :
    List Declaration :=
  members.filterMap (recordOf? lines c)

/-- A member adds its declaration, if it is of the category. -/
theorem value_addMember (category : Category) (c : Collected) (g : Grouping) (m : Ast.Member) :
    (addMember category c g m).value =
      match recordOf? c.lines category m with
      | some d => g.insert c.file c.definition.name d
      | none => g := by
  have hcat := map_category_declarationOf c.lines m
  unfold addMember recordOf?
  cases hd : (declarationOf c.lines m).value with
  | none =>
    rw [hd, Option.map_none] at hcat
    rw [← hcat, if_neg (by simp)]
    rfl
  | some d =>
    rw [hd, Option.map_some] at hcat
    rw [← hcat]
    by_cases h : d.category = category
    · rw [if_pos (congrArg some h), Logged.value_bind, hd,
        Option.filter_some_pos (by simpa using h)]
      rfl
    · rw [if_neg (fun he => h (Option.some.inj he)), Option.filter_some_neg (by simpa using h)]
      rfl

theorem category_of_recordOf? {lines : LineTable} {c : Category} {m : Ast.Member}
    {d : Declaration} (h : recordOf? lines c m = some d) : d.category = c := by
  obtain ⟨-, hd⟩ := Option.filter_eq_some_iff.mp h
  exact of_decide_eq_true hd

/-- The members of a definition add their declarations to the list of that definition. -/
theorem records_foldl_addMember (category : Category) (c : Collected) (g : Grouping)
    (members : List Ast.Member) (file name : String) (c' : Category) :
    (members.foldl (fun g m => (addMember category c g m).value) g).records file name c' =
      g.records file name c' ++
        if (file, name) = c.key ∧ category = c' then recordsOf c.lines c' members else [] := by
  induction members generalizing g with
  | nil => rw [List.foldl_nil, recordsOf, List.filterMap_nil, ite_self, List.append_nil]
  | cons m members ih =>
    rw [List.foldl_cons, ih, value_addMember]
    cases hm : recordOf? c.lines category m with
    | none =>
      by_cases h : (file, name) = c.key ∧ category = c'
      · rw [if_pos h, if_pos h, recordsOf, recordsOf, List.filterMap_cons_none (h.2 ▸ hm)]
      · rw [if_neg h, if_neg h]
    | some d =>
      have hd := category_of_recordOf? hm
      simp only [records_insert, List.append_assoc]
      congr 1
      by_cases h : (file, name) = c.key ∧ category = c'
      · obtain ⟨hkey, rfl⟩ := h
        have hslot : file = c.file ∧ name = c.definition.name := Prod.mk.inj hkey
        rw [if_pos ⟨hslot, hd⟩, if_pos ⟨hkey, rfl⟩, if_pos ⟨hkey, rfl⟩, recordsOf, recordsOf,
          List.filterMap_cons_some hm]
        rfl
      · have hslot : ¬ ((file = c.file ∧ name = c.definition.name) ∧ d.category = c') := by
          rintro ⟨⟨rfl, rfl⟩, rfl⟩
          exact h ⟨rfl, hd.symm⟩
        rw [if_neg hslot, if_neg h, if_neg h]
        rfl

/-- The declarations of one category that the definitions of a roster add to a contract. -/
def contributions (cs : List Collected) (file name : String) (c : Category) : List Declaration :=
  cs.flatMap fun d => if (file, name) = d.key then recordsOf d.lines c d.definition.nodes else []

theorem records_ofCategory (r : Roster) (category : Category) (file name : String)
    (c : Category) :
    (ofCategory r category).value.records file name c =
      if category = c then contributions r.toList file name c else [] := by
  unfold ofCategory
  simp only [Logged.value_fold]
  suffices h : ∀ (cs : List Collected) (g : Grouping),
      (cs.foldl (fun g c => c.definition.nodes.foldl
        (fun g m => (addMember category c g m).value) g) g).records file name c =
        g.records file name c ++ if category = c then contributions cs file name c else [] by
    rw [h, records_empty, List.nil_append]
  intro cs
  induction cs with
  | nil => intro g; rw [List.foldl_nil, contributions, List.flatMap_nil, ite_self, List.append_nil]
  | cons d cs ih =>
    intro g
    rw [List.foldl_cons, ih, records_foldl_addMember, List.append_assoc]
    congr 1
    by_cases h : category = c
    · simp only [h, and_true, if_true]
      rfl
    · simp only [h, and_false, if_false, List.append_nil]

/-- The lists of a grouping that is merged from categories, each of which fills its own list. -/
theorem records_ofCategories (r : Roster) (categories : List Category) (file name : String)
    (c : Category) :
    (ofCategories r categories).value.records file name c =
      categories.flatMap fun category =>
        if category = c then contributions r.toList file name c else [] := by
  unfold ofCategories
  simp only [Logged.value_fold, Logged.value_bind, Logged.value_pure]
  suffices h : ∀ g : Grouping,
      (categories.foldl (fun g category => g.merge (ofCategory r category).value) g).records
        file name c = g.records file name c ++ categories.flatMap fun category =>
          if category = c then contributions r.toList file name c else [] by
    rw [h, records_empty, List.nil_append]
  induction categories with
  | nil => intro g; rw [List.foldl_nil, List.flatMap_nil, List.append_nil]
  | cons category categories ih =>
    intro g
    rw [List.foldl_cons, ih, records_merge, records_ofCategory, List.flatMap_cons,
      List.append_assoc]

/-- The lists of all declarations of a roster. -/
theorem records_aggregate (r : Roster) (file name : String) (c : Category) :
    (aggregate r).value.records file name c = contributions r.toList file name c := by
  have h : (aggregate r).value = (ofCategories r Category.all).value := rfl
  rw [h, records_ofCategories]
  cases c <;> simp [Category.all]

theorem populated_ofCategory (r : Roster) (category : Category) :
    (ofCategory r category).value.Populated := by
  unfold ofCategory
  simp only [Logged.value_fold]
  refine List.foldlRecOn r.toList _ populated_empty fun g hg c _ => ?_
  refine List.foldlRecOn c.definition.nodes _ hg fun g hg m _ => ?_
  rw [value_addMember]
  split
  · exact hg.insert _ _ _
  · exact hg

theorem populated_aggregate (r : Roster) : (aggregate r).value.Populated := by
  have h : (aggregate r).value = (ofCategories r Category.all).value := rfl
  rw [h]
  unfold ofCategories
  simp only [Logged.value_fold, Logged.value_bind, Logged.value_pure]
  exact List.foldlRecOn Category.all _ populated_empty fun g hg category _ =>
    hg.merge (populated_ofCategory r category)

end Grouping

end SolidityDocs
