import SolidityDocs.Proofs.Artifact.Listing
import SolidityDocs.Proofs.Document.Account

/-!
# Joining a roster with a grouping

A section is made by a loop over the definitions of a roster.  Each of them takes its declarations
out of the grouping, and if there were any, an entry is made of them.  The two maps that the loop
changes are of different kinds.  Taking something out of the sorted grouping deletes a whole file
with its last contract, and adding an entry to the ordered section makes a new file with its first
entry.  This file says what comes out, in terms of the roster and the grouping as they were at the
beginning, for any grouping and not only for the declarations of the roster itself.

An entry never depends on those before it, because no key occurs twice in a roster.  The order of
the entries is less clear, because a section lists them file by file while the roster lists
definitions.  It is the same since the definitions of a file stand together in a roster that was
collected from a compilation.

* `Section.Joins`: what joining should give.
* `Section.joins_build`: the loop gives it.
* `Section.Joins.unique`: nothing else does.
* `Section.get?_leftover`: what the loop leaves of the grouping.
* `Section.build_joins_iff`: all of it, for the rosters of any two artifacts.
-/

namespace SolidityDocs

/-! ## Keys -/

namespace Roster

/-- Looking for a definition finds the one with that file and name. -/
theorem Keyed.get?_eq_some_iff {r : Roster} (hr : r.Keyed) {file name : String} {c : Collected} :
    r.get? file name = some c ↔ c ∈ r.toList ∧ c.key = (file, name) := by
  rw [hr.get?_eq, OrderedMap.get?_eq_some_iff]
  constructor
  · intro h
    exact ⟨List.mem_map_of_mem h, hr _ h⟩
  · rintro ⟨hc, hkey⟩
    obtain ⟨e, he, rfl⟩ := List.mem_map.mp hc
    rw [← hkey, hr e he]
    exact he

end Roster

namespace Grouping

/-- Taking out contracts one after the other leaves the others as they are. -/
theorem get?_foldl_take (g : Grouping) (cs : List Collected) (file name : String) :
    (cs.foldl (fun g c => (g.take c.file c.definition.name).2) g).get? file name =
      if (file, name) ∈ cs.map Collected.key then none else g.get? file name := by
  induction cs generalizing g with
  | nil => rfl
  | cons c cs ih =>
    have hkey : (file = c.file ∧ name = c.definition.name) ↔ (file, name) = c.key :=
      Prod.mk_inj.symm
    rw [List.foldl_cons, ih, get?_snd_take, List.map_cons]
    simp only [List.mem_cons, hkey]
    by_cases hhere : (file, name) = c.key
    · rw [if_pos hhere, ite_self, if_pos (.inl hhere)]
    · simp only [hhere, if_false, false_or]

/-- The grouping of a roster has contracts of its own definitions only. -/
theorem get?_aggregate_of_notMem {r : Roster} (hr : r.Keyed) {file name : String}
    (h : (file, name) ∉ r.contracts.keys) : (aggregate r).value.get? file name = none := by
  rw [get?_eq_none_iff (populated_aggregate r)]
  intro category
  rw [records_aggregate, contributions, List.flatMap_eq_nil_iff]
  intro c hc
  refine if_neg fun heq => h ?_
  rw [heq, ← hr.map_key_toList]
  exact List.mem_map_of_mem hc

end Grouping

namespace Section

/-! ## What joining should give -/

/-- The entry of a name in a file. -/
def get? (s : Section) (file name : String) : Option ContractEntry :=
  (s.files.get? file).bind fun entries => entries.get? name

/-- The files and names of the entries, in order. -/
def keys (s : Section) : List (String × String) :=
  s.files.entries.flatMap fun f => f.2.keys.map fun name => (f.1, name)

/-- The keys of a roster that a grouping contains, in order. -/
def commonKeys (r : Roster) (g : Grouping) : List (String × String) :=
  r.contracts.keys.filter fun k => g.contains k.1 k.2

/-- The section joins the definitions of a roster with the declarations of a grouping.

The entries are those of the keys that are in both, each once, in the order of the roster.  The
files stand in the order in which the roster first has such a key of them, and none is kept without
entries.  An entry has the five lists of the grouping and the names of the bases of the definition.
A contract of the grouping that is not in the roster is dropped.  The size is the number of
definitions that the grouping contains, and only a section of size zero is empty. -/
structure Joins (r : Roster) (g : Grouping) (s : Section) : Prop where
  kind_eq : s.kind = r.kind
  keys_eq : s.keys = commonKeys r g
  nodup_keys : s.keys.Nodup
  files_eq : s.files.keys = ((commonKeys r g).map Prod.fst).eraseDups
  get?_eq_some : ∀ file name e, s.get? file name = some e ↔
    ∃ c, r.get? file name = some c ∧ g.get? file name = some e.toDeclarations ∧
      e.inherits = c.definition.baseContracts.filterMap fun b => b.baseName.name
  get?_of_notMem : ∀ file name, (file, name) ∉ r.contracts.keys → s.get? file name = none
  files_nonempty : ∀ f ∈ s.files.entries, f.2.isEmpty = false
  size_eq : s.size = r.toList.countP fun c => g.contains c.file c.definition.name
  isEmpty_iff : s.isEmpty = true ↔ s.size = 0

/-! ## Sections by file -/

theorem get?_eq_getD (s : Section) (file name : String) :
    s.get? file name = ((s.files.get? file).getD .empty).get? name := by
  unfold get?
  cases s.files.get? file <;> rfl

/-- The keys of a section are the names of its files, one file after the other. -/
theorem keys_eq_flatMap (s : Section) :
    s.keys = s.files.keys.flatMap fun file =>
      ((s.files.get? file).getD .empty).keys.map fun name => (file, name) := by
  unfold keys OrderedMap.keys
  rw [List.flatMap_map]
  refine List.flatMap_congr fun f hf => ?_
  rw [OrderedMap.get?_of_mem (m := s.files) (k := f.1) (v := f.2) hf]
  rfl

/-- The names of a file are those of the keys with that file. -/
theorem filter_keys (s : Section) (file : String) :
    (s.keys.filter fun k => k.1 = file) =
      ((s.files.get? file).getD .empty).keys.map fun name => (file, name) := by
  unfold keys
  rw [filter_flatMap_of_iff (q := fun f => decide (f.1 = file)) fun f _ k hk => by
    obtain ⟨name, -, rfl⟩ := List.mem_map.mp hk
    rfl]
  cases hfile : s.files.get? file with
  | none =>
    have hnil : (s.files.entries.filter fun f => f.1 = file) = [] := by
      rw [List.filter_eq_nil_iff]
      intro f hf heq
      refine OrderedMap.get?_eq_none_iff.mp hfile ?_
      rw [← of_decide_eq_true heq]
      exact List.mem_map_of_mem hf
    rw [hnil]
    rfl
  | some entries =>
    rw [OrderedMap.filter_entries_of_get? hfile]
    exact List.append_nil _

theorem isEmpty_iff_of_nonempty {s : Section} (hs : ∀ f ∈ s.files.entries, f.2.isEmpty = false) :
    s.isEmpty = true ↔ s.size = 0 := by
  unfold isEmpty size OrderedMap.isEmpty OrderedMap.values
  cases hfiles : s.files.entries with
  | nil => exact ⟨fun _ => rfl, fun _ => rfl⟩
  | cons f fs =>
    have hf := hs f (hfiles ▸ List.mem_cons_self ..)
    have hpos : f.2.size ≠ 0 := by
      intro hzero
      unfold OrderedMap.isEmpty at hf
      rw [List.length_eq_zero_iff.mp hzero] at hf
      cases hf
    refine iff_of_false nofun fun hzero => hpos ?_
    rw [List.map_cons, List.foldr_cons] at hzero
    omega

/-- Two sections with the same keys, the same order of files and the same entries are equal. -/
theorem Joins.unique {r : Roster} {g : Grouping} {s t : Section} (hs : Joins r g s)
    (ht : Joins r g t) : s = t := by
  have hkeys : s.keys = t.keys := hs.keys_eq.trans ht.keys_eq.symm
  have hget : ∀ file name, s.get? file name = t.get? file name := by
    intro file name
    ext e
    rw [hs.get?_eq_some, ht.get?_eq_some]
  have hpart : ∀ file, (s.files.get? file).getD .empty = (t.files.get? file).getD .empty := by
    intro file
    apply OrderedMap.ext_get?
    · have hnames := filter_keys s file
      rw [hkeys, filter_keys t file] at hnames
      exact List.map_injective_iff.mpr (fun _ _ h => (Prod.mk.inj h).2) hnames.symm
    · intro name _
      rw [← get?_eq_getD, ← get?_eq_getD, hget]
  have hfiles : s.files = t.files := by
    apply OrderedMap.ext_get?
    · rw [hs.files_eq, ht.files_eq]
    · intro file hfile
      obtain ⟨m, hm⟩ := OrderedMap.mem_keys_iff.mp hfile
      rw [hs.files_eq, ← ht.files_eq] at hfile
      obtain ⟨n, hn⟩ := OrderedMap.mem_keys_iff.mp hfile
      have heq := hpart file
      rw [hm, hn] at heq
      rw [hm, hn]
      exact congrArg some heq
  cases s
  cases t
  have hkind := hs.kind_eq.trans ht.kind_eq.symm
  cases hkind
  cases hfiles
  rfl

/-! ## The loop -/

section Build

variable {r : Roster} (hr : r.Keyed) (g : Grouping)

theorem nodup_commonKeys : (commonKeys r g).Nodup := r.contracts.nodup_keys.filter _

include hr

theorem commonKeys_eq :
    commonKeys r g =
      (r.toList.filter fun c => g.contains c.file c.definition.name).map Collected.key := by
  unfold commonKeys
  rw [← hr.map_key_toList, List.filter_map]
  rfl

theorem keys_files_build :
    (build r g).files.keys = ((commonKeys r g).map Prod.fst).eraseDups := by
  rw [files_build hr.nodup_key, OrderedMap.keys_accumulate, OrderedMap.keys_empty,
    List.nil_append, commonKeys_eq hr, ← map_key_filterMap_entryOf?, List.map_map]
  rfl

/-- The keys with a file are those of the definitions in that file. -/
theorem filter_commonKeys (file : String) :
    ((commonKeys r g).filter fun k => k.1 = file) =
      ((r.inFile file).filter fun c => g.contains c.file c.definition.name).map
        Collected.key := by
  rw [commonKeys_eq hr, List.filter_map, Roster.inFile, List.filter_filter, List.filter_filter]
  congr 1
  exact List.filter_congr fun c _ => Bool.and_comm ..

/-- The names of the entries that a file gets, with the file. -/
theorem map_name_entries (file : String) :
    (((r.inFile file).filterMap (entryOf? g)).map fun e => (file, e.2.1)) =
      (commonKeys r g).filter fun k => k.1 = file := by
  rw [filter_commonKeys hr, ← map_key_filterMap_entryOf?]
  refine List.map_congr_left fun e he => ?_
  obtain ⟨c, hc, hce⟩ := List.mem_filterMap.mp he
  obtain ⟨d, -, rfl⟩ := Option.map_eq_some_iff.mp hce
  exact congrArg (·, c.definition.name) (of_decide_eq_true (List.mem_filter.mp hc).2).symm

/-- The entries of a file, in the order of its definitions. -/
theorem entries_files_build (file : String) :
    (((build r g).files.get? file).getD .empty).entries =
      ((r.inFile file).filterMap (entryOf? g)).map fun e => e.2 := by
  have hnodup : ((((r.inFile file).filterMap (entryOf? g)).map fun e => e.2).map
      Prod.fst).Nodup := by
    refine List.Nodup.of_map (fun name => (file, name)) ?_
    rw [List.map_map, List.map_map]
    exact (map_name_entries hr g file).symm ▸ (nodup_commonKeys g).filter _
  rw [get?_files_build hr.nodup_key]
  exact OrderedMap.entries_ofList hnodup

theorem keys_part_build (file : String) :
    ((((build r g).files.get? file).getD .empty).keys.map fun name => (file, name)) =
      (commonKeys r g).filter fun k => k.1 = file := by
  unfold OrderedMap.keys
  rw [entries_files_build hr, ← map_name_entries hr, List.map_map, List.map_map]
  rfl

/-- The entries of a section, in terms of the roster and the grouping. -/
theorem get?_build_eq_some_iff (file name : String) (e : ContractEntry) :
    (build r g).get? file name = some e ↔
      ∃ c, r.get? file name = some c ∧ g.get? file name = some e.toDeclarations ∧
        e.inherits = c.definition.baseContracts.filterMap fun b => b.baseName.name := by
  rw [get?_eq_getD, OrderedMap.get?_eq_some_iff, entries_files_build hr]
  constructor
  · intro h
    obtain ⟨x, hx, hxe⟩ := List.mem_map.mp h
    obtain ⟨c, hc, hcx⟩ := List.mem_filterMap.mp hx
    obtain ⟨d, hd, rfl⟩ := Option.map_eq_some_iff.mp hcx
    obtain ⟨hc, hfile⟩ := List.mem_filter.mp hc
    obtain ⟨rfl, rfl⟩ := Prod.mk.inj hxe
    have hkey : c.key = (file, c.definition.name) :=
      congrArg (·, c.definition.name) (of_decide_eq_true hfile)
    rw [of_decide_eq_true hfile] at hd
    exact ⟨c, hr.get?_eq_some_iff.mpr ⟨hc, hkey⟩, hd, rfl⟩
  · rintro ⟨c, hc, hd, hinherits⟩
    obtain ⟨hmem, hkey⟩ := hr.get?_eq_some_iff.mp hc
    obtain ⟨rfl, rfl⟩ := Prod.mk.inj hkey
    refine List.mem_map.mpr ⟨(c.file, c.definition.name, e), ?_, rfl⟩
    refine List.mem_filterMap.mpr ⟨c, List.mem_filter.mpr ⟨hmem, decide_eq_true rfl⟩, ?_⟩
    unfold entryOf?
    rw [hd, Option.map_some]
    have hentry : e.toDeclarations.withInherits c.definition.baseNames = e := by
      show ContractEntry.mk e.toDeclarations _ = e
      rw [← show e.inherits = c.definition.baseNames from hinherits]
    rw [hentry]

/-- **The loop joins the roster with the grouping**, if the definitions of a file stand together in
the roster. -/
theorem joins_build {paths : List String} (hpaths : paths.Nodup)
    (htogether : r.toList = paths.flatMap r.inFile) : Joins r g (build r g) := by
  have hkeys : (build r g).keys = commonKeys r g := by
    have hcommon : commonKeys r g =
        paths.flatMap fun file => (commonKeys r g).filter fun k => k.1 = file := by
      simp only [filter_commonKeys hr]
      rw [commonKeys_eq hr, ← List.map_flatMap, ← List.filter_flatMap, ← htogether]
    rw [keys_eq_flatMap, keys_files_build hr]
    simp only [keys_part_build hr]
    exact flatMap_eraseDups_filter hpaths hcommon
  have hnonempty : ∀ f ∈ (build r g).files.entries, f.2.isEmpty = false := by
    intro f hf
    have hfile : f.1 ∈ (build r g).files.keys := List.mem_map_of_mem hf
    rw [keys_files_build hr, List.mem_eraseDups] at hfile
    obtain ⟨k, hk, hkf⟩ := List.mem_map.mp hfile
    have hmem : k ∈ (commonKeys r g).filter fun k => k.1 = f.1 :=
      List.mem_filter.mpr ⟨hk, decide_eq_true hkf⟩
    rw [← keys_part_build hr, OrderedMap.get?_of_mem (k := f.1) (v := f.2) hf] at hmem
    obtain ⟨name, hname, -⟩ := List.mem_map.mp hmem
    obtain ⟨e, he, -⟩ := List.mem_map.mp hname
    exact List.isEmpty_eq_false_iff_exists_mem.mpr ⟨e, he⟩
  constructor
  case kind_eq => rfl
  case keys_eq => exact hkeys
  case nodup_keys => exact hkeys ▸ nodup_commonKeys g
  case files_eq => exact keys_files_build hr g
  case get?_eq_some => exact get?_build_eq_some_iff hr g
  case get?_of_notMem =>
    intro file name hkey
    rw [Option.eq_none_iff_forall_ne_some]
    intro e he
    obtain ⟨c, hc, -⟩ := (get?_build_eq_some_iff hr g file name e).mp he
    rw [hr.get?_eq] at hc
    exact hkey (OrderedMap.mem_keys_iff.mpr ⟨c, hc⟩)
  case files_nonempty => exact hnonempty
  case size_eq =>
    rw [size_build hr.nodup_key, List.length_filterMap_eq_countP]
    congr 1
    funext c
    exact Option.isSome_map ..
  case isEmpty_iff => exact isEmpty_iff_of_nonempty hnonempty

end Build

/-! ## What is left of the grouping -/

/-- What the loop leaves of the grouping. -/
def leftover (r : Roster) (g : Grouping) : Grouping := (r.toList.foldl add (.empty, g)).2

/-- On the side of the grouping, the loop only takes out one contract after the other. -/
theorem snd_foldl_add (cs : List Collected)
    (files : OrderedMap String (OrderedMap String ContractEntry)) (g : Grouping) :
    (cs.foldl add (files, g)).2 =
      cs.foldl (fun g c => (g.take c.file c.definition.name).2) g := by
  induction cs generalizing files g with
  | nil => rfl
  | cons c cs ih =>
    have hpair : add (files, g) c = ((add (files, g) c).1, (add (files, g) c).2) := rfl
    rw [List.foldl_cons, hpair, ih, snd_add, List.foldl_cons]

/-- What is left: the contracts that are not in the roster. -/
theorem get?_leftover {r : Roster} (hr : r.Keyed) (g : Grouping) (file name : String) :
    (leftover r g).get? file name =
      if (file, name) ∈ r.contracts.keys then none else g.get? file name := by
  unfold leftover
  rw [snd_foldl_add, Grouping.get?_foldl_take, hr.map_key_toList]

theorem tidy_leftover (r : Roster) {g : Grouping} (hg : g.Tidy) : (leftover r g).Tidy := by
  unfold leftover
  rw [snd_foldl_add]
  exact List.foldlRecOn (motive := Grouping.Tidy) r.toList _ hg fun _ h c _ => h.take _ _

/-- Nothing is left of the declarations of the roster itself. -/
theorem leftover_aggregate {r : Roster} (hr : r.Keyed) :
    leftover r (Grouping.aggregate r).value = .empty := by
  refine (tidy_leftover r (Grouping.tidy_aggregate r)).ext_get? Grouping.tidy_empty
    fun file name => ?_
  rw [get?_leftover hr, Grouping.get?_empty]
  by_cases hkey : (file, name) ∈ r.contracts.keys
  · rw [if_pos hkey]
  · rw [if_neg hkey, Grouping.get?_aggregate_of_notMem hr hkey]

/-- Every contract of the grouping of a roster has one entry. -/
theorem commonKeys_aggregate_perm {r : Roster} (hr : r.Keyed) :
    (commonKeys r (Grouping.aggregate r).value).Perm (Grouping.aggregate r).value.slotKeys := by
  refine (List.perm_ext_iff_of_nodup (nodup_commonKeys _) (Grouping.nodup_slotKeys _)).mpr ?_
  rintro ⟨file, name⟩
  rw [Grouping.mem_slotKeys_iff, commonKeys, List.mem_filter]
  refine and_iff_right_of_imp fun hslot => ?_
  by_contra hkey
  unfold Grouping.contains at hslot
  rw [Grouping.get?_aggregate_of_notMem hr hkey] at hslot
  cases hslot

/-- **Joining a roster with any grouping.**  The roster is that of any two artifacts and any kind,
and it does not matter how the grouping came about.  The section that is built is the one that joins
the two, and there is no other.  What is left of the grouping are the contracts that are not in the
roster.  If it is the grouping of the roster itself, nothing is left, and every contract of it has
its entry. -/
theorem build_joins_iff (input : OrderedMap String SourceText)
    (output : OrderedMap String OutputSource) (kind : Kind) :
    let r := (Roster.collect (Compilation.ofSources input output).value kind).value
    (∀ (g : Grouping) (s : Section), Joins r g s ↔ s = build r g) ∧
    (∀ (g : Grouping) (file name : String), (leftover r g).get? file name =
      if (file, name) ∈ r.contracts.keys then none else g.get? file name) ∧
    leftover r (Grouping.aggregate r).value = .empty ∧
    (build r (Grouping.aggregate r).value).keys.Perm (Grouping.aggregate r).value.slotKeys := by
  intro r
  have hc := Compilation.keyed_ofSources input output
  have hr : r.Keyed := Roster.keyed_collect _ kind
  have hjoins : ∀ g, Joins r g (build r g) := fun g =>
    joins_build hr g (OrderedMap.nodup_keys _) (Roster.toList_collect_eq_flatMap hc kind)
  refine ⟨fun g s => ⟨fun hs => hs.unique (hjoins g), fun hs => hs ▸ hjoins g⟩,
    get?_leftover hr, leftover_aggregate hr, ?_⟩
  rw [(hjoins _).keys_eq]
  exact commonKeys_aggregate_perm hr

end Section

end SolidityDocs
