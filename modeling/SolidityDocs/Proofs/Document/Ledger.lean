import SolidityDocs.Proofs.Document.Records

/-!
# Groupings as ledgers

A grouping keeps a map of maps of five lists.  The plain thing that it stands for is a `Ledger`,
which has a list of declarations for every file, contract name and category, and neither files nor
slots that could be there or not.  A `Grouping.History` is a sequence of insertions, removals and
merges, where what is merged has a history of its own.  Each history gives a grouping, and by the
same operations on lists it gives a ledger.

## Why the lists are not enough

The queries of a grouping look at different levels of the maps: `isEmpty` asks for files, `size`
counts slots, `contains` asks for one slot, and `count` looks into its lists.  They agree with one
another only because no operation leaves an empty map or an empty slot behind, which is
`Grouping.Tidy`.  Each operation keeps a grouping tidy and does to its lists what it does to the
ledger (`Represents.insert`, `Represents.take`, `Represents.merge`), so a history does
(`History.represents`), and the answers to all queries can then be read off the ledger.

* `Grouping.Refines`: the queries and the removal agree with a ledger.
* `Grouping.History.refines`: a grouping refines the ledger of its history.
* `Grouping.Tidy.ext_records`: a tidy grouping is known from its lists.
-/

namespace SolidityDocs

/-! ## Ledgers -/

/-- A list of declarations for every file, contract and category. -/
def Ledger : Type := String → String → Category → List Declaration

namespace Ledger

/-- The ledger without declarations. -/
def empty : Ledger := fun _ _ _ => []

/-- Writes a declaration at the end of the list of its contract and category. -/
def insert (l : Ledger) (file name : String) (d : Declaration) : Ledger := fun file' name' c =>
  l file' name' c ++ if (file' = file ∧ name' = name) ∧ d.category = c then [d] else []

/-- Empties all lists of a contract. -/
def clear (l : Ledger) (file name : String) : Ledger := fun file' name' c =>
  if file' = file ∧ name' = name then [] else l file' name' c

/-- The lists of another ledger come after those of this one. -/
def merge (l m : Ledger) : Ledger := fun file name c => l file name c ++ m file name c

/-- The ledger has a declaration of the contract. -/
def Holds (l : Ledger) (file name : String) : Prop := ∃ c, l file name c ≠ []

theorem not_holds_iff {l : Ledger} {file name : String} :
    ¬ l.Holds file name ↔ ∀ c, l file name c = [] := by
  unfold Holds
  push Not
  rfl

end Ledger

namespace SortedMap

variable {α : Type}

/-- The entries are the keys with their values. -/
theorem mem_entries_iff {m : SortedMap α} {k : String} {v : α} :
    (k, v) ∈ m.entries ↔ m.get? k = some v := by
  have hfilter := Grouping.filter_entries_eq m.sorted k
  have hmem : (k, v) ∈ m.entries ↔ (k, v) ∈ m.entries.filter fun e => k = e.1 := by
    rw [List.mem_filter]
    simp
  rw [hmem, hfilter]
  unfold get?
  simp [eq_comm]

theorem isEmpty_eq_false_iff {m : SortedMap α} :
    m.isEmpty = false ↔ ∃ k v, m.get? k = some v := by
  unfold isEmpty
  rw [List.isEmpty_eq_false_iff_exists_mem]
  constructor
  · rintro ⟨⟨k, v⟩, h⟩
    exact ⟨k, v, mem_entries_iff.mp h⟩
  · rintro ⟨k, v, h⟩
    exact ⟨(k, v), mem_entries_iff.mpr h⟩

end SortedMap

namespace Grouping

/-! ## Nothing empty is kept -/

/-- Every file of the grouping has a contract. -/
def FilesNonempty (g : Grouping) : Prop :=
  ∀ file contracts, g.files.get? file = some contracts → contracts.isEmpty = false

/-- No file is kept without contracts, and no contract without declarations. -/
structure Tidy (g : Grouping) : Prop where
  files : g.FilesNonempty
  slots : g.Populated

theorem tidy_empty : empty.Tidy := by
  refine ⟨fun file contracts h => ?_, populated_empty⟩
  cases h

/-- A file in which a contract is changed has that contract. -/
theorem FilesNonempty.update {g : Grouping} (hg : g.FilesNonempty) (file name : String)
    (f : Declarations → Declarations) : (g.update file name f).FilesNonempty := by
  intro file' contracts h
  unfold Grouping.update at h
  rw [SortedMap.get?_alter] at h
  by_cases hfile : file' = file
  · rw [if_pos hfile] at h
    have hname : contracts.get? name ≠ none := by
      rw [← Option.some.inj h, SortedMap.get?_alter, if_pos rfl]
      exact Option.some_ne_none _
    obtain ⟨d, hd⟩ := Option.ne_none_iff_exists'.mp hname
    exact SortedMap.isEmpty_eq_false_iff.mpr ⟨name, d, hd⟩
  · rw [if_neg hfile] at h
    exact hg file' contracts h

theorem Tidy.insert {g : Grouping} (hg : g.Tidy) (file name : String) (d : Declaration) :
    (g.insert file name d).Tidy :=
  ⟨hg.files.update file name _, hg.slots.insert file name d⟩

theorem Tidy.merge {g h : Grouping} (hg : g.Tidy) (hh : h.Tidy) : (g.merge h).Tidy := by
  refine ⟨?_, hg.slots.merge hh.slots⟩
  rw [merge_eq_foldl_slots]
  exact List.foldlRecOn (motive := FilesNonempty) h.slots _ hg.files
    fun k hk s _ => hk.update s.1 s.2.1 _

/-- Taking a contract out leaves no empty slot, because it changes no other one. -/
theorem Populated.take {g : Grouping} (hg : g.Populated) (file name : String) :
    (g.take file name).2.Populated := by
  intro file' name' d hd
  rw [get?_snd_take] at hd
  split at hd
  · cases hd
  · exact hg file' name' d hd

theorem Tidy.take {g : Grouping} (hg : g.Tidy) (file name : String) :
    (g.take file name).2.Tidy := by
  refine ⟨fun file' contracts' h => ?_, hg.slots.take file name⟩
  unfold Grouping.take at h
  cases hfile : g.files.get? file with
  | none =>
    simp only [hfile] at h
    exact hg.files file' contracts' h
  | some contracts =>
    simp only [hfile, SortedMap.get?_alter] at h
    by_cases heq : file' = file
    · -- the file goes when its last contract does
      rw [if_pos heq] at h
      by_cases hrest : (contracts.alter name fun _ => none).isEmpty = true
      · rw [if_pos hrest] at h
        cases h
      · rw [if_neg hrest] at h
        rw [← Option.some.inj h]
        exact Bool.eq_false_of_not_eq_true hrest
    · rw [if_neg heq] at h
      exact hg.files file' contracts' h

/-- A tidy grouping has a file exactly when it has a contract of that file. -/
theorem Tidy.get?_files_eq_none_iff {g : Grouping} (hg : g.Tidy) {file : String} :
    g.files.get? file = none ↔ ∀ name, g.get? file name = none := by
  constructor
  · intro h name
    unfold get?
    rw [h, Option.bind_none]
  · intro h
    cases hfile : g.files.get? file with
    | none => rfl
    | some contracts =>
      obtain ⟨name, d, hd⟩ := SortedMap.isEmpty_eq_false_iff.mp (hg.files file contracts hfile)
      have hslot := h name
      unfold get? at hslot
      rw [hfile, Option.bind_some, hd] at hslot
      cases hslot

theorem Tidy.ext_get? {g h : Grouping} (hg : g.Tidy) (hh : h.Tidy)
    (heq : ∀ file name, g.get? file name = h.get? file name) : g = h := by
  have hfiles : g.files = h.files := by
    apply SortedMap.ext_get?
    intro file
    cases hgf : g.files.get? file with
    | none =>
      have hnone := hg.get?_files_eq_none_iff.mp hgf
      exact (hh.get?_files_eq_none_iff.mpr fun name => (heq file name).symm.trans
        (hnone name)).symm
    | some contracts =>
      cases hhf : h.files.get? file with
      | none =>
        have hnone := hh.get?_files_eq_none_iff.mp hhf
        have hgnone := hg.get?_files_eq_none_iff.mpr fun name => (heq file name).trans (hnone name)
        rw [hgf] at hgnone
        cases hgnone
      | some contracts' =>
        have hcontracts : contracts = contracts' := by
          apply SortedMap.ext_get?
          intro name
          have hname := heq file name
          unfold get? at hname
          rw [hgf, hhf] at hname
          exact hname
        rw [hcontracts]
  cases g
  cases h
  exact congrArg Grouping.mk hfiles

/-- **A tidy grouping is known from its lists.** -/
theorem Tidy.ext_records {g h : Grouping} (hg : g.Tidy) (hh : h.Tidy)
    (heq : ∀ file name c, g.records file name c = h.records file name c) : g = h := by
  refine hg.ext_get? hh fun file name => ?_
  cases hslot : h.get? file name with
  | none =>
    rw [get?_eq_none_iff hg.slots]
    intro c
    rw [heq]
    exact (get?_eq_none_iff hh.slots).mp hslot c
  | some d =>
    obtain ⟨hd, hrec⟩ := (get?_eq_some_iff hh.slots).mp hslot
    rw [get?_eq_some_iff hg.slots]
    exact ⟨hd, fun c => (heq file name c).trans (hrec c)⟩

/-! ## The number of contracts -/

/-- The files and names of the contracts of a grouping. -/
def slotKeys (g : Grouping) : List (String × String) := g.slots.map fun s => (s.1, s.2.1)

theorem length_slotKeys (g : Grouping) : g.slotKeys.length = g.size := by
  unfold slotKeys slots size
  rw [List.length_map]
  induction g.files.entries with
  | nil => rfl
  | cons e es ih =>
    rw [List.flatMap_cons, List.length_append, List.length_map, ih]
    rfl

/-- How often a contract is listed. -/
theorem count_slotKeys (g : Grouping) (file name : String) :
    g.slotKeys.count (file, name) = (g.get? file name).toList.length := by
  have hfilter := congrArg List.length (g.filter_slots file name)
  rw [List.length_map] at hfilter
  unfold slotKeys List.count
  rw [List.countP_map, List.countP_eq_length_filter, ← hfilter]
  congr 2
  funext s
  rw [Bool.eq_iff_iff, Function.comp_apply, beq_iff_eq, decide_eq_true_iff, Prod.mk.injEq,
    eq_comm (a := file), eq_comm (a := name)]

theorem nodup_slotKeys (g : Grouping) : g.slotKeys.Nodup := by
  rw [List.nodup_iff_count_le_one]
  rintro ⟨file, name⟩
  rw [count_slotKeys]
  exact Option.length_toList_le

theorem mem_slotKeys_iff {g : Grouping} {file name : String} :
    (file, name) ∈ g.slotKeys ↔ g.contains file name = true := by
  rw [← List.count_pos_iff, count_slotKeys]
  unfold contains
  cases g.get? file name <;> simp

/-- The size is the number of contracts that the grouping contains. -/
theorem encard_contains (g : Grouping) :
    {s : String × String | g.contains s.1 s.2 = true}.encard = g.size := by
  have hset : {s : String × String | g.contains s.1 s.2 = true} = ↑g.slotKeys.toFinset := by
    ext ⟨file, name⟩
    rw [List.coe_toFinset]
    exact mem_slotKeys_iff.symm
  rw [hset, Set.encard_coe_eq_coe_finsetCard, List.toFinset_card_of_nodup g.nodup_slotKeys,
    length_slotKeys]

/-- Without contracts a tidy grouping has no file. -/
theorem Tidy.isEmpty_iff {g : Grouping} (hg : g.Tidy) : g.isEmpty = true ↔ g.size = 0 := by
  have hfiles : g.isEmpty = true ↔ g.files.entries = [] := List.isEmpty_iff
  rw [hfiles]
  constructor
  · intro h
    unfold size
    rw [h]
    rfl
  · intro h
    rw [List.eq_nil_iff_forall_not_mem]
    rintro ⟨file, contracts⟩ hmem
    have hfile := SortedMap.mem_entries_iff.mp hmem
    obtain ⟨name, d, hd⟩ := SortedMap.isEmpty_eq_false_iff.mp (hg.files file contracts hfile)
    have hslot : g.contains file name = true := by
      unfold contains get?
      rw [hfile, Option.bind_some, hd]
      rfl
    have hnil : g.slotKeys = [] := List.length_eq_zero_iff.mp (g.length_slotKeys.trans h)
    have hkey := mem_slotKeys_iff.mpr hslot
    rw [hnil] at hkey
    exact List.not_mem_nil hkey

/-! ## One operation -/

/-- The grouping is tidy and has the lists of the ledger. -/
structure Represents (g : Grouping) (l : Ledger) : Prop where
  tidy : g.Tidy
  records : ∀ file name c, g.records file name c = l file name c

theorem represents_empty : empty.Represents .empty := ⟨tidy_empty, records_empty⟩

theorem Represents.insert {g : Grouping} {l : Ledger} (h : g.Represents l) (file name : String)
    (d : Declaration) : (g.insert file name d).Represents (l.insert file name d) := by
  refine ⟨h.tidy.insert file name d, fun file' name' c => ?_⟩
  rw [records_insert, h.records]
  rfl

theorem Represents.take {g : Grouping} {l : Ledger} (h : g.Represents l) (file name : String) :
    (g.take file name).2.Represents (l.clear file name) := by
  refine ⟨h.tidy.take file name, fun file' name' c => ?_⟩
  unfold Grouping.records Ledger.clear
  rw [get?_snd_take]
  by_cases hslot : file' = file ∧ name' = name
  · rw [if_pos hslot, if_pos hslot, Option.getD_none, Declarations.ofCategory_default]
  · rw [if_neg hslot, if_neg hslot]
    exact h.records file' name' c

theorem Represents.merge {g h : Grouping} {l m : Ledger} (hg : g.Represents l)
    (hh : h.Represents m) : (g.merge h).Represents (l.merge m) := by
  refine ⟨hg.tidy.merge hh.tidy, fun file name c => ?_⟩
  rw [records_merge, hg.records, hh.records]
  rfl

/-! ## Histories -/

/-- How a grouping came about: from the new one, by adding a declaration, by taking out the
declarations of a contract, and by merging a grouping with a history of its own. -/
inductive History
  | new
  | insert (h : History) (file name : String) (d : Declaration)
  | take (h : History) (file name : String)
  | merge (h other : History)

namespace History

/-- The grouping at the end of a history. -/
def grouping : History → Grouping
  | new => .empty
  | insert h file name d => h.grouping.insert file name d
  | take h file name => (h.grouping.take file name).2
  | merge h other => h.grouping.merge other.grouping

/-- The ledger at the end of a history. -/
def ledger : History → Ledger
  | new => .empty
  | insert h file name d => h.ledger.insert file name d
  | take h file name => h.ledger.clear file name
  | merge h other => h.ledger.merge other.ledger

/-- The operations keep the grouping and the ledger together. -/
theorem represents : ∀ h : History, h.grouping.Represents h.ledger
  | new => represents_empty
  | insert h file name d => h.represents.insert file name d
  | take h file name => h.represents.take file name
  | merge h other => h.represents.merge other.represents

end History

/-- The grouping has a history: it comes about by inserting, taking out and merging. -/
def Reachable (g : Grouping) : Prop := ∃ h : History, h.grouping = g

theorem Reachable.tidy {g : Grouping} : g.Reachable → g.Tidy
  | ⟨h, hg⟩ => hg ▸ h.represents.tidy

/-! ## Queries -/

section Queries

variable {g : Grouping} {l : Ledger} (h : g.Represents l)

include h in
theorem Represents.get?_eq_none_iff {file name : String} :
    g.get? file name = none ↔ ¬ l.Holds file name := by
  rw [Grouping.get?_eq_none_iff h.tidy.slots, Ledger.not_holds_iff]
  exact forall_congr' fun c => by rw [h.records]

include h in
theorem Represents.contains_iff {file name : String} :
    g.contains file name = true ↔ l.Holds file name := by
  unfold contains
  rw [← not_iff_not, ← h.get?_eq_none_iff, Bool.not_eq_true, Option.isSome_eq_false_iff,
    Option.isNone_iff_eq_none]

include h in
theorem Represents.ofCategory_eq {file name : String} {d : Declarations}
    (hd : g.get? file name = some d) (c : Category) : d.ofCategory c = l file name c :=
  (((get?_eq_some_iff h.tidy.slots).mp hd).2 c).symm.trans (h.records file name c)

include h in
theorem Represents.count_eq (file name : String) (c : Category) :
    g.count file name c = (l file name c).length := by
  unfold count
  cases hslot : g.get? file name with
  | none =>
    have hnil := Ledger.not_holds_iff.mp (h.get?_eq_none_iff.mp hslot) c
    rw [hnil]
    rfl
  | some d =>
    rw [← h.ofCategory_eq hslot]
    rfl

end Queries

/-- The queries of a grouping, and what taking out a contract does, agree with a ledger.

No file has an empty map of contracts, and no contract five empty lists.  The grouping has the
contracts of which the ledger has declarations, with the lists of the ledger.  A contract is taken
out as it was found; then it is no longer there, and all others are as before.  Counts, membership
and size are those of the ledger, and only a grouping of size zero is empty. -/
structure Refines (g : Grouping) (l : Ledger) : Prop where
  files_nonempty : ∀ e ∈ g.files.entries, e.2.isEmpty = false
  slots_nonempty : ∀ e ∈ g.files.entries, ∀ x ∈ e.2.entries, x.2.isEmpty = false
  isSome_get? : ∀ file name, (g.get? file name).isSome = true ↔ l.Holds file name
  lists : ∀ file name d, g.get? file name = some d → ∀ c, d.ofCategory c = l file name c
  taken : ∀ file name, (g.take file name).1 = g.get? file name
  remaining : ∀ file name file' name', (g.take file name).2.get? file' name' =
    if file' = file ∧ name' = name then none else g.get? file' name'
  count : ∀ file name c, g.count file name c = (l file name c).length
  contains : ∀ file name, g.contains file name = true ↔ l.Holds file name
  size : (g.size : ℕ∞) = {s : String × String | l.Holds s.1 s.2}.encard
  isEmpty : g.isEmpty = true ↔ g.size = 0

/-- **A grouping refines the ledger of its history.**  Whatever was inserted, taken out and merged,
the grouping answers as its ledger does. -/
theorem History.refines (h : History) : h.grouping.Refines h.ledger := by
  have hrep := h.represents
  have htidy := hrep.tidy
  refine {
    files_nonempty := ?_
    slots_nonempty := ?_
    isSome_get? := fun file name => hrep.contains_iff
    lists := fun file name d hd => hrep.ofCategory_eq hd
    taken := h.grouping.fst_take
    remaining := h.grouping.get?_snd_take
    count := hrep.count_eq
    contains := fun file name => hrep.contains_iff
    size := ?_
    isEmpty := htidy.isEmpty_iff }
  · rintro ⟨file, contracts⟩ he
    exact htidy.files file contracts (SortedMap.mem_entries_iff.mp he)
  · rintro ⟨file, contracts⟩ he ⟨name, d⟩ hx
    refine htidy.slots file name d ?_
    unfold get?
    rw [SortedMap.mem_entries_iff.mp he]
    exact SortedMap.mem_entries_iff.mp hx
  · rw [← encard_contains]
    congr 1
    ext s
    exact hrep.contains_iff

end Grouping

end SolidityDocs
