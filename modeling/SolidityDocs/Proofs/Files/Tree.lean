import SolidityDocs.Files.Tree

/-!
# What the file operations change

Two operations give a new file tree.  Creating a directory adds directories on the way to it, and
writing sets one file; all other nodes stay as they are.  This holds however an operation ends: if
it turns out that a directory cannot be created, those that have been created on the way are there,
and if it turns out that a text is too large for a file, the file holds its beginning.

## Why a path still leads to the same place

Both operations change the tree in which paths are followed, and a path is followed once more after
them.  A name is followed out of a directory and into a node that is there.  So it is enough that
directories stay directories and that nodes stay, which is `FileTree.Grows`: then every path leads
where it has led before (`FileTree.Grows.follow`).  Writing keeps this up, because it refuses to
replace a directory.

* `FileTree.createAlong_created`: what following names and creating directories changes.
* `FileTree.keptOrCreated_createDirs`: creating a directory adds directories on the way to it.
* `FileTree.write_cases`: writing sets one file, in whole or in part, or it changes nothing.
* `FileTree.FileSet.read`: what has been written can be read.
-/

namespace SolidityDocs

/-- The bytes of a text can be read. -/
theorem textOfBytes?_textBytes (text : String) : textOfBytes? (textBytes text) = some text := by
  have hbytes : (⟨(textBytes text).toArray⟩ : ByteArray) = text.toUTF8 := rfl
  unfold textOfBytes?
  rw [hbytes]
  exact dif_pos text.isValidUTF8

namespace FileTree

variable {t t' t'' : FileTree}

/-! ## Nodes -/

/-- Setting a node changes no other node. -/
theorem nodeAt?_set (t : FileTree) (dir : List String) (name : String) (n : FileNode)
    (names : List String) :
    (t.set (dir ++ [name]) n).nodeAt? names =
      if names = dir ++ [name] then some n else t.nodeAt? names := by
  cases names with
  | nil =>
    rw [if_neg (List.append_ne_nil_of_right_ne_nil dir (List.cons_ne_nil _ _)).symm]
    rfl
  | cons first rest => exact OrderedMap.get?_insert t.nodes (dir ++ [name]) n (first :: rest)

theorem isDirectory_iff {names : List String} :
    t.isDirectory names = true ↔ t.nodeAt? names = some .directory :=
  decide_eq_true_iff

/-! ## Following names -/

theorem follow_nil (t : FileTree) (start : List String) : t.follow start [] = some start := rfl

theorem follow_cons (t : FileTree) (start : List String) (name : String) (names : List String) :
    t.follow start (name :: names) = (t.enter start name).bind fun next => t.follow next names :=
  rfl

theorem follow_concat (t : FileTree) (start names : List String) (name : String) :
    t.follow start (names ++ [name]) = (t.follow start names).bind fun dir => t.enter dir name := by
  induction names generalizing start with
  | nil =>
    rw [List.nil_append, follow_cons, follow_nil, Option.bind_some]
    exact Option.bind_fun_some _
  | cons first names ih =>
    rw [List.cons_append, follow_cons, follow_cons, Option.bind_assoc]
    simp only [ih]

/-- Names are followed out of directories. -/
theorem isDirectory_of_enter {start next : List String} {name : String}
    (h : t.enter start name = some next) : t.isDirectory start = true := by
  unfold enter at h
  split at h
  · cases h
  · next hdir => simpa using hdir

/-- A name that stays where it is. -/
theorem enter_self {start : List String} {name : String} (hdir : t.isDirectory start = true)
    (hname : name = "" ∨ name = ".") : t.enter start name = some start := by
  unfold enter
  rw [hdir, if_neg (by simp), if_pos hname]

/-- The name of a node in a directory. -/
theorem enter_child {start : List String} {name : String} (hdir : t.isDirectory start = true)
    (hname : isFileName name = true) (hnode : (t.nodeAt? (start ++ [name])).isSome = true) :
    t.enter start name = some (start ++ [name]) := by
  unfold isFileName at hname
  simp only [Bool.and_eq_true, decide_eq_true_eq] at hname
  obtain ⟨⟨⟨⟨hempty, hdot⟩, hup⟩, -⟩, -⟩ := hname
  unfold enter
  rw [hdir, if_neg (by simp), if_neg (by simp [hempty, hdot]), if_neg hup, if_pos hnode]

/-- A file that can be read is there. -/
theorem isPresent_of_read {path text : String} (h : t.read path = some text) :
    t.isPresent path = true := by
  unfold read at h
  unfold isPresent
  cases hplace : t.resolve path with
  | none =>
    rw [hplace] at h
    cases h
  | some place => rfl

/-! ## Trees that grow -/

/-- Directories stay directories, and nodes stay.  So do the working directory and the bound on
files. -/
structure Grows (t t' : FileTree) : Prop where
  workingDir : t'.workingDir = t.workingDir
  maxFileSize : t'.maxFileSize = t.maxFileSize
  directory : ∀ names, t.isDirectory names = true → t'.isDirectory names = true
  present : ∀ names, (t.nodeAt? names).isSome = true → (t'.nodeAt? names).isSome = true

namespace Grows

theorem refl (t : FileTree) : Grows t t := ⟨rfl, rfl, fun _ => id, fun _ => id⟩

theorem trans (h : Grows t t') (h' : Grows t' t'') : Grows t t'' where
  workingDir := h'.workingDir.trans h.workingDir
  maxFileSize := h'.maxFileSize.trans h.maxFileSize
  directory names hdir := h'.directory names (h.directory names hdir)
  present names hnode := h'.present names (h.present names hnode)

theorem startOf (h : Grows t t') (path : String) : t'.startOf path = t.startOf path := by
  unfold FileTree.startOf
  rw [h.workingDir]

theorem enter (h : Grows t t') {start next : List String} {name : String}
    (hnext : t.enter start name = some next) : t'.enter start name = some next := by
  have hdir := isDirectory_of_enter hnext
  unfold FileTree.enter at hnext ⊢
  rw [hdir] at hnext
  rw [h.directory start hdir]
  by_cases hstay : name = "" ∨ name = "."
  · simpa [hstay] using hnext
  · by_cases hup : name = ".."
    · simpa [hstay, hup] using hnext
    · by_cases hnode : (t.nodeAt? (start ++ [name])).isSome = true
      · simpa [hstay, hup, hnode, h.present _ hnode] using hnext
      · simp [hstay, hup, hnode] at hnext

/-- Paths lead where they have led before. -/
theorem follow (h : Grows t t') {start place : List String} {names : List String}
    (hplace : t.follow start names = some place) : t'.follow start names = some place := by
  induction names generalizing start with
  | nil => exact hplace
  | cons name names ih =>
    rw [follow_cons] at hplace ⊢
    obtain ⟨next, hnext, hrest⟩ := Option.bind_eq_some_iff.mp hplace
    rw [h.enter hnext]
    exact ih hrest

/-- A node may be set where there is no directory, or to a directory. -/
theorem set {dir : List String} {name : String} {n : FileNode}
    (h : t.isDirectory (dir ++ [name]) = true → n = .directory) :
    Grows t (t.set (dir ++ [name]) n) where
  workingDir := rfl
  maxFileSize := rfl
  directory names hdir := by
    rw [isDirectory_iff, nodeAt?_set]
    split
    · next heq => rw [h (heq ▸ hdir)]
    · exact isDirectory_iff.mp hdir
  present names hnode := by
    rw [nodeAt?_set]
    split
    · rfl
    · exact hnode

end Grows

/-! ## Creating directories -/

/-- A tree that comes from another one by creating directories while names are followed. -/
structure CreatedAlong (t t' : FileTree) (start names : List String) : Prop where
  grows : Grows t t'
  node : ∀ place, t'.nodeAt? place = t.nodeAt? place ∨
    t.nodeAt? place = none ∧ t'.nodeAt? place = some .directory ∧
      ∃ part, part <+: names ∧ t'.follow start part = some place

namespace CreatedAlong

theorem refl (t : FileTree) (start names : List String) : CreatedAlong t t start names :=
  ⟨.refl t, fun _ => .inl rfl⟩

/-- The first name leads on. -/
theorem enter {start next names : List String} {name : String}
    (hnext : t.enter start name = some next) (h : CreatedAlong t t' next names) :
    CreatedAlong t t' start (name :: names) where
  grows := h.grows
  node place := by
    refine (h.node place).imp_right fun ⟨hold, hnew, part, hpart, hfollow⟩ => ?_
    refine ⟨hold, hnew, name :: part, List.cons_prefix_cons.mpr ⟨rfl, hpart⟩, ?_⟩
    rw [follow_cons, h.grows.enter hnext]
    exact hfollow

/-- The directory of the first name is created. -/
theorem create {start names : List String} {name : String} (hdir : t.isDirectory start = true)
    (hnone : t.nodeAt? (start ++ [name]) = none) (hname : isFileName name = true)
    (h : CreatedAlong (t.set (start ++ [name]) .directory) t' (start ++ [name]) names) :
    CreatedAlong t t' start (name :: names) := by
  have hset : Grows t (t.set (start ++ [name]) .directory) := .set fun _ => rfl
  have hthere : (t.set (start ++ [name]) .directory).nodeAt? (start ++ [name]) =
      some .directory := by
    rw [nodeAt?_set, if_pos rfl]
  have hnext : (t.set (start ++ [name]) .directory).enter start name = some (start ++ [name]) :=
    enter_child (hset.directory start hdir) hname (by rw [hthere]; rfl)
  -- seen from the tree with the new directory, the first name leads on
  have hrest := h.enter hnext
  refine ⟨hset.trans h.grows, fun place => ?_⟩
  by_cases hplace : place = start ++ [name]
  · refine .inr ⟨hplace ▸ hnone, ?_, [name], ?_, ?_⟩
    · rw [hplace, ← isDirectory_iff]
      exact h.grows.directory _ (isDirectory_iff.mpr hthere)
    · exact List.cons_prefix_cons.mpr ⟨rfl, List.nil_prefix⟩
    · rw [hplace, follow_cons, h.grows.enter hnext]
      rfl
  · have hold := hrest.node place
    rw [nodeAt?_set, if_neg hplace] at hold
    exact hold

theorem mono {start names names' : List String} (h : CreatedAlong t t' start names)
    (hnames : names <+: names') : CreatedAlong t t' start names' where
  grows := h.grows
  node place := (h.node place).imp_right fun ⟨hold, hnew, part, hpart, hfollow⟩ =>
    ⟨hold, hnew, part, hpart.trans hnames, hfollow⟩

end CreatedAlong

/-- **Only directories on the way are created**, also when a name cannot be followed in the end. -/
theorem createAlong_created (t : FileTree) (start names : List String) :
    CreatedAlong t (t.createAlong start names).2 start names := by
  induction names generalizing t start with
  | nil => exact .refl t start []
  | cons name names ih =>
    unfold createAlong
    cases hnext : t.enter start name with
    | some next => exact (ih t next).enter hnext
    | none =>
      simp only
      split
      · next hnew =>
        simp only [Bool.and_eq_true, Option.isNone_iff_eq_none] at hnew
        exact .create hnew.1.1 hnew.1.2 hnew.2 (ih _ _)
      · exact .refl t start _

/-- A leading part of the names of a path leads to a place. -/
def OnTheWay (t : FileTree) (path : String) (place : List String) : Prop :=
  ∃ part, part <+: pathNames path ∧ t.follow (t.startOf path) part = some place

/-- A place has in a tree what it had in another one, or there is a new directory, on the way to a
path. -/
def KeptOrCreated (t t' : FileTree) (path : String) (place : List String) : Prop :=
  t'.nodeAt? place = t.nodeAt? place ∨
    t.nodeAt? place = none ∧ t'.nodeAt? place = some .directory ∧ t'.OnTheWay path place

theorem isDirectory_of_follow {start place names : List String}
    (h : t.follow start names = some place) (hplace : t.isDirectory place = true) :
    t.isDirectory start = true := by
  cases names with
  | nil => exact Option.some.inj h ▸ hplace
  | cons name names =>
    obtain ⟨next, hnext, -⟩ := Option.bind_eq_some_iff.mp h
    exact isDirectory_of_enter hnext

/-- Names that stay where they are can be added on the way to a directory. -/
theorem follow_of_filter {keep : String → Bool}
    (hkeep : ∀ name, keep name = false → name = "" ∨ name = ".") {start place names : List String}
    (h : t.follow start (names.filter keep) = some place) (hplace : t.isDirectory place = true) :
    t.follow start names = some place := by
  induction names generalizing start with
  | nil => exact h
  | cons name names ih =>
    cases hname : keep name with
    | false =>
      -- the rest of the names starts from here, so this is a directory
      rw [List.filter_cons_of_neg (by rw [hname]; exact Bool.false_ne_true)] at h
      rw [follow_cons, enter_self (isDirectory_of_follow h hplace) (hkeep name hname)]
      exact ih h
    | true =>
      rw [List.filter_cons_of_pos hname, follow_cons] at h
      obtain ⟨next, hnext, hrest⟩ := Option.bind_eq_some_iff.mp h
      rw [follow_cons, hnext]
      exact ih hrest

/-- Creating a directory follows the names of its path, or all of them but the last. -/
theorem createDirs_created (t : FileTree) (path : String) :
    CreatedAlong t (t.createDirs path).2 (t.startOf path) (namesToCreate path).1 := by
  unfold createDirs
  simp only
  split
  · exact (createAlong_created t _ _).mono (List.dropLast_prefix _)
  · exact createAlong_created t _ _

/-- **Creating a directory adds directories on the way to it and changes nothing else.** -/
theorem keptOrCreated_createDirs (t : FileTree) (path : String) (place : List String) :
    KeptOrCreated t (t.createDirs path).2 path place := by
  have h := createDirs_created t path
  refine (h.node place).imp_right fun ⟨hold, hnew, part, hpart, hfollow⟩ => ⟨hold, hnew, ?_⟩
  have hnames : (namesToCreate path).1 =
      (pathNames path).filter fun name => name ≠ "." && name ≠ "" := List.filter_filter
  rw [hnames, List.prefix_filter_iff] at hpart
  obtain ⟨whole, hwhole, rfl⟩ := hpart
  refine ⟨whole, hwhole, ?_⟩
  rw [h.grows.startOf]
  refine follow_of_filter (fun name hname => ?_) hfollow (isDirectory_iff.mpr hnew)
  by_cases hempty : name = ""
  · exact .inl hempty
  · simpa [hempty] using hname

/-! ## Writing -/

/-- A tree that comes from another one by setting the bytes of the file at a place, to which a path
leads. -/
structure FileSet (t t' : FileTree) (path : String) (content : List UInt8)
    (target : List String) : Prop where
  grows : Grows t t'
  resolve : t'.resolve path = some target
  node : t'.nodeAt? target = some (.file content)
  not_directory : t.nodeAt? target ≠ some .directory
  other : ∀ place ≠ target, t'.nodeAt? place = t.nodeAt? place

/-- There are more bytes than a file can hold, and `content` is what it does hold of them. -/
def CutShort (t : FileTree) (bytes content : List UInt8) : Prop :=
  ∃ size, t.maxFileSize = some size ∧ size < bytes.length ∧ content = bytes.take size

/-- The bytes fit, or they are cut short. -/
theorem holds_cases (t : FileTree) (bytes : List UInt8) :
    t.holds bytes = true ∧ t.fill bytes = bytes ∨
      t.holds bytes = false ∧ t.CutShort bytes (t.fill bytes) := by
  unfold holds fill CutShort
  cases t.maxFileSize with
  | none => exact .inl ⟨rfl, rfl⟩
  | some size =>
    rcases Nat.lt_or_ge size bytes.length with hsize | hsize
    · exact .inr ⟨decide_eq_false (Nat.not_le.mpr hsize), size, rfl, hsize, rfl⟩
    · exact .inl ⟨decide_eq_true hsize, List.take_of_length_le hsize⟩

/-- A file can be set in the directory to which all names but the last lead. -/
theorem exists_of_target?_eq_some {path : String} {target : List String}
    (h : t.target? path = some target) :
    ∃ names name dir, pathNames path = names ++ [name] ∧
      t.follow (t.startOf path) names = some dir ∧ isFileName name = true ∧
      t.isDirectory dir = true ∧ t.isDirectory (dir ++ [name]) = false ∧
      target = dir ++ [name] := by
  have hnames : pathNames path =
      (pathNames path).dropLast ++ [(pathNames path).getLast?.getD ""] := by
    rw [List.getLast?_eq_some_getLast (pathNames_ne_nil path), Option.getD_some]
    exact (List.dropLast_concat_getLast _).symm
  obtain ⟨dir, hfollow, htarget⟩ := Option.bind_eq_some_iff.mp h
  obtain ⟨hok, hplace⟩ := Option.ite_none_right_eq_some.mp htarget
  simp only [Bool.and_eq_true, Bool.not_eq_true'] at hok
  exact ⟨_, _, dir, hnames, hfollow, hok.1.1, hok.1.2, hok.2, (Option.some.inj hplace).symm⟩

/-- The path leads to the file that has been set. -/
theorem FileSet.of_target? {path : String} {target : List String}
    (h : t.target? path = some target) (content : List UInt8) :
    FileSet t (t.set target (.file content)) path content target := by
  obtain ⟨names, name, dir, hnames, hfollow, hname, hdir, hfree, rfl⟩ :=
    exists_of_target?_eq_some h
  have hgrows : Grows t (t.set (dir ++ [name]) (.file content)) :=
    .set fun h => absurd (h.symm.trans hfree) nofun
  have hnode : (t.set (dir ++ [name]) (.file content)).nodeAt? (dir ++ [name]) =
      some (.file content) := by
    rw [nodeAt?_set, if_pos rfl]
  have hpath : path ≠ "" := by
    rintro rfl
    have hlast := congrArg List.getLast? hnames
    rw [List.getLast?_concat] at hlast
    rw [← Option.some.inj hlast] at hname
    exact absurd hname (by decide)
  refine ⟨hgrows, ?_, hnode, fun h => ?_, fun place hplace => ?_⟩
  · unfold FileTree.resolve
    rw [if_neg hpath, hgrows.startOf, hnames, follow_concat, hgrows.follow hfollow,
      Option.bind_some]
    exact enter_child (hgrows.directory dir hdir) hname (by rw [hnode]; rfl)
  · exact absurd ((isDirectory_iff.mpr h).symm.trans hfree) nofun
  · rw [nodeAt?_set, if_neg hplace]

/-- **Writing sets one file, as far as it can hold the text, or it changes nothing.**  It changes
nothing if the path is not one of a file; then no text can be written. -/
theorem write_cases (t : FileTree) (path text : String) :
    (∀ text', t.write path text' = (false, t)) ∨
    (∃ t' target, t.write path text = (true, t') ∧ FileSet t t' path (textBytes text) target) ∨
    ∃ t' target content, t.write path text = (false, t') ∧
      t.CutShort (textBytes text) content ∧ FileSet t t' path content target := by
  unfold write
  cases htarget : t.target? path with
  | none => exact .inl fun _ => rfl
  | some target =>
    have hset := FileSet.of_target? htarget (t.fill (textBytes text))
    rcases t.holds_cases (textBytes text) with ⟨hholds, hfill⟩ | ⟨hholds, hcut⟩
    · rw [hfill] at hset
      simp only [hholds, hfill]
      exact .inr (.inl ⟨_, target, rfl, hset⟩)
    · simp only [hholds]
      exact .inr (.inr ⟨_, target, _, rfl, hcut, hset⟩)

/-- What has been written can be read. -/
theorem FileSet.read {path text : String} {target : List String}
    (h : FileSet t t' path (textBytes text) target) : t'.read path = some text := by
  unfold FileTree.read
  rw [h.resolve, Option.bind_some, h.node]
  exact textOfBytes?_textBytes text

/-! ## Creating, then writing -/

namespace KeptOrCreated

variable {dir path : String} {content : List UInt8} {place target : List String}

/-- Writing a file afterwards changes only that file. -/
theorem of_fileSet (h : KeptOrCreated t t' dir place) (hset : FileSet t' t'' path content target)
    (hne : place ≠ target) : KeptOrCreated t t'' dir place := by
  unfold KeptOrCreated
  rw [hset.other place hne]
  refine h.imp_right fun ⟨hold, hnew, part, hpart, hfollow⟩ => ⟨hold, hnew, part, hpart, ?_⟩
  rw [hset.grows.startOf]
  exact hset.grows.follow hfollow

/-- What can be written afterwards was no directory before. -/
theorem not_directory_of_fileSet (h : KeptOrCreated t t' dir target)
    (hset : FileSet t' t'' path content target) : t.nodeAt? target ≠ some .directory := by
  rcases h with hkept | ⟨hnone, -, -⟩
  · rw [← hkept]
    exact hset.not_directory
  · rw [hnone]
    exact nofun

end KeptOrCreated

end FileTree

end SolidityDocs
