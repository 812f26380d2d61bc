import SolidityDocs.Command.Docs
import SolidityDocs.Proofs.Files.Tree

/-!
# What a run leaves behind

A run reads two artifacts, makes a document of them, creates the directory of the document and
writes the document.  It can end early at eight points.  At five of them the artifacts are to blame,
and then the file tree is exactly as before.  At the other three the tree may have new directories,
because the way to the directory of the document has been created in part or in whole, but no node
that was there is touched, with one exception: if the document is too large for a file, the file of
the document has lost what it held before.  A run that goes through has changed that one file too.

The document is made of what the artifacts hold before the run.  This matters, since the path of the
document may lead to one of the artifacts.

## Why the tree is passed on by errors

A step ends with a result or an error, and with a tree in either case.  So a step is described by
the pair with which it ends.  An error skips the steps after it, but it does not undo those before
it (`Docs.run_bind_ok`, `Docs.run_bind_error`).  What has been created stays, which is why a failure
can leave directories behind.

* `Docs.run_compose`: composing the document changes nothing.
* `Docs.run_publish_cases`: the four ends of publishing a document.
* `Docs.run_effect`: what a run leaves behind, however it ends.
-/

namespace SolidityDocs

namespace Docs

/-! ## The description -/

/-- The artifacts that a tree has at the paths of the settings make a document. -/
def Composed (s : Settings) (t : FileTree) (d : Logged Document) : Prop :=
  ∃ input output, t.read (joinPath s.cache s.inputFile) = some input ∧
    t.read (joinPath s.cache s.outputFile) = some output ∧
    Document.buildFromTexts input output = .ok d

/-- The path of the document leads to a file with the given bytes, where there was no directory.
Everywhere else, the tree is as before or has a new directory on the way to the directory of the
document. -/
def FileChanged (s : Settings) (t t' : FileTree) (content : List UInt8) : Prop :=
  ∃ target, t'.resolve (joinPath s.dir s.file) = some target ∧
    t'.nodeAt? target = some (.file content) ∧ t.nodeAt? target ≠ some .directory ∧
    ∀ place ≠ target, FileTree.KeptOrCreated t t' s.dir place

/-- What a run leaves behind: a result, and a tree in place of the one before.

The working directory and the bound on files stay.  Without a document there is an error, and the
tree is exactly as before.  If the run goes through, the file of the document holds its text and can
be read, and the statistics of the document are returned.  If it does not go through, the tree is
everywhere as before or has a new directory on the way to the directory of the document, unless the
document has turned out to be too large for its file; then the file holds the beginning of it.
With a document, the run goes through unless the directory cannot be created or the file cannot be
written. -/
structure Effect (s : Settings) (t : FileTree) (result : Except DocsError Written)
    (t' : FileTree) : Prop where
  workingDir : t'.workingDir = t.workingDir
  maxFileSize : t'.maxFileSize = t.maxFileSize
  rejected : (∀ d, ¬ Composed s t d) → (∃ e, result = .error e) ∧ t' = t
  written : ∀ w, result = .ok w → ∃ d, Composed s t d ∧
    w = ⟨joinPath s.dir s.file, d.value.stats⟩ ∧
    t'.read (joinPath s.dir s.file) = some (d.value.render s.indent) ∧
    FileChanged s t t' (textBytes (d.value.render s.indent))
  failed : ∀ e, result = .error e → (∀ place, FileTree.KeptOrCreated t t' s.dir place) ∨
    e = .notWritten (joinPath s.dir s.file) ∧ ∃ d content, Composed s t d ∧
      t.CutShort (textBytes (d.value.render s.indent)) content ∧ FileChanged s t t' content
  succeeds : ∀ d, Composed s t d → (t.createDirs s.dir).1 = true →
    ((t.createDirs s.dir).2.write (joinPath s.dir s.file) (d.value.render s.indent)).1 = true →
    ∃ w, result = .ok w

/-! ## Steps -/

section Steps

variable {ε σ α β : Type} {x : ExceptT ε (StateM σ) α} {f : α → ExceptT ε (StateM σ) β} {t t' : σ}

/-- A result is handed on to the next step, and an error is not; the tree stays as the step has left
it. -/
theorem run_bind (x : ExceptT ε (StateM σ) α) (f : α → ExceptT ε (StateM σ) β) (t : σ) :
    (x >>= f).run t = match x.run t with
      | (.ok a, t') => (f a).run t'
      | (.error e, t') => (.error e, t') := by
  have hrun : (x >>= f).run t = ExceptT.bindCont f (x.run t).1 (x.run t).2 := rfl
  rw [hrun]
  rcases x.run t with ⟨e | a, t'⟩ <;> rfl

theorem run_bind_ok {a : α} (h : x.run t = (.ok a, t')) : (x >>= f).run t = (f a).run t' := by
  rw [run_bind, h]

theorem run_bind_error {e : ε} (h : x.run t = (.error e, t')) :
    (x >>= f).run t = (.error e, t') := by
  rw [run_bind, h]

/-- A question that has to be answered with yes before the run goes on. -/
theorem run_unless (question : StateM σ Bool) (e : ε) (x : ExceptT ε (StateM σ) α) (t : σ) :
    (do
      unless ← question do throw e
      x : ExceptT ε (StateM σ) α).run t =
      if (question t).1 then x.run (question t).2 else (.error e, (question t).2) := by
  have hrun : (do
      unless ← question do throw e
      x : ExceptT ε (StateM σ) α).run t =
      (if (question t).1 then x else throw e : ExceptT ε (StateM σ) α).run (question t).2 := rfl
  rw [hrun]
  split <;> rfl

end Steps

variable (s : Settings) (t : FileTree)

theorem system_isPresent (path : String) :
    FileTree.system.isPresent path t = (t.isPresent path, t) := rfl

theorem system_createDirs (path : String) :
    FileTree.system.createDirs path t = t.createDirs path := rfl

theorem system_write (path content : String) :
    FileTree.system.write path content t = t.write path content := rfl

/-- Reading an artifact gives its text or an error. -/
theorem run_readArtifact (path : String) :
    ∃ r, (readArtifact FileTree.system path).run t = (r, t) ∧
      ∀ text, r = .ok text ↔ t.read path = some text := by
  have hread : (liftM (FileTree.system.read path) :
      ExceptT DocsError (StateM FileTree) (Option String)).run t = (.ok (t.read path), t) := rfl
  unfold readArtifact
  rw [run_unless, system_isPresent]
  cases hpath : t.isPresent path with
  | false =>
    refine ⟨.error (.missing path), rfl, fun text => ⟨nofun, fun h => ?_⟩⟩
    rw [FileTree.isPresent_of_read h] at hpath
    cases hpath
  | true =>
    simp only [if_true]
    rw [run_bind_ok hread]
    cases t.read path with
    | none => exact ⟨.error (.unreadable path), rfl, fun text => ⟨nofun, nofun⟩⟩
    | some text =>
      refine ⟨.ok text, rfl, fun text' => ?_⟩
      rw [Except.ok.injEq, Option.some.injEq]

/-- Composing gives the document of the artifacts or an error, and changes nothing. -/
theorem run_compose :
    ∃ r, (compose FileTree.system s).run t = (r, t) ∧ ∀ d, r = .ok d ↔ Composed s t d := by
  obtain ⟨ri, hri, hi⟩ := run_readArtifact t s.inputPath
  obtain ⟨ro, hro, ho⟩ := run_readArtifact t s.outputPath
  unfold compose
  cases ri with
  | error e =>
    rw [run_bind_error hri]
    refine ⟨.error e, rfl, fun d => ⟨nofun, fun ⟨input, _, hinput, _, _⟩ => ?_⟩⟩
    cases (hi input).mpr hinput
  | ok input =>
    have hinput : t.read (joinPath s.cache s.inputFile) = some input := (hi input).mp rfl
    rw [run_bind_ok hri]
    cases ro with
    | error e =>
      rw [run_bind_error hro]
      refine ⟨.error e, rfl, fun d => ⟨nofun, fun ⟨_, output, _, houtput, _⟩ => ?_⟩⟩
      cases (ho output).mpr houtput
    | ok output =>
      have houtput : t.read (joinPath s.cache s.outputFile) = some output := (ho output).mp rfl
      rw [run_bind_ok hro]
      have hcomposed : ∀ d, Composed s t d ↔ Document.buildFromTexts input output = .ok d := by
        intro d
        unfold Composed
        rw [hinput, houtput]
        simp
      cases hbuild : Document.buildFromTexts input output with
      | error e =>
        refine ⟨.error (.rejected s.cache e), rfl, fun d => ⟨nofun, fun h => ?_⟩⟩
        rw [hcomposed, hbuild] at h
        cases h
      | ok d =>
        refine ⟨.ok d, rfl, fun d' => ?_⟩
        rw [hcomposed, hbuild, Except.ok.injEq, Except.ok.injEq]

variable {s t} in
/-- Publishing ends in four ways: the directory is not there, or the path is not one of a file, or
the file has been set, or it has been set in part. -/
theorem run_publish_cases {created : Bool} {t₁ : FileTree}
    (hcreate : t.createDirs s.dir = (created, t₁)) (d : Document) :
    created = false ∧
      (publish FileTree.system s d).run t = (.error (.noDirectory s.dir), t₁) ∨
    (t₁.write s.documentPath (d.render s.indent)).1 = false ∧
      (publish FileTree.system s d).run t = (.error (.notWritten s.documentPath), t₁) ∨
    (∃ t' target, (publish FileTree.system s d).run t = (.ok ⟨s.documentPath, d.stats⟩, t') ∧
      FileTree.FileSet t₁ t' s.documentPath (textBytes (d.render s.indent)) target) ∨
    ∃ t' target content, (t₁.write s.documentPath (d.render s.indent)).1 = false ∧
      (publish FileTree.system s d).run t = (.error (.notWritten s.documentPath), t') ∧
      t₁.CutShort (textBytes (d.render s.indent)) content ∧
      FileTree.FileSet t₁ t' s.documentPath content target := by
  unfold publish
  rw [run_unless, system_createDirs, hcreate]
  cases created with
  | false => exact .inl ⟨rfl, rfl⟩
  | true =>
    simp only [if_true]
    rw [run_unless, system_write]
    rcases t₁.write_cases s.documentPath (d.render s.indent) with
      h | ⟨t', target, h, hset⟩ | ⟨t', target, content, h, hcut, hset⟩
    · rw [h]
      exact .inr (.inl ⟨rfl, rfl⟩)
    · rw [h]
      exact .inr (.inr (.inl ⟨t', target, rfl, hset⟩))
    · rw [h]
      exact .inr (.inr (.inr ⟨t', target, content, rfl, rfl, hcut, hset⟩))

variable {s t} in
theorem run_of_error {e : DocsError} (h : (compose FileTree.system s).run t = (.error e, t)) :
    (run FileTree.system s).run t = (⟨.error e, []⟩, t) := by
  have hcompose : StateT.run (compose FileTree.system s).run t = (.error e, t) := h
  unfold run
  rw [StateT.run_bind, hcompose]
  rfl

variable {s t} in
theorem run_of_ok {d : Logged Document} (h : (compose FileTree.system s).run t = (.ok d, t)) :
    (run FileTree.system s).run t =
      (⟨((publish FileTree.system s d.value).run t).1, d.events⟩,
        ((publish FileTree.system s d.value).run t).2) := by
  have hcompose : StateT.run (compose FileTree.system s).run t = (.ok d, t) := h
  unfold run
  rw [StateT.run_bind, hcompose]
  rfl

/-- The effect of a run without a document. -/
theorem effect_of_not_composed (h : ∀ d, ¬ Composed s t d) (e : DocsError) :
    Effect s t (.error e) t where
  workingDir := rfl
  maxFileSize := rfl
  rejected _ := ⟨⟨e, rfl⟩, rfl⟩
  written := nofun
  failed _ _ := .inl fun _ => .inl rfl
  succeeds d hd := absurd hd (h d)

variable {s t} in
/-- Setting the file of the document after directories on the way to it have been created. -/
theorem fileChanged_of_fileSet {t₁ t' : FileTree} {content : List UInt8} {target : List String}
    (hkept : ∀ place, FileTree.KeptOrCreated t t₁ s.dir place)
    (hset : FileTree.FileSet t₁ t' s.documentPath content target) :
    FileChanged s t t' content :=
  ⟨target, hset.resolve, hset.node, (hkept target).not_directory_of_fileSet hset,
    fun place hplace => (hkept place).of_fileSet hset hplace⟩

/-- The effect of a run with a document is the effect of publishing it. -/
theorem effect_of_composed {d : Logged Document} (hd : ∀ d', d = d' ↔ Composed s t d') :
    Effect s t ((publish FileTree.system s d.value).run t).1
      ((publish FileTree.system s d.value).run t).2 := by
  obtain ⟨created, t₁, hcreate⟩ : ∃ created t₁, t.createDirs s.dir = (created, t₁) := ⟨_, _, rfl⟩
  have hcomposed := (hd d).mp rfl
  have hkept : ∀ place, FileTree.KeptOrCreated t t₁ s.dir place := by
    intro place
    have h := t.keptOrCreated_createDirs s.dir place
    rwa [hcreate] at h
  have hgrows : FileTree.Grows t t₁ := by
    have h := (t.createDirs_created s.dir).grows
    rwa [hcreate] at h
  have hrejected : ∀ {p : Prop}, (∀ d', ¬ Composed s t d') → p :=
    fun hnone => absurd hcomposed (hnone d)
  -- the artifacts have only one document, so it is the one that could not be written
  have hunwritten : (t₁.write s.documentPath (d.value.render s.indent)).1 = false →
      ∀ d', Composed s t d' →
        ((t.createDirs s.dir).2.write s.documentPath (d'.value.render s.indent)).1 ≠ true := by
    intro hno d' hd' hyes
    rw [← (hd d').mpr hd', hcreate] at hyes
    exact absurd (hyes.symm.trans hno) nofun
  rcases run_publish_cases hcreate d.value with ⟨hno, h⟩ | ⟨hno, h⟩ | ⟨t', target, h, hset⟩ |
    ⟨t', target, content, hno, h, hcut, hset⟩
  · rw [h]
    refine ⟨hgrows.workingDir, hgrows.maxFileSize, hrejected, nofun, fun _ _ => .inl hkept, ?_⟩
    intro _ _ hyes
    rw [hcreate, hno] at hyes
    cases hyes
  · rw [h]
    exact ⟨hgrows.workingDir, hgrows.maxFileSize, hrejected, nofun, fun _ _ => .inl hkept,
      fun d' hd' _ hyes => absurd hyes (hunwritten hno d' hd')⟩
  · rw [h]
    refine ⟨hset.grows.workingDir.trans hgrows.workingDir,
      hset.grows.maxFileSize.trans hgrows.maxFileSize, hrejected, ?_, nofun,
      fun _ _ _ _ => ⟨_, rfl⟩⟩
    intro w hw
    exact ⟨d, hcomposed, (Except.ok.inj hw).symm, hset.read, fileChanged_of_fileSet hkept hset⟩
  · rw [h]
    refine ⟨hset.grows.workingDir.trans hgrows.workingDir,
      hset.grows.maxFileSize.trans hgrows.maxFileSize, hrejected, nofun, ?_,
      fun d' hd' _ hyes => absurd hyes (hunwritten hno d' hd')⟩
    intro e he
    rw [FileTree.CutShort, hgrows.maxFileSize] at hcut
    exact .inr ⟨(Except.error.inj he).symm, d, content, hcomposed, hcut,
      fileChanged_of_fileSet hkept hset⟩

/-- **What a run leaves behind, however it ends.**  Without a document nothing changes.  Otherwise
directories on the way to the document may be new, and no file other than that of the document has
changed.  If the run goes through, the document is where the settings say. -/
theorem run_effect :
    Effect s t ((run FileTree.system s).run t).1.value ((run FileTree.system s).run t).2 := by
  obtain ⟨r, hr, hd⟩ := run_compose s t
  cases r with
  | error e =>
    rw [run_of_error hr]
    exact effect_of_not_composed s t (fun d h => nomatch (hd d).mpr h) e
  | ok d =>
    rw [run_of_ok hr]
    have hdocument : ∀ d', d = d' ↔ Composed s t d' := fun d' => by
      rw [← hd d', Except.ok.injEq]
    exact effect_of_composed s t hdocument

/-- A document outside of the working directory, in directories that are new. -/
example :
    let s : Settings := ⟨"c", "i", "o", "/x/y", "d", 0⟩
    let t : FileTree := .ofList [("c/i", some "\x7b\"sources\":\x7b\"a\":\"\"\x7d\x7d"),
      ("c/o", some "\x7b\"sources\":\x7b\x7d\x7d")]
    ((run FileTree.system s).run t).1.value = .ok ⟨"/x/y/d", ⟨1, 0, 0, 0⟩⟩ := by
  cbv

/-- A document that is too large for a file, in place of another one. -/
example :
    let s : Settings := ⟨"c", "i", "o", "y", "d", 0⟩
    let t : FileTree := .ofList [("c/i", some "\x7b\"sources\":\x7b\"a\":\"\"\x7d\x7d"),
      ("c/o", some "\x7b\"sources\":\x7b\x7d\x7d"), ("y/d", some "old")]
    let t' := ((run FileTree.system s).run { t with maxFileSize := some 2 }).2
    (t.read "y/d", t'.read "y/d", t'.read "c/o") =
      (some "old", some "\x7b\n", some "\x7b\"sources\":\x7b\x7d\x7d") := by
  cbv

end Docs

end SolidityDocs
