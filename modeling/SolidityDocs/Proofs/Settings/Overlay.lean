import Mathlib
import SolidityDocs.Proofs.Command.Docs
import SolidityDocs.Proofs.Toml.Tables
import SolidityDocs.Settings.Load

/-!
# Settings over defaults

A text of settings mentions some of the six settings, and loading it overrides the defaults in these
and in no others.  What a text mentions is described by `Overrides`, and `Overrides.Sets` says that
the entries of a text are such a description, in whatever order and next to whatever else.

Saved settings are the case in which all six are mentioned.  So there is no separate argument for
them: their text is that of the overrides by all their values, and these leave no default standing.

## One setting after the other

The six settings are addressed by `Name`, and settings are seen as the function that gives each name
its value (`Settings.get`).  Taking over an entry, a group or a text means the same thing each time,
only for more names: those that are taken over have the value that overrides them, and the others
stay (`Overrides.Overlays`).  So the entries of a group and the groups of a text are dealt with by
one induction (`Overrides.Overlays.foldlM`).

* `parse_of_setBy`: a text overrides the defaults in what it sets.
* `Overrides.setBy_text`: every choice of settings has a text that sets exactly these.
* `write_eq_text`: the text of settings sets them all.
* `loadFrom_save_and_overlay`: saving and loading on files.
-/

namespace SolidityDocs

open Toml (Value BareKey Flat PlainTable)

namespace Settings

/-! ## Names of settings -/

/-- The groups of settings: where the artifacts are, and how the document is written. -/
inductive Group
  | paths
  | output
  deriving DecidableEq

/-- The settings one by one. -/
inductive Name
  | cache
  | inputFile
  | outputFile
  | dir
  | file
  | indent
  deriving DecidableEq

namespace Group

/-- The key of a group. -/
def key : Group → String
  | paths => "paths"
  | output => "output"

/-- The readers of a group. -/
def settings : Group → List Setting
  | paths => pathSettings
  | output => outputSettings

/-- The settings of a group, in order. -/
def names : Group → List Name
  | paths => [.cache, .inputFile, .outputFile]
  | output => [.dir, .file, .indent]

/-- The key of a group needs no quotes. -/
def bareKey (g : Group) : BareKey where
  name := g.key
  ne_nil := by cases g <;> decide
  isKeyChar := List.all_eq_true.mp (by cases g <;> decide)

end Group

namespace Name

/-- The group of a setting. -/
def group : Name → Group
  | cache => .paths
  | inputFile => .paths
  | outputFile => .paths
  | dir => .output
  | file => .output
  | indent => .output

/-- The key of a setting in its group. -/
def key : Name → String
  | cache => "cache"
  | inputFile => "input_file"
  | outputFile => "output_file"
  | dir => "dir"
  | file => "file"
  | indent => "indent"

/-- The key of a setting needs no quotes. -/
def bareKey (n : Name) : BareKey where
  name := n.key
  ne_nil := by cases n <;> decide
  isKeyChar := List.all_eq_true.mp (by cases n <;> decide)

/-- The values that a setting can have: the indentation is a number below `2 ^ 64`, and everything
else is a string. -/
def Takes : Name → Flat → Prop
  | indent, .number n => n < Nat.pow 2 64
  | indent, .string _ => False
  | _, .string _ => True
  | _, .number _ => False

theorem key_injective {n m : Name} (h : n.key = m.key) : n = m := by
  cases n <;> cases m <;> first | rfl | exact absurd h (by decide)

theorem mem_names_iff {n : Name} {g : Group} : n ∈ g.names ↔ n.group = g := by
  cases n <;> cases g <;> decide

end Name

theorem Group.key_injective {g g' : Group} (h : g.key = g'.key) : g = g' := by
  cases g <;> cases g' <;> first | rfl | exact absurd h (by decide)

/-- The value of a setting. -/
def get (s : Settings) : Name → Flat
  | .cache => .string s.cache
  | .inputFile => .string s.inputFile
  | .outputFile => .string s.outputFile
  | .dir => .string s.dir
  | .file => .string s.file
  | .indent => .number s.indent

theorem ext_get {s s' : Settings} (h : ∀ n, s.get n = s'.get n) : s = s' := by
  obtain ⟨cache, inputFile, outputFile, dir, file, indent⟩ := s
  obtain ⟨cache', inputFile', outputFile', dir', file', indent'⟩ := s'
  obtain rfl := Flat.string.inj (h .cache)
  obtain rfl := Flat.string.inj (h .inputFile)
  obtain rfl := Flat.string.inj (h .outputFile)
  obtain rfl := Flat.string.inj (h .dir)
  obtain rfl := Flat.string.inj (h .file)
  obtain rfl := Flat.number.inj (h .indent)
  rfl

/-! ## Overrides -/

/-- Values for some of the settings. -/
structure Overrides where
  cache : Option String := none
  inputFile : Option String := none
  outputFile : Option String := none
  dir : Option String := none
  file : Option String := none
  indent : Option Nat := none

namespace Overrides

/-- The value for a setting, if there is one. -/
def get? (o : Overrides) : Name → Option Flat
  | .cache => o.cache.map .string
  | .inputFile => o.inputFile.map .string
  | .outputFile => o.outputFile.map .string
  | .dir => o.dir.map .string
  | .file => o.file.map .string
  | .indent => o.indent.map .number

/-- Settings with some of their values replaced. -/
def applyTo (o : Overrides) (s : Settings) : Settings where
  cache := o.cache.getD s.cache
  inputFile := o.inputFile.getD s.inputFile
  outputFile := o.outputFile.getD s.outputFile
  dir := o.dir.getD s.dir
  file := o.file.getD s.file
  indent := o.indent.getD s.indent

/-- The values of settings, all of them. -/
def all (s : Settings) : Overrides where
  cache := s.cache
  inputFile := s.inputFile
  outputFile := s.outputFile
  dir := s.dir
  file := s.file
  indent := s.indent

/-- The number of blanks fits 64 bits. -/
def Fits (o : Overrides) : Prop := ∀ n ∈ o.indent, n < Nat.pow 2 64

/-- The entries of a group set exactly what is to be overridden in this group.  Other entries may
stand among them, with numbers in range. -/
structure SetsGroup (o : Overrides) (g : Group) (entries : List (String × Value)) : Prop where
  value : ∀ n : Name, n.group = g → ∀ v, (n.key, v) ∈ entries ↔ (o.get? n).map Flat.value = some v
  other : ∀ e ∈ entries, (∀ n : Name, n.group = g → n.key ≠ e.1) → e.2.inRange = true

/-- The entries of a text set exactly what is to be overridden: groups are tables, and nothing is to
be overridden in a group that is not there.  Other entries may stand among them, with numbers in
range. -/
structure Sets (o : Overrides) (entries : List (String × Value)) : Prop where
  group : ∀ (g : Group) (v : Value), (g.key, v) ∈ entries → ∃ es, v = .table es ∧ o.SetsGroup g es
  missing : ∀ n : Name, n.group.key ∉ entries.map Prod.fst → o.get? n = none
  other : ∀ e ∈ entries, (∀ g : Group, g.key ≠ e.1) → e.2.inRange = true

/-- A text sets exactly what is to be overridden. -/
def SetBy (o : Overrides) (text : String) : Prop :=
  ∃ entries, Toml.parse text = some entries ∧ o.Sets entries

variable {o : Overrides}

theorem get_applyTo (o : Overrides) (s : Settings) (n : Name) :
    (o.applyTo s).get n = (o.get? n).getD (s.get n) := by
  cases n with
  | cache => exact (Option.getD_map ..).symm
  | inputFile => exact (Option.getD_map ..).symm
  | outputFile => exact (Option.getD_map ..).symm
  | dir => exact (Option.getD_map ..).symm
  | file => exact (Option.getD_map ..).symm
  | indent => exact (Option.getD_map ..).symm

theorem takes_of_get? (ho : o.Fits) {n : Name} {v : Flat} (h : o.get? n = some v) : n.Takes v := by
  cases n with
  | indent =>
    obtain ⟨k, hk, rfl⟩ := Option.map_eq_some_iff.mp h
    exact ho k hk
  | _ =>
    obtain ⟨t, -, rfl⟩ := Option.map_eq_some_iff.mp h
    trivial

/-- Settings differ from others in that some of the overrides have been taken over. -/
def Overlays (o : Overrides) (taken : Name → Prop) (s s' : Settings) : Prop :=
  ∀ n, (taken n → s'.get n = (o.get? n).getD (s.get n)) ∧ (¬taken n → s'.get n = s.get n)

namespace Overlays

variable {taken taken' : Name → Prop} {s s' s'' : Settings}

theorem refl (o : Overrides) (s : Settings) : o.Overlays (fun _ => False) s s :=
  fun _ => ⟨False.elim, fun _ => rfl⟩

theorem trans (h : o.Overlays taken s s') (h' : o.Overlays taken' s' s'') :
    o.Overlays (fun n => taken n ∨ taken' n) s s'' := by
  intro n
  by_cases hn' : taken' n
  · refine ⟨fun _ => ?_, fun hn => absurd (.inr hn') hn⟩
    rw [(h' n).1 hn']
    by_cases hn : taken n
    · -- Taking a value over twice is the same as once.
      rw [(h n).1 hn]
      cases o.get? n <;> rfl
    · rw [(h n).2 hn]
  · rw [(h' n).2 hn']
    exact ⟨fun hn => (h n).1 (hn.resolve_right hn'), fun hn => (h n).2 fun hn' => hn (.inl hn')⟩

/-- Names without a value may count as taken over. -/
theorem mono (h : o.Overlays taken s s') (hsub : ∀ n, taken n → taken' n)
    (hnone : ∀ n, taken' n → ¬taken n → o.get? n = none) : o.Overlays taken' s s' := by
  refine fun n => ⟨fun hn' => ?_, fun hn' => (h n).2 fun hn => hn' (hsub n hn)⟩
  by_cases hn : taken n
  · exact (h n).1 hn
  · rw [(h n).2 hn, hnone n hn' hn]
    rfl

/-- A run takes over what its steps take over. -/
theorem foldlM {ε : Type} {step : Settings → ε → Option Settings} {takes : ε → Name → Prop}
    {es : List ε} (h : ∀ e ∈ es, ∀ s, ∃ s', step s e = some s' ∧ o.Overlays (takes e) s s')
    (s : Settings) :
    ∃ s', es.foldlM step s = some s' ∧ o.Overlays (fun n => ∃ e ∈ es, takes e n) s s' := by
  induction es generalizing s with
  | nil => exact ⟨s, rfl, (refl o s).mono (fun _ => False.elim) (by simp)⟩
  | cons e es ih =>
    obtain ⟨s₁, hstep, hs₁⟩ := h e (List.mem_cons_self ..) s
    obtain ⟨s', hrun, hs'⟩ := ih (fun e' he' => h e' (List.mem_cons_of_mem _ he')) s₁
    refine ⟨s', ?_, (hs₁.trans hs').mono (by simp) ?_⟩
    · rw [List.foldlM_cons, hstep]
      exact hrun
    · intro n hn hnot
      simp only [List.exists_mem_cons_iff] at hn
      exact absurd hn hnot

/-- With all overrides taken over, nothing is left open. -/
theorem eq_applyTo (h : o.Overlays (fun _ => True) s s') : s' = o.applyTo s :=
  ext_get fun n => ((h n).1 trivial).trans (o.get_applyTo s n).symm

end Overlays

end Overrides

/-! ## Taking over entries -/

/-- An entry with the key of a setting changes this setting. -/
theorem setEntry_key (n : Name) {v : Flat} (hv : n.Takes v) (s : Settings) :
    ∃ s', setEntry n.group.settings s (n.key, v.value) = some s' ∧
      ∀ m, s'.get m = if m = n then v else s.get m := by
  cases v with
  | string t =>
    cases n with
    | cache => exact ⟨{ s with cache := t }, rfl, fun m => by cases m <;> rfl⟩
    | inputFile => exact ⟨{ s with inputFile := t }, rfl, fun m => by cases m <;> rfl⟩
    | outputFile => exact ⟨{ s with outputFile := t }, rfl, fun m => by cases m <;> rfl⟩
    | dir => exact ⟨{ s with dir := t }, rfl, fun m => by cases m <;> rfl⟩
    | file => exact ⟨{ s with file := t }, rfl, fun m => by cases m <;> rfl⟩
    | indent => exact hv.elim
  | number k =>
    cases n with
    | indent => exact ⟨{ s with indent := k }, if_pos hv, fun m => by cases m <;> rfl⟩
    | _ => exact hv.elim

/-- An entry with another key changes nothing. -/
theorem setEntry_other {g : Group} {e : String × Value}
    (hkey : ∀ n : Name, n.group = g → n.key ≠ e.1) (hrange : e.2.inRange = true) (s : Settings) :
    setEntry g.settings s e = some s := by
  have hnone : (g.settings.find? fun x => x.key = e.1) = none := by
    rw [List.find?_eq_none]
    cases g with
    | paths =>
      have hcache := hkey .cache rfl
      have hinput := hkey .inputFile rfl
      have houtput := hkey .outputFile rfl
      simpa [Group.settings, pathSettings, textSetting] using ⟨hcache, hinput, houtput⟩
    | output =>
      have hdir := hkey .dir rfl
      have hfile := hkey .file rfl
      have hindent := hkey .indent rfl
      simpa [Group.settings, outputSettings, textSetting, numberSetting] using
        ⟨hdir, hfile, hindent⟩
  rw [setEntry, hnone]
  exact if_pos hrange

theorem setTop_key (g : Group) (v : Value) (s : Settings) :
    setTop s (g.key, v) = setGroup g.settings s v := by
  cases g <;> rfl

theorem setTop_other {e : String × Value} (hkey : ∀ g : Group, g.key ≠ e.1)
    (hrange : e.2.inRange = true) (s : Settings) : setTop s e = some s := by
  have hpaths : e.1 ≠ "paths" := (hkey .paths).symm
  have houtput : e.1 ≠ "output" := (hkey .output).symm
  rw [setTop, if_neg hpaths, if_neg houtput, if_pos hrange]

/-! ## Taking over texts -/

variable {o : Overrides}

theorem overlays_setEntry (ho : o.Fits) {g : Group} {es : List (String × Value)}
    (hes : o.SetsGroup g es) {e : String × Value} (he : e ∈ es) (s : Settings) :
    ∃ s', setEntry g.settings s e = some s' ∧
      o.Overlays (fun n => n.group = g ∧ n.key = e.1) s s' := by
  by_cases hkey : ∃ n : Name, n.group = g ∧ n.key = e.1
  · obtain ⟨n, rfl, hn⟩ := hkey
    obtain ⟨v, hv, hev⟩ := Option.map_eq_some_iff.mp ((hes.value n rfl e.2).mp (by rwa [hn]))
    obtain ⟨s', hstep, hs'⟩ := setEntry_key n (Overrides.takes_of_get? ho hv) s
    rw [hn, hev] at hstep
    refine ⟨s', hstep, fun m => ⟨fun hm => ?_, fun hm => ?_⟩⟩
    · obtain rfl := Name.key_injective (hm.2.trans hn.symm)
      rw [hs', if_pos rfl, hv]
      rfl
    · rw [hs', if_neg]
      rintro rfl
      exact hm ⟨rfl, hn⟩
  · have hother : ∀ n : Name, n.group = g → n.key ≠ e.1 := fun n hn h => hkey ⟨n, hn, h⟩
    exact ⟨s, setEntry_other hother (hes.other e he hother) s,
      (Overrides.Overlays.refl o s).mono (fun _ => False.elim) fun n hn _ => absurd ⟨n, hn⟩ hkey⟩

/-- A group takes over what is to be overridden in it. -/
theorem overlays_setGroup (ho : o.Fits) {g : Group} {es : List (String × Value)}
    (hes : o.SetsGroup g es) (s : Settings) :
    ∃ s', setGroup g.settings s (.table es) = some s' ∧
      o.Overlays (fun n => n.group = g) s s' := by
  obtain ⟨s', hrun, hs'⟩ := Overrides.Overlays.foldlM
    (fun e he s => overlays_setEntry ho hes he s) s
  refine ⟨s', hrun, hs'.mono ?_ fun n hn hnot => ?_⟩
  · rintro n ⟨e, -, hn, -⟩
    exact hn
  · -- A setting that the group does not mention is not overridden.
    by_contra hsome
    obtain ⟨v, hv⟩ := Option.ne_none_iff_exists'.mp hsome
    have hmem : (n.key, v.value) ∈ es := (hes.value n hn v.value).mpr (by rw [hv]; rfl)
    exact hnot ⟨_, hmem, hn, rfl⟩

theorem overlays_setTop (ho : o.Fits) {entries : List (String × Value)} (hsets : o.Sets entries)
    {e : String × Value} (he : e ∈ entries) (s : Settings) :
    ∃ s', setTop s e = some s' ∧ o.Overlays (fun n => n.group.key = e.1) s s' := by
  by_cases hkey : ∃ g : Group, g.key = e.1
  · obtain ⟨g, hg⟩ := hkey
    obtain ⟨es, hv, hes⟩ := hsets.group g e.2 (by rwa [hg])
    obtain ⟨s', hstep, hs'⟩ := overlays_setGroup ho hes s
    rw [← hv, ← setTop_key, hg] at hstep
    refine ⟨s', hstep, hs'.mono ?_ fun n hn hnot => ?_⟩
    · rintro n rfl
      exact hg
    · exact absurd (Group.key_injective (hn.trans hg.symm)) hnot
  · have hother : ∀ g : Group, g.key ≠ e.1 := fun g h => hkey ⟨g, h⟩
    exact ⟨s, setTop_other hother (hsets.other e he hother) s,
      (Overrides.Overlays.refl o s).mono (fun _ => False.elim) fun n hn _ => absurd ⟨_, hn⟩ hkey⟩

/-- **A text overrides the defaults in what it sets.** -/
theorem parse_of_setBy (ho : o.Fits) {text : String} (h : o.SetBy text) :
    Settings.parse text = some (o.applyTo {}) := by
  obtain ⟨entries, hread, hsets⟩ := h
  obtain ⟨s, hrun, hs⟩ := Overrides.Overlays.foldlM
    (fun e he s => overlays_setTop ho hsets he s) {}
  have hall : o.Overlays (fun _ => True) {} s := by
    refine hs.mono (fun _ _ => trivial) fun n _ hnot => hsets.missing n fun hmem => hnot ?_
    obtain ⟨e, he, hkey⟩ := List.mem_map.mp hmem
    exact ⟨e, he, hkey.symm⟩
  rw [Settings.parse, hread]
  exact hrun.trans (congrArg some hall.eq_applyTo)

/-! ## Texts of overrides -/

namespace Overrides

/-- The table of a group, with the settings that are to be overridden. -/
def table (o : Overrides) (g : Group) : PlainTable where
  name := g.bareKey
  entries := g.names.filterMap fun n => (o.get? n).map fun v => (n.bareKey, v)
  nodup_keys := by
    have hkeys : (g.names.map Name.key).Nodup := by cases g <;> decide
    refine List.Nodup.sublist ?_ hkeys
    induction g.names with
    | nil => exact List.Sublist.slnil
    | cons n names ih =>
      cases hn : o.get? n with
      | none =>
        rw [List.filterMap_cons_none (by rw [hn]; rfl)]
        exact ih.cons _
      | some v =>
        rw [List.filterMap_cons_some (by rw [hn]; rfl)]
        exact ih.cons_cons _

/-- The text of overrides: the two tables with an empty line in between. -/
def text (o : Overrides) : String :=
  String.ofList (Toml.linesText ((o.table .paths).lines ++ .blank :: (o.table .output).lines))

theorem parse_text (o : Overrides) :
    Toml.parse o.text = some [(o.table .paths).value, (o.table .output).value] := by
  have hlines : ((o.table .paths).lines ++ .blank :: (o.table .output).lines).filterMap
      Toml.Line.statement? =
      ([o.table .paths, o.table .output].flatMap PlainTable.lines).filterMap
        Toml.Line.statement? := by
    rw [List.filterMap_append, List.filterMap_cons_none rfl]
    simp
  have hnames : ([o.table .paths, o.table .output].map fun t => t.name.name).Nodup := by
    show ["paths", "output"].Nodup
    decide
  exact Toml.parse_linesText hlines hnames

theorem exists_of_mem_entries {o : Overrides} {g : Group} {e : BareKey × Flat}
    (he : e ∈ (o.table g).entries) :
    ∃ n : Name, n.group = g ∧ e.1 = n.bareKey ∧ o.get? n = some e.2 := by
  obtain ⟨n, hn, hne⟩ := List.mem_filterMap.mp he
  obtain ⟨v, hv, rfl⟩ := Option.map_eq_some_iff.mp hne
  exact ⟨n, Name.mem_names_iff.mp hn, rfl, hv⟩

theorem mem_entries {o : Overrides} {n : Name} {v : Flat} (hv : o.get? n = some v) :
    (n.bareKey, v) ∈ (o.table n.group).entries :=
  List.mem_filterMap.mpr ⟨n, Name.mem_names_iff.mpr rfl, by rw [hv]; rfl⟩

theorem setsGroup_table (o : Overrides) (g : Group) :
    o.SetsGroup g ((o.table g).entries.map fun e => (e.1.name, e.2.value)) where
  value n hn v := by
    subst hn
    constructor
    · intro hmem
      obtain ⟨e, he, heq⟩ := List.mem_map.mp hmem
      obtain ⟨m, -, hm, hget⟩ := exists_of_mem_entries he
      obtain ⟨hkey, rfl⟩ := Prod.mk.inj heq
      rw [hm] at hkey
      obtain rfl := Name.key_injective hkey
      rw [hget]
      rfl
    · intro hget
      obtain ⟨f, hf, rfl⟩ := Option.map_eq_some_iff.mp hget
      exact List.mem_map.mpr ⟨_, mem_entries hf, rfl⟩
  other e he hkey := by
    obtain ⟨entry, hentry, rfl⟩ := List.mem_map.mp he
    obtain ⟨n, hn, hne, -⟩ := exists_of_mem_entries hentry
    exact absurd (congrArg BareKey.name hne).symm (hkey n hn)

/-- **Every choice of settings has a text that sets exactly these.** -/
theorem setBy_text (o : Overrides) : o.SetBy o.text := by
  have hmem : ∀ e, e ∈ [(o.table .paths).value, (o.table .output).value] ↔
      ∃ g, e = (o.table g).value := by
    intro e
    constructor
    · intro he
      rcases List.mem_pair.mp he with rfl | rfl
      · exact ⟨.paths, rfl⟩
      · exact ⟨.output, rfl⟩
    · rintro ⟨g, rfl⟩
      cases g <;> simp
  refine ⟨_, o.parse_text, ?_, ?_, ?_⟩
  · intro g v hv
    obtain ⟨g', hg'⟩ := (hmem _).mp hv
    obtain ⟨hkey, rfl⟩ := Prod.mk.inj hg'
    obtain rfl := Group.key_injective hkey
    exact ⟨_, rfl, o.setsGroup_table g⟩
  · intro n hn
    exact absurd (List.mem_map_of_mem ((hmem _).mpr ⟨n.group, rfl⟩)) hn
  · intro e he hkey
    obtain ⟨g, rfl⟩ := (hmem e).mp he
    exact absurd rfl (hkey g)

end Overrides

/-! ## Saved settings -/

/-- The text of settings sets them all. -/
theorem write_eq_text {s : Settings} (hs : s.indent < Nat.pow 2 63) :
    s.write = some (Overrides.all s).text := by
  rw [write, if_pos hs]
  refine congrArg some (String.toList_inj.mp ?_)
  simp [line, Overrides.text, Overrides.table, Overrides.all, Overrides.get?, Group.names,
    Group.bareKey, Group.key, Name.bareKey, Name.key, PlainTable.lines, Toml.linesText,
    Toml.Line.text, Flat.text]

theorem fits_all {s : Settings} (hs : s.indent < Nat.pow 2 63) : (Overrides.all s).Fits := by
  rintro n ⟨⟩
  exact Nat.lt_trans hs (by decide)

/-- **Written settings are read as they are.** -/
theorem parse_text_all {s : Settings} (hs : s.indent < Nat.pow 2 63) :
    Settings.parse (Overrides.all s).text = some s :=
  parse_of_setBy (fits_all hs) (Overrides.setBy_text _)

/-! ## Files -/

theorem run_loadFrom {path text : String} {t : FileTree} {s : Settings}
    (hread : t.read path = some text) (hparse : Settings.parse text = some s) :
    (loadFrom FileTree.system path).run t = (.ok s, t) := by
  have hrun : (liftM (FileTree.system.read path) :
      ExceptT SettingsError (StateM FileTree) (Option String)).run t = (.ok (some text), t) := by
    rw [← hread]
    rfl
  unfold loadFrom
  rw [Docs.run_bind_ok hrun]
  simp only [hparse]
  rfl

theorem run_save {s : Settings} {text : String} (hwrite : s.write = some text) (path : String)
    (t : FileTree) :
    (s.save FileTree.system path).run t =
      (if (t.write path text).1 then .ok () else .error (.notSaved path),
        (t.write path text).2) := by
  unfold save
  rw [hwrite]
  show (if (t.write path text).1 then pure () else throw (.notSaved path) :
    ExceptT SettingsError (StateM FileTree) Unit).run (t.write path text).2 = _
  split <;> rfl

/-- **Saved settings are loaded as they are, and a text that sets some of the settings is loaded as
the defaults with exactly these replaced.**  Saving fails only where no file at all can be written,
and then it changes nothing, or where files are too small for the text, and then it changes one file
only. -/
theorem loadFrom_save_and_overlay (path : String) :
    (∀ (s : Settings) (t : FileTree), s.indent < Nat.pow 2 63 →
      (∃ t', (s.save FileTree.system path).run t = (.ok (), t') ∧
        (loadFrom FileTree.system path).run t' = (.ok s, t')) ∨
      ((s.save FileTree.system path).run t = (.error (.notSaved path), t) ∧
        ∀ text, t.write path text = (false, t)) ∨
      ∃ t' text content target,
        (s.save FileTree.system path).run t = (.error (.notSaved path), t') ∧
        s.write = some text ∧ t.CutShort (textBytes text) content ∧
        FileTree.FileSet t t' path content target) ∧
    (∀ (o : Overrides) (t : FileTree) (text : String), o.Fits → o.SetBy text →
      t.read path = some text →
      (loadFrom FileTree.system path).run t = (.ok (o.applyTo {}), t)) ∧
    ∀ o : Overrides, o.SetBy o.text := by
  refine ⟨fun s t hs => ?_, fun o t text ho htext hread => ?_, Overrides.setBy_text⟩
  · have hsave := run_save (write_eq_text hs) path t
    rcases t.write_cases path (Overrides.all s).text with
      hfail | ⟨t', target, hok, hset⟩ | ⟨t', target, content, hfail, hcut, hset⟩
    · rw [hfail] at hsave
      exact .inr (.inl ⟨hsave, hfail⟩)
    · rw [hok] at hsave
      exact .inl ⟨t', hsave, run_loadFrom hset.read (parse_text_all hs)⟩
    · rw [hfail] at hsave
      exact .inr (.inr ⟨t', _, content, target, hsave, write_eq_text hs, hcut, hset⟩)
  · exact run_loadFrom hread (parse_of_setBy ho htext)

/-- A directory whose name has a quote, a backslash, a line break and a control character is saved
and loaded next to the largest indentation, and two settings are loaded over the defaults. -/
theorem loadFrom_save_and_overlay_escaped :
    (∃ t', (save FileTree.system { cache := "a\"b\\c\nd\x07", indent := 2 ^ 63 - 1 }
        "astdoc.toml").run FileTree.empty = (.ok (), t') ∧
      (loadFrom FileTree.system "astdoc.toml").run t' =
        (.ok { cache := "a\"b\\c\nd\x07", indent := 2 ^ 63 - 1 }, t')) ∧
    ∃ t : FileTree,
      t.read "astdoc.toml" = some "[paths]\ncache = \"build\"\n\n[output]\nindent = 2\n" ∧
      (loadFrom FileTree.system "astdoc.toml").run t =
        (.ok { cache := "build", indent := 2 }, t) := by
  obtain ⟨hsave, hload, htext⟩ := loadFrom_save_and_overlay "astdoc.toml"
  have hwrite : (FileTree.empty.write "astdoc.toml" "").1 = true := by decide +kernel
  constructor
  · rcases hsave { cache := "a\"b\\c\nd\x07", indent := 2 ^ 63 - 1 } FileTree.empty (by decide) with
      hok | ⟨-, hno⟩ | ⟨_, _, _, _, -, -, hcut, -⟩
    · exact hok
    · rw [hno ""] at hwrite
      cases hwrite
    · obtain ⟨size, hsize, -⟩ := hcut
      cases hsize
  · have hset := htext { cache := some "build", indent := some 2 }
    rcases FileTree.empty.write_cases "astdoc.toml"
        "[paths]\ncache = \"build\"\n\n[output]\nindent = 2\n" with
      hfail | ⟨t, _, -, hfile⟩ | ⟨_, _, _, -, ⟨size, hsize, -⟩, -⟩
    · rw [hfail ""] at hwrite
      cases hwrite
    · rw [show Overrides.text { cache := some "build", indent := some 2 } =
        "[paths]\ncache = \"build\"\n\n[output]\nindent = 2\n" by decide +kernel] at hset
      exact ⟨t, hfile.read, hload _ t _ (by rintro n ⟨⟩; decide) hset hfile.read⟩
    · cases hsize

end Settings

end SolidityDocs
