import SolidityDocs.Proofs.Document.Report

/-!
# Nothing is left out silently

A document leaves things out: definitions that others replace, definitions with nothing to document,
guards that cannot be shown, and sources of which the input does not know.  Each of them is
accounted for by an event.  This module turns the events of a build around: it selects them by level
or by meaning and says what each selection is, in terms of the two artifacts alone.  The selections
are put together in `Document.Accounts`.

## Why the numbers balance

Two numbers are reported for a kind, and both count definitions.  The collected definitions are the
ones that no later definition replaces (`Section.size_collect_eq_length`), and there is a warning
for each replacement.  The documented definitions are the collected ones with a member of some
category (`Section.size_extract_eq_countP`), and the document has an entry for each of them
(`Document.count_ofSources`).

* `Document.atLevel_warn_ofCompilation`, `Document.atLevel_trace_ofCompilation`: the events of a
  compilation that tell of something lost.
* `Document.length_definitions_build`, `Document.size_collect_build`: the two balances.
* `Document.build_accounts`: the events of a build account for what its document leaves out.
-/

namespace SolidityDocs

open Ast (SourceUnit ContractDefinition)

/-! ## Selecting events -/

namespace Event

/-- The events of a level, in order. -/
def atLevel (l : Level) (es : List Event) : List Event := es.filter fun e => e.level = l

/-- How many definitions of a kind an event reports as collected. -/
def collected? (kind : Kind) : Event → Option Nat
  | .collected k count => if k = kind then some count else none
  | _ => none

/-- How many definitions of a kind an event reports as documented, out of how many collected. -/
def extracted? (kind : Kind) : Event → Option (Nat × Nat)
  | .extracted k documented total => if k = kind then some (documented, total) else none
  | _ => none

/-- The path that an event reports as one of the output alone. -/
def outputOnly? : Event → Option String
  | .outputOnly path => some path
  | _ => none

/-- Whether an event warns about a definition of a kind that replaces another one. -/
def isDuplicate (kind : Kind) : Event → Bool
  | .duplicate _ _ k => k = kind
  | _ => false

variable {l l' : Level} {es : List Event}

theorem atLevel_append (l : Level) (es fs : List Event) :
    atLevel l (es ++ fs) = atLevel l es ++ atLevel l fs :=
  List.filter_append ..

theorem atLevel_flatMap {α : Type} (l : Level) (f : α → List Event) (as : List α) :
    atLevel l (as.flatMap f) = as.flatMap fun a => atLevel l (f a) :=
  List.filter_flatMap ..

theorem atLevel_of_forall (h : ∀ e ∈ es, e.level = l) : atLevel l es = es :=
  List.filter_eq_self.mpr fun e he => decide_eq_true (h e he)

theorem atLevel_of_ne (h : ∀ e ∈ es, e.level = l') (hne : l' ≠ l) : atLevel l es = [] :=
  List.filter_eq_nil_iff.mpr fun e he heq => hne ((h e he).symm.trans (of_decide_eq_true heq))

variable {e : Event} (h : e.level ≠ .debug)

include h in
theorem outputOnly?_eq_none : e.outputOnly? = none := by
  cases e with
  | outputOnly => exact absurd rfl h
  | _ => rfl

include h in
theorem collected?_eq_none (kind : Kind) : e.collected? kind = none := by
  cases e with
  | collected => exact absurd rfl h
  | _ => rfl

include h in
theorem extracted?_eq_none (kind : Kind) : e.extracted? kind = none := by
  cases e with
  | extracted => exact absurd rfl h
  | _ => rfl

end Event

/-! ## The events of each stage -/

namespace Described

theorem eq_of_mem_gaps {path : String} {text : Option String} {ast : Option SourceUnit}
    {e : Event} (h : e ∈ gaps path text ast) : e = .noText path ∨ e = .noAst path := by
  rcases List.mem_append.mp h with h | h
  · split at h
    · exact .inl (List.mem_singleton.mp h)
    · cases h
  · split at h
    · exact .inr (List.mem_singleton.mp h)
    · cases h

theorem eq_of_mem_allGaps {input : OrderedMap String SourceText}
    {output : OrderedMap String OutputSource} {e : Event} (h : e ∈ allGaps input output) :
    ∃ path, e = .noText path ∨ e = .noAst path := by
  obtain ⟨source, -, hsource⟩ := List.mem_flatMap.mp h
  exact ⟨source.1, eq_of_mem_gaps hsource⟩

theorem level_allGaps {input : OrderedMap String SourceText}
    {output : OrderedMap String OutputSource} {e : Event} (h : e ∈ allGaps input output) :
    e.level = .warn := by
  obtain ⟨path, rfl | rfl⟩ := eq_of_mem_allGaps h <;> rfl

theorem level_redefinitions {kind : Kind} {path : String} {ast : Option SourceUnit} {e : Event}
    (h : e ∈ redefinitions kind path ast) : e.level = .warn := by
  obtain ⟨d, -, rfl⟩ := List.mem_map.mp h
  rfl

theorem level_lostGuards {d : ContractDefinition} {e : Event} (h : e ∈ lostGuards d) :
    e.level = .trace := by
  obtain ⟨m, -, he⟩ := List.mem_flatMap.mp h
  cases m with
  | function f =>
    obtain ⟨s, -, hs⟩ := List.mem_filterMap.mp he
    obtain ⟨⟩ := lostGuard?_eq_some_iff.mp hs
    rfl
  | event | stateVariable | modifier | structType | other => cases he

end Described

namespace Section

theorem level_replacements {c : Compilation} {kind : Kind} {e : Event}
    (h : e ∈ replacements c kind) : e.level = .warn := by
  obtain ⟨f, -, hf⟩ := List.mem_flatMap.mp h
  exact Described.level_redefinitions hf

theorem level_losses {c : Compilation} {kind : Kind} {e : Event} (h : e ∈ losses c kind) :
    e.level = .trace := by
  obtain ⟨f, -, hf⟩ := List.mem_flatMap.mp h
  obtain ⟨d, -, hd⟩ := List.mem_flatMap.mp hf
  exact Described.level_lostGuards hd

/-- The steps of the work that are reported for a kind. -/
def progress (c : Compilation) (kind : Kind) : List Event :=
  [.collected kind (Roster.collect c kind).value.size,
    .aggregated kind (Grouping.aggregate (Roster.collect c kind).value).value.size,
    .extracted kind (extract c kind).value.size (Roster.collect c kind).value.size]

variable {c : Compilation} (hc : c.Keyed) (kind : Kind)

include hc in
theorem atLevel_warn_extract :
    Event.atLevel .warn (extract c kind).events = replacements c kind := by
  rw [events_extract hc]
  simp only [Event.atLevel_append, Event.atLevel_of_forall fun _ => level_replacements,
    Event.atLevel_of_ne (fun _ => level_losses) (l := .warn) nofun]
  simp [Event.atLevel, Event.level]

include hc in
theorem atLevel_trace_extract :
    Event.atLevel .trace (extract c kind).events = losses c kind := by
  rw [events_extract hc]
  simp only [Event.atLevel_append, Event.atLevel_of_forall fun _ => level_losses,
    Event.atLevel_of_ne (fun _ => level_replacements) (l := .trace) nofun]
  simp [Event.atLevel, Event.level]

include hc in
/-- A selection that looks for steps of the work. -/
theorem filterMap_extract {β : Type} {p : Event → Option β}
    (hp : ∀ e : Event, e.level ≠ .debug → p e = none) :
    (extract c kind).events.filterMap p = (progress c kind).filterMap p := by
  have hreplacements : (replacements c kind).filterMap p = [] :=
    List.filterMap_eq_nil_iff.mpr fun e he => hp e (by simp [level_replacements he])
  have hlosses : (losses c kind).filterMap p = [] :=
    List.filterMap_eq_nil_iff.mpr fun e he => hp e (by simp [level_losses he])
  rw [events_extract hc]
  simp only [List.filterMap_append, hreplacements, hlosses, List.nil_append, List.append_nil]
  rw [← List.filterMap_append]
  rfl

end Section

namespace Document

theorem eq_of_mem_importReport {f : SourceFile} {e : Event} (h : e ∈ importReport f) :
    ∃ path count, e = .importsResolved path count := by
  unfold importReport at h
  cases hast : f.ast with
  | none =>
    rw [hast] at h
    cases h
  | some u =>
    rw [hast] at h
    exact ⟨_, _, List.mem_singleton.mp h⟩

section Report

variable {c : Compilation} (hc : c.Keyed)

theorem atLevel_importReport {l : Level} (hl : l ≠ .debug) :
    Event.atLevel l (c.toList.flatMap importReport) = [] := by
  have hdebug : ∀ e ∈ c.toList.flatMap importReport, e.level = .debug := by
    intro e he
    obtain ⟨f, -, hf⟩ := List.mem_flatMap.mp he
    obtain ⟨path, count, rfl⟩ := eq_of_mem_importReport hf
    rfl
  exact Event.atLevel_of_ne hdebug hl.symm

include hc in
theorem atLevel_warn_ofCompilation :
    Event.atLevel .warn (ofCompilation c).events =
      Kind.all.flatMap (Section.replacements c) := by
  rw [events_ofCompilation, Event.atLevel_append, Event.atLevel_append, Event.atLevel_flatMap,
    atLevel_importReport (l := .warn) nofun]
  simp only [Section.atLevel_warn_extract hc]
  exact List.append_nil _

include hc in
theorem atLevel_trace_ofCompilation :
    Event.atLevel .trace (ofCompilation c).events = Kind.all.flatMap (Section.losses c) := by
  rw [events_ofCompilation, Event.atLevel_append, Event.atLevel_append, Event.atLevel_flatMap,
    atLevel_importReport (l := .trace) nofun]
  simp only [Section.atLevel_trace_extract hc]
  exact List.append_nil _

include hc in
/-- A selection that looks for steps of the work other than imports. -/
theorem filterMap_ofCompilation {β : Type} {p : Event → Option β}
    (hp : ∀ e : Event, e.level ≠ .debug → p e = none)
    (himports : ∀ path count, p (.importsResolved path count) = none) :
    (ofCompilation c).events.filterMap p =
      Kind.all.flatMap fun kind => (Section.progress c kind).filterMap p := by
  have hnone : (c.toList.flatMap importReport).filterMap p = [] := by
    refine List.filterMap_eq_nil_iff.mpr fun e he => ?_
    obtain ⟨f, -, hf⟩ := List.mem_flatMap.mp he
    obtain ⟨path, count, rfl⟩ := eq_of_mem_importReport hf
    exact himports path count
  rw [events_ofCompilation, List.filterMap_append, List.filterMap_append, hnone,
    List.filterMap_flatMap]
  simp only [Section.filterMap_extract hc _ hp]
  rw [List.filterMap_cons_none (hp _ (by simp [Event.level]))]
  exact List.append_nil _

end Report

end Document

/-! ## Counts -/

/-- Putting a map under a key adds its size, and takes away that of the map that was there. -/
theorem OrderedMap.foldr_size_putEntry {κ ι α : Type} [DecidableEq κ] (k : κ)
    (v : OrderedMap ι α) (es : List (κ × OrderedMap ι α)) :
    ((putEntry k v es).map Prod.snd).foldr (fun m n => m.size + n) 0 +
        ((es.lookup k).getD .empty).size =
      (es.map Prod.snd).foldr (fun m n => m.size + n) 0 + v.size := by
  induction es with
  | nil => exact Nat.add_comm v.size 0
  | cons e es ih =>
    rw [putEntry, lookup_cons_ite]
    by_cases hk : e.1 = k
    · rw [if_pos hk, if_pos hk.symm]
      simp only [List.map_cons, List.foldr_cons, Option.getD_some]
      omega
    · rw [if_neg hk, if_neg (Ne.symm hk)]
      simp only [List.map_cons, List.foldr_cons]
      omega

namespace Section

/-- An entry with a new name makes the section longer by one. -/
theorem size_insert_extend (kind : Kind)
    {files : OrderedMap String (OrderedMap String ContractEntry)}
    {e : String × String × ContractEntry}
    (hnew : e.2.1 ∉ ((files.get? e.1).getD .empty).keys) :
    size ⟨kind, files.insert e.1 (extend e (files.get? e.1))⟩ = size ⟨kind, files⟩ + 1 := by
  have hput := OrderedMap.foldr_size_putEntry e.1 (extend e (files.get? e.1)) files.entries
  have hextend : (extend e (files.get? e.1)).size = ((files.get? e.1).getD .empty).size + 1 := by
    unfold extend
    rw [OrderedMap.size_insert, if_neg hnew]
  have hold : (files.entries.lookup e.1).getD .empty = (files.get? e.1).getD .empty := rfl
  rw [hold, hextend] at hput
  show ((OrderedMap.putEntry e.1 _ files.entries).map Prod.snd).foldr (fun m n => m.size + n) 0 =
    (files.entries.map Prod.snd).foldr (fun m n => m.size + n) 0 + 1
  omega

theorem size_accumulate (kind : Kind) {es : List (String × String × ContractEntry)}
    (hes : (es.map fun e => (e.1, e.2.1)).Nodup)
    {files : OrderedMap String (OrderedMap String ContractEntry)}
    (hnew : ∀ e ∈ es, e.2.1 ∉ ((files.get? e.1).getD .empty).keys) :
    size ⟨kind, files.accumulate (fun e => e.1) extend es⟩ = size ⟨kind, files⟩ + es.length := by
  induction es generalizing files with
  | nil => rfl
  | cons e es ih =>
    rw [List.map_cons, List.nodup_cons] at hes
    have hrest : ∀ e' ∈ es, e'.2.1 ∉
        (((files.insert e.1 (extend e (files.get? e.1))).get? e'.1).getD .empty).keys := by
      intro e' he'
      have hold := hnew e' (List.mem_cons_of_mem _ he')
      rw [OrderedMap.get?_insert]
      by_cases hfile : e'.1 = e.1
      · -- in the same file, the names differ
        have hname : e'.2.1 ≠ e.2.1 := fun hname =>
          hes.1 (List.mem_map.mpr ⟨e', he', Prod.ext hfile hname⟩)
        rw [hfile] at hold
        rw [if_pos hfile, Option.getD_some]
        unfold extend
        rw [OrderedMap.keys_insert]
        split
        · exact hold
        · rw [List.mem_append, List.mem_singleton]
          exact fun h => h.elim hold hname
      · rw [if_neg hfile]
        exact hold
    have hstep := size_insert_extend kind (hnew e (List.mem_cons_self ..))
    have hrun := ih hes.2 hrest
    rw [hstep] at hrun
    rw [List.length_cons, Nat.add_comm es.length 1, ← Nat.add_assoc]
    exact hrun

/-- A section has an entry for each definition of the roster that the grouping has. -/
theorem size_build {r : Roster} (hr : (r.toList.map Collected.key).Nodup) (g : Grouping) :
    (build r g).size = (r.toList.filterMap (entryOf? g)).length := by
  have hkeys : ((r.toList.filterMap (entryOf? g)).map fun e => (e.1, e.2.1)).Sublist
      (r.toList.map Collected.key) := by
    rw [map_key_filterMap_entryOf?]
    exact List.filter_sublist.map _
  have hfiles : build r g = ⟨r.kind, (build r g).files⟩ := rfl
  have hempty : ∀ kind : Kind, size ⟨kind, .empty⟩ = 0 := fun _ => rfl
  rw [hfiles, files_build hr, size_accumulate r.kind (hkeys.nodup hr) (by simp), hempty,
    Nat.zero_add]

/-- The documented definitions are those of the roster with something to document. -/
theorem size_extract (c : Compilation) (kind : Kind) :
    (extract c kind).value.size =
      (Roster.collect c kind).value.toList.countP fun d => Described.isDocumented d.definition := by
  have hr := Roster.nodup_key_collect c kind
  rw [value_extract, size_build hr,
    List.filterMap_congr fun d hd => entryOf?_aggregate hr hd, List.length_filterMap_eq_countP]
  congr 1
  funext d
  cases Described.isDocumented d.definition <;> rfl

end Section

namespace Roster

variable {c : Compilation} (kind : Kind)

theorem length_definitions :
    (definitions c kind).length =
      (c.toList.flatMap fun f => Described.definitions kind f.ast).length := by
  unfold definitions
  rw [List.length_flatMap, List.length_flatMap]
  simp only [Section.inSource_eq_map, List.length_map]

theorem map_definition_collect (hc : c.Keyed) :
    (collect c kind).value.toList.map Collected.definition =
      c.toList.flatMap fun f => Described.survivors kind f.ast := by
  rw [toList_collect_byFile kind hc, List.map_flatMap]
  refine List.flatMap_congr fun f _ => ?_
  rw [List.map_map]
  exact List.map_id _

end Roster

/-- A file has entries for the definitions that are kept and documented. -/
theorem Described.length_entries (lines : LineTable) (ds : List ContractDefinition) :
    (entries lines ds).length = (lasts ContractDefinition.name ds).countP isDocumented := by
  unfold entries lasts
  rw [List.length_filterMap_eq_countP, List.countP_filterMap]
  congr 1
  funext name
  cases ds.findRev? fun c => c.name = name with
  | none => rfl
  | some c => cases h : isDocumented c <;> simp [Option.filter, h]

/-- Warnings about replaced definitions are found among the warnings. -/
theorem Event.countP_isDuplicate (kind : Kind) (es : List Event) :
    es.countP (isDuplicate kind) = (atLevel .warn es).countP (isDuplicate kind) := by
  unfold atLevel
  rw [List.countP_filter]
  congr 1
  funext e
  cases e <;> simp [isDuplicate, level]

namespace Section

theorem countP_replacements (c : Compilation) (kind kind' : Kind) :
    (replacements c kind').countP (Event.isDuplicate kind) =
      if kind' = kind then (replacements c kind').length else 0 := by
  have hkind : ∀ e ∈ replacements c kind', Event.isDuplicate kind e = decide (kind' = kind) := by
    intro e he
    obtain ⟨f, -, hf⟩ := List.mem_flatMap.mp he
    obtain ⟨d, -, rfl⟩ := List.mem_map.mp hf
    rfl
  by_cases h : kind' = kind
  · rw [if_pos h, List.countP_eq_length]
    exact fun e he => (hkind e he).trans (decide_eq_true h)
  · rw [if_neg h, List.countP_eq_zero]
    exact fun e he heq => h (of_decide_eq_true ((hkind e he).symm.trans heq))

variable {c : Compilation} {kind : Kind} (hc : c.Keyed)

include hc in
theorem size_collect_eq_length :
    (Roster.collect c kind).value.size =
      (c.toList.flatMap fun f => Described.survivors kind f.ast).length := by
  rw [← Roster.map_definition_collect kind hc, List.length_map, Roster.length_toList_collect]

include hc in
theorem size_extract_eq_countP :
    (extract c kind).value.size =
      (c.toList.flatMap fun f => Described.survivors kind f.ast).countP
        Described.isDocumented := by
  rw [← Roster.map_definition_collect kind hc, List.countP_map, size_extract]
  rfl

theorem countP_flatMap_replacements (c : Compilation) (kind : Kind) :
    (Kind.all.flatMap (replacements c)).countP (Event.isDuplicate kind) =
      (replacements c kind).length := by
  cases kind <;> simp [Kind.all, countP_replacements]

end Section

namespace Document

/-- The entries of a kind are those of the definitions that are kept and documented. -/
theorem count_ofSources (input : OrderedMap String SourceText)
    (output : OrderedMap String OutputSource) (kind : Kind) :
    (ofCompilation (Compilation.ofSources input output).value).value.count kind =
      (input.keys.flatMap fun path =>
        Described.survivors kind ((output.get? path).bind OutputSource.ast)).countP
          Described.isDocumented := by
  have hpart : ∀ (text : Option String) (ast : Option SourceUnit),
      ((Described.fileEntry text ast).part kind).size =
        (Described.survivors kind ast).countP Described.isDocumented := by
    intro text ast
    cases kind <;> exact Described.length_entries _ _
  unfold count
  rw [files_ofCompilation]
  show ((input.entries.map _).map Prod.snd).foldr _ 0 =
    ((input.entries.map Prod.fst).flatMap _).countP _
  induction input.entries with
  | nil => rfl
  | cons e es ih =>
    simp only [List.map_cons, List.foldr_cons, List.flatMap_cons, List.countP_append, hpart]
    rw [← ih]

/-! ## The account -/

/-- Events account for what the document of two artifacts leaves out.

* `warnings`: the first warnings are about what each file lacks.  Then come, kind by kind and file by
  file, those about the definitions that replace others.
* `outputOnly`: the paths of the output that the input does not have are reported once each.
* `traces`: the guards that are lost are traced, kind by kind, file by file, and in each file in the
  order of the definitions that are kept, of their members and of the statements.
* `counts`: for each kind, two numbers are reported once.  The definitions are as many as the
  collected ones and the warnings together, and the collected ones are as many as the documented
  ones, which are in the document, and those without anything to document together. -/
structure Accounts (input : OrderedMap String SourceText) (output : OrderedMap String OutputSource)
    (d : Document) (events : List Event) : Prop where
  warnings : Event.atLevel .warn events = Described.allGaps input output ++
    [Kind.contract, .interface, .library].flatMap fun kind => input.keys.flatMap fun path =>
      Described.redefinitions kind path ((output.get? path).bind OutputSource.ast)
  outputOnly : events.filterMap Event.outputOnly? =
    output.keys.filter fun path => path ∉ input.keys
  traces : Event.atLevel .trace events =
    [Kind.contract, .interface, .library].flatMap fun kind => input.keys.flatMap fun path =>
      (Described.survivors kind ((output.get? path).bind OutputSource.ast)).flatMap
        Described.lostGuards
  counts : ∀ kind, ∃ collected documented,
    events.filterMap (Event.collected? kind) = [collected] ∧
    events.filterMap (Event.extracted? kind) = [(documented, collected)] ∧
    (input.keys.flatMap fun path =>
      Described.definitions kind ((output.get? path).bind OutputSource.ast)).length =
        collected + events.countP (Event.isDuplicate kind) ∧
    collected = documented + (input.keys.flatMap fun path =>
      Described.survivors kind ((output.get? path).bind OutputSource.ast)).countP
        (fun c => !Described.isDocumented c) ∧
    d.count kind = documented

section Build

variable (input : OrderedMap String SourceText) (output : OrderedMap String OutputSource)

theorem flatMap_toList_ofSources {β : Type} (f : SourceFile → List β) :
    (Compilation.ofSources input output).value.toList.flatMap f =
      input.entries.flatMap fun e => f (Compilation.fileOf output e.1 e.2) := by
  show ((input.entries.map _).map Prod.snd).flatMap f = _
  rw [List.flatMap_map, List.flatMap_map]

theorem flatMap_keys {β : Type} (f : String → List β) :
    input.keys.flatMap f = input.entries.flatMap fun e => f e.1 :=
  List.flatMap_map ..

theorem level_outputOnly {paths : List String} {e : Event} (h : e ∈ paths.map .outputOnly) :
    e.level = .debug := by
  obtain ⟨path, -, rfl⟩ := List.mem_map.mp h
  rfl

theorem atLevel_warn_ofSources :
    Event.atLevel .warn (Compilation.ofSources input output).events =
      Described.allGaps input output := by
  rw [Compilation.events_ofSources, Event.atLevel_append,
    Event.atLevel_of_forall fun _ => Described.level_allGaps,
    Event.atLevel_of_ne (fun _ => level_outputOnly) (l := .warn) nofun, List.append_nil]

theorem atLevel_trace_ofSources :
    Event.atLevel .trace (Compilation.ofSources input output).events = [] := by
  rw [Compilation.events_ofSources, Event.atLevel_append,
    Event.atLevel_of_ne (fun _ => Described.level_allGaps) (l := .trace) nofun,
    Event.atLevel_of_ne (fun _ => level_outputOnly) (l := .trace) nofun, List.append_nil]

/-- A selection that looks for steps of the work finds the paths of the output alone. -/
theorem filterMap_ofSources {β : Type} {p : Event → Option β}
    (hp : ∀ e : Event, e.level ≠ .debug → p e = none) :
    (Compilation.ofSources input output).events.filterMap p =
      (output.keys.filter fun path => path ∉ input.keys).filterMap fun path =>
        p (.outputOnly path) := by
  have hgaps : (Described.allGaps input output).filterMap p = [] :=
    List.filterMap_eq_nil_iff.mpr fun e he => hp e (by simp [Described.level_allGaps he])
  rw [Compilation.events_ofSources, List.filterMap_append, hgaps, List.nil_append,
    List.filterMap_map]
  rfl

/-- The warnings of a build. -/
theorem atLevel_warn_build :
    Event.atLevel .warn (Compilation.ofSources input output >>= ofCompilation).events =
      Described.allGaps input output ++
      Kind.all.flatMap (Section.replacements (Compilation.ofSources input output).value) := by
  rw [Logged.events_bind, Event.atLevel_append, atLevel_warn_ofSources,
    atLevel_warn_ofCompilation (Compilation.keyed_ofSources input output)]

/-- A selection that looks for what is reported about the kinds. -/
theorem filterMap_build {β : Type} {p : Event → Option β}
    (hp : ∀ e : Event, e.level ≠ .debug → p e = none)
    (honly : ∀ path, p (.outputOnly path) = none)
    (himports : ∀ path count, p (.importsResolved path count) = none) :
    (Compilation.ofSources input output >>= ofCompilation).events.filterMap p =
      Kind.all.flatMap fun kind =>
        (Section.progress (Compilation.ofSources input output).value kind).filterMap p := by
  have hnone : (Compilation.ofSources input output).events.filterMap p = [] := by
    rw [filterMap_ofSources input output hp]
    exact List.filterMap_eq_nil_iff.mpr fun path _ => honly path
  rw [Logged.events_bind, List.filterMap_append, hnone, List.nil_append]
  exact filterMap_ofCompilation (Compilation.keyed_ofSources input output) hp himports

/-- The definitions of the files of the input are collected or warned about. -/
theorem length_definitions_build (kind : Kind) :
    (input.keys.flatMap fun path =>
      Described.definitions kind ((output.get? path).bind OutputSource.ast)).length =
      (Roster.collect (Compilation.ofSources input output).value kind).value.size +
        (Compilation.ofSources input output >>= ofCompilation).events.countP
          (Event.isDuplicate kind) := by
  have hc := Compilation.keyed_ofSources input output
  have hgaps : (Described.allGaps input output).countP (Event.isDuplicate kind) = 0 := by
    refine List.countP_eq_zero.mpr fun e he => ?_
    obtain ⟨path, rfl | rfl⟩ := Described.eq_of_mem_allGaps he <;> exact Bool.false_ne_true
  have hwarnings : (Compilation.ofSources input output >>= ofCompilation).events.countP
      (Event.isDuplicate kind) =
        (repeats Collected.key
          (Roster.definitions (Compilation.ofSources input output).value kind)).length := by
    rw [Event.countP_isDuplicate, atLevel_warn_build, List.countP_append, hgaps, Nat.zero_add,
      Section.countP_flatMap_replacements, Section.replacements_eq hc, List.length_map]
  rw [hwarnings, Roster.size_collect, Roster.length_definitions, flatMap_keys,
    flatMap_toList_ofSources]
  rfl

/-- The definitions that are collected are documented or have nothing to document. -/
theorem size_collect_build (kind : Kind) :
    let c := (Compilation.ofSources input output).value
    (Roster.collect c kind).value.size = (Section.extract c kind).value.size +
      (input.keys.flatMap fun path =>
        Described.survivors kind ((output.get? path).bind OutputSource.ast)).countP
          (fun d => !Described.isDocumented d) := by
  intro c
  have hc := Compilation.keyed_ofSources input output
  rw [flatMap_keys, Section.size_collect_eq_length hc, Section.size_extract_eq_countP hc,
    flatMap_toList_ofSources, List.length_eq_countP_add_countP Described.isDocumented]
  simp only [Bool.not_eq_true, Bool.decide_eq_false]
  rfl

/-- **Nothing is left out silently.**  When both artifacts have sources, building succeeds, and its
events account for what the document leaves out.  The guards that are lost are those of statements
that call a guard by its name, but are not the sites of guards. -/
theorem build_accounts :
    (∀ s e, Described.lostGuard? s = some e ↔ Described.LosesGuard s e) ∧
    ∃ log : Logged Document, build ⟨some input⟩ ⟨some output⟩ = .ok log ∧
      Accounts input output log.value log.events := by
  refine ⟨fun s e => Described.lostGuard?_eq_some_iff,
    Compilation.ofSources input output >>= ofCompilation, rfl, ?_⟩
  have hc := Compilation.keyed_ofSources input output
  constructor
  case warnings =>
    rw [atLevel_warn_build]
    congr 1
    refine List.flatMap_congr fun kind _ => ?_
    rw [flatMap_keys]
    exact flatMap_toList_ofSources input output _
  case outputOnly =>
    have hp : ∀ e : Event, e.level ≠ .debug → e.outputOnly? = none :=
      fun _ => Event.outputOnly?_eq_none
    have hkinds : (Kind.all.flatMap fun kind =>
        (Section.progress (Compilation.ofSources input output).value kind).filterMap
          Event.outputOnly?) = [] := rfl
    rw [Logged.events_bind, List.filterMap_append, filterMap_ofSources input output hp,
      filterMap_ofCompilation hc hp fun _ _ => rfl, hkinds, List.append_nil]
    exact List.filterMap_some
  case traces =>
    rw [Logged.events_bind, Event.atLevel_append, atLevel_trace_ofSources,
      atLevel_trace_ofCompilation hc, List.nil_append]
    refine List.flatMap_congr fun kind _ => ?_
    rw [flatMap_keys]
    exact flatMap_toList_ofSources input output _
  case counts =>
    intro kind
    -- the numbers are the sizes of the roster and of the section
    refine ⟨_, _, ?_, ?_, length_definitions_build input output kind,
      size_collect_build input output kind, ?_⟩
    · rw [filterMap_build input output (fun _ h => Event.collected?_eq_none h kind)
        (fun _ => rfl) fun _ _ => rfl]
      cases kind <;> rfl
    · rw [filterMap_build input output (fun _ h => Event.extracted?_eq_none h kind)
        (fun _ => rfl) fun _ _ => rfl]
      cases kind <;> rfl
    · rw [Section.size_extract_eq_countP hc, flatMap_toList_ofSources]
      exact (count_ofSources input output kind).trans (congrArg _ (flatMap_keys input _))

end Build

/-- The events of the example tell of all that its document leaves out. -/
theorem build_accounts_sample :
    Described.LosesGuard (Sample.require "4:2:0" [{}]) (.guardDropped (some "4:2:0")) ∧
    ∃ log : Logged Document, build ⟨some Sample.input⟩ ⟨some Sample.output⟩ = .ok log ∧
      Event.atLevel .warn log.events = [.noText "Math.sol", .noAst "Lost.sol",
        .duplicate "Token.sol" "Token" .contract, .duplicate "Token.sol" "Owned" .contract] ∧
      log.events.filterMap Event.outputOnly? = ["Extra.sol"] ∧
      Event.atLevel .trace log.events = [.guardDropped (some "4:2:0")] ∧
      log.events.filterMap (Event.collected? .contract) = [2] ∧
      log.events.filterMap (Event.extracted? .contract) = [(1, 2)] ∧
      log.value.count .contract = 1 := by
  obtain ⟨hlost, log, hlog, h⟩ := build_accounts Sample.input Sample.output
  have hwarnings : Event.atLevel .warn log.events = [.noText "Math.sol", .noAst "Lost.sol",
      .duplicate "Token.sol" "Token" .contract, .duplicate "Token.sol" "Owned" .contract] :=
    h.warnings.trans (by decide +kernel)
  obtain ⟨collected, documented, hcollected, hextracted, hdefined, hkept, hcount⟩ :=
    h.counts .contract
  rw [Event.countP_isDuplicate, hwarnings] at hdefined
  -- four definitions are collected or warned about, and one of those collected has no members
  have hfour : 4 = collected + 2 := Eq.trans (by decide +kernel) hdefined
  have hone : collected = documented + 1 := hkept.trans (by congr 1)
  obtain ⟨rfl, rfl⟩ : collected = 2 ∧ documented = 1 := by omega
  exact ⟨(hlost _ _).mp rfl, log, hlog, hwarnings, h.outputOnly.trans (by decide +kernel),
    h.traces.trans (by decide +kernel), hcollected, hextracted, hcount⟩

end Document

end SolidityDocs
