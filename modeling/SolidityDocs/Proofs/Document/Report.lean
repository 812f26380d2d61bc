import SolidityDocs.Proofs.Artifact.Redefinition
import SolidityDocs.Proofs.Entry.Guard

/-!
# What a build reports

Documentation passes through stages, and each stage adds its own events: joining the artifacts,
collecting the definitions of a kind, grouping their members, and resolving the imports.  Events
come out of loops inside of loops, some of them run once for every category of members.  This module
says what the events of the whole are, without the loops.

## Why the loops can be left out

What a step of a loop reports does not depend on what has been computed so far, except while
definitions are collected.  Such a loop reports, in order, what its steps report
(`Logged.events_fold_of_forall`).  Of the five passes over the members, only the one for functions
has anything to report, so the guards that are lost are reported once
(`Grouping.events_aggregate`).  The definitions that replace others can be told file by file
(`Roster.repeats_definitions`).

A guard is lost by a statement that calls it by its name but is not the site of a guard
(`Described.LosesGuard`).  Only a call to `require` can do so, and only if nothing is known about
the type of its last argument.

* `Described.lostGuard?_eq_some_iff`: which statements lose a guard.
* `Compilation.events_ofSources`: joining the artifacts.
* `Section.events_extract`: documenting a kind.
* `Document.events_ofCompilation`: a whole compilation.
-/

namespace SolidityDocs

open Ast (SourceUnit ContractDefinition Member Statement Block Expression)

/-! ## The description -/

namespace Described

/-- The warnings about what a file lacks. -/
def gaps (path : String) (text : Option String) (ast : Option SourceUnit) : List Event :=
  (if text.isNone then [.noText path] else []) ++ if ast.isNone then [.noAst path] else []

/-- The warnings about what the files of the input lack, file by file. -/
def allGaps (input : OrderedMap String SourceText) (output : OrderedMap String OutputSource) :
    List Event :=
  input.entries.flatMap fun e =>
    gaps e.1 (text e.2) ((output.get? e.1).bind OutputSource.ast)

/-- The warnings about the definitions of a kind in a file whose name is taken by an earlier one. -/
def redefinitions (kind : Kind) (path : String) (ast : Option SourceUnit) : List Event :=
  (repeats ContractDefinition.name (definitions kind ast)).map fun d =>
    .duplicate path d.name kind

/-- The definitions of a kind in a file that no later one replaces, in order of their names. -/
def survivors (kind : Kind) (ast : Option SourceUnit) : List ContractDefinition :=
  lasts ContractDefinition.name (definitions kind ast)

/-- A statement that calls a guard by its name, but is not the site of one, and the event for it. -/
inductive LosesGuard : Statement → Event → Prop
  | intro {s call callee name} (hs : s.Calls call) (hcallee : call.expression = some callee)
    (hname : callee.name = some name) (hword : HasGuardWord name)
    (hsite : ∀ lines g, ¬ GuardSite lines s g) : LosesGuard s (.guardDropped call.src)

/-- The event for a call to `require` when the type of its last argument is not known. -/
def lostCall? (call : Expression) : Option Event :=
  call.expression.bind fun callee =>
    let type := (callee.argumentTypes.bind List.getLast?).bind Ast.TypeDescriptions.typeString
    if callee.name = some "require" ∧ type = none then some (.guardDropped call.src) else none

/-- The event for a statement that loses a guard. -/
def lostGuard? : Statement → Option Event
  | .expression s => s.expression.bind lostCall?
  | .call e => e.expression.bind lostCall?
  | .emit _ | .other => none

/-- The events for the statements of a member that lose guards. -/
def lostInMember : Member → List Event
  | .function f => (f.body.elim [] Block.statements).filterMap lostGuard?
  | _ => []

/-- The events for the statements of a definition that lose guards. -/
def lostGuards (d : ContractDefinition) : List Event := d.nodes.flatMap lostInMember

end Described

/-! ## Joining -/

/-- What is reported before the documentation starts. -/
theorem Compilation.events_ofSources (input : OrderedMap String SourceText)
    (output : OrderedMap String OutputSource) :
    (ofSources input output).events =
      Described.allGaps input output ++
        (output.keys.filter fun path => path ∉ input.keys).map .outputOnly := by
  have hgaps : ∀ e : String × SourceText, gaps output e.1 e.2 =
      Described.gaps e.1 (Described.text e.2) ((output.get? e.1).bind OutputSource.ast) := by
    intro e
    rw [Described.text_eq]
    rfl
  have hkeys : (fun path => !input.contains path) = fun path => decide (path ∉ input.keys) := by
    funext path
    rw [decide_not]
    congr 1
    rw [Bool.eq_iff_iff, OrderedMap.contains_iff, decide_eq_true_iff]
  unfold ofSources Described.allGaps
  simp only [hgaps, hkeys]

namespace Logged

variable {α β : Type}

/-- A loop whose steps report the same whatever has been computed so far. -/
theorem events_fold_of_forall {f : β → α → Logged β} {report : α → List Event}
    (h : ∀ b a, (f b a).events = report a) (b : β) (as : List α) :
    (fold f b as).events = as.flatMap report := by
  induction as generalizing b with
  | nil => rfl
  | cons a as ih => rw [fold_cons, events_bind, h, ih, List.flatMap_cons]

end Logged

/-! ## Members -/

namespace Described

theorem lostGuard?_of_calls {s : Statement} {call : Expression} (h : s.Calls call) :
    lostGuard? s = lostCall? call := by
  rcases h with h | h <;> exact (congrArg (Option.bind · lostCall?) h).trans rfl

/-- A statement has an event only if it calls something. -/
theorem exists_calls_of_lostGuard? {s : Statement} {e : Event} (h : lostGuard? s = some e) :
    ∃ call, s.Calls call ∧ lostCall? call = some e := by
  cases s with
  | expression s =>
    obtain ⟨call, hcall, he⟩ := Option.bind_eq_some_iff.mp h
    exact ⟨call, .wrapped hcall, he⟩
  | call c =>
    obtain ⟨call, hcall, he⟩ := Option.bind_eq_some_iff.mp h
    exact ⟨call, .bare hcall, he⟩
  | emit | other => cases h

theorem lostCall?_eq_some_iff {call : Expression} {e : Event} :
    lostCall? call = some e ↔ ∃ callee, call.expression = some callee ∧
      callee.name = some "require" ∧ callee.lastArgumentType? = none ∧
      e = .guardDropped call.src := by
  unfold lostCall?
  rw [Option.bind_eq_some_iff]
  refine exists_congr fun callee => and_congr_right fun _ => ?_
  rw [Option.ite_none_right_eq_some, and_assoc, Option.some.injEq]
  exact and_congr_right fun _ => and_congr_right fun _ => eq_comm

/-- **Which statements lose a guard.** -/
theorem lostGuard?_eq_some_iff {s : Statement} {e : Event} :
    lostGuard? s = some e ↔ LosesGuard s e := by
  constructor
  · intro h
    obtain ⟨call, hs, he⟩ := exists_calls_of_lostGuard? h
    obtain ⟨callee, hcallee, hname, htype, rfl⟩ := lostCall?_eq_some_iff.mp he
    refine .intro hs hcallee hname hasGuardWord_guardWord fun lines g hsite => ?_
    have hguard := Statement.guard?_eq_some_iff.mpr hsite
    rw [Statement.guard?_require hs hcallee hname, htype] at hguard
    cases hguard
  · rintro @⟨call, callee, name, hs, hcallee, hname, hword, hsite⟩
    rw [lostGuard?_of_calls hs, lostCall?_eq_some_iff]
    have hnone : ∀ lines, s.guard? lines = none := fun lines =>
      Option.eq_none_iff_forall_ne_some.mpr fun g hg =>
        hsite lines g (Statement.guard?_eq_some_iff.mp hg)
    have hrequire : name = "require" := by
      by_contra hne
      have hguard : s.guard? (.ofText "") = some _ :=
        Statement.guard?_of_ne hs hcallee hname hword hne
      rw [hnone] at hguard
      cases hguard
    subst hrequire
    have hguard : s.guard? (.ofText "") = callee.lastArgumentType?.map _ :=
      Statement.guard?_require hs hcallee hname
    rw [hnone, eq_comm, Option.map_eq_none_iff] at hguard
    exact ⟨callee, hcallee, hname, hguard, rfl⟩

end Described

/-- What is reported about a call is that it loses a guard. -/
theorem events_guardAt (lines : LineTable) (call : Expression) :
    (guardAt lines call).events = (Described.lostCall? call).toList := by
  unfold guardAt calleeName? Described.lostCall?
  cases hcallee : call.expression with
  | none => rfl
  | some callee =>
    cases hname : callee.name with
    | none => simp [hname]
    | some name =>
      by_cases hrequire : name = "require"
      · subst hrequire
        have hguard : isGuardName "require" = true := isGuardName_iff.mpr hasGuardWord_guardWord
        simp only [Option.bind_some, hname, hguard, guardOf?_require hcallee, if_true]
        unfold Expression.lastArgumentType?
        cases (callee.argumentTypes.bind List.getLast?).bind Ast.TypeDescriptions.typeString <;>
          simp
      · simp only [Option.bind_some, hname, guardOf?_of_ne hrequire]
        by_cases hguard : isGuardName name = true <;> simp [hguard, hrequire]

theorem events_guards (lines : LineTable) (body : Block) :
    (guards lines body).events = body.statements.filterMap Described.lostGuard? := by
  have hevents : (guards lines body).events =
      ((body.statements.filterMap Statement.candidate?).flatMap fun call =>
        (guardAt lines call).events) ++ [] := by
    rw [← Logged.events_each]
    rfl
  have hlost : ∀ s : Statement, Described.lostGuard? s = s.candidate?.bind Described.lostCall? := by
    intro s
    cases s <;> rfl
  rw [hevents, List.append_nil, List.filterMap_congr fun s _ => hlost s,
    ← List.filterMap_filterMap]
  simp only [events_guardAt]
  exact (List.filterMap_eq_flatMap_toList _ _).symm

theorem events_functionEntry (lines : LineTable) (f : Ast.FunctionDefinition) :
    (functionEntry lines f).events =
      (f.body.elim [] Block.statements).filterMap Described.lostGuard? := by
  unfold functionEntry
  cases hbody : f.body with
  | none => simp
  | some body => simp [events_guards]

theorem events_declarationOf (lines : LineTable) (m : Member) :
    (declarationOf lines m).events = Described.lostInMember m := by
  cases m with
  | function f =>
    have hevents : (declarationOf lines (.function f)).events =
        (functionEntry lines f).events ++ [] := rfl
    rw [hevents, List.append_nil, events_functionEntry]
    rfl
  | event | stateVariable | modifier | structType | other => rfl

namespace Grouping

theorem events_addMember (k : Category) (c : Collected) (g : Grouping) (m : Member) :
    (addMember k c g m).events =
      if memberCategory? m = some k then Described.lostInMember m else [] := by
  unfold addMember
  by_cases hm : memberCategory? m = some k
  · rw [if_pos hm, if_pos hm, Logged.events_bind, events_declarationOf, Logged.events_pure,
      List.append_nil]
  · rw [if_neg hm, if_neg hm, Logged.events_pure]

theorem events_ofCategory (r : Roster) (k : Category) :
    (ofCategory r k).events =
      r.toList.flatMap fun c => c.definition.nodes.flatMap fun m =>
        if memberCategory? m = some k then Described.lostInMember m else [] :=
  Logged.events_fold_of_forall
    (fun g c => Logged.events_fold_of_forall (events_addMember k c) g c.definition.nodes) _ _

/-- Only functions have guards to lose, so one of the five passes reports all of them. -/
theorem events_aggregate (r : Roster) :
    (aggregate r).events =
      (r.toList.flatMap fun c => Described.lostGuards c.definition) ++
        [.aggregated r.kind (aggregate r).value.size] := by
  have hpasses : (ofCategories r Category.all).events =
      Category.all.flatMap fun k => (ofCategory r k).events :=
    Logged.events_fold_of_forall (fun g k => List.append_nil _) _ _
  have hother : ∀ k ≠ Category.functions, (ofCategory r k).events = [] := by
    intro k hk
    rw [events_ofCategory, List.flatMap_eq_nil_iff]
    intro c _
    rw [List.flatMap_eq_nil_iff]
    intro m _
    cases m with
    | function f => exact if_neg fun h => hk (Option.some.inj h).symm
    | event | stateVariable | modifier | structType | other => exact ite_self _
  have hfunctions : (ofCategory r .functions).events =
      r.toList.flatMap fun c => Described.lostGuards c.definition := by
    rw [events_ofCategory]
    refine List.flatMap_congr fun c _ => List.flatMap_congr fun m _ => ?_
    cases m with
    | function f => exact if_pos rfl
    | event | stateVariable | modifier | structType | other => exact ite_self _
  have hevents : (aggregate r).events = (ofCategories r Category.all).events ++
      [.aggregated r.kind (aggregate r).value.size] := rfl
  rw [hevents, hpasses]
  simp [Category.all, hfunctions, hother]

end Grouping

/-! ## Kinds -/

namespace Section

/-- The warnings about the definitions of a kind that replace others, file by file. -/
def replacements (c : Compilation) (kind : Kind) : List Event :=
  c.toList.flatMap fun f => Described.redefinitions kind f.path f.ast

/-- The guards that are lost in the definitions of a kind that are kept, file by file. -/
def losses (c : Compilation) (kind : Kind) : List Event :=
  c.toList.flatMap fun f =>
    (Described.survivors kind f.ast).flatMap Described.lostGuards

variable {c : Compilation}

theorem replacements_eq (hc : c.Keyed) (kind : Kind) :
    replacements c kind =
      (repeats Collected.key (Roster.definitions c kind)).map (Roster.replacement kind) := by
  rw [Roster.repeats_definitions kind hc, List.map_flatMap]
  refine List.flatMap_congr fun f _ => ?_
  rw [List.map_map]
  rfl

/-- What is reported while a kind is documented. -/
theorem events_extract (hc : c.Keyed) (kind : Kind) :
    (extract c kind).events =
      replacements c kind ++ [.collected kind (Roster.collect c kind).value.size] ++
      losses c kind ++
      [.aggregated kind (Grouping.aggregate (Roster.collect c kind).value).value.size,
        .extracted kind (extract c kind).value.size (Roster.collect c kind).value.size] := by
  have hevents : (extract c kind).events = (Roster.collect c kind).events ++
      ((Grouping.aggregate (Roster.collect c kind).value).events ++
        ([.extracted kind (extract c kind).value.size (Roster.collect c kind).value.size] ++ [])) :=
    rfl
  have hlost : ((Roster.collect c kind).value.toList.flatMap fun d =>
      Described.lostGuards d.definition) = losses c kind := by
    rw [Roster.toList_collect_byFile kind hc, List.flatMap_assoc]
    refine List.flatMap_congr fun f _ => ?_
    rw [List.flatMap_map]
    rfl
  rw [hevents, Roster.events_collect, Grouping.events_aggregate, ← replacements_eq hc, hlost]
  simp only [List.append_assoc, List.append_nil, List.singleton_append]
  rfl

end Section

/-! ## The whole report -/

namespace Document

/-- What is reported about the imports of a file. -/
def importReport (f : SourceFile) : List Event :=
  f.ast.elim [] fun u => [.importsResolved f.path (importsOf u).length]

theorem events_addImports (d : Document) (c : Compilation) :
    (d.addImports c).events = c.toList.flatMap importReport := by
  refine Logged.events_fold_of_forall (fun d f => ?_) d c.toList
  unfold addImportsOf importReport
  cases f.ast <;> rfl

/-- The report of a compilation: kind by kind, then the imports, then the result. -/
theorem events_ofCompilation (c : Compilation) :
    let n := (ofCompilation c).value.stats
    (ofCompilation c).events =
      (Kind.all.flatMap fun kind => (Section.extract c kind).events) ++
        (c.toList.flatMap importReport ++
          [.built n.files n.contracts n.interfaces n.libraries]) := by
  intro n
  let sections := Logged.fold (fun d kind => do
    let s ← Section.extract c kind
    return d.addSection s) (skeleton c) Kind.all
  have hsections : sections.events =
      Kind.all.flatMap fun kind => (Section.extract c kind).events :=
    Logged.events_fold_of_forall (fun d kind => List.append_nil _) _ _
  rw [← hsections, ← events_addImports sections.value]
  rfl

end Document

end SolidityDocs
