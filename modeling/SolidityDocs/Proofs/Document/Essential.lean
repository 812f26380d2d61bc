import Mathlib
import SolidityDocs.Proofs.Document.Content

/-!
# What a document depends on

Nodes of other types are kept in a syntax tree without their fields, and nothing is ever made of
them.  The essential part of a syntax tree is what remains when they are dropped: among the
statements of a body, among the members of a contract, and at the top level of a file.  This file
proves that the document of two artifacts depends on the essential part of the output only.

The proof goes from the inside out.  Each list of nodes is read by a `filterMap` that gives nothing
for other nodes, so it may as well be applied after they are dropped.

Main statement: `Document.byFile_essential`.
-/

namespace SolidityDocs

/-! ## The essential part -/

namespace Ast

/-- The statement, unless it is of another type. -/
def Statement.essential? : Statement → Option Statement
  | .other => none
  | s => some s

/-- The block without statements of other types. -/
def Block.essential (b : Block) : Block :=
  { b with statements := b.statements.filterMap Statement.essential? }

/-- The function with the essential part of its body. -/
def FunctionDefinition.essential (f : FunctionDefinition) : FunctionDefinition :=
  { f with body := f.body.map Block.essential }

/-- The essential part of a member, unless it is of another type. -/
def Member.essential? : Member → Option Member
  | .other => none
  | .function f => some (.function f.essential)
  | m => some m

/-- The contract with the essential parts of its members. -/
def ContractDefinition.essential (c : ContractDefinition) : ContractDefinition :=
  { c with nodes := c.nodes.filterMap Member.essential? }

/-- The essential part of a node, unless it is of another type. -/
def TopLevel.essential? : TopLevel → Option TopLevel
  | .other => none
  | .contract c => some (.contract c.essential)
  | n => some n

/-- The syntax tree with the essential parts of its nodes. -/
def SourceUnit.essential (u : SourceUnit) : SourceUnit :=
  { u with nodes := u.nodes.filterMap TopLevel.essential? }

end Ast

/-- The source with the essential part of its syntax tree. -/
def OutputSource.essential (s : OutputSource) : OutputSource :=
  { s with ast := s.ast.map Ast.SourceUnit.essential }

/-- The output with the essential parts of its sources. -/
def CompilerOutput.essential (o : CompilerOutput) : CompilerOutput :=
  ⟨o.sources.map (OrderedMap.mapValues fun _ => OutputSource.essential)⟩

/-! ## Entries -/

open Ast (FunctionDefinition ContractDefinition SourceUnit)

theorem guards_essential (lines : LineTable) (b : Ast.Block) :
    guards lines b.essential = guards lines b := by
  have hstatements : b.essential.statements.filterMap Ast.Statement.candidate? =
      b.statements.filterMap Ast.Statement.candidate? := by
    rw [Ast.Block.essential, List.filterMap_filterMap]
    refine List.filterMap_congr fun s _ => ?_
    cases s <;> rfl
  unfold guards
  rw [hstatements]

theorem emittedEvents_essential (b : Ast.Block) : emittedEvents b.essential = emittedEvents b := by
  unfold emittedEvents Ast.Block.essential
  rw [List.filterMap_filterMap]
  refine List.filterMap_congr fun s _ => ?_
  cases s <;> rfl

theorem functionEntry_essential (lines : LineTable) (f : FunctionDefinition) :
    functionEntry lines f.essential = functionEntry lines f := by
  obtain ⟨name, kind, isConstructor, parameters, returns, modifiers, visibility, payable,
    mutability, body, src⟩ := f
  cases body with
  | none => rfl
  | some b =>
    simp only [functionEntry, FunctionDefinition.essential, Option.map_some, guards_essential,
      emittedEvents_essential]
    rfl

namespace Described

theorem isDocumented_essential (c : ContractDefinition) :
    isDocumented c.essential = isDocumented c := by
  unfold isDocumented ContractDefinition.essential
  rw [List.any_filterMap]
  congr 1
  funext m
  cases m <;> rfl

theorem contractEntry_essential (lines : LineTable) (c : ContractDefinition) :
    contractEntry lines c.essential = contractEntry lines c := by
  unfold contractEntry ContractDefinition.essential
  simp only [List.filterMap_filterMap]
  congr 2 <;>
  · refine List.filterMap_congr fun m _ => ?_
    cases m <;> simp [Ast.Member.essential?, functionEntry_essential]

/-- Definitions that differ in their inessential parts have the same entries. -/
theorem entries_map_essential (lines : LineTable) (ds : List ContractDefinition) :
    entries lines (ds.map ContractDefinition.essential) = entries lines ds := by
  have hnames : (ds.map ContractDefinition.essential).map ContractDefinition.name =
      ds.map ContractDefinition.name := by
    rw [List.map_map]
    rfl
  have hlast : ∀ name, (ds.map ContractDefinition.essential).findRev? (fun c => c.name = name) =
      (ds.findRev? fun c => c.name = name).map ContractDefinition.essential := by
    intro name
    rw [List.findRev?_eq_find?_reverse, List.findRev?_eq_find?_reverse, ← List.map_reverse,
      List.find?_map]
    rfl
  unfold entries
  rw [hnames]
  refine List.filterMap_congr fun name _ => ?_
  rw [hlast]
  cases ds.findRev? fun c => c.name = name with
  | none => rfl
  | some c =>
    rw [Option.map_some, Option.filter_some, Option.filter_some, isDocumented_essential]
    split
    · rw [Option.map_some, Option.map_some, contractEntry_essential]
    · rfl

end Described

/-! ## Files -/

namespace Described

theorem definitions_essential (kind : Kind) (ast : Option SourceUnit) :
    definitions kind (ast.map SourceUnit.essential) =
      (definitions kind ast).map ContractDefinition.essential := by
  cases ast with
  | none => rfl
  | some u =>
    show (u.nodes.filterMap Ast.TopLevel.essential?).filterMap _ = (u.nodes.filterMap _).map _
    rw [List.filterMap_filterMap, List.map_filterMap]
    refine List.filterMap_congr fun n _ => ?_
    cases n with
    | contract c =>
      show (if c.contractKind = some kind then some c.essential else none) =
        (if c.contractKind = some kind then some c else none).map ContractDefinition.essential
      split <;> rfl
    | importDirective | other => rfl

theorem imports_essential (ast : Option SourceUnit) :
    imports (ast.map SourceUnit.essential) = imports ast := by
  cases ast with
  | none => rfl
  | some u =>
    show (u.nodes.filterMap Ast.TopLevel.essential?).filterMap _ = u.nodes.filterMap _
    rw [List.filterMap_filterMap]
    refine List.filterMap_congr fun n _ => ?_
    cases n <;> rfl

theorem part_essential (lines : LineTable) (kind : Kind) (ast : Option SourceUnit) :
    part lines kind (ast.map SourceUnit.essential) = part lines kind ast := by
  apply OrderedMap.ext
  show entries lines _ = entries lines _
  rw [definitions_essential, entries_map_essential]

theorem fileEntry_essential (text : Option String) (ast : Option SourceUnit) :
    fileEntry text (ast.map SourceUnit.essential) = fileEntry text ast := by
  simp only [fileEntry, imports_essential, part_essential]

end Described

namespace Document

/-- **A document depends on the essential part of the output only.** -/
theorem byFile_essential (input : OrderedMap String SourceText)
    (output : OrderedMap String OutputSource) :
    byFile input (output.mapValues fun _ => OutputSource.essential) = byFile input output := by
  have hast : ∀ path, ((output.mapValues fun _ => OutputSource.essential).get? path).bind
      OutputSource.ast = ((output.get? path).bind OutputSource.ast).map SourceUnit.essential := by
    intro path
    rw [OrderedMap.get?_mapValues]
    cases output.get? path <;> rfl
  unfold byFile
  simp only [hast, Described.fileEntry_essential]

/-- The document that building gives, if it gives one. -/
theorem toOption_build (input : CompilerInput) (output : CompilerOutput) :
    (build input output).toOption.map Logged.value =
      input.sources.bind fun i => output.essential.sources.map fun o => byFile i o := by
  obtain ⟨_ | i⟩ := input
  · rfl
  obtain ⟨_ | o⟩ := output
  · rfl
  have hvalue : (ofCompilation (Compilation.ofSources i o).value).value = byFile i o :=
    congrArg Document.mk (files_ofCompilation i o)
  show some (ofCompilation (Compilation.ofSources i o).value).value = some (byFile i _)
  rw [hvalue, byFile_essential]

end Document

end SolidityDocs
