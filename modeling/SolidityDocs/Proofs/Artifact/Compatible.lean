import Mathlib
import SolidityDocs.Proofs.Artifact.Schema
import SolidityDocs.Proofs.Ast.Depth
import SolidityDocs.Proofs.Document.Essential
import SolidityDocs.Proofs.Json.RoundTrip

/-!
# Artifacts of newer compilers

Two texts of an artifact that differ only by changes in the sense of `Schema.Change` give the same
document, or both are refused.

Every record type of the artifacts respects the changes at its place.  The types that hold nodes of
unknown variants do so up to their essential part, and the others as they are.  Expressions recur:
the reader with a bound respects changes by induction on the bound, and since any bound beyond the
depth will do, trees of different depths are compared under a common bound.

* `Ast.SourceUnit.respects`, `CompilerInput.respects`, `CompilerOutput.respects`.
* `Document.buildFromTexts_alike`: the documents of two such texts.
-/

namespace SolidityDocs

open Json (Reader Record Value Tree)
open Schema (Respects VariantsRespect respects_record respects_record_of_parts respects_list
  respects_nodes respects_map stable_leaf stable_optional)

/-! ## Expressions -/

namespace Ast

theorem TypeDescriptions.respects : Respects (.struct .typeDescriptions) record.read id :=
  respects_record_of_parts ⟨by decide, by simp [record], by simp [record]⟩ rfl
    (by simp [Schema.Struct.parts])

namespace Expression

theorem respects_record_inner {inner : Reader Expression}
    (h : Respects (.struct .expression) inner id) :
    Respects (.struct .expression) (record inner).read id := by
  have hlenient : (record inner).Lenient :=
    ⟨by simp [record, Record.keys], by simp [record], by simp [record]⟩
  refine respects_record_of_parts hlenient rfl ?_
  refine List.forall_mem_cons.mpr ⟨⟨_, _, _, rfl, h.option⟩, ?_⟩
  refine List.forall_mem_cons.mpr
    ⟨⟨_, _, _, rfl, (respects_list TypeDescriptions.respects).option⟩, ?_⟩
  exact List.forall_mem_cons.mpr ⟨⟨_, _, _, rfl, TypeDescriptions.respects⟩, List.forall_mem_nil _⟩

theorem respects_readWithin (n : Nat) : Respects (.struct .expression) (readWithin n) id := by
  induction n with
  | zero => exact respects_record_inner fun _ _ _ _ => rfl
  | succ n ih => exact respects_record_inner ih

/-- **Expressions respect changes.**  The two trees are read with a bound for both. -/
theorem respects : Respects (.struct .expression) read id := by
  intro s t t' h
  rw [← readWithin_eq (Nat.le_max_left t.depth t'.depth) s,
    ← readWithin_eq (Nat.le_max_right t.depth t'.depth) s]
  exact respects_readWithin _ s t t' h

end Expression

/-! ## Statements -/

theorem ExpressionStatement.respects : Respects (.struct .expressionStatement) record.read id := by
  refine respects_record_of_parts ⟨by decide, by simp [record], by simp [record]⟩ rfl ?_
  exact List.forall_mem_cons.mpr
    ⟨⟨_, _, _, rfl, Expression.respects.option⟩, List.forall_mem_nil _⟩

theorem EmitStatement.respects : Respects (.struct .emitStatement) record.read id := by
  refine respects_record_of_parts ⟨by decide, by simp [record], by simp [record]⟩ rfl ?_
  exact List.forall_mem_cons.mpr
    ⟨⟨_, _, _, rfl, Expression.respects.option⟩, List.forall_mem_nil _⟩

theorem Statement.variantsRespect :
    VariantsRespect .statement Statement.variants Statement.essential? := by
  refine .cons ⟨rfl, ExpressionStatement.respects.wrap fun _ => rfl⟩ ?_
  refine .cons ⟨rfl, EmitStatement.respects.wrap fun _ => rfl⟩ ?_
  exact .cons ⟨rfl, Expression.respects.wrap fun _ => rfl⟩ .nil

theorem Block.respects : Respects (.struct .block) record.read Block.essential := by
  refine respects_record ⟨by decide, by simp [record], by simp [record]⟩ rfl ?_
  refine List.forall_mem_cons.mpr ⟨?_, ?_⟩
  · exact stable_optional (respects_nodes Statement.variantsRespect rfl) (by intros; rfl) _
  refine List.forall_mem_cons.mpr ⟨?_, List.forall_mem_nil _⟩
  exact stable_leaf (by intros; rfl) _

/-! ## Members -/

theorem IdentifierPath.respects : Respects (.struct .identifierPath) record.read id :=
  respects_record_of_parts ⟨by decide, by simp [record], by simp [record]⟩ rfl
    (by simp [Schema.Struct.parts])

theorem TypeName.respects : Respects (.struct .typeName) record.read id := by
  refine respects_record_of_parts ⟨by decide, by simp [record], by simp [record]⟩ rfl ?_
  exact List.forall_mem_cons.mpr ⟨⟨_, _, _, rfl, TypeDescriptions.respects⟩, List.forall_mem_nil _⟩

theorem VariableDeclaration.respects : Respects (.struct .variableDeclaration) record.read id := by
  refine respects_record_of_parts ⟨by decide, by simp [record], by simp [record]⟩ rfl ?_
  refine List.forall_mem_cons.mpr ⟨⟨_, _, _, rfl, TypeName.respects.option⟩, ?_⟩
  exact List.forall_mem_cons.mpr ⟨⟨_, _, _, rfl, TypeDescriptions.respects⟩, List.forall_mem_nil _⟩

theorem ParameterList.respects : Respects (.struct .parameterList) record.read id := by
  refine respects_record_of_parts ⟨by decide, by simp [record], by simp [record]⟩ rfl ?_
  exact List.forall_mem_cons.mpr
    ⟨⟨_, _, _, rfl, respects_list VariableDeclaration.respects⟩, List.forall_mem_nil _⟩

theorem ModifierInvocation.respects : Respects (.struct .modifierInvocation) record.read id := by
  refine respects_record_of_parts ⟨by decide, by simp [record], by simp [record]⟩ rfl ?_
  exact List.forall_mem_cons.mpr ⟨⟨_, _, _, rfl, IdentifierPath.respects⟩, List.forall_mem_nil _⟩

theorem FunctionDefinition.respects :
    Respects (.struct .function) record.read FunctionDefinition.essential := by
  refine respects_record ⟨by decide, by simp [record], by simp [record]⟩ rfl ?_
  refine List.forall_mem_cons.mpr ⟨stable_leaf (by intros; rfl) _, ?_⟩
  refine List.forall_mem_cons.mpr ⟨stable_leaf (by intros; rfl) _, ?_⟩
  refine List.forall_mem_cons.mpr ⟨stable_leaf (by intros; rfl) _, ?_⟩
  refine List.forall_mem_cons.mpr
    ⟨stable_optional ParameterList.respects (by intros; rfl) _, ?_⟩
  refine List.forall_mem_cons.mpr
    ⟨stable_optional ParameterList.respects (by intros; rfl) _, ?_⟩
  refine List.forall_mem_cons.mpr
    ⟨stable_optional (respects_list ModifierInvocation.respects) (by intros; rfl) _, ?_⟩
  refine List.forall_mem_cons.mpr ⟨stable_leaf (by intros; rfl) _, ?_⟩
  refine List.forall_mem_cons.mpr ⟨stable_leaf (by intros; rfl) _, ?_⟩
  refine List.forall_mem_cons.mpr ⟨stable_leaf (by intros; rfl) _, ?_⟩
  refine List.forall_mem_cons.mpr
    ⟨stable_optional (Schema.respects_option Block.respects) (by intros; rfl) _, ?_⟩
  exact List.forall_mem_cons.mpr ⟨stable_leaf (by intros; rfl) _, List.forall_mem_nil _⟩

theorem EventDefinition.respects : Respects (.struct .event) record.read id := by
  refine respects_record_of_parts ⟨by decide, by simp [record], by simp [record]⟩ rfl ?_
  exact List.forall_mem_cons.mpr ⟨⟨_, _, _, rfl, ParameterList.respects⟩, List.forall_mem_nil _⟩

theorem ModifierDefinition.respects : Respects (.struct .modifier) record.read id := by
  refine respects_record_of_parts ⟨by decide, by simp [record], by simp [record]⟩ rfl ?_
  exact List.forall_mem_cons.mpr ⟨⟨_, _, _, rfl, ParameterList.respects⟩, List.forall_mem_nil _⟩

theorem StructDefinition.respects : Respects (.struct .structType) record.read id := by
  refine respects_record_of_parts ⟨by decide, by simp [record], by simp [record]⟩ rfl ?_
  exact List.forall_mem_cons.mpr
    ⟨⟨_, _, _, rfl, respects_list VariableDeclaration.respects⟩, List.forall_mem_nil _⟩

theorem Member.variantsRespect : VariantsRespect .member Member.variants Member.essential? := by
  refine .cons ⟨rfl, FunctionDefinition.respects.wrap fun _ => rfl⟩ ?_
  refine .cons ⟨rfl, EventDefinition.respects.wrap fun _ => rfl⟩ ?_
  refine .cons ⟨rfl, VariableDeclaration.respects.wrap fun _ => rfl⟩ ?_
  refine .cons ⟨rfl, ModifierDefinition.respects.wrap fun _ => rfl⟩ ?_
  exact .cons ⟨rfl, StructDefinition.respects.wrap fun _ => rfl⟩ .nil

/-! ## Files -/

theorem InheritanceSpecifier.respects : Respects (.struct .inheritance) record.read id := by
  refine respects_record_of_parts ⟨by decide, by simp [record], by simp [record]⟩ rfl ?_
  exact List.forall_mem_cons.mpr ⟨⟨_, _, _, rfl, IdentifierPath.respects⟩, List.forall_mem_nil _⟩

theorem ImportDirective.respects : Respects (.struct .importDirective) record.read id :=
  respects_record_of_parts ⟨by decide, by simp [record], by simp [record]⟩ rfl
    (by simp [Schema.Struct.parts])

theorem ContractDefinition.respects :
    Respects (.struct .contract) record.read ContractDefinition.essential := by
  refine respects_record ⟨by decide, by simp [record], by simp [record]⟩ rfl ?_
  refine List.forall_mem_cons.mpr ⟨stable_leaf (by intros; rfl) _, ?_⟩
  refine List.forall_mem_cons.mpr ⟨stable_leaf (by intros; rfl) _, ?_⟩
  refine List.forall_mem_cons.mpr
    ⟨stable_optional (respects_list InheritanceSpecifier.respects) (by intros; rfl) _, ?_⟩
  refine List.forall_mem_cons.mpr
    ⟨stable_optional (respects_nodes Member.variantsRespect rfl) (by intros; rfl) _, ?_⟩
  exact List.forall_mem_cons.mpr
    ⟨stable_leaf (by intros; rfl) _, List.forall_mem_nil _⟩

theorem TopLevel.variantsRespect :
    VariantsRespect .topLevel TopLevel.variants TopLevel.essential? := by
  refine .cons ⟨rfl, ContractDefinition.respects.wrap fun _ => rfl⟩ ?_
  exact .cons ⟨rfl, ImportDirective.respects.wrap fun _ => rfl⟩ .nil

/-- **Syntax trees respect changes** up to their essential part. -/
theorem SourceUnit.respects : Respects (.struct .sourceUnit) record.read SourceUnit.essential := by
  refine respects_record ⟨by decide, by simp [record], by simp [record]⟩ rfl ?_
  refine List.forall_mem_cons.mpr ⟨stable_leaf (by intros; rfl) _, ?_⟩
  exact List.forall_mem_cons.mpr
    ⟨stable_optional (respects_nodes TopLevel.variantsRespect rfl) (by intros; rfl) _,
      List.forall_mem_nil _⟩

end Ast

/-! ## Artifacts -/

theorem SourceText.respects : Respects (.struct .sourceText) read id := by
  have hrecord : Respects (.struct .sourceText) contentRecord.read id :=
    respects_record_of_parts ⟨by decide, by simp [contentRecord], by simp [contentRecord]⟩ rfl
      (by simp [Schema.Struct.parts])
  -- Objects and lists are no strings.
  have hplain : Respects (.struct .sourceText) (fun s t => (Reader.string s t).map plain) id := by
    intro s t t' ht
    cases ht.change <;> rfl
  refine Schema.respects_firstOf _ (List.forall_mem_cons.mpr ⟨hplain, ?_⟩)
  exact List.forall_mem_cons.mpr
    ⟨Schema.respects_readObjectOnly hrecord, List.forall_mem_nil _⟩

theorem CompilerInput.respects : Respects (.struct .input) record.read id := by
  have hmap : Respects (.map (.struct .sourceText)) (.map SourceText.read) id := by
    have h := respects_map SourceText.respects
    rwa [OrderedMap.mapValues_id] at h
  refine respects_record_of_parts ⟨by decide, by simp [record], by simp [record]⟩ rfl ?_
  exact List.forall_mem_cons.mpr ⟨⟨_, _, _, rfl, hmap.option⟩, List.forall_mem_nil _⟩

theorem OutputSource.respects :
    Respects (.struct .outputSource) record.read OutputSource.essential := by
  refine respects_record ⟨by decide, by simp [record], by simp [record]⟩ rfl ?_
  refine List.forall_mem_cons.mpr ⟨stable_leaf (by intros; rfl) _, ?_⟩
  exact List.forall_mem_cons.mpr
    ⟨stable_optional (Schema.respects_option Ast.SourceUnit.respects) (by intros; rfl) _,
      List.forall_mem_nil _⟩

theorem CompilerOutput.respects : Respects (.struct .output) record.read essential := by
  refine respects_record ⟨by decide, by simp [record], by simp [record]⟩ rfl ?_
  exact List.forall_mem_cons.mpr
    ⟨stable_optional (Schema.respects_option (respects_map OutputSource.respects))
      (by intros; rfl) _, List.forall_mem_nil _⟩

/-! ## Texts -/

namespace Schema

/-- The text is a JSON text of the tree: the tree has no defect, and only blanks follow it. -/
structure Denotes (text : String) (t : Tree) : Prop where
  sound : t.Sound
  scan : ∃ rest, Tree.scan text.toList = (t, rest) ∧ rest.all Json.Token.isBlank = true

/-- The texts are JSON texts of trees that differ by any number of changes. -/
def AlikeTexts (p : Place) (text text' : String) : Prop :=
  ∃ t t', Denotes text t ∧ Denotes text' t' ∧ Alike p t t'

theorem denotes_render {l : Json.Layout} (hl : l.IsBlank) {v : Value} (hv : v.Fits) :
    Denotes (v.render l) v.tree where
  sound := Tree.fault?_tree .kept v
  scan := ⟨[], Tree.scan_render hl hv, rfl⟩

theorem Denotes.parse_eq {α : Type} {text : String} {t : Tree} (h : Denotes text t)
    (r : Reader α) : r.parse text = r .streamed t := by
  obtain ⟨rest, hscan, hrest⟩ := h.scan
  unfold Reader.parse
  simp only [hscan, hrest]
  cases r .streamed t <;> rfl

theorem Respects.parse {α β : Type} {p : Place} {r : Reader α} {view : α → β}
    (h : Respects p r view) {text text' : String} (ht : AlikeTexts p text text') :
    (r.parse text).toOption.map view = (r.parse text').toOption.map view := by
  obtain ⟨t, t', htext, htext', halike⟩ := ht
  rw [htext.parse_eq r, htext'.parse_eq r]
  exact h.alike .streamed halike

end Schema

/-! ## Documents -/

theorem CompilerInput.parse_alike {text text' : String}
    (h : Schema.AlikeTexts (.struct .input) text text') :
    (parse text).toOption = (parse text').toOption := by
  have hread := respects.parse h
  rw [Option.map_id_fun, id_eq, id_eq] at hread
  have hparse : ∀ x, (parse x).toOption =
      (record.read.parse x).toOption.filter fun i => i.sources.isSome := by
    intro x
    unfold parse
    cases record.read.parse x with
    | error e => rfl
    | ok i => obtain ⟨_ | m⟩ := i <;> rfl
  rw [hparse, hparse, hread]

theorem CompilerOutput.parse_alike {text text' : String}
    (h : Schema.AlikeTexts (.struct .output) text text') :
    (parse text).toOption.map essential = (parse text').toOption.map essential := by
  have hread := respects.parse h
  have hparse : ∀ x, (parse x).toOption.map essential =
      ((record.read.parse x).toOption.map essential).filter fun o => o.sources.isSome := by
    intro x
    unfold parse
    cases record.read.parse x with
    | error e => rfl
    | ok o => obtain ⟨_ | m⟩ := o <;> rfl
  rw [hparse, hparse, hread]

namespace Document

/-- The document of two texts depends on what they are read as, and on the essential part of the
output only. -/
theorem toOption_buildFromTexts (input output : String) :
    (buildFromTexts input output).toOption.map Logged.value =
      (CompilerInput.parse input).toOption.bind fun i =>
        ((CompilerOutput.parse output).toOption.map CompilerOutput.essential).bind fun o =>
          i.sources.bind fun x => o.sources.map fun y => byFile x y := by
  unfold buildFromTexts
  cases CompilerInput.parse input with
  | error e => rfl
  | ok i =>
    cases CompilerOutput.parse output with
    | error e => rfl
    | ok o => exact toOption_build i o

/-- **Changes in what nobody reads make no difference.**  With the other artifact fixed, two texts
of an artifact that differ by changes give the same document, or both are refused. -/
theorem buildFromTexts_alike :
    (∀ input input' output, Schema.AlikeTexts (.struct .input) input input' →
      (buildFromTexts input output).toOption.map Logged.value =
        (buildFromTexts input' output).toOption.map Logged.value) ∧
    (∀ input output output', Schema.AlikeTexts (.struct .output) output output' →
      (buildFromTexts input output).toOption.map Logged.value =
        (buildFromTexts input output').toOption.map Logged.value) := by
  constructor
  · intro input input' output h
    rw [toOption_buildFromTexts, toOption_buildFromTexts, CompilerInput.parse_alike h]
  · intro input output output' h
    rw [toOption_buildFromTexts, toOption_buildFromTexts, CompilerOutput.parse_alike h]

/-- A newer compiler writes the entries of a contract in another order, adds a node of its own at
the top level of the file, and an entry to the output.  Neither text is refused. -/
theorem buildFromTexts_alike_newer :
    let input : Value := .object [("sources", .object [("a.sol", .string "contract C")])]
    let output (extra : List (String × Value)) (nodes : List Value) : Value :=
      .object (extra ++ [("sources", .object [("a.sol",
        .object [("ast", .object [("nodes", .list nodes)])])])])
    let pragma : Value := .object [("literals", .list []), ("nodeType", .string "Pragma")]
    let contract : Value :=
      .object [("nodeType", .string "ContractDefinition"), ("name", .string "C")]
    let reordered : Value :=
      .object [("name", .string "C"), ("nodeType", .string "ContractDefinition")]
    let older := (output [] [contract]).compact
    let newer := (output [("version", .nat 9)] [pragma, reordered]).compact
    Schema.AlikeTexts (.struct .output) older newer ∧
      (buildFromTexts input.compact older).toOption.map Logged.value =
        (buildFromTexts input.compact newer).toOption.map Logged.value ∧
      (buildFromTexts input.compact newer).toOption.map (fun d => d.value.files.keys) =
        some ["a.sol"] := by
  intro input output pragma contract reordered older newer
  have hdenotes : ∀ v : Value, v.Fits → Schema.Denotes v.compact v.tree :=
    fun v hv => Schema.denotes_render Json.Layout.isBlank_compact hv
  have hinput := hdenotes input (by simp [input, Value.Fits, Value.EntriesFit])
  have holder := hdenotes (output [] [contract])
    (by simp [output, contract, Value.Fits, Value.ItemsFit, Value.EntriesFit])
  have hnewer := hdenotes (output [("version", .nat 9)] [pragma, reordered])
    (by simp [output, pragma, reordered, Value.Fits, Value.ItemsFit, Value.EntriesFit])
  have hsound : ∀ v : Value, v.tree.Sound := fun v => Tree.fault?_tree .kept v
  -- A change among the nodes is a change of the output.
  have hnodes : ∀ ns ns' : List Value,
      Schema.Change (.list (.node .topLevel)) (Value.list ns).tree (Value.list ns').tree →
      Schema.Alike (.struct .output) (output [] ns).tree (output [] ns').tree := by
    intro ns ns' h
    refine .rel _ _ ⟨hsound _, hsound _, ?_⟩
    refine @Schema.Change.field _ _ [] [] _ _ _ (.struct _ _) ?_
    refine @Schema.Change.value _ [] [] _ _ _ ?_
    refine @Schema.Change.field _ _ [] [] _ _ _ (.struct _ _) ?_
    exact @Schema.Change.field _ _ [] [] _ _ _ (.struct _ _) h
  have hreorder : Schema.Alike (.struct .output) (output [] [contract]).tree
      (output [] [reordered]).tree := by
    refine hnodes _ _ (@Schema.Change.item (.node .topLevel) [] [] _ _ ?_)
    let tag : String × Tree := ("nodeType", .string (.ok "ContractDefinition"))
    let name : String × Tree := ("name", .string (.ok "C"))
    exact @Schema.Change.permute _ [tag, name] [name, tag] rfl (.swap name tag [])
  have hinsert : Schema.Alike (.struct .output) (output [] [reordered]).tree
      (output [] [pragma, reordered]).tree := by
    let literals : String × Tree := ("literals", .arr [])
    let tag : String × Tree := ("nodeType", .string (.ok "Pragma"))
    exact hnodes _ _ (@Schema.Change.insert _ [] _ [literals, tag] "Pragma" rfl rfl)
  have hextra : Schema.Alike (.struct .output) (output [] [pragma, reordered]).tree
      (output [("version", .nat 9)] [pragma, reordered]).tree := by
    let sources : String × Tree := ("sources", (Value.object [("a.sol",
      .object [("ast", .object [("nodes", .list [pragma, reordered])])])]).tree)
    refine .rel _ _ ⟨hsound _, hsound _, ?_⟩
    refine @Schema.Change.add _ [] [sources] "version" (.number (.ok (.natural 9))) rfl
      List.not_mem_nil fun s hs => ?_
    cases hs
    decide
  have halike : Schema.AlikeTexts (.struct .output) older newer :=
    ⟨_, _, holder, hnewer, hreorder.trans _ _ _ (hinsert.trans _ _ _ hextra)⟩
  refine ⟨halike, buildFromTexts_alike.2 input.compact older newer halike, ?_⟩
  unfold buildFromTexts CompilerInput.parse CompilerOutput.parse
  rw [hinput.parse_eq, hnewer.parse_eq]
  rfl

end Document

end SolidityDocs
