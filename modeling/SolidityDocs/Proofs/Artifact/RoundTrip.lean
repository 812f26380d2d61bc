import Mathlib
import SolidityDocs.Artifact.Basic
import SolidityDocs.Proofs.Json.RoundTrip

/-!
# Artifacts are read back from their text

Both artifacts are written with all their fields.  The input is always read back.  The output is
read back unless a function body holds a call that stands as a statement by itself: such a
statement is written with the name of its variant and with its own `nodeType` field, under the same
key, and a node with two variants is refused.

The statement sits deep inside the output, and its error is the error of everything around it.
Each type from statements up to the output therefore has its outcome on the condition
`isCallFree`, which says of the value that no body in it holds such a call.

* `CompilerOutput.bodies`: the function bodies of the output.
* `CompilerOutput.isCallFree_iff`: the condition in terms of the bodies.
* `Artifact.parse_toJson_iff`: what reading back gives, for both artifacts.
-/

namespace SolidityDocs

open Json (Reader Record ReadError Value keepIf tagKey)
open Json.Reader (Gives)

namespace Ast

theorem gives_stringValue (s : Option String) : Gives optionalString (stringValue s) (.ok s) :=
  Reader.gives_option_ok nofun fun s _ => Reader.gives_string s

theorem gives_booleanValue (b : Option Bool) : Gives optionalBoolean (booleanValue b) (.ok b) :=
  Reader.gives_option_ok nofun fun b _ => Reader.gives_boolean b

theorem TypeDescriptions.gives_toJson (d : TypeDescriptions) :
    Gives record.read d.toJson (.ok d) := by
  refine Record.gives_read (by decide) ?_
  refine .optional (gives_stringValue d.typeString) ?_
  refine .optional (gives_stringValue d.typeIdentifier) ?_
  exact .nil _

/-! ## Expressions -/

namespace Expression

theorem nodup_keys_record (inner : Reader Expression) :
    ((record inner).fields.map Json.Field.key).Nodup := by
  show ["nodeType", "name", "memberName", "expression", "argumentTypes", "typeDescriptions",
    "src"].Nodup
  decide

theorem gives_record {inner : Reader Expression} {v : Value} (e : Expression)
    (hv : Gives (.option inner) v (.ok e.expression)) :
    Gives (record inner).read (.object (e.entries v)) (.ok e) := by
  have htypes : Gives (.option (.list TypeDescriptions.record.read))
      (.ofOption (.ofList TypeDescriptions.toJson) e.argumentTypes) (.ok e.argumentTypes) :=
    Reader.gives_option_ok nofun fun ds _ => Reader.gives_list_ok fun d _ => d.gives_toJson
  obtain ⟨nodeType, name, memberName, expression, types, descriptions, src⟩ := e
  refine Record.gives_read (nodup_keys_record inner) ?_
  refine .optional (gives_stringValue nodeType) ?_
  refine .optional (gives_stringValue name) ?_
  refine .optional (gives_stringValue memberName) ?_
  refine .optional hv ?_
  refine .optional htypes ?_
  refine .optional descriptions.gives_toJson ?_
  refine .optional (gives_stringValue src) ?_
  exact .nil _

theorem toJson_eq (e : Expression) :
    e.toJson = .object (e.entries (.ofOption toJson e.expression)) := by
  obtain ⟨_, _, _, _ | _, _, _, _⟩ := e <;> rfl

theorem toJson_ne_null (e : Expression) : e.toJson ≠ .null := by
  rw [toJson_eq]
  exact nofun

theorem depth_lt_entries (e : Expression) (v : Value) :
    v.tree.depth < (Value.object (e.entries v)).tree.depth := by
  refine Json.Tree.depth_lt_of_mem_entries (k := .ok "expression") ?_ .closed
  simp [entries, Value.entryTrees]

/-- An expression is read back by a reader for its depth. -/
theorem gives_readWithin {n : Nat} (e : Expression) (hn : e.toJson.tree.depth ≤ n) :
    Gives (readWithin n) e.toJson (.ok e) := by
  induction n generalizing e with
  | zero =>
    rw [toJson_eq] at hn
    exact absurd (Nat.lt_of_lt_of_le (e.depth_lt_entries _) hn) (Nat.not_lt_zero _)
  | succ n ih =>
    rw [toJson_eq] at hn ⊢
    have hdepth := Nat.lt_of_lt_of_le (e.depth_lt_entries _) hn
    refine e.gives_record (Reader.gives_option_ok toJson_ne_null fun inner hinner => ih inner ?_)
    rw [Option.mem_def.mp hinner] at hdepth
    exact Nat.le_of_lt_succ hdepth

theorem gives_toJson (e : Expression) : Gives read e.toJson (.ok e) where
  fits := (gives_readWithin e (Nat.le_refl _)).fits
  read s := (gives_readWithin e (Nat.le_refl _)).read s

theorem gives_ofOption (e : Option Expression) :
    Gives (.option read) (.ofOption toJson e) (.ok e) :=
  Reader.gives_option_ok toJson_ne_null fun e _ => e.gives_toJson

end Expression

/-! ## Statements -/

/-- The error of a call that stands as a statement. -/
def duplicateTag : ReadError := .data (.duplicateField tagKey)

/-- Whether the statement is no call by itself. -/
def Statement.isCallFree : Statement → Bool
  | .call _ => false
  | _ => true

theorem Statement.gives_toJson (s : Statement) :
    Gives variants.read s.toJson (keepIf duplicateTag s.isCallFree s) := by
  cases s with
  | expression s =>
    have hfields : Gives ExpressionStatement.record.read
        (.object [("expression", .ofOption Expression.toJson s.expression),
          ("src", stringValue s.src)]) (.ok s) := by
      refine Record.gives_read (by decide) ?_
      refine .optional (Expression.gives_ofOption s.expression) ?_
      refine .optional (gives_stringValue s.src) ?_
      exact .nil _
    exact Json.Variants.gives_read rfl (by simp [tagKey]) (hfields.map Statement.expression)
  | emit s =>
    have hfields : Gives EmitStatement.record.read
        (.object [("eventCall", .ofOption Expression.toJson s.eventCall),
          ("src", stringValue s.src)]) (.ok s) := by
      refine Record.gives_read (by decide) ?_
      refine .optional (Expression.gives_ofOption s.eventCall) ?_
      refine .optional (gives_stringValue s.src) ?_
      exact .nil _
    exact Json.Variants.gives_read rfl (by simp [tagKey]) (hfields.map Statement.emit)
  | call e =>
    have hfits : (Value.object e.fields).Fits := by
      have h := e.gives_toJson.fits
      rwa [Expression.toJson_eq] at h
    exact Json.Variants.gives_duplicate (List.mem_cons_self ..) hfits
  | other => exact Json.Variants.gives_other rfl

/-- Whether no statement of the block is a call by itself. -/
def Block.isCallFree (b : Block) : Bool := b.statements.all Statement.isCallFree

theorem Block.gives_toJson (b : Block) :
    Gives record.read b.toJson (keepIf duplicateTag b.isCallFree b) := by
  refine Record.gives_read (by decide) ?_
  refine .optionalIf (Reader.gives_list fun s _ => s.gives_toJson) ?_
  refine .optional (gives_stringValue b.src) ?_
  exact .nil _

/-! ## Members -/

theorem IdentifierPath.gives_toJson (p : IdentifierPath) :
    Gives record.read p.toJson (.ok p) := by
  refine Record.gives_read (by decide) ?_
  refine .optional (gives_stringValue p.name) ?_
  refine .optional (gives_stringValue p.src) ?_
  exact .nil _

theorem TypeName.gives_toJson (t : TypeName) : Gives record.read t.toJson (.ok t) := by
  refine Record.gives_read (by decide) ?_
  refine .optional (gives_stringValue t.nodeType) ?_
  refine .optional t.typeDescriptions.gives_toJson ?_
  exact .nil _

theorem gives_visibility (v : Option Visibility) :
    Gives (.option Visibility.read) (.ofOption Visibility.toJson v) (.ok v) :=
  Reader.gives_option_ok nofun fun v _ => v.gives_toJson

theorem VariableDeclaration.gives_toJson (d : VariableDeclaration) :
    Gives record.read d.toJson (.ok d) := by
  refine Record.gives_read (by decide) ?_
  refine .optional (Reader.gives_string d.name) ?_
  refine .optional (gives_booleanValue d.constant) ?_
  refine .optional (gives_booleanValue d.stateVariable) ?_
  refine .optional (gives_visibility d.visibility) ?_
  refine .optional (Reader.gives_option_ok nofun fun t _ => t.gives_toJson) ?_
  refine .optional d.typeDescriptions.gives_toJson ?_
  refine .optional (gives_stringValue d.src) ?_
  exact .nil _

theorem ParameterList.gives_toJson (p : ParameterList) : Gives record.read p.toJson (.ok p) := by
  refine Record.gives_read (by decide) ?_
  refine .optional (Reader.gives_list_ok fun d _ => d.gives_toJson) ?_
  exact .nil _

theorem ModifierInvocation.gives_toJson (m : ModifierInvocation) :
    Gives record.read m.toJson (.ok m) := by
  refine Record.gives_read (by decide) ?_
  refine .optional m.modifierName.gives_toJson ?_
  refine .optional (gives_stringValue m.src) ?_
  exact .nil _

/-- Whether the body of the function has no call as a statement. -/
def FunctionDefinition.isCallFree (f : FunctionDefinition) : Bool := f.body.all Block.isCallFree

theorem FunctionDefinition.gives_fields (f : FunctionDefinition) :
    Gives record.read (.object f.fields) (keepIf duplicateTag f.isCallFree f) := by
  refine Record.gives_read (by decide) ?_
  refine .optional (Reader.gives_string f.name) ?_
  refine .optional (gives_stringValue f.kind) ?_
  refine .optional (gives_booleanValue f.isConstructor) ?_
  refine .optional f.parameters.gives_toJson ?_
  refine .optional f.returnParameters.gives_toJson ?_
  refine .optional (Reader.gives_list_ok fun m _ => m.gives_toJson) ?_
  refine .optional (gives_visibility f.visibility) ?_
  refine .optional (gives_booleanValue f.payable) ?_
  refine .optional (Reader.gives_option_ok nofun fun m _ => m.gives_toJson) ?_
  refine .optionalIf (Reader.gives_option nofun fun b _ => b.gives_toJson) ?_
  refine .optional (gives_stringValue f.src) ?_
  exact .nil _

theorem EventDefinition.gives_fields (e : EventDefinition) :
    Gives record.read (.object e.fields) (.ok e) := by
  refine Record.gives_read (by decide) ?_
  refine .optional (Reader.gives_string e.name) ?_
  refine .optional e.parameters.gives_toJson ?_
  refine .optional (gives_stringValue e.src) ?_
  exact .nil _

theorem ModifierDefinition.gives_fields (m : ModifierDefinition) :
    Gives record.read (.object m.fields) (.ok m) := by
  refine Record.gives_read (by decide) ?_
  refine .optional (Reader.gives_string m.name) ?_
  refine .optional m.parameters.gives_toJson ?_
  refine .optional (gives_visibility m.visibility) ?_
  refine .optional (gives_stringValue m.src) ?_
  exact .nil _

theorem StructDefinition.gives_fields (s : StructDefinition) :
    Gives record.read (.object s.fields) (.ok s) := by
  refine Record.gives_read (by decide) ?_
  refine .optional (Reader.gives_string s.name) ?_
  refine .optional (Reader.gives_list_ok fun d _ => d.gives_toJson) ?_
  refine .optional (gives_stringValue s.src) ?_
  exact .nil _

/-- The body of a member, if it is a function with one. -/
def Member.body? : Member → Option Block
  | .function f => f.body
  | _ => none

/-- Whether the member has no body with a call as a statement. -/
def Member.isCallFree : Member → Bool
  | .function f => f.isCallFree
  | _ => true

theorem Member.gives_toJson (m : Member) :
    Gives variants.read m.toJson (keepIf duplicateTag m.isCallFree m) := by
  cases m with
  | function f =>
    have h := f.gives_fields.map Member.function
    rw [Json.map_keepIf] at h
    exact Json.Variants.gives_read rfl (by simp [FunctionDefinition.fields, tagKey]) h
  | event e =>
    exact Json.Variants.gives_read rfl (by simp [EventDefinition.fields, tagKey])
      (e.gives_fields.map Member.event)
  | stateVariable v =>
    exact Json.Variants.gives_read rfl (by simp [VariableDeclaration.fields, tagKey])
      (v.gives_toJson.map Member.stateVariable)
  | modifier m =>
    exact Json.Variants.gives_read rfl (by simp [ModifierDefinition.fields, tagKey])
      (m.gives_fields.map Member.modifier)
  | structType s =>
    exact Json.Variants.gives_read rfl (by simp [StructDefinition.fields, tagKey])
      (s.gives_fields.map Member.structType)
  | other => exact Json.Variants.gives_other rfl

/-! ## Files -/

theorem InheritanceSpecifier.gives_toJson (b : InheritanceSpecifier) :
    Gives record.read b.toJson (.ok b) := by
  refine Record.gives_read (by decide) ?_
  refine .optional b.baseName.gives_toJson ?_
  exact .nil _

theorem gives_readKind (kind : Option Kind) :
    Gives readKind (.ofOption (fun k => .string k.name) kind) (.ok kind) := by
  cases kind with
  | none => exact ⟨trivial, fun _ => rfl⟩
  | some k =>
    refine ⟨trivial, fun s => ?_⟩
    show Except.ok (Kind.ofName? k.name) = _
    rw [Kind.ofName?_name]

/-- Whether no function of the contract has a call as a statement in its body. -/
def ContractDefinition.isCallFree (c : ContractDefinition) : Bool := c.nodes.all Member.isCallFree

theorem ContractDefinition.gives_fields (c : ContractDefinition) :
    Gives record.read (.object c.fields) (keepIf duplicateTag c.isCallFree c) := by
  refine Record.gives_read (by decide) ?_
  refine .optional (Reader.gives_string c.name) ?_
  refine .optional (gives_readKind c.contractKind) ?_
  refine .optional (Reader.gives_list_ok fun b _ => b.gives_toJson) ?_
  refine .optionalIf (Reader.gives_list fun m _ => m.gives_toJson) ?_
  refine .optional (gives_stringValue c.src) ?_
  exact .nil _

theorem ImportDirective.gives_fields (i : ImportDirective) :
    Gives record.read (.object i.fields) (.ok i) := by
  refine Record.gives_read (by decide) ?_
  refine .optional (gives_stringValue i.file) ?_
  refine .optional (gives_stringValue i.absolutePath) ?_
  refine .optional (gives_stringValue i.src) ?_
  exact .nil _

/-- Whether the node has no body with a call as a statement. -/
def TopLevel.isCallFree : TopLevel → Bool
  | .contract c => c.isCallFree
  | _ => true

theorem TopLevel.gives_toJson (n : TopLevel) :
    Gives variants.read n.toJson (keepIf duplicateTag n.isCallFree n) := by
  cases n with
  | contract c =>
    have h := c.gives_fields.map TopLevel.contract
    rw [Json.map_keepIf] at h
    exact Json.Variants.gives_read rfl (by simp [ContractDefinition.fields, tagKey]) h
  | importDirective i =>
    exact Json.Variants.gives_read rfl (by simp [ImportDirective.fields, tagKey])
      (i.gives_fields.map TopLevel.importDirective)
  | other => exact Json.Variants.gives_other rfl

/-- Whether no body in the file has a call as a statement. -/
def SourceUnit.isCallFree (u : SourceUnit) : Bool := u.nodes.all TopLevel.isCallFree

theorem SourceUnit.gives_toJson (u : SourceUnit) :
    Gives record.read u.toJson (keepIf duplicateTag u.isCallFree u) := by
  refine Record.gives_read (by decide) ?_
  refine .optional (gives_stringValue u.absolutePath) ?_
  refine .optionalIf (Reader.gives_list fun n _ => n.gives_toJson) ?_
  exact .nil _

end Ast

/-! ## The input -/

theorem SourceText.gives_toJson (t : SourceText) : Gives read t.toJson (.ok t) := by
  cases t with
  | plain text => exact Reader.gives_firstOf trivial rfl
  | wrapped content =>
    have hrecord : Gives contentRecord.readObjectOnly
        (.object [("content", .ofOption .string content)]) (.ok (.wrapped content)) := by
      refine Record.gives_readObjectOnly (by decide) ?_
      refine .optional (Reader.gives_option_ok nofun fun s _ => Reader.gives_string s) ?_
      exact .nil _
    refine Reader.gives_firstOf hrecord.fits ?_
    have hread : contentRecord.readObjectOnly .buffered (wrapped content).toJson.tree =
        .ok (.wrapped content) := hrecord.read .buffered
    -- The first alternative wants a string.
    rw [List.findSome?_cons_of_isNone (by rfl), List.findSome?_cons, hread]
    rfl

theorem CompilerInput.gives_toJson (i : CompilerInput) : Gives record.read i.toJson (.ok i) := by
  refine Record.gives_read (by decide) ?_
  refine .optional (Reader.gives_option_ok nofun fun m _ =>
    Reader.gives_map_ok fun t _ => t.gives_toJson) ?_
  exact .nil _

/-! ## The output -/

/-- The index of the source is a number of 32 bits. -/
def OutputSource.HasWordId (s : OutputSource) : Prop := ∀ n ∈ s.id, n < Nat.pow 2 32

/-- Whether no body in the source has a call as a statement. -/
def OutputSource.isCallFree (s : OutputSource) : Bool := s.ast.all Ast.SourceUnit.isCallFree

theorem OutputSource.gives_toJson {s : OutputSource} (hs : s.HasWordId) :
    Gives record.read s.toJson (keepIf Ast.duplicateTag s.isCallFree s) := by
  refine Record.gives_read (by decide) ?_
  refine .optional (Reader.gives_option_ok nofun fun n hn => Reader.gives_word32 (hs n hn)) ?_
  refine .optionalIf (Reader.gives_option nofun fun u _ => u.gives_toJson) ?_
  exact .nil _

namespace CompilerOutput

/-- Whether no body in the output has a call as a statement. -/
def isCallFree (o : CompilerOutput) : Bool :=
  o.sources.all fun m => m.values.all OutputSource.isCallFree

theorem gives_toJson {o : CompilerOutput} (ho : ∀ m ∈ o.sources, ∀ s ∈ m.values, s.HasWordId) :
    Gives record.read o.toJson (keepIf Ast.duplicateTag o.isCallFree o) := by
  refine Record.gives_read (by decide) ?_
  refine .optionalIf (Reader.gives_option nofun fun m hm =>
    Reader.gives_map fun s hs => s.gives_toJson (ho m hm s hs)) ?_
  exact .nil _

/-- The function bodies in the output. -/
def bodies (o : CompilerOutput) : List Ast.Block :=
  let units := (o.sources.toList.flatMap OrderedMap.values).filterMap OutputSource.ast
  let members := (units.flatMap Ast.SourceUnit.contracts).flatMap Ast.ContractDefinition.nodes
  members.filterMap Ast.Member.body?

theorem all_filterMap_eq {α β : Type} (f : α → Option β) (p : β → Bool) (l : List α) :
    (l.filterMap f).all p = l.all fun a => (f a).all p := by
  rw [List.all_filterMap]
  rfl

theorem all_bodies (o : CompilerOutput) : o.bodies.all Ast.Block.isCallFree = o.isCallFree := by
  have hmember : ∀ m : Ast.Member, m.body?.all Ast.Block.isCallFree = m.isCallFree := by
    rintro (_ | _ | _ | _ | _ | _) <;> rfl
  have hunit : ∀ u : Ast.SourceUnit,
      (u.contracts.all fun c => c.nodes.all Ast.Member.isCallFree) = u.isCallFree := by
    intro u
    rw [Ast.SourceUnit.contracts, all_filterMap_eq, Ast.SourceUnit.isCallFree]
    congr 1
    funext n
    cases n <;> rfl
  have hsource : ∀ s : OutputSource, s.ast.all Ast.SourceUnit.isCallFree = s.isCallFree :=
    fun _ => rfl
  simp only [bodies, isCallFree, all_filterMap_eq, List.all_flatMap, hmember, hunit, hsource]
  cases o.sources with
  | none => rfl
  | some m => exact Bool.and_true _

/-- No body of the output has a call as a statement. -/
theorem isCallFree_iff {o : CompilerOutput} :
    o.isCallFree = true ↔ ∀ b ∈ o.bodies, ∀ e, Ast.Statement.call e ∉ b.statements := by
  have hblock : ∀ b : Ast.Block,
      b.isCallFree = true ↔ ∀ e, Ast.Statement.call e ∉ b.statements := by
    intro b
    rw [Ast.Block.isCallFree, List.all_eq_true]
    constructor
    · intro h e he
      exact absurd (h _ he) Bool.false_ne_true
    · intro h s hs
      cases s with
      | call e => exact absurd hs (h e)
      | _ => rfl
  rw [← all_bodies, List.all_eq_true]
  exact forall₂_congr fun b _ => hblock b

end CompilerOutput

/-! ## Both artifacts -/

/-- The outcome of the output: it is read back on the condition, or else refused. -/
theorem CompilerOutput.parse_toJson {m : OrderedMap String OutputSource}
    (hm : ∀ s ∈ m.values, s.HasWordId) :
    parse (toJson ⟨some m⟩).compact =
      if isCallFree ⟨some m⟩ then .ok ⟨some m⟩
      else .error (.malformed .output Ast.duplicateTag) := by
  have hread := (gives_toJson (o := ⟨some m⟩) fun m' hm' =>
    Option.mem_some.mp hm' ▸ hm).parse_eq Json.Layout.isBlank_compact
  unfold parse Json.Value.compact
  rw [hread]
  cases isCallFree ⟨some m⟩ <;> rfl

theorem CompilerInput.parse_toJson (m : OrderedMap String SourceText) :
    parse (toJson ⟨some m⟩).compact = .ok ⟨some m⟩ := by
  have hread := (gives_toJson ⟨some m⟩).parse_eq Json.Layout.isBlank_compact
  unfold parse Json.Value.compact
  rw [hread]
  rfl

/-- **Artifacts are read back from their text**, except that an output with a call as a statement in
some body is refused for its two variants. -/
theorem Artifact.parse_toJson_iff :
    (∀ m, CompilerInput.parse (CompilerInput.toJson ⟨some m⟩).compact = .ok ⟨some m⟩) ∧
    ∀ m : OrderedMap String OutputSource, (∀ s ∈ m.values, s.HasWordId) →
      let o : CompilerOutput := ⟨some m⟩
      let refused : ArtifactError := .malformed .output (.data (.duplicateField "nodeType"))
      (CompilerOutput.parse o.toJson.compact = .ok o ↔
        ¬ ∃ b ∈ o.bodies, ∃ e, Ast.Statement.call e ∈ b.statements) ∧
      ((∃ b ∈ o.bodies, ∃ e, Ast.Statement.call e ∈ b.statements) →
        CompilerOutput.parse o.toJson.compact = .error refused) ∧
      refused.message = "malformed solc output: duplicate field `nodeType`" := by
  refine ⟨CompilerInput.parse_toJson, fun m hm => ?_⟩
  have hparse := CompilerOutput.parse_toJson hm
  have hfree := CompilerOutput.isCallFree_iff (o := ⟨some m⟩)
  have hcall : CompilerOutput.isCallFree ⟨some m⟩ = false ↔
      ∃ b ∈ CompilerOutput.bodies ⟨some m⟩, ∃ e, Ast.Statement.call e ∈ b.statements := by
    rw [← Bool.not_eq_true, hfree]
    push Not
    rfl
  refine ⟨?_, fun h => ?_, rfl⟩
  · rw [← hcall, hparse]
    cases CompilerOutput.isCallFree ⟨some m⟩ <;> simp
  · rw [hparse, hcall.mpr h]
    rfl

/-- An output whose only body has one statement, with the greatest index: a nested call is read back
as an expression, and refused as a statement. -/
theorem Artifact.parse_toJson_iff_nested :
    let call : Ast.Expression :=
      { nodeType := some "FunctionCall", expression := some { name := some "require" } }
    let output (s : Ast.Statement) : CompilerOutput :=
      ⟨some (.ofList [("a.sol", {
        id := some 4294967295
        ast := some { nodes := [.other, .contract {
          nodes := [.function { body := some { statements := [.other, s] } }] }] } })])⟩
    let read : CompilerOutput := output (.expression { expression := some call })
    CompilerOutput.parse read.toJson.compact = .ok read ∧
      CompilerOutput.parse (output (.call call)).toJson.compact =
        .error (.malformed .output (.data (.duplicateField "nodeType"))) := by
  intro call output read
  have hwords : ∀ ast, ∀ x ∈ (OrderedMap.ofList
      [("a.sol", (⟨some 4294967295, ast⟩ : OutputSource))]).values, x.HasWordId := by
    intro ast x hx
    cases List.mem_singleton.mp hx
    intro n hn
    cases hn
    decide
  refine ⟨(parse_toJson_iff.2 _ (hwords _)).1.mpr ?_, (parse_toJson_iff.2 _ (hwords _)).2.1 ?_⟩
  · rintro ⟨b, hb, e, he⟩
    cases List.mem_singleton.mp hb
    simp at he
  · exact ⟨_, List.mem_singleton.mpr rfl, call, by simp⟩

end SolidityDocs
