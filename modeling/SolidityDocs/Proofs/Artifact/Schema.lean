import Mathlib
import SolidityDocs.Artifact.Basic
import SolidityDocs.Proofs.Json.Unordered
import SolidityDocs.Proofs.Map.Arrival

/-!
# Artifacts that differ in what nobody reads

Compilers add to their artifacts from version to version: new entries in objects, nodes of new
types.  This file says what such a difference is.  A `Place` tells what is expected somewhere in an
artifact: a record, a tagged node, a list or a map of these, or something that is read as it is.  At
a place the following are changes:

* the entries of an object in another order, where a record or a node is expected;
* one more entry there, whose key is none that the record or the variant of the node has;
* one more node in a list of nodes, of a variant that the list does not know;
* a change further inside.

Two trees are `Alike` when they differ by any number of changes, in either direction.

The second half of the file proves for each way of building readers that a change makes no
difference (`Respects`): if one of the two trees is read, then so is the other one, and the values
have the same view.  A view may hide something; it is there because a node of an unknown variant is
still a value.

* `Schema.Change`, `Schema.Alike`: the changes, and trees that differ by changes.
* `Schema.respects_record`, `Schema.respects_node`, `Schema.respects_list`, `Schema.respects_map`.
-/

namespace SolidityDocs.Schema

open Json (Reader Record Field Variants Source Tree tagKey)

/-! ## Places -/

/-- The record types of an artifact.  A source has a record for its text in the input, and another
one in the output. -/
inductive Struct
  | input
  | sourceText
  | output
  | outputSource
  | sourceUnit
  | importDirective
  | contract
  | inheritance
  | identifierPath
  | function
  | parameterList
  | modifierInvocation
  | variableDeclaration
  | typeName
  | typeDescriptions
  | event
  | modifier
  | structType
  | block
  | expressionStatement
  | emitStatement
  | expression

/-- The types of tagged nodes. -/
inductive Family
  | topLevel
  | member
  | statement

/-- What is expected somewhere in an artifact.  Nothing may change in a leaf. -/
inductive Place
  | leaf
  | struct (s : Struct)
  | node (f : Family)
  | list (item : Place)
  | map (value : Place)

/-- The keys of the fields of a record, in order. -/
def Struct.keys : Struct → List String
  | input => CompilerInput.record.keys
  | sourceText => SourceText.contentRecord.keys
  | output => CompilerOutput.record.keys
  | outputSource => OutputSource.record.keys
  | sourceUnit => Ast.SourceUnit.record.keys
  | importDirective => Ast.ImportDirective.record.keys
  | contract => Ast.ContractDefinition.record.keys
  | inheritance => Ast.InheritanceSpecifier.record.keys
  | identifierPath => Ast.IdentifierPath.record.keys
  | function => Ast.FunctionDefinition.record.keys
  | parameterList => Ast.ParameterList.record.keys
  | modifierInvocation => Ast.ModifierInvocation.record.keys
  | variableDeclaration => Ast.VariableDeclaration.record.keys
  | typeName => Ast.TypeName.record.keys
  | typeDescriptions => Ast.TypeDescriptions.record.keys
  | event => Ast.EventDefinition.record.keys
  | modifier => Ast.ModifierDefinition.record.keys
  | structType => Ast.StructDefinition.record.keys
  | block => Ast.Block.record.keys
  | expressionStatement => Ast.ExpressionStatement.record.keys
  | emitStatement => Ast.EmitStatement.record.keys
  | expression => (Ast.Expression.record Ast.Expression.read).keys

/-- The fields of a record with records or nodes inside them. -/
def Struct.parts : Struct → List (String × Place)
  | input => [("sources", .map (.struct sourceText))]
  | output => [("sources", .map (.struct outputSource))]
  | outputSource => [("ast", .struct sourceUnit)]
  | sourceUnit => [("nodes", .list (.node .topLevel))]
  | contract => [("baseContracts", .list (.struct inheritance)), ("nodes", .list (.node .member))]
  | inheritance => [("baseName", .struct identifierPath)]
  | function =>
    [("parameters", .struct parameterList), ("returnParameters", .struct parameterList),
      ("modifiers", .list (.struct modifierInvocation)), ("body", .struct block)]
  | parameterList => [("parameters", .list (.struct variableDeclaration))]
  | modifierInvocation => [("modifierName", .struct identifierPath)]
  | variableDeclaration =>
    [("typeName", .struct typeName), ("typeDescriptions", .struct typeDescriptions)]
  | typeName => [("typeDescriptions", .struct typeDescriptions)]
  | event => [("parameters", .struct parameterList)]
  | modifier => [("parameters", .struct parameterList)]
  | structType => [("members", .list (.struct variableDeclaration))]
  | block => [("statements", .list (.node .statement))]
  | expressionStatement => [("expression", .struct expression)]
  | emitStatement => [("eventCall", .struct expression)]
  | expression =>
    [("expression", .struct expression), ("argumentTypes", .list (.struct typeDescriptions)),
      ("typeDescriptions", .struct typeDescriptions)]
  | sourceText | importDirective | identifierPath | typeDescriptions => []

/-- What is expected in a field of a record. -/
def Struct.place (s : Struct) (key : String) : Place := (s.parts.lookup key).getD .leaf

/-- The variants of a node type, by name. -/
def Family.variants : Family → List (String × Struct)
  | topLevel => [("ContractDefinition", .contract), ("ImportDirective", .importDirective)]
  | member =>
    [("FunctionDefinition", .function), ("EventDefinition", .event),
      ("VariableDeclaration", .variableDeclaration), ("ModifierDefinition", .modifier),
      ("StructDefinition", .structType)]
  | statement =>
    [("ExpressionStatement", .expressionStatement), ("EmitStatement", .emitStatement),
      ("FunctionCall", .expression)]

/-- The record of the variant that the tag of a node names, by its name or its index. -/
def Family.named? (f : Family) : Tree → Option Struct
  | .string (.ok name) => f.variants.lookup name
  | .number (.ok (.natural n)) => f.variants[n]?.map Prod.snd
  | _ => none

namespace Place

/-- Whether a record or a node is expected. -/
def isRecord : Place → Bool
  | struct _ | node _ => true
  | _ => false

/-- The keys that have a meaning at the place besides the fields of records. -/
def reserved : Place → List String
  | node _ => [tagKey]
  | _ => []

/-- At the place, an object with the entries has the fields of the record: the record is expected
there, or a node whose tag names it. -/
inductive ReadAs : Place → List (String × Tree) → Struct → Prop
  | struct (s : Struct) (es : List (String × Tree)) : ReadAs (.struct s) es s
  | node {f : Family} {es : List (String × Tree)} {tag : Tree} {s : Struct}
      (mem : (tagKey, tag) ∈ es) (named : f.named? tag = some s) : ReadAs (.node f) es s

end Place

/-! ## Changes -/

/-- The second tree is the first one after a change.

The entries of an object may be put in another order, and an entry that nobody reads may be added.
A node of an unknown variant may be added to a list of nodes.  All this may happen inside a field of
a record, inside an item of a list, and inside a value of a map.  Records and nodes may have the
form of a list as well, where `element` and `tagged` reach their fields. -/
inductive Change : Place → Tree → Tree → Prop
  | permute {p : Place} {es es' : List (String × Tree)} (record : p.isRecord = true)
      (perm : es.Perm es') : Change p (.obj es) (.obj es')
  | add {p : Place} {xs ys : List (String × Tree)} {k : String} {t : Tree}
      (record : p.isRecord = true) (unreserved : k ∉ p.reserved)
      (unknown : ∀ s, p.ReadAs (xs ++ ys) s → k ∉ s.keys) :
      Change p (.obj (xs ++ ys)) (.obj (xs ++ (k, t) :: ys))
  | field {p : Place} {s : Struct} {xs ys : List (String × Tree)} {k : String} {t t' : Tree}
      (readAs : p.ReadAs (xs ++ (k, t) :: ys) s) (change : Change (s.place k) t t') :
      Change p (.obj (xs ++ (k, t) :: ys)) (.obj (xs ++ (k, t') :: ys))
  | element {s : Struct} {xs ys : List Tree} {k : String} {t t' : Tree}
      (key : s.keys[xs.length]? = some k) (change : Change (s.place k) t t') :
      Change (.struct s) (.arr (xs ++ t :: ys)) (.arr (xs ++ t' :: ys))
  | tagged {f : Family} {s : Struct} {tag : Tree} {items items' : List Tree}
      (named : f.named? tag = some s) (change : Change (.struct s) (.arr items) (.arr items')) :
      Change (.node f) (.arr (tag :: items)) (.arr (tag :: items'))
  | item {p : Place} {xs ys : List Tree} {t t' : Tree} (change : Change p t t') :
      Change (.list p) (.arr (xs ++ t :: ys)) (.arr (xs ++ t' :: ys))
  | insert {f : Family} {xs ys : List Tree} {es : List (String × Tree)} {name : String}
      (tag : Variants.tags es = [(tagKey, .string (.ok name))])
      (unknown : f.variants.lookup name = none) :
      Change (.list (.node f)) (.arr (xs ++ ys)) (.arr (xs ++ .obj es :: ys))
  | value {p : Place} {xs ys : List (String × Tree)} {k : String} {t t' : Tree}
      (change : Change p t t') :
      Change (.map p) (.obj (xs ++ (k, t) :: ys)) (.obj (xs ++ (k, t') :: ys))

/-- A change between trees without defects. -/
structure Step (p : Place) (t t' : Tree) : Prop where
  sound : t.Sound
  sound' : t'.Sound
  change : Change p t t'

/-- The trees differ by any number of changes, in either direction. -/
def Alike (p : Place) : Tree → Tree → Prop := Relation.EqvGen (Step p)

theorem not_change_leaf {t t' : Tree} : ¬ Change .leaf t t' := by
  intro h
  cases h with
  | permute record => cases record
  | add record => cases record
  | field readAs => cases readAs

theorem Struct.place_tagKey (s : Struct) : s.place tagKey = .leaf := by cases s <;> rfl

/-! ## Readers for which a change makes no difference -/

/-- A change makes no difference to the view of what is read. -/
def Respects {α β : Type} (p : Place) (r : Reader α) (view : α → β) : Prop :=
  ∀ s t t', Step p t t' → (r s t).toOption.map view = (r s t').toOption.map view

section Readers

variable {α β σ τ : Type} {p : Place}

theorem respects_leaf (r : Reader α) (view : α → β) : Respects .leaf r view :=
  fun _ _ _ h => absurd h.change not_change_leaf

/-- Changes of any number make no difference. -/
theorem Respects.alike {r : Reader α} {view : α → β} (h : Respects p r view) (s : Source)
    {t t' : Tree} (ht : Alike p t t') :
    (r s t).toOption.map view = (r s t').toOption.map view := by
  induction ht with
  | rel t t' hstep => exact h s t t' hstep
  | refl t => rfl
  | symm t t' _ ih => exact ih.symm
  | trans t u t' _ _ ih₁ ih₂ => exact ih₁.trans ih₂

/-- A reader that wraps what it reads. -/
theorem Respects.wrap {γ : Type} {r : Reader α} {view : α → α} (h : Respects p r view) {f : α → γ}
    {view' : γ → Option γ} (hf : ∀ a, view' (f a) = some (f (view a))) :
    Respects p (fun s t => (r s t).map f) view' := by
  intro s t t' ht
  have hview : ∀ x : Option α, (x.map f).map view' = (x.map view).map fun a => some (f a) := by
    intro x
    rw [Option.map_map, Option.map_map]
    exact congrArg (x.map ·) (funext hf)
  rw [Json.toOption_map, Json.toOption_map, hview, hview, h s t t' ht]

theorem Step.ne_null {t t' : Tree} (h : Step p t t') : t ≠ .null ∧ t' ≠ .null := by
  cases h.change <;> exact ⟨nofun, nofun⟩

theorem respects_option {r : Reader α} {view : α → β} (h : Respects p r view) :
    Respects p (.option r) (Option.map view) := by
  intro s t t' ht
  have hread : ∀ u : Tree, u ≠ .null → Reader.option r s u = (r s u).map some := by
    intro u hu
    cases u with
    | null => exact absurd rfl hu
    | _ => rfl
  have hview : ∀ x : Option α, (x.map some).map (Option.map view) = (x.map view).map some := by
    intro x
    cases x <;> rfl
  rw [hread t ht.ne_null.1, hread t' ht.ne_null.2, Json.toOption_map, Json.toOption_map, hview,
    hview, h s t t' ht]

theorem Respects.option {r : Reader α} (h : Respects p r id) : Respects p (.option r) id := by
  have hoption := respects_option h
  rwa [Option.map_id] at hoption

/-! ### Records -/

/-- A field is stable where its reader respects changes and the view commutes with it. -/
theorem stable_optional {r : Reader α} {view' : α → α} (h : Respects p r view') {view : σ → σ}
    {set : α → σ → σ} (hset : ∀ v a, view (set v a) = set (view' v) (view a)) (k : String) :
    (Field.optional k r set).Stable (Step p) view := by
  intro s t t' a b ht hab
  have hread : (r s t).toOption.map view' = (r s t').toOption.map view' := by
    rcases ht with rfl | ht
    · rfl
    · exact h s t t' ht
  have hput : ∀ (x : Option α) (c : σ),
      (x.map fun v => set v c).map view = (x.map view').map fun w => set w (view c) := by
    intro x c
    rw [Option.map_map, Option.map_map]
    exact congrArg (x.map ·) (funext fun v => hset v c)
  simp only [Field.optional, Json.toOption_map]
  rw [hput, hput, hread, hab]

/-- A field in which nothing may change is stable if the view commutes with it. -/
theorem stable_leaf {r : Reader α} {view : σ → σ} {set : α → σ → σ}
    (hset : ∀ v a, view (set v a) = set v (view a)) (k : String) :
    (Field.optional k r set).Stable (Step .leaf) view :=
  stable_optional (respects_leaf r id) hset k

/-- **A record respects changes** if its fields do. -/
theorem respects_record {s : Struct} {R : Record σ} (hR : R.Lenient) (hkeys : R.keys = s.keys)
    {view : σ → τ} (hfields : ∀ f ∈ R.fields, f.Stable (Step (s.place f.key)) view) :
    Respects (.struct s) R.read view := by
  intro source t t' ⟨ht, ht', hchange⟩
  cases hchange with
  | permute _ hperm =>
    rw [Record.toOption_read_obj hR source ht, Record.toOption_read_obj hR source ht',
      Record.gather_perm hR source hperm]
  | add _ _ hunknown =>
    have hk := hunknown s (.struct s _)
    rw [Record.toOption_read_obj hR source ht, Record.toOption_read_obj hR source ht',
      Record.gather_unknown source (hkeys ▸ hk)]
  | @field _ _ xs ys k u u' hread hchange =>
    cases hread
    have hstep : Step (s.place k) u u' := ⟨ht.value, ht'.value, hchange⟩
    rw [Record.toOption_read_obj hR source ht, Record.toOption_read_obj hR source ht']
    exact Record.gather_change (S := fun k => Step (s.place k)) hfields source hstep xs ys
  | @element _ xs ys k u u' hk hchange =>
    have hstep : Step (s.place k) u u' := ⟨ht.item, ht'.item, hchange⟩
    refine Record.readItems_change (S := fun k => Step (s.place k)) source hfields xs ys ?_ 0 rfl
    intro l hl
    have hkl : R.keys[xs.length]? = some l := hl
    rw [hkeys, hk] at hkl
    cases hkl
    exact hstep

/-- The record reads the part with a reader that respects changes. -/
def HasPart (R : Record σ) (part : String × Place) : Prop :=
  ∃ (α : Type) (r : Reader α) (set : α → σ → σ),
    R.field? part.1 = some (.optional part.1 r set) ∧ Respects part.2 r id

/-- **A record that is seen as it is respects changes** if its parts do. -/
theorem respects_record_of_parts {s : Struct} {R : Record σ} (hR : R.Lenient)
    (hkeys : R.keys = s.keys) (hparts : ∀ part ∈ s.parts, HasPart R part) :
    Respects (.struct s) R.read id := by
  refine respects_record hR hkeys fun f hf => ?_
  cases hpart : s.parts.lookup f.key with
  | none =>
    -- Nothing may change in the field, so the value and the record are the same.
    have hleaf : s.place f.key = .leaf := by rw [Struct.place, hpart]; rfl
    intro source t t' a b ht hab
    rw [hleaf] at ht
    obtain rfl := ht.resolve_right fun h => not_change_leaf h.change
    cases hab
    rfl
  | some q =>
    obtain ⟨xs, ys, hsplit, -⟩ := List.lookup_eq_some_iff.mp hpart
    obtain ⟨α, r, set, hfield, hr⟩ := hparts (f.key, q) (by rw [hsplit]; simp)
    have hplace : s.place f.key = q := by rw [Struct.place, hpart]; rfl
    have heq : f = .optional f.key r set := by
      have hself := Record.field?_of_mem hR.nodup hf
      rw [hself] at hfield
      exact Option.some.inj hfield
    have hset : ∀ v a, id (set v a) = set (id v) (id a) := fun _ _ => rfl
    rw [hplace, heq]
    exact stable_optional hr hset f.key

theorem respects_readObjectOnly {s : Struct} {R : Record σ} {view : σ → τ}
    (h : Respects (.struct s) R.read view) : Respects (.struct s) R.readObjectOnly view := by
  intro source t t' ht
  have hread := h source t t' ht
  cases ht.change with
  | permute => exact hread
  | add => exact hread
  | field => exact hread
  | element => rfl

/-- Alternatives respect changes if each of them does. -/
theorem respects_firstOf (name : String) {readers : List (Reader α)}
    (h : ∀ r ∈ readers, Respects p r id) : Respects p (.firstOf name readers) id := by
  have hfirst : ∀ (s : Source) (t : Tree), t.Sound → (Reader.firstOf name readers s t).toOption =
      readers.findSome? fun r => (r .buffered t).toOption := by
    intro s t ht
    have hfault : t.fault? .kept = none := ht
    unfold Reader.firstOf Reader.buffer
    simp only [hfault, Json.check_none, bind, Except.bind]
    cases readers.findSome? fun r => (r .buffered t).toOption <;> rfl
  intro s t t' ht
  rw [hfirst s t ht.sound, hfirst s t' ht.sound', Option.map_id_fun, id_eq, id_eq]
  clear hfirst
  induction readers with
  | nil => rfl
  | cons r readers ih =>
    obtain ⟨hr, hreaders⟩ := List.forall_mem_cons.mp h
    have hread := hr .buffered t t' ht
    rw [Option.map_id_fun, id_eq, id_eq] at hread
    rw [List.findSome?_cons, List.findSome?_cons, hread, ih hreaders]

/-! ### Nodes -/

/-- The variants of a node type have the names and the records of the family, and their readers
respect changes there. -/
def VariantsRespect (f : Family) (v : Variants α) (view : α → β) : Prop :=
  List.Forall₂ (fun x y => x.1 = y.1 ∧ Respects (.struct x.2) y.2 view) f.variants v.known

theorem VariantsRespect.lookup {f : Family} {v : Variants α} {view : α → β}
    (h : VariantsRespect f v view) (name : String) :
    (f.variants.lookup name = none ∧ v.known.lookup name = none) ∨
      ∃ s r, f.variants.lookup name = some s ∧ v.known.lookup name = some r ∧
        Respects (.struct s) r view := by
  unfold VariantsRespect at h
  generalize f.variants = xs at h ⊢
  generalize v.known = ys at h ⊢
  induction h with
  | nil => exact .inl ⟨rfl, rfl⟩
  | @cons x y xs ys hxy _ ih =>
    obtain ⟨k, s⟩ := x
    obtain ⟨l, r⟩ := y
    obtain ⟨rfl, hr⟩ := hxy
    rw [List.lookup_cons, List.lookup_cons]
    cases name == k with
    | true => exact .inr ⟨s, r, rfl, rfl, hr⟩
    | false => exact ih

theorem VariantsRespect.getElem? {f : Family} {v : Variants α} {view : α → β}
    (h : VariantsRespect f v view) (n : Nat) :
    (f.variants[n]? = none ∧ v.known[n]? = none) ∨
      ∃ x y, f.variants[n]? = some x ∧ v.known[n]? = some y ∧
        Respects (.struct x.2) y.2 view := by
  unfold VariantsRespect at h
  generalize f.variants = xs at h ⊢
  generalize v.known = ys at h ⊢
  induction h generalizing n with
  | nil => exact .inl ⟨rfl, rfl⟩
  | @cons x y xs ys hxy _ ih =>
    cases n with
    | zero => exact .inr ⟨x, y, rfl, rfl, hxy.2⟩
    | succ n => exact ih n

/-- A tag names a variant of the family, whose reader respects changes, or no variant. -/
theorem VariantsRespect.readTag {f : Family} {v : Variants α} {view : α → β}
    (h : VariantsRespect f v view) {source : Source} {tag : Tree} {x : Option (Reader α)}
    (hx : v.readTag source tag = .ok x) :
    (f.named? tag = none ∧ x = none) ∨
      ∃ s r, f.named? tag = some s ∧ x = some r ∧ Respects (.struct s) r view := by
  unfold Variants.readTag at hx
  split at hx
  · rename_i name
    cases hx
    exact h.lookup name
  · rename_i n
    cases hx
    obtain ⟨hf, hv⟩ | ⟨a, b, hf, hv, hr⟩ := h.getElem? n
    · exact .inl ⟨by rw [Family.named?, hf]; rfl, by rw [hv]; rfl⟩
    · exact .inr ⟨a.2, b.2, by rw [Family.named?, hf]; rfl, by rw [hv]; rfl, hr⟩
  · cases hx

/-- The fields of a node may change as those of the record of its variant. -/
theorem VariantsRespect.map_finish {f : Family} {v : Variants α} {view : α → β}
    (h : VariantsRespect f v view) (source : Source) {tag fields fields' : Tree}
    (hstep : ∀ s, f.named? tag = some s → Step (.struct s) fields fields')
    (hother : f.named? tag = none → Variants.checkOther fields = Variants.checkOther fields') :
    ((v.readTag source tag).toOption.bind (v.finish fields)).map view =
      ((v.readTag source tag).toOption.bind (v.finish fields')).map view := by
  cases hx : v.readTag source tag with
  | error e => rfl
  | ok x =>
    obtain ⟨hnone, rfl⟩ | ⟨s, r, hsome, rfl, hr⟩ := h.readTag hx
    · show ((Variants.checkOther fields).toOption.map _).map view =
        ((Variants.checkOther fields').toOption.map _).map view
      rw [hother hnone]
    · exact hr .buffered fields fields' (hstep s hsome)

/-- **A node respects changes** if its variants do. -/
theorem respects_node {f : Family} {v : Variants α} {view : α → β} (h : VariantsRespect f v view) :
    Respects (.node f) v.read view := by
  intro source t t' ⟨ht, ht', hchange⟩
  cases hchange with
  | @permute _ es es' _ hperm =>
    rw [Variants.toOption_read_obj v source ht, Variants.toOption_read_obj v source ht',
      ← Variants.onlyTag?_perm hperm]
    cases htag : Variants.onlyTag? es with
    | none => rfl
    | some tag =>
      refine h.map_finish source (fun s _ => ?_) fun _ => rfl
      exact ⟨Variants.sound_others ht, Variants.sound_others ht', .permute rfl (hperm.filter _)⟩
  | @add _ xs ys k u _ hreserved hunknown =>
    have hk : k ≠ tagKey := fun hk => hreserved (List.mem_singleton.mpr hk)
    have hsound := Variants.sound_others ht
    have hsound' := Variants.sound_others ht'
    rw [Variants.others_append] at hsound
    rw [Variants.others_append_cons hk] at hsound'
    rw [Variants.toOption_read_obj v source ht, Variants.toOption_read_obj v source ht',
      Variants.others_append, Variants.others_append_cons hk, Variants.onlyTag?_append_cons hk]
    cases htag : Variants.onlyTag? (xs ++ ys) with
    | none => rfl
    | some tag =>
      refine h.map_finish source (fun s hs => ?_) fun _ => rfl
      have hnotMem := hunknown s (.node (Variants.mem_of_onlyTag? htag) hs)
      refine ⟨hsound, hsound', .add rfl List.not_mem_nil fun s' hs' => ?_⟩
      cases hs'
      exact hnotMem
  | @field _ s xs ys k u u' hread hchange =>
    have hk : k ≠ tagKey := by
      rintro rfl
      rw [s.place_tagKey] at hchange
      exact not_change_leaf hchange
    have hsound := Variants.sound_others ht
    have hsound' := Variants.sound_others ht'
    rw [Variants.others_append_cons hk] at hsound hsound'
    rw [Variants.toOption_read_obj v source ht, Variants.toOption_read_obj v source ht',
      Variants.others_append_cons hk, Variants.others_append_cons hk,
      Variants.onlyTag?_append_cons hk u', ← Variants.onlyTag?_append_cons hk u xs ys]
    cases htag : Variants.onlyTag? (xs ++ (k, u) :: ys) with
    | none => rfl
    | some tag =>
      cases hread with
      | @node _ _ tag' _ hmem hnamed =>
        cases Variants.eq_of_onlyTag? htag hmem
        refine h.map_finish source (fun s' hs' => ?_) fun _ => rfl
        rw [hnamed] at hs'
        cases hs'
        exact ⟨hsound, hsound', .field (.struct s _) hchange⟩
  | @tagged _ s tag items items' hnamed hchange =>
    have hitems : (Tree.arr items).Sound :=
      Tree.sound_arr.mpr (List.forall_mem_cons.mp (Tree.sound_arr.mp ht)).2
    have hitems' : (Tree.arr items').Sound :=
      Tree.sound_arr.mpr (List.forall_mem_cons.mp (Tree.sound_arr.mp ht')).2
    rw [Variants.toOption_read_arr v source hitems, Variants.toOption_read_arr v source hitems']
    refine h.map_finish source (fun s' hs' => ?_) fun hnone => ?_
    · rw [hnamed] at hs'
      cases hs'
      exact ⟨hitems, hitems', hchange⟩
    · rw [hnamed] at hnone
      cases hnone

/-! ### Lists and maps -/

theorem toOption_list (r : Reader α) (s : Source) (items : List Tree) :
    (Reader.list r s (.arr items)).toOption = items.mapM fun t => (r s t).toOption := by
  rw [← Json.toOption_mapM, Tree.arr, Reader.list]
  cases items.mapM (r s) <;> rfl

section MapM

variable {γ : Type} (g : γ → Option α) (view : α → Option β)

theorem mapM_append_cons (xs : List γ) (x : γ) (ys : List γ) :
    (xs ++ x :: ys).mapM g =
      (xs.mapM g).bind fun as => (g x).bind fun a => (ys.mapM g).map fun bs => as ++ a :: bs := by
  rw [List.mapM_append, List.mapM_cons]
  cases xs.mapM g with
  | none => rfl
  | some as =>
    cases g x with
    | none => rfl
    | some a => cases ys.mapM g <;> rfl

/-- An item matters as far as it is seen. -/
theorem map_mapM_change {x x' : γ} (h : (g x).map view = (g x').map view) (xs ys : List γ) :
    ((xs ++ x :: ys).mapM g).map (List.filterMap view) =
      ((xs ++ x' :: ys).mapM g).map (List.filterMap view) := by
  rw [mapM_append_cons, mapM_append_cons]
  cases xs.mapM g with
  | none => rfl
  | some as =>
    cases ys.mapM g with
    | none => cases g x <;> cases g x' <;> rfl
    | some bs =>
      cases hx : g x with
      | none =>
        cases hx' : g x' with
        | none => rfl
        | some a' => rw [hx, hx'] at h; cases h
      | some a =>
        cases hx' : g x' with
        | none => rw [hx, hx'] at h; cases h
        | some a' =>
          rw [hx, hx'] at h
          have hview : view a = view a' := Option.some.inj h
          show some (List.filterMap view (as ++ a :: bs)) =
            some (List.filterMap view (as ++ a' :: bs))
          rw [List.filterMap_append, List.filterMap_append, List.filterMap_cons,
            List.filterMap_cons, hview]

/-- An item that is not seen does not matter. -/
theorem map_mapM_insert {x : γ} {a : α} (hx : g x = some a) (ha : view a = none)
    (xs ys : List γ) :
    ((xs ++ x :: ys).mapM g).map (List.filterMap view) =
      ((xs ++ ys).mapM g).map (List.filterMap view) := by
  rw [mapM_append_cons, List.mapM_append, hx]
  cases xs.mapM g with
  | none => rfl
  | some as =>
    cases ys.mapM g with
    | none => rfl
    | some bs =>
      show some (List.filterMap view (as ++ a :: bs)) = some (List.filterMap view (as ++ bs))
      rw [List.filterMap_append, List.filterMap_append, List.filterMap_cons_none ha]

end MapM

theorem respects_list {s : Struct} {r : Reader α} (h : Respects (.struct s) r id) :
    Respects (.list (.struct s)) (.list r) id := by
  intro source t t' ⟨ht, ht', hchange⟩
  cases hchange with
  | permute record => cases record
  | add record => cases record
  | field readAs => cases readAs
  | @item _ xs ys u u' hchange =>
    have hitem := h source u u' ⟨ht.item, ht'.item, hchange⟩
    simp only [Option.map_id_fun, id_eq] at hitem
    have hlist := map_mapM_change (fun t => (r source t).toOption) some
      (congrArg (Option.map some) hitem) xs ys
    rw [List.filterMap_some_fun] at hlist
    rw [toOption_list, toOption_list]
    exact hlist

/-- **A list of nodes respects changes**, also when it gets a node of an unknown variant. -/
theorem respects_nodes {f : Family} {v : Variants α} {view : α → Option β}
    (h : VariantsRespect f v view) (hother : view v.other = none) :
    Respects (.list (.node f)) (.list v.read) (List.filterMap view) := by
  intro source t t' ⟨ht, ht', hchange⟩
  cases hchange with
  | permute record => cases record
  | add record => cases record
  | field readAs => cases readAs
  | @item _ xs ys u u' hchange =>
    have hitem := respects_node h source u u' ⟨ht.item, ht'.item, hchange⟩
    rw [toOption_list, toOption_list]
    exact map_mapM_change (fun t => (v.read source t).toOption) view hitem xs ys
  | @insert _ xs ys es name htag hunknown =>
    have hread : (v.read source (.obj es)).toOption = some v.other := by
      have honly : Variants.onlyTag? es = some (.string (.ok name)) := by
        rw [Variants.onlyTag?, htag]
      rw [Variants.toOption_read_obj v source ht'.item, honly]
      obtain ⟨-, hv⟩ | ⟨s, r, hs, -⟩ := h.lookup name
      · show v.finish (.obj (Variants.others es)) (v.known.lookup name) = _
        rw [hv]
        rfl
      · rw [hunknown] at hs
        cases hs
    rw [toOption_list, toOption_list]
    exact (map_mapM_insert (fun t => (v.read source t).toOption) view hread hother xs ys).symm

theorem toOption_map_obj (r : Reader α) (s : Source) (es : List (String × Tree)) :
    (Reader.map r s (.obj es)).toOption =
      (es.mapM fun e => (r s e.2).toOption.map fun a => (e.1, a)).map OrderedMap.ofList := by
  have hentry : ∀ e : String × Tree, (Reader.entry r s (.ok e.1, e.2)).toOption =
      (r s e.2).toOption.map fun a => (e.1, a) := by
    intro e
    show ((r s e.2).bind fun a => .ok (e.1, a)).toOption = _
    cases r s e.2 <;> rfl
  have hentries : ((es.map fun e => ((.ok e.1 : Json.Key), e.2)).mapM (Reader.entry r s)).toOption =
      es.mapM fun e => (r s e.2).toOption.map fun a => (e.1, a) := by
    rw [Json.toOption_mapM, List.mapM_map]
    exact congrArg (fun g => List.mapM g es) (funext hentry)
  rw [← hentries, Tree.obj, Reader.map]
  cases (es.map fun e => ((.ok e.1 : Json.Key), e.2)).mapM (Reader.entry r s) <;> rfl

theorem respects_map {r : Reader α} {view : α → β} (h : Respects p r view) :
    Respects (.map p) (.map r) (OrderedMap.mapValues fun _ => view) := by
  intro source t t' ⟨ht, ht', hchange⟩
  cases hchange with
  | permute record => cases record
  | add record => cases record
  | field readAs => cases readAs
  | @value _ xs ys k u u' hchange =>
    have hvalue := h source u u' ⟨ht.value, ht'.value, hchange⟩
    let read (e : String × Tree) := (r source e.2).toOption.map fun a => (e.1, a)
    have hentry : (read (k, u)).map (fun e => some (e.1, view e.2)) =
        (read (k, u')).map fun e => some (e.1, view e.2) := by
      have h := congrArg (Option.map fun b => some (k, b)) hvalue
      rw [Option.map_map, Option.map_map] at h
      rw [Option.map_map, Option.map_map]
      exact h
    have hentries := map_mapM_change read (fun e => some (e.1, view e.2)) hentry xs ys
    have hview : ∀ x : Option (List (String × α)),
        (x.map OrderedMap.ofList).map (OrderedMap.mapValues fun _ => view) =
          (x.map (List.filterMap fun e => some (e.1, view e.2))).map OrderedMap.ofList := by
      intro x
      cases x with
      | none => rfl
      | some es =>
        rw [Option.map_some, Option.map_some, Option.map_some, Option.map_some,
          OrderedMap.mapValues_ofList, List.filterMap_eq_map']
    rw [toOption_map_obj, toOption_map_obj, hview, hview, hentries]

end Readers

end SolidityDocs.Schema
