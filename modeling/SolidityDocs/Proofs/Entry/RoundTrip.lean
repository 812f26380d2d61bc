import SolidityDocs.Proofs.Document.RoundTrip
import SolidityDocs.Proofs.Json.Unordered

/-!
# Declarations are read back without their category

A declaration is written as the object of its entry, and nothing in the object says which category
it has.  The reader tries the five categories in a fixed order and takes the first one that accepts
the object.  Keys that a category does not know are skipped, and some fields are left out when they
have no value, so the objects of different categories overlap.

What keeps the categories apart is a field that an earlier category needs and a later one does not
have: only functions have a `signature`, only events and modifiers have `parameters`, only variables
have a `type`.  Whatever the values are, an object without a needed key is refused
(`Json.Record.toOption_read_of_lacks`).  There is one pair that is not kept apart.  The fields of an
event are all needed, and a modifier has all of them, with one more that may be left out.  So every
modifier is read as an event, and its visibility is skipped like any unknown key
(`Json.Record.gives_read_of_known`).

* `Declaration.gives_read`: the first category that is not refused for a key decides.
* `Declaration.parse_render_eq_reread`: what is read back, for every declaration.
-/

namespace SolidityDocs

/-! ## Records with other keys -/

namespace Json.Record

variable {σ : Type} {r : Record σ} {es : List (String × Value)}

/-- The keys of the fields that have to be there. -/
def neededKeys (r : Record σ) : List String := (r.fields.filter Field.required).map Field.key

/-- Only keys of the entries are met on the way. -/
theorem mem_of_readEntries {s : Source} {seen : List String} {a : σ} {p : List String × σ}
    (h : r.readEntries s (Value.entryTrees es) seen a = .ok p) :
    ∀ k ∈ p.1, k ∈ es.map Prod.fst ∨ k ∈ seen := by
  induction es generalizing seen a with
  | nil =>
    cases h
    exact fun k hk => Or.inr hk
  | cons e es ih =>
    obtain ⟨key, v⟩ := e
    rw [Value.entryTrees] at h
    intro k hk
    rw [List.map_cons, List.mem_cons]
    cases hf : r.field? key with
    | none =>
      rw [readEntries_unknown hf, Tree.fault?_tree, check_none] at h
      rcases ih h k hk with hmem | hmem
      · exact Or.inl (Or.inr hmem)
      · exact Or.inr hmem
    | some f =>
      by_cases hseen : key ∈ seen
      · rw [readEntries_duplicate hf hseen] at h
        cases h
      · rw [readEntries_field hf hseen] at h
        cases hput : f.put s v.tree a with
        | error e =>
          rw [hput] at h
          cases h
        | ok b =>
          rw [hput] at h
          rcases ih h k hk with hmem | hmem
          · exact Or.inl (Or.inr hmem)
          · rcases List.mem_cons.mp hmem with hkey | hmem
            · exact Or.inl (Or.inl hkey)
            · exact Or.inr hmem

/-- **An object without a needed key is refused**, whatever its values are. -/
theorem toOption_read_of_lacks {k : String} (hk : k ∈ r.neededKeys) (hes : k ∉ es.map Prod.fst)
    (s : Source) : (r.read s (Value.object es).tree).toOption = none := by
  obtain ⟨f, hf, rfl⟩ := List.mem_map.mp hk
  obtain ⟨hf, hrequired⟩ := List.mem_filter.mp hf
  show (r.readObject s (Value.entryTrees es) .closed).toOption = none
  unfold readObject
  cases hrun : r.readEntries s (Value.entryTrees es) [] r.blank with
  | error e => rfl
  | ok p =>
    have hunseen : f.key ∉ p.1 := by
      intro hmem
      rcases mem_of_readEntries hrun _ hmem with hmem | hmem
      · exact hes hmem
      · cases hmem
    have hmissing : (r.missing? p.1).isSome = true := by
      unfold missing?
      rw [Option.isSome_map, List.find?_isSome]
      exact ⟨f, hf, by simp [hrequired, hunseen]⟩
    obtain ⟨key, hkey⟩ := Option.isSome_iff_exists.mp hmissing
    simp only [bind, Except.bind, hkey]
    rfl

/-- Entries with unknown keys make no difference. -/
theorem readEntries_known (s : Source) (seen : List String) (a : σ) :
    r.readEntries s (Value.entryTrees es) seen a =
      r.readEntries s (Value.entryTrees (es.filter fun e => e.1 ∈ r.keys)) seen a := by
  induction es generalizing seen a with
  | nil => rfl
  | cons e es ih =>
    obtain ⟨key, v⟩ := e
    cases hf : r.field? key with
    | none =>
      have hkey : key ∉ r.keys := field?_eq_none_iff.mp hf
      rw [List.filter_cons_of_neg (by simpa using hkey), Value.entryTrees,
        readEntries_unknown hf, Tree.fault?_tree, check_none]
      exact ih seen a
    | some f =>
      have hkey : key ∈ r.keys := mem_keys_of_field? hf
      rw [List.filter_cons_of_pos (by simpa using hkey), Value.entryTrees, Value.entryTrees]
      by_cases hseen : key ∈ seen
      · rw [readEntries_duplicate hf hseen, readEntries_duplicate hf hseen]
      · rw [readEntries_field hf hseen, readEntries_field hf hseen]
        simp only [ih]

/-- **A record is read from its known entries.** -/
theorem gives_read_of_known (hes : Value.EntriesFit es) {x : Except ReadError σ}
    (h : Reader.Gives r.read (.object (es.filter fun e => e.1 ∈ r.keys)) x) :
    Reader.Gives r.read (.object es) x where
  fits := hes
  read s := by
    rw [← h.read s]
    show r.readObject s (Value.entryTrees es) .closed =
      r.readObject s (Value.entryTrees (es.filter fun e => e.1 ∈ r.keys)) .closed
    unfold readObject
    rw [readEntries_known]

end Json.Record

/-! ## Declarations -/

open Json (Value)
open Json.Reader (Gives)

namespace Declaration

/-- The keys that an entry of a category has to have. -/
def neededKeys : Category → List String
  | .functions => FunctionEntry.record.neededKeys
  | .events => EventEntry.record.neededKeys
  | .stateVariables => VariableEntry.record.neededKeys
  | .modifiers => ModifierEntry.record.neededKeys
  | .structs => StructEntry.record.neededKeys

theorem toOption_readAs_of_lacks {c : Category} {k : String} (hk : k ∈ neededKeys c)
    {es : List (String × Value)} (hes : k ∉ es.map Prod.fst) (s : Json.Source) :
    (readAs c s (Value.object es).tree).toOption = none := by
  cases c <;>
  · rw [readAs, Json.toOption_map, Json.Record.toOption_read_of_lacks hk hes]
    rfl

/-- The first category that the object is not refused by for a missing key decides. -/
theorem gives_read (earlier : List Category) {later : List Category} {c : Category}
    (hall : Category.all = earlier ++ c :: later) {es : List (String × Value)}
    (hearlier : ∀ b ∈ earlier, ∃ k ∈ neededKeys b, k ∉ es.map Prod.fst) {d : Declaration}
    (hc : Gives (readAs c) (.object es) (.ok d)) : Gives read (.object es) (.ok d) := by
  refine Json.Reader.gives_firstOf hc.fits ?_
  have hrefused : ((earlier.map readAs).findSome? fun r =>
      (r .buffered (Value.object es).tree).toOption) = none := by
    rw [List.findSome?_eq_none_iff]
    intro r hr
    obtain ⟨b, hb, rfl⟩ := List.mem_map.mp hr
    obtain ⟨k, hk, hes⟩ := hearlier b hb
    exact toOption_readAs_of_lacks hk hes _
  rw [hall, List.map_append, List.findSome?_append, hrefused, List.map_cons, List.findSome?_cons,
    hc.read]
  rfl

/-- What a declaration is read back as: a modifier has become an event. -/
def reread : Declaration → Declaration
  | modifier m => event ⟨m.name, m.parameters, m.lineNumber⟩
  | d => d

end Declaration

/-- A modifier is accepted as an event. -/
theorem ModifierEntry.gives_event {m : ModifierEntry} (hm : m.lineNumber < Nat.pow 2 64) :
    Gives EventEntry.record.read m.toJson (.ok ⟨m.name, m.parameters, m.lineNumber⟩) := by
  refine Json.Record.gives_read_of_known (m.gives_toJson hm).fits ?_
  cases hv : m.visibility with
  | none => exact EventEntry.gives_toJson (e := ⟨m.name, m.parameters, m.lineNumber⟩) hm
  | some v => exact EventEntry.gives_toJson (e := ⟨m.name, m.parameters, m.lineNumber⟩) hm

namespace Declaration

/-- An entry that may be left out has no key but its own. -/
theorem notMem_keys_optionalEntry {α : Type} {k k' : String} (h : k' ≠ k) (f : α → Value)
    (o : Option α) : k' ∉ (Value.optionalEntry k f o).map Prod.fst := by
  cases o with
  | none => exact List.not_mem_nil
  | some a => exact fun hmem => h (List.mem_singleton.mp hmem)

theorem gives_toJson {d : Declaration} (hd : ∀ n ∈ d.lines, n < Nat.pow 2 64) :
    Gives read d.toJson (.ok d.reread) := by
  cases d with
  | function e =>
    exact gives_read [] rfl nofun
      ((FunctionEntry.gives_toJson hd).map Declaration.function)
  | event e =>
    have hline := hd _ (List.mem_singleton_self _)
    refine gives_read [.functions] rfl (fun b hb => ?_)
      ((EventEntry.gives_toJson hline).map Declaration.event)
    rw [List.mem_singleton.mp hb]
    exact ⟨"signature", by decide, by simp⟩
  | stateVariable e =>
    have hline := hd _ (List.mem_singleton_self _)
    refine gives_read [.functions, .events] rfl (fun b hb => ?_)
      ((VariableEntry.gives_toJson hline).map Declaration.stateVariable)
    simp only [List.mem_cons, List.not_mem_nil, or_false] at hb
    rcases hb with rfl | rfl
    · exact ⟨"signature", by decide, by simp [notMem_keys_optionalEntry]⟩
    · exact ⟨"parameters", by decide, by simp [notMem_keys_optionalEntry]⟩
  | modifier m =>
    have hline := hd _ (List.mem_singleton_self _)
    refine gives_read [.functions] rfl (fun b hb => ?_)
      ((ModifierEntry.gives_event hline).map Declaration.event)
    rw [List.mem_singleton.mp hb]
    exact ⟨"signature", by decide, by simp [notMem_keys_optionalEntry]⟩
  | structType e =>
    have hline := hd _ (List.mem_singleton_self _)
    refine gives_read [.functions, .events, .stateVariables, .modifiers] rfl
      (fun b hb => ?_) ((StructEntry.gives_toJson hline).map Declaration.structType)
    simp only [List.mem_cons, List.not_mem_nil, or_false] at hb
    rcases hb with rfl | rfl | rfl | rfl
    · exact ⟨"signature", by decide, by simp⟩
    · exact ⟨"parameters", by decide, by simp⟩
    · exact ⟨"type", by decide, by simp⟩
    · exact ⟨"parameters", by decide, by simp⟩

/-- **Every declaration is read back, and only modifiers change.**  Whatever the values are and
however the text is laid out, a declaration is read back as it was, except that a modifier is read
back as the event with the same name, parameters and line.  So the category is kept exactly by those
that are not modifiers. -/
theorem parse_render_eq_reread (d : Declaration) (hd : ∀ n ∈ d.lines, n < Nat.pow 2 64)
    {l : Json.Layout} (hl : l.IsBlank) :
    read.parse (d.toJson.render l) = .ok d.reread ∧
      (d.category ≠ .modifiers → d.reread = d) ∧
      (∀ m, d = .modifier m → d.reread = .event ⟨m.name, m.parameters, m.lineNumber⟩) ∧
      (d.reread.category = d.category ↔ d.category ≠ .modifiers) := by
  refine ⟨(gives_toJson hd).parse_eq hl, fun hcategory => ?_, ?_, ?_⟩
  · cases d with
    | modifier m => exact absurd rfl hcategory
    | _ => rfl
  · rintro m rfl
    rfl
  · cases d <;> simp [reread, category]

/-- A modifier with a visibility, on one line, and a function without any of the values that may be
left out, with the greatest line number, on several lines. -/
theorem parse_render_eq_reread_modifier :
    let m : ModifierEntry := ⟨"only\"Owner", "(address a)", some .internal, 3⟩
    let f : FunctionEntry :=
      ⟨"f", "f()", "()", [], none, [], none, none, [⟨18446744073709551615, "é\n"⟩], 1⟩
    (∀ n ∈ (modifier m).lines, n < Nat.pow 2 64) ∧
      (∀ n ∈ (function f).lines, n < Nat.pow 2 64) ∧
      read.parse ((modifier m).toJson.compact) = .ok (.event ⟨"only\"Owner", "(address a)", 3⟩) ∧
      read.parse ((function f).toJson.pretty 2) = .ok (.function f) := by
  intro m f
  have hm : ∀ n ∈ (modifier m).lines, n < Nat.pow 2 64 := by decide
  have hf : ∀ n ∈ (function f).lines, n < Nat.pow 2 64 := by decide
  exact ⟨hm, hf, (parse_render_eq_reread _ hm Json.Layout.isBlank_compact).1,
    (parse_render_eq_reread _ hf (Json.Layout.isBlank_indented 2)).1⟩

end Declaration

end SolidityDocs
