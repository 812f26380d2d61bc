import Mathlib
import SolidityDocs.Document.Basic
import SolidityDocs.Proofs.Json.RoundTrip

/-!
# Documents are read back from their text

A document is written with its fields in order, and fields without a value left out.  This file
proves that its text, with any number of blanks a level, is read back as the same document.

Line numbers are unbounded here, while a text is read back only up to numbers of 64 bits.
`Document.lines` collects the line numbers of a document; they are all that its text has in numbers.

Main statement: `Document.parse_render`.
-/

namespace SolidityDocs

open Json (Reader Record ReadError)
open Json.Reader (Gives)

/-! ## Line numbers -/

/-- The line numbers in a declaration. -/
def Declaration.lines : Declaration → List Nat
  | function e => e.lineNumber :: e.requires.map Guard.lineNumber
  | event e => [e.lineNumber]
  | stateVariable e => [e.lineNumber]
  | modifier e => [e.lineNumber]
  | structType e => [e.lineNumber]

/-- The line numbers in the declarations of a contract. -/
def Declarations.lines (d : Declarations) : List Nat :=
  Category.all.flatMap fun c => (d.ofCategory c).flatMap Declaration.lines

/-- The line numbers in the documentation of a file. -/
def FileEntry.lines (f : FileEntry) : List Nat :=
  Kind.all.flatMap fun kind => (f.part kind).values.flatMap fun c => c.lines

/-- The line numbers in a document. -/
def Document.lines (d : Document) : List Nat := d.files.values.flatMap FileEntry.lines

theorem Declarations.mem_lines {d : Declarations} {r : Declaration}
    (hr : r ∈ d.ofCategory r.category) {n : Nat} (hn : n ∈ r.lines) : n ∈ d.lines := by
  refine List.mem_flatMap.mpr ⟨r.category, ?_, List.mem_flatMap.mpr ⟨r, hr, hn⟩⟩
  cases r.category <;> decide

theorem FileEntry.mem_lines {f : FileEntry} (kind : Kind) {c : ContractEntry}
    (hc : c ∈ (f.part kind).values) {n : Nat} (hn : n ∈ c.lines) : n ∈ f.lines := by
  refine List.mem_flatMap.mpr ⟨kind, ?_, List.mem_flatMap.mpr ⟨c, hc, hn⟩⟩
  cases kind <;> decide

/-! ## Declarations -/

theorem Guard.gives_toJson {g : Guard} (hg : g.lineNumber < Nat.pow 2 64) :
    Gives record.read g.toJson (.ok g) := by
  refine Record.gives_read (by decide) ?_
  refine .needed (Reader.gives_word64 hg) ?_
  refine .needed (Reader.gives_string g.name) ?_
  exact .nil _

theorem FunctionEntry.gives_toJson {e : FunctionEntry}
    (he : ∀ n ∈ (Declaration.function e).lines, n < Nat.pow 2 64) :
    Gives record.read e.toJson (.ok e) := by
  obtain ⟨hline, hguards⟩ := List.forall_mem_cons.mp he
  have hrequires : ∀ g ∈ e.requires, Gives Guard.record.read g.toJson (.ok g) :=
    fun g hg => Guard.gives_toJson (hguards _ (List.mem_map_of_mem hg))
  refine Record.gives_read (by decide) ?_
  refine .needed (Reader.gives_string e.name) ?_
  refine .needed (Reader.gives_string e.signature) ?_
  refine .needed (Reader.gives_string e.returns) ?_
  refine .needed (Reader.gives_list_ok fun s _ => Reader.gives_string s) ?_
  refine .optionalEntry nofun (fun b _ => Reader.gives_boolean b) rfl ?_
  refine .needed (Reader.gives_list_ok fun s _ => Reader.gives_string s) ?_
  refine .optionalEntry nofun (fun v _ => v.gives_toJson) rfl ?_
  refine .optionalEntry nofun (fun m _ => m.gives_toJson) rfl ?_
  refine .needed (Reader.gives_list_ok hrequires) ?_
  refine .needed (Reader.gives_word64 hline) ?_
  exact .nil _

theorem EventEntry.gives_toJson {e : EventEntry} (he : e.lineNumber < Nat.pow 2 64) :
    Gives record.read e.toJson (.ok e) := by
  refine Record.gives_read (by decide) ?_
  refine .needed (Reader.gives_string e.name) ?_
  refine .needed (Reader.gives_string e.parameters) ?_
  refine .needed (Reader.gives_word64 he) ?_
  exact .nil _

theorem VariableEntry.gives_toJson {e : VariableEntry} (he : e.lineNumber < Nat.pow 2 64) :
    Gives record.read e.toJson (.ok e) := by
  rw [toJson, ← List.append_nil (Json.Value.optionalEntry "visibility" _ _)]
  refine Record.gives_read (by decide) ?_
  refine .needed (Reader.gives_string e.name) ?_
  refine .optionalEntry nofun (fun b _ => Reader.gives_boolean b) rfl ?_
  refine .needed (Reader.gives_string e.type) ?_
  refine .needed (Reader.gives_word64 he) ?_
  refine .optionalEntry nofun (fun v _ => v.gives_toJson) rfl ?_
  exact .nil _

theorem ModifierEntry.gives_toJson {e : ModifierEntry} (he : e.lineNumber < Nat.pow 2 64) :
    Gives record.read e.toJson (.ok e) := by
  refine Record.gives_read (by decide) ?_
  refine .needed (Reader.gives_string e.name) ?_
  refine .needed (Reader.gives_string e.parameters) ?_
  refine .optionalEntry nofun (fun v _ => v.gives_toJson) rfl ?_
  refine .needed (Reader.gives_word64 he) ?_
  exact .nil _

theorem StructMember.gives_toJson (m : StructMember) : Gives record.read m.toJson (.ok m) := by
  refine Record.gives_read (by decide) ?_
  refine .needed (Reader.gives_string m.name) ?_
  refine .needed (Reader.gives_string m.type) ?_
  exact .nil _

theorem StructEntry.gives_toJson {e : StructEntry} (he : e.lineNumber < Nat.pow 2 64) :
    Gives record.read e.toJson (.ok e) := by
  refine Record.gives_read (by decide) ?_
  refine .needed (Reader.gives_string e.name) ?_
  refine .needed (Reader.gives_list_ok fun m _ => m.gives_toJson) ?_
  refine .needed (Reader.gives_word64 he) ?_
  exact .nil _

/-! ## Contracts, files and documents -/

theorem ContractEntry.gives_toJson {c : ContractEntry} (hc : ∀ n ∈ c.lines, n < Nat.pow 2 64) :
    Gives record.read c.toJson (.ok c) := by
  have hlines : ∀ r : Declaration, r ∈ c.ofCategory r.category →
      ∀ n ∈ r.lines, n < Nat.pow 2 64 := fun r hr n hn => hc n (Declarations.mem_lines hr hn)
  refine Record.gives_read (by decide) ?_
  refine .needed (Reader.gives_list_ok fun e he => ?_) ?_
  · exact e.gives_toJson (hlines (.function e) (List.mem_map_of_mem he))
  refine .needed (Reader.gives_list_ok fun e he => ?_) ?_
  · exact e.gives_toJson (hlines (.event e) (List.mem_map_of_mem he) _ (List.mem_cons_self ..))
  refine .needed (Reader.gives_list_ok fun e he => ?_) ?_
  · exact e.gives_toJson
      (hlines (.stateVariable e) (List.mem_map_of_mem he) _ (List.mem_cons_self ..))
  refine .needed (Reader.gives_list_ok fun e he => ?_) ?_
  · exact e.gives_toJson (hlines (.modifier e) (List.mem_map_of_mem he) _ (List.mem_cons_self ..))
  refine .needed (Reader.gives_list_ok fun e he => ?_) ?_
  · exact e.gives_toJson
      (hlines (.structType e) (List.mem_map_of_mem he) _ (List.mem_cons_self ..))
  refine .needed (Reader.gives_list_ok fun s _ => Reader.gives_string s) ?_
  exact .nil _

theorem FileEntry.gives_toJson {f : FileEntry} (hf : ∀ n ∈ f.lines, n < Nat.pow 2 64) :
    Gives record.read f.toJson (.ok f) := by
  have hpart : ∀ kind, Gives (.map ContractEntry.record.read)
      ((f.part kind).toJson ContractEntry.toJson) (.ok (f.part kind)) :=
    fun kind => Reader.gives_map_ok fun c hc =>
      ContractEntry.gives_toJson fun n hn => hf n (mem_lines kind hc hn)
  refine Record.gives_read (by decide) ?_
  refine .needed (Reader.gives_list_ok fun s _ => Reader.gives_string s) ?_
  refine .needed (hpart .contract) ?_
  refine .needed (hpart .interface) ?_
  refine .needed (hpart .library) ?_
  exact .nil _

namespace Document

theorem gives_toJson {d : Document} (hd : ∀ n ∈ d.lines, n < Nat.pow 2 64) :
    Gives read d.toJson (.ok d) := by
  have hfiles : Gives (.map FileEntry.record.read) (d.files.toJson FileEntry.toJson)
      (.ok d.files) :=
    Reader.gives_map_ok fun f hf =>
      FileEntry.gives_toJson fun n hn => hd n (List.mem_flatMap.mpr ⟨f, hf, hn⟩)
  exact hfiles.map Document.mk

/-- **A document is read back from its text**, however far the text is indented. -/
theorem parse_render (d : Document) (hd : ∀ n ∈ d.lines, n < Nat.pow 2 64) (indent : Nat) :
    parse (d.render indent) = .ok d :=
  (gives_toJson hd).parse_eq (Json.Layout.isBlank_indented indent)

/-- A document with quotes, control characters, fields without a value and the greatest line number,
written without indentation. -/
theorem parse_render_escaped :
    let guard : Guard := ⟨18446744073709551615, "require(\"é\\\")"⟩
    let function : FunctionEntry :=
      ⟨"f", "f()", "\t", ["\x01"], none, [], some .external, none, [guard], 0⟩
    let entry : ContractEntry :=
      { functions := [function], stateVariables := [⟨"x", some false, "uint", 7, none⟩] }
    let d : Document :=
      ⟨.ofList [("b\n.sol", {}), ("a.sol", { contracts := .ofList [("\x1f", entry)] })]⟩
    (∀ n ∈ d.lines, n < Nat.pow 2 64) ∧ parse (d.render 0) = .ok d :=
  ⟨by decide, parse_render _ (by decide) 0⟩

end Document

end SolidityDocs
