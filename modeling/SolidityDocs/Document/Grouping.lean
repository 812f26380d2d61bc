import SolidityDocs.Artifact.Roster
import SolidityDocs.Entry.Extract
import SolidityDocs.Map.Sorted

/-!
# Groupings

A grouping holds declarations by file and contract.  It is built category by category, and the parts
are merged: the lists of a contract that occurs in both parts are joined.
-/

namespace SolidityDocs

/-- Declarations by file and contract. -/
structure Grouping where
  files : SortedMap (SortedMap Declarations)
  deriving DecidableEq

namespace Grouping

/-- The grouping without declarations. -/
def empty : Grouping := ⟨.empty⟩

/-- The declarations of a contract, if it has any. -/
def get? (g : Grouping) (file name : String) : Option Declarations :=
  (g.files.get? file).bind fun contracts => contracts.get? name

/-- Changes the declarations of a contract, which are empty if it has none. -/
def update (g : Grouping) (file name : String) (f : Declarations → Declarations) : Grouping :=
  ⟨g.files.alter file fun contracts =>
    some ((contracts.getD .empty).alter name fun d => some (f (d.getD {})))⟩

/-- Adds a declaration to a contract. -/
def insert (g : Grouping) (file name : String) (d : Declaration) : Grouping :=
  g.update file name fun ds => ds.push d

/-- Adds the contracts of one file. -/
def mergeFile (g : Grouping) (file : String) (contracts : SortedMap Declarations) : Grouping :=
  contracts.entries.foldl (fun g e => g.update file e.1 fun ds => ds.append e.2) g

/-- Adds another grouping; the lists of the other one come after those of this one. -/
def merge (g h : Grouping) : Grouping := h.files.entries.foldl (fun g e => g.mergeFile e.1 e.2) g

/-- Takes the declarations of a contract out. -/
def take (g : Grouping) (file name : String) : Option Declarations × Grouping :=
  match g.files.get? file with
  | none => (none, g)
  | some contracts =>
    let rest := contracts.alter name fun _ => none
    (contracts.get? name, ⟨g.files.alter file fun _ => if rest.isEmpty then none else some rest⟩)

/-- The number of declarations of a category in a contract. -/
def count (g : Grouping) (file name : String) (c : Category) : Nat :=
  ((g.get? file name).map fun d => d.count c).getD 0

/-- Whether a contract has declarations. -/
def contains (g : Grouping) (file name : String) : Bool := (g.get? file name).isSome

/-- The number of contracts with declarations. -/
def size (g : Grouping) : Nat := g.files.entries.foldr (fun e n => e.2.size + n) 0

/-- Whether there are no declarations. -/
def isEmpty (g : Grouping) : Bool := g.files.isEmpty

/-! ## What the operations do to the slots -/

@[simp] theorem get?_empty (file name : String) : empty.get? file name = none := rfl

/-- Changing the declarations of a contract changes no other contract. -/
theorem get?_update (g : Grouping) (file name : String) (f : Declarations → Declarations)
    (file' name' : String) :
    (g.update file name f).get? file' name' =
      if file' = file ∧ name' = name then some (f ((g.get? file name).getD {}))
      else g.get? file' name' := by
  unfold update get?
  rw [SortedMap.get?_alter]
  by_cases hf : file' = file
  · subst hf
    simp only [if_true, Option.bind_some, SortedMap.get?_alter, true_and]
    cases hg : g.files.get? file' with
    | none => by_cases hn : name' = name <;> simp [hn]
    | some contracts => by_cases hn : name' = name <;> simp [hn]
  · simp only [hf, false_and, if_false]

/-- Adding a declaration adds it to its own contract alone. -/
theorem get?_insert (g : Grouping) (file name : String) (d : Declaration) (file' name' : String) :
    (g.insert file name d).get? file' name' =
      if file' = file ∧ name' = name then some (((g.get? file name).getD {}).push d)
      else g.get? file' name' :=
  g.get?_update file name _ file' name'

/-- What is taken out is what was there. -/
theorem fst_take (g : Grouping) (file name : String) : (g.take file name).1 = g.get? file name := by
  unfold take get?
  cases g.files.get? file <;> rfl

/-! ## Building a grouping -/

/-- Adds the declaration of a member of a contract, if it has the category. -/
def addMember (category : Category) (c : Collected) (g : Grouping) (m : Ast.Member) :
    Logged Grouping :=
  if memberCategory? m = some category then do
    let d ← declarationOf c.lines m
    return match d with
      | some d => g.insert c.file c.definition.name d
      | none => g
  else pure g

/-- The declarations of one category of all definitions of a roster. -/
def ofCategory (r : Roster) (category : Category) : Logged Grouping :=
  Logged.fold (fun g c => Logged.fold (addMember category c) g c.definition.nodes) .empty r.toList

/-- The declarations of the given categories of all definitions of a roster, merged in order. -/
def ofCategories (r : Roster) (categories : List Category) : Logged Grouping :=
  Logged.fold (fun g category => do
    let h ← ofCategory r category
    return g.merge h) .empty categories

/-- All declarations of a roster. -/
def aggregate (r : Roster) : Logged Grouping := do
  let g ← ofCategories r Category.all
  Logged.emit (.aggregated r.kind g.size)
  return g

end Grouping

end SolidityDocs
