import SolidityDocs.Json.Record

/-!
# Reading tagged nodes

A node is an object that names its variant under the key `nodeType`, anywhere among its entries; the
other entries are the fields of that variant.  A node may also be a list, with the variant first and
the fields after it.  A name that is not among the known variants denotes a node of no interest,
which has no fields.

The variant is read where it stands, and everything else is kept whole until the variant is known.
In a value that has been kept whole the variant may also be given by its index.
-/

namespace SolidityDocs.Json

/-- The key of the variant. -/
def tagKey : String := "nodeType"

/-- The variants of a node type, each with the reader of its fields; `other` stands for every node
of another variant.  The name of the type is for messages. -/
structure Variants (α : Type) where
  name : String
  known : List (String × Reader α)
  other : α

namespace Variants

variable {α : Type}

/-- Reads the variant: the reader of its fields, or nothing for another variant. -/
def readTag (v : Variants α) (s : Source) (t : Tree) : Except ReadError (Option (Reader α)) :=
  match s, t with
  | _, .string (.ok name) => .ok (v.known.lookup name)
  | .buffered, .number (.ok (.natural n)) => .ok (v.known[n]?.map Prod.snd)
  | _, t => .error (t.mismatch .variant)

/-- Goes over the entries of an object: reads the variant where it stands, and keeps the others. -/
def splitEntries (v : Variants α) (s : Source) :
    List (Key × Tree) → Option (Option (Reader α)) → List (Key × Tree) →
      Except ReadError (Option (Option (Reader α)) × List (Key × Tree))
  | [], tag, kept => .ok (tag, kept.reverse)
  | (k, t) :: es, tag, kept => do
    let k ← readKey k
    if k = tagKey then
      if tag.isSome then .error (.data (.duplicateField tagKey))
      else
        let tag ← v.readTag s t
        splitEntries v s es (some tag) kept
    else
      check (t.fault? .kept)
      splitEntries v s es tag ((.ok k, t) :: kept)

section Entry

variable {v : Variants α} {s : Source} {k : String} {t : Tree} {es kept : List (Key × Tree)}

theorem splitEntries_tag :
    v.splitEntries s ((.ok tagKey, t) :: es) none kept =
      (v.readTag s t).bind fun tag => v.splitEntries s es (some tag) kept := by
  rw [splitEntries]
  rfl

theorem splitEntries_duplicate (tag : Option (Reader α)) :
    v.splitEntries s ((.ok tagKey, t) :: es) (some tag) kept =
      .error (.data (.duplicateField tagKey)) := by
  rw [splitEntries]
  rfl

theorem splitEntries_field (hk : k ≠ tagKey) (tag : Option (Option (Reader α))) :
    v.splitEntries s ((.ok k, t) :: es) tag kept =
      (check (t.fault? .kept)).bind fun _ => v.splitEntries s es tag ((.ok k, t) :: kept) := by
  rw [splitEntries]
  simp only [readKey_ok, bind, Except.bind, if_neg hk]

end Entry

/-- The end of an object, after the variant may have been read. -/
def readEnd (tagged : Bool) (ending : ObjectEnd) : Except ReadError Unit :=
  match ending with
  | .noColon (.ok k) e =>
    if k = tagKey ∧ tagged then .error (.data (.duplicateField tagKey)) else .error (.text e)
  | ending => check (ending.error? .kept)

/-- The variant of a node, and its fields in the form of the node. -/
def split (v : Variants α) (s : Source) (t : Tree) :
    Except ReadError (Option (Reader α) × Tree) :=
  match t with
  | .object entries ending => do
    let (tag, rest) ← v.splitEntries s entries none []
    readEnd tag.isSome ending
    match tag with
    | none => .error (.data (.missingField tagKey))
    | some tag => return (tag, .object rest .closed)
  | .list [] ending => do
    check (ending.error? .kept)
    .error (.data (.missingField tagKey))
  | .list (t :: items) ending => do
    let tag ← v.readTag s t
    check ((Tree.itemsFault? .kept items).or (ending.error? .kept))
    return (tag, .list items .closed)
  | t => .error (t.mismatch (.node v.name))

/-- A node of another variant has no fields: the entries of an object are of no interest, but a list
may hold nothing more. -/
def checkOther : Tree → Except ReadError Unit
  | .list (_ :: items) _ => .error (.data (.invalidLength (items.length + 1) (.used 0)))
  | _ => .ok ()

/-- Reads a node. -/
def read (v : Variants α) : Reader α := fun s t => do
  let (tag, fields) ← v.split s t
  match tag with
  | some r => r .buffered fields
  | none =>
    checkOther fields
    return v.other

end Variants

end SolidityDocs.Json
