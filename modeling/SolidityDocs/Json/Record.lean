import SolidityDocs.Json.Reader

/-!
# Reading records

A record type is described once, by the list of its fields.  The description serves both forms in
which a record is written: an object with the fields as keys in any order, and a list of the fields
in their order.

A field knows how to put its value into a record under construction, which starts as the blank
record.  A field that is not required may be missing and then keeps the blank's value.

* In an object, keys that name no field are skipped; a field that occurs twice is an error at its
  second place; required fields are missed at the end of the object.
* In a list, the first required field without an element is an error, and so are elements that are
  left over.
-/

namespace SolidityDocs.Json

/-- A field of the record type `σ`; `put` reads its value and puts it into a record. -/
structure Field (σ : Type) where
  key : String
  required : Bool
  put : Source → Tree → σ → Except ReadError σ

namespace Field

variable {σ α : Type}

/-- A field that may be missing. -/
def optional (key : String) (r : Reader α) (set : α → σ → σ) : Field σ :=
  ⟨key, false, fun s t a => (r s t).map fun v => set v a⟩

/-- A field that has to be there. -/
def needed (key : String) (r : Reader α) (set : α → σ → σ) : Field σ :=
  ⟨key, true, fun s t a => (r s t).map fun v => set v a⟩

end Field

/-- The description of a record type: its name in messages, its fields in order, and the record
before any field is read. -/
structure Record (σ : Type) where
  name : String
  fields : List (Field σ)
  blank : σ

namespace Record

variable {σ : Type}

/-- The field with a key. -/
def field? (r : Record σ) (k : String) : Option (Field σ) := r.fields.find? fun f => f.key = k

/-- A field is found by its key. -/
theorem field?_of_mem {r : Record σ} (hnodup : (r.fields.map Field.key).Nodup) {f : Field σ}
    (hf : f ∈ r.fields) : r.field? f.key = some f := by
  unfold field?
  generalize r.fields = fs at hnodup hf ⊢
  induction fs with
  | nil => cases hf
  | cons g gs ih =>
    rw [List.map_cons, List.nodup_cons] at hnodup
    rcases List.mem_cons.mp hf with rfl | hf
    · simp
    · have hne : g.key ≠ f.key := fun h => hnodup.1 (h ▸ List.mem_map_of_mem hf)
      rw [List.find?_cons_of_neg (by simpa using hne)]
      exact ih hnodup.2 hf

/-! ## Objects -/

/-- Reads the entries of an object, given the keys of the fields that have been read. -/
def readEntries (r : Record σ) (s : Source) :
    List (Key × Tree) → List String → σ → Except ReadError (List String × σ)
  | [], seen, a => .ok (seen, a)
  | (k, t) :: es, seen, a => do
    let k ← readKey k
    match r.field? k with
    | none =>
      check (t.fault? .skipped)
      readEntries r s es seen a
    | some f =>
      if k ∈ seen then .error (.data (.duplicateField k))
      else
        let a ← f.put s t a
        readEntries r s es (k :: seen) a

section Entry

variable {r : Record σ} {s : Source} {k : String} {t : Tree} {es : List (Key × Tree)}
  {seen : List String} {a : σ} {f : Field σ}

theorem readEntries_unknown (hf : r.field? k = none) :
    r.readEntries s ((.ok k, t) :: es) seen a =
      (check (t.fault? .skipped)).bind fun _ => r.readEntries s es seen a := by
  rw [readEntries]
  simp only [readKey_ok, bind, Except.bind, hf]

theorem readEntries_duplicate (hf : r.field? k = some f) (hseen : k ∈ seen) :
    r.readEntries s ((.ok k, t) :: es) seen a = .error (.data (.duplicateField k)) := by
  rw [readEntries]
  simp only [readKey_ok, bind, Except.bind, hf, if_pos hseen]

theorem readEntries_field (hf : r.field? k = some f) (hseen : k ∉ seen) :
    r.readEntries s ((.ok k, t) :: es) seen a =
      (f.put s t a).bind fun b => r.readEntries s es (k :: seen) b := by
  rw [readEntries]
  simp only [readKey_ok, bind, Except.bind, hf, if_neg hseen]

end Entry

/-- The end of an object.  A key without a colon counts as a key before the colon is missed. -/
def readEnd (r : Record σ) (seen : List String) (ending : ObjectEnd) : Except ReadError Unit :=
  match ending with
  | .noColon (.ok k) e =>
    if k ∈ seen ∧ (r.field? k).isSome then .error (.data (.duplicateField k))
    else .error (.text e)
  | ending => check (ending.error? .kept)

/-- The first required field that has not been read. -/
def missing? (r : Record σ) (seen : List String) : Option String :=
  (r.fields.find? fun f => f.required && f.key ∉ seen).map Field.key

/-- Reads an object. -/
def readObject (r : Record σ) (s : Source) (entries : List (Key × Tree)) (ending : ObjectEnd) :
    Except ReadError σ := do
  let (seen, a) ← r.readEntries s entries [] r.blank
  r.readEnd seen ending
  match r.missing? seen with
  | some k => .error (.data (.missingField k))
  | none => return a

/-! ## Lists -/

/-- The elements after those that were used: there should be none. -/
def leftover (s : Source) (used : Nat) (items : List Tree) (ending : ListEnd) :
    Except ReadError Unit :=
  match s, items with
  | .streamed, [] => check ending.errorAfterLast?
  | .streamed, _ :: _ => .error (.text .trailingCharacters)
  | .buffered, [] => .ok ()
  | .buffered, items => .error (.data (.invalidLength (used + items.length) (.used used)))

/-- Reads the elements of a list into the fields that are left, the first of which has the given
index. -/
def readItems (r : Record σ) (s : Source) (ending : ListEnd) :
    List (Field σ) → List Tree → Nat → σ → Except ReadError σ
  | [], items, n, a => do
    leftover s n items ending
    return a
  | f :: fs, t :: items, n, a => do
    let a ← f.put s t a
    readItems r s ending fs items (n + 1) a
  | f :: fs, [], n, a => do
    check (ending.error? .kept)
    if f.required then .error (.data (.invalidLength n (.record r.name r.fields.length)))
    else readItems r s ending fs [] (n + 1) a

/-! ## Either form -/

/-- Reads a record in either form. -/
def read (r : Record σ) : Reader σ := fun s t =>
  match t with
  | .object entries ending => r.readObject s entries ending
  | .list items ending => r.readItems s ending r.fields items 0 r.blank
  | t => .error (t.mismatch (.record r.name))

/-- Reads a record that has to be an object. -/
def readObjectOnly (r : Record σ) : Reader σ := fun s t =>
  match t with
  | .object entries ending => r.readObject s entries ending
  | t => .error (t.mismatch (.record r.name))

end Record

end SolidityDocs.Json
