/-!
# Maps in order of first arrival

An `OrderedMap` keeps its keys in the order in which they first arrived.  A key that arrives again
keeps its place and takes the new value.  The keys are distinct by construction, so two maps are
equal exactly when they list the same entries in the same order.

* `OrderedMap.keys_insert`: what inserting does to the keys.
* `OrderedMap.get?_insert`: what inserting does to the values.
-/

namespace SolidityDocs

/-- The first entry of a key counts.  This is `List.lookup_cons` with a decision about the keys
instead of a boolean test. -/
theorem lookup_cons_ite {κ α : Type} [DecidableEq κ] (k : κ) (e : κ × α) (es : List (κ × α)) :
    (e :: es).lookup k = if k = e.1 then some e.2 else es.lookup k := by
  rw [List.lookup_cons]
  by_cases h : k = e.1
  · rw [if_pos h, h, beq_self_eq_true]
  · rw [if_neg h, beq_eq_false_iff_ne.mpr h]

/-- A map whose keys stand in order of first arrival. -/
structure OrderedMap (κ α : Type) where
  entries : List (κ × α)
  nodup : (entries.map Prod.fst).Nodup
  deriving DecidableEq

namespace OrderedMap

variable {κ α β : Type}

@[ext] theorem ext {m n : OrderedMap κ α} (h : m.entries = n.entries) : m = n := by
  cases m; cases n; cases h; rfl

/-- The map without entries. -/
def empty : OrderedMap κ α := ⟨[], List.nodup_nil⟩

instance : Inhabited (OrderedMap κ α) := ⟨empty⟩

@[simp] theorem entries_empty : (empty : OrderedMap κ α).entries = [] := rfl

/-- The keys in order. -/
def keys (m : OrderedMap κ α) : List κ := m.entries.map Prod.fst

/-- The values in the order of their keys. -/
def values (m : OrderedMap κ α) : List α := m.entries.map Prod.snd

/-- The number of entries. -/
def size (m : OrderedMap κ α) : Nat := m.entries.length

/-- Whether there are no entries. -/
def isEmpty (m : OrderedMap κ α) : Bool := m.entries.isEmpty

/-- The same keys with other values. -/
def mapValues (f : κ → α → β) (m : OrderedMap κ α) : OrderedMap κ β :=
  ⟨m.entries.map fun e => (e.1, f e.1 e.2), by
    rw [List.map_map]; exact m.nodup⟩

variable [DecidableEq κ]

/-- The value of a key. -/
def get? (m : OrderedMap κ α) (k : κ) : Option α := m.entries.lookup k

/-- Whether a key has a value. -/
def contains (m : OrderedMap κ α) (k : κ) : Bool := (m.get? k).isSome

/-- Replaces the entry of a key in its place, or adds one at the end. -/
def putEntry (k : κ) (v : α) : List (κ × α) → List (κ × α)
  | [] => [(k, v)]
  | e :: es => if e.1 = k then (k, v) :: es else e :: putEntry k v es

theorem keys_putEntry (k : κ) (v : α) (es : List (κ × α)) :
    (putEntry k v es).map Prod.fst =
      if k ∈ es.map Prod.fst then es.map Prod.fst else es.map Prod.fst ++ [k] := by
  induction es with
  | nil => rfl
  | cons e es ih =>
    rw [putEntry]
    by_cases h : e.1 = k
    · simp [h]
    · rw [if_neg h, List.map_cons, ih]
      by_cases hk : k ∈ es.map Prod.fst
      · simp [hk]
      · simp [hk, Ne.symm h]

theorem nodup_putEntry {k : κ} {v : α} {es : List (κ × α)} (h : (es.map Prod.fst).Nodup) :
    ((putEntry k v es).map Prod.fst).Nodup := by
  rw [keys_putEntry]
  split
  · exact h
  · rename_i hk
    rw [List.nodup_append]
    refine ⟨h, List.nodup_cons.mpr ⟨List.not_mem_nil, List.nodup_nil⟩, ?_⟩
    intro a ha b hb hab
    rw [List.mem_singleton] at hb
    exact hk (hb ▸ hab ▸ ha)

/-- Gives a key a value.  A key that has one already keeps its place. -/
def insert (m : OrderedMap κ α) (k : κ) (v : α) : OrderedMap κ α :=
  ⟨putEntry k v m.entries, nodup_putEntry m.nodup⟩

/-- Inserts entries one after the other. -/
def insertAll (m : OrderedMap κ α) (es : List (κ × α)) : OrderedMap κ α :=
  es.foldl (fun m e => m.insert e.1 e.2) m

/-- The map of a list of entries; a key that occurs again keeps its place with the last value. -/
def ofList (es : List (κ × α)) : OrderedMap κ α := empty.insertAll es

@[simp] theorem entries_insert (m : OrderedMap κ α) (k : κ) (v : α) :
    (m.insert k v).entries = putEntry k v m.entries := rfl

/-- Inserting keeps the keys, and adds a new one at the end. -/
theorem keys_insert (m : OrderedMap κ α) (k : κ) (v : α) :
    (m.insert k v).keys = if k ∈ m.keys then m.keys else m.keys ++ [k] :=
  keys_putEntry k v m.entries

theorem lookup_putEntry (k : κ) (v : α) (es : List (κ × α)) (k' : κ) :
    (putEntry k v es).lookup k' = if k' = k then some v else es.lookup k' := by
  induction es with
  | nil => rw [putEntry, lookup_cons_ite]
  | cons e es ih =>
    rw [putEntry]
    by_cases h : e.1 = k
    · rw [if_pos h, lookup_cons_ite, lookup_cons_ite, h]
      by_cases h' : k' = k
      · rw [if_pos h', if_pos h']
      · rw [if_neg h', if_neg h', if_neg h']
    · rw [if_neg h, lookup_cons_ite, lookup_cons_ite, ih]
      by_cases h' : k' = e.1
      · rw [if_pos h', if_pos h', if_neg (h' ▸ h)]
      · rw [if_neg h', if_neg h']

/-- After inserting, the key has the new value and every other key its old one. -/
theorem get?_insert (m : OrderedMap κ α) (k : κ) (v : α) (k' : κ) :
    (m.insert k v).get? k' = if k' = k then some v else m.get? k' :=
  lookup_putEntry k v m.entries k'

@[simp] theorem get?_empty (k : κ) : (empty : OrderedMap κ α).get? k = none := rfl

end OrderedMap

end SolidityDocs
