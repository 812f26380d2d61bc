import SolidityDocs.Map.Ordered

/-!
# Maps in order of their keys

A `SortedMap` keeps its entries in strictly increasing order of their keys.  Such a map is
determined by its values: `SortedMap.ext_get?` says that two maps with the same value at every key
are equal.  All changes go through `SortedMap.alter`.

* `SortedMap.get?_alter`: what changing one key does to the values.
* `SortedMap.ext_get?`: maps with the same values are equal.
-/

namespace SolidityDocs

/-- A map with text keys in increasing order. -/
structure SortedMap (α : Type) where
  entries : List (String × α)
  sorted : entries.Pairwise fun a b => a.1 < b.1
  deriving DecidableEq

namespace SortedMap

variable {α : Type}

/-- The map without entries. -/
def empty : SortedMap α := ⟨[], List.Pairwise.nil⟩

instance : Inhabited (SortedMap α) := ⟨empty⟩

/-- The number of entries. -/
def size (m : SortedMap α) : Nat := m.entries.length

/-- Whether there are no entries. -/
def isEmpty (m : SortedMap α) : Bool := m.entries.isEmpty

/-- The value of a key. -/
def get? (m : SortedMap α) (k : String) : Option α := m.entries.lookup k

/-- Whether a key has a value. -/
def contains (m : SortedMap α) (k : String) : Bool := (m.get? k).isSome

/-- An entry in front, if there is a value for it. -/
def consIf (k : String) (v : Option α) (es : List (String × α)) : List (String × α) :=
  match v with
  | none => es
  | some v => (k, v) :: es

/-- Changes the value of one key in a sorted list of entries. -/
def alterEntry (k : String) (f : Option α → Option α) : List (String × α) → List (String × α)
  | [] => consIf k (f none) []
  | e :: es =>
    if k < e.1 then consIf k (f none) (e :: es)
    else if k = e.1 then consIf k (f (some e.2)) es
    else e :: alterEntry k f es

theorem mem_consIf {k : String} {v : Option α} {es : List (String × α)} {e : String × α}
    (h : e ∈ consIf k v es) : e.1 = k ∨ e ∈ es := by
  cases v with
  | none => exact .inr h
  | some v =>
    rcases List.mem_cons.mp h with rfl | h
    · exact .inl rfl
    · exact .inr h

theorem mem_alterEntry {k : String} {f : Option α → Option α} {es : List (String × α)}
    {e : String × α} (h : e ∈ alterEntry k f es) : e.1 = k ∨ e ∈ es := by
  induction es with
  | nil => exact mem_consIf h
  | cons a es ih =>
    rw [alterEntry] at h
    split at h
    · exact mem_consIf h
    · split at h
      · exact (mem_consIf h).imp_right (List.mem_cons_of_mem _)
      · rcases List.mem_cons.mp h with rfl | h
        · exact .inr (List.mem_cons_self ..)
        · exact (ih h).imp_right (List.mem_cons_of_mem _)

theorem sorted_consIf {k : String} {v : Option α} {es : List (String × α)}
    (hs : es.Pairwise fun a b => a.1 < b.1) (hk : ∀ e ∈ es, k < e.1) :
    (consIf k v es).Pairwise fun a b => a.1 < b.1 := by
  cases v with
  | none => exact hs
  | some v => exact List.pairwise_cons.mpr ⟨hk, hs⟩

theorem lt_of_not_lt_of_ne {a b : String} (h : ¬ a < b) (hne : ¬ a = b) : b < a := by
  by_cases hb : b < a
  · exact hb
  · exact absurd (String.le_antisymm (String.not_lt.mp hb) (String.not_lt.mp h)) hne

theorem sorted_alterEntry {k : String} {f : Option α → Option α} {es : List (String × α)}
    (hs : es.Pairwise fun a b => a.1 < b.1) :
    (alterEntry k f es).Pairwise fun a b => a.1 < b.1 := by
  induction es with
  | nil => exact sorted_consIf List.Pairwise.nil (by simp)
  | cons a es ih =>
    obtain ⟨ha, hs'⟩ := List.pairwise_cons.mp hs
    rw [alterEntry]
    split
    · rename_i hlt
      refine sorted_consIf hs fun e he => ?_
      rcases List.mem_cons.mp he with rfl | he
      · exact hlt
      · exact String.lt_trans hlt (ha e he)
    · rename_i hnlt
      split
      · rename_i heq
        exact sorted_consIf hs' (heq ▸ ha)
      · rename_i hne
        refine List.pairwise_cons.mpr ⟨fun e he => ?_, ih hs'⟩
        rcases mem_alterEntry he with rfl | he
        · exact lt_of_not_lt_of_ne hnlt hne
        · exact ha e he

/-- Changes the value of one key. -/
def alter (m : SortedMap α) (k : String) (f : Option α → Option α) : SortedMap α :=
  ⟨alterEntry k f m.entries, sorted_alterEntry m.sorted⟩

/-! ## The values -/

theorem lookup_eq_none_of_lt {k : String} {es : List (String × α)} (h : ∀ e ∈ es, k < e.1) :
    es.lookup k = none := by
  rw [List.lookup_eq_none_iff]
  intro e he
  have hne : ¬ k = e.1 := fun heq => String.lt_irrefl e.1 (heq ▸ h e he)
  simp [hne]

theorem lookup_consIf {k : String} {v : Option α} {es : List (String × α)}
    (hk : es.lookup k = none) (k' : String) :
    (consIf k v es).lookup k' = if k' = k then v else es.lookup k' := by
  by_cases h : k' = k
  · cases v with
    | none => simp [consIf, h, hk]
    | some v => simp [consIf, h]
  · cases v with
    | none => simp [consIf, h]
    | some v => simp [consIf, lookup_cons_ite, h]

theorem lookup_alterEntry {k : String} {f : Option α → Option α} {es : List (String × α)}
    (hs : es.Pairwise fun a b => a.1 < b.1) (k' : String) :
    (alterEntry k f es).lookup k' = if k' = k then f (es.lookup k) else es.lookup k' := by
  induction es with
  | nil => rw [alterEntry, lookup_consIf rfl]; rfl
  | cons a es ih =>
    obtain ⟨ha, hs'⟩ := List.pairwise_cons.mp hs
    rw [alterEntry]
    split
    · rename_i hlt
      have hnone : (a :: es).lookup k = none := lookup_eq_none_of_lt fun e he => by
        rcases List.mem_cons.mp he with rfl | he
        · exact hlt
        · exact String.lt_trans hlt (ha e he)
      rw [lookup_consIf hnone, hnone]
    · rename_i hnlt
      split
      · rename_i heq
        have hnone : es.lookup k = none := lookup_eq_none_of_lt (heq ▸ ha)
        rw [lookup_consIf hnone]
        by_cases h : k' = k
        · simp [lookup_cons_ite, h, heq]
        · simp [lookup_cons_ite, h, heq ▸ h]
      · rename_i hne
        rw [lookup_cons_ite, lookup_cons_ite, lookup_cons_ite, ih hs']
        by_cases h : k' = a.1
        · simp [h, Ne.symm hne]
        · simp [h, hne]

/-- After changing a key, it has the changed value and every other key its old one. -/
theorem get?_alter (m : SortedMap α) (k : String) (f : Option α → Option α) (k' : String) :
    (m.alter k f).get? k' = if k' = k then f (m.get? k) else m.get? k' :=
  lookup_alterEntry m.sorted k'

@[simp] theorem get?_empty (k : String) : (empty : SortedMap α).get? k = none := rfl

theorem entries_eq_of_lookup {es fs : List (String × α)}
    (hes : es.Pairwise fun a b => a.1 < b.1) (hfs : fs.Pairwise fun a b => a.1 < b.1)
    (h : ∀ k, es.lookup k = fs.lookup k) : es = fs := by
  induction es generalizing fs with
  | nil =>
    cases fs with
    | nil => rfl
    | cons b fs => have := h b.1; simp [lookup_cons_ite] at this
  | cons a es ih =>
    obtain ⟨ha, hes'⟩ := List.pairwise_cons.mp hes
    cases fs with
    | nil => have := h a.1; simp [lookup_cons_ite] at this
    | cons b fs =>
      obtain ⟨hb, hfs'⟩ := List.pairwise_cons.mp hfs
      have hkey : a.1 = b.1 := by
        by_cases hab : a.1 < b.1
        · have hnone : (b :: fs).lookup a.1 = none := lookup_eq_none_of_lt fun e he => by
            rcases List.mem_cons.mp he with rfl | he
            · exact hab
            · exact String.lt_trans hab (hb e he)
          have := h a.1
          rw [hnone] at this
          simp [lookup_cons_ite] at this
        · by_cases hba : b.1 < a.1
          · have hnone : (a :: es).lookup b.1 = none := lookup_eq_none_of_lt fun e he => by
              rcases List.mem_cons.mp he with rfl | he
              · exact hba
              · exact String.lt_trans hba (ha e he)
            have := h b.1
            rw [hnone] at this
            simp [lookup_cons_ite] at this
          · exact String.le_antisymm (String.not_lt.mp hba) (String.not_lt.mp hab)
      have hval : a.2 = b.2 := by
        have := h a.1
        rw [lookup_cons_ite, lookup_cons_ite, hkey] at this
        simpa using this
      have hhead : a = b := Prod.ext hkey hval
      subst hhead
      rw [ih hes' hfs' fun k => ?_]
      by_cases hk : k = a.1
      · rw [hk, lookup_eq_none_of_lt ha, lookup_eq_none_of_lt hb]
      · have := h k
        rw [lookup_cons_ite, lookup_cons_ite] at this
        simpa [hk] using this

/-- Maps with the same values are equal. -/
theorem ext_get? {m n : SortedMap α} (h : ∀ k, m.get? k = n.get? k) : m = n := by
  obtain ⟨es, hes⟩ := m
  obtain ⟨fs, hfs⟩ := n
  have : es = fs := entries_eq_of_lookup hes hfs h
  subst this
  rfl

end SortedMap

end SolidityDocs
