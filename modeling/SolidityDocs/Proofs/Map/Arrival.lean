import Mathlib
import SolidityDocs.Map.Ordered

/-!
# Maps as lists of first arrivals

An ordered map is known from two things: the list of its keys, and the value of each key.  This file
says what both are for a map that is built by inserting entries one after the other.  The keys are
the arriving keys without their repetitions, so a key stands where it arrived first.  The value of a
key is the one that arrived last.

* `OrderedMap.ext_get?`: maps with the same keys in the same order and the same values are equal.
* `OrderedMap.keys_ofList`, `OrderedMap.get?_ofList`: the keys and values of a list of entries.
* `OrderedMap.keys_accumulate`, `OrderedMap.get?_accumulate`: the same for entries that build on the
  value that is there already.  A key sees only the arrivals under that key.

The lists of keys are handled by `List.eraseDups`, which keeps first occurrences.  Where all
arrivals of a key come together, going through the keys in this order gives back the arrivals
(`flatMap_eraseDups_filter`).
-/

namespace SolidityDocs

/-! ## First occurrences -/

section FirstOccurrences

variable {κ ι : Type} [BEq κ] [LawfulBEq κ] [BEq ι] [LawfulBEq ι]

/-- The first occurrences are distinct. -/
theorem nodup_eraseDups : ∀ l : List κ, l.eraseDups.Nodup
  | [] => by rw [List.eraseDups_nil]; exact List.nodup_nil
  | a :: l => by
    rw [List.eraseDups_cons, List.nodup_cons]
    refine ⟨fun h => ?_, nodup_eraseDups _⟩
    rw [List.mem_eraseDups, List.mem_filter] at h
    simp at h
termination_by l => l.length
decreasing_by exact Nat.lt_succ_of_le (List.length_filter_le _ _)

/-- Distinct keys are all first occurrences. -/
theorem eraseDups_of_nodup : ∀ {l : List κ}, l.Nodup → l.eraseDups = l
  | [], _ => List.eraseDups_nil
  | a :: l, h => by
    obtain ⟨ha, hl⟩ := List.nodup_cons.mp h
    have hf : (l.filter fun b => !b == a) = l := by
      rw [List.filter_eq_self]
      intro b hb
      have hne : b ≠ a := fun hab => ha (hab ▸ hb)
      simp [hne]
    rw [List.eraseDups_cons, hf, eraseDups_of_nodup hl]

/-- Selecting commutes with dropping repetitions. -/
theorem filter_eraseDups (p : κ → Bool) :
    ∀ l : List κ, l.eraseDups.filter p = (l.filter p).eraseDups
  | [] => by rw [List.eraseDups_nil, List.filter_nil, List.eraseDups_nil]
  | a :: l => by
    have ih := filter_eraseDups p (l.filter fun b => !b == a)
    have hcomm : (l.filter fun b => !b == a).filter p = (l.filter p).filter fun b => !b == a := by
      rw [List.filter_filter, List.filter_filter]
      exact List.filter_congr fun b _ => Bool.and_comm ..
    rw [List.eraseDups_cons]
    by_cases h : p a = true
    · rw [List.filter_cons_of_pos h, List.filter_cons_of_pos h, List.eraseDups_cons, ih, hcomm]
    · -- the dropped copies of `a` are not selected either
      have hdrop : ((l.filter p).filter fun b => !b == a) = l.filter p := by
        rw [List.filter_eq_self]
        intro b hb
        have hne : b ≠ a := fun hab => h (hab ▸ (List.mem_filter.mp hb).2)
        simp [hne]
      rw [List.filter_cons_of_neg h, List.filter_cons_of_neg h, ih, hcomm, hdrop]
termination_by l => l.length
decreasing_by exact Nat.lt_succ_of_le (List.length_filter_le _ _)

/-- Renaming keys one-to-one commutes with dropping repetitions. -/
theorem map_eraseDups {f : κ → ι} (hf : Function.Injective f) :
    ∀ l : List κ, l.eraseDups.map f = (l.map f).eraseDups
  | [] => by rw [List.eraseDups_nil, List.map_nil, List.eraseDups_nil]
  | a :: l => by
    have ih := map_eraseDups hf (l.filter fun b => !b == a)
    have hcomm : (l.filter fun b => !b == a).map f = (l.map f).filter fun b => !b == f a := by
      rw [List.filter_map]
      congr 1
      refine List.filter_congr fun b _ => ?_
      have hb : (b == a) = (f b == f a) := by
        rw [Bool.eq_iff_iff, beq_iff_eq, beq_iff_eq]
        exact hf.eq_iff.symm
      rw [Function.comp_apply, hb]
    rw [List.eraseDups_cons, List.map_cons, List.map_cons, List.eraseDups_cons, ih, hcomm]
termination_by l => l.length
decreasing_by exact Nat.lt_succ_of_le (List.length_filter_le _ _)

end FirstOccurrences

/-! ## Selecting results

A result that shows where it comes from can be selected before it is computed. -/

section Selection

variable {α β : Type} {p : β → Bool} {q : α → Bool}

theorem filter_filterMap_of_iff {f : α → Option β}
    (h : ∀ a b, f a = some b → p b = q a) (as : List α) :
    (as.filterMap f).filter p = (as.filter q).filterMap f := by
  induction as with
  | nil => rfl
  | cons a as ih =>
    cases hb : f a with
    | none =>
      rw [List.filterMap_cons_none hb, ih, List.filter_cons]
      by_cases hq : q a = true
      · rw [if_pos hq, List.filterMap_cons_none hb]
      · rw [if_neg hq]
    | some b =>
      rw [List.filterMap_cons_some hb, List.filter_cons, List.filter_cons, h a b hb, ih]
      by_cases hq : q a = true
      · rw [if_pos hq, if_pos hq, List.filterMap_cons_some hb]
      · rw [if_neg hq, if_neg hq]

theorem filter_flatMap_of_iff {f : α → List β} {as : List α} (h : ∀ a ∈ as, ∀ b ∈ f a, p b = q a) :
    (as.flatMap f).filter p = (as.filter q).flatMap f := by
  induction as with
  | nil => rfl
  | cons a as ih =>
    have ha : ∀ b ∈ f a, p b = q a := h a (List.mem_cons_self ..)
    rw [List.flatMap_cons, List.filter_append, List.filter_cons,
      ih fun a' ha' => h a' (List.mem_cons_of_mem _ ha')]
    by_cases hq : q a = true
    · have hall : (f a).filter p = f a :=
        List.filter_eq_self.mpr fun b hb => (ha b hb).trans hq
      rw [if_pos hq, hall, List.flatMap_cons]
    · have hnone : (f a).filter p = [] :=
        List.filter_eq_nil_iff.mpr fun b hb hp => hq ((ha b hb).symm.trans hp)
      rw [if_neg hq, hnone, List.nil_append]

end Selection

/-! ## Groups -/

/-- Elements that come in groups, one for each key: their keys in order of first arrival are the
keys of the groups that are not empty. -/
theorem eraseDups_map_flatMap {κ α : Type} [BEq κ] [LawfulBEq κ] {key : α → κ} {f : κ → List α}
    {ks : List κ} (hks : ks.Nodup) (hf : ∀ k ∈ ks, ∀ a ∈ f k, key a = k) :
    ((ks.flatMap f).map key).eraseDups = ks.filter fun k => !(f k).isEmpty := by
  induction ks with
  | nil => rfl
  | cons k ks ih =>
    obtain ⟨hk, hnodup⟩ := List.nodup_cons.mp hks
    obtain ⟨hhere, hrest⟩ := List.forall_mem_cons.mp hf
    rw [List.flatMap_cons, List.map_append]
    cases hgroup : f k with
    | nil =>
      rw [List.filter_cons_of_neg (by simp [hgroup]), ← ih hnodup hrest]
      rfl
    | cons a as =>
      rw [hgroup] at hhere
      obtain ⟨ha, has⟩ := List.forall_mem_cons.mp hhere
      -- the first element stands for its group, and no other group has its key
      have hsame : ((as.map key).filter fun b => !b == k) = [] := by
        rw [List.filter_eq_nil_iff]
        intro b hb
        obtain ⟨x, hx, rfl⟩ := List.mem_map.mp hb
        simp [has x hx]
      have hother : (((ks.flatMap f).map key).filter fun b => !b == k) =
          (ks.flatMap f).map key := by
        rw [List.filter_eq_self]
        intro b hb
        obtain ⟨x, hx, rfl⟩ := List.mem_map.mp hb
        obtain ⟨l, hl, hxl⟩ := List.mem_flatMap.mp hx
        have hne : key x ≠ k := fun heq => hk (heq ▸ (hrest l hl x hxl).symm ▸ hl)
        simp [hne]
      rw [List.filter_cons_of_pos (by simp [hgroup]), ← ih hnodup hrest, List.map_cons, ha,
        List.cons_append, List.eraseDups_cons, List.filter_append, hsame, hother,
        List.nil_append]

/-- Groups that are put in order of the first arrival of their keys are the groups as they came. -/
theorem flatMap_eraseDups_filter {κ α : Type} [DecidableEq κ] {key : α → κ} {as : List α}
    {ks : List κ} (hks : ks.Nodup) (has : as = ks.flatMap fun k => as.filter fun a => key a = k) :
    ((as.map key).eraseDups.flatMap fun k => as.filter fun a => key a = k) = as := by
  have hkeys : (as.map key).eraseDups =
      ks.filter fun k => !(as.filter fun a => key a = k).isEmpty := by
    conv_lhs => rw [has]
    exact eraseDups_map_flatMap hks fun k _ a ha => of_decide_eq_true (List.mem_filter.mp ha).2
  rw [hkeys]
  conv_rhs => rw [has]
  clear has hks hkeys
  induction ks with
  | nil => rfl
  | cons k ks ih =>
    by_cases hgroup : (as.filter fun a => key a = k) = []
    · rw [List.filter_cons_of_neg (by rw [hgroup]; exact nofun), ih, List.flatMap_cons, hgroup,
        List.nil_append]
    · rw [List.filter_cons_of_pos (by simpa using hgroup), List.flatMap_cons, ih,
        List.flatMap_cons]

namespace OrderedMap

variable {κ ι α β : Type}

/-! ## Keys and values determine a map -/

@[simp] theorem keys_empty : (empty : OrderedMap κ α).keys = [] := rfl

theorem mapValues_id : (mapValues fun _ => id : OrderedMap κ α → OrderedMap κ α) = id := by
  funext m
  exact OrderedMap.ext (List.map_id' _)

@[simp] theorem keys_mapValues (f : κ → α → β) (m : OrderedMap κ α) :
    (m.mapValues f).keys = m.keys := by
  unfold keys mapValues
  rw [List.map_map]
  rfl

theorem nodup_keys (m : OrderedMap κ α) : m.keys.Nodup := m.nodup

variable [DecidableEq κ] [DecidableEq ι]

theorem lookup_eq_some_of_mem {es : List (κ × α)} (hn : (es.map Prod.fst).Nodup) {k : κ} {v : α}
    (h : (k, v) ∈ es) : es.lookup k = some v := by
  induction es with
  | nil => exact absurd h List.not_mem_nil
  | cons e es ih =>
    rw [List.map_cons, List.nodup_cons] at hn
    rw [lookup_cons_ite]
    rcases List.mem_cons.mp h with rfl | h
    · rw [if_pos rfl]
    · have hne : k ≠ e.1 := fun hk => hn.1 (hk ▸ List.mem_map_of_mem h)
      rw [if_neg hne]
      exact ih hn.2 h

theorem get?_of_mem {m : OrderedMap κ α} {k : κ} {v : α} (h : (k, v) ∈ m.entries) :
    m.get? k = some v :=
  lookup_eq_some_of_mem m.nodup h

theorem mem_of_get? {m : OrderedMap κ α} {k : κ} {v : α} (h : m.get? k = some v) :
    (k, v) ∈ m.entries := by
  obtain ⟨l₁, l₂, hl, -⟩ := List.lookup_eq_some_iff.mp h
  rw [hl]
  exact List.mem_append_right _ (List.mem_cons_self ..)

theorem get?_eq_some_iff {m : OrderedMap κ α} {k : κ} {v : α} :
    m.get? k = some v ↔ (k, v) ∈ m.entries :=
  ⟨mem_of_get?, get?_of_mem⟩

theorem mem_keys_iff {m : OrderedMap κ α} {k : κ} : k ∈ m.keys ↔ ∃ v, m.get? k = some v := by
  constructor
  · intro h
    obtain ⟨e, he, rfl⟩ := List.mem_map.mp h
    exact ⟨e.2, get?_of_mem he⟩
  · rintro ⟨v, h⟩
    exact List.mem_map_of_mem (mem_of_get? h)

theorem get?_eq_none_iff {m : OrderedMap κ α} {k : κ} : m.get? k = none ↔ k ∉ m.keys := by
  rw [mem_keys_iff, Option.eq_none_iff_forall_ne_some]
  exact not_exists.symm

/-- The entries are the keys with their values. -/
theorem entries_eq_filterMap (m : OrderedMap κ α) :
    m.entries = m.keys.filterMap fun k => (m.get? k).map fun v => (k, v) := by
  have h : ∀ e ∈ m.entries, ((m.get? e.1).map fun v => (e.1, v)) = some e := by
    intro e he
    rw [get?_of_mem (m := m) (k := e.1) (v := e.2) he]
    rfl
  unfold keys
  rw [List.filterMap_map]
  calc m.entries = m.entries.filterMap some := List.filterMap_some.symm
    _ = _ := List.filterMap_congr fun e he => (h e he).symm

theorem values_eq_filterMap (m : OrderedMap κ α) : m.values = m.keys.filterMap m.get? := by
  unfold values
  conv_lhs => rw [entries_eq_filterMap m]
  rw [List.map_filterMap]
  refine List.filterMap_congr fun k _ => ?_
  cases m.get? k <;> rfl

/-- A key has one entry at most. -/
theorem filter_entries_of_get? {m : OrderedMap κ α} {k : κ} {v : α}
    (h : m.get? k = some v) : (m.entries.filter fun e => e.1 = k) = [(k, v)] := by
  have hmem := mem_of_get? h
  have hnodup := m.nodup
  revert hmem hnodup
  induction m.entries with
  | nil => intro hmem; cases hmem
  | cons e es ih =>
    intro hmem hnodup
    rw [List.map_cons, List.nodup_cons] at hnodup
    rcases List.mem_cons.mp hmem with rfl | hmem
    · rw [List.filter_cons_of_pos (by simp), List.filter_eq_nil_iff.mpr]
      intro x hx hxk
      exact hnodup.1 (List.mem_map.mpr ⟨x, hx, of_decide_eq_true hxk⟩)
    · have hne : e.1 ≠ k := fun he => hnodup.1 (he ▸ List.mem_map_of_mem hmem)
      rw [List.filter_cons_of_neg (by simpa using hne), ih hmem hnodup.2]

/-- Maps with the same keys in the same order and the same values are equal. -/
theorem ext_get? {m n : OrderedMap κ α} (hk : m.keys = n.keys)
    (h : ∀ k ∈ m.keys, m.get? k = n.get? k) : m = n := by
  apply OrderedMap.ext
  rw [entries_eq_filterMap m, entries_eq_filterMap n, ← hk]
  exact List.filterMap_congr fun k hk => by rw [h k hk]

theorem lookup_map_value (f : κ → α → β) (es : List (κ × α)) (k : κ) :
    (es.map fun e => (e.1, f e.1 e.2)).lookup k = (es.lookup k).map (f k) := by
  induction es with
  | nil => rfl
  | cons e es ih =>
    rw [List.map_cons, lookup_cons_ite, lookup_cons_ite, ih]
    by_cases h : k = e.1
    · rw [if_pos h, if_pos h, h]; rfl
    · rw [if_neg h, if_neg h]

theorem get?_mapValues (f : κ → α → β) (m : OrderedMap κ α) (k : κ) :
    (m.mapValues f).get? k = (m.get? k).map (f k) :=
  lookup_map_value f m.entries k

/-! ## Arrivals that build on what is there -/

variable {γ : Type}

/-- Goes through arrivals, each of which has a key and turns the value of that key, if there is one,
into a new value. -/
def accumulate (key : γ → κ) (next : γ → Option α → α) (m : OrderedMap κ α) (as : List γ) :
    OrderedMap κ α :=
  as.foldl (fun m a => m.insert (key a) (next a (m.get? (key a)))) m

/-- The keys are those of the map and then the new ones, in order of first arrival. -/
theorem keys_accumulate (key : γ → κ) (next : γ → Option α → α) (m : OrderedMap κ α)
    (as : List γ) : (m.accumulate key next as).keys = (m.keys ++ as.map key).eraseDups := by
  induction as generalizing m with
  | nil =>
    rw [List.map_nil, List.append_nil, eraseDups_of_nodup m.nodup_keys]
    rfl
  | cons a as ih =>
    have hstep : m.accumulate key next (a :: as) =
        (m.insert (key a) (next a (m.get? (key a)))).accumulate key next as := rfl
    rw [hstep, ih, keys_insert, List.map_cons]
    by_cases h : key a ∈ m.keys
    · rw [if_pos h, List.eraseDups_append, List.eraseDups_append]
      congr 2
      simp [List.removeAll, h]
    · rw [if_neg h, List.append_assoc, List.singleton_append]

/-- Keys that are there already stay as they are. -/
theorem keys_accumulate_of_subset {key : γ → κ} {next : γ → Option α → α} {m : OrderedMap κ α}
    {as : List γ} (h : ∀ a ∈ as, key a ∈ m.keys) : (m.accumulate key next as).keys = m.keys := by
  have hnil : (as.map key).removeAll m.keys = [] := by
    unfold List.removeAll
    rw [List.filter_eq_nil_iff]
    intro k hk
    obtain ⟨a, ha, rfl⟩ := List.mem_map.mp hk
    simp [h a ha]
  rw [keys_accumulate, List.eraseDups_append, hnil, List.eraseDups_nil, List.append_nil,
    eraseDups_of_nodup m.nodup_keys]

/-- The value of a key comes from the arrivals under that key alone. -/
theorem get?_accumulate (key : γ → κ) (next : γ → Option α → α) (m : OrderedMap κ α)
    (as : List γ) (k : κ) :
    (m.accumulate key next as).get? k =
      (as.filter fun a => key a = k).foldl (fun v a => some (next a v)) (m.get? k) := by
  induction as generalizing m with
  | nil => rfl
  | cons a as ih =>
    have hstep : m.accumulate key next (a :: as) =
        (m.insert (key a) (next a (m.get? (key a)))).accumulate key next as := rfl
    rw [hstep, ih, get?_insert]
    by_cases h : key a = k
    · subst h
      rw [if_pos rfl, List.filter_cons_of_pos (by simp), List.foldl_cons]
    · rw [if_neg (Ne.symm h), List.filter_cons_of_neg (by simpa using h)]

/-! ## Lists of entries -/

theorem keys_insertAll (m : OrderedMap κ α) (es : List (κ × α)) :
    (m.insertAll es).keys = (m.keys ++ es.map Prod.fst).eraseDups :=
  keys_accumulate Prod.fst (fun e _ => e.2) m es

/-- The last entry of a key counts. -/
theorem get?_insertAll (m : OrderedMap κ α) (es : List (κ × α)) (k : κ) :
    (m.insertAll es).get? k = (es.reverse.lookup k).or (m.get? k) := by
  induction es generalizing m with
  | nil => rfl
  | cons e es ih =>
    have hstep : m.insertAll (e :: es) = (m.insert e.1 e.2).insertAll es := rfl
    rw [hstep, ih, get?_insert, List.reverse_cons, List.lookup_append, lookup_cons_ite,
      Option.or_assoc]
    by_cases h : k = e.1
    · rw [if_pos h, if_pos h, Option.some_or]
    · rw [if_neg h, if_neg h, List.lookup_nil, Option.none_or]

theorem keys_ofList (es : List (κ × α)) : (ofList es).keys = (es.map Prod.fst).eraseDups := by
  unfold ofList
  rw [keys_insertAll, keys_empty, List.nil_append]

theorem get?_ofList (es : List (κ × α)) (k : κ) :
    (ofList es).get? k = es.reverse.lookup k := by
  unfold ofList
  rw [get?_insertAll, get?_empty, Option.or_none]

/-- Entries with distinct keys stand in the map as they are. -/
theorem entries_ofList {es : List (κ × α)} (hn : (es.map Prod.fst).Nodup) :
    (ofList es).entries = es := by
  have hr : (es.reverse.map Prod.fst).Nodup := by
    rw [List.map_reverse]
    exact List.nodup_reverse.mpr hn
  have h : ofList es = ⟨es, hn⟩ := by
    apply ext_get?
    · rw [keys_ofList, eraseDups_of_nodup hn]
      rfl
    · intro k hk
      rw [keys_ofList, List.mem_eraseDups] at hk
      obtain ⟨e, he, rfl⟩ := List.mem_map.mp hk
      rw [get?_ofList, lookup_eq_some_of_mem hr (List.mem_reverse.mpr he)]
      exact (lookup_eq_some_of_mem hn he).symm
  rw [h]

theorem ofList_entries (m : OrderedMap κ α) : ofList m.entries = m :=
  OrderedMap.ext (entries_ofList m.nodup)

theorem insert_of_get? {m : OrderedMap κ α} {k : κ} {v : α} (h : m.get? k = some v) :
    m.insert k v = m := by
  have hk : k ∈ m.keys := mem_keys_iff.mpr ⟨v, h⟩
  apply ext_get?
  · rw [keys_insert, if_pos hk]
  · intro k' _
    rw [get?_insert]
    by_cases hk' : k' = k
    · rw [if_pos hk', hk', h]
    · rw [if_neg hk']

/-- Inserting the entries of a map once more changes nothing. -/
theorem insertAll_entries (m : OrderedMap κ α) : m.insertAll m.entries = m := by
  have hrun : ∀ es : List (κ × α), (∀ e ∈ es, m.get? e.1 = some e.2) → m.insertAll es = m := by
    intro es
    induction es with
    | nil => exact fun _ => rfl
    | cons e es ih =>
      intro h
      obtain ⟨he, hes⟩ := List.forall_mem_cons.mp h
      have hstep : m.insertAll (e :: es) = (m.insert e.1 e.2).insertAll es := rfl
      rw [hstep, insert_of_get? he, ih hes]
  exact hrun m.entries fun e he => get?_of_mem he

theorem mapValues_ofList (f : κ → α → β) (es : List (κ × α)) :
    (ofList es).mapValues f = ofList (es.map fun e => (e.1, f e.1 e.2)) := by
  apply ext_get?
  · rw [keys_mapValues, keys_ofList, keys_ofList, List.map_map]
    rfl
  · intro k _
    rw [get?_mapValues, get?_ofList, get?_ofList, ← List.map_reverse, lookup_map_value]

/-- Entries that carry their own keys: the last one with a key is its value. -/
theorem lookup_reverse_map_key (key : γ → κ) (as : List γ) (k : κ) :
    (as.map fun a => (key a, a)).reverse.lookup k = as.findRev? fun a => key a = k := by
  rw [← List.map_reverse, List.findRev?_eq_find?_reverse]
  induction as.reverse with
  | nil => rfl
  | cons a as ih =>
    rw [List.map_cons, lookup_cons_ite, ih]
    by_cases h : k = key a
    · rw [if_pos h, List.find?_cons_of_pos (by simp [h])]
    · rw [if_neg h, List.find?_cons_of_neg (by simpa using Ne.symm h)]

end OrderedMap

end SolidityDocs
