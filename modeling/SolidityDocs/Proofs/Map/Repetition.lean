import SolidityDocs.Proofs.Map.Arrival

/-!
# Arrivals that come again

Elements arrive in order, each with a key.  When a key arrives again, the element that had the key
gives way to the new one.  So a list of arrivals falls into two lists.  The elements that are kept,
`lasts`, stand in the order in which their keys arrived first, and each is the last one of its key.
The elements that replace another one, `repeats`, are those whose key has arrived before them.

Both are said by positions in the whole list.  To follow a loop through the list, one also needs
what the list gives after some keys have arrived already; this is `repeatsAfter`.

* `repeatsAfter_cons`, `repeatsAfter_congr`: what one more arrival does, and what it depends on.
* `repeats_flatMap`, `lasts_flatMap`: lists without common keys do not meet.
* `map_key_lasts`: the keys of the elements that are kept.
* `repeats_map_key`, `lasts_map_key`: keys may be renamed one-to-one.
* `OrderedMap.values_ofList_key`: an ordered map keeps the last elements.
-/

namespace SolidityDocs

section Repeats

variable {κ ι α β γ : Type} [DecidableEq κ] [DecidableEq ι]

/-- The elements whose key is one of the earlier keys or occurs in front of them. -/
def repeatsAfter (key : α → κ) (earlier : List κ) (as : List α) : List α :=
  (as.zipIdx.filter fun e => key e.1 ∈ earlier ++ (as.take e.2).map key).map Prod.fst

/-- The elements whose key occurs in front of them. -/
def repeats (key : α → κ) (as : List α) : List α := repeatsAfter key [] as

variable {key : α → κ}

@[simp] theorem repeatsAfter_nil (earlier : List κ) : repeatsAfter key earlier [] = [] := rfl

/-- The first element is a repetition of an earlier key, and its key is an earlier one for the
others. -/
theorem repeatsAfter_cons (earlier : List κ) (a : α) (as : List α) :
    repeatsAfter key earlier (a :: as) =
      (if key a ∈ earlier then [a] else []) ++ repeatsAfter key (earlier ++ [key a]) as := by
  have hrest : (as.zipIdx 1).filter (fun e => key e.1 ∈ earlier ++ ((a :: as).take e.2).map key) =
      (as.zipIdx.filter fun e => key e.1 ∈ earlier ++ [key a] ++ (as.take e.2).map key).map
        fun e => (e.1, e.2 + 1) := by
    rw [List.zipIdx_succ, List.filter_map]
    congr 2
    funext e
    simp
  unfold repeatsAfter
  rw [List.zipIdx_cons, List.filter_cons, hrest]
  by_cases ha : key a ∈ earlier
  · simp [ha, Function.comp_def]
  · simp [ha, Function.comp_def]

/-- Only the keys of the list itself are looked up among the earlier ones. -/
theorem repeatsAfter_congr {earlier earlier' : List κ} {as : List α}
    (h : ∀ a ∈ as, key a ∈ earlier ↔ key a ∈ earlier') :
    repeatsAfter key earlier as = repeatsAfter key earlier' as := by
  unfold repeatsAfter
  congr 1
  refine List.filter_congr fun e he => ?_
  have hmem : e.1 ∈ as := List.fst_mem_of_mem_zipIdx he
  simp [h e.1 hmem]

theorem repeatsAfter_append (earlier : List κ) (as bs : List α) :
    repeatsAfter key earlier (as ++ bs) =
      repeatsAfter key earlier as ++ repeatsAfter key (earlier ++ as.map key) bs := by
  induction as generalizing earlier with
  | nil => simp
  | cons a as ih =>
    rw [List.cons_append, repeatsAfter_cons, repeatsAfter_cons, ih, List.append_assoc,
      List.map_cons, List.append_assoc, List.singleton_append]

theorem repeatsAfter_map (f : β → α) (earlier : List κ) (bs : List β) :
    repeatsAfter key earlier (bs.map f) = (repeatsAfter (key ∘ f) earlier bs).map f := by
  induction bs generalizing earlier with
  | nil => rfl
  | cons b bs ih =>
    rw [List.map_cons, repeatsAfter_cons, repeatsAfter_cons, ih, List.map_append]
    congr 1
    by_cases hb : key (f b) ∈ earlier <;> simp [hb]

theorem repeats_map (f : β → α) (bs : List β) :
    repeats key (bs.map f) = (repeats (key ∘ f) bs).map f :=
  repeatsAfter_map f [] bs

/-- Renaming the keys one-to-one changes nothing. -/
theorem repeats_map_key {g : κ → ι} (hg : Function.Injective g) (as : List α) :
    repeats (g ∘ key) as = repeats key as := by
  unfold repeats repeatsAfter
  congr 1
  refine List.filter_congr fun e _ => ?_
  rw [decide_eq_decide, List.nil_append, List.nil_append, ← List.map_map, Function.comp_apply,
    List.mem_map_of_injective hg]

/-- Lists without common keys repeat nothing of one another. -/
theorem repeats_flatMap {f : γ → List α} {gs : List γ}
    (h : gs.Pairwise fun g g' => ∀ a ∈ f g, ∀ b ∈ f g', key a ≠ key b) :
    repeats key (gs.flatMap f) = gs.flatMap fun g => repeats key (f g) := by
  induction gs with
  | nil => rfl
  | cons g gs ih =>
    obtain ⟨hg, hgs⟩ := List.pairwise_cons.mp h
    have hother : repeatsAfter key ((f g).map key) (gs.flatMap f) = repeats key (gs.flatMap f) := by
      refine repeatsAfter_congr fun b hb => ?_
      obtain ⟨g', hg', hbg'⟩ := List.mem_flatMap.mp hb
      have hnew : key b ∉ (f g).map key := by
        intro hmem
        obtain ⟨a, ha, hab⟩ := List.mem_map.mp hmem
        exact hg g' hg' a ha b hbg' hab
      simp [hnew]
    rw [List.flatMap_cons, List.flatMap_cons, ← ih hgs, ← hother]
    exact repeatsAfter_append [] (f g) (gs.flatMap f)

/-! ## The elements that are kept -/

/-- For every key its last element, in the order in which the keys occur first. -/
def lasts (key : α → κ) (as : List α) : List α :=
  (as.map key).eraseDups.filterMap fun k => as.findRev? fun a => key a = k

theorem findRev?_append (p : α → Bool) (as bs : List α) :
    (as ++ bs).findRev? p = (bs.findRev? p).or (as.findRev? p) := by
  rw [List.findRev?_eq_find?_reverse, List.findRev?_eq_find?_reverse,
    List.findRev?_eq_find?_reverse, List.reverse_append, List.find?_append]

theorem findRev?_map (f : β → α) (p : α → Bool) (bs : List β) :
    (bs.map f).findRev? p = (bs.findRev? (p ∘ f)).map f := by
  rw [List.findRev?_eq_find?_reverse, List.findRev?_eq_find?_reverse, ← List.map_reverse,
    List.find?_map]

theorem findRev?_key_eq_none {as : List α} {k : κ} (h : k ∉ as.map key) :
    (as.findRev? fun a => key a = k) = none := by
  rw [List.findRev?_eq_find?_reverse, List.find?_eq_none]
  intro a ha hk
  exact h (List.mem_map.mpr ⟨a, List.mem_reverse.mp ha, of_decide_eq_true hk⟩)

theorem findRev?_key_isSome {as : List α} {k : κ} (h : k ∈ as.map key) :
    (as.findRev? fun a => key a = k).isSome = true := by
  obtain ⟨a, ha, rfl⟩ := List.mem_map.mp h
  rw [List.findRev?_eq_find?_reverse, List.find?_isSome]
  exact ⟨a, List.mem_reverse.mpr ha, by simp⟩

/-- The kept elements have the keys that occur, in order of their first occurrences. -/
theorem map_key_lasts (as : List α) : (lasts key as).map key = (as.map key).eraseDups := by
  have hkey : ∀ k ∈ (as.map key).eraseDups,
      (as.findRev? fun a => key a = k).map key = some k := by
    intro k hk
    obtain ⟨a, ha⟩ := Option.isSome_iff_exists.mp (findRev?_key_isSome (List.mem_eraseDups.mp hk))
    rw [ha, Option.map_some]
    rw [List.findRev?_eq_find?_reverse] at ha
    simpa using List.find?_some ha
  unfold lasts
  rw [List.map_filterMap, List.filterMap_congr hkey, List.filterMap_some]

theorem lasts_map (f : β → α) (bs : List β) :
    lasts key (bs.map f) = (lasts (key ∘ f) bs).map f := by
  unfold lasts
  rw [List.map_map, List.map_filterMap]
  exact List.filterMap_congr fun k _ => findRev?_map f _ bs

/-- Renaming the keys one-to-one changes nothing. -/
theorem lasts_map_key {g : κ → ι} (hg : Function.Injective g) (as : List α) :
    lasts (g ∘ key) as = lasts key as := by
  unfold lasts
  rw [← List.map_map, ← map_eraseDups hg, List.filterMap_map]
  refine List.filterMap_congr fun k _ => ?_
  simp only [Function.comp_apply, hg.eq_iff]

/-- Lists without common keys keep their elements side by side. -/
theorem lasts_append {as bs : List α} (h : ∀ a ∈ as, ∀ b ∈ bs, key a ≠ key b) :
    lasts key (as ++ bs) = lasts key as ++ lasts key bs := by
  have hdisjoint : ∀ k ∈ as.map key, k ∉ bs.map key := by
    intro k hka hkb
    obtain ⟨a, ha, rfl⟩ := List.mem_map.mp hka
    obtain ⟨b, hb, hba⟩ := List.mem_map.mp hkb
    exact h a ha b hb hba.symm
  have hnew : (bs.map key).removeAll (as.map key) = bs.map key := by
    unfold List.removeAll
    rw [List.filter_eq_self]
    intro k hk
    have hka : k ∉ as.map key := fun hka => hdisjoint k hka hk
    simpa using hka
  unfold lasts
  rw [List.map_append, List.eraseDups_append, hnew, List.filterMap_append]
  congr 1
  · refine List.filterMap_congr fun k hk => ?_
    rw [List.mem_eraseDups] at hk
    rw [findRev?_append, findRev?_key_eq_none (hdisjoint k hk), Option.none_or]
  · refine List.filterMap_congr fun k hk => ?_
    rw [List.mem_eraseDups] at hk
    rw [findRev?_append, Option.or_of_isSome (findRev?_key_isSome hk)]

theorem lasts_flatMap {f : γ → List α} {gs : List γ}
    (h : gs.Pairwise fun g g' => ∀ a ∈ f g, ∀ b ∈ f g', key a ≠ key b) :
    lasts key (gs.flatMap f) = gs.flatMap fun g => lasts key (f g) := by
  induction gs with
  | nil => simp [lasts]
  | cons g gs ih =>
    obtain ⟨hg, hgs⟩ := List.pairwise_cons.mp h
    rw [List.flatMap_cons, List.flatMap_cons, ← ih hgs]
    refine lasts_append fun a ha b hb => ?_
    obtain ⟨g', hg', hbg'⟩ := List.mem_flatMap.mp hb
    exact hg g' hg' a ha b hbg'

/-- An ordered map keeps the last elements. -/
theorem OrderedMap.values_ofList_key (key : α → κ) (as : List α) :
    (OrderedMap.ofList (as.map fun a => (key a, a))).values = lasts key as := by
  have hkeys : (as.map fun a => (key a, a)).map Prod.fst = as.map key := by
    rw [List.map_map]
    rfl
  unfold lasts
  rw [values_eq_filterMap, keys_ofList, hkeys]
  refine List.filterMap_congr fun k _ => ?_
  rw [get?_ofList, lookup_reverse_map_key]

end Repeats

end SolidityDocs
