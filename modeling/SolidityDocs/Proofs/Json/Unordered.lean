import Mathlib
import SolidityDocs.Json.Node

/-!
# Records and nodes from entries in any order

A record is read from an object entry by entry, in the order of the text: known entries are put into
the record under construction, other entries are skipped, and a known key that comes again is an
error.  This file describes the result without the run over the text, for records none of whose
fields is required: if no known key comes twice, the known entries are put into the blank record one
after the other (`Record.gather`).  Since different fields can be put in any order, the result
depends neither on the order of the entries nor on the unknown ones.

Errors of a reader are not compared, only whether there is one: an object in another order may well
fail at another place.  So outcomes are compared by `Except.toOption`, and up to a `view` of the
value, because a part of the value may be of no interest.

A tagged node is described in the same way, by the entries with and without the key of the variant.

* `Record.toOption_read_obj`: a record is gathered from its known entries.
* `Record.gather_perm`, `Record.gather_unknown`: order and unknown entries do not matter.
* `Record.gather_change`: a changed value matters as far as its field lets it.
* `Variants.toOption_read_obj`: a node is read from its only variant and its other entries.
-/

namespace SolidityDocs.Json

/-! ## Outcomes without the error -/

section Outcomes

variable {ε α β : Type}

theorem toOption_bind (x : Except ε α) (f : α → Except ε β) :
    (x.bind f).toOption = x.toOption.bind fun a => (f a).toOption := by
  cases x <;> rfl

theorem toOption_map (x : Except ε α) (f : α → β) : (x.map f).toOption = x.toOption.map f := by
  cases x <;> rfl

theorem toOption_mapM (g : α → Except ε β) (as : List α) :
    (as.mapM g).toOption = as.mapM fun a => (g a).toOption := by
  induction as with
  | nil => rfl
  | cons a as ih =>
    rw [List.mapM_cons, List.mapM_cons, ← ih]
    cases g a with
    | error e => rfl
    | ok b => cases as.mapM g <;> rfl

/-- Outcomes with the same view have the same view after a step that keeps views the same. -/
theorem map_toOption_bind {γ δ : Type} {view : α → γ} {view' : β → δ} {x y : Except ε α}
    (hxy : x.toOption.map view = y.toOption.map view) {f g : α → Except ε β}
    (hfg : ∀ a b, view a = view b → (f a).toOption.map view' = (g b).toOption.map view') :
    (x.bind f).toOption.map view' = (y.bind g).toOption.map view' := by
  cases x with
  | error e =>
    cases y with
    | error e => rfl
    | ok b => cases hxy
  | ok a =>
    cases y with
    | error e => cases hxy
    | ok b => exact hfg a b (Option.some.inj hxy)

end Outcomes

/-! ## Trees without defects -/

theorem Use.literalError?_skipped {α : Type} (x : Except SyntaxError α) :
    literalError? .skipped x = none := by
  cases x <;> rfl

theorem ListEnd.error?_skipped {ending : ListEnd} (h : ending.error? .kept = none) :
    ending.error? .skipped = none := by
  cases ending <;> first | rfl | cases h

theorem ObjectEnd.error?_skipped {ending : ObjectEnd} (h : ending.error? .kept = none) :
    ending.error? .skipped = none := by
  cases ending <;> first | rfl | cases h

namespace Tree

/-- A closed object. -/
def obj (fields : List (String × Tree)) : Tree :=
  .object (fields.map fun e => (.ok e.1, e.2)) .closed

/-- A closed list. -/
def arr (items : List Tree) : Tree := .list items .closed

/-- The tree has no defect, not even for a reader that keeps it whole. -/
def Sound (t : Tree) : Prop := t.fault? .kept = none

theorem sound_arr {items : List Tree} : (arr items).Sound ↔ ∀ t ∈ items, t.Sound := by
  unfold Sound arr
  rw [fault?]
  induction items with
  | nil => simp [itemsFault?, ListEnd.error?]
  | cons t ts ih =>
    rw [itemsFault?, Option.or_assoc, Option.or_eq_none_iff, ih, List.forall_mem_cons]

theorem sound_obj {fields : List (String × Tree)} :
    (obj fields).Sound ↔ ∀ e ∈ fields, e.2.Sound := by
  unfold Sound obj
  rw [fault?]
  induction fields with
  | nil => simp [entriesFault?, ObjectEnd.error?]
  | cons e es ih =>
    have hkey : Use.literalError? .kept (.ok e.1 : Key) = none := rfl
    rw [List.map_cons, entriesFault?, hkey, Option.none_or, Option.or_assoc,
      Option.or_eq_none_iff, ih, List.forall_mem_cons]

theorem Sound.value {xs ys : List (String × Tree)} {k : String} {t : Tree}
    (h : (obj (xs ++ (k, t) :: ys)).Sound) : t.Sound :=
  sound_obj.mp h (k, t) (List.mem_append_right _ (List.mem_cons_self ..))

theorem Sound.item {xs ys : List Tree} {t : Tree} (h : (arr (xs ++ t :: ys)).Sound) : t.Sound :=
  sound_arr.mp h t (List.mem_append_right _ (List.mem_cons_self ..))

mutual

/-- A tree that can be kept can be skipped. -/
theorem Sound.fault?_skipped : ∀ {t : Tree}, t.Sound → t.fault? .skipped = none
  | .null, _ => rfl
  | .bool _, _ => rfl
  | .number n, _ => Use.literalError?_skipped n
  | .string s, _ => Use.literalError?_skipped s
  | .list items ending, h => by
    obtain ⟨hitems, hending⟩ := Option.or_eq_none_iff.mp h
    rw [fault?, itemsFault?_skipped hitems, ListEnd.error?_skipped hending]
    rfl
  | .object entries ending, h => by
    obtain ⟨hentries, hending⟩ := Option.or_eq_none_iff.mp h
    rw [fault?, entriesFault?_skipped hentries, ObjectEnd.error?_skipped hending]
    rfl
  | .absent, h => by cases h
  | .badString _, h => by cases h
  | .bad _, h => by cases h

theorem itemsFault?_skipped : ∀ {items : List Tree}, itemsFault? .kept items = none →
    itemsFault? .skipped items = none
  | [], _ => rfl
  | t :: ts, h => by
    obtain ⟨ht, hts⟩ := Option.or_eq_none_iff.mp h
    rw [itemsFault?, Sound.fault?_skipped ht, itemsFault?_skipped hts]
    rfl

theorem entriesFault?_skipped : ∀ {entries : List (Key × Tree)},
    entriesFault? .kept entries = none → entriesFault? .skipped entries = none
  | [], _ => rfl
  | (k, t) :: es, h => by
    obtain ⟨-, h⟩ := Option.or_eq_none_iff.mp h
    obtain ⟨ht, hes⟩ := Option.or_eq_none_iff.mp h
    rw [entriesFault?, Use.literalError?_skipped, Sound.fault?_skipped ht,
      entriesFault?_skipped hes]
    rfl

end

end Tree

/-! ## Records -/

namespace Field

variable {σ τ : Type}

@[simp] theorem key_optional {α : Type} (k : String) (r : Reader α) (set : α → σ → σ) :
    (optional k r set).key = k := rfl

@[simp] theorem required_optional {α : Type} (k : String) (r : Reader α) (set : α → σ → σ) :
    (optional k r set).required = false := rfl

/-- The two fields can be put in either order. -/
def Commute (f g : Field σ) : Prop :=
  ∀ s t u a, ((f.put s t a).bind (g.put s u)).toOption = ((g.put s u a).bind (f.put s t)).toOption

theorem Commute.symm {f g : Field σ} (h : f.Commute g) : g.Commute f :=
  fun s t u a => (h s u t a).symm

@[simp] theorem commute_optional {α β : Type} {k l : String} {q : Reader α} {r : Reader β}
    {set : α → σ → σ} {put : β → σ → σ} (h : ∀ v w a, put w (set v a) = set v (put w a)) :
    Commute (.optional k q set) (.optional l r put) := by
  intro s t u a
  simp only [optional]
  cases q s t with
  | error e => cases r s u <;> rfl
  | ok v =>
    cases r s u with
    | error e => rfl
    | ok w => exact congrArg some (h v w a)

/-- Values that the relation joins have the same outcome for the field, up to the view. -/
def Stable (S : Tree → Tree → Prop) (view : σ → τ) (f : Field σ) : Prop :=
  ∀ s t t' a b, t = t' ∨ S t t' → view a = view b →
    (f.put s t a).toOption.map view = (f.put s t' b).toOption.map view

end Field

namespace Record

variable {σ τ : Type}

/-- The keys of the fields, in order. -/
def keys (R : Record σ) : List String := R.fields.map Field.key

/-- No field is required, and fields with their different keys can be put in any order. -/
structure Lenient (R : Record σ) : Prop where
  nodup : R.keys.Nodup
  optional : ∀ f ∈ R.fields, f.required = false
  commute : R.fields.Pairwise Field.Commute

theorem field?_eq_none_iff {R : Record σ} {k : String} : R.field? k = none ↔ k ∉ R.keys := by
  unfold field? keys
  rw [List.find?_eq_none]
  simp [List.mem_map, eq_comm]

theorem mem_of_field? {R : Record σ} {k : String} {f : Field σ} (h : R.field? k = some f) :
    f ∈ R.fields ∧ f.key = k :=
  ⟨List.mem_of_find?_eq_some h, by simpa using List.find?_some h⟩

theorem mem_keys_of_field? {R : Record σ} {k : String} {f : Field σ} (h : R.field? k = some f) :
    k ∈ R.keys := by
  obtain ⟨hf, rfl⟩ := mem_of_field? h
  exact List.mem_map_of_mem hf

theorem missing?_eq_none {R : Record σ} (h : ∀ f ∈ R.fields, f.required = false)
    (seen : List String) : R.missing? seen = none := by
  unfold missing?
  rw [Option.map_eq_none_iff, List.find?_eq_none]
  intro f hf
  rw [h f hf]
  exact Bool.false_ne_true

/-- The entries whose keys are those of fields. -/
def known (R : Record σ) (es : List (String × Tree)) : List (String × Tree) :=
  es.filter fun e => e.1 ∈ R.keys

theorem known_append (R : Record σ) (xs ys : List (String × Tree)) :
    R.known (xs ++ ys) = R.known xs ++ R.known ys := List.filter_append ..

theorem known_cons_of_mem {R : Record σ} {k : String} (hk : k ∈ R.keys) (t : Tree)
    (es : List (String × Tree)) : R.known ((k, t) :: es) = (k, t) :: R.known es :=
  List.filter_cons_of_pos (by simpa using hk)

theorem known_cons_of_notMem {R : Record σ} {k : String} (hk : k ∉ R.keys) (t : Tree)
    (es : List (String × Tree)) : R.known ((k, t) :: es) = R.known es :=
  List.filter_cons_of_neg (by simpa using hk)

/-- Puts a known entry into the record under construction. -/
def enter (R : Record σ) (s : Source) (a : Option σ) (e : String × Tree) : Option σ :=
  a.bind fun a => (R.field? e.1).bind fun f => (f.put s e.2 a).toOption

/-- The record of the entries: the known ones are put one after the other, if their keys differ. -/
def gather (R : Record σ) (s : Source) (es : List (String × Tree)) : Option σ :=
  if ((R.known es).map Prod.fst).Nodup then (R.known es).foldl (R.enter s) (some R.blank) else none

theorem foldl_enter_none (R : Record σ) (s : Source) (es : List (String × Tree)) :
    es.foldl (R.enter s) none = none := by
  induction es with
  | nil => rfl
  | cons e es ih => exact ih

/-- The run over the entries. -/
theorem toOption_readEntries (R : Record σ) (s : Source) {es : List (String × Tree)}
    (hes : ∀ e ∈ es, e.2.Sound) (seen : List String) (a : σ) :
    ((R.readEntries s (es.map fun e => (.ok e.1, e.2)) seen a).toOption.map Prod.snd) =
      if ((R.known es).map Prod.fst).Nodup ∧ (∀ k ∈ (R.known es).map Prod.fst, k ∉ seen) then
        (R.known es).foldl (R.enter s) (some a)
      else none := by
  induction es generalizing seen a with
  | nil => simp [readEntries, known, Except.toOption]
  | cons e es ih =>
    obtain ⟨k, t⟩ := e
    obtain ⟨ht, hes⟩ := List.forall_mem_cons.mp hes
    rw [List.map_cons]
    cases hf : R.field? k with
    | none =>
      have hk : k ∉ R.keys := field?_eq_none_iff.mp hf
      rw [readEntries_unknown hf, ht.fault?_skipped, check_none, known_cons_of_notMem hk]
      exact ih hes seen a
    | some f =>
      have hk : k ∈ R.keys := mem_keys_of_field? hf
      have henter : R.enter s (some a) (k, t) = (f.put s t a).toOption := by
        simp [enter, hf]
      rw [known_cons_of_mem hk, List.map_cons, List.foldl_cons, henter]
      by_cases hseen : k ∈ seen
      · rw [readEntries_duplicate hf hseen, if_neg fun h => h.2 k (List.mem_cons_self ..) hseen]
        rfl
      · rw [readEntries_field hf hseen, toOption_bind]
        cases hput : f.put s t a with
        | error e =>
          simp only [Except.toOption, Option.bind_none, Option.map_none, foldl_enter_none, ite_self]
        | ok b =>
          -- The keys after this one have to differ from it, now that it is seen.
          have hiff : (k :: (R.known es).map Prod.fst).Nodup ∧
              (∀ l ∈ k :: (R.known es).map Prod.fst, l ∉ seen) ↔
              ((R.known es).map Prod.fst).Nodup ∧
                ∀ l ∈ (R.known es).map Prod.fst, l ∉ k :: seen := by
            rw [List.nodup_cons, List.forall_mem_cons]
            simp only [List.mem_cons, not_or]
            constructor
            · rintro ⟨⟨hnot, hnodup⟩, -, hrest⟩
              exact ⟨hnodup, fun l hl => ⟨fun h => hnot (h ▸ hl), hrest l hl⟩⟩
            · rintro ⟨hnodup, hrest⟩
              exact ⟨⟨fun h => (hrest k h).1 rfl, hnodup⟩, hseen, fun l hl => (hrest l hl).2⟩
          simp only [Except.toOption, Option.bind_some, hiff]
          exact ih hes (k :: seen) b

theorem toOption_readObject {R : Record σ} (hR : R.Lenient) (s : Source)
    {es : List (String × Tree)} (hes : ∀ e ∈ es, e.2.Sound) :
    (R.readObject s (es.map fun e => (.ok e.1, e.2)) .closed).toOption = R.gather s es := by
  have hrun := R.toOption_readEntries s hes [] R.blank
  simp only [List.not_mem_nil, not_false_eq_true, implies_true, and_true] at hrun
  rw [gather, ← hrun]
  unfold readObject
  cases R.readEntries s (es.map fun e => (.ok e.1, e.2)) [] R.blank with
  | error e => rfl
  | ok p =>
    simp only [bind, Except.bind, missing?_eq_none hR.optional]
    rfl

/-- **A record is gathered from its known entries.** -/
theorem toOption_read_obj {R : Record σ} (hR : R.Lenient) (s : Source)
    {es : List (String × Tree)} (hes : (Tree.obj es).Sound) :
    (R.read s (.obj es)).toOption = R.gather s es :=
  toOption_readObject hR s (Tree.sound_obj.mp hes)

/-! ### Order and unknown entries -/

theorem Lenient.commute_of_mem {R : Record σ} (hR : R.Lenient) {f g : Field σ}
    (hf : f ∈ R.fields) (hg : g ∈ R.fields) (hkey : f.key ≠ g.key) : f.Commute g := by
  have hsymm : Std.Symm (@Field.Commute σ) := ⟨fun _ _ h => h.symm⟩
  exact hR.commute.forall hf hg fun h => hkey (congrArg Field.key h)

theorem enter_comm {R : Record σ} (hR : R.Lenient) (s : Source) {x y : String × Tree}
    (hkey : x.1 ≠ y.1) (a : Option σ) :
    R.enter s (R.enter s a x) y = R.enter s (R.enter s a y) x := by
  cases a with
  | none => rfl
  | some a =>
    cases hf : R.field? x.1 with
    | none => cases hg : R.field? y.1 <;> simp [enter, hf, hg]
    | some f =>
      cases hg : R.field? y.1 with
      | none => simp [enter, hf, hg]
      | some g =>
        obtain ⟨hfm, hfk⟩ := mem_of_field? hf
        obtain ⟨hgm, hgk⟩ := mem_of_field? hg
        have hcomm := hR.commute_of_mem hfm hgm (by rwa [hfk, hgk]) s x.2 y.2 a
        rw [toOption_bind, toOption_bind] at hcomm
        simpa [enter, hf, hg] using hcomm

/-- **The order of the entries does not matter.** -/
theorem gather_perm {R : Record σ} (hR : R.Lenient) (s : Source) {es es' : List (String × Tree)}
    (h : es.Perm es') : R.gather s es = R.gather s es' := by
  have hknown : (R.known es).Perm (R.known es') := h.filter _
  have hnodup := (hknown.map Prod.fst).nodup_iff
  unfold gather
  by_cases hes : ((R.known es).map Prod.fst).Nodup
  · rw [if_pos hes, if_pos (hnodup.mp hes)]
    refine hknown.foldl_eq' (fun x hx y hy a => ?_) _
    by_cases hkey : x.1 = y.1
    · rw [List.inj_on_of_nodup_map hes hx hy hkey]
    · exact enter_comm hR s hkey a
  · rw [if_neg hes, if_neg fun h => hes (hnodup.mpr h)]

/-- **Unknown entries do not matter.** -/
theorem gather_unknown {R : Record σ} (s : Source) {k : String} (hk : k ∉ R.keys) (t : Tree)
    (xs ys : List (String × Tree)) : R.gather s (xs ++ (k, t) :: ys) = R.gather s (xs ++ ys) := by
  unfold gather
  rw [known_append, known_append, known_cons_of_notMem hk]

/-! ### A changed value -/

/-- Records with the same view have the same view after an entry. -/
theorem map_enter {R : Record σ} {S : String → Tree → Tree → Prop} {view : σ → τ}
    (hS : ∀ f ∈ R.fields, f.Stable (S f.key) view) (s : Source) {k : String} {t t' : Tree}
    (ht : t = t' ∨ S k t t') {a b : Option σ} (hab : a.map view = b.map view) :
    (R.enter s a (k, t)).map view = (R.enter s b (k, t')).map view := by
  cases a with
  | none =>
    cases b with
    | none => rfl
    | some b => cases hab
  | some a =>
    cases b with
    | none => cases hab
    | some b =>
      cases hf : R.field? k with
      | none => simp [enter, hf]
      | some f =>
        obtain ⟨hfm, rfl⟩ := mem_of_field? hf
        simpa [enter, hf] using hS f hfm s t t' a b ht (Option.some.inj hab)

theorem map_foldl_enter {R : Record σ} {S : String → Tree → Tree → Prop} {view : σ → τ}
    (hS : ∀ f ∈ R.fields, f.Stable (S f.key) view) (s : Source) (es : List (String × Tree))
    {a b : Option σ} (hab : a.map view = b.map view) :
    (es.foldl (R.enter s) a).map view = (es.foldl (R.enter s) b).map view := by
  induction es generalizing a b with
  | nil => exact hab
  | cons e es ih => exact ih (map_enter hS s (.inl rfl) hab)

/-- **A changed value matters as far as its field lets it.** -/
theorem gather_change {R : Record σ} {S : String → Tree → Tree → Prop} {view : σ → τ}
    (hS : ∀ f ∈ R.fields, f.Stable (S f.key) view) (s : Source) {k : String} {t t' : Tree}
    (ht : S k t t') (xs ys : List (String × Tree)) :
    (R.gather s (xs ++ (k, t) :: ys)).map view = (R.gather s (xs ++ (k, t') :: ys)).map view := by
  by_cases hk : k ∈ R.keys
  · unfold gather
    rw [known_append, known_append, known_cons_of_mem hk, known_cons_of_mem hk, List.map_append,
      List.map_append, List.map_cons, List.map_cons]
    split
    · rw [List.foldl_append, List.foldl_append, List.foldl_cons, List.foldl_cons]
      exact map_foldl_enter hS s _ (map_enter hS s (.inr ht) rfl)
    · rfl
  · rw [gather_unknown s hk, gather_unknown s hk]

/-! ### Records as lists -/

theorem map_readItems {R : Record σ} {S : String → Tree → Tree → Prop} {view : σ → τ} (s : Source)
    {fs : List (Field σ)} (hS : ∀ f ∈ fs, f.Stable (S f.key) view) (items : List Tree) (n : Nat)
    {a b : σ} (hab : view a = view b) :
    (R.readItems s .closed fs items n a).toOption.map view =
      (R.readItems s .closed fs items n b).toOption.map view := by
  induction fs generalizing items n a b with
  | nil =>
    rw [readItems, readItems]
    cases leftover s n items .closed with
    | error e => rfl
    | ok _ => exact congrArg some hab
  | cons f fs ih =>
    obtain ⟨hf, hfs⟩ := List.forall_mem_cons.mp hS
    cases items with
    | nil =>
      rw [readItems, readItems]
      show ((if f.required then _ else _ : Except ReadError σ)).toOption.map view =
        ((if f.required then _ else _ : Except ReadError σ)).toOption.map view
      split
      · rfl
      · exact ih hfs [] (n + 1) hab
    | cons t items =>
      rw [readItems, readItems]
      exact map_toOption_bind (hf s t t a b (.inl rfl) hab) fun _ _ h => ih hfs items (n + 1) h

/-- A changed element matters as far as the field at its place lets it. -/
theorem readItems_change {R : Record σ} {S : String → Tree → Tree → Prop} {view : σ → τ}
    (s : Source) {fs : List (Field σ)} (hS : ∀ f ∈ fs, f.Stable (S f.key) view) {t t' : Tree}
    (xs ys : List Tree) (ht : ∀ k ∈ (fs.map Field.key)[xs.length]?, S k t t') (n : Nat) {a b : σ}
    (hab : view a = view b) :
    (R.readItems s .closed fs (xs ++ t :: ys) n a).toOption.map view =
      (R.readItems s .closed fs (xs ++ t' :: ys) n b).toOption.map view := by
  induction fs generalizing xs n a b with
  | nil => cases xs <;> cases s <;> rfl
  | cons f fs ih =>
    obtain ⟨hf, hfs⟩ := List.forall_mem_cons.mp hS
    cases xs with
    | nil =>
      have hput := hf s t t' a b (.inr (ht f.key rfl)) hab
      exact map_toOption_bind hput fun _ _ h => map_readItems s hfs ys (n + 1) h
    | cons x xs =>
      have hput := hf s x x a b (.inl rfl) hab
      exact map_toOption_bind hput fun _ _ h => ih hfs xs ht (n + 1) h

end Record

/-! ## Nodes -/

namespace Variants

variable {α : Type}

/-- The entries with the key of the variant. -/
def tags (es : List (String × Tree)) : List (String × Tree) := es.filter fun e => e.1 = tagKey

/-- The entries with other keys. -/
def others (es : List (String × Tree)) : List (String × Tree) := es.filter fun e => e.1 ≠ tagKey

theorem tags_cons_tag (t : Tree) (es : List (String × Tree)) :
    tags ((tagKey, t) :: es) = (tagKey, t) :: tags es := by simp [tags]

theorem tags_cons_of_ne {k : String} (hk : k ≠ tagKey) (t : Tree) (es : List (String × Tree)) :
    tags ((k, t) :: es) = tags es := by simp [tags, hk]

theorem others_cons_tag (t : Tree) (es : List (String × Tree)) :
    others ((tagKey, t) :: es) = others es := by simp [others]

theorem others_cons_of_ne {k : String} (hk : k ≠ tagKey) (t : Tree) (es : List (String × Tree)) :
    others ((k, t) :: es) = (k, t) :: others es := by simp [others, hk]

/-- The variant of a node, if there is one and no other. -/
def onlyTag? (es : List (String × Tree)) : Option Tree :=
  match tags es with
  | [e] => some e.2
  | _ => none

theorem onlyTag?_perm {es es' : List (String × Tree)} (h : es.Perm es') :
    onlyTag? es = onlyTag? es' := by
  have htags : (tags es).Perm (tags es') := h.filter _
  unfold onlyTag?
  match hes : tags es with
  | [] => rw [hes] at htags; rw [htags.nil_eq.symm]
  | [e] => rw [hes] at htags; rw [List.singleton_perm.mp htags]
  | e :: e' :: rest =>
    rw [hes] at htags
    match hes' : tags es' with
    | [] => rfl
    | [_] =>
      rw [hes'] at htags
      exact absurd htags.length_eq (by simp)
    | _ :: _ :: _ => rfl

theorem onlyTag?_append_cons {k : String} (hk : k ≠ tagKey) (t : Tree)
    (xs ys : List (String × Tree)) : onlyTag? (xs ++ (k, t) :: ys) = onlyTag? (xs ++ ys) := by
  have htags : tags (xs ++ (k, t) :: ys) = tags (xs ++ ys) := by simp [tags, hk]
  rw [onlyTag?, onlyTag?, htags]

theorem others_append_cons {k : String} (hk : k ≠ tagKey) (t : Tree)
    (xs ys : List (String × Tree)) :
    others (xs ++ (k, t) :: ys) = others xs ++ (k, t) :: others ys := by simp [others, hk]

theorem others_append (xs ys : List (String × Tree)) :
    others (xs ++ ys) = others xs ++ others ys := List.filter_append ..

theorem tags_of_onlyTag? {es : List (String × Tree)} {tag : Tree} (h : onlyTag? es = some tag) :
    tags es = [(tagKey, tag)] := by
  unfold onlyTag? at h
  split at h
  · rename_i e he
    cases h
    have hmem : e ∈ tags es := he ▸ List.mem_singleton_self e
    have hkey : e.1 = tagKey := by simpa using (List.mem_filter.mp hmem).2
    rw [he, ← hkey]
  · cases h

theorem mem_of_onlyTag? {es : List (String × Tree)} {tag : Tree} (h : onlyTag? es = some tag) :
    (tagKey, tag) ∈ es := by
  have hmem : (tagKey, tag) ∈ tags es := tags_of_onlyTag? h ▸ List.mem_singleton_self _
  exact (List.mem_filter.mp hmem).1

theorem eq_of_onlyTag? {es : List (String × Tree)} {tag tag' : Tree} (h : onlyTag? es = some tag)
    (hmem : (tagKey, tag') ∈ es) : tag' = tag := by
  have htags : (tagKey, tag') ∈ tags es := List.mem_filter.mpr ⟨hmem, decide_eq_true rfl⟩
  rw [tags_of_onlyTag? h, List.mem_singleton] at htags
  exact congrArg Prod.snd htags

theorem sound_others {es : List (String × Tree)} (h : (Tree.obj es).Sound) :
    (Tree.obj (others es)).Sound :=
  Tree.sound_obj.mpr fun e he => Tree.sound_obj.mp h e (List.mem_filter.mp he).1

/-- The run over the entries once the variant is known: there is no other one. -/
theorem toOption_splitEntries_some (v : Variants α) (s : Source) {es : List (String × Tree)}
    (hes : ∀ e ∈ es, e.2.Sound) (tag : Option (Reader α)) (kept : List (Key × Tree)) :
    (v.splitEntries s (es.map fun e => (.ok e.1, e.2)) (some tag) kept).toOption =
      if tags es = [] then
        some (some tag, kept.reverse ++ (others es).map fun e => (.ok e.1, e.2))
      else none := by
  induction es generalizing kept with
  | nil => simp [splitEntries, tags, others, Except.toOption]
  | cons e es ih =>
    obtain ⟨k, t⟩ := e
    obtain ⟨ht, hes⟩ := List.forall_mem_cons.mp hes
    rw [List.map_cons]
    by_cases hk : k = tagKey
    · subst hk
      rw [splitEntries_duplicate, tags_cons_tag, if_neg (List.cons_ne_nil _ _)]
      rfl
    · have hfault : t.fault? .kept = none := ht
      rw [splitEntries_field hk, hfault, check_none, tags_cons_of_ne hk, others_cons_of_ne hk]
      show (v.splitEntries s _ (some tag) ((.ok k, t) :: kept)).toOption = _
      rw [ih hes, List.reverse_cons, List.append_assoc, List.map_cons, List.singleton_append]

/-- The run over the entries before the variant is known. -/
theorem toOption_splitEntries_none (v : Variants α) (s : Source) {es : List (String × Tree)}
    (hes : ∀ e ∈ es, e.2.Sound) (kept : List (Key × Tree)) :
    (v.splitEntries s (es.map fun e => (.ok e.1, e.2)) none kept).toOption =
      match tags es with
      | [] => some (none, kept.reverse ++ (others es).map fun e => (.ok e.1, e.2))
      | [e] => (v.readTag s e.2).toOption.map fun tag =>
          (some tag, kept.reverse ++ (others es).map fun e => (.ok e.1, e.2))
      | _ :: _ :: _ => none := by
  induction es generalizing kept with
  | nil => simp [splitEntries, tags, others, Except.toOption]
  | cons e es ih =>
    obtain ⟨k, t⟩ := e
    obtain ⟨ht, hrest⟩ := List.forall_mem_cons.mp hes
    rw [List.map_cons]
    by_cases hk : k = tagKey
    · have hsome := fun tag => toOption_splitEntries_some v s hrest tag kept
      rw [hk, splitEntries_tag, tags_cons_tag, others_cons_tag, toOption_bind]
      simp only [hsome]
      cases tags es with
      | nil =>
        show _ = (v.readTag s t).toOption.map _
        cases v.readTag s t <;> rfl
      | cons e es => cases v.readTag s t <;> rfl
    · have hfault : t.fault? .kept = none := ht
      rw [splitEntries_field hk, hfault, check_none, tags_cons_of_ne hk, others_cons_of_ne hk]
      show (v.splitEntries s _ none ((.ok k, t) :: kept)).toOption = _
      rw [ih hrest, List.reverse_cons, List.append_assoc, List.map_cons, List.singleton_append]

/-- What a node of the given variant is read as, from its fields. -/
def finish (v : Variants α) (fields : Tree) : Option (Reader α) → Option α
  | some r => (r .buffered fields).toOption
  | none => (checkOther fields).toOption.map fun _ => v.other

theorem toOption_read (v : Variants α) (s : Source) (t : Tree) :
    (v.read s t).toOption = (v.split s t).toOption.bind fun p => v.finish p.2 p.1 := by
  unfold read
  cases v.split s t with
  | error e => rfl
  | ok p =>
    obtain ⟨_ | r, fields⟩ := p
    · show ((checkOther fields).bind fun _ => .ok v.other).toOption = _
      cases hother : checkOther fields <;> simp [finish, hother, Except.bind, Except.toOption]
    · rfl

theorem toOption_split_object (v : Variants α) (s : Source) (es : List (Key × Tree)) :
    (v.split s (.object es .closed)).toOption =
      (v.splitEntries s es none []).toOption.bind fun p =>
        p.1.map fun tag => (tag, .object p.2 .closed) := by
  rw [split]
  cases v.splitEntries s es none [] with
  | error e => rfl
  | ok p => obtain ⟨_ | tag, rest⟩ := p <;> rfl

/-- **A node is read from its only variant and its other entries.** -/
theorem toOption_read_obj (v : Variants α) (s : Source) {es : List (String × Tree)}
    (hes : (Tree.obj es).Sound) :
    (v.read s (.obj es)).toOption =
      (onlyTag? es).bind fun tag =>
        (v.readTag s tag).toOption.bind (v.finish (.obj (others es))) := by
  rw [toOption_read, Tree.obj, toOption_split_object,
    toOption_splitEntries_none v s (Tree.sound_obj.mp hes)]
  unfold onlyTag?
  match tags es with
  | [] => rfl
  | [e] =>
    show Option.bind (Option.bind ((v.readTag s e.2).toOption.map _) _) _ =
      (v.readTag s e.2).toOption.bind _
    cases v.readTag s e.2 <;> rfl
  | _ :: _ :: _ => rfl

theorem toOption_read_arr (v : Variants α) (s : Source) {t : Tree} {items : List Tree}
    (hitems : (Tree.arr items).Sound) :
    (v.read s (.arr (t :: items))).toOption =
      (v.readTag s t).toOption.bind (v.finish (.arr items)) := by
  have hcheck : (Tree.itemsFault? .kept items).or (ListEnd.closed.error? .kept) = none := hitems
  rw [toOption_read, Tree.arr, split]
  simp only [hcheck, check_none]
  cases v.readTag s t <;> rfl

end Variants

end SolidityDocs.Json
