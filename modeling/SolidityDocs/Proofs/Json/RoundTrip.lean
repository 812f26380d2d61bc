import Mathlib
import SolidityDocs.Entry.Writer
import SolidityDocs.Json.Keyword
import SolidityDocs.Json.Node
import SolidityDocs.Proofs.Json.Written
import SolidityDocs.Proofs.Map.Arrival

/-!
# Reading what was written

`Reader.Gives r v x` says that reading the written value `v` with `r` has the outcome `x`, whether
the value is streamed or buffered.  The laws of this file compute the outcome for every way of
building readers and values: lists, maps, optional values, keywords, records and tagged nodes.  Each
type of the library then gets its round trip by naming the laws of its parts.

A value that cannot be read back may stand anywhere inside a larger one, and the outcome of the
larger one is then its error.  `keepIf` is the outcome of a value that is read back on a condition,
so that both cases are carried through the laws at once.

The entries of a record are written in the order of its fields, some of them left out.
`Record.Fills` walks along the fields and the entries together.

* `Record.gives_read`: the outcome of a record.
* `Variants.gives_read`, `Variants.gives_duplicate`: the outcome of a tagged node.
* `Reader.Gives.parse_eq`: the outcome of a whole text.
-/

namespace SolidityDocs.Json

/-! ## Written values have no defects -/

namespace Tree

mutual

theorem fault?_tree (u : Use) : ∀ v : Value, fault? u v.tree = none
  | .null => rfl
  | .bool _ => rfl
  | .nat _ => by cases u <;> rfl
  | .string _ => by cases u <;> rfl
  | .list vs => by
    rw [Value.tree, fault?, itemsFault?_itemTrees u vs]
    rfl
  | .object es => by
    rw [Value.tree, fault?, entriesFault?_entryTrees u es]
    rfl

theorem itemsFault?_itemTrees (u : Use) :
    ∀ vs : List Value, itemsFault? u (Value.itemTrees vs) = none
  | [] => rfl
  | v :: vs => by
    rw [Value.itemTrees, itemsFault?, fault?_tree u v, itemsFault?_itemTrees u vs]
    rfl

theorem entriesFault?_entryTrees (u : Use) :
    ∀ es : List (String × Value), entriesFault? u (Value.entryTrees es) = none
  | [] => rfl
  | (k, v) :: es => by
    rw [Value.entryTrees, entriesFault?, fault?_tree u v, entriesFault?_entryTrees u es]
    cases u <;> rfl

end

end Tree

/-! ## Outcomes -/

section Outcomes

variable {α β : Type}

/-- The value on a condition, or else the error. -/
def keepIf (e : ReadError) (ok : Bool) (a : α) : Except ReadError α :=
  if ok then .ok a else .error e

theorem map_keepIf (f : α → β) (e : ReadError) (ok : Bool) (a : α) :
    (keepIf e ok a).map f = keepIf e ok (f a) := by
  cases ok <;> rfl

/-- One outcome after the other: both conditions have to hold. -/
theorem keepIf_bind (e : ReadError) (p q : Bool) (a : α) (b : β) {k : α → Except ReadError β}
    (hk : k a = keepIf e q b) : (keepIf e p a).bind k = keepIf e (p && q) b := by
  cases p with
  | false => rfl
  | true => exact hk

/-- A list is kept if each of its members is. -/
theorem mapM_map_eq_keepIf {e : ReadError} {p : α → Bool} {f : α → β}
    {g : β → Except ReadError α} {as : List α} (h : ∀ a ∈ as, g (f a) = keepIf e (p a) a) :
    (as.map f).mapM g = keepIf e (as.all p) as := by
  induction as with
  | nil => rfl
  | cons a as ih =>
    obtain ⟨ha, has⟩ := List.forall_mem_cons.mp h
    rw [List.map_cons, List.mapM_cons, ha, ih has, List.all_cons]
    refine keepIf_bind e (p a) (as.all p) a (a :: as) ?_
    cases as.all p <;> rfl

end Outcomes

namespace Reader

variable {α β : Type}

/-- Reading the value has the outcome, whether it is streamed or buffered.  The numbers of the value
are such as can be read. -/
structure Gives (r : Reader α) (v : Value) (x : Except ReadError α) : Prop where
  fits : v.Fits
  read : ∀ s, r s v.tree = x

/-- Reading the text of the value has the outcome. -/
theorem Gives.parse_eq {r : Reader α} {v : Value} {x : Except ReadError α} (h : r.Gives v x)
    {l : Layout} (hl : l.IsBlank) : r.parse (v.render l) = x := by
  unfold parse
  simp only [Tree.scan_render hl h.fits, h.read]
  cases x <;> rfl

theorem Gives.map {r : Reader α} {v : Value} {x : Except ReadError α} (h : r.Gives v x)
    (f : α → β) : Gives (fun s t => (r s t).map f) v (x.map f) where
  fits := h.fits
  read s := congrArg (Except.map f) (h.read s)

/-! ## Single values -/

theorem gives_string (s : String) : Gives .string (.string s) (.ok s) := ⟨trivial, fun _ => rfl⟩

theorem gives_boolean (b : Bool) : Gives .boolean (.bool b) (.ok b) := ⟨trivial, fun _ => rfl⟩

theorem gives_natural (expected : Expected) {bound n : Nat} (hn : n < bound)
    (hb : bound ≤ Nat.pow 2 64) : Gives (.natural expected bound) (.nat n) (.ok n) where
  fits := Nat.lt_of_lt_of_le hn hb
  read _ := if_pos hn

theorem gives_word64 {n : Nat} (hn : n < Nat.pow 2 64) : Gives .word64 (.nat n) (.ok n) :=
  gives_natural .word64 hn (Nat.le_refl _)

theorem gives_word32 {n : Nat} (hn : n < Nat.pow 2 32) : Gives .word32 (.nat n) (.ok n) :=
  gives_natural .word32 hn (by decide)

theorem gives_keyword {names : List (String × α)} {name : String} {a : α}
    (h : names.lookup name = some a) : Gives (.keyword names) (.string name) (.ok a) where
  fits := trivial
  read s := by
    have hname : Keyword.ofName names name = .ok a := by rw [Keyword.ofName, h]
    cases s <;> exact hname

/-! ## Optional values, lists and maps -/

theorem gives_option {r : Reader α} {f : α → Value} {e : ReadError} {p : α → Bool} {o : Option α}
    (hnull : ∀ a, f a ≠ .null) (h : ∀ a ∈ o, Gives r (f a) (keepIf e (p a) a)) :
    Gives (.option r) (.ofOption f o) (keepIf e (o.all p) o) := by
  cases o with
  | none => exact ⟨trivial, fun _ => rfl⟩
  | some a =>
    have ha := h a rfl
    refine ⟨ha.fits, fun s => ?_⟩
    have hread : Reader.option r s (f a).tree = (r s (f a).tree).map some := by
      cases hv : f a with
      | null => exact absurd hv (hnull a)
      | _ => rfl
    rw [Value.ofOption, hread, ha.read s, map_keepIf, Option.all_some]

theorem gives_list {r : Reader α} {f : α → Value} {e : ReadError} {p : α → Bool} {as : List α}
    (h : ∀ a ∈ as, Gives r (f a) (keepIf e (p a) a)) :
    Gives (.list r) (.ofList f as) (keepIf e (as.all p) as) where
  fits := by
    refine Value.itemsFit_iff.mpr fun v hv => ?_
    obtain ⟨a, ha, rfl⟩ := List.mem_map.mp hv
    exact (h a ha).fits
  read s := by
    have hitems : ((as.map f).map Value.tree).mapM (r s) = keepIf e (as.all p) as := by
      rw [List.map_map]
      exact mapM_map_eq_keepIf fun a ha => (h a ha).read s
    rw [Value.ofList, Value.tree, Value.itemTrees_eq_map, Reader.list, hitems]
    cases as.all p <;> rfl

theorem gives_map {r : Reader α} {f : α → Value} {e : ReadError} {p : α → Bool}
    {m : OrderedMap String α} (h : ∀ a ∈ m.values, Gives r (f a) (keepIf e (p a) a)) :
    Gives (.map r) (m.toJson f) (keepIf e (m.values.all p) m) where
  fits := by
    refine Value.entriesFit_iff.mpr fun e he => ?_
    obtain ⟨x, hx, rfl⟩ := List.mem_map.mp he
    exact (h x.2 (List.mem_map_of_mem hx)).fits
  read s := by
    have hentries : (m.entries.map fun x => ((.ok x.1 : Key), (f x.2).tree)).mapM (entry r s) =
        keepIf e (m.entries.all fun x => p x.2) m.entries := by
      refine mapM_map_eq_keepIf fun x hx => ?_
      have hread := (h x.2 (List.mem_map_of_mem hx)).read s
      show (r s (f x.2).tree).bind _ = _
      rw [hread]
      cases p x.2 <;> rfl
    have hall : (m.entries.all fun x => p x.2) = m.values.all p := by
      rw [OrderedMap.values, List.all_map]
      rfl
    rw [OrderedMap.toJson, Value.tree, Value.entryTrees_eq_map, List.map_map, Reader.map]
    show ((m.entries.map fun x => ((.ok x.1 : Key), (f x.2).tree)).mapM (entry r s)).bind _ = _
    rw [hentries, hall]
    cases m.values.all p with
    | false => rfl
    | true => exact congrArg Except.ok (OrderedMap.ofList_entries m)

section Kept

variable {r : Reader α} {f : α → Value}

theorem gives_option_ok {o : Option α} (hnull : ∀ a, f a ≠ .null)
    (h : ∀ a ∈ o, Gives r (f a) (.ok a)) : Gives (.option r) (.ofOption f o) (.ok o) := by
  have hgives := gives_option (e := .text .eofValue) (p := fun _ => true) hnull h
  rwa [show o.all (fun _ => true) = true by cases o <;> rfl] at hgives

theorem gives_list_ok {as : List α} (h : ∀ a ∈ as, Gives r (f a) (.ok a)) :
    Gives (.list r) (.ofList f as) (.ok as) := by
  have hgives := gives_list (e := .text .eofValue) (p := fun _ => true) h
  rwa [show as.all (fun _ => true) = true by simp] at hgives

theorem gives_map_ok {m : OrderedMap String α} (h : ∀ a ∈ m.values, Gives r (f a) (.ok a)) :
    Gives (.map r) (m.toJson f) (.ok m) := by
  have hgives := gives_map (e := .text .eofValue) (p := fun _ => true) h
  rwa [show m.values.all (fun _ => true) = true by simp] at hgives

end Kept

/-- The first alternative that accepts the value gives the outcome. -/
theorem gives_firstOf {name : String} {readers : List (Reader α)} {v : Value} {a : α}
    (hfits : v.Fits)
    (h : (readers.findSome? fun r => (r .buffered v.tree).toOption) = some a) :
    Gives (.firstOf name readers) v (.ok a) where
  fits := hfits
  read _ := by
    unfold Reader.firstOf Reader.buffer
    simp only [Tree.fault?_tree, check_none, bind, Except.bind, h]

end Reader

/-! ## Records -/

namespace Record

variable {σ α : Type}

/-- The entries fill the fields in order: starting with the first record, reading them has the
outcome.  The next entry belongs to the next field, or that field is left out, or it cannot be read
and filling stops. -/
inductive Fills : List (Field σ) → List (String × Value) → σ → Except ReadError σ → Prop
  | nil (a : σ) : Fills [] [] a (.ok a)
  | entry {f : Field σ} {fs : List (Field σ)} {v : Value} {es : List (String × Value)} {a b : σ}
      {x : Except ReadError σ} (fits : v.Fits) (put : ∀ s, f.put s v.tree a = .ok b)
      (rest : Fills fs es b x) : Fills (f :: fs) ((f.key, v) :: es) a x
  | skip {f : Field σ} {fs : List (Field σ)} {es : List (String × Value)} {a : σ}
      {x : Except ReadError σ} (optional : f.required = false) (rest : Fills fs es a x) :
      Fills (f :: fs) es a x
  | stop {f : Field σ} {fs : List (Field σ)} {v : Value} {es : List (String × Value)} {a : σ}
      {e : ReadError} (fits : v.Fits) (put : ∀ s, f.put s v.tree a = .error e)
      (rest : Value.EntriesFit es) : Fills (f :: fs) ((f.key, v) :: es) a (.error e)

namespace Fills

variable {fs : List (Field σ)} {es : List (String × Value)} {a : σ} {x : Except ReadError σ}

theorem fits (h : Fills fs es a x) : Value.EntriesFit es := by
  induction h with
  | nil => trivial
  | entry hv _ _ ih => exact ⟨hv, ih⟩
  | skip _ _ ih => exact ih
  | stop hv _ hes => exact ⟨hv, hes⟩

/-- A field that is not left out. -/
theorem needed {r : Reader α} {v : Value} {b : α} {k : String} {set : α → σ → σ}
    (hr : r.Gives v (.ok b)) (h : Fills fs es (set b a) x) :
    Fills (.needed k r set :: fs) ((k, v) :: es) a x :=
  .entry hr.fits (fun s => by simp only [Field.needed, hr.read s, Except.map]) h

/-- A field that might be left out and is not. -/
theorem optional {r : Reader α} {v : Value} {b : α} {k : String} {set : α → σ → σ}
    (hr : r.Gives v (.ok b)) (h : Fills fs es (set b a) x) :
    Fills (.optional k r set :: fs) ((k, v) :: es) a x :=
  .entry hr.fits (fun s => by simp only [Field.optional, hr.read s, Except.map]) h

/-- A field that is read back on a condition, before fields that are read back. -/
theorem optionalIf {r : Reader α} {v : Value} {b : α} {k : String} {set : α → σ → σ} {c : σ}
    {e : ReadError} {p : Bool} (hr : r.Gives v (keepIf e p b)) (h : Fills fs es (set b a) (.ok c)) :
    Fills (.optional k r set :: fs) ((k, v) :: es) a (keepIf e p c) := by
  cases p with
  | true => exact optional hr h
  | false => exact .stop hr.fits (fun s => by simp only [Field.optional, hr.read s]; rfl) h.fits

/-- A field that is left out when it has no value. -/
theorem optionalEntry {r : Reader α} {f : α → Value} {o : Option α} {k : String}
    {set : Option α → σ → σ} (hnull : ∀ b, f b ≠ .null) (hr : ∀ b ∈ o, r.Gives (f b) (.ok b))
    (hset : set none a = a) (h : Fills fs es (set o a) x) :
    Fills (.optional k (.option r) set :: fs) (Value.optionalEntry k f o ++ es) a x := by
  cases o with
  | none =>
    rw [hset] at h
    exact .skip rfl h
  | some b => exact optional (Reader.gives_option_ok hnull hr) h

/-- Every required field has an entry. -/
theorem mem_keys (h : Fills fs es a x) {c : σ} (hx : x = .ok c) :
    ∀ f ∈ fs, f.required = true → f.key ∈ es.map Prod.fst := by
  induction h with
  | nil => simp
  | entry _ _ _ ih =>
    refine List.forall_mem_cons.mpr ⟨fun _ => List.mem_cons_self .., fun f hf hr => ?_⟩
    exact List.mem_cons_of_mem _ (ih hx f hf hr)
  | skip ho _ ih =>
    refine List.forall_mem_cons.mpr ⟨fun hr => ?_, ih hx⟩
    rw [ho] at hr
    cases hr
  | stop => cases hx

/-- The run of the reader over the entries; no field is met twice. -/
theorem readEntries {r : Record σ} (h : Fills fs es a x) (s : Source)
    (hfs : ∀ f ∈ fs, r.field? f.key = some f) (hnodup : (fs.map Field.key).Nodup)
    {seen : List String} (hseen : ∀ f ∈ fs, f.key ∉ seen) :
    r.readEntries s (Value.entryTrees es) seen a =
      x.map fun c => ((es.map Prod.fst).reverse ++ seen, c) := by
  induction h generalizing seen with
  | nil a => rfl
  | @entry f fs v es a b x _ hput _ ih =>
    obtain ⟨hf, hfs⟩ := List.forall_mem_cons.mp hfs
    obtain ⟨hfseen, hseen⟩ := List.forall_mem_cons.mp hseen
    obtain ⟨hnot, hnodup⟩ := List.nodup_cons.mp hnodup
    have hseen' : ∀ g ∈ fs, g.key ∉ f.key :: seen := by
      intro g hg hmem
      rcases List.mem_cons.mp hmem with heq | hmem
      · exact hnot (heq ▸ List.mem_map_of_mem hg)
      · exact hseen g hg hmem
    have hrest := ih hfs hnodup hseen'
    rw [Value.entryTrees, readEntries_field hf hfseen, hput s, List.map_cons, List.reverse_cons,
      List.append_assoc, List.singleton_append]
    exact hrest
  | skip _ _ ih =>
    obtain ⟨hf, hfs⟩ := List.forall_mem_cons.mp hfs
    exact ih hfs (List.nodup_cons.mp hnodup).2 (List.forall_mem_cons.mp hseen).2
  | stop _ hput _ =>
    obtain ⟨hf, -⟩ := List.forall_mem_cons.mp hfs
    obtain ⟨hfseen, -⟩ := List.forall_mem_cons.mp hseen
    rw [Value.entryTrees, readEntries_field hf hfseen, hput s]
    rfl

end Fills

theorem readObject_of_fills {r : Record σ} (hnodup : (r.fields.map Field.key).Nodup)
    {es : List (String × Value)} {x : Except ReadError σ} (h : Fills r.fields es r.blank x)
    (s : Source) : r.readObject s (Value.entryTrees es) .closed = x := by
  have hseen : ∀ f ∈ r.fields, f.key ∉ ([] : List String) := fun _ _ => List.not_mem_nil
  have hread := h.readEntries s (fun f hf => field?_of_mem hnodup hf) hnodup hseen
  unfold readObject
  rw [hread]
  cases hx : x with
  | error e => rfl
  | ok c =>
    have hmissing : r.missing? ((es.map Prod.fst).reverse ++ []) = none := by
      unfold missing?
      rw [Option.map_eq_none_iff, List.find?_eq_none]
      intro f hf hreq
      simp only [Bool.and_eq_true, decide_eq_true_eq, List.append_nil, List.mem_reverse] at hreq
      exact hreq.2 (h.mem_keys hx f hf hreq.1)
    simp only [Except.map, bind, Except.bind, hmissing]
    rfl

/-- **A record is read back from its entries.** -/
theorem gives_read {r : Record σ} (hnodup : (r.fields.map Field.key).Nodup)
    {es : List (String × Value)} {x : Except ReadError σ} (h : Fills r.fields es r.blank x) :
    Reader.Gives r.read (.object es) x :=
  ⟨h.fits, readObject_of_fills hnodup h⟩

theorem gives_readObjectOnly {r : Record σ} (hnodup : (r.fields.map Field.key).Nodup)
    {es : List (String × Value)} {x : Except ReadError σ} (h : Fills r.fields es r.blank x) :
    Reader.Gives r.readObjectOnly (.object es) x :=
  ⟨h.fits, readObject_of_fills hnodup h⟩

end Record

/-! ## Tagged nodes -/

namespace Variants

variable {α : Type} {v : Variants α} {name : String} {es : List (String × Value)}

/-- Entries without a variant are kept as they are. -/
theorem splitEntries_entryTrees (hes : tagKey ∉ es.map Prod.fst) (s : Source)
    (tag : Option (Option (Reader α))) (kept : List (Key × Tree)) :
    v.splitEntries s (Value.entryTrees es) tag kept =
      .ok (tag, kept.reverse ++ Value.entryTrees es) := by
  induction es generalizing kept with
  | nil =>
    rw [Value.entryTrees, splitEntries, List.append_nil]
  | cons e es ih =>
    obtain ⟨k, t⟩ := e
    rw [List.map_cons, List.mem_cons, not_or] at hes
    obtain ⟨hk, hes⟩ := hes
    rw [Value.entryTrees, splitEntries_field (Ne.symm hk), Tree.fault?_tree, check_none]
    show v.splitEntries s (Value.entryTrees es) tag ((.ok k, t.tree) :: kept) = _
    rw [ih hes, List.reverse_cons, List.append_assoc, List.singleton_append]

/-- A second variant among the entries is refused. -/
theorem splitEntries_entryTrees_of_mem (hes : tagKey ∈ es.map Prod.fst) (s : Source)
    (tag : Option (Reader α)) (kept : List (Key × Tree)) :
    v.splitEntries s (Value.entryTrees es) (some tag) kept =
      .error (.data (.duplicateField tagKey)) := by
  induction es generalizing kept with
  | nil => cases hes
  | cons e es ih =>
    obtain ⟨k, t⟩ := e
    rw [Value.entryTrees]
    by_cases hk : k = tagKey
    · rw [hk]
      exact splitEntries_duplicate tag
    · have hmem : tagKey ∈ es.map Prod.fst :=
        (List.mem_cons.mp hes).resolve_left (Ne.symm hk)
      rw [splitEntries_field hk, Tree.fault?_tree, check_none]
      exact ih hmem _

theorem split_tagged (hes : tagKey ∉ es.map Prod.fst) (s : Source) :
    v.split s (Value.object ((tagKey, .string name) :: es)).tree =
      .ok (v.known.lookup name, (Value.object es).tree) := by
  have hsplit := splitEntries_entryTrees (v := v) hes s (some (v.known.lookup name)) []
  rw [Value.tree, Value.entryTrees, split, splitEntries_tag]
  show (v.splitEntries s (Value.entryTrees es) (some (v.known.lookup name)) []).bind _ = _
  rw [hsplit]
  rfl

/-- **A node of a known variant is read from its fields.** -/
theorem gives_read {r : Reader α} (hname : v.known.lookup name = some r)
    (hes : tagKey ∉ es.map Prod.fst) {x : Except ReadError α} (h : r.Gives (.object es) x) :
    Reader.Gives v.read (.object ((tagKey, .string name) :: es)) x where
  fits := ⟨trivial, h.fits⟩
  read s := by
    unfold read
    rw [split_tagged hes, hname]
    exact h.read .buffered

theorem gives_other (hname : v.known.lookup name = none) :
    Reader.Gives v.read (.object [(tagKey, .string name)]) (.ok v.other) where
  fits := ⟨trivial, trivial⟩
  read s := by
    unfold read
    rw [split_tagged (by simp), hname]
    rfl

/-- **A node whose fields have the key of the variant is refused.** -/
theorem gives_duplicate (hes : tagKey ∈ es.map Prod.fst) (hfits : Value.EntriesFit es) :
    Reader.Gives v.read (.object ((tagKey, .string name) :: es))
      (.error (.data (.duplicateField tagKey))) where
  fits := ⟨trivial, hfits⟩
  read s := by
    have hsplit := splitEntries_entryTrees_of_mem (v := v) hes s (v.known.lookup name) []
    unfold read
    rw [Value.tree, Value.entryTrees, split, splitEntries_tag]
    show ((v.splitEntries s (Value.entryTrees es) (some (v.known.lookup name)) []).bind _).bind _ =
      _
    rw [hsplit]
    rfl

end Variants

end SolidityDocs.Json

/-! ## Keywords of declarations -/

namespace SolidityDocs

theorem Visibility.gives_toJson (v : Visibility) : read.Gives v.toJson (.ok v) :=
  Json.Reader.gives_keyword (by cases v <;> rfl)

theorem Mutability.gives_toJson (m : Mutability) : read.Gives m.toJson (.ok m) :=
  Json.Reader.gives_keyword (by cases m <;> rfl)

end SolidityDocs
