import SolidityDocs.Document.Basic
import SolidityDocs.Proofs.Json.Unordered

/-!
# How a run ends

A run reads the text of the input, then the text of the output, and then builds the document.  The
text of an artifact can end a run in two ways only.  Either it does not decode, and then it is
malformed; or it decodes, up to the blanks after the value, and has no `sources`.  Nothing that
stands below `sources` can fail afterwards: joining two artifacts that were read finds the sources
of both, and building a document has no other way to fail.

## When the sources are missing

An artifact is a record with the one field `sources`, which is optional in two senses: it may be
left out, and it may be `null`.  A record can also be written as a list of its fields, so there are
four texts for the same thing, up to unknown entries and blanks: `{}`, `{"sources": null}`, `[]` and
`[null]`.  `Json.Tree.Lacks` says this of a tree, without the reader, and
`Json.Record.Single.read_eq_ok` says that the record that is read from a tree has no value exactly
when the tree is of this form.

* `Json.Reader.parse_eq_ok_iff`: what it means that a whole text decodes.
* `Artifact.Classified`: the three outcomes of reading an artifact, each with its condition.
* `Document.buildFromTexts_outcome`: how a run ends.
-/

namespace SolidityDocs

namespace Json

/-- A computation succeeds when each of its steps does. -/
theorem exists_of_bind_eq_ok {ε α β : Type} {x : Except ε α} {f : α → Except ε β} {b : β}
    (h : x.bind f = .ok b) : ∃ a, x = .ok a ∧ f a = .ok b := by
  cases x with
  | error e => cases h
  | ok a => exact ⟨a, rfl, h⟩

/-! ## Whole texts -/

/-- The text is a value that the reader accepts, and blanks after it. -/
structure Reader.Decodes {α : Type} (r : Reader α) (text : String) (a : α) : Prop where
  value : r .streamed (Tree.scan text.toList).1 = .ok a
  blanks : ∀ c ∈ (Tree.scan text.toList).2, Token.isBlank c = true

theorem Reader.parse_eq_ok_iff {α : Type} {r : Reader α} {text : String} {a : α} :
    r.parse text = .ok a ↔ r.Decodes text a := by
  unfold Reader.parse
  constructor
  · intro h
    obtain ⟨b, hb, h⟩ := exists_of_bind_eq_ok h
    by_cases hblank : (Tree.scan text.toList).2.all Token.isBlank = true
    · rw [if_pos hblank] at h
      cases h
      exact ⟨hb, List.all_eq_true.mp hblank⟩
    · rw [if_neg hblank] at h
      cases h
  · intro h
    simp only [h.value, bind, Except.bind, if_pos (List.all_eq_true.mpr h.blanks)]
    rfl

/-- A text decodes to at most one value. -/
theorem Reader.Decodes.unique {α : Type} {r : Reader α} {text : String} {a b : α}
    (ha : r.Decodes text a) (hb : r.Decodes text b) : a = b :=
  Except.ok.inj (ha.value.symm.trans hb.value)

/-! ## Records with one field that may be missing -/

/-- The value of the first field, which has the given key, is absent or `null`. -/
def Tree.Lacks (key : String) : Tree → Prop
  | .object entries _ => ∀ e ∈ entries, e.1 = .ok key → e.2 = .null
  | .list items _ => ∀ t ∈ items.head?, t = .null
  | _ => False

theorem Reader.option_eq_none_iff {β : Type} {inner : Reader β} {s : Source} {t : Tree}
    {v : Option β} (h : Reader.option inner s t = .ok v) : v = none ↔ t = .null := by
  by_cases ht : t = .null
  · subst ht
    cases h
    exact ⟨fun _ => rfl, fun _ => rfl⟩
  · have hsome : Reader.option inner s t = (inner s t).map some := by
      cases t with
      | null => exact absurd rfl ht
      | _ => rfl
    have hne : v ≠ none := by
      rw [hsome] at h
      cases hinner : inner s t with
      | error e =>
        rw [hinner] at h
        cases h
      | ok w =>
        rw [hinner] at h
        cases h
        exact Option.some_ne_none w
    exact ⟨fun hv => absurd hv hne, fun hnull => absurd hnull ht⟩

namespace Record

variable {σ β : Type}

/-- The record type has a single field, which may be missing or `null`. -/
structure Single (r : Record σ) (key : String) (inner : Reader β) (wrap : Option β → σ) :
    Prop where
  fields : r.fields = [.optional key (.option inner) fun v _ => wrap v]
  blank : r.blank = wrap none

theorem put_eq_ok {key : String} {inner : Reader β} {wrap : Option β → σ} {s : Source}
    {t : Tree} {a b : σ}
    (h : (Field.optional key (.option inner) fun v _ => wrap v).put s t a = .ok b) :
    ∃ v, b = wrap v ∧ (v = none ↔ t = .null) := by
  cases hread : Reader.option inner s t with
  | error e =>
    simp only [Field.optional, hread] at h
    cases h
  | ok v =>
    simp only [Field.optional, hread] at h
    cases h
    exact ⟨v, rfl, Reader.option_eq_none_iff hread⟩

/-- Without fields, the elements of a list make no difference. -/
theorem readItems_nil {r : Record σ} {s : Source} {ending : ListEnd} {items : List Tree} {n : Nat}
    {a b : σ} (h : r.readItems s ending [] items n a = .ok b) : b = a := by
  obtain ⟨_, -, h⟩ := exists_of_bind_eq_ok (x := leftover s n items ending) h
  exact (Except.ok.inj h).symm

namespace Single

variable {r : Record σ} {key : String} {inner : Reader β} {wrap : Option β → σ}
  (hr : r.Single key inner wrap) {s : Source}

include hr

theorem field?_key : r.field? key = some (.optional key (.option inner) fun v _ => wrap v) := by
  unfold field?
  rw [hr.fields, List.find?_cons_of_pos (by simp)]

theorem field?_of_ne {k : String} (hk : k ≠ key) : r.field? k = none := by
  rw [field?_eq_none_iff]
  unfold keys
  rw [hr.fields]
  simpa using hk

/-- An entry with another key makes no difference to what is read. -/
theorem readEntries_of_ne {k : String} (hk : k ≠ key) {t : Tree} {es : List (Key × Tree)}
    {seen : List String} {a : σ} {p : List String × σ}
    (h : r.readEntries s ((.ok k, t) :: es) seen a = .ok p) :
    r.readEntries s es seen a = .ok p := by
  rw [readEntries_unknown (hr.field?_of_ne hk)] at h
  obtain ⟨_, -, h⟩ := exists_of_bind_eq_ok h
  exact h

/-- Once the field has been read, it does not come again. -/
theorem readEntries_seen {es : List (Key × Tree)} {a : σ} {p : List String × σ}
    (h : r.readEntries s es [key] a = .ok p) : p.2 = a ∧ ∀ e ∈ es, e.1 ≠ .ok key := by
  induction es with
  | nil =>
    cases h
    exact ⟨rfl, List.forall_mem_nil _⟩
  | cons e es ih =>
    obtain ⟨_ | k, t⟩ := e
    · cases h
    by_cases hk : k = key
    · subst hk
      rw [readEntries_duplicate hr.field?_key (List.mem_singleton.mpr rfl)] at h
      cases h
    · obtain ⟨hp, hes⟩ := ih (hr.readEntries_of_ne hk h)
      exact ⟨hp, List.forall_mem_cons.mpr ⟨fun heq => hk (Except.ok.inj heq), hes⟩⟩

/-- The value of the field is that of its only entry. -/
theorem readEntries_blank {es : List (Key × Tree)} {p : List String × σ}
    (h : r.readEntries s es [] (wrap none) = .ok p) :
    ∃ v, p.2 = wrap v ∧ (v = none ↔ ∀ e ∈ es, e.1 = .ok key → e.2 = .null) := by
  induction es with
  | nil =>
    cases h
    exact ⟨none, rfl, fun _ => List.forall_mem_nil _, fun _ => rfl⟩
  | cons e es ih =>
    obtain ⟨_ | k, t⟩ := e
    · cases h
    by_cases hk : k = key
    · subst hk
      rw [readEntries_field hr.field?_key List.not_mem_nil] at h
      obtain ⟨b, hput, h⟩ := exists_of_bind_eq_ok h
      obtain ⟨v, rfl, hv⟩ := put_eq_ok hput
      obtain ⟨hp, hes⟩ := hr.readEntries_seen h
      refine ⟨v, hp, ?_⟩
      rw [hv, List.forall_mem_cons]
      constructor
      · intro ht
        exact ⟨fun _ => ht, fun e he heq => absurd heq (hes e he)⟩
      · intro hnull
        exact hnull.1 rfl
    · obtain ⟨v, hp, hv⟩ := ih (hr.readEntries_of_ne hk h)
      refine ⟨v, hp, ?_⟩
      rw [hv, List.forall_mem_cons]
      constructor
      · intro hes
        exact ⟨fun heq => absurd (Except.ok.inj heq) hk, hes⟩
      · intro hes
        exact hes.2

/-- **A record is read without a value exactly from a tree that lacks it.** -/
theorem read_eq_ok {t : Tree} {a : σ} (h : r.read s t = .ok a) :
    ∃ v, a = wrap v ∧ (v = none ↔ t.Lacks key) := by
  cases t with
  | object entries ending =>
    obtain ⟨p, hp, h⟩ := exists_of_bind_eq_ok (x := r.readEntries s entries [] r.blank) h
    obtain ⟨_, -, h⟩ := exists_of_bind_eq_ok (x := r.readEnd p.1 ending) h
    rw [hr.blank] at hp
    obtain ⟨v, hv, hlacks⟩ := hr.readEntries_blank hp
    have hmissing : r.missing? p.1 = none := by
      refine missing?_eq_none ?_ p.1
      rw [hr.fields]
      simp
    simp only [hmissing] at h
    cases h
    exact ⟨v, hv, hlacks⟩
  | list items ending =>
    have h : r.readItems s ending r.fields items 0 r.blank = .ok a := h
    rw [hr.fields, hr.blank] at h
    cases items with
    | nil =>
      obtain ⟨_, -, h⟩ := exists_of_bind_eq_ok (x := check (ending.error? .kept)) h
      have h : r.readItems s ending [] [] 1 (wrap none) = .ok a := h
      refine ⟨none, readItems_nil h, fun _ t ht => ?_, fun _ => rfl⟩
      cases ht
    | cons t items =>
      obtain ⟨b, hput, h⟩ := exists_of_bind_eq_ok
        (x := (Field.optional key (.option inner) fun v _ => wrap v).put s t (wrap none)) h
      obtain ⟨v, hb, hv⟩ := put_eq_ok hput
      refine ⟨v, (readItems_nil h).trans hb, ?_⟩
      rw [hv]
      constructor
      · rintro ht u hu
        exact (Option.mem_some.mp hu).symm.trans ht
      · intro hlacks
        exact hlacks t rfl
  | _ => cases h

end Single

end Record

end Json

/-! ## One artifact -/

open Json (Reader Record Tree)

/-- The outcomes of reading the text of an artifact that is a record of its sources.  It is read
when the whole text decodes with sources.  It has no sources when the whole text decodes, but they
are absent or `null`.  It is malformed when the text does not decode. -/
structure Artifact.Classified {α β : Type} (artifact : Artifact) (record : Record α)
    (sources : α → Option β) (parse : String → Except ArtifactError α) : Prop where
  ok_iff : ∀ text a, parse text = .ok a ↔
    record.read.Decodes text a ∧ (sources a).isSome = true
  missing_iff : ∀ text, parse text = .error (.missingSources artifact) ↔
    (∃ a, record.read.Decodes text a) ∧ (Tree.scan text.toList).1.Lacks "sources"
  malformed_iff : ∀ text, (∃ e, parse text = .error (.malformed artifact e)) ↔
    ¬ ∃ a, record.read.Decodes text a

section Classification

variable {α β : Type} {artifact : Artifact} {record : Record α} {sources : α → Option β}
  {parse : String → Except ArtifactError α}
  (hparse : ∀ text, parse text = match record.read.parse text with
    | .error e => .error (.malformed artifact e)
    | .ok a => if (sources a).isSome then .ok a else .error (.missingSources artifact))

include hparse in
/-- What reading an artifact comes to, by what its text decodes to. -/
theorem Artifact.parse_cases (text : String) :
    (∃ e, parse text = .error (.malformed artifact e) ∧ ¬ ∃ a, record.read.Decodes text a) ∨
    ∃ a, record.read.Decodes text a ∧
      ((sources a).isSome = true ∧ parse text = .ok a ∨
        sources a = none ∧ parse text = .error (.missingSources artifact)) := by
  rw [hparse text]
  simp only [← Reader.parse_eq_ok_iff]
  cases record.read.parse text with
  | error e =>
    refine .inl ⟨e, rfl, ?_⟩
    rintro ⟨a, ha⟩
    cases ha
  | ok a =>
    refine .inr ⟨a, rfl, ?_⟩
    cases hsources : sources a with
    | none => exact .inr ⟨rfl, by simp [hsources]⟩
    | some v => exact .inl ⟨rfl, by simp [hsources]⟩

include hparse in
theorem Artifact.classified {inner : Reader β} {wrap : Option β → α}
    (hr : record.Single "sources" inner wrap) (hwrap : ∀ v, sources (wrap v) = v) :
    artifact.Classified record sources parse := by
  -- the artifact that the text decodes to has sources unless the tree lacks them
  have hlacks : ∀ text a, record.read.Decodes text a →
      (sources a = none ↔ (Tree.scan text.toList).1.Lacks "sources") := by
    intro text a h
    obtain ⟨v, rfl, hv⟩ := hr.read_eq_ok h.value
    rw [hwrap]
    exact hv
  refine ⟨fun text a => ?_, fun text => ?_, fun text => ?_⟩
  · rcases parse_cases hparse text with ⟨e, he, hnone⟩ | ⟨b, hb, ⟨hsome, hok⟩ | ⟨hnone, herr⟩⟩
    · rw [he]
      exact ⟨nofun, fun h => absurd ⟨a, h.1⟩ hnone⟩
    · rw [hok]
      constructor
      · intro h
        cases h
        exact ⟨hb, hsome⟩
      · intro h
        rw [h.1.unique hb]
    · rw [herr]
      refine ⟨nofun, fun h => ?_⟩
      rw [h.1.unique hb, hnone] at h
      cases h.2
  · rcases parse_cases hparse text with ⟨e, he, hnone⟩ | ⟨b, hb, ⟨hsome, hok⟩ | ⟨hnone, herr⟩⟩
    · rw [he]
      exact ⟨nofun, fun h => absurd h.1 hnone⟩
    · rw [hok]
      refine ⟨nofun, fun h => ?_⟩
      rw [(hlacks text b hb).mpr h.2] at hsome
      cases hsome
    · rw [herr]
      exact ⟨fun _ => ⟨⟨b, hb⟩, (hlacks text b hb).mp hnone⟩, fun _ => rfl⟩
  · rcases parse_cases hparse text with ⟨e, he, hnone⟩ | ⟨b, hb, ⟨_, hok⟩ | ⟨_, herr⟩⟩
    · exact ⟨fun _ => hnone, fun _ => ⟨e, he⟩⟩
    · rw [hok]
      exact ⟨nofun, fun h => absurd ⟨b, hb⟩ h⟩
    · rw [herr]
      exact ⟨nofun, fun h => absurd ⟨b, hb⟩ h⟩

end Classification

theorem CompilerInput.classified :
    Artifact.input.Classified record CompilerInput.sources parse := by
  refine Artifact.classified (fun text => ?_) (⟨rfl, rfl⟩ : record.Single _ _ mk) fun _ => rfl
  unfold parse
  cases record.read.parse text <;> rfl

theorem CompilerOutput.classified :
    Artifact.output.Classified record CompilerOutput.sources parse := by
  refine Artifact.classified (fun text => ?_) (⟨rfl, rfl⟩ : record.Single _ _ mk) fun _ => rfl
  unfold parse
  cases record.read.parse text <;> rfl

/-! ## A whole run -/

namespace Document

/-- What is read has sources, so joining it succeeds. -/
theorem join_of_parse {i o : String} {a : CompilerInput} {b : CompilerOutput}
    (ha : CompilerInput.parse i = .ok a) (hb : CompilerOutput.parse o = .ok b) :
    ∃ x y, a.sources = some x ∧ b.sources = some y ∧
      Compilation.join a b = .ok (Compilation.ofSources x y) := by
  obtain ⟨x, hx⟩ := Option.isSome_iff_exists.mp ((CompilerInput.classified.ok_iff i a).mp ha).2
  obtain ⟨y, hy⟩ := Option.isSome_iff_exists.mp ((CompilerOutput.classified.ok_iff o b).mp hb).2
  refine ⟨x, y, hx, hy, ?_⟩
  unfold Compilation.join
  rw [hx, hy]

theorem buildFromTexts_of_input_error {i : String} {e : ArtifactError}
    (he : CompilerInput.parse i = .error e) (o : String) : buildFromTexts i o = .error e := by
  unfold buildFromTexts
  rw [he]
  rfl

theorem buildFromTexts_of_output_error {i o : String} {a : CompilerInput} {e : ArtifactError}
    (ha : CompilerInput.parse i = .ok a) (he : CompilerOutput.parse o = .error e) :
    buildFromTexts i o = .error e := by
  unfold buildFromTexts
  rw [ha, he]
  rfl

theorem buildFromTexts_of_parse {i o : String} {a : CompilerInput} {b : CompilerOutput}
    (ha : CompilerInput.parse i = .ok a) (hb : CompilerOutput.parse o = .ok b) :
    ∃ d, buildFromTexts i o = .ok d := by
  obtain ⟨x, y, -, -, hjoin⟩ := join_of_parse ha hb
  unfold buildFromTexts build
  rw [ha, hb]
  simp only [bind, Except.bind, hjoin]
  exact ⟨_, rfl⟩

/-- **How a run ends.**  It succeeds exactly when both artifacts are read, and otherwise it ends
with the error of the first one that is not.  An artifact that is not read is malformed or has no
sources, according to its text.  Two artifacts with sources are always documented. -/
theorem buildFromTexts_outcome :
    (∀ i o, (∃ d, buildFromTexts i o = .ok d) ↔
      (∃ a, CompilerInput.parse i = .ok a) ∧ ∃ b, CompilerOutput.parse o = .ok b) ∧
    (∀ i o e, CompilerInput.parse i = .error e → buildFromTexts i o = .error e) ∧
    (∀ i o a e, CompilerInput.parse i = .ok a → CompilerOutput.parse o = .error e →
      buildFromTexts i o = .error e) ∧
    Artifact.input.Classified CompilerInput.record CompilerInput.sources CompilerInput.parse ∧
    Artifact.output.Classified CompilerOutput.record CompilerOutput.sources
      CompilerOutput.parse ∧
    (∀ i o a b, CompilerInput.parse i = .ok a → CompilerOutput.parse o = .ok b →
      ∃ x y, a.sources = some x ∧ b.sources = some y ∧
        Compilation.join a b = .ok (Compilation.ofSources x y)) ∧
    ∀ x y, ∃ d, build ⟨some x⟩ ⟨some y⟩ = .ok d := by
  refine ⟨fun i o => ?_, fun i o e he => buildFromTexts_of_input_error he o,
    fun i o a e ha he => buildFromTexts_of_output_error ha he, CompilerInput.classified,
    CompilerOutput.classified, fun i o a b ha hb => join_of_parse ha hb, fun x y => ⟨_, rfl⟩⟩
  constructor
  · rintro ⟨d, hd⟩
    cases ha : CompilerInput.parse i with
    | error e =>
      rw [buildFromTexts_of_input_error ha] at hd
      cases hd
    | ok a =>
      cases hb : CompilerOutput.parse o with
      | error e =>
        rw [buildFromTexts_of_output_error ha hb] at hd
        cases hd
      | ok b => exact ⟨⟨a, rfl⟩, ⟨b, rfl⟩⟩
  · rintro ⟨⟨a, ha⟩, ⟨b, hb⟩⟩
    exact buildFromTexts_of_parse ha hb

/-- An output that is the list of its one field, which is `null`, has no sources, and the run ends
with that error.  With sources that have neither a text nor a syntax tree, it succeeds. -/
theorem buildFromTexts_outcome_null :
    let input := (Json.Value.object [("sources", .object [("a.sol", .object [])])]).compact
    let output := (Json.Value.object [("sources", .object [])]).compact
    buildFromTexts input "[null]\n" = .error (.missingSources .output) ∧
      ∃ d, buildFromTexts input output = .ok d := by
  intro input output
  have hinput : CompilerInput.parse input = .ok ⟨some (.ofList [("a.sol", .wrapped none)])⟩ := by
    cbv
  have houtput : CompilerOutput.parse output = .ok ⟨some .empty⟩ := by cbv
  have hscan : Tree.scan "[null]\n".toList = (.list [.null] .closed, ['\n']) := by cbv
  obtain ⟨hok, -, houtputError, -, hclassified, -, -⟩ := buildFromTexts_outcome
  have hmissing : CompilerOutput.parse "[null]\n" = .error (.missingSources .output) := by
    refine (hclassified.missing_iff _).mpr ⟨⟨⟨none⟩, ?_, ?_⟩, ?_⟩
    · rw [hscan]
      rfl
    · rw [hscan]
      exact fun c hc => List.mem_singleton.mp hc ▸ rfl
    · rw [hscan]
      exact fun t ht => (Option.mem_some.mp ht).symm
  exact ⟨houtputError input _ _ _ hinput hmissing, (hok _ _).mpr ⟨⟨_, hinput⟩, ⟨_, houtput⟩⟩⟩

end Document

end SolidityDocs
