import Mathlib
import SolidityDocs.Ast.Reader

/-!
# The bound on nested expressions

The reader of expressions takes a bound on the nesting, and the depth of the tree is always enough.
This file proves that any bound from there on gives the same result, so that trees of different
depths can be read with the same bound.

A record reader looks at the parts of a tree only, and every part is less deep than the tree.  So
two records whose fields agree on all trees less deep than `t` read `t` alike (`Record.read_congr`).

Main statement: `Expression.readWithin_eq`.
-/

namespace SolidityDocs

namespace Json.Record

variable {σ : Type}

/-- The fields have the same key, are both required or both not, and put the same values below a
depth. -/
structure AgreeBelow (n : Nat) (s : Source) (f g : Field σ) : Prop where
  key : f.key = g.key
  required : f.required = g.required
  put : ∀ t : Tree, t.depth < n → ∀ a, f.put s t a = g.put s t a

variable {R R' : Record σ} {n : Nat} {s : Source}

theorem agreeBelow_refl (f : Field σ) : AgreeBelow n s f f := ⟨rfl, rfl, fun _ _ _ => rfl⟩

theorem agreeBelow_optional {α : Type} {q r : Reader α}
    (h : ∀ t : Tree, t.depth < n → q s t = r s t) (k : String) (set : α → σ → σ) :
    AgreeBelow n s (.optional k q set) (.optional k r set) where
  key := rfl
  required := rfl
  put t ht a := congrArg (Except.map fun v => set v a) (h t ht)

theorem field?_agree (h : List.Forall₂ (AgreeBelow n s) R.fields R'.fields) (k : String) :
    (R.field? k = none ∧ R'.field? k = none) ∨
      ∃ f g, R.field? k = some f ∧ R'.field? k = some g ∧ AgreeBelow n s f g := by
  unfold field?
  generalize R.fields = fs at h ⊢
  generalize R'.fields = gs at h ⊢
  induction h with
  | nil => exact .inl ⟨rfl, rfl⟩
  | @cons f g fs gs hfg _ ih =>
    by_cases hk : f.key = k
    · have hk' : g.key = k := hfg.key ▸ hk
      exact .inr ⟨f, g, by simp [hk], by simp [hk'], hfg⟩
    · have hk' : ¬ g.key = k := hfg.key ▸ hk
      rw [List.find?_cons_of_neg (by simpa using hk), List.find?_cons_of_neg (by simpa using hk')]
      exact ih

theorem readEntries_agree (h : List.Forall₂ (AgreeBelow n s) R.fields R'.fields)
    {es : List (Key × Tree)} (hes : ∀ k t, (k, t) ∈ es → t.depth < n) (seen : List String) (a : σ) :
    R.readEntries s es seen a = R'.readEntries s es seen a := by
  induction es generalizing seen a with
  | nil => rfl
  | cons e es ih =>
    obtain ⟨k | k, t⟩ := e
    · rfl
    have ht : t.depth < n := hes _ t (List.mem_cons_self ..)
    have hrest := fun seen a => ih (fun k t hkt => hes k t (List.mem_cons_of_mem _ hkt)) seen a
    obtain ⟨hf, hg⟩ | ⟨f, g, hf, hg, hfg⟩ := field?_agree h k
    · rw [readEntries_unknown hf, readEntries_unknown hg]
      simp only [hrest]
    · by_cases hseen : k ∈ seen
      · rw [readEntries_duplicate hf hseen, readEntries_duplicate hg hseen]
      · rw [readEntries_field hf hseen, readEntries_field hg hseen, hfg.put t ht a]
        simp only [hrest]

theorem readEnd_agree (h : List.Forall₂ (AgreeBelow n s) R.fields R'.fields) (seen : List String)
    (ending : ObjectEnd) : R.readEnd seen ending = R'.readEnd seen ending := by
  have hsome : ∀ k, (R.field? k).isSome = (R'.field? k).isSome := by
    intro k
    obtain ⟨hf, hg⟩ | ⟨f, g, hf, hg, -⟩ := field?_agree h k
    · rw [hf, hg]
    · rw [hf, hg]
      rfl
  unfold readEnd
  simp only [hsome]

theorem missing?_agree (h : List.Forall₂ (AgreeBelow n s) R.fields R'.fields)
    (seen : List String) : R.missing? seen = R'.missing? seen := by
  unfold missing?
  generalize R.fields = fs at h ⊢
  generalize R'.fields = gs at h ⊢
  induction h with
  | nil => rfl
  | cons hfg _ ih =>
    rw [List.find?_cons, List.find?_cons, hfg.key, hfg.required]
    split
    · exact congrArg some hfg.key
    · exact ih

theorem readItems_agree (hname : R.name = R'.name) (hlength : R.fields.length = R'.fields.length)
    {fs gs : List (Field σ)} (h : List.Forall₂ (AgreeBelow n s) fs gs) (ending : ListEnd)
    {items : List Tree} (hitems : ∀ t ∈ items, t.depth < n) (i : Nat) (a : σ) :
    R.readItems s ending fs items i a = R'.readItems s ending gs items i a := by
  induction h generalizing items i a with
  | nil => rfl
  | cons hfg _ ih =>
    cases items with
    | nil =>
      rw [readItems, readItems, hname, hlength, hfg.required]
      simp only [ih hitems]
    | cons t items =>
      obtain ⟨ht, hrest⟩ := List.forall_mem_cons.mp hitems
      rw [readItems, readItems, hfg.put t ht a]
      simp only [ih hrest]

/-- **Records that agree on the parts of a tree read it alike.** -/
theorem read_congr {t : Tree} (hname : R.name = R'.name) (hblank : R.blank = R'.blank)
    (h : List.Forall₂ (AgreeBelow t.depth s) R.fields R'.fields) : R.read s t = R'.read s t := by
  cases t with
  | object es ending =>
    have hes : ∀ k t, (k, t) ∈ es → t.depth < (Tree.object es ending).depth :=
      fun k t hkt => Tree.depth_lt_of_mem_entries hkt ending
    show R.readObject s es ending = R'.readObject s es ending
    unfold readObject
    rw [readEntries_agree h hes, hblank]
    simp only [readEnd_agree h, missing?_agree h]
  | list items ending =>
    have hitems : ∀ t ∈ items, t.depth < (Tree.list items ending).depth :=
      fun t ht => Tree.depth_lt_of_mem_items ht ending
    show R.readItems s ending R.fields items 0 R.blank = R'.readItems s ending _ items 0 R'.blank
    rw [hblank]
    exact readItems_agree hname h.length_eq h ending hitems 0 R'.blank
  | _ => simp only [read, hname]

end Json.Record

namespace Ast.Expression

open Json (Reader Source Tree Record)

theorem agree_record {q r : Reader Expression} {n : Nat} {s : Source}
    (h : ∀ t : Tree, t.depth < n → q s t = r s t) :
    List.Forall₂ (Record.AgreeBelow n s) (record q).fields (record r).fields := by
  have hoption : ∀ t : Tree, t.depth < n → Reader.option q s t = Reader.option r s t := by
    intro t ht
    cases t with
    | null => rfl
    | _ => exact congrArg (Except.map some) (h _ ht)
  refine .cons (Record.agreeBelow_refl _) ?_
  refine .cons (Record.agreeBelow_refl _) ?_
  refine .cons (Record.agreeBelow_refl _) ?_
  refine .cons (Record.agreeBelow_optional hoption _ _) ?_
  refine .cons (Record.agreeBelow_refl _) ?_
  refine .cons (Record.agreeBelow_refl _) ?_
  exact .cons (Record.agreeBelow_refl _) .nil

theorem readWithin_succ {n : Nat} {t : Tree} (ht : t.depth ≤ n) (s : Source) :
    readWithin (n + 1) s t = readWithin n s t := by
  induction n generalizing t with
  | zero =>
    have hnone : ∀ u : Tree, u.depth < t.depth → readWithin 0 s u = refuse s u :=
      fun u hu => absurd (Nat.lt_of_lt_of_le hu ht) (Nat.not_lt_zero _)
    exact Record.read_congr rfl rfl (agree_record hnone)
  | succ n ih =>
    have hparts : ∀ u : Tree, u.depth < t.depth → readWithin (n + 1) s u = readWithin n s u :=
      fun u hu => ih (Nat.le_of_lt_succ (Nat.lt_of_lt_of_le hu ht))
    exact Record.read_congr rfl rfl (agree_record hparts)

/-- **Any bound from the depth of the tree on reads the same expression.** -/
theorem readWithin_eq {n : Nat} {t : Tree} (ht : t.depth ≤ n) (s : Source) :
    readWithin n s t = read s t := by
  induction n, ht using Nat.le_induction with
  | base => rfl
  | succ n hn ih => rw [readWithin_succ hn, ih]

end Ast.Expression

end SolidityDocs
