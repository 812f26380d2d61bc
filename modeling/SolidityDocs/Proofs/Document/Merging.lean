import SolidityDocs.Proofs.Document.Ledger

/-!
# Laws of merging

Merging goes through the slots of one grouping and changes the other one slot by slot, but what it
does to the lists is only to join them (`Grouping.records_merge`).  Tidy groupings are known from
their lists (`Grouping.Tidy.ext_records`), so the laws of joining lists become laws of merging: it
is associative, and the empty grouping is neutral on both sides.

Joining lists does not commute, and neither does merging.  The two results have the same contracts,
and the same declarations in another order.  The order cannot matter where at most one of the lists
that are joined has declarations.  So if this is so for every list of every pair in a family, which
is `Grouping.Apart`, the whole family can be merged in any order and two by two in any manner: a
`Grouping.MergePlan` is such a manner.

* `Grouping.Tidy.merge_assoc`, `Grouping.Tidy.empty_merge`, `Grouping.merge_empty`
* `Grouping.perm_records_merge`: the other order gives the same declarations.
* `Grouping.foldl_merge_perm`: groupings that are apart can be merged in any order.
* `Grouping.MergePlan.merged_eq_foldl`: it does not matter what is merged first.
* `Grouping.merge_laws`: all of this, for the groupings that the operations lead to.
-/

namespace SolidityDocs

namespace Grouping

/-! ## Associativity and the neutral grouping -/

theorem Tidy.merge_assoc {a b c : Grouping} (ha : a.Tidy) (hb : b.Tidy) (hc : c.Tidy) :
    (a.merge b).merge c = a.merge (b.merge c) := by
  refine ((ha.merge hb).merge hc).ext_records (ha.merge (hb.merge hc)) fun file name k => ?_
  simp only [records_merge, List.append_assoc]

/-- Merging into the empty grouping needs a tidy one, since an empty file would be lost. -/
theorem Tidy.empty_merge {a : Grouping} (ha : a.Tidy) : empty.merge a = a := by
  refine (tidy_empty.merge ha).ext_records ha fun file name k => ?_
  rw [records_merge, records_empty, List.nil_append]

theorem merge_empty (a : Grouping) : a.merge empty = a := rfl

/-! ## The other order -/

theorem contains_merge (a b : Grouping) (file name : String) :
    (a.merge b).contains file name = (a.contains file name || b.contains file name) := by
  unfold contains
  rw [get?_merge]
  cases b.get? file name with
  | none => rw [Option.isSome_none, Bool.or_false]
  | some d => rw [Option.isSome_some, Option.isSome_some, Bool.or_true]

theorem perm_records_merge (a b : Grouping) (file name : String) (c : Category) :
    ((a.merge b).records file name c).Perm ((b.merge a).records file name c) := by
  rw [records_merge, records_merge]
  exact List.perm_append_comm

/-! ## Families -/

/-- Of each list, at most one of the two groupings has declarations. -/
def Apart (a b : Grouping) : Prop :=
  ∀ file name c, a.records file name c = [] ∨ b.records file name c = []

/-- Lists of which at most one has elements can be joined in any order. -/
theorem flatMap_eq_of_perm {α β : Type} (f : α → List β) {as bs : List α} (h : as.Perm bs)
    (has : as.Pairwise fun a b => f a = [] ∨ f b = []) : as.flatMap f = bs.flatMap f := by
  have hsymm : ∀ {a b : α}, (f a = [] ∨ f b = []) → (f b = [] ∨ f a = []) := Or.symm
  induction h with
  | nil => rfl
  | cons a _ ih =>
    rw [List.flatMap_cons, List.flatMap_cons, ih (List.pairwise_cons.mp has).2]
  | swap a b l =>
    have hab : f b = [] ∨ f a = [] := (List.pairwise_cons.mp has).1 a (List.mem_cons_self ..)
    simp only [List.flatMap_cons]
    rcases hab with hb | ha
    · rw [hb, List.nil_append, List.nil_append]
    · rw [ha, List.nil_append, List.nil_append]
  | trans h₁ _ ih₁ ih₂ =>
    rw [ih₁ has, ih₂ ((h₁.pairwise_iff hsymm).mp has)]

/-- Groupings that are apart have the same lists in any order. -/
theorem flatMap_records_perm {family family' : List Grouping} (h : family.Perm family')
    (hapart : family.Pairwise Apart) (file name : String) (c : Category) :
    (family.flatMap fun g => g.records file name c) =
      family'.flatMap fun g => g.records file name c := by
  have hlists : family.Pairwise fun a b =>
      a.records file name c = [] ∨ b.records file name c = [] :=
    hapart.imp fun hab => hab file name c
  exact flatMap_eq_of_perm _ h hlists

theorem records_foldl_merge (a : Grouping) (family : List Grouping) (file name : String)
    (c : Category) :
    (family.foldl merge a).records file name c =
      a.records file name c ++ family.flatMap fun b => b.records file name c := by
  induction family generalizing a with
  | nil => rw [List.foldl_nil, List.flatMap_nil, List.append_nil]
  | cons b family ih =>
    rw [List.foldl_cons, ih, records_merge, List.flatMap_cons, List.append_assoc]

theorem Tidy.foldl_merge {a : Grouping} (ha : a.Tidy) {family : List Grouping}
    (h : ∀ b ∈ family, b.Tidy) : (family.foldl Grouping.merge a).Tidy :=
  List.foldlRecOn (motive := Tidy) family Grouping.merge ha fun _ hb g hg => hb.merge (h g hg)

/-- **Groupings that are apart can be merged in any order.** -/
theorem foldl_merge_perm {family family' : List Grouping} (htidy : ∀ g ∈ family, g.Tidy)
    (hapart : family.Pairwise Apart) (h : family'.Perm family) :
    family'.foldl merge empty = family.foldl merge empty := by
  have htidy' : ∀ g ∈ family', g.Tidy := fun g hg => htidy g (h.mem_iff.mp hg)
  refine (tidy_empty.foldl_merge htidy').ext_records (tidy_empty.foldl_merge htidy)
    fun file name c => ?_
  rw [records_foldl_merge, records_foldl_merge, flatMap_records_perm h.symm hapart]

/-- A manner of merging groupings two by two: the right result goes into the left one. -/
inductive MergePlan
  | new
  | part (g : Grouping)
  | join (left right : MergePlan)

namespace MergePlan

/-- The groupings that are merged, from left to right. -/
def parts : MergePlan → List Grouping
  | new => []
  | part g => [g]
  | join left right => left.parts ++ right.parts

/-- The result of merging. -/
def merged : MergePlan → Grouping
  | new => .empty
  | part g => g
  | join left right => left.merged.merge right.merged

theorem tidy_merged : ∀ {p : MergePlan}, (∀ g ∈ p.parts, g.Tidy) → p.merged.Tidy
  | new, _ => tidy_empty
  | part g, h => h g (List.mem_singleton.mpr rfl)
  | join _ _, h =>
    Tidy.merge (tidy_merged fun g hg => h g (List.mem_append_left _ hg))
      (tidy_merged fun g hg => h g (List.mem_append_right _ hg))

theorem records_merged (file name : String) (c : Category) : ∀ p : MergePlan,
    p.merged.records file name c = p.parts.flatMap fun g => g.records file name c
  | new => records_empty file name c
  | part g => by rw [merged, parts, List.flatMap_cons, List.flatMap_nil, List.append_nil]
  | join left right => by
    rw [merged, records_merge, records_merged file name c left, records_merged file name c right,
      parts, List.flatMap_append]

/-- **A plan gives what merging its parts one after the other gives.** -/
theorem merged_eq_foldl {p : MergePlan} (hp : ∀ g ∈ p.parts, g.Tidy) :
    p.merged = p.parts.foldl merge .empty := by
  refine (tidy_merged hp).ext_records (tidy_empty.foldl_merge hp) fun file name c => ?_
  rw [records_merged, records_foldl_merge, records_empty, List.nil_append]

end MergePlan

/-! ## The groupings that the operations lead to -/

/-- **The laws of merging.**  It is associative with the empty grouping on either side; the other
order gives the same contracts with the same declarations; and a family of groupings that are apart
can be merged in any order by any plan. -/
theorem merge_laws :
    (∀ a b c : Grouping, a.Reachable → b.Reachable → c.Reachable →
      (a.merge b).merge c = a.merge (b.merge c)) ∧
    (∀ a : Grouping, a.Reachable → empty.merge a = a ∧ a.merge empty = a) ∧
    (∀ a b : Grouping, a.Reachable → b.Reachable →
      (∀ file name, (a.merge b).contains file name = (b.merge a).contains file name) ∧
      ∀ file name c, ((a.merge b).records file name c).Perm ((b.merge a).records file name c)) ∧
    ∀ family : List Grouping, (∀ g ∈ family, g.Reachable) → family.Pairwise Apart →
      (∀ family' : List Grouping, family'.Perm family →
        family'.foldl merge empty = family.foldl merge empty) ∧
      ∀ p : MergePlan, p.parts.Perm family → p.merged = family.foldl merge empty := by
  refine ⟨?_, ?_, ?_, ?_⟩
  · intro a b c ha hb hc
    exact ha.tidy.merge_assoc hb.tidy hc.tidy
  · intro a ha
    exact ⟨ha.tidy.empty_merge, a.merge_empty⟩
  · intro a b _ _
    refine ⟨fun file name => ?_, perm_records_merge a b⟩
    rw [contains_merge, contains_merge, Bool.or_comm]
  · intro family hfamily hapart
    have htidy : ∀ g ∈ family, g.Tidy := fun g hg => (hfamily g hg).tidy
    refine ⟨fun family' h => foldl_merge_perm htidy hapart h, fun p hp => ?_⟩
    rw [MergePlan.merged_eq_foldl fun g hg => htidy g (hp.mem_iff.mp hg)]
    exact foldl_merge_perm htidy hapart hp

/-- The events, the state variables and the struct types of one contract, and the events of another
one, merged from the last to the first and from the right. -/
theorem merge_laws_categories :
    let events : History := .insert .new "a.sol" "A" (.event ⟨"E", "()", 1⟩)
    let amounts : History :=
      .insert (.insert .new "a.sol" "A" (.stateVariable ⟨"v", some false, "uint256", 2, none⟩))
        "a.sol" "A" (.stateVariable ⟨"w", some false, "uint256", 2, none⟩)
    let others : History :=
      .insert (.insert .new "a.sol" "A" (.structType ⟨"S", [⟨"a", "bool"⟩], 3⟩))
        "b.sol" "A" (.event ⟨"E", "()", 1⟩)
    let family := [events.grouping, amounts.grouping, others.grouping]
    let p : MergePlan :=
      .join (.part others.grouping) (.join (.part amounts.grouping) (.part events.grouping))
    family.Pairwise Apart ∧ p.parts.Perm family ∧ p.merged = family.foldl merge empty := by
  intro events amounts others family p
  have hreach : ∀ g ∈ family, g.Reachable := by
    intro g hg
    rcases List.mem_cons.mp hg with rfl | hg
    · exact ⟨events, rfl⟩
    · rcases List.mem_cons.mp hg with rfl | hg
      · exact ⟨amounts, rfl⟩
      · exact ⟨others, (List.mem_singleton.mp hg).symm⟩
  have hempty : ∀ g h : History, (∀ file name c, g.ledger file name c = [] ∨
      h.ledger file name c = []) → g.grouping.Apart h.grouping := by
    intro g h hledger file name c
    rw [g.represents.records, h.represents.records]
    exact hledger file name c
  have happart : family.Pairwise Apart := by
    refine .cons (List.forall_mem_cons.mpr ⟨hempty _ _ fun file name c => ?_,
      List.forall_mem_singleton.mpr (hempty _ _ fun file name c => ?_)⟩)
      (List.pairwise_pair.mpr (hempty _ _ fun file name c => ?_))
    -- two categories differ, or the two files with events do
    all_goals
      by_cases hfile : file = "a.sol" <;> cases c <;>
        simp [events, amounts, others, History.ledger, Ledger.insert, Ledger.empty,
          Declaration.category, hfile]
  have hp : p.parts.Perm family := List.reverse_perm family
  exact ⟨happart, hp, (merge_laws.2.2.2 family hreach happart).2 p hp⟩

end Grouping

end SolidityDocs
