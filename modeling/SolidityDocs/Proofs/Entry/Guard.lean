import SolidityDocs.Entry.Guard
import SolidityDocs.Proofs.Text.Lower

/-!
# Which guards a body has

The guards of a body are found by a chain of partial steps: a statement may hold an expression, the
expression may call something, what is called may have a name, the name may have `require` in it,
and a call to `require` itself may have a last argument whose type is known.  `GuardSite` says
directly when a statement is the site of a guard, and which guard that is.  It has one rule for
`require` and one for all other names.

Three functions on texts take part, and each is put in terms of the text.

* The word `require` is looked for in a name in lower case.  This comes down to the case of ASCII
  letters (`isGuardName_iff`), whatever other characters there are and whichever lower-case forms
  they have, because `require` has no `k` and does not end in `i`.
* A message is put together again from the words of a type, without the first one.  That is the
  same as cutting the type after the first blank (`literalMessage_eq`), so the message follows where
  the type has to be split so that there is no blank in front (`literalMessage_eq_iff`).
* The quotes are removed wherever they are, and nothing else is.

The main statement is `guards_eq_filterMap_guard?`.

A call can also stand in a body by itself, without a statement around it.  Then it is what it calls
that is looked at, one step further down than in a statement, and a guard is missed as a rule
(`guards_call_ne`).  `guards_call_eq_iff` says when the two forms of a call count the same.
-/

namespace SolidityDocs

open Ast (Expression Statement Block)

/-! ## The description -/

/-- The call in a statement that may be to a guard.  An expression statement wraps it, and a bare
call has it as its own expression. -/
inductive Ast.Statement.Calls : Statement → Expression → Prop
  | wrapped {s call} (h : s.expression = some call) : Calls (.expression s) call
  | bare {e call} (h : e.expression = some call) : Calls (.call e) call

/-- Some part of a name is the word `require`, up to the case of ASCII letters. -/
def HasGuardWord (name : String) : Prop :=
  ∃ w, w <:+: name.toList ∧ w.map Char.toLower = "require".toList

/-- A text without its quotes. -/
def withoutQuotes (text : String) : String := String.ofList (text.toList.filter (· ≠ '"'))

/-- The type of an argument and the message in it: what follows the first blank, without quotes, and
nothing if there is no blank. -/
inductive MessageIn : String → String → Prop
  | afterBlank {kind} (rest) (h : ' ' ∉ kind.toList) :
    MessageIn (kind ++ " " ++ rest) (withoutQuotes rest)
  | noBlank {type} (h : ' ' ∉ type.toList) : MessageIn type ""

/-- A statement that is the site of a guard.  A guard is shown by its name, but `require` is shown
with the message in the type of its last argument. -/
inductive GuardSite (lines : LineTable) : Statement → Guard → Prop
  | named {s call callee name} (hs : s.Calls call) (hcallee : call.expression = some callee)
    (hname : callee.name = some name) (hword : HasGuardWord name) (hne : name ≠ "require") :
    GuardSite lines s ⟨lines.lineOf call.src, name⟩
  | require {s call callee types last type message} (hs : s.Calls call)
    (hcallee : call.expression = some callee) (hname : callee.name = some "require")
    (htypes : callee.argumentTypes = some (types ++ [last])) (htype : last.typeString = some type)
    (hmessage : MessageIn type message) :
    GuardSite lines s ⟨lines.lineOf call.src, "require(..., " ++ message ++ ")"⟩

/-- The guard of a statement. -/
def Ast.Statement.guard? (lines : LineTable) (s : Statement) : Option Guard :=
  s.candidate?.bind fun call => (guardAt lines call).value

theorem Ast.Statement.calls_iff {s : Statement} {call : Expression} :
    s.Calls call ↔ s.candidate? = some call := by
  constructor
  · rintro (h | h) <;> exact h
  · intro h
    cases s with
    | expression s => exact .wrapped h
    | call e => exact .bare h
    | emit s => cases h
    | other => cases h

/-! ## Names -/

theorem unambiguous_guardWord : Text.Unambiguous guardWord.toList := by
  have hword : guardWord.toList = ['r', 'e', 'q', 'u', 'i', 'r', 'e'] := rfl
  rw [hword]
  exact ⟨by simp, by decide, by decide⟩

/-- Every lower-case form of a name tells whether it has the word. -/
theorem infix_lowerForm_iff {name : String} {low : List Char}
    (h : Text.LowerForm name.toList low) : guardWord.toList <:+: low ↔ HasGuardWord name :=
  h.infix_iff unambiguous_guardWord (by decide)

/-- **A name is a guard's exactly if it has the word.** -/
theorem isGuardName_iff {name : String} : isGuardName name = true ↔ HasGuardWord name := by
  rw [isGuardName, Text.occursIn_iff]
  exact infix_lowerForm_iff (Text.lowerForm_lower _)

theorem hasGuardWord_guardWord : HasGuardWord "require" :=
  ⟨"require".toList, List.infix_refl _, by decide⟩

/-! ## Messages -/

/-- The words after the first one, put together again, are what follows the first blank. -/
theorem intercalate_tail_splitOn (c : Char) (cs : List Char) :
    [c].intercalate ((cs.splitOn c).drop 1) = (cs.dropWhile fun x => x ≠ c).drop 1 := by
  induction cs with
  | nil => rfl
  | cons x cs ih =>
    unfold List.splitOn at ih ⊢
    rw [List.splitOnP_cons_eq_if_modifyHead]
    by_cases hx : x = c
    · rw [if_pos (beq_iff_eq.mpr hx), List.dropWhile_cons_of_neg (by simp [hx])]
      exact List.intercalate_splitOn c
    · -- the word goes on, and the words after it stay
      rw [if_neg (beq_iff_eq.not.mpr hx), List.dropWhile_cons_of_pos (by simpa using hx), ← ih,
        List.drop_one, List.drop_one, List.tail_modifyHead]

/-- The message is what follows the first blank, without quotes. -/
theorem literalMessage_eq (type : String) :
    literalMessage type = String.ofList
      (((type.toList.dropWhile fun c => c ≠ ' ').drop 1).filter fun c => c ≠ '"') := by
  unfold literalMessage
  simp only [intercalate_tail_splitOn, Text.replaceChar_nil]

theorem literalMessage_of_noBlank {type : String} (h : ' ' ∉ type.toList) :
    literalMessage type = "" := by
  have hdrop : type.toList.dropWhile (· ≠ ' ') = [] := by
    rw [List.dropWhile_eq_nil_iff]
    intro c hc
    exact decide_eq_true fun hblank => h (hblank ▸ hc)
  rw [literalMessage_eq, hdrop]
  rfl

theorem literalMessage_append {kind : String} (h : ' ' ∉ kind.toList) (rest : String) :
    literalMessage (kind ++ " " ++ rest) = withoutQuotes rest := by
  have hdrop : (kind ++ " " ++ rest).toList.dropWhile (· ≠ ' ') = ' ' :: rest.toList := by
    rw [String.toList_append, String.toList_append, List.append_assoc,
      List.dropWhile_append_of_pos]
    · rfl
    · intro c hc
      exact decide_eq_true fun hblank => h (hblank ▸ hc)
  rw [literalMessage_eq, hdrop]
  rfl

/-- **The message of a type.** -/
theorem literalMessage_eq_iff {type message : String} :
    literalMessage type = message ↔ MessageIn type message := by
  constructor
  · rintro rfl
    by_cases hblank : ' ' ∈ type.toList
    · obtain ⟨kind, rest, htype, hkind⟩ := List.eq_append_cons_of_mem hblank
      have hsplit : type = String.ofList kind ++ " " ++ String.ofList rest := by
        apply String.toList_injective
        simp [htype]
      rw [hsplit, literalMessage_append (by simpa using hkind)]
      exact .afterBlank _ (by simpa using hkind)
    · rw [literalMessage_of_noBlank hblank]
      exact .noBlank hblank
  · rintro (⟨rest, hkind⟩ | hblank)
    · exact literalMessage_append hkind rest
    · exact literalMessage_of_noBlank hblank

/-- A message in quotes, after a word for the kind of the type. -/
theorem literalMessage_quoted {kind : String} (h : ' ' ∉ kind.toList) (message : String) :
    literalMessage (kind ++ " \"" ++ message ++ "\"") = withoutQuotes message := by
  have hsplit : kind ++ " \"" ++ message ++ "\"" = kind ++ " " ++ ("\"" ++ message ++ "\"") := by
    apply String.toList_injective
    simp
  rw [hsplit, literalMessage_append h]
  unfold withoutQuotes
  congr 1
  simp

/-! ## Sites -/

theorem lastArgumentType?_eq_some_iff {callee : Expression} {type : String} :
    callee.lastArgumentType? = some type ↔
      ∃ types last, callee.argumentTypes = some (types ++ [last]) ∧
        last.typeString = some type := by
  unfold Expression.lastArgumentType?
  simp only [Option.bind_eq_some_iff, List.getLast?_eq_some_iff]
  constructor
  · rintro ⟨last, ⟨all, hall, types, rfl⟩, htype⟩
    exact ⟨types, last, hall, htype⟩
  · rintro ⟨types, last, hall, htype⟩
    exact ⟨last, ⟨_, hall, types, rfl⟩, htype⟩

theorem guardOf?_require {lines : LineTable} {call callee : Expression}
    (hcallee : call.expression = some callee) :
    guardOf? lines call "require" = callee.lastArgumentType?.map fun type =>
      ⟨lines.lineOf call.src, "require(..., " ++ literalMessage type ++ ")"⟩ := by
  rw [guardOf?, hcallee]
  exact if_pos rfl

theorem guardOf?_of_ne {lines : LineTable} {call : Expression} {name : String}
    (hne : name ≠ "require") : guardOf? lines call name = some ⟨lines.lineOf call.src, name⟩ :=
  if_neg hne

theorem value_guardAt {lines : LineTable} {call callee : Expression} {name : String}
    (hcallee : call.expression = some callee) (hname : callee.name = some name) :
    (guardAt lines call).value = if isGuardName name then guardOf? lines call name else none := by
  have hcalled : calleeName? call = some name := by
    rw [calleeName?, hcallee]
    exact hname
  unfold guardAt
  rw [hcalled]
  by_cases hguard : isGuardName name = true
  · cases hshown : guardOf? lines call name <;> simp [hguard, hshown]
  · simp [hguard]

namespace Ast.Statement

variable {lines : LineTable} {s : Statement}

/-- A statement without a candidate, a callee or a name has no guard. -/
theorem exists_of_guard?_eq_some {g : Guard} (h : s.guard? lines = some g) :
    ∃ call callee name, s.Calls call ∧ call.expression = some callee ∧ callee.name = some name := by
  obtain ⟨call, hcall, hg⟩ := Option.bind_eq_some_iff.mp h
  cases hcallee : call.expression with
  | none => simp [guardAt, calleeName?, hcallee] at hg
  | some callee =>
    cases hname : callee.name with
    | none => simp [guardAt, calleeName?, hcallee, hname] at hg
    | some name => exact ⟨call, callee, name, calls_iff.mpr hcall, hcallee, hname⟩

theorem guard?_eq {call callee : Expression} {name : String} (hs : s.Calls call)
    (hcallee : call.expression = some callee) (hname : callee.name = some name) :
    s.guard? lines = if isGuardName name then guardOf? lines call name else none := by
  rw [guard?, calls_iff.mp hs]
  exact value_guardAt hcallee hname

/-- A guard other than `require`. -/
theorem guard?_of_ne {call callee : Expression} {name : String} (hs : s.Calls call)
    (hcallee : call.expression = some callee) (hname : callee.name = some name)
    (hword : HasGuardWord name) (hne : name ≠ "require") :
    s.guard? lines = some ⟨lines.lineOf call.src, name⟩ := by
  rw [guard?_eq hs hcallee hname, if_pos (isGuardName_iff.mpr hword), guardOf?_of_ne hne]

/-- The guard `require`. -/
theorem guard?_require {call callee : Expression} (hs : s.Calls call)
    (hcallee : call.expression = some callee) (hname : callee.name = some "require") :
    s.guard? lines = callee.lastArgumentType?.map fun type =>
      ⟨lines.lineOf call.src, "require(..., " ++ literalMessage type ++ ")"⟩ := by
  rw [guard?_eq hs hcallee hname, if_pos (isGuardName_iff.mpr hasGuardWord_guardWord),
    guardOf?_require hcallee]

/-- **A statement has the guard of which it is the site.** -/
theorem guard?_eq_some_iff {g : Guard} : s.guard? lines = some g ↔ GuardSite lines s g := by
  constructor
  · intro h
    obtain ⟨call, callee, name, hs, hcallee, hname⟩ := exists_of_guard?_eq_some h
    by_cases hrequire : name = "require"
    · subst hrequire
      rw [guard?_require hs hcallee hname] at h
      obtain ⟨type, htype, rfl⟩ := Option.map_eq_some_iff.mp h
      obtain ⟨types, last, htypes, htype⟩ := lastArgumentType?_eq_some_iff.mp htype
      exact .require hs hcallee hname htypes htype (literalMessage_eq_iff.mp rfl)
    · by_cases hword : HasGuardWord name
      · rw [guard?_of_ne hs hcallee hname hword hrequire] at h
        obtain rfl := Option.some.inj h
        exact .named hs hcallee hname hword hrequire
      · rw [guard?_eq hs hcallee hname, if_neg (isGuardName_iff.not.mpr hword)] at h
        cases h
  · intro h
    cases h with
    | named hs hcallee hname hword hne => exact guard?_of_ne hs hcallee hname hword hne
    | require hs hcallee hname htypes htype hmessage =>
      rw [guard?_require hs hcallee hname,
        lastArgumentType?_eq_some_iff.mpr ⟨_, _, htypes, htype⟩,
        ← literalMessage_eq_iff.mpr hmessage]
      rfl

/-- The guard `require` is left out exactly if the type of its last argument is not known. -/
theorem guard?_require_eq_none_iff {call callee : Expression} (hs : s.Calls call)
    (hcallee : call.expression = some callee) (hname : callee.name = some "require") :
    s.guard? lines = none ↔ callee.argumentTypes = none ∨ callee.argumentTypes = some [] ∨
      ∃ types last, callee.argumentTypes = some (types ++ [last]) ∧ last.typeString = none := by
  rw [guard?_require hs hcallee hname, Option.map_eq_none_iff, Expression.lastArgumentType?]
  cases hargs : callee.argumentTypes with
  | none => simp
  | some args =>
    rcases List.eq_nil_or_concat args with rfl | ⟨types, last, rfl⟩
    · simp
    · simp

end Ast.Statement

theorem value_guards (lines : LineTable) (body : Block) :
    (guards lines body).value = body.statements.filterMap (Statement.guard? lines) := by
  have hvalue : (guards lines body).value =
      ((body.statements.filterMap Statement.candidate?).map fun call =>
        (guardAt lines call).value).filterMap id := by
    rw [← Logged.value_each]
    rfl
  rw [hvalue, List.filterMap_map, List.filterMap_filterMap]
  rfl

/-- **The guards of a body are those of which its statements are the sites, in order.**  A call to
`require` is left out exactly if the type of its last argument is not known.  Names are told apart
by any lower-case form, and a message in quotes is shown without quotes, but otherwise as it is. -/
theorem guards_eq_filterMap_guard? (lines : LineTable) (body : Block) :
    (guards lines body).value = body.statements.filterMap (Statement.guard? lines) ∧
    (∀ s g, s.guard? lines = some g ↔ GuardSite lines s g) ∧
    (∀ (s : Statement) (call callee : Expression), s.Calls call → call.expression = some callee →
      callee.name = some "require" →
      (s.guard? lines = none ↔ callee.argumentTypes = none ∨ callee.argumentTypes = some [] ∨
        ∃ types last, callee.argumentTypes = some (types ++ [last]) ∧
          last.typeString = none)) ∧
    (∀ (name : String) low, Text.LowerForm name.toList low →
      (isGuardName name = true ↔ "require".toList <:+: low)) ∧
    ∀ kind message : String, ' ' ∉ kind.toList →
      literalMessage (kind ++ " \"" ++ message ++ "\"") = withoutQuotes message := by
  refine ⟨value_guards lines body, fun s g => Statement.guard?_eq_some_iff,
    fun s call callee => Statement.guard?_require_eq_none_iff, fun name low hlow => ?_,
    fun kind message hkind => literalMessage_quoted hkind message⟩
  rw [isGuardName_iff]
  exact (infix_lowerForm_iff hlow).symm

/-- A message with blanks and quotes in it, a guard with a Greek letter in its name, a name with a
dotted capital I, and a `require` without arguments. -/
theorem guards_eq_filterMap_guard?_sigma :
    let call : String → Option (List Ast.TypeDescriptions) → Expression := fun name types =>
      { expression := some { name := some name, argumentTypes := types } }
    let type := "literal_string" ++ " \"" ++ "not  the \"owner\"" ++ "\""
    let dropped : Statement := .call { expression := some (call "require" (some [])) }
    let body : Block := { statements :=
      [.expression { expression := some (call "require" (some [{}, { typeString := some type }])) },
        .other, .call { expression := some (call "ΣReQUIRE" none) },
        .expression { expression := some (call "requ\u0130re" none) }, dropped] }
    (guards (.ofText "") body).value = [⟨0, "require(..., not  the owner)"⟩, ⟨0, "ΣReQUIRE"⟩] ∧
      literalMessage type = "not  the owner" ∧ dropped.guard? (.ofText "") = none ∧
      "require".toList <:+: "σrequire".toList := by
  intro call type dropped body
  obtain ⟨hvalue, -, hdropped, hlower, hmessage⟩ :=
    guards_eq_filterMap_guard? (.ofText "") body
  have hlow : Text.LowerForm "ΣReQUIRE".toList "σrequire".toList :=
    .char (by decide) (by decide) (by decide) (by decide) (Text.lowerForm_lower "ReQUIRE".toList)
  refine ⟨?_, ?_, ?_, ?_⟩
  · rw [hvalue]
    decide
  · exact (hmessage _ _ (by decide)).trans (by decide)
  · exact (hdropped dropped _ _ (.bare rfl) rfl rfl).mpr (.inr (.inl rfl))
  · exact (hlower _ _ hlow).mp (by decide)

/-! ## Bare calls -/

section BareCall

variable {lines : LineTable} {c : Expression} (before after : List Statement)
  (blockSrc : Option String)

/-- One statement in a body adds its guard between those of the others. -/
theorem value_guards_append_cons (s : Statement) :
    (guards lines ⟨before ++ s :: after, blockSrc⟩).value =
      before.filterMap (Statement.guard? lines) ++
        ((s.guard? lines).toList ++ after.filterMap (Statement.guard? lines)) := by
  rw [value_guards, List.filterMap_append, List.filterMap_cons]
  cases s.guard? lines <;> rfl

/-- Statements can take each other's place exactly if they have the same guard. -/
theorem value_guards_append_cons_eq_iff (s s' : Statement) :
    (guards lines ⟨before ++ s :: after, blockSrc⟩).value =
        (guards lines ⟨before ++ s' :: after, blockSrc⟩).value ↔
      s.guard? lines = s'.guard? lines := by
  rw [value_guards_append_cons, value_guards_append_cons, List.append_cancel_left_eq,
    List.append_cancel_right_eq]
  cases s.guard? lines <;> cases s'.guard? lines <;> simp

/-- A bare call has the guard of what it calls. -/
theorem Ast.Statement.guard?_call (lines : LineTable) (c : Expression) (src : Option String) :
    Statement.guard? lines (.call c) = Statement.guard? lines (.expression ⟨c.expression, src⟩) :=
  rfl

/-- A bare call of something that is no call has no guard. -/
theorem Ast.Statement.guard?_call_eq_none (h : c.expression.bind Expression.expression = none) :
    Statement.guard? lines (.call c) = none := by
  cases hguard : Statement.guard? lines (.call c) with
  | none => rfl
  | some g =>
    obtain ⟨call, callee, name, hs, hcallee, -⟩ := exists_of_guard?_eq_some hguard
    rw [show c.expression = some call from calls_iff.mp hs, Option.bind_some, hcallee] at h
    cases h

/-- Two statements have the same guard exactly if neither has one or some guard is that of both. -/
theorem Ast.Statement.guard?_eq_iff (s s' : Statement) :
    s.guard? lines = s'.guard? lines ↔
      (∀ g, ¬GuardSite lines s g ∧ ¬GuardSite lines s' g) ∨
        ∃ g, GuardSite lines s g ∧ GuardSite lines s' g := by
  simp only [← guard?_eq_some_iff]
  constructor
  · intro h
    cases hguard : s'.guard? lines with
    | none => exact .inl fun g => by simp [h, hguard]
    | some g => exact .inr ⟨g, h.trans hguard, rfl⟩
  · rintro (hnone | ⟨g, hs, hs'⟩)
    · rw [Option.eq_none_iff_forall_ne_some.mpr fun g => (hnone g).1,
        Option.eq_none_iff_forall_ne_some.mpr fun g => (hnone g).2]
    · rw [hs, hs']

/-- **When a call counts the same with and without a statement around it.**  A bare call counts as a
statement around what it calls.  So it has the guards of the call itself only if neither of the two
calls a guard, or if both have the same guard.  If what it calls is a name and not a call, then a
bare call never adds a guard. -/
theorem guards_call_eq_iff (lines : LineTable) (c : Expression) (before after : List Statement)
    (src blockSrc : Option String) :
    (guards lines ⟨before ++ .call c :: after, blockSrc⟩).value =
      (guards lines ⟨before ++ .expression ⟨c.expression, src⟩ :: after, blockSrc⟩).value ∧
    ((guards lines ⟨before ++ .expression ⟨some c, src⟩ :: after, blockSrc⟩).value =
        (guards lines ⟨before ++ .call c :: after, blockSrc⟩).value ↔
      (∀ g, ¬GuardSite lines (.expression ⟨some c, src⟩) g ∧ ¬GuardSite lines (.call c) g) ∨
        ∃ g, GuardSite lines (.expression ⟨some c, src⟩) g ∧ GuardSite lines (.call c) g) ∧
    (c.expression.bind Expression.expression = none →
      (guards lines ⟨before ++ .call c :: after, blockSrc⟩).value =
        (guards lines ⟨before ++ after, blockSrc⟩).value ∧
      ((guards lines ⟨before ++ .expression ⟨some c, src⟩ :: after, blockSrc⟩).value =
          (guards lines ⟨before ++ .call c :: after, blockSrc⟩).value ↔
        ∀ g, ¬GuardSite lines (.expression ⟨some c, src⟩) g)) := by
  refine ⟨?_, ?_, fun hname => ⟨?_, ?_⟩⟩
  · rw [value_guards_append_cons_eq_iff]
    exact Statement.guard?_call lines c src
  · rw [value_guards_append_cons_eq_iff]
    exact Statement.guard?_eq_iff _ _
  · rw [value_guards_append_cons, Statement.guard?_call_eq_none hname, value_guards,
      List.filterMap_append]
    rfl
  · rw [value_guards_append_cons_eq_iff, Statement.guard?_call_eq_none hname,
      Option.eq_none_iff_forall_ne_some]
    exact forall_congr' fun g => not_congr Statement.guard?_eq_some_iff

/-- A call to a guard on the third line is found in a statement around it, but not by itself. -/
theorem guards_call_ne :
    let call : Expression :=
      { expression := some { name := some "requireOwner" }, src := some "3:14:0" }
    let lines := LineTable.ofText "a\n\nrequireOwner();\n"
    (guards lines { statements := [.expression { expression := some call }] }).value =
      [⟨3, "requireOwner"⟩] ∧
    (guards lines { statements := [.call call] }).value = [] := by
  decide +kernel

end BareCall

end SolidityDocs
