import SolidityDocs.Ast.Keyword
import SolidityDocs.Text.Quoted

/-!
# Events

Building a document leaves things out: sources without text, definitions that a later one replaces,
guards without a message.  Each such loss, and each step, is reported by an `Event`.  A computation
that reports events is a `Logged` value: its result together with its events in order.
-/

namespace SolidityDocs

/-- How important an event is: a detail of one statement, a step of the work, the result, or
something that was left out or replaced. -/
inductive Level
  | trace
  | debug
  | info
  | warn
  deriving DecidableEq, Repr

/-- The word for a level. -/
def Level.label : Level → String
  | trace => "TRACE"
  | debug => "DEBUG"
  | info => "INFO"
  | warn => "WARN"

/-- What happens while a document is built.  Sources may lack a text or a syntax tree, or occur in
the compiler's output only.  A definition may replace an earlier one of its name, and a guard may
have no message that could be shown.  The other events report what has been done. -/
inductive Event
  | noText (path : String)
  | noAst (path : String)
  | outputOnly (path : String)
  | duplicate (file name : String) (kind : Kind)
  | collected (kind : Kind) (count : Nat)
  | guardDropped (src : Option String)
  | aggregated (kind : Kind) (contracts : Nat)
  | extracted (kind : Kind) (documented collected : Nat)
  | importsResolved (path : String) (count : Nat)
  | built (files contracts interfaces libraries : Nat)
  deriving DecidableEq, Repr

namespace Event

/-- The level of an event. -/
def level : Event → Level
  | noText _ | noAst _ | duplicate _ _ _ => .warn
  | outputOnly _ | collected _ _ | aggregated _ _ | extracted _ _ _ | importsResolved _ _ => .debug
  | guardDropped _ => .trace
  | built _ _ _ _ => .info

/-- A named value of an event. -/
def detail (key value : String) : String := " " ++ key ++ "=" ++ value

/-- A place in a source, as an event shows it. -/
def place : Option String → String
  | none => "None"
  | some src => "Some(" ++ Text.quoted .double src ++ ")"

/-- The wording of an event with its values. -/
def message : Event → String
  | noText path =>
    "compiler input carries no text for source, lines resolve to 1" ++ detail "path" path
  | noAst path => "compiler output has no AST for source" ++ detail "path" path
  | outputOnly path =>
    "skipping source listed only in the compiler output" ++ detail "path" path
  | duplicate file name kind =>
    "duplicate declaration, the later one wins" ++ detail "file" file ++
      detail "name" name ++ detail "kind" kind.name
  | collected kind count =>
    "collected contract-like declarations" ++ detail "kind" kind.name ++
      detail "count" (toString count)
  | guardDropped src =>
    "dropping require site without a recoverable message" ++ detail "src" (place src)
  | aggregated kind contracts =>
    "aggregated declarations" ++ detail "kind" kind.name ++
      detail "contracts" (toString contracts)
  | extracted kind documented total =>
    "extracted kind" ++ detail "kind" kind.name ++
      detail "documented" (toString documented) ++ detail "collected" (toString total)
  | importsResolved path count =>
    "resolved imports" ++ detail "path" path ++ detail "count" (toString count)
  | built files contracts interfaces libraries =>
    "built documentation model" ++ detail "files" (toString files) ++
      detail "contracts" (toString contracts) ++ detail "interfaces" (toString interfaces) ++
      detail "libraries" (toString libraries)

/-- An event as one line. -/
def line (e : Event) : String := e.level.label ++ " " ++ e.message

end Event

/-- A result with the events that led to it, in order. -/
structure Logged (α : Type) where
  value : α
  events : List Event

namespace Logged

variable {α β : Type}

/-- A result without events. -/
protected def pure (a : α) : Logged α := ⟨a, []⟩

/-- One computation after the other. -/
protected def bind (x : Logged α) (f : α → Logged β) : Logged β :=
  let y := f x.value
  ⟨y.value, x.events ++ y.events⟩

instance : Monad Logged where
  pure := Logged.pure
  bind := Logged.bind

/-- A single event. -/
def emit (e : Event) : Logged Unit := ⟨(), [e]⟩

/-- A single event, if there is reason for it. -/
def emitIf (b : Bool) (e : Event) : Logged Unit := ⟨(), if b then [e] else []⟩

@[simp] theorem value_pure (a : α) : (pure a : Logged α).value = a := rfl

@[simp] theorem events_pure (a : α) : (pure a : Logged α).events = [] := rfl

@[simp] theorem value_bind (x : Logged α) (f : α → Logged β) :
    (x >>= f).value = (f x.value).value := rfl

@[simp] theorem events_bind (x : Logged α) (f : α → Logged β) :
    (x >>= f).events = x.events ++ (f x.value).events := rfl

@[simp] theorem value_emit (e : Event) : (emit e).value = () := rfl

@[simp] theorem events_emit (e : Event) : (emit e).events = [e] := rfl

/-- Goes through a list with a result that each element changes. -/
def fold (f : β → α → Logged β) (b : β) : List α → Logged β
  | [] => pure b
  | a :: as => f b a >>= fun b' => fold f b' as

@[simp] theorem value_fold (f : β → α → Logged β) (b : β) (as : List α) :
    (fold f b as).value = as.foldl (fun b a => (f b a).value) b := by
  induction as generalizing b with
  | nil => rfl
  | cons a as ih => exact ih _

/-- The computations of a list in order, with their results. -/
def each (f : α → Logged β) : List α → Logged (List β)
  | [] => pure []
  | a :: as => f a >>= fun b => each f as >>= fun bs => pure (b :: bs)

@[simp] theorem value_each (f : α → Logged β) (as : List α) :
    (each f as).value = as.map fun a => (f a).value := by
  induction as with
  | nil => rfl
  | cons a as ih => rw [each, value_bind, value_bind, ih]; rfl

@[simp] theorem events_each (f : α → Logged β) (as : List α) :
    (each f as).events = as.flatMap fun a => (f a).events := by
  induction as with
  | nil => rfl
  | cons a as ih => rw [each, events_bind, events_bind, ih, events_pure, List.append_nil]; rfl

end Logged

end SolidityDocs
