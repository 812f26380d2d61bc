import SolidityDocs.Ast.Basic
import SolidityDocs.Entry.Basic
import SolidityDocs.Line.Table
import SolidityDocs.Log
import SolidityDocs.Text.Basic
import SolidityDocs.Text.Lower

/-!
# Guards of a function body

A guard is a call at the top level of a body whose callee has `require` in its name, in any case of
letters.  The guard `require` itself is shown with its message, which the compiler gives as part of
the type of the last argument: `literal_string "message"`.  Any other guard is shown by its name.  A
`require` without such a type is dropped, with an event.
-/

namespace SolidityDocs

open Ast (Expression Block)

/-- The word that makes a name a guard's. -/
def guardWord : String := "require"

/-- The name of the callee of a call. -/
def calleeName? (call : Expression) : Option String := call.expression.bind Expression.name

/-- Whether a name is a guard's. -/
def isGuardName (name : String) : Bool :=
  Text.occursIn guardWord.toList (Text.lower name.toList)

/-- The message in a type such as `literal_string "message"`: all words but the first, with single
blanks between them as before, and without quotes. -/
def literalMessage (type : String) : String :=
  let words := type.toList.splitOn ' '
  let literal := [' '].intercalate (words.drop 1)
  String.ofList (Text.replaceChar '"' [] literal)

/-- The guard of a call with the given callee name. -/
def guardOf? (lines : LineTable) (call : Expression) (name : String) : Option Guard :=
  if name = guardWord then
    (call.expression.bind Expression.lastArgumentType?).map fun type =>
      ⟨lines.lineOf call.src, "require(..., " ++ literalMessage type ++ ")"⟩
  else some ⟨lines.lineOf call.src, name⟩

/-- The guard of an expression, if it calls one; a guard that cannot be shown is reported. -/
def guardAt (lines : LineTable) (call : Expression) : Logged (Option Guard) :=
  match calleeName? call with
  | none => pure none
  | some name =>
    if isGuardName name then
      match guardOf? lines call name with
      | some g => pure (some g)
      | none => do
        Logged.emit (.guardDropped call.src)
        return none
    else pure none

/-- The guards at the top level of a body, in order. -/
def guards (lines : LineTable) (body : Block) : Logged (List Guard) := do
  let found ← Logged.each (guardAt lines) (body.statements.filterMap Ast.Statement.candidate?)
  return found.filterMap id

/-- The names of the events that the top level of a body emits, in order. -/
def emittedEvents (body : Block) : List String :=
  body.statements.filterMap fun
    | .emit s => s.eventName?
    | _ => none

end SolidityDocs
