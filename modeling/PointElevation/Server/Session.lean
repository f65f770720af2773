import PointElevation.Json.Reader
import PointElevation.Json.Writer
import PointElevation.Tool.Call

/-!
# Answering calls on a stream

On standard streams the server answers one call a line: an object with the name of a tool and its
arguments.  The answer is an object with the text of the tool, or with what is wrong with the call.
-/

namespace PointElevation.Server

open PointElevation.Response
open PointElevation.Tool (Call HeightSource)

/-- The members of an object; other values have none. -/
def fieldsOf : Option Json → Fields
  | some (.object fields) => fields
  | _ => []

/-- The answer to a call that cannot be made. -/
def refusal (reason : String) : Json := .object [("error", .string reason)]

/-- What is wrong with the arguments of a call. -/
def argumentsRefusal (violations : List Violation) : Json :=
  refusal (violationsText "arguments" violations)

/-- The call that a line holds. -/
def readCall (line : String) : Except Json Call :=
  match Json.parse? line with
  | none => .error (refusal "not a JSON value")
  | some j =>
      match j.member? "name" with
      | some (.string name) =>
          match Call.ofFields? name (fieldsOf (j.member? "arguments")) with
          | some (.valid call) => .ok call
          | some (.invalid violations) => .error (argumentsRefusal violations)
          | none => .error (refusal ("no tool " ++ Text.quoted name))
      | _ => .error (refusal "no name of a tool")

/-- The answer to a line. -/
def answerLine (line : String) : StateM Service String := do
  match readCall line with
  | .error refused => pure refused.render
  | .ok call =>
      let text ← call.run HeightSource.ofService
      pure (Json.object [("result", .string text)]).render

end PointElevation.Server
