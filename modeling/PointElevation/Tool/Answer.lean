import PointElevation.Tool.Source

/-!
# Answering with a response

Every tool answers with the text of a response, and whatever goes wrong on the way there, whether
in a question to the source, in building the response or in writing it, becomes an error response
in the same mode and a message in the log.  So a tool always answers.
-/

namespace PointElevation

open PointElevation.Response

namespace Tool

variable {m : Type → Type} [Monad m]

/-- A way to a response that may fail with a text. -/
abbrev Attempt (m : Type → Type) := ExceptT String m

/-- Asks the source. -/
def ask (question : m (Except String α)) : Attempt m α := ExceptT.mk question

/-- A response that is built from fields. -/
def build (kind : String) (checked : Checked α) : Attempt m α :=
  match checked with
  | .valid a => pure a
  | .invalid violations => throw (violationsText kind violations)

/-- The text of an error response. -/
def errorText (text mode : String) : String :=
  let r : ErrorResponse := ⟨text⟩
  if mode = textMode then r.toText else r.toJson.render

/-- Writes the response of a tool. -/
def write (mode : String) (attempt : Attempt m Response) : Attempt m String := do
  let r ← attempt
  match r.format mode with
  | .ok text => pure text
  | .error fault => throw fault.message

/-- The answer of a tool. -/
def answer (source : HeightSource m) (name mode : String) (attempt : Attempt m Response) :
    m String := do
  match ← (write mode attempt).run with
  | .ok text => pure text
  | .error text => do
      source.report (name ++ " failed: " ++ text)
      pure (errorText text mode)

end Tool

end PointElevation
