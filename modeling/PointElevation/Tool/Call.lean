import PointElevation.Tool.Discovery
import PointElevation.Tool.Elevation

/-!
# Calls of tools

A call names a tool and gives its arguments.  `Call.ofFields?` reads the arguments from the members
of an object, and `Call.run` gives the answer.
-/

namespace PointElevation.Tool

open PointElevation.Response

/-- A tool with its arguments; every tool has an output mode. -/
inductive Call where
  | elevation (latitude longitude : Float) (mode : String)
  | elevations (points : List (List Float)) (mode : String)
  | status (mode : String)
  | describe (mode : String)

namespace Call

/-- The answer to a call. -/
def run {m : Type → Type} [Monad m] (source : HeightSource m) : Call → m String
  | .elevation latitude longitude mode => Tool.elevation source latitude longitude mode
  | .elevations list mode => Tool.elevations source list mode
  | .status mode => Tool.status source mode
  | .describe mode => Tool.describe source mode

/-- The output mode that a call asks for. -/
def modeOf (fields : Fields) : Checked String :=
  defaulted fields "output_mode" Response.defaultMode readString

/-- The call of a tool with arguments; there may be no tool of the name. -/
def ofFields? (name : String) (fields : Fields) : Option (Checked Call) :=
  if name = elevationName then
    some (Call.elevation
      <$> required fields "lat" readFloat
      <*> required fields "lon" readFloat
      <*> modeOf fields)
  else if name = elevationsName then
    some (Call.elevations <$> required fields "points" (readList (readList readFloat))
      <*> modeOf fields)
  else if name = statusName then some (Call.status <$> modeOf fields)
  else if name = describeName then some (Call.describe <$> modeOf fields)
  else none

/-- The names of the tools, in ascending order. -/
def toolNames : List String := [describeName, elevationName, elevationsName, statusName]

end Call

end PointElevation.Tool
