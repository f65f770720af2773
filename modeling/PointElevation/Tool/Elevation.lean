import PointElevation.Tool.Answer

/-!
# Tools for heights

One tool for a point and one for a list of points.  A list has between one and a thousand points;
its answers are paired with the points up to the shorter of the two lists.
-/

namespace PointElevation

open PointElevation.Response

namespace Tool

variable {m : Type → Type} [Monad m]

/-- What is said about the height at a point. -/
def pointMessage (a : PointAnswer) : String :=
  if a.status = Status.ok.text then "Elevation at point: " ++ heightText a.elevation
  else "No elevation available (" ++ a.status ++ ")"

/-- The name of the tool for one point. -/
def elevationName : String := "swissalti3d_elevation"

/-- The height at a point. -/
def elevation (source : HeightSource m) (latitude longitude : Float) (mode : String) : m String :=
  answer source elevationName mode do
    let a ← ask (source.fetchPoint latitude longitude)
    pure (.point
      { latitude, longitude, x := a.x, y := a.y, key := a.key, elevation := a.elevation,
        status := a.status, message := pointMessage a })

/-- The greatest number of points in one list. -/
def maxPoints : Nat := 1000

/-- What is wrong with the number of points, if anything. -/
def countFault? (points : List (List Float)) : Option String :=
  if points.isEmpty then some "At least one point is required"
  else if maxPoints < points.length then
    some ("Too many points (" ++ toString points.length ++ "), maximum is " ++ toString maxPoints)
  else none

/-- A point with its height; a point needs two coordinates. -/
def pointInfo? (point : List Float) (elevation : Float) (status : String) : Option PointInfo :=
  match point with
  | latitude :: longitude :: _ => some ⟨latitude, longitude, elevation, status⟩
  | _ => none

/-- Points paired with their heights and statuses, up to the end of the shortest list. -/
def pointInfos? : List (List Float) → List Float → List String → Option (List PointInfo)
  | p :: ps, elevation :: elevations, text :: texts => do
      let info ← pointInfo? p elevation text
      let infos ← pointInfos? ps elevations texts
      pure (info :: infos)
  | _, _, _ => some []

/-- What is said about the heights at several points. -/
def pointsMessage (count : Nat) (statuses : List String) : String :=
  "Retrieved elevation for " ++ toString count ++ " points ("
    ++ toString (statuses.count Status.ok.text) ++ " with data)"

/-- The name of the tool for several points. -/
def elevationsName : String := "swissalti3d_elevations"

/-- The heights at several points. -/
def elevations (source : HeightSource m) (points : List (List Float)) (mode : String) : m String :=
  answer source elevationsName mode do
    match countFault? points with
    | some text => throw text
    | none =>
        let a ← ask (source.fetchPoints points)
        match pointInfos? points a.elevations a.statuses with
        | none => throw "list index out of range"
        | some infos =>
            pure (.points
              { count := points.length, points := infos, range := a.range,
                message := pointsMessage points.length a.statuses })

end Tool

end PointElevation
