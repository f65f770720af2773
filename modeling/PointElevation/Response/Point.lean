import PointElevation.Number.Layout
import PointElevation.Response.Report

/-!
# Heights as responses

The answer for one point, and the answer for several with the range of their heights.
-/

namespace PointElevation.Response

open PointElevation.Number (fixedText)

/-! ## One point -/

/-- The height at a point. -/
structure PointResponse where
  latitude : Float
  longitude : Float
  x : Int
  y : Int
  key : Option String
  elevation : Float
  status : String
  message : String

/-- A point in a message, with six decimals. -/
def pointText (latitude longitude : Float) : String :=
  "(" ++ fixedText 6 latitude ++ ", " ++ fixedText 6 longitude ++ ")"

/-- A height in a message, to the decimetre. -/
def heightText (elevation : Float) : String := fixedText 1 elevation ++ "m"

namespace PointResponse

def names : List String :=
  ["lat", "lon", "x", "y", "tile_key", "elevation_m", "status", "message"]

def ofFields (fields : Fields) : Checked PointResponse :=
  PointResponse.mk
    <$> required fields "lat" readFloat
    <*> required fields "lon" readFloat
    <*> required fields "x" readInt
    <*> required fields "y" readInt
    <*> defaulted fields "tile_key" none readOptionalString
    <*> required fields "elevation_m" readFloat
    <*> required fields "status" readString
    <*> required fields "message" readString
    <* noOthers fields names

def toJson (r : PointResponse) : Json :=
  .object
    [("lat", .float r.latitude), ("lon", .float r.longitude), ("x", .int r.x), ("y", .int r.y),
     ("tile_key", (r.key.map Json.string).getD .null), ("elevation_m", .float r.elevation),
     ("status", .string r.status), ("message", .string r.message)]

/-- The line about the tile, if a tile is named. -/
def tileLine (key : Option String) : List String :=
  match key with
  | some name => if name.isEmpty then [] else ["Tile: " ++ name]
  | none => []

def toText (r : PointResponse) : String :=
  "\n".intercalate
    (["Elevation at " ++ pointText r.latitude r.longitude ++ ": " ++ heightText r.elevation,
      "LV95: (" ++ toString r.x ++ ", " ++ toString r.y ++ ")",
      "Status: " ++ r.status]
      ++ tileLine r.key)

end PointResponse

/-! ## Several points -/

/-- One of several points. -/
structure PointInfo where
  latitude : Float
  longitude : Float
  elevation : Float
  status : String

namespace PointInfo

def names : List String := ["lat", "lon", "elevation_m", "status"]

def ofFields (fields : Fields) : Checked PointInfo :=
  PointInfo.mk
    <$> required fields "lat" readFloat
    <*> required fields "lon" readFloat
    <*> required fields "elevation_m" readFloat
    <*> required fields "status" readString
    <* noOthers fields names

/-- A point inside another response. -/
def read : Json → Checked PointInfo
  | .object fields => ofFields fields
  | _ => Checked.refuse .modelType

def toJson (p : PointInfo) : Json :=
  .object
    [("lat", .float p.latitude), ("lon", .float p.longitude), ("elevation_m", .float p.elevation),
     ("status", .string p.status)]

/-- The line about a point, marked by the status if there is no height. -/
def line (p : PointInfo) : String :=
  "  " ++ pointText p.latitude p.longitude ++ ": " ++ heightText p.elevation
    ++ (if p.status = "ok" then "" else " [" ++ p.status ++ "]")

end PointInfo

/-- The heights at several points. -/
structure MultiPointResponse where
  count : Int
  points : List PointInfo
  range : List Float
  message : String

namespace MultiPointResponse

def names : List String := ["point_count", "points", "elevation_range", "message"]

def ofFields (fields : Fields) : Checked MultiPointResponse :=
  MultiPointResponse.mk
    <$> required fields "point_count" readInt
    <*> required fields "points" (readList PointInfo.read)
    <*> required fields "elevation_range" (readList readFloat)
    <*> required fields "message" readString
    <* noOthers fields names

def toJson (r : MultiPointResponse) : Json :=
  .object
    [("point_count", .int r.count), ("points", .array (r.points.map PointInfo.toJson)),
     ("elevation_range", .array (r.range.map .float)), ("message", .string r.message)]

def toText (r : MultiPointResponse) : Except TextFault String :=
  match r.range with
  | low :: high :: _ =>
      .ok ("\n".intercalate
        (["Elevations for " ++ toString r.count ++ " points",
          "Range: " ++ heightText low ++ " - " ++ heightText high,
          ""]
          ++ r.points.map PointInfo.line))
  | _ => .error .shortRange

end MultiPointResponse

end PointElevation.Response
