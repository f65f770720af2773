import PointElevation.Response.Checked

/-!
# Reports about the service

The answer to anything that failed, the answer about the state of the service, and the description
of the dataset.  Each has a written form as an object, whose members are its fields in order, and a
form for people.
-/

namespace PointElevation.Response

/-! ## Errors -/

/-- Something failed. -/
structure ErrorResponse where
  error : String
deriving DecidableEq, Repr

namespace ErrorResponse

def ofFields (fields : Fields) : Checked ErrorResponse :=
  ErrorResponse.mk <$> required fields "error" readString <* noOthers fields ["error"]

def toJson (r : ErrorResponse) : Json := .object [("error", .string r.error)]

def toText (r : ErrorResponse) : String := "Error: " ++ r.error

end ErrorResponse

/-! ## Status -/

/-- The state of the service. -/
structure StatusResponse where
  server : String
  version : String
  dataset : String
  directory : String
  indexLoaded : Bool
  tilesIndexed : Int
  rastersCached : Int
  autoRemove : Bool
  message : String
deriving DecidableEq, Repr

namespace StatusResponse

/-- The name under which the service presents itself. -/
def serverName : String := "chuk-mcp-swissalti3d"

def serverVersion : String := "0.1.0"

def names : List String :=
  ["server", "version", "dataset", "cache_dir", "index_loaded", "tiles_indexed",
   "rasters_cached", "auto_remove_temporary", "message"]

def ofFields (fields : Fields) : Checked StatusResponse :=
  StatusResponse.mk
    <$> defaulted fields "server" serverName readString
    <*> defaulted fields "version" serverVersion readString
    <*> required fields "dataset" readString
    <*> required fields "cache_dir" readString
    <*> required fields "index_loaded" readBool
    <*> defaulted fields "tiles_indexed" 0 readInt
    <*> defaulted fields "rasters_cached" 0 readInt
    <*> defaulted fields "auto_remove_temporary" false readBool
    <*> required fields "message" readString
    <* noOthers fields names

def toJson (r : StatusResponse) : Json :=
  .object
    [("server", .string r.server), ("version", .string r.version),
     ("dataset", .string r.dataset), ("cache_dir", .string r.directory),
     ("index_loaded", .bool r.indexLoaded), ("tiles_indexed", .int r.tilesIndexed),
     ("rasters_cached", .int r.rastersCached),
     ("auto_remove_temporary", .bool r.autoRemove), ("message", .string r.message)]

def toText (r : StatusResponse) : String :=
  "\n".intercalate
    ([r.server ++ " v" ++ r.version,
      "Dataset: " ++ r.dataset,
      "Cache dir: " ++ r.directory,
      "Index: " ++ (if r.indexLoaded then toString r.tilesIndexed ++ " tiles" else "not loaded"),
      "Rasters in memory: " ++ toString r.rastersCached]
      ++ if r.autoRemove then ["Cache is removed on release"] else [])

end StatusResponse

/-! ## The dataset -/

/-- Why a response has no form for people. -/
inductive TextFault where
  /-- a range of heights with less than two ends -/
  | shortRange
  /-- bounds that are no rectangle -/
  | tooFewBounds (count : Nat)
  | tooManyBounds
deriving DecidableEq, Repr

def TextFault.message : TextFault → String
  | .shortRange => "list index out of range"
  | .tooFewBounds count => "not enough values to unpack (expected 4, got " ++ toString count ++ ")"
  | .tooManyBounds => "too many values to unpack (expected 4)"

/-- What the dataset is. -/
structure DatasetResponse where
  id : String
  name : String
  resolution : Int
  coverage : String
  bounds : List Int
  horizontalSystem : String
  verticalUnit : String
  tileSize : Int
  tilePixels : Int
  interpolation : Bool
  statuses : List String
  license : String
  accessUrl : String
  message : String
deriving DecidableEq, Repr

namespace DatasetResponse

def names : List String :=
  ["id", "name", "resolution_m", "coverage", "coverage_bounds_lv95", "horizontal_crs",
   "vertical_unit", "tile_size_m", "tile_size_px", "interpolation", "lookup_statuses", "license",
   "access_url", "message"]

def ofFields (fields : Fields) : Checked DatasetResponse :=
  DatasetResponse.mk
    <$> required fields "id" readString
    <*> required fields "name" readString
    <*> required fields "resolution_m" readInt
    <*> required fields "coverage" readString
    <*> required fields "coverage_bounds_lv95" (readList readInt)
    <*> required fields "horizontal_crs" readString
    <*> required fields "vertical_unit" readString
    <*> required fields "tile_size_m" readInt
    <*> required fields "tile_size_px" readInt
    <*> required fields "interpolation" readBool
    <*> defaulted fields "lookup_statuses" [] (readList readString)
    <*> required fields "license" readString
    <*> required fields "access_url" readString
    <*> required fields "message" readString
    <* noOthers fields names

def toJson (r : DatasetResponse) : Json :=
  .object
    [("id", .string r.id), ("name", .string r.name), ("resolution_m", .int r.resolution),
     ("coverage", .string r.coverage), ("coverage_bounds_lv95", .array (r.bounds.map .int)),
     ("horizontal_crs", .string r.horizontalSystem), ("vertical_unit", .string r.verticalUnit),
     ("tile_size_m", .int r.tileSize), ("tile_size_px", .int r.tilePixels),
     ("interpolation", .bool r.interpolation),
     ("lookup_statuses", .array (r.statuses.map .string)), ("license", .string r.license),
     ("access_url", .string r.accessUrl), ("message", .string r.message)]

/-- The four bounds of a rectangle. -/
def rectangle : List Int → Except TextFault (Int × Int × Int × Int)
  | [minX, minY, maxX, maxY] => .ok (minX, minY, maxX, maxY)
  | bounds => .error (if bounds.length < 4 then .tooFewBounds bounds.length else .tooManyBounds)

def toText (r : DatasetResponse) : Except TextFault String := do
  let (minX, minY, maxX, maxY) ← rectangle r.bounds
  pure ("\n".intercalate
    [r.name ++ " (" ++ r.id ++ ")",
     "Resolution: " ++ toString r.resolution ++ "m, tiles " ++ toString r.tileSize ++ "m / "
       ++ toString r.tilePixels ++ "px",
     "Coverage: " ++ r.coverage,
     "Bounds (" ++ r.horizontalSystem ++ "): X " ++ toString minX ++ "-" ++ toString maxX ++ ", Y "
       ++ toString minY ++ "-" ++ toString maxY,
     "Interpolation: " ++ (if r.interpolation then "yes" else "no"),
     "Lookup statuses: " ++ ", ".intercalate r.statuses,
     "License: " ++ r.license])

end DatasetResponse

end PointElevation.Response
