import PointElevation.Tool.Answer

/-!
# Tools about the service

One tool for the state of the service and one for the description of the dataset.  What the source
says about its state is passed on member by member, so a source that says too much or too little
makes the tool fail.
-/

namespace PointElevation

open PointElevation.Response

namespace Tool

variable {m : Type → Type} [Monad m]

/-- A member that the state of a source has to have. -/
def member (fields : Fields) (name : String) : Attempt m Json :=
  match Json.lastMember? name fields with
  | some j => pure j
  | none => throw (Text.quoted name)

/-- What is said about the state of the service. -/
def statusMessage (tiles rasters : Json) : String :=
  "swissalti3d MCP Server v" ++ StatusResponse.serverVersion ++ " (" ++ tiles.display
    ++ " tiles indexed, " ++ rasters.display ++ " rasters cached)"

/-- The text about a member that is given twice. -/
def givenTwice (name : String) : String :=
  "chuk_mcp_swissalti3d.models.responses.StatusResponse() got multiple values for keyword argument "
    ++ Text.quoted name

/-- The name of the tool for the state of the service. -/
def statusName : String := "swissalti3d_status"

/-- The members that the tool adds to those of the source. -/
def ownFields (dataset : Json) (message : String) : Fields :=
  [("server", .string StatusResponse.serverName), ("version", .string StatusResponse.serverVersion),
   ("dataset", dataset), ("message", .string message)]

/-- The state of the service. -/
def status (source : HeightSource m) (mode : String) : m String :=
  answer source statusName mode do
    let fields ← ask source.cacheStatus
    let dataset ← ask source.describe
    let tiles ← member fields "tiles_indexed"
    let rasters ← member fields "rasters_cached"
    let own := ownFields dataset (statusMessage tiles rasters)
    match fields.find? fun field => (own.map (·.1)).contains field.1 with
    | some (name, _) => throw (givenTwice name)
    | none =>
        let r ← build "StatusResponse" (StatusResponse.ofFields (own ++ fields))
        pure (.status r)

/-- The description of the dataset, but for what the source says about it. -/
def datasetFields (interpolation : Json) : Fields :=
  [("id", .string Provider.dataset),
   ("name", .string "swisstopo swissALTI3D"),
   ("resolution_m", .int Grid.resolution),
   ("coverage", .string "Switzerland and Liechtenstein"),
   ("coverage_bounds_lv95",
     .array [.int Grid.minX, .int Grid.minY, .int Grid.maxX, .int Grid.maxY]),
   ("horizontal_crs", .string Projection.targetSystem),
   ("vertical_unit", .string "metres"),
   ("tile_size_m", .int Grid.tileSize),
   ("tile_size_px", .int Grid.tilePixels),
   ("interpolation", interpolation),
   ("lookup_statuses", .array (Status.all.map fun s => .string s.text)),
   ("license", .string "swisstopo OGD"),
   ("access_url", .string "https://www.swisstopo.admin.ch/en/geodata/height/alti3d.html"),
   ("message", .string "Dataset: swisstopo swissALTI3D (2m, Switzerland and Liechtenstein)")]

/-- The name of the tool for the dataset. -/
def describeName : String := "swissalti3d_describe"

/-- The description of the dataset. -/
def describe (source : HeightSource m) (mode : String) : m String :=
  answer source describeName mode do
    let interpolation ← ask source.canInterpolate
    let r ← build "DatasetResponse" (DatasetResponse.ofFields (datasetFields interpolation))
    pure (.dataset r)

end Tool

end PointElevation
