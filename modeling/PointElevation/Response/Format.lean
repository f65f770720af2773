import PointElevation.Json.Writer
import PointElevation.Response.Point

/-!
# Writing a response

A response is written as JSON, unless the mode asks for text and the response has a form for
people; every mode but `text` means JSON.
-/

namespace PointElevation

open PointElevation.Response

/-- Any response. -/
inductive Response where
  | error (r : ErrorResponse)
  | point (r : PointResponse)
  | pointInfo (r : PointInfo)
  | points (r : MultiPointResponse)
  | status (r : StatusResponse)
  | dataset (r : DatasetResponse)

namespace Response

/-- A response as an object. -/
def toJson : Response → Json
  | .error r => r.toJson
  | .point r => r.toJson
  | .pointInfo r => r.toJson
  | .points r => r.toJson
  | .status r => r.toJson
  | .dataset r => r.toJson

/-- A response for people, if it has a form for them. -/
def toText? : Response → Option (Except TextFault String)
  | .error r => some (.ok r.toText)
  | .point r => some (.ok r.toText)
  | .pointInfo _ => none
  | .points r => some r.toText
  | .status r => some (.ok r.toText)
  | .dataset r => some r.toText

/-- The mode that asks for text. -/
def textMode : String := "text"

/-- The mode where no other is given. -/
def defaultMode : String := "json"

/-- A response as it is sent. -/
def format (r : Response) (mode : String) : Except TextFault String :=
  if mode = textMode then r.toText?.getD (.ok r.toJson.render) else .ok r.toJson.render

/-- A response of a kind from the members of an object; an unknown kind has none. -/
def ofFields? (kind : String) (fields : Fields) : Option (Checked Response) :=
  match kind with
  | "ErrorResponse" => some (.error <$> ErrorResponse.ofFields fields)
  | "PointElevationResponse" => some (.point <$> PointResponse.ofFields fields)
  | "PointInfo" => some (.pointInfo <$> PointInfo.ofFields fields)
  | "MultiPointResponse" => some (.points <$> MultiPointResponse.ofFields fields)
  | "StatusResponse" => some (.status <$> StatusResponse.ofFields fields)
  | "DatasetResponse" => some (.dataset <$> DatasetResponse.ofFields fields)
  | _ => none

end Response

end PointElevation
