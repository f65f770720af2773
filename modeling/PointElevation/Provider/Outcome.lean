import PointElevation.Grid

/-!
# What a query answers

Every query for a point ends in one of seven ways.  Only one of them comes with a height; the
others have zero in its place, which is why the status has to be looked at.
-/

namespace PointElevation

/-- How a query for a point ended. -/
inductive Status where
  | ok
  | outsideCoverage
  | noTile
  | indexUnavailable
  | downloadFailed
  | decodeFailed
  | noData
deriving DecidableEq, Repr, Inhabited

namespace Status

def text : Status → String
  | .ok => "ok"
  | .outsideCoverage => "outside_coverage"
  | .noTile => "no_tile"
  | .indexUnavailable => "index_unavailable"
  | .downloadFailed => "download_failed"
  | .decodeFailed => "decode_failed"
  | .noData => "no_data"

/-- All of them, in the order in which they are listed to clients. -/
def all : List Status :=
  [.ok, .outsideCoverage, .noTile, .indexUnavailable, .downloadFailed, .decodeFailed, .noData]

end Status

/-- The answer for a point. -/
structure Lookup where
  elevation : Float
  status : Status
  position : Position
  key : Option TileKey
deriving Inhabited

namespace Lookup

/-- Whether there is a height. -/
def hasData (l : Lookup) : Bool := l.status = .ok

/-- An answer without a height. -/
def without (status : Status) (position : Position) (key : Option TileKey) : Lookup :=
  ⟨0.0, status, position, key⟩

end Lookup

end PointElevation
