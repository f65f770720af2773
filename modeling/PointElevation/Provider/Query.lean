import PointElevation.Number.Layout
import PointElevation.Provider.Basic

/-!
# Queries for heights

`Service.lookup` takes a point through all stages: its position, the coverage, the tile, the raster
and the pixel.  Each stage that fails gives a status of its own, and only a failure that belongs to
no stage leaves the query.  `Service.fetchPoints` is the same for a list of points, all of which
are looked at before the first is asked for.
-/

namespace PointElevation

open PointElevation.Host
open PointElevation.Number (floatText)

/-- Heights for a list of points. -/
structure Batch where
  lookups : List Lookup
  /-- the least and the greatest height found, or zero twice -/
  range : Float × Float

/-- Why a list of points has no heights. -/
inductive BatchFault where
  /-- a point that is no pair -/
  | malformedPoint (point : List Float)
  | escaped (cause : Failure)

/-- A list of numbers in a message. -/
def listText (numbers : List Float) : String :=
  "[" ++ ", ".intercalate (numbers.map floatText) ++ "]"

def BatchFault.message : BatchFault → String
  | .malformedPoint point => "Point must be [lat, lon], got " ++ listText point
  | .escaped cause => cause.text

namespace Batch

/-- The lesser of two numbers, the first if neither is. -/
def lesser (a b : Float) : Float := if b < a then b else a

/-- The greater of two numbers, the first if neither is. -/
def greater (a b : Float) : Float := if b > a then b else a

/-- The ends of the range of a list of heights. -/
def rangeOf : List Float → Float × Float
  | [] => (0.0, 0.0)
  | first :: others => (others.foldl lesser first, others.foldl greater first)

/-- The heights among the answers. -/
def heights (lookups : List Lookup) : List Float :=
  (lookups.filter Lookup.hasData).map Lookup.elevation

/-- Answers with the range of their heights. -/
def ofLookups (lookups : List Lookup) : Batch := ⟨lookups, rangeOf (heights lookups)⟩

end Batch

/-- A list of two numbers as a pair. -/
def pair? : List Float → Option (Float × Float)
  | [latitude, longitude] => some (latitude, longitude)
  | _ => none

namespace Service

/-- The raster of a tile, if there is such a tile. -/
def rasterOf (key : TileKey) : ServiceM Fault (Option Raster) := do
  let p := (← get).provider
  onCached ((Provider.pipeline p.directory p.downloader).get key)

/-- A position in a message. -/
def positionText (p : Position) : String := "(" ++ toString p.x ++ ", " ++ toString p.y ++ ")"

/-- The answer when a stage has failed. -/
def withoutRaster (key : TileKey) (position : Position) (status : Status) (reason : String) :
    ServiceM ε Lookup := do
  onHost (say .warning
    ("Could not get raster data for " ++ positionText position ++ ": " ++ reason))
  pure (.without status position (some key))

/-- The answer to a fault: each stage has its status, and what belongs to no stage goes on. -/
def degrade (key : TileKey) (position : Position) : Fault → ServiceM Failure Lookup
  | .index cause => withoutRaster key position .indexUnavailable cause.message
  | .download cause => withoutRaster key position .downloadFailed cause.message
  | .decode cause => withoutRaster key position .decodeFailed cause.message
  | .escaped cause => throw cause

/-- The answer for a position in a raster. -/
def sampleLookup (key : TileKey) (position : Position) (raster : Raster) :
    ServiceM Failure Lookup :=
  match raster.sample position with
  | .error missing => degrade key position (.decode (.outOfRange missing))
  | .ok value =>
      if value.isNaN then do
        onHost (say .debug
          ("Tile " ++ key ++ " has no data at " ++ positionText position))
        pure (.without .noData position (some key))
      else pure ⟨value.toFloat, .ok, position, some key⟩

/-- The answer for a position in the coverage. -/
def lookupCovered (position : Position) : ServiceM Failure Lookup := do
  let key := position.tileKey
  match ← outcome (rasterOf key) with
  | .error fault => degrade key position fault
  | .ok none =>
      onHost (say .warning
        ("No swissalti3d tile " ++ key ++ " for " ++ positionText position))
      pure (.without .noTile position (some key))
  | .ok (some raster) => sampleLookup key position raster

/-- The text about a point that has no position. -/
def notProjectable (latitude longitude : Float) : String :=
  "Point (" ++ floatText latitude ++ ", " ++ floatText longitude ++ ") has no finite projection"

/-- The height at a point. -/
def lookup (latitude longitude : Float) : ServiceM Failure Lookup := do
  if !(latitude.isFinite && longitude.isFinite) then
    pure (.without .outsideCoverage ⟨0, 0⟩ none)
  else
    match (← get).provider.projection.position? latitude longitude with
    | none =>
        onHost (say .warning (notProjectable latitude longitude))
        pure (.without .outsideCoverage ⟨0, 0⟩ none)
    | some position =>
        if position.Covered then lookupCovered position
        else pure (.without .outsideCoverage position none)

/-- The number that stands for the height at a point, zero where there is none. -/
def elevation (latitude longitude : Float) : ServiceM Failure Float := do
  let answer ← lookup latitude longitude
  pure answer.elevation

/-- The answers for a list of points. -/
def lookupAll (points : List (Float × Float)) : ServiceM Failure (List Lookup) :=
  points.mapM fun (latitude, longitude) => lookup latitude longitude

/-- The heights at a list of points, each a list of two numbers. -/
def fetchPoints (points : List (List Float)) : ServiceM BatchFault Batch := do
  match points.find? fun point => (pair? point).isNone with
  | some point => throw (.malformedPoint point)
  | none =>
      let lookups ← recast .escaped (lookupAll (points.filterMap pair?))
      pure (.ofLookups lookups)

/-- Frees what is held; a directory that is to be removed goes, with everything in it. -/
def release : ServiceM Failure Unit := do
  modify fun s => { s with provider := s.provider.clearMemory }
  let p := (← get).provider
  if p.ownsDownloader then onHost p.downloader.close
  if p.autoRemove then
    if ← onHost (askDisk (·.exists? p.directory)) then
      onHost (say .info ("Removing swissalti3d cache " ++ toString p.directory))
      onHost (onFiles (.removeTree p.directory))

end Service

end PointElevation
