import PointElevation.Json.Display
import PointElevation.Provider.Query
import PointElevation.Response.Format

/-!
# What the tools ask

The tools do not depend on the provider but on a few questions, which may fail with a text.
`HeightSource` collects them; a provider is one source of answers.  The answers may be anything a
source likes to give, so their status is a text and their counts need not match the points.
-/

namespace PointElevation

open PointElevation.Host

namespace Tool

/-- The answer for one point. -/
structure PointAnswer where
  elevation : Float
  status : String
  x : Int
  y : Int
  key : Option String

/-- The answer for several points. -/
structure PointsAnswer where
  elevations : List Float
  statuses : List String
  range : List Float

/-- Questions that a source of heights answers, with a text in place of an answer if it cannot. -/
structure HeightSource (m : Type → Type) where
  fetchPoint : Float → Float → m (Except String PointAnswer)
  fetchPoints : List (List Float) → m (Except String PointsAnswer)
  /-- members that describe the state of the source -/
  cacheStatus : m (Except String Response.Fields)
  /-- the name of the dataset -/
  describe : m (Except String Json)
  /-- whether heights between pixels are interpolated -/
  canInterpolate : m (Except String Json)
  /-- takes note of an error -/
  report : String → m Unit

/-- An answer of the provider as a tool sees it. -/
def PointAnswer.ofLookup (l : Lookup) : PointAnswer :=
  ⟨l.elevation, l.status.text, l.position.x, l.position.y, l.key⟩

/-- The answers of the provider as a tool sees them. -/
def PointsAnswer.ofBatch (b : Batch) : PointsAnswer :=
  ⟨b.lookups.map Lookup.elevation, b.lookups.map (·.status.text), [b.range.1, b.range.2]⟩

/-- The state of a provider as members. -/
def statusFields (s : CacheStatus) : Response.Fields :=
  [("cache_dir", .string (toString s.directory)), ("index_loaded", .bool s.indexLoaded),
   ("tiles_indexed", .int s.tilesIndexed), ("rasters_cached", .int s.rastersCached),
   ("auto_remove_temporary", .bool s.autoRemove)]

/-- An operation of a service, with its outcome as a value. -/
def asking (operation : ServiceM ε α) (answer : α → β) (message : ε → String) :
    StateM Service (Except String β) := fun s =>
  match operation s with
  | .ok a s => (.ok (answer a), s)
  | .error fault s => (.error (message fault), s)

/-- The provider as a source of heights. -/
def HeightSource.ofService : HeightSource (StateM Service) where
  fetchPoint latitude longitude :=
    asking (Service.lookup latitude longitude) PointAnswer.ofLookup Failure.text
  fetchPoints points := asking (Service.fetchPoints points) PointsAnswer.ofBatch BatchFault.message
  cacheStatus := do pure (.ok (statusFields (← get).provider.status))
  describe := pure (.ok (.string Provider.dataset))
  canInterpolate := pure (.ok (.bool false))
  report text := modify fun s => { s with host := s.host.note .error text }

end Tool

end PointElevation
