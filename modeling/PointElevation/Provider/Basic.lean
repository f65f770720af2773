import PointElevation.Projection
import PointElevation.Provider.Outcome
import PointElevation.RasterMemory
import PointElevation.TileFile

/-!
# The provider

A provider owns a cache directory, an index of the tiles, and a memory of decoded rasters.  It may
be told to remove the directory when it is released.  `Service` is a provider together with the
host it works on; its operations change both.
-/

namespace PointElevation

open PointElevation.Host

/-- A source of heights. -/
structure Provider where
  directory : FilePath
  downloader : Downloader
  /-- whether releasing the provider closes its downloader -/
  ownsDownloader : Bool
  /-- whether releasing the provider removes the directory -/
  autoRemove : Bool
  projection : Projection
  index : TileIndex
  memory : RasterMemory

/-- A provider and its host. -/
structure Service where
  provider : Provider
  host : Host

/-- An operation of a service. -/
abbrev ServiceM (ε : Type) := EStateM ε Service

/-- An operation on the host of a service. -/
def onHost (operation : HostM ε α) : ServiceM ε α :=
  onPart Service.host (fun s host => { s with host := host }) operation

/-- Why a provider cannot be made. -/
inductive ProviderFault where
  /-- the cache path leads to something that is no directory -/
  | notDirectory (path : FilePath)
  | escaped (cause : Failure)
deriving DecidableEq, Repr

def ProviderFault.message : ProviderFault → String
  | .notDirectory path => "Cache path has to be a directory: " ++ toString path
  | .escaped cause => cause.text

/-- Counts that describe a provider. -/
structure CacheStatus where
  directory : FilePath
  indexLoaded : Bool
  tilesIndexed : Nat
  rastersCached : Nat
  autoRemove : Bool
deriving DecidableEq, Repr

namespace Provider

/-- The name of the dataset. -/
def dataset : String := "swissalti3d"

/-- The cache directory where no other is given. -/
def defaultDirectory : String := "/tmp/swissalti3d"

/-- What the log says when rasters are forgotten to make room. -/
def emptiedNote : String := "Clearing in memory raster cache"

/-- The stages from a key to a raster. -/
def pipeline (directory : FilePath) (downloader : Downloader) : Pipeline Fault Indexed where
  address := TileIndex.resolve
  file key url := onIndexedHost (ensureTileFile directory downloader key url)
  decode path := onIndexedHost (readTile path elevationBand)
  emptied s := { s with host := s.host.note .debug emptiedNote }

/-- A provider over a directory, with a downloader of its own unless one is given.  Nothing is
read or written yet. -/
def create (directory : String) (shared : Option Downloader) (timeout : Float)
    (autoRemove : Bool) : HostM ProviderFault Provider := do
  let path := FilePath.ofString (if directory.isEmpty then defaultDirectory else directory)
  let node ← recast .escaped (askDisk (·.find path))
  match node with
  | some (.file _) => throw (.notDirectory path)
  | _ =>
      if path.hasIllegalName then throw (.escaped (.ofDisk .illegalName))
      let start ← recast .escaped (askDisk (·.start path))
      let downloader := shared.getD ⟨Downloader.defaultUserAgent, timeout⟩
      let directory := FilePath.ofLocation (path.resolve start)
      pure
        { directory
          downloader
          ownsDownloader := shared.isNone
          autoRemove
          projection := Projection.lv95
          index := TileIndex.unloaded directory downloader
          memory := RasterMemory.empty RasterMemory.defaultLimit }

/-- Counts of what is held. -/
def status (p : Provider) : CacheStatus where
  directory := p.directory
  indexLoaded := p.index.isLoaded
  tilesIndexed := p.index.size
  rastersCached := p.memory.size
  autoRemove := p.autoRemove

/-- Tells whether the directory is removed on release. -/
def setAutoRemove (p : Provider) (autoRemove : Bool) : Provider := { p with autoRemove }

/-- Forgets all rasters. -/
def clearMemory (p : Provider) : Provider := { p with memory := p.memory.clear }

end Provider

/-- The memory of rasters, and below it the index and the host. -/
def Service.cached (s : Service) : RasterMemory × Indexed :=
  (s.provider.memory, ⟨s.provider.index, s.host⟩)

/-- An operation on the memory, the index and the host of a service. -/
def onCached (operation : EStateM ε (RasterMemory × Indexed) α) : ServiceM ε α :=
  onPart Service.cached
    (fun s (memory, indexed) =>
      ⟨{ s.provider with memory, index := indexed.index }, indexed.host⟩)
    operation

/-- An operation on the index and the host of a service. -/
def onIndexed (operation : EStateM ε Indexed α) : ServiceM ε α :=
  onPart (fun s => (⟨s.provider.index, s.host⟩ : Indexed))
    (fun s indexed => ⟨{ s.provider with index := indexed.index }, indexed.host⟩)
    operation

end PointElevation
