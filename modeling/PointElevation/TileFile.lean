import PointElevation.TileIndex
import PointElevation.Tiff.Band

/-!
# Tile files

A tile is kept in the cache directory under the file name of its address.  It is downloaded only
if no such file is there, and a file that is there is taken for the tile.  Notes on it may stand
beside it; they are never downloaded.
-/

namespace PointElevation

open PointElevation.Host
open PointElevation.Text (decodeUtf8 lastField)

/-- The file of a tile in a directory. -/
def tileFile (directory : FilePath) (url : String) : FilePath :=
  directory.child (String.ofList (lastField '/' url.toList))

/-- The file of a tile, which is downloaded if it is not there. -/
def ensureTileFile (directory : FilePath) (downloader : Downloader) (key : TileKey) (url : String) :
    HostM Fault FilePath := do
  let path := tileFile directory url
  let present ← recast .escaped (askDisk (·.exists? path))
  if !present then
    say .info ("Fetching tile " ++ key ++ " from " ++ url)
    recast Fault.ofFetch (downloader.fetchFile url path)
  pure path

/-- The file of notes on a file, beside it. -/
def sideFile (path : FilePath) : FilePath := path.parent.child (path.name ++ ".aux.xml")

/-- The raster in a file, which may have notes beside it; whatever is wrong with the file is a fault
of decoding. -/
def decodeTile (path : FilePath) (band : Int) (content side : Option ByteArray) :
    Except DecodeFault Raster :=
  match content with
  | none => .error (.unreadable path.name .absent)
  | some bytes =>
      match Tiff.read bytes (side.map decodeUtf8) band with
      | .ok raster => .ok raster
      | .error defect => .error (.unreadable path.name defect)

/-- The band that holds the heights. -/
def elevationBand : Int := 0

/-- Reads a band of a tile file. -/
def readTile (path : FilePath) (band : Int) : HostM Fault Raster := do
  let disk := (← get).disk
  let content := (disk.read path).toOption
  let side := (disk.read (sideFile path)).toOption
  match decodeTile path band content side with
  | .ok raster => pure raster
  | .error fault => throw (.decode fault)

end PointElevation
