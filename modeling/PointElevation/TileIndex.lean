import PointElevation.Fault
import PointElevation.Listing

/-!
# The tile index

The listing is needed to know the address of a tile.  It is kept in a file of the cache directory:
if the file is not there, it is downloaded from where the listing service says, and then the file
is read.  Once read, the listing stays in memory and is never looked at again on the disk; as long
as it could not be read, every question tries anew.
-/

namespace PointElevation

open PointElevation.Host
open PointElevation.Text (decodeAscii)

/-- Where the listing service is asked for all tiles of two metres in LV95. -/
def listingServiceUrl : String :=
  "https://ogd.swisstopo.admin.ch/services/swiseld/services/assets/"
    ++ "ch.swisstopo.swissalti3d/search?format=image/tiff;%20application=geotiff;"
    ++ "%20profile=cloud-optimized&resolution=2.0&srid=2056&state=current&csv=true"

/-- The listing, once it is loaded, and where it comes from. -/
structure TileIndex where
  directory : FilePath
  downloader : Downloader
  listing : Option Listing

/-- An index and the host it works on. -/
structure Indexed where
  index : TileIndex
  host : Host

/-- An operation that may load the index. -/
abbrev IndexedM := EStateM Fault Indexed

/-- An operation on the host below an index. -/
def onIndexedHost (operation : HostM ε α) : EStateM ε Indexed α :=
  onPart Indexed.host (fun s host => { s with host := host }) operation

namespace TileIndex

/-- An index that is not loaded. -/
def unloaded (directory : FilePath) (downloader : Downloader) : TileIndex :=
  ⟨directory, downloader, none⟩

/-- The file that the listing is kept in. -/
def mappingFile (index : TileIndex) : FilePath := index.directory.child "mappings.csv"

def isLoaded (index : TileIndex) : Bool := index.listing.isSome

/-- The number of tiles known, none before the listing is loaded. -/
def size (index : TileIndex) : Nat := (index.listing.map Listing.size).getD 0

/-- The fault of a download that the listing needs. -/
def faultOfFetch : FetchFault → Fault
  | .failed fault => .index (.notFetched fault)
  | .escaped cause => .ofFailure cause

/-- The fault of a reply without an address. -/
def faultOfReply : ReplyFault → Fault
  | .malformed cause => .index (.malformed cause)
  | .tooDeep container => .escaped ⟨.nesting, (ReplyFault.tooDeep container).message⟩

/-- Downloads the listing into its file. -/
def fetch (index : TileIndex) : HostM Fault Unit := do
  let reply ← recast faultOfFetch (index.downloader.fetchText listingServiceUrl)
  match listingAddress reply with
  | .error cause => throw (faultOfReply cause)
  | .ok url => recast faultOfFetch (index.downloader.fetchFile url index.mappingFile)

/-- Reads the listing from its file. -/
def readFile (index : TileIndex) : HostM Fault Listing := do
  let path := index.mappingFile
  let bytes ← recast
    (fun failure =>
      if failure.kind = .system then .index (.unreadable path failure.text) else .escaped failure)
    (askDisk (·.read path))
  pure (Listing.ofText (decodeAscii bytes))

/-- Reads the listing, after downloading it if its file is not there. -/
def obtain (index : TileIndex) : HostM Fault Listing := do
  let present ← recast .escaped (askDisk (·.exists? index.mappingFile))
  if !present then index.fetch
  index.readFile

/-- The listing, which is loaded if it is not yet. -/
def load : IndexedM Listing := do
  let index := (← get).index
  match index.listing with
  | some listing => pure listing
  | none =>
      let listing ← onIndexedHost index.obtain
      modify fun s => { s with index := { s.index with listing := some listing } }
      onIndexedHost (say .info ("Loaded " ++ toString listing.size ++ " swissalti3d tile URLs"))
      pure listing

/-- The address of a tile, if there is such a tile. -/
def resolve (key : TileKey) : IndexedM (Option String) := do
  let listing ← load
  pure (listing.url? key)

end TileIndex

end PointElevation
