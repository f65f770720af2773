import PointElevation.Download
import PointElevation.Listing.Href
import PointElevation.Raster
import PointElevation.Tiff.Defect

/-!
# What can keep a height from being found

A height is found in stages, and each has its own faults: the listing of tiles cannot be had, a
tile cannot be downloaded, or its file gives no height.  A failure of the network that names a
stage is a fault of that stage, and failures that belong to none of them pass through.
-/

namespace PointElevation

open PointElevation.Tiff (Defect)

/-- Why there is no listing. -/
inductive IndexFault where
  /-- the reply of the service, or the listing itself, was not to be had -/
  | notFetched (cause : DownloadFault)
  /-- the reply of the service has no address -/
  | malformed (cause : MalformedReply)
  /-- the listing on the disk cannot be read -/
  | unreadable (path : FilePath) (text : String)
  /-- a failure that names itself one of the listing, in words of its own -/
  | reported (text : String)
deriving DecidableEq, Repr

def IndexFault.message : IndexFault → String
  | .notFetched cause => "Could not fetch swissalti3d tile listing: " ++ cause.message
  | .malformed cause => cause.message
  | .unreadable path text =>
      "Could not read cached tile listing " ++ toString path ++ ": " ++ text
  | .reported text => text

/-- Why a file gives no height. -/
inductive DecodeFault where
  /-- the file is no raster -/
  | unreadable (name : String) (defect : Defect)
  /-- the raster does not reach as far as the pixel -/
  | outOfRange (missing : MissingPixel)
  /-- a failure that names itself one of decoding, in words of its own -/
  | reported (text : String)
deriving DecidableEq, Repr

def DecodeFault.message : DecodeFault → String
  | .unreadable name defect => "Can't decode " ++ name ++ ": " ++ defect.message
  | .outOfRange missing =>
      "Can't decode tile raster " ++ toString missing.rows ++ "x" ++ toString missing.columns
        ++ ": pixel (" ++ toString missing.pixel.column ++ ", " ++ toString missing.pixel.row
        ++ ") out of range"
  | .reported text => text

/-- What can end the way from a tile to its raster. -/
inductive Fault where
  | index (cause : IndexFault)
  | download (cause : DownloadFault)
  | decode (cause : DecodeFault)
  | escaped (cause : Failure)
deriving DecidableEq, Repr

def Fault.message : Fault → String
  | .index cause => cause.message
  | .download cause => cause.message
  | .decode cause => cause.message
  | .escaped cause => cause.text

/-- The fault that a failure is: one of the stage that it names, if it names one. -/
def Fault.ofFailure (failure : Failure) : Fault :=
  match failure.kind with
  | .staged .listing => .index (.reported failure.text)
  | .staged .download => .download (.reported failure.text)
  | .staged .decoding => .decode (.reported failure.text)
  | _ => .escaped failure

/-- The fault of a download, where it is none of the listing's. -/
def Fault.ofFetch : FetchFault → Fault
  | .failed fault => .download fault
  | .escaped cause => .ofFailure cause

end PointElevation
