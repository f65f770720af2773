import PointElevation.Host.Basic
import PointElevation.Text.Utf8

/-!
# Downloads

A downloader fetches an address as a text or into a file.  An attempt that fails for a transient
reason is repeated up to two times, after pauses; every other failure ends the download at once.

A file is written to a temporary sibling and moved to its place when it is complete, so that a
file that is seen under its own name is never a part of one.  Each attempt has a sibling of its
own and removes it when it fails.
-/

namespace PointElevation

open PointElevation.Host
open PointElevation.Text (decodeUtf8)

/-- Why a download failed. -/
inductive DownloadFault where
  /-- the request failed, or while a file was written possibly the system -/
  | ofRequest (url : String) (cause : Failure)
  /-- a failure that names itself one of a download, in words of its own -/
  | reported (text : String)
deriving DecidableEq, Repr

def DownloadFault.message : DownloadFault → String
  | .ofRequest url cause => "Failed to download " ++ url ++ ": " ++ cause.text
  | .reported text => text

/-- How a download can end badly: as a failed download, or by a failure that is not its own. -/
inductive FetchFault where
  | failed (fault : DownloadFault)
  | escaped (cause : Failure)
deriving DecidableEq, Repr

/-- The fault of a download that ends with a failure; `own` says which failures are its own. -/
def FetchFault.ofFailure (url : String) (own : Bool) (failure : Failure) : FetchFault :=
  if failure.kind = .staged .download then .failed (.reported failure.text)
  else if own then .failed (.ofRequest url failure)
  else .escaped failure

/-- A client with a name for itself and a limit on the time that an answer may take. -/
structure Downloader where
  userAgent : String
  timeout : Float

namespace Downloader

/-- The name of the client where no other is given. -/
def defaultUserAgent : String := "chuk-mcp-swissalti3d"

/-- The time that an answer may take where no other is given, in seconds. -/
def defaultTimeout : Float := 10.0

/-- The pauses before the second and the third attempt, in seconds. -/
def pauses : List Float := [1.0, 2.0]

/-- Repeats an operation that fails for a transient reason, once for each of the pauses. -/
def retrying (operation : HostM Failure α) : List Float → HostM Failure α
  | [] => operation
  | seconds :: rest =>
      tryCatch operation fun failure =>
        if failure.isTransient then do
          pause seconds
          retrying operation rest
        else throw failure

/-- One attempt to fetch a text. -/
def textAttempt (d : Downloader) (url : String) : HostM Failure String := do
  match ← send ⟨url, false, d.timeout⟩ with
  | .failure cause => throw cause
  | .response _ _ _ (some cut) => throw cut
  | .response status reason pieces none =>
      match statusFailure? url status reason with
      | some failure => throw failure
      | none => pure (decodeUtf8 (pieces.foldl (· ++ ·) .empty))

/-- Fills a file from an address. -/
def receive (d : Downloader) (url : String) (l : Location) : HostM Failure Unit := do
  match ← send ⟨url, true, d.timeout⟩ with
  | .failure cause => throw cause
  | .response status reason pieces cut =>
      match statusFailure? url status reason with
      | some failure => throw failure
      | none =>
          pieces.forM fun piece => onFiles (.append l piece)
          match cut with
          | some cause => throw cause
          | none => pure ()

/-- One attempt to fetch a file. -/
def fileAttempt (d : Downloader) (url : String) (target : FilePath) : HostM Failure Unit := do
  let temporary ← onFiles (.createTemporary target)
  tryCatch
    (do
      d.receive url temporary
      onFiles (.replace temporary target))
    fun failure => do
      onFiles (.remove temporary)
      throw failure

/-- Fetches the text at an address. -/
def fetchText (d : Downloader) (url : String) : HostM FetchFault String :=
  recast (fun failure => .ofFailure url failure.isRequest failure)
    (retrying (d.textAttempt url) pauses)

/-- Fetches what is at an address into a file; directories that are missing on the way are
made. -/
def fetchFile (d : Downloader) (url : String) (target : FilePath) : HostM FetchFault Unit := do
  recast (fun failure => .ofFailure url (failure.isRequest || failure.kind = .system) failure)
    (do
      onFiles (.makeDirectories target.parent)
      retrying (d.fileAttempt url target) pauses)
  say .info ("Downloaded " ++ url ++ " -> " ++ toString target)

/-- Closes the client. -/
def close (_ : Downloader) : HostM ε Unit :=
  record fun j => { j with closings := j.closings + 1 }

end Downloader

end PointElevation
