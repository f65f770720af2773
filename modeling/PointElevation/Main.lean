import PointElevation.Server.Launch
import PointElevation.Server.Session

/-!
# The program

Reads the environment and the command line, says how the server is reached, and answers calls on
standard streams until the input ends.  There is no client for the network in this program: heights
come from the tiles that are in the cache directory when it starts, and every other address counts
as one that cannot be reached.  For the same reason it does not serve an address.
-/

namespace PointElevation.Program

open PointElevation.Host
open PointElevation.Server

/-- The content of a file, if it can be read. -/
def readFile? (name : String) : IO (Option ByteArray) := do
  try
    let bytes ← IO.FS.readBinFile name
    pure (some bytes)
  catch _ => pure none

/-- The variables that the server looks at. -/
def variableNames : List String :=
  [Settings.directoryVariable, Settings.timeoutVariable, Settings.autoRemoveVariable,
   streamsVariable, disablingVariable]

/-- The environment, completed by the file of settings if there is one. -/
def environment : IO (Except LoadFault Environment) := do
  let mut found : Environment := []
  for name in variableNames do
    if let some value ← IO.getEnv name then found := found ++ [(name, value)]
  match ← readFile? ".env" with
  | some bytes => pure (found.load (Text.decodeUtf8 bytes))
  | none => pure (.ok found)

/-- The disk after an operation, whether it succeeded or not. -/
def diskAfter (operation : DiskM Unit) (disk : Disk) : Disk :=
  match operation disk with
  | .ok _ disk | .error _ disk => disk

/-- Copies a file of the cache directory to the disk that the service works on. -/
def copyFile (disk : Disk) (path : FilePath) : IO Disk := do
  match ← readFile? (toString path) with
  | some bytes => pure { disk with tree := disk.tree.insert path.names (.file bytes) }
  | none => pure disk

/-- The files of a cache directory: the listing and the tiles that it names. -/
def loadCache (p : Provider) (disk : Disk) : IO Disk := do
  match ← readFile? (toString p.index.mappingFile) with
  | none => pure disk
  | some bytes =>
      let mut loaded ← copyFile (diskAfter (Disk.makeDirectories p.directory) disk)
        p.index.mappingFile
      for (_, url) in (Listing.ofText (Text.decodeAscii bytes)).toSortedList do
        loaded ← copyFile loaded (tileFile p.directory url)
      pure loaded

/-- A host whose disk has nothing but a work directory. -/
def bareHost (workDirectory : FilePath) : Host :=
  ⟨diskAfter (Disk.makeDirectories workDirectory) ⟨∅, some workDirectory.names⟩, default, ∅⟩

/-- Writes the messages of the log to the error stream and forgets them. -/
def flushLog (s : Service) : IO Service := do
  for message in s.host.journal.messages do
    IO.eprintln message.text
  pure { s with host := { s.host with journal := ∅ } }

/-- Answers every line of the input. -/
partial def serve (s : Service) : IO Service := do
  let line ← (← IO.getStdin).getLine
  if line.isEmpty then pure s
  else
    let (answer, s) := (answerLine line).run s
    IO.println answer
    (← IO.getStdout).flush
    serve (← flushLog s)

/-- Runs the server and releases its provider. -/
def run (l : Launch) (p : Provider) (host : Host) : IO UInt32 := do
  IO.eprintln l.banner
  match l.transport with
  | .address _ _ =>
      IO.eprintln "serving an address is not supported"
      pure 1
  | .streams =>
      let host := { host with disk := ← loadCache p host.disk }
      let s ← serve ⟨p, host⟩
      match Service.release s with
      | .ok _ s | .error _ s =>
          let _ ← flushLog s
          pure 0

end PointElevation.Program

open PointElevation PointElevation.Server

/-- Ends the program with a message. -/
def Program.fail (message : String) : IO UInt32 := do
  IO.eprintln message
  pure 1

/-- Starts the server that the command line and the environment ask for. -/
def main (arguments : List String) : IO UInt32 := do
  match ← Program.environment with
  | .error fault => Program.fail fault.message
  | .ok environment =>
      let workDirectory := FilePath.ofString (toString (← IO.currentDir))
      match makeProvider environment (Program.bareHost workDirectory) with
      | .error fault _ => Program.fail fault.message
      | .ok p host =>
          let s ← Program.flushLog ⟨p, host⟩
          let isTerminal ← (← IO.getStdin).isTty
          match start arguments environment isTerminal with
          | .error .help =>
              IO.println helpText
              pure 0
          | .error halt =>
              IO.eprintln usageLine
              IO.eprintln halt.text
              pure halt.status.toUInt32
          | .ok launch => Program.run launch s.provider s.host
