import PointElevation.Disk.Operation
import PointElevation.Host.Network

/-!
# The host

Everything that the service works on outside its own memory: a disk, a network, and a journal of
what was said, asked, and done to files.  Operations are functions on the host that end in a value
or in a fault, and in both cases in a host, so effects of an operation that fails are kept.
-/

namespace PointElevation

/-- How much a message of the log matters. -/
inductive Level where
  | debug
  | info
  | warning
  | error
deriving DecidableEq, Repr

/-- A message of the log. -/
structure Message where
  level : Level
  text : String
deriving DecidableEq, Repr

/-- A request for an address: whether the body is taken piece by piece, and how long the answer
may take, in seconds. -/
structure Request where
  url : String
  streamed : Bool
  timeout : Float

/-- What happened, in order. -/
structure Journal where
  messages : List Message
  requests : List Request
  /-- pauses before further attempts, in seconds -/
  pauses : List Float
  /-- how often a client was closed -/
  closings : Nat
  /-- operations on files, refused ones included -/
  files : List FileEvent

instance : EmptyCollection Journal := ⟨⟨[], [], [], 0, []⟩⟩

/-- Disk, network and journal. -/
structure Host where
  disk : Disk
  network : Network
  journal : Journal

/-- An operation on the host. -/
abbrev HostM (ε : Type) := EStateM ε Host

/-- The failure of a host whose disk refuses something. -/
def Failure.ofDisk (fault : DiskFault) : Failure where
  kind :=
    match fault with
    | .refused _ _ => .system
    | .illegalName => .illegalName
  text := fault.message

namespace Host

/-- The host with a message more in its log. -/
def note (h : Host) (level : Level) (text : String) : Host :=
  { h with journal := { h.journal with messages := h.journal.messages ++ [⟨level, text⟩] } }

/-- Adds a message to the log. -/
def say (level : Level) (text : String) : HostM ε Unit := modify (·.note level text)

/-- Adds to the journal. -/
def record (entry : Journal → Journal) : HostM ε Unit :=
  modify fun h => { h with journal := entry h.journal }

/-- The host with more in its journal about files. -/
def filed (h : Host) (events : List FileEvent) : Host :=
  { h with journal := { h.journal with files := h.journal.files ++ events } }

/-- An operation on the disk, of which the journal takes no note.  The service works on files by
`onFiles` only. -/
def onDisk (operation : DiskM α) : HostM Failure α := fun h =>
  match operation h.disk with
  | .ok a disk => .ok a { h with disk := disk }
  | .error fault disk => .error (.ofDisk fault) { h with disk := disk }

/-- An operation on files, which the journal keeps whether or not it is refused. -/
def onFiles (o : FileOperation) : HostM Failure o.Result := fun h =>
  onDisk o.run (h.filed [⟨o, h.disk⟩])

/-- A question about the disk. -/
def askDisk (question : Disk → Except DiskFault α) : HostM Failure α := fun h =>
  match question h.disk with
  | .ok a => .ok a h
  | .error fault => .error (.ofDisk fault) h

/-- Waits before another attempt. -/
def pause (seconds : Float) : HostM ε Unit :=
  record fun j => { j with pauses := j.pauses ++ [seconds] }

/-- Sends a request and takes the reply. -/
def send (r : Request) : HostM ε Reply := do
  record fun j => { j with requests := j.requests ++ [r] }
  let h ← get
  let (reply, network) := h.network.next r.url
  set { h with network := network }
  pure reply

/-! ## Fitting operations together -/

/-- Runs an operation whose faults are of another sort. -/
def recast (f : ε → ε') (operation : EStateM ε σ α) : EStateM ε' σ α := fun s =>
  match operation s with
  | .ok a s => .ok a s
  | .error fault s => .error (f fault) s

/-- Runs an operation to its end and hands its outcome on; this itself has no faults. -/
def outcome {ε ε' σ α : Type} (operation : EStateM ε σ α) : EStateM ε' σ (Except ε α) := fun s =>
  match operation s with
  | .ok a s => .ok (.ok a) s
  | .error fault s => .ok (.error fault) s

/-- Runs an operation on a part of the state. -/
def onPart (part : σ → τ) (update : σ → τ → σ) (operation : EStateM ε τ α) : EStateM ε σ α :=
  fun s =>
    match operation (part s) with
    | .ok a t => .ok a (update s t)
    | .error fault t => .error fault (update s t)

end Host

end PointElevation
