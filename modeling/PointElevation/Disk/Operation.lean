import PointElevation.Disk.Access

/-!
# Operations as data

The operations that change a disk, named with what they are given, so that a journal can keep them.
A `FileEvent` is one use of an operation, together with the disk that it found; what it answered,
what it left, and whether it was refused all follow from these two.
-/

namespace PointElevation

/-- The operations that change a disk. -/
inductive FileOperation where
  | makeDirectories (path : FilePath)
  | createTemporary (path : FilePath)
  | append (place : Location) (bytes : ByteArray)
  | replace (place : Location) (path : FilePath)
  | remove (place : Location)
  | removeTree (path : FilePath)

namespace FileOperation

/-- What an operation answers. -/
abbrev Result : FileOperation → Type
  | createTemporary _ => Location
  | _ => Unit

/-- What an operation does. -/
def run : (o : FileOperation) → DiskM o.Result
  | makeDirectories path => Disk.makeDirectories path
  | createTemporary path => Disk.createTemporary path
  | append place bytes => Disk.append place bytes
  | replace place path => Disk.replace place path
  | remove place => Disk.remove place
  | removeTree path => Disk.removeTree path

end FileOperation

/-- An operation on a disk. -/
structure FileEvent where
  operation : FileOperation
  before : Disk

/-- The disk after it, whether or not it was refused. -/
def FileEvent.after (e : FileEvent) : Disk :=
  match e.operation.run e.before with
  | .ok _ d => d
  | .error _ d => d

end PointElevation
