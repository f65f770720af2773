import PointElevation.Disk.Tree
import PointElevation.Text.Quoted

/-!
# Working with files

A disk is a tree of files and a work directory, where relative paths start; once that directory has
been removed they start nowhere, even if another one takes its place.  Following a path needs a
directory at every step; an operation that fails leaves the disk as far as it had come, which is
nothing but further directories for `makeDirectories` and nothing at all for the others.

A file is replaced by way of a temporary sibling, made by `createTemporary` under a name that no
file has, filled by `append`, and moved by `replace`.
-/

namespace PointElevation

open PointElevation.Text (quoted)

/-- Why the disk refuses something. -/
inductive Obstacle where
  | notFound
  | occupied
  | notDirectory
  | isDirectory
  | nameTooLong
deriving DecidableEq, Repr

/-- The number by which systems know an obstacle. -/
def Obstacle.code : Obstacle → Nat
  | .notFound => 2
  | .occupied => 17
  | .notDirectory => 20
  | .isDirectory => 21
  | .nameTooLong => 36

def Obstacle.text : Obstacle → String
  | .notFound => "No such file or directory"
  | .occupied => "File exists"
  | .notDirectory => "Not a directory"
  | .isDirectory => "Is a directory"
  | .nameTooLong => "File name too long"

/-- What went wrong with which path. -/
inductive DiskFault where
  | refused (obstacle : Obstacle) (path : FilePath)
  | illegalName
deriving DecidableEq, Repr

def DiskFault.message : DiskFault → String
  | .refused obstacle path =>
      "[Errno " ++ toString obstacle.code ++ "] " ++ obstacle.text ++ ": " ++ quoted path.toString
  | .illegalName => "embedded null byte"

/-- The longest name that a file can have, in bytes. -/
def maxNameBytes : Nat := 255

/-- The longest path that can be followed, in bytes. -/
def maxPathBytes : Nat := 4095

/-- A tree of files, and where relative paths start. -/
structure Disk where
  tree : FileTree
  workDirectory : Option Location
deriving Inhabited

/-- An operation that may change the disk. -/
abbrev DiskM := EStateM DiskFault Disk

/-- One step from a directory to a name in it, which need not exist. -/
def FileTree.enter (t : FileTree) (l : Location) (name : String) : Except Obstacle Location :=
  match t.get? l with
  | some .directory =>
      if name = ".." then .ok l.dropLast
      else if maxNameBytes < name.utf8ByteSize then .error .nameTooLong
      else .ok (l ++ [name])
  | some (.file _) => .error .notDirectory
  | none => .error .notFound

/-- A chain of steps. -/
def FileTree.walk (t : FileTree) (l : Location) (names : List String) :
    Except Obstacle Location := names.foldlM t.enter l

/-- Eight digits. -/
def temporaryTag (n : Nat) : String :=
  let digits := Nat.toDigits 10 n
  String.ofList (List.replicate (8 - digits.length) '0' ++ digits)

/-- The name of a temporary sibling. -/
def temporaryName (name : String) (n : Nat) : String :=
  "." ++ name ++ "." ++ temporaryTag n ++ ".part"

/-- The first of the temporary siblings of a path that does not exist.  One of the numbers up to
the count of files is free. -/
def FileTree.freshSibling? (t : FileTree) (directory : Location) (name : String) :
    Option Location :=
  ((List.range (t.nodes.length + 1)).map fun n => directory ++ [temporaryName name n]).find?
    fun l => (t.get? l).isNone

namespace Disk

/-- A path that can be followed at all. -/
def checkPath (p : FilePath) : Except DiskFault Unit :=
  if p.hasIllegalName then .error .illegalName
  else if maxPathBytes < p.toString.utf8ByteSize then .error (.refused .nameTooLong p)
  else .ok ()

/-- Where a path starts. -/
def start (d : Disk) (p : FilePath) : Except DiskFault Location :=
  if p.rooted then .ok []
  else
    match d.workDirectory with
    | some l => .ok l
    | none => .error (.refused .notFound p)

/-- The location that a path leads to; only the directories on the way have to exist. -/
def locate (d : Disk) (p : FilePath) : Except DiskFault Location := do
  checkPath p
  match d.tree.walk (← d.start p) p.names with
  | .ok l => .ok l
  | .error obstacle => .error (.refused obstacle p)

/-- What a path leads to, if to anything. -/
def find (d : Disk) (p : FilePath) : Except DiskFault (Option Node) :=
  match d.locate p with
  | .ok l => .ok (d.tree.get? l)
  | .error (.refused .nameTooLong path) => .error (.refused .nameTooLong path)
  | .error _ => .ok none

/-- Whether there is anything at a path. -/
def exists? (d : Disk) (p : FilePath) : Except DiskFault Bool := (d.find p).map Option.isSome

/-- The content of the file at a path. -/
def read (d : Disk) (p : FilePath) : Except DiskFault ByteArray :=
  match d.locate p with
  | .error fault => .error fault
  | .ok l =>
      match d.tree.get? l with
      | some (.file content) => .ok content
      | some .directory => .error (.refused .isDirectory p)
      | none => .error (.refused .notFound p)

/-! ## Operations that change the disk -/

/-- Changes the tree of files. -/
def modifyTree (change : FileTree → FileTree) : DiskM Unit :=
  modify fun d => { d with tree := change d.tree }

/-- Refuses an operation on a path. -/
def refuse (obstacle : Obstacle) (p : FilePath) : DiskM α := throw (.refused obstacle p)

/-- One step to a name, where a directory is made if nothing is there. -/
def enterOrMake (p : FilePath) (l : Location) (name : String) : DiskM Location := do
  let tree := (← get).tree
  match tree.enter l name with
  | .error obstacle => refuse obstacle p
  | .ok next =>
      match tree.get? next with
      | some .directory => pure next
      | some (.file _) => refuse .occupied p
      | none =>
          modifyTree (·.insert next .directory)
          pure next

/-- Answers a question about the disk, or ends with its fault. -/
def ask (question : Except DiskFault α) : DiskM α :=
  match question with
  | .ok a => pure a
  | .error fault => throw fault

/-- Makes a directory and all that are missing on the way to it. -/
def makeDirectories (p : FilePath) : DiskM Unit := do
  ask (checkPath p)
  let start ← ask ((← get).start p)
  let _ ← p.names.foldlM (enterOrMake p) start

/-- Makes an empty file next to a path. -/
def createTemporary (p : FilePath) : DiskM Location := do
  let first := temporaryName p.name 0
  ask (checkPath (p.parent.child first))
  let d ← get
  let directory ← ask (d.locate p.parent)
  match d.tree.enter directory first with
  | .error obstacle => refuse obstacle p
  | .ok _ =>
      match d.tree.freshSibling? directory p.name with
      | none => refuse .occupied p
      | some l =>
          modifyTree (·.insert l (.file .empty))
          pure l

/-- Adds bytes to a file. -/
def append (l : Location) (bytes : ByteArray) : DiskM Unit :=
  modifyTree fun t =>
    match t.get? l with
    | some (.file content) => t.insert l (.file (content ++ bytes))
    | _ => t

/-- Removes a file if it is there. -/
def remove (l : Location) : DiskM Unit := modifyTree (·.erase l)

/-- Moves a file to a path, in the place of a file that may be there. -/
def replace (l : Location) (p : FilePath) : DiskM Unit := do
  let d ← get
  let target ← ask (d.locate p)
  match d.tree.get? target with
  | some .directory => refuse .isDirectory p
  | _ =>
      match d.tree.get? l with
      | some node => modifyTree fun t => (t.erase l).insert target node
      | none => refuse .notFound p

/-- The disk without a location and everything below it. -/
def without (d : Disk) (l : Location) : Disk where
  tree := d.tree.eraseTree l
  workDirectory := d.workDirectory.filter fun work => !l.isPrefixOf work

/-- Removes a directory with everything in it. -/
def removeTree (p : FilePath) : DiskM Unit := do
  let d ← get
  let l ← ask (d.locate p)
  match d.tree.get? l with
  | some .directory => set (d.without l)
  | some (.file _) => refuse .notDirectory p
  | none => refuse .notFound p

end Disk

end PointElevation
