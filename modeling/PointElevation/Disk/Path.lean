import PointElevation.Text.Field

/-!
# Paths

A path is a list of names from a starting point, the root or the work directory.  Empty names and
the name of one dot say nothing and are left out when a path is read; two dots stay, for what they
mean depends on the directories.  `FilePath.resolve` takes them out where no link can stand in the
way, and gives the path from the root.
-/

namespace PointElevation

open PointElevation.Text (fields join)

/-- Names from the root down, without dots. -/
abbrev Location := List String

/-- A path as it is written. -/
structure FilePath where
  rooted : Bool
  names : List String
deriving DecidableEq, Repr, Inhabited

namespace FilePath

/-- Whether a name says anything. -/
def isName (name : String) : Bool := name ≠ "" && name ≠ "."

/-- The names in a text. -/
def namesIn (text : String) : List String :=
  ((fields '/' text.toList).map String.ofList).filter isName

/-- Reads a path. -/
def ofString (text : String) : FilePath := ⟨text.startsWith "/", namesIn text⟩

/-- Writes a path; the work directory is a dot. -/
def toString (p : FilePath) : String :=
  let body := "/".intercalate p.names
  if p.rooted then "/" ++ body else if p.names.isEmpty then "." else body

instance : ToString FilePath := ⟨toString⟩

/-- The path from the root to a location. -/
def ofLocation (l : Location) : FilePath := ⟨true, l⟩

/-- The last name, empty at the start. -/
def name (p : FilePath) : String := p.names.getLast?.getD ""

/-- The directory that a path lies in. -/
def parent (p : FilePath) : FilePath := { p with names := p.names.dropLast }

/-- The path of a name in a directory. -/
def child (p : FilePath) (name : String) : FilePath := { p with names := p.names ++ namesIn name }

/-- Follows one name without looking at the disk. -/
def follow (l : Location) (name : String) : Location :=
  if name = ".." then l.dropLast else l ++ [name]

/-- The location that a path leads to from where it starts. -/
def resolve (p : FilePath) (start : Location) : Location := (start ++ p.names).foldl follow []

/-- A name that no file can have. -/
def hasIllegalName (p : FilePath) : Bool := p.names.any fun name => '\x00' ∈ name.toList

/-- No dots are left where a path leads. -/
theorem dots_notMem_resolve (p : FilePath) (start : Location) : ".." ∉ p.resolve start := by
  have hfold : ∀ (names : List String) (l : Location), ".." ∉ l → ".." ∉ names.foldl follow l := by
    intro names
    induction names with
    | nil => exact fun _ hl => hl
    | cons name rest ih =>
        intro l hl
        refine ih _ ?_
        unfold follow
        split
        · exact fun hmem => hl ((List.dropLast_sublist l).subset hmem)
        · rename_i hname
          simp [hl, Ne.symm hname]
  exact hfold _ _ (by simp)

end FilePath

end PointElevation
