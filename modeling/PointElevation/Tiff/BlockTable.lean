import PointElevation.Tiff.Directory

/-!
# Tables of blocks

Two fields of a directory are tables with a number for each block: where it begins, and how large
it is.  They may be long, so they are read as late as possible.  While they are on demand, a number
of a table with more than a few entries is read alone, together with its neighbourhood in the file
(`Tables.alone?`).  The first question to a table with fewer entries reads both tables whole
(`Tables.complete`), and from then on they are in memory.

A question is always answered.  Where a table cannot be read, its numbers are zero; `Entry.sound`
says whether that has happened, since it matters only for blocks that are then missing.
-/

namespace PointElevation.Tiff

/-- The two tables. -/
inductive TableName where
  | places
  | sizes
deriving DecidableEq, Repr

/-- The tables of a file. -/
inductive Tables where
  /-- the fields that hold them, and how many blocks there are -/
  | onDemand (places sizes : Field) (blocks : Nat)
  /-- both have been read, as far as possible -/
  | whole (places sizes : Option (Array Nat))

/-- What a table says about a block, and whether the tables could be read. -/
structure Entry where
  number : Nat
  sound : Bool
deriving DecidableEq, Repr

/-- A table with at most so many entries is not read piece by piece. -/
def shortTable : Nat := 4

/-- No table is filled up to more than this many entries. -/
def longestFilled : Nat := 1000000

/-- The bytes that are read together. -/
def pageSize : Nat := 4096

namespace Directory

variable (d : Directory) (data : ByteArray)

/-- The numbers of a table, filled up with zeros where there are too few of them. -/
def table? (blocks : Nat) (f : Field) : Option (Array Nat) :=
  if f.count < blocks ∧ longestFilled < blocks then none
  else
    let kept := min f.count blocks
    match d.numbers data (Nat.pow 2 64) { f with count := kept } with
    | .ok numbers => some (numbers.toArray ++ Array.replicate (blocks - kept) 0)
    | .error _ => none

end Directory

namespace Tables

variable (d : Directory) (data : ByteArray)

/-- Reads both tables.  Without places, neither is read. -/
def complete (places sizes : Field) (blocks : Nat) : Option (Array Nat) × Option (Array Nat) :=
  if places.count = 0 then (none, none)
  else (d.table? data blocks places, d.table? data blocks sizes)

/-- Whether the values of a table can be read one by one. -/
def isPaged (t : ValueType) : Bool := t = ⟨.signed, 8⟩ || t.kind = .unsigned && 2 ≤ t.width

/-- The end of what is read for the value at an index: the page that the value ends in, but not
more than there are blocks. -/
def windowEnd (f : Field) (blocks i : Nat) : Nat :=
  let last := f.place + f.type.width * i + f.type.width - 1
  min ((last / pageSize + 1) * pageSize) (f.place + f.type.width * blocks)

/-- The number at an index of a table that is not read whole. -/
def alone? (f : Field) (blocks i : Nat) : Option Nat :=
  if i < f.count && isPaged f.type && windowEnd f blocks i ≤ data.size then
    some (d.valueBits data f i)
  else none

/-- The table with a name. -/
def pick (name : TableName) (places sizes : α) : α :=
  match name with
  | .places => places
  | .sizes => sizes

/-- The number of a block in a table, zero where there is none. -/
def numberIn (table : Option (Array Nat)) (block : Nat) : Nat := (table.getD #[]).getD block 0

/-- What a table says about a block, and the tables after the question. -/
def entry (name : TableName) (block : Nat) : Tables → Entry × Tables
  | .onDemand places sizes blocks =>
      let own := pick name places sizes
      if own.count ≤ shortTable then
        let (p, s) := complete d data places sizes blocks
        (⟨numberIn (pick name p s) block, p.isSome && s.isSome⟩, .whole p s)
      else
        match alone? d data own blocks block with
        | some number => (⟨number, true⟩, .onDemand places sizes blocks)
        | none => (⟨0, false⟩, .onDemand places sizes blocks)
  | .whole p s => (⟨numberIn (pick name p s) block, p.isSome && (pick name p s).isSome⟩, .whole p s)

end Tables

end PointElevation.Tiff
