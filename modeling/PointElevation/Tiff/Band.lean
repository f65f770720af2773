import PointElevation.Raster
import PointElevation.Tiff.Image
import PointElevation.Tiff.SideFile

/-!
# Reading a band

`Image.bandBlocks` finds the blocks of a band and checks that they lie in the file, and `read` puts
everything together: a raster with all rows and columns that the file declares, or the reason why
there is none.

A block of size zero is not stored, and its samples are those for missing data; then its place and
its size have to be known for sure.  Any other block begins at its place, or at the beginning of the
file if that is not known.  Where all rows of a block are asked for at once, its size follows from
the layout, and what the file says about it is not looked at; a tile of which fewer rows are asked
for, and a tall strip, which is read row by row, have to be as large as the file says, and that has
to be enough.  Nothing is read from beyond the end.
-/

namespace PointElevation.Tiff

open PointElevation.Number (Single)

/-- Where the samples of a block are. -/
inductive Block where
  | stored (place : Nat)
  | missing
deriving DecidableEq, Repr, Inhabited

namespace Image

/-- Larger sizes are not believed where they are far from that of a full block. -/
def believedSize : Nat := Nat.pow 2 20

/-- The bytes that are read of a block with a declared size. -/
def readSize (full size : Nat) : Nat :=
  if believedSize < size ∧ full < (size - 4096) / 10 then 10 * full + 4096 else size

/-- The declared size of a block has to be right, since it is not read in one piece. -/
def isSizeTrusted (l : Layout) (block : Nat) : Bool :=
  l.isTall || l.filled && l.askedSize block ≠ l.fullSize

/-- A block of a plane, once its place and its size are known. -/
def blockOf (l : Layout) (data : ByteArray) (block : Nat) (place size : Entry) :
    Except Defect Block :=
  let asked := l.askedSize block
  if size.number = 0 ∧ !l.isTall then
    if size.sound && place.sound then .ok .missing else .error .truncated
  else
    let needed := if isSizeTrusted l block then readSize l.fullSize size.number else asked
    let enough := !isSizeTrusted l block || asked ≤ size.number
    if enough && place.number + needed ≤ data.size then .ok (.stored place.number)
    else .error .truncated

/-- Finds blocks, `count` of them from a block on, behind those that are found. -/
def findBlocks (image : Image) (data : ByteArray) (first : Nat) :
    Nat → Tables → Array Block → Except Defect (Array Block)
  | 0, _, found => .ok found
  | count + 1, tables, found =>
      let block := found.size
      let (size, tables) := tables.entry image.directory data .sizes (first + block)
      let (place, tables) := tables.entry image.directory data .places (first + block)
      match blockOf image.layout data block place size with
      | .ok b => findBlocks image data first count tables (found.push b)
      | .error defect => .error defect

/-- The blocks of a band. -/
def bandBlocks (image : Image) (data : ByteArray) (band : Nat) : Except Defect (Array Block) :=
  let l := image.layout
  image.findBlocks data (l.firstBlock band) l.blocksPerPlane image.tables #[]

/-- Every block that is looked for is found, or there is a fault. -/
theorem size_findBlocks {image : Image} {data : ByteArray} {first count : Nat} {tables : Tables}
    {found blocks : Array Block}
    (h : image.findBlocks data first count tables found = .ok blocks) :
    blocks.size = found.size + count := by
  induction count generalizing tables found with
  | zero =>
    cases h
    rfl
  | succ count ih =>
    unfold findBlocks at h
    dsimp only at h
    split at h
    · have := ih h
      rw [Array.size_push] at this
      omega
    · cases h

/-- The blocks of a band are as many as cover the raster once. -/
theorem size_bandBlocks {image : Image} {data : ByteArray} {band : Nat} {blocks : Array Block}
    (h : image.bandBlocks data band = .ok blocks) :
    blocks.size = image.layout.blocksPerPlane := by
  have := size_findBlocks h
  simpa using this

/-- The sample of a band at a pixel. -/
def sampleAt (image : Image) (data : ByteArray) (noData : NoData) (blocks : Array Block)
    (band row column : Nat) : Single :=
  let l := image.layout
  noData.apply
    (match blocks.getD (l.blockOf row column) .missing with
    | .missing => noData.filler
    | .stored place =>
        l.sample.toSingle
          (l.sample.bitsOf image.directory.order data
            (place * 8 + l.placeInBlock band row column)))

/-- The raster of a band. -/
def raster (image : Image) (data : ByteArray) (noData : NoData) (blocks : Array Block)
    (band : Nat) : Raster :=
  Raster.ofFn image.layout.rows image.layout.columns (image.sampleAt data noData blocks band)

end Image

/-- The heights in a band of a file, bands counted from zero.  `side` is the file of notes beside
it. -/
def read (data : ByteArray) (side : Option String) (band : Int) : Except Defect Raster := do
  let directory ← readDirectory data
  let image ← Image.ofDirectory data directory
  if band < 0 ∨ image.layout.bands ≤ band then .error (.bandOutOfRange band)
  else
    let band := band.toNat
    let blocks ← image.bandBlocks data band
    let pixels := if image.bitsReversed then reverseBitOrder data else data
    let note := side.bind fun text => noDataNote? text band
    .ok (image.raster pixels (image.noData note) blocks band)

end PointElevation.Tiff
