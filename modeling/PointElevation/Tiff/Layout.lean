import PointElevation.Tiff.Sample

/-!
# Where a sample lies

A file cuts its raster into blocks of equal width and height, row after row of blocks.  Strips are
blocks as wide as the raster, and the last of them ends with the raster; tiles keep their full
size at the edges and are filled up there.  The bands of a pixel stand together in one block, or
every band has blocks of its own, those of the first band before those of the second.  Every row of
a block begins with a byte of its own.

All functions here are arithmetic on a `Layout`; where the blocks are in the file does not matter
yet.
-/

namespace PointElevation.Tiff

/-- How samples are spread over blocks. -/
structure Layout where
  rows : Nat
  columns : Nat
  bands : Nat
  sample : SampleType
  blockRows : Nat
  blockColumns : Nat
  /-- blocks at the lower edge keep their full height -/
  filled : Bool
  /-- the bands of a pixel stand together -/
  interleaved : Bool
deriving DecidableEq, Repr

namespace Layout

/-- How many blocks lie side by side. -/
def blocksAcross (l : Layout) : Nat := (l.columns + l.blockColumns - 1) / l.blockColumns

/-- How many rows of blocks there are. -/
def blocksDown (l : Layout) : Nat := (l.rows + l.blockRows - 1) / l.blockRows

/-- The number of blocks that cover the raster once. -/
def blocksPerPlane (l : Layout) : Nat := l.blocksAcross * l.blocksDown

/-- The number of all blocks. -/
def blockCount (l : Layout) : Nat :=
  if l.interleaved then l.blocksPerPlane else l.bands * l.blocksPerPlane

/-- The raster is one strip with all bands in it. -/
def isSingleStrip (l : Layout) : Bool := !l.filled && l.blockCount == 1

/-- A strip with more rows is not read in one piece. -/
def tallRows : Nat := 2000

/-- The bands are strips of the height of the raster that are read row by row. -/
def isTall (l : Layout) : Bool := !l.filled && l.blockRows == l.rows && decide (tallRows < l.rows)

/-- The raster is one block, or one for each of the bands. -/
def isUncut (l : Layout) : Bool := l.blockCount == if l.interleaved then 1 else l.bands

/-- Samples that stand together at one pixel of a block. -/
def pixelSamples (l : Layout) : Nat := if l.interleaved then l.bands else 1

/-- Which of the samples at a pixel belongs to a band. -/
def sampleOfBand (l : Layout) (band : Nat) : Nat := if l.interleaved then band else 0

/-- The first of the blocks that hold a band. -/
def firstBlock (l : Layout) (band : Nat) : Nat :=
  if l.interleaved then 0 else band * l.blocksPerPlane

/-- Bytes of a row of a block. -/
def rowSize (l : Layout) : Nat := (l.blockColumns * l.pixelSamples * l.sample.bits + 7) / 8

/-- Bytes of a block of full height. -/
def fullSize (l : Layout) : Nat := l.blockRows * l.rowSize

/-- Rows that are asked for in a row of blocks.  Where the blocks reach past the raster, as many
rows are left out as the blocks that far have rows beyond a multiple of those of the raster; for a
strip, that leaves the rows that it has. -/
def askedRows (l : Layout) (blockRow : Nat) : Nat :=
  let reached := (blockRow + 1) * l.blockRows
  if l.rows < reached then l.blockRows - reached % l.rows else l.blockRows

/-- Bytes that are asked for of a block, counted within its plane. -/
def askedSize (l : Layout) (block : Nat) : Nat := l.askedRows (block / l.blocksAcross) * l.rowSize

/-- The block of a pixel, counted within its plane. -/
def blockOf (l : Layout) (row column : Nat) : Nat :=
  row / l.blockRows * l.blocksAcross + column / l.blockColumns

/-- The place of a sample in its block, in bits. -/
def placeInBlock (l : Layout) (band row column : Nat) : Nat :=
  row % l.blockRows * l.rowSize * 8
    + (column % l.blockColumns * l.pixelSamples + l.sampleOfBand band) * l.sample.bits

end Layout

end PointElevation.Tiff
