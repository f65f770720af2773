import PointElevation.Tiff.BlockTable
import PointElevation.Tiff.Layout
import PointElevation.Tiff.NoData

/-!
# What the directory says about the pixels

`Image.ofDirectory` collects it: the layout of the samples, the tables of blocks, and the text for
missing data.  Fields are looked at in the order in which they matter, first those that say what
the others mean, then those about the shape, then those about the samples, so that of several faults
the first one in this order is reported.

The only strip of a raster is special.  Its place and size are checked against the file, and if its
size cannot be right, it is taken from the layout (`Tables.settled`).  A large one is cut into
pieces of about eight kilobytes (`Layout.pieces`), which then are blocks like any others.
-/

namespace PointElevation.Tiff

/-! ## Fields about the shape -/

namespace Directory

variable (d : Directory) (data : ByteArray)

/-- Checks the fields one after the other. -/
def checkFields (check : Field → Except FieldFault Unit) : Except Defect Unit :=
  d.fields.forM fun f => (check f).mapError (.field f.tag)

/-- The number of bands. -/
def bands : Except Defect Nat :=
  d.valueOr bandsTag 1 fun f => do
    let n ← d.number data shortBound f
    if n = 0 then throw (.value n)
    pure n

/-- What the samples of a pixel may be that are no colours. -/
def isFurtherKind (n : Nat) : Bool := n ≤ 2 || n = 999

/-- A field about the shape has to make sense, whether it is needed or not. -/
def checkShape (bands : Nat) (f : Field) : Except FieldFault Unit := do
  if f.tag ∈ [columnsTag, rowsTag, tileColumnsTag, tileRowsTag] then
    discard (d.number data longBound f)
  else if f.tag = stripRowsTag then
    if (← d.number data longBound f) = 0 then throw (.value 0)
  else if f.tag = arrangementTag then
    let n ← d.number data shortBound f
    if n ≠ 1 ∧ n ≠ 2 then throw (.value n)
  else if f.tag = furtherSamplesTag then
    if shortBound ≤ f.count then throw .count
    let kinds ← d.numbers data shortBound f
    if bands < f.count ∨ !kinds.all isFurtherKind then throw (.value f.count)

/-- A number of rows or columns. -/
def extent (tag default : Nat) : Nat := d.valueOrIgnored tag default (d.number data longBound)

/-- The raster is cut into tiles. -/
def isTiled : Bool := (d.field? tileColumnsTag).isSome || (d.field? tileRowsTag).isSome

/-- The bands of a pixel stand together. -/
def isInterleaved : Bool := d.valueOrIgnored arrangementTag 1 (d.number data shortBound) = 1

/-- The rows of a strip that is not the last, as many as can be if nothing is said. -/
def stripRows : Nat := d.extent data stripRowsTag (longBound - 1)

/-- Rows and columns of the raster, as signed numbers of four bytes; there have to be some. -/
def rasterShape : Except Defect (Nat × Nat) :=
  if (d.field? rowsTag).isNone && (d.field? columnsTag).isNone then
    .error (.field rowsTag .missing)
  else
    let rows := d.extent data rowsTag 0
    let columns := d.extent data columnsTag 0
    if 0 < rows ∧ rows < Nat.pow 2 31 ∧ 0 < columns ∧ columns < Nat.pow 2 31 then
      .ok (rows, columns)
    else .error .shapeless

/-- Rows and columns of a block. -/
def blockShape (rows columns : Nat) : Except Defect (Nat × Nat) :=
  if d.isTiled then
    let tileRows := d.extent data tileRowsTag 0
    let tileColumns := d.extent data tileColumnsTag 0
    if 0 < tileRows ∧ tileRows < Nat.pow 2 31 ∧ 0 < tileColumns ∧ tileColumns < Nat.pow 2 31 then
      .ok (tileRows, tileColumns)
    else .error .shapeless
  else .ok (min (d.stripRows data) rows, columns)

/-! ## Fields about the samples -/

/-- A field with a number of any sort for each band. -/
def checkValues (bands : Nat) (f : Field) : Except FieldFault Unit :=
  if f.count ≠ bands then .error .count
  else if !f.type.isInteger && f.type.kind ≠ .fractional then .error .type
  else if !f.reaches data f.count then .error .outside
  else .ok ()

/-- A field about the samples has to make sense, whether it is needed or not. -/
def checkSamples (bands : Nat) (f : Field) : Except FieldFault Unit := do
  if f.tag ∈ [bitsTag, leastSampleTag, greatestSampleTag] then
    discard (d.shared data bands f)
  else if f.tag = sampleFormatTag then
    let n ← d.shared data bands f
    if n = 0 ∨ 6 < n then throw (.value n)
  else if f.tag = dataTypeTag then
    let n ← d.shared data bands f
    if 3 < n then throw (.value n)
  else if f.tag ∈ [leastValueTag, greatestValueTag] then checkValues data bands f

/-- The bits of a sample. -/
def sampleBits (bands : Nat) : Nat := d.valueOrIgnored bitsTag 1 (d.shared data bands)

/-- The code of a sample format for an older code. -/
def formatOfDataType : Nat → Nat
  | 0 => 4
  | 1 => 2
  | 2 => 1
  | n => n

/-- The code for how samples are to be read.  Two fields may give it, and the last one counts;
without them, samples are integers without sign. -/
def sampleCode (bands : Nat) : Nat :=
  match (d.fields.filter fun f => f.tag ∈ [sampleFormatTag, dataTypeTag]).getLast? with
  | none => 1
  | some f =>
      let n := d.valueOrIgnored f.tag 1 (d.shared data bands)
      if f.tag = dataTypeTag then formatOfDataType n else n

/-- The code for what the bands mean as colours. -/
def colours : Nat := d.valueOrIgnored coloursTag 0 (d.number data shortBound)

/-- There is a map of colours, read behind the bits of a sample, with three numbers for each
sample. -/
def hasColourMap (bits : Nat) : Bool :=
  match d.field? colourMapTag with
  | none => false
  | some f =>
      (d.fields.takeWhile fun g => g.tag ≠ colourMapTag).any (fun g => g.tag = bitsTag)
        && f.count = 3 * Nat.pow 2 bits
        && (d.numbers data shortBound f).toOption.isSome

/-- Small samples that stand for colours need a map of them. -/
def checkColourMap (bits : Nat) : Except Defect Unit :=
  if d.colours data = 3 ∧ bits < 8 ∧ !d.hasColourMap data bits then
    .error (.field colourMapTag .missing)
  else .ok ()

/-- Bands that are not heights but brightness and two differences of colours would have to be
converted.  Other bands with that code are read as they are, unless they stand together and their
number or their blocks do not go with it. -/
def checkColours (l : Layout) : Except Defect Unit :=
  let convertible := l.sample.bits ∈ [1, 2, 4, 8, 16] ∧ l.sample.kind ≠ .floating
  if d.colours data = 6 ∧ (convertible ∨ l.interleaved ∧ (l.bands = 3 ∨ !l.filled)) then
    .error (.unsupported coloursTag)
  else .ok ()

/-! ## Tables -/

/-- The last field with one of two tags. -/
def eitherField? (tag tag' : Nat) : Option Field :=
  (d.fields.filter fun f => f.tag == tag || f.tag == tag').getLast?

/-- The field with the places of blocks. -/
def placesField : Except Defect Field :=
  match d.eitherField? stripPlacesTag tilePlacesTag with
  | some f => .ok f
  | none => .error (.field (if d.isTiled then tilePlacesTag else stripPlacesTag) .missing)

/-- Both tables.  Only a raster that is not cut can do without sizes, which then follow from the
layout. -/
def tables (l : Layout) (places : Field) : Except Defect Tables :=
  match d.eitherField? stripSizesTag tileSizesTag with
  | some sizes => .ok (.onDemand places sizes l.blockCount)
  | none =>
      if !l.isUncut then .error (.field stripSizesTag .missing)
      else
        match if places.count = 0 then none else d.table? data l.blockCount places with
        | none => .error .truncated
        | some table => .ok (.whole (some table) (some (Array.replicate l.blockCount l.fullSize)))

/-- Whether the bits of every byte stand in reverse. -/
def bitsReversed : Bool := d.valueOrIgnored bitOrderTag 1 (d.number data shortBound) = 2

end Directory

/-! ## The only strip -/

/-- Whether the only strip cannot have the size that is declared: there is none, it ends behind the
file, or it is too small for the layout.  A strip without a place is believed. -/
def isBogus (fileSize place size needed : Nat) : Bool :=
  place ≠ 0 && (size = 0 || place ≤ fileSize && fileSize - place < size || size < needed)

/-- The tables of a raster with one strip, as they are after its place and its size have been
looked at. -/
def Tables.settled (d : Directory) (data : ByteArray) (needed : Nat) (t : Tables) : Tables :=
  let (size, t) := t.entry d data .sizes 0
  let (place, t) := t.entry d data .places 0
  let only (size : Nat) : Tables := .whole (some #[place.number]) (some #[size])
  if isBogus data.size place.number size.number needed then only needed
  else
    match t with
    | .onDemand .. => only size.number
    | .whole p s => .whole p s

/-- A strip is cut into pieces of at most so many bytes, or of one row. -/
def pieceSize : Nat := 8192

namespace Layout

/-- Rows of a piece of the only strip. -/
def pieceRows (l : Layout) : Nat := if l.rowSize ≤ pieceSize then pieceSize / max 1 l.rowSize else 1

/-- The layout with pieces for blocks. -/
def pieces (l : Layout) : Layout := { l with blockRows := min l.pieceRows l.rows }

/-- The tables of the pieces of a strip: each begins where the one before it ends, and those that
the strip does not reach have neither place nor size. -/
def pieceTables (l : Layout) (place size : Nat) : Tables :=
  let bytes := l.pieceRows * l.rowSize
  let sizes := Array.ofFn fun i : Fin l.pieces.blockCount => min bytes (size - bytes * i)
  let places := Array.ofFn fun i : Fin l.pieces.blockCount =>
    if size ≤ bytes * i then 0 else place + bytes * i
  .whole (some places) (some sizes)

/-- Whether a strip at a place is cut: if its pieces are lower than the strips that the file
declares, and the file is not far too small for so many of them. -/
def isCut (l : Layout) (stripRows fileSize place : Nat) : Bool :=
  let count := l.pieces.blockCount
  l.isSingleStrip && l.interleaved && l.pieceRows < stripRows
    && (count ≤ longestFilled || l.pieceRows * l.rowSize * (count - 1) ≤ fileSize - place)

/-- Cuts the only strip into pieces. -/
def cut (l : Layout) (stripRows fileSize : Nat) : Tables → Layout × Tables
  | .whole p s =>
      let place := Tables.numberIn p 0
      if l.isCut stripRows fileSize place then
        (l.pieces, l.pieceTables place (Tables.numberIn s 0))
      else (l, .whole p s)
  | t => (l, t)

end Layout

/-! ## Everything together -/

/-- The pixels of a file: their layout, where the blocks are, and what stands for missing data. -/
structure Image where
  directory : Directory
  layout : Layout
  tables : Tables
  /-- the bits of every byte stand in reverse -/
  bitsReversed : Bool
  /-- the text for missing data -/
  declared : Option (List Char)

/-- Everything that the directory says about the pixels. -/
def Image.ofDirectory (data : ByteArray) (d : Directory) : Except Defect Image := do
  let bands ← d.bands data
  let compression ← d.valueOr compressionTag 1 (d.shared data bands)
  d.checkFields (d.checkShape data bands)
  let (rows, columns) ← d.rasterShape data
  let (blockRows, blockColumns) ← d.blockShape data rows columns
  let places ← d.placesField
  d.checkFields (d.checkSamples data bands)
  let bits := d.sampleBits data bands
  let sample? := SampleType.ofCodes? bits (d.sampleCode data bands) bands
  let layout : Layout :=
    { rows, columns, bands, blockRows, blockColumns
      sample := sample?.getD ⟨.unsigned, bits⟩
      filled := d.isTiled
      interleaved := d.isInterleaved data }
  d.checkColourMap data bits
  let tables ← d.tables data layout places
  if compression ≠ 1 then throw (.unsupported compressionTag)
  if sample?.isNone then throw (.unsupported bitsTag)
  d.checkColours data layout
  let tables := if layout.isSingleStrip then tables.settled d data layout.fullSize else tables
  let (layout, tables) := layout.cut (d.stripRows data) data.size tables
  pure
    { directory := d
      layout
      tables
      bitsReversed := d.bitsReversed data
      declared := d.text? data noDataTag }

/-- What stands for missing data: what a note beside the file says, if there is one, and else what
the file says. -/
def Image.noData (image : Image) (note : Option (List Char)) : NoData :=
  match note, image.declared with
  | some text, _ => .ofNote image.layout.sample text
  | none, some text => .ofText image.layout.sample text
  | none, none => .undeclared

end PointElevation.Tiff
