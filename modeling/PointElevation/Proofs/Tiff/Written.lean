import Mathlib.Algebra.Order.Floor.Div
import PointElevation.Number.Single
import PointElevation.Proofs.Tiff.Bytes
import PointElevation.Tiff.Sample
import PointElevation.Tiff.Tag

/-!
# What it means that a picture is written in a file

The format is given here as a relation between a picture and the bytes of a file, and no reader
occurs in it.  A `Picture` is a box of samples, a `Plan` says how it is laid out: the byte order,
where the directory is and which fields it has, how the picture is cut, whether the bands of a
pixel stand together, where each of the blocks begins, and which text is declared for missing data.

`Picture.WrittenIn` puts the parts together: the head of the file (`Plan.Heads`), what the
directory has to say of the samples (`Picture.Described`), of the cutting (`Plan.Cut`) and of the
blocks, and the blocks themselves (`Picture.Laid`).  Anything that is not mentioned is free: the
order of the fields, the places of their values and of the blocks, the width of the numbers in
them, fields about other things, what the padding of a tile is filled with, and bytes between all
these.
-/

namespace PointElevation.Tiff

open PointElevation.Number (Format Single)

/-! ## Pictures -/

/-- A number as a sample has it; floating point numbers are given by their bits. -/
inductive Stored where
  | whole (n : Int)
  | single (s : Single)
  | double (bits : UInt64)

namespace Stored

/-- The number is one of a type. -/
def Fits (t : SampleType) : Stored → Prop
  | whole n =>
      t.kind = .unsigned ∧ 0 ≤ n ∧ n < 2 ^ t.bits ∨
        t.kind = .signed ∧ -2 ^ (t.bits - 1) ≤ n ∧ n < 2 ^ (t.bits - 1)
  | single _ => t = ⟨.floating, 32⟩
  | double _ => t = ⟨.floating, 64⟩

instance (t : SampleType) : (s : Stored) → Decidable (s.Fits t)
  | whole n => inferInstanceAs (Decidable
      (t.kind = .unsigned ∧ 0 ≤ n ∧ n < 2 ^ t.bits ∨
        t.kind = .signed ∧ -2 ^ (t.bits - 1) ≤ n ∧ n < 2 ^ (t.bits - 1)))
  | single _ => inferInstanceAs (Decidable (t = ⟨.floating, 32⟩))
  | double _ => inferInstanceAs (Decidable (t = ⟨.floating, 64⟩))

/-- The bits that are written for the number. -/
def pattern (bits : Nat) : Stored → Nat
  | whole n => (n % 2 ^ bits).toNat
  | single s => s.bits.toNat
  | double d => d.toNat

/-- The number in single precision. -/
def toSingle : Stored → Single
  | whole n => .ofInt n
  | single s => s
  | double d => .ofBinary (Format.double.decode d.toNat)

end Stored

/-- The types of samples: integers of one, two, four and eight bytes with or without sign, and
floating point numbers of four and eight bytes. -/
def SampleType.IsPlain (t : SampleType) : Prop :=
  ((t.kind = .unsigned ∨ t.kind = .signed) ∧ t.bits ∈ [8, 16, 32, 64]) ∨
    t.kind = .floating ∧ t.bits ∈ [32, 64]

theorem SampleType.IsPlain.bits_eq {t : SampleType} (h : t.IsPlain) :
    t.bits = 8 ∨ t.bits = 16 ∨ t.bits = 32 ∨ t.bits = 64 := by
  rcases h with ⟨-, hbits⟩ | ⟨-, hbits⟩
  all_goals
    simp only [List.mem_cons, List.not_mem_nil, or_false] at hbits
    omega

/-- The code of a plain type. -/
def SampleType.code (t : SampleType) : Nat :=
  match t.kind with
  | .unsigned => 1
  | .signed => 2
  | _ => 3

/-- Samples by row, column and band. -/
structure Picture where
  rows : Nat
  columns : Nat
  bands : Nat
  type : SampleType
  sample : Nat → Nat → Nat → Stored

/-- A picture has rows and columns, as many as signed numbers of four bytes can count, and bands, as
many as numbers of two bytes can, and its samples are of its type. -/
structure Picture.Proper (p : Picture) : Prop where
  rows_pos : 0 < p.rows
  rows_lt : p.rows < 2 ^ 31
  columns_pos : 0 < p.columns
  columns_lt : p.columns < 2 ^ 31
  bands_pos : 0 < p.bands
  bands_lt : p.bands < 2 ^ 16
  plain : p.type.IsPlain
  fits : ∀ row < p.rows, ∀ column < p.columns, ∀ band < p.bands,
    (p.sample row column band).Fits p.type

/-! ## Plans -/

/-- How a picture is cut into blocks. -/
inductive Cutting where
  /-- as wide as the picture; the last one ends with it -/
  | strips (rows : Nat)
  /-- of one size, and filled up where the picture ends -/
  | tiles (rows columns : Nat)

/-- How a picture is laid out in a file. -/
structure Plan where
  order : ByteOrder
  /-- where the directory begins -/
  start : Nat
  /-- the tags of its fields -/
  tags : List Nat
  cutting : Cutting
  /-- the bands of a pixel stand together -/
  interleaved : Bool
  /-- where each of the blocks begins -/
  place : Nat → Nat
  /-- the text for missing data -/
  declared : Option (List Char)

namespace Plan

variable (plan : Plan) (data : ByteArray)

/-! ### Fields -/

/-- Where the entry with an index begins. -/
def entry (i : Nat) : Nat := plan.start + 2 + 12 * i

/-- The file begins with the letters of its byte order, the number of the format and the place of
the directory, which is a count of entries and these, each with a tag of its own. -/
structure Heads : Prop where
  letters : ∀ i < 2, byteAt data i = match plan.order with
    | .leastFirst => 'I'.toNat
    | .mostFirst => 'M'.toNat
  mark : plan.order.Stands data 2 2 42
  place : plan.order.Stands data 4 4 plan.start
  count : plan.order.Stands data plan.start 2 plan.tags.length
  count_pos : 0 < plan.tags.length
  count_le : plan.tags.length ≤ 4096
  inside : plan.entry plan.tags.length ≤ data.size
  tags : ∀ i (h : i < plan.tags.length), plan.order.Stands data (plan.entry i) 2 plan.tags[i]
  nodup : plan.tags.Nodup

instance : Decidable (plan.Heads data) :=
  decidable_of_iff
    ((∀ i < 2, byteAt data i = match plan.order with
        | .leastFirst => 'I'.toNat
        | .mostFirst => 'M'.toNat) ∧
      plan.order.Stands data 2 2 42 ∧ plan.order.Stands data 4 4 plan.start ∧
      plan.order.Stands data plan.start 2 plan.tags.length ∧ 0 < plan.tags.length ∧
      plan.tags.length ≤ 4096 ∧ plan.entry plan.tags.length ≤ data.size ∧
      (∀ i (h : i < plan.tags.length),
        plan.order.Stands data (plan.entry i) 2 plan.tags[i]) ∧ plan.tags.Nodup)
    ⟨fun ⟨letters, mark, place, count, pos, le, inside, tags, nodup⟩ =>
        ⟨letters, mark, place, count, pos, le, inside, tags, nodup⟩,
      fun h => ⟨h.letters, h.mark, h.place, h.count, h.count_pos, h.count_le, h.inside, h.tags,
        h.nodup⟩⟩

/-- The entry with an index gives a field values: the code of their type, their count, and the
values themselves if they fit into four bytes, and else the place where they are. -/
structure Entry (tag code width : Nat) (values : List Nat) (i place : Nat) : Prop where
  tag : plan.tags[i]? = some tag
  code : plan.order.Stands data (plan.entry i + 2) 2 code
  count : plan.order.Stands data (plan.entry i + 4) 4 values.length
  inline : width * values.length ≤ 4 → place = plan.entry i + 8
  apart : 4 < width * values.length → plan.order.Stands data (plan.entry i + 8) 4 place
  values : ∀ j (h : j < values.length),
    plan.order.Stands data (place + width * j) width values[j]

instance (tag code width : Nat) (values : List Nat) (i place : Nat) :
    Decidable (plan.Entry data tag code width values i place) :=
  decidable_of_iff
    (plan.tags[i]? = some tag ∧ plan.order.Stands data (plan.entry i + 2) 2 code ∧
      plan.order.Stands data (plan.entry i + 4) 4 values.length ∧
      (width * values.length ≤ 4 → place = plan.entry i + 8) ∧
      (4 < width * values.length → plan.order.Stands data (plan.entry i + 8) 4 place) ∧
      ∀ j (h : j < values.length),
        plan.order.Stands data (place + width * j) width values[j])
    ⟨fun ⟨tag, code, count, inline, apart, values⟩ => ⟨tag, code, count, inline, apart, values⟩,
      fun h => ⟨h.tag, h.code, h.count, h.inline, h.apart, h.values⟩⟩

/-- A field has these numbers, in two bytes each or in four. -/
def Says (tag : Nat) (values : List Nat) : Prop :=
  ∃ code width i place, (code = 3 ∧ width = 2 ∨ code = 4 ∧ width = 4) ∧
    plan.Entry data tag code width values i place

/-- A field has this text, with a zero behind it. -/
def SaysText (tag : Nat) (text : List Char) : Prop :=
  (∀ c ∈ text, 0 < c.toNat ∧ c.toNat < 128) ∧ text.length < 2 ^ 28 ∧
    ∃ i place, plan.Entry data tag 2 1 (text.map Char.toNat ++ [0]) i place

/-- A field has one number for all bands, or it once for each of them. -/
def SaysEach (tag bands n : Nat) : Prop :=
  plan.Says data tag [n] ∨ plan.Says data tag (List.replicate bands n)

/-- There is no such field. -/
def Silent (tag : Nat) : Prop := tag ∉ plan.tags

instance (tag : Nat) : Decidable (plan.Silent tag) := inferInstanceAs (Decidable (tag ∉ plan.tags))

/-! ### Blocks -/

variable (p : Picture)

/-- Rows of a block. -/
def blockRows : Nat :=
  match plan.cutting with
  | .strips rows => rows
  | .tiles rows _ => rows

/-- Columns of a block. -/
def blockColumns : Nat :=
  match plan.cutting with
  | .strips _ => p.columns
  | .tiles _ columns => columns

/-- How many blocks lie side by side. -/
def across : Nat := p.columns ⌈/⌉ plan.blockColumns p

/-- How many rows of blocks there are. -/
def down : Nat := p.rows ⌈/⌉ plan.blockRows

/-- How often the picture is covered with blocks. -/
def planes : Nat := if plan.interleaved then 1 else p.bands

/-- How many samples stand together at a pixel of a block. -/
def slots : Nat := if plan.interleaved then p.bands else 1

/-- The plane of a band. -/
def plane (band : Nat) : Nat := if plan.interleaved then 0 else band

/-- Which of the samples at a pixel belongs to a band. -/
def slot (band : Nat) : Nat := if plan.interleaved then band else 0

/-- The number of a block, by its plane, its row of blocks and its place in that row. -/
def blockIndex (plane i j : Nat) : Nat :=
  plane * (plan.across p * plan.down p) + i * plan.across p + j

/-- The number of blocks. -/
def blockCount : Nat := plan.planes p * (plan.across p * plan.down p)

/-- How many rows a block of a row of blocks has. -/
def storedRows (i : Nat) : Nat :=
  match plan.cutting with
  | .strips rows => min rows (p.rows - i * rows)
  | .tiles rows _ => rows

/-- How many bytes a block of a row of blocks takes. -/
def blockSize (i : Nat) : Nat :=
  plan.storedRows p i * (plan.blockColumns p * plan.slots p * (p.type.bits / 8))

/-- The blocks of a band lie in the file. -/
def HoldsBand (band : Nat) : Prop :=
  ∀ i < plan.down p, ∀ j < plan.across p,
    plan.place (plan.blockIndex p (plan.plane band) i j) + plan.blockSize p i ≤ data.size

instance (band : Nat) : Decidable (plan.HoldsBand data p band) :=
  inferInstanceAs (Decidable (∀ i < plan.down p, ∀ j < plan.across p,
    plan.place (plan.blockIndex p (plan.plane band) i j) + plan.blockSize p i ≤ data.size))

/-- Where a sample stands: behind those of the rows of its block above it and of the columns before
it. -/
def samplePlace (band i j row column : Nat) : Nat :=
  plan.place (plan.blockIndex p (plan.plane band) i j)
    + ((row * plan.blockColumns p + column) * plan.slots p + plan.slot band) * (p.type.bits / 8)

/-- The places of all blocks. -/
def places : List Nat := (List.range (plan.blockCount p)).map plan.place

/-- How many bytes the block with a number takes. -/
def sizeAt (k : Nat) : Nat :=
  plan.blockSize p (k % (plan.across p * plan.down p) / plan.across p)

/-- The sizes of all blocks. -/
def sizes : List Nat := (List.range (plan.blockCount p)).map (plan.sizeAt p)

/-- The field with the places of the blocks. -/
def placesTag : Nat :=
  match plan.cutting with
  | .strips _ => stripPlacesTag
  | .tiles _ _ => tilePlacesTag

/-- The field with the sizes of the blocks. -/
def sizesTag : Nat :=
  match plan.cutting with
  | .strips _ => stripSizesTag
  | .tiles _ _ => tileSizesTag

/-- The directory says how high the strips are, unless they are as high as can be. -/
structure InStrips (rows : Nat) : Prop where
  rows_pos : 0 < rows
  told : plan.Says data stripRowsTag [rows] ∨ rows = 2 ^ 32 - 1 ∧ plan.Silent stripRowsTag
  silent : ∀ tag ∈ [tileColumnsTag, tileRowsTag, tilePlacesTag, tileSizesTag], plan.Silent tag

/-- The directory says how high and how wide the tiles are. -/
structure InTiles (rows columns : Nat) : Prop where
  rows_pos : 0 < rows
  rows_lt : rows < 2 ^ 31
  columns_pos : 0 < columns
  columns_lt : columns < 2 ^ 31
  rows : plan.Says data tileRowsTag [rows]
  columns : plan.Says data tileColumnsTag [columns]
  silent : ∀ tag ∈ [stripRowsTag, stripPlacesTag, stripSizesTag], plan.Silent tag

/-- What the directory says of the cutting. -/
def Cut : Prop :=
  match plan.cutting with
  | .strips rows => plan.InStrips data rows
  | .tiles rows columns => plan.InTiles data rows columns

variable {plan data}

theorem Cut.strips {rows : Nat} (h : plan.Cut data) (hcutting : plan.cutting = .strips rows) :
    plan.InStrips data rows := by
  unfold Cut at h
  rwa [hcutting] at h

theorem Cut.tiles {rows columns : Nat} (h : plan.Cut data)
    (hcutting : plan.cutting = .tiles rows columns) : plan.InTiles data rows columns := by
  unfold Cut at h
  rwa [hcutting] at h

end Plan

/-! ## Written pictures -/

namespace Picture

variable (p : Picture) (plan : Plan) (data : ByteArray)

/-- What the directory says of the samples.  Some fields can be left out if they would say what goes
without saying. -/
structure Described : Prop where
  rows : plan.Says data rowsTag [p.rows]
  columns : plan.Says data columnsTag [p.columns]
  bands : plan.Says data bandsTag [p.bands] ∨ p.bands = 1 ∧ plan.Silent bandsTag
  bits : plan.SaysEach data bitsTag p.bands p.type.bits
  format : plan.SaysEach data sampleFormatTag p.bands p.type.code ∨
    p.type.kind = .unsigned ∧ plan.Silent sampleFormatTag
  compression : plan.Says data compressionTag [1] ∨ plan.Silent compressionTag
  arrangement : plan.Says data arrangementTag [if plan.interleaved then 1 else 2] ∨
    plan.interleaved = true ∧ plan.Silent arrangementTag
  colours : (∃ n ≤ 2, plan.Says data coloursTag [n]) ∨ plan.Silent coloursTag
  bitOrder : plan.Says data bitOrderTag [1] ∨ plan.Silent bitOrderTag
  further : (∃ kinds : List Nat, kinds.length ≤ p.bands ∧ (∀ kind ∈ kinds, kind ≤ 2) ∧
    plan.Says data furtherSamplesTag kinds) ∨ plan.Silent furtherSamplesTag
  silent : ∀ tag ∈ [leastSampleTag, greatestSampleTag, colourMapTag, leastValueTag,
    greatestValueTag, dataTypeTag], plan.Silent tag

/-- The directory announces the picture. -/
structure Announced : Prop where
  proper : p.Proper
  heads : plan.Heads data
  described : p.Described plan data
  cut : plan.Cut data

/-- The samples of the picture stand in a block of a band.  What else is in the block is free. -/
def StandsIn (band i j : Nat) : Prop :=
  ∀ row < plan.blockRows, i * plan.blockRows + row < p.rows →
    ∀ column < plan.blockColumns p, j * plan.blockColumns p + column < p.columns →
      plan.order.Stands data (plan.samplePlace p band i j row column) (p.type.bits / 8)
        ((p.sample (i * plan.blockRows + row) (j * plan.blockColumns p + column) band).pattern
          p.type.bits)

instance (band i j : Nat) : Decidable (p.StandsIn plan data band i j) :=
  inferInstanceAs (Decidable (∀ row < plan.blockRows, i * plan.blockRows + row < p.rows →
    ∀ column < plan.blockColumns p, j * plan.blockColumns p + column < p.columns →
      plan.order.Stands data (plan.samplePlace p band i j row column) (p.type.bits / 8)
        ((p.sample (i * plan.blockRows + row) (j * plan.blockColumns p + column) band).pattern
          p.type.bits)))

/-- The blocks lie in the file, and the samples of the picture stand in them. -/
structure Laid : Prop where
  inside : ∀ band < p.bands, plan.HoldsBand data p band
  samples : ∀ band < p.bands, ∀ i < plan.down p, ∀ j < plan.across p,
    p.StandsIn plan data band i j

instance : Decidable (p.Laid plan data) :=
  decidable_of_iff
    ((∀ band < p.bands, plan.HoldsBand data p band) ∧
      ∀ band < p.bands, ∀ i < plan.down p, ∀ j < plan.across p, p.StandsIn plan data band i j)
    ⟨fun ⟨inside, samples⟩ => ⟨inside, samples⟩, fun h => ⟨h.inside, h.samples⟩⟩

/-- The picture is written in a file. -/
structure WrittenIn : Prop extends p.Announced plan data where
  /-- the place of a next directory, whatever it is -/
  next : plan.entry plan.tags.length + 4 ≤ data.size
  places : plan.Says data plan.placesTag (plan.places p)
  sizes : plan.Says data plan.sizesTag (plan.sizes p)
  laid : p.Laid plan data
  declared : match plan.declared with
    | some text => plan.SaysText data noDataTag text
    | none => plan.Silent noDataTag

end Picture

end PointElevation.Tiff
