import PointElevation.Tiff.ByteOrder
import PointElevation.Tiff.Defect

/-!
# The directory of a file

A file begins with two letters for its byte order, a number for its variant and the place of its
directory.  The directory is a count, that many entries, and the place of a next directory, which is
not followed.  An entry has a tag, a type, a count of values, and the values themselves if they fit
into the width of a place, otherwise their place.  Places and counts are four bytes wide in the
classic variant and eight in the big one.

`readDirectory` accepts a file if its directory lies inside it; where the values of a field are is
looked at only when one of them is asked for, so a field that nobody reads may point anywhere.
-/

namespace PointElevation.Tiff

/-! ## Fields -/

/-- What the values of a field are. -/
inductive ValueKind where
  | letters
  /-- bytes without meaning -/
  | bytes
  | unsigned
  | signed
  /-- numbers that need not be whole -/
  | fractional
  /-- something that no field in use has -/
  | other
deriving DecidableEq, Repr

/-- A kind of values and the bytes that one of them takes. -/
structure ValueType where
  kind : ValueKind
  width : Nat
deriving DecidableEq, Repr

/-- Whether the values are integers. -/
def ValueType.isInteger (t : ValueType) : Bool := t.kind = .unsigned || t.kind = .signed

/-- The type with a code. -/
def valueType : Nat → ValueType
  | 1 => ⟨.unsigned, 1⟩
  | 2 => ⟨.letters, 1⟩
  | 3 => ⟨.unsigned, 2⟩
  | 4 => ⟨.unsigned, 4⟩
  | 6 => ⟨.signed, 1⟩
  | 7 => ⟨.bytes, 1⟩
  | 8 => ⟨.signed, 2⟩
  | 9 => ⟨.signed, 4⟩
  | 16 => ⟨.unsigned, 8⟩
  | 17 => ⟨.signed, 8⟩
  | 11 => ⟨.fractional, 4⟩
  | 5 | 10 | 12 => ⟨.fractional, 8⟩
  | 13 => ⟨.other, 4⟩
  | 18 => ⟨.other, 8⟩
  | _ => ⟨.other, 0⟩

/-- One field: what its values are, how many there are, and where they stand. -/
structure Field where
  tag : Nat
  type : ValueType
  count : Nat
  place : Nat
deriving DecidableEq, Repr

/-- The first values of a field lie in a file. -/
def Field.reaches (f : Field) (data : ByteArray) (count : Nat) : Bool :=
  f.type.width ≠ 0 && f.place + f.type.width * count ≤ data.size

/-- A byte order and the fields of the directory, in their order and with different tags. -/
structure Directory where
  order : ByteOrder
  fields : List Field
deriving Repr

/-! ## Reading the directory -/

/-- The variants of the format. -/
inductive Variant where
  | classic
  | big
deriving DecidableEq, Repr

namespace Variant

/-- The bytes of a place, and of the count of a field's values. -/
def placeWidth : Variant → Nat
  | .classic => 4
  | .big => 8

/-- The bytes in front of the place of the directory. -/
def announcement : Variant → Nat
  | .classic => 4
  | .big => 8

/-- The bytes of the count of entries. -/
def countWidth : Variant → Nat
  | .classic => 2
  | .big => 8

/-- The bytes of an entry: tag, type, count, and values or their place. -/
def entryWidth (v : Variant) : Nat := 2 + 2 + v.placeWidth + v.placeWidth

end Variant

/-- The order that the first two bytes name. -/
def byteOrder? (data : ByteArray) : Option ByteOrder :=
  match byteAt data 0, byteAt data 1 with
  | 0x49, 0x49 => some .leastFirst
  | 0x4D, 0x4D => some .mostFirst
  | _, _ => none

/-- The variant that the next bytes name; the big one repeats there how wide its places are. -/
def variant? (order : ByteOrder) (data : ByteArray) : Option Variant :=
  match order.natAt data 2 2 with
  | 42 => some .classic
  | 43 =>
      if order.natAt data 4 2 = Variant.big.placeWidth ∧ order.natAt data 6 2 = 0 then some .big
      else none
  | _ => none

/-- The field whose entry stands at a place. -/
def fieldAt (order : ByteOrder) (v : Variant) (data : ByteArray) (entry : Nat) : Field :=
  let type := valueType (order.natAt data (entry + 2) 2)
  let count := order.natAt data (entry + 4) v.placeWidth
  let values := entry + 4 + v.placeWidth
  { tag := order.natAt data entry 2
    type
    count
    place := if type.width * count ≤ v.placeWidth then values
      else order.natAt data values v.placeWidth }

/-- The fields of a run of entries; of several with one tag the first counts. -/
def fieldsAt (order : ByteOrder) (v : Variant) (data : ByteArray) (start count : Nat) :
    List Field :=
  ((List.range count).map fun i => fieldAt order v data (start + v.entryWidth * i)).eraseDupsBy
    fun f g => f.tag == g.tag

/-- A directory has at most this many entries. -/
def maxEntries : Nat := 4096

/-- Reads the directory of a file. -/
def readDirectory (data : ByteArray) : Except Defect Directory :=
  match byteOrder? data with
  | none => .error .foreign
  | some order =>
      match variant? order data with
      | none => .error .foreign
      | some v =>
          let directory := order.natAt data v.announcement v.placeWidth
          let count := order.natAt data directory v.countWidth
          let start := directory + v.countWidth
          if data.size < v.announcement + v.placeWidth then .error .truncated
          else if data.size < start then .error .truncated
          else if count = 0 ∨ maxEntries < count then .error (.entryCount count)
          else if data.size < start + v.entryWidth * count then .error .truncated
          else .ok ⟨order, fieldsAt order v data start count⟩

/-! ## Reading fields -/

namespace Directory

variable (d : Directory) (data : ByteArray)

/-- The field with a tag. -/
def field? (tag : Nat) : Option Field := d.fields.find? fun f => f.tag == tag

/-- The bits of the value at an index of a field. -/
def valueBits (f : Field) (i : Nat) : Nat :=
  d.order.natAt data (f.place + f.type.width * i) f.type.width

/-- The number at an index of a field, which has to be below a bound. -/
def numberBelow (bound : Nat) (f : Field) (i : Nat) : Except FieldFault Nat :=
  let bits := d.valueBits data f i
  if f.type.kind = .signed ∧ Nat.pow 2 (8 * f.type.width - 1) ≤ bits then .error .range
  else if bits < bound then .ok bits
  else .error .range

/-- The number of a field that has exactly one. -/
def number (bound : Nat) (f : Field) : Except FieldFault Nat :=
  if f.count ≠ 1 then .error .count
  else if !f.type.isInteger && f.type.kind ≠ .bytes then .error .type
  else if !f.reaches data 1 then .error .outside
  else d.numberBelow data bound f 0

/-- More bytes than this are not read for one field. -/
def heldBytes : Nat := Nat.pow 2 31 - 1

/-- All numbers of a field; each takes two bytes or more where it is held. -/
def numbers (bound : Nat) (f : Field) : Except FieldFault (List Nat) :=
  if !f.type.isInteger then .error .type
  else if f.count = 0 then .ok []
  else if heldBytes / max 2 f.type.width < f.count then .error .oversized
  else if !f.reaches data f.count then .error .outside
  else (List.range f.count).mapM (d.numberBelow data bound f)

/-- Numbers that take more bits than this belong to no sample. -/
def shortBound : Nat := Nat.pow 2 16

/-- Counts of rows and columns are below this. -/
def longBound : Nat := Nat.pow 2 32

/-- The common number of a field that has one for each band, or one for all of them.  Further
numbers may differ, but have to be there. -/
def shared (bands : Nat) (f : Field) : Except FieldFault Nat :=
  if f.count = 1 then d.number data shortBound f
  else if f.count < bands then .error .count
  else do
    match (← d.numbers data shortBound f).take bands with
    | first :: others => if others.all (· == first) then .ok first else .error .uneven
    | [] => .error .count

/-- What a field says, or a value of its own where there is no such field. -/
def valueOr (tag default : Nat) (read : Field → Except FieldFault Nat) : Except Defect Nat :=
  match d.field? tag with
  | none => .ok default
  | some f => (read f).mapError (.field tag)

/-- The same where a field that says nothing of use is taken for none. -/
def valueOrIgnored (tag default : Nat) (read : Field → Except FieldFault Nat) : Nat :=
  ((d.valueOr tag default read).toOption).getD default

/-- The letters of a text, up to the first zero byte. -/
def text? (tag : Nat) : Option (List Char) := do
  let f ← d.field? tag
  let lettered := f.type.kind = .letters ∨ f.type.kind = .bytes
  let letters : Field := if lettered then { f with type := ⟨.unsigned, 1⟩ } else f
  let codes ← (d.numbers data 256 letters).toOption
  some ((codes.takeWhile (· ≠ 0)).map Char.ofNat)

end Directory

end PointElevation.Tiff
