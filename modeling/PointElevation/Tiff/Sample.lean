import PointElevation.Number.Single
import PointElevation.Tiff.ByteOrder

/-!
# Stored samples

A file stores its heights as unsigned or signed integers or as floating point numbers, of one bit
to eight bytes; of a complex number the real part counts.  `SampleType.ofCodes?` says which types
there are, `SampleType.bitsOf` finds the bits of a sample, and `SampleType.toSingle` takes them to
the nearest single precision number.  `SampleType.holds` says which values a sample can have at
all, and `SampleType.nearest` takes any value to the sample that is stored for it.
-/

namespace PointElevation.Tiff

open PointElevation.Number (Binary Format Single)

/-- How the bits of a sample are to be read. -/
inductive SampleKind where
  | unsigned
  | signed
  | floating
  /-- two floating point numbers, of which the first is the real part -/
  | complex
deriving DecidableEq, Repr

/-- A kind and a width in bits. -/
structure SampleType where
  kind : SampleKind
  bits : Nat
deriving DecidableEq, Repr

/-- The number that `bits` bits mean in two's complement. -/
def twosComplement (bits n : Nat) : Int :=
  if n < Nat.pow 2 (bits - 1) then n else n - Int.pow 2 bits

/-- The integer next to a quotient; of two equally near ones, the one farther from zero. -/
def nearestInt (num : Int) (den : Nat) : Int :=
  let size : Int := ((2 * num.natAbs + den) / (2 * den) : Nat)
  if num < 0 then -size else size

/-- The floating point numbers of three bytes. -/
def tripleFormat : Format := ⟨16, 7⟩

namespace SampleType

/-- The type for a width in bits and a code, in a raster with a count of bands.  Single bits are
read whatever the code says if there is one band, and so are integers of three bytes, without sign.
A code that does not fit the width stands for integers without sign where those are of whole
bytes. -/
def ofCodes? (bits code bands : Nat) : Option SampleType :=
  if bits = 1 ∧ bands = 1 then some ⟨.unsigned, bits⟩
  else
    match code with
    | 1 => if (0 < bits ∧ bits ≤ 32) ∨ bits = 64 then some ⟨.unsigned, bits⟩ else none
    | 2 =>
        if bits ∈ [8, 16, 32, 64] then some ⟨.signed, bits⟩
        else if bits = 24 then some ⟨.unsigned, bits⟩ else none
    | 3 => if bits ∈ [16, 24, 32, 64] then some ⟨.floating, bits⟩ else none
    | 4 => if bits ∈ [8, 16, 32, 64] then some ⟨.unsigned, bits⟩ else none
    | 5 => if bits ∈ [8, 16] then some ⟨.unsigned, bits⟩ else none
    | 6 =>
        if bits ∈ [8, 16, 32] then some ⟨.unsigned, bits⟩
        else if bits ∈ [64, 128] then some ⟨.complex, bits⟩ else none
    | _ => none

/-- Bits of the number that is read of a sample. -/
def numberBits (t : SampleType) : Nat := if t.kind = .complex then t.bits / 2 else t.bits

/-- Bits of the type that samples are handed on in: one, two, four or eight bytes. -/
def heldBits (t : SampleType) : Nat :=
  if t.bits ≤ 8 then 8 else if t.bits ≤ 16 then 16 else if t.bits ≤ 32 then 32 else 64

/-- Integers of eight bytes, which double precision cannot hold. -/
def isLongInteger (t : SampleType) : Bool :=
  (t.kind = .unsigned || t.kind = .signed) && t.bits = 64

/-- The greatest finite value of the type.  Floating point numbers of less than four bytes are
handed on in single precision. -/
def greatest (t : SampleType) : Int :=
  match t.kind with
  | .unsigned => Int.pow 2 t.heldBits - 1
  | .signed => Int.pow 2 (t.heldBits - 1) - 1
  | .floating | .complex =>
      if t.numberBits = 64 then Format.double.greatest else Format.single.greatest

/-- The least finite value of the type. -/
def least (t : SampleType) : Int :=
  match t.kind with
  | .unsigned => 0
  | .signed => -Int.pow 2 (t.heldBits - 1)
  | .floating | .complex => -t.greatest

/-- The bits of the sample that begins at the bit with number `place`.  Integers of three bytes
stand in the order that the file does not have. -/
def bitsOf (t : SampleType) (order : ByteOrder) (data : ByteArray) (place : Nat) : Nat :=
  if t = ⟨.unsigned, 24⟩ then order.opposite.natAt data (place / 8) 3
  else if t.bits % 8 = 0 then order.natAt data (place / 8) (t.numberBits / 8)
  else bitsAt data place t.bits

/-- The bits of a sample as a single precision number; those of a single precision number are
taken as they are. -/
def toSingle (t : SampleType) (bits : Nat) : Single :=
  match t.kind, t.numberBits with
  | .unsigned, _ => Single.ofInt bits
  | .signed, width => Single.ofInt (twosComplement width bits)
  | _, 16 => Single.ofBinary (Format.half.decode bits)
  | _, 24 => Single.ofBinary (tripleFormat.decode bits)
  | _, 64 => Single.ofBinary (Format.double.decode bits)
  | _, _ => ⟨UInt32.ofNat bits⟩

/-- Whether a value lies in the range of the type; the values that are no numbers belong to the
floating point types. -/
def holds (t : SampleType) (value : Binary) : Bool :=
  match value.quotient? with
  | some (num, den) => t.least * den ≤ num && num ≤ t.greatest * den
  | none => t.kind = .floating

/-- An integer brought into the range of the type. -/
def clamp (t : SampleType) (n : Int) : Int := max t.least (min t.greatest n)

/-- The sample that is stored for a value, in single precision: the nearest of the type, and zero
where an integer type has none. -/
def nearest (t : SampleType) (value : Binary) : Single :=
  match t.kind, value with
  | .floating, _ | .complex, _ => Single.ofBinary value
  | _, .notANumber => Single.ofInt 0
  | _, .infinite negative => Single.ofInt (if negative then t.least else t.greatest)
  | _, .finite .. =>
      Single.ofInt (t.clamp ((value.quotient?.map fun q => nearestInt q.1 q.2).getD 0))

end SampleType

end PointElevation.Tiff
