import PointElevation.Number.Binary

/-!
# Single precision samples

Every pixel of a raster is held in single precision, whatever the tile stored.  A `Single` is its
bit pattern; what it means is read through `Single.value`, so comparing and widening are exact.
-/

namespace PointElevation.Number

/-- A single precision number, by its bit pattern. -/
structure Single where
  bits : UInt32
deriving DecidableEq, Repr, Inhabited

namespace Single

/-- The exact value. -/
def value (s : Single) : Binary := Format.single.decode s.bits.toNat

/-- The single precision number nearest to a value. -/
def ofBinary (b : Binary) : Single :=
  ⟨UInt32.ofNat (Format.single.encode (b.roundTo Format.single))⟩

def ofInt (n : Int) : Single := ofBinary (Binary.ofInt n)

def ofFloat (x : Float) : Single := ofBinary (Binary.ofFloat x)

/-- The pixel that stands for missing data. -/
def notANumber : Single := ofBinary .notANumber

def isNaN (s : Single) : Bool := s.value.isNaN

/-- Every single precision number is a double precision one, so nothing is lost here. -/
def toFloat (s : Single) : Float := s.value.toFloat

/-- Numeric equality: the two zeros are equal, and not-a-number equals nothing. -/
def equals (a b : Single) : Bool :=
  match a.value, b.value with
  | .finite _ 0 _, .finite _ 0 _ => true
  | .notANumber, _ => false
  | x, y => x == y

end Single

end PointElevation.Number
