/-!
# Numbers in bytes

The two orders in which a file may store the bytes of a number.  `ByteOrder.natAt` reads a number
of any width at any place and counts bytes behind the end as zero, so it is total; readers compare
the place with the size of the file first.  Numbers that do not fill whole bytes are packed with
their highest bit first, whatever the order of bytes is, and `bitsAt` reads those.  Files may also
store the bits of every byte in reverse; `reverseBitOrder` puts them back.
-/

namespace PointElevation.Tiff

/-- Which byte of a number comes first. -/
inductive ByteOrder where
  | leastFirst
  | mostFirst
deriving DecidableEq, Repr

/-- The other order. -/
def ByteOrder.opposite : ByteOrder → ByteOrder
  | .leastFirst => .mostFirst
  | .mostFirst => .leastFirst

/-- The byte at a place, zero behind the end. -/
def byteAt (data : ByteArray) (i : Nat) : Nat := if h : i < data.size then data[i].toNat else 0

/-- The number that `width` bytes from `start` on make. -/
def ByteOrder.natAt (order : ByteOrder) (data : ByteArray) (start : Nat) : Nat → Nat
  | 0 => 0
  | width + 1 =>
      match order with
      | .leastFirst => order.natAt data (start + 1) width * 256 + byteAt data start
      | .mostFirst => order.natAt data start width * 256 + byteAt data (start + width)

/-- The number that `count` bits make from the bit with number `start` on, highest bit first. -/
def bitsAt (data : ByteArray) (start count : Nat) : Nat :=
  let width := (start % 8 + count + 7) / 8
  let bytes := ByteOrder.mostFirst.natAt data (start / 8) width
  bytes / Nat.pow 2 (8 * width - start % 8 - count) % Nat.pow 2 count

/-- The number whose eight bits are those of another one in reverse. -/
def reverseBits (n : Nat) : Nat := (List.range 8).foldl (fun r i => r * 2 + n / Nat.pow 2 i % 2) 0

/-- The bytes of a file with the bits of each in reverse. -/
def reverseBitOrder (data : ByteArray) : ByteArray :=
  ⟨data.data.map fun byte => UInt8.ofNat (reverseBits byte.toNat)⟩

@[simp] theorem size_reverseBitOrder (data : ByteArray) : (reverseBitOrder data).size = data.size :=
  Array.size_map

end PointElevation.Tiff
