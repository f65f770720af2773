import Mathlib.Data.Nat.ModEq
import PointElevation.Tiff.ByteOrder

/-!
# Numbers that stand in a file

`ByteOrder.Stands` says without any reader that a number stands at a place: it fits its bytes, and
each of these is the digit to the base 256 that the byte order puts there.  A reader that looks at
the place finds the number (`Stands.natAt_eq`).

What is read from the front of a file is not changed by what stands behind it (`natAt_append`,
`bitsAt_append`), and a number that stands in a file also stands in a front part of it that is long
enough (`Stands.of_append`).
-/

namespace PointElevation.Tiff

variable {order : ByteOrder} {data more : ByteArray} {place width n : Nat}

/-! ## Bytes of a file with more behind it -/

/-- One of many numbers, each of the same width, ends before all of them do. -/
theorem end_le_end {start width i count : Nat} (hi : i < count) :
    start + width * i + width ≤ start + width * count := by
  calc start + width * i + width = start + width * (i + 1) := by rw [Nat.mul_succ, Nat.add_assoc]
    _ ≤ start + width * count := Nat.add_le_add_left (Nat.mul_le_mul_left _ hi) _

theorem size_le_size_append (data more : ByteArray) : data.size ≤ (data ++ more).size := by
  rw [ByteArray.size_append]
  exact Nat.le_add_right _ _

theorem byteAt_append {i : Nat} (h : i < data.size) : byteAt (data ++ more) i = byteAt data i := by
  have hlong := lt_of_lt_of_le h (size_le_size_append data more)
  simp only [byteAt, h, hlong, dif_pos, ByteArray.getElem_append_left h]

theorem natAt_append (order : ByteOrder) (h : place + width ≤ data.size) :
    order.natAt (data ++ more) place width = order.natAt data place width := by
  induction width generalizing place with
  | zero => rfl
  | succ width ih =>
      cases order
      · simp only [ByteOrder.natAt]
        rw [ih (by omega), byteAt_append (by omega)]
      · simp only [ByteOrder.natAt]
        rw [ih (by omega), byteAt_append (by omega)]

/-- Bits that lie in the file do not reach into a byte behind it. -/
theorem bitsAt_append {start count : Nat} (h : start + count ≤ 8 * data.size) :
    bitsAt (data ++ more) start count = bitsAt data start count := by
  have hbytes : start / 8 + (start % 8 + count + 7) / 8 ≤ data.size := by omega
  simp only [bitsAt, natAt_append .mostFirst hbytes]

theorem reverseBitOrder_append (data more : ByteArray) :
    reverseBitOrder (data ++ more) = reverseBitOrder data ++ reverseBitOrder more := by
  apply ByteArray.ext
  simp [reverseBitOrder]

/-! ## Numbers -/

/-- The byte with an index of a number that takes so many bytes. -/
def ByteOrder.digit (order : ByteOrder) (width n i : Nat) : Nat :=
  match order with
  | .leastFirst => n / 256 ^ i % 256
  | .mostFirst => n / 256 ^ (width - 1 - i) % 256

/-- A number stands at a place: it fits its bytes, and these are there. -/
structure ByteOrder.Stands (order : ByteOrder) (data : ByteArray) (place width n : Nat) : Prop where
  fits : n < 256 ^ width
  inside : place + width ≤ data.size
  digits : ∀ i < width, byteAt data (place + i) = order.digit width n i

instance : Decidable (order.Stands data place width n) :=
  decidable_of_iff
    (n < 256 ^ width ∧ place + width ≤ data.size ∧
      ∀ i < width, byteAt data (place + i) = order.digit width n i)
    ⟨fun ⟨fits, inside, digits⟩ => ⟨fits, inside, digits⟩, fun h => ⟨h.fits, h.inside, h.digits⟩⟩

/-- The digit of least weight, and the number that the others make. -/
theorem mod_pow_succ_eq (n width : Nat) :
    n % 256 ^ (width + 1) = n / 256 % 256 ^ width * 256 + n % 256 := by
  rw [Nat.pow_succ', Nat.mod_mul]
  omega

/-- The digits of a number make the number. -/
theorem natAt_of_digits (order : ByteOrder)
    (h : ∀ i < width, byteAt data (place + i) = order.digit width n i) :
    order.natAt data place width = n % 256 ^ width := by
  induction width generalizing place n with
  | zero => simp [ByteOrder.natAt, Nat.mod_one]
  | succ width ih =>
      -- all digits but the one of least weight are those of the quotient
      cases order with
      | leastFirst =>
          have hhead := h 0 (Nat.succ_pos width)
          have htail : ∀ i < width, byteAt data (place + 1 + i) =
              ByteOrder.leastFirst.digit width (n / 256) i := by
            intro i hi
            have hnext := h (i + 1) (Nat.succ_lt_succ hi)
            rw [Nat.add_assoc, Nat.add_comm 1 i, hnext]
            simp only [ByteOrder.digit, Nat.pow_succ', Nat.div_div_eq_div_mul]
          simp only [ByteOrder.digit, Nat.pow_zero, Nat.div_one, Nat.add_zero] at hhead
          rw [ByteOrder.natAt, ih htail, hhead, mod_pow_succ_eq]
      | mostFirst =>
          have hlast := h width (Nat.lt_succ_self width)
          have hfront : ∀ i < width, byteAt data (place + i) =
              ByteOrder.mostFirst.digit width (n / 256) i := by
            intro i hi
            have hexponent : width + 1 - 1 - i = width - 1 - i + 1 := by omega
            rw [h i (Nat.lt_succ_of_lt hi)]
            simp only [ByteOrder.digit, hexponent, Nat.pow_succ', Nat.div_div_eq_div_mul]
          simp only [ByteOrder.digit, Nat.add_sub_cancel, Nat.sub_self, Nat.pow_zero,
            Nat.div_one] at hlast
          rw [ByteOrder.natAt, ih hfront, hlast, mod_pow_succ_eq]

namespace ByteOrder.Stands

/-- What stands at a place is read there. -/
theorem natAt_eq (h : order.Stands data place width n) : order.natAt data place width = n := by
  rw [natAt_of_digits order h.digits, Nat.mod_eq_of_lt h.fits]

/-- What stands in front is there without the rest of the file. -/
theorem of_append (h : order.Stands (data ++ more) place width n)
    (hinside : place + width ≤ data.size) : order.Stands data place width n where
  fits := h.fits
  inside := hinside
  digits := fun i hi => by rw [← h.digits i hi, byteAt_append (by omega)]

end ByteOrder.Stands

end PointElevation.Tiff
