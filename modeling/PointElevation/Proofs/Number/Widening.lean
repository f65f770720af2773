import Mathlib.Algebra.Order.Ring.Nat
import PointElevation.Number.Single

/-!
# Not-a-number is not made

A value of any format is taken to the nearest machine number, and the machine keeps one pattern for
everything that is not a number.  A value that is one does not become such a pattern, however it is
rounded: what comes out of rounding fits the format (`Binary.fits_roundTo`), so that the exponent
field of a finite value is never full (`fields_encode`).  Hence `Binary.isNaN_toFloat`, and a sample
that is a number is widened to a number (`Single.isNaN_toFloat`).
-/

namespace PointElevation.Number

open Float.Model (UnpackedFloat)
open Float.Model.UnpackedFloat

/-! ## Values of a format -/

/-- A value as rounding leaves it: its mantissa has at most one bit more than the fraction field,
and its unit is not past that of the greatest value. -/
def Binary.Fits (f : Format) : Binary → Prop
  | .finite _ mantissa unit =>
      mantissa < 2 ^ (f.fractionBits + 1) ∧ unit ≤ (f.maxExponent : Int) - f.fractionBits
  | _ => True

theorem Format.fits_settle {f : Format} {mantissa : Nat} (h : mantissa ≤ 2 ^ (f.fractionBits + 1))
    (negative : Bool) (unit : Int) : (f.settle negative mantissa unit).Fits f := by
  unfold Format.settle
  dsimp only
  -- a mantissa that is the next power of two has moved to the next unit
  split
  · split
    · trivial
    · rename_i hunit
      exact ⟨Nat.pow_lt_pow_right Nat.one_lt_two (Nat.lt_succ_self _), not_lt.mp hunit⟩
  · rename_i hcarried
    split
    · trivial
    · rename_i hunit
      exact ⟨lt_of_le_of_ne h (by simpa using hcarried), not_lt.mp hunit⟩

theorem Format.isNaN_settle (f : Format) (negative : Bool) (mantissa : Nat) (unit : Int) :
    (f.settle negative mantissa unit).isNaN = false := by
  unfold Format.settle
  dsimp only
  split <;> split <;> rfl

/-- Dropping bits leaves as many as expected, or the next power of two. -/
theorem roundDiv_two_pow_le {m k n : Nat} (h : m < 2 ^ (k + n)) : roundDiv m (2 ^ n) ≤ 2 ^ k := by
  have hquotient : m / 2 ^ n < 2 ^ k := by
    rw [Nat.div_lt_iff_lt_mul (Nat.two_pow_pos n), ← Nat.pow_add]
    exact h
  rcases roundDiv_eq_or m (2 ^ n) with heq | heq
  · exact heq ▸ hquotient.le
  · exact heq ▸ hquotient

theorem Binary.fits_roundTo {f : Format} (hf : 0 < f.maxExponent) (b : Binary) :
    (b.roundTo f).Fits f := by
  cases b with
  | notANumber => trivial
  | infinite negative => trivial
  | finite negative mantissa unit =>
      unfold Binary.roundTo
      dsimp only
      by_cases hzero : mantissa = 0
      · rw [if_pos hzero]
        have hleast : f.leastUnit ≤ (f.maxExponent : Int) - f.fractionBits := by
          unfold Format.leastUnit
          omega
        exact ⟨Nat.two_pow_pos _, hleast⟩
      · rw [if_neg hzero]
        have hlog : mantissa < 2 ^ (mantissa.log2 + 1) := Nat.lt_log2_self
        apply Format.fits_settle
        generalize hunit : max f.leastUnit (unit + mantissa.log2 - f.fractionBits) = coarser
        have hcoarser : unit + mantissa.log2 - f.fractionBits ≤ coarser :=
          hunit ▸ le_max_right _ _
        split
        · calc mantissa * 2 ^ (unit - coarser).toNat
              ≤ 2 ^ (mantissa.log2 + 1) * 2 ^ (unit - coarser).toNat :=
                Nat.mul_le_mul_right _ hlog.le
            _ = 2 ^ (mantissa.log2 + 1 + (unit - coarser).toNat) := (Nat.pow_add ..).symm
            _ ≤ 2 ^ (f.fractionBits + 1) := Nat.pow_le_pow_right Nat.two_pos (by omega)
        · refine roundDiv_two_pow_le (lt_of_lt_of_le hlog ?_)
          exact Nat.pow_le_pow_right Nat.two_pos (by omega)

theorem Binary.isNaN_roundTo (f : Format) (b : Binary) : (b.roundTo f).isNaN = b.isNaN := by
  cases b with
  | notANumber => rfl
  | infinite negative => rfl
  | finite negative mantissa unit =>
      unfold Binary.roundTo
      dsimp only
      split
      · rfl
      · exact f.isNaN_settle _ _ _

/-! ## Patterns -/

/-- A double precision pattern is no number if its exponent field is full and its fraction field is
not empty. -/
def NoNumber (bits : Nat) : Prop := bits / 2 ^ 52 % 2 ^ 11 = 2 ^ 11 - 1 ∧ bits % 2 ^ 52 ≠ 0

/-- The pattern of a finite double precision value. -/
theorem encode_double_finite (negative : Bool) (mantissa : Nat) (unit : Int) :
    Format.double.encode (.finite negative mantissa unit) =
      (if negative then 2 ^ 63 else 0) +
        if mantissa < 2 ^ 52 then mantissa
        else (unit + 1075).toNat * 2 ^ 52 + (mantissa - 2 ^ 52) := by
  have hleast : unit - Format.double.leastUnit + 1 = unit + 1075 := by
    change unit - -1074 + 1 = unit + 1075
    omega
  have hfraction : Nat.pow 2 Format.double.fractionBits = 2 ^ 52 := rfl
  simp only [Format.encode, hleast, hfraction]
  by_cases hsmall : mantissa < 2 ^ 52
  · rw [if_pos hsmall, if_pos hsmall]
    rfl
  · rw [if_neg hsmall, if_neg hsmall, Nat.add_assoc]
    rfl

/-- A value that fits is encoded as no number only if it is none. -/
theorem noNumber_encode {b : Binary} (h : b.Fits .double) :
    NoNumber (Format.double.encode b % 2 ^ 64) ↔ b.isNaN = true := by
  unfold NoNumber
  cases b with
  | notANumber => decide +kernel
  | infinite negative => cases negative <;> decide +kernel
  | finite negative mantissa unit =>
      obtain ⟨hmantissa, hunit⟩ := h
      have hfield : (unit + 1075).toNat ≤ 2046 := by
        have hmax : (Format.double.maxExponent : Int) - Format.double.fractionBits = 971 := rfl
        omega
      change mantissa < 2 ^ 53 at hmantissa
      rw [encode_double_finite]
      generalize (unit + 1075).toNat = field at hfield ⊢
      refine iff_of_false (fun hnone => ?_) Bool.false_ne_true
      obtain ⟨hfull, -⟩ := hnone
      split at hfull <;> split at hfull <;> omega

/-! ## Machine numbers -/

theorem isNaN_unpack_iff {spec : Float.Model.Format} {bits : BitVec spec.numBits} :
    (unpack spec bits).isNaN = true ↔ unpackExponent bits = -1#_ ∧ unpackMantissa bits ≠ 0#_ := by
  unfold unpack
  dsimp only
  by_cases hexponent : unpackExponent bits = -1#_
  · rw [if_pos hexponent]
    by_cases hmantissa : unpackMantissa bits = 0#_
    · rw [if_pos hmantissa]
      exact iff_of_false Bool.false_ne_true fun h => h.2 hmantissa
    · rw [if_neg hmantissa]
      exact iff_of_true rfl ⟨hexponent, hmantissa⟩
  · rw [if_neg hexponent]
    refine iff_of_false (fun h => ?_) fun h => hexponent h.1
    -- whatever the mantissa is, what is unpacked is a number
    by_cases hsubnormal : unpackExponent bits = 0#_
    · rw [if_pos hsubnormal] at h
      by_cases hzero : unpackMantissa bits = 0#_
      · rw [dif_pos hzero] at h
        cases h
      · rw [dif_neg hzero] at h
        cases h
    · rw [if_neg hsubnormal] at h
      cases h

theorem isNaN_unpack_packedInfinity (sign : UnpackedFloat.Sign) :
    (unpack .binary64 (packedInfinity .binary64 sign)).isNaN = false := by
  cases sign <;> decide +kernel

/-- What is packed without a full exponent field is a number. -/
theorem isNaN_unpack_packComponents (sign : UnpackedFloat.Sign) {exponent : Nat}
    (h : exponent + 1 < 2 ^ 11) (mantissa : BitVec 52) :
    (unpack .binary64 (packComponents .binary64 sign (BitVec.ofNat 11 exponent) mantissa)).isNaN =
      false := by
  rw [Bool.eq_false_iff, ne_eq, isNaN_unpack_iff, unpackExponent_packComponents]
  rintro ⟨hfull, -⟩
  have hfield := congrArg BitVec.toNat hfull
  rw [BitVec.toNat_ofNat, Nat.mod_eq_of_lt (Nat.lt_of_succ_lt h)] at hfield
  change exponent = 2 ^ 11 - 1 at hfield
  omega

/-- Packing keeps what is a number and what is none. -/
theorem isNaN_unpack_pack (u : UnpackedFloat) :
    (unpack .binary64 (pack .binary64 u)).isNaN = u.isNaN := by
  fun_cases pack .binary64 u with
  | case1 => decide +kernel
  | case2 sign => exact isNaN_unpack_packedInfinity sign
  | case3 sign => cases sign <;> decide +kernel
  | case4 sign mantissa exponent _ _ _ => exact isNaN_unpack_packedInfinity sign
  | case5 sign mantissa exponent _ bits biased hfits _ =>
      exact isNaN_unpack_packComponents sign (not_le.mp hfits) _
  | case6 sign mantissa exponent _ bits biased _ _ =>
      have hempty : 0 + 1 < 2 ^ 11 := by decide
      exact isNaN_unpack_packComponents sign hempty _

theorem isNaN_ofBits_iff {bits : UInt64} :
    (Float.ofBits bits).isNaN = true ↔ NoNumber bits.toNat := by
  have hexponent : (@unpackExponent .binary64 bits.toBitVec).toNat =
      bits.toNat / 2 ^ 52 % 2 ^ 11 := by
    simp [unpackExponent, Nat.shiftRight_eq_div_pow]
  have hmantissa : (@unpackMantissa .binary64 bits.toBitVec).toNat =
      bits.toNat % 2 ^ 52 := by
    simp [unpackMantissa]
  have hpack : (Float.ofBits bits).isNaN = (unpack .binary64 bits.toBitVec).isNaN :=
    isNaN_unpack_pack _
  rw [hpack, isNaN_unpack_iff, NoNumber, ← hexponent, ← hmantissa, ne_eq, ne_eq,
    ← BitVec.toNat_inj, ← BitVec.toNat_inj]
  rfl

/-- A value becomes not-a-number only if it is not-a-number. -/
theorem Binary.isNaN_toFloat (b : Binary) : b.toFloat.isNaN = b.isNaN := by
  have hfits : (b.roundTo .double).Fits .double := b.fits_roundTo (by decide)
  rw [Bool.eq_iff_iff, Binary.toFloat, isNaN_ofBits_iff, UInt64.toNat_ofNat', noNumber_encode hfits,
    b.isNaN_roundTo]

/-- A sample that is a number is one for the machine too. -/
theorem Single.isNaN_toFloat (s : Single) : s.toFloat.isNaN = s.isNaN := s.value.isNaN_toFloat

end PointElevation.Number
