import PointElevation.Number.Rounding

/-!
# Binary floating point values, exactly

A tile stores its heights as binary numbers, and the service computes with them in two widths.
Here a value is a sign, a mantissa and the exponent of its unit, so that all arithmetic on it is
exact arithmetic on `Nat` and `Int`.

* `Format` names a width by its fraction and exponent bits; `Format.single` and `Format.double`
  are the ones in use, `Format.half` occurs in tiles only.
* `Format.decode` and `Format.encode` pass between bit patterns and values.
* `Format.round` is where precision is lost: it takes any quotient to the nearest value of the
  format, ties to even, and to an infinity past the largest finite value.  `Binary.roundTo` does the
  same to a value, and without a quotient, which `Binary.roundTo_finite` allows.

Formats are known where they are used, so what depends on one alone is worked out in advance; hence
the short definitions here are inlined.
-/

namespace PointElevation.Number

/-- A value of some binary format: `mantissa * 2 ^ unit` with a sign, or one of the specials. -/
inductive Binary where
  | notANumber
  | infinite (negative : Bool)
  | finite (negative : Bool) (mantissa : Nat) (unit : Int)
deriving DecidableEq, Repr, Inhabited

/-- A binary interchange format, given by the widths of two of its three fields; the third is the
sign bit. -/
structure Format where
  fractionBits : Nat
  exponentBits : Nat
deriving DecidableEq, Repr

namespace Format

@[inline] def half : Format := ⟨10, 5⟩

@[inline] def single : Format := ⟨23, 8⟩

@[inline] def double : Format := ⟨52, 11⟩

/-- The exponent of the leading bit of the largest finite values. -/
@[inline] def maxExponent (f : Format) : Nat := Nat.pow 2 (f.exponentBits - 1) - 1

/-- The largest finite value, which is an integer in every format in use. -/
def greatest (f : Format) : Nat :=
  (Nat.pow 2 (f.fractionBits + 1) - 1) * Nat.pow 2 (f.maxExponent - f.fractionBits)

/-- The exponent of the smallest positive value, which is also the unit of all subnormal ones. -/
@[inline] def leastUnit (f : Format) : Int := 1 - (f.maxExponent : Int) - f.fractionBits

/-- The value of a bit pattern; bits above the format's width are ignored. -/
@[inline] def decode (f : Format) (bits : Nat) : Binary :=
  let fraction := bits % Nat.pow 2 f.fractionBits
  let exponent := bits / Nat.pow 2 f.fractionBits % Nat.pow 2 f.exponentBits
  let negative := bits / Nat.pow 2 (f.fractionBits + f.exponentBits) % 2 == 1
  if exponent = Nat.pow 2 f.exponentBits - 1 then
    if fraction = 0 then .infinite negative else .notANumber
  else if exponent = 0 then .finite negative fraction f.leastUnit
  else .finite negative (Nat.pow 2 f.fractionBits + fraction) (f.leastUnit + exponent - 1)

/-- The sign bit of the format, set or not. -/
@[inline] def signBit (f : Format) (negative : Bool) : Nat :=
  if negative then Nat.pow 2 (f.fractionBits + f.exponentBits) else 0

/-- The bit pattern of a value of the format.  A mantissa below `2 ^ fractionBits` belongs to a
subnormal value, whose exponent field is zero. -/
@[inline] def encode (f : Format) : Binary → Nat
  | .notANumber =>
      (Nat.pow 2 f.exponentBits - 1) * Nat.pow 2 f.fractionBits + Nat.pow 2 (f.fractionBits - 1)
  | .infinite negative =>
      f.signBit negative + (Nat.pow 2 f.exponentBits - 1) * Nat.pow 2 f.fractionBits
  | .finite negative mantissa unit =>
      if mantissa < Nat.pow 2 f.fractionBits then f.signBit negative + mantissa
      else f.signBit negative + (unit - f.leastUnit + 1).toNat * Nat.pow 2 f.fractionBits
        + (mantissa - Nat.pow 2 f.fractionBits)

end Format

/-- The exponent of the leading bit of `num / den`, both positive: the greatest `e` with
`2 ^ e ≤ num / den`. -/
def leadingExponent (num den : Nat) : Int :=
  let guess : Int := (num.log2 : Int) - den.log2
  if den * Nat.pow 2 guess.toNat ≤ num * Nat.pow 2 (-guess).toNat then guess else guess - 1

/-- The value with a mantissa of at most one bit more than the fraction field, rounded up from a
quotient or not.  If it is the next power of two, it moves to the next unit, and past the largest
finite value there is an infinity. -/
@[inline] def Format.settle (f : Format) (negative : Bool) (mantissa : Nat) (unit : Int) : Binary :=
  let carried := mantissa == Nat.pow 2 (f.fractionBits + 1)
  let mantissa := if carried then Nat.pow 2 f.fractionBits else mantissa
  let unit := if carried then unit + 1 else unit
  if unit > (f.maxExponent : Int) - f.fractionBits then .infinite negative
  else .finite negative mantissa unit

/-- The value of the format nearest to `num / den`, ties to even.  The unit is chosen so that the
mantissa has one bit more than the fraction field, or is the least unit where that is larger. -/
def Format.round (f : Format) (negative : Bool) (num den : Nat) : Binary :=
  if num = 0 then .finite negative 0 f.leastUnit
  else
    let unit := max f.leastUnit (leadingExponent num den - f.fractionBits)
    f.settle negative (roundDiv (num * Nat.pow 2 (-unit).toNat) (den * Nat.pow 2 unit.toNat)) unit

namespace Binary

/-- The nearest value of the given format, ties to even, as `Format.round` finds it for a quotient;
here only the unit changes. -/
@[inline] def roundTo (f : Format) : Binary → Binary
  | .finite negative mantissa unit =>
      if mantissa = 0 then .finite negative 0 f.leastUnit
      else
        let coarser := max f.leastUnit (unit + mantissa.log2 - f.fractionBits)
        f.settle negative
          (if coarser ≤ unit then mantissa * Nat.pow 2 (unit - coarser).toNat
            else roundDiv mantissa (Nat.pow 2 (coarser - unit).toNat))
          coarser
  | special => special

/-- The exact value of a machine number. -/
def ofFloat (x : Float) : Binary := Format.double.decode x.toBits.toNat

/-- The machine number nearest to a value. -/
def toFloat (b : Binary) : Float :=
  Float.ofBits (UInt64.ofNat (Format.double.encode (b.roundTo Format.double)))

/-- The value of an integer. -/
def ofInt (n : Int) : Binary := .finite (n < 0) n.natAbs 0

def isNaN : Binary → Bool
  | .notANumber => true
  | _ => false

/-- The integer left when the fraction of a finite value is dropped. -/
def truncate? : Binary → Option Int
  | .finite negative mantissa unit =>
      let size : Int := (mantissa * Nat.pow 2 unit.toNat / Nat.pow 2 (-unit).toNat : Nat)
      some (if negative then -size else size)
  | _ => none

/-- A finite value as the quotient of an integer and a power of two. -/
def quotient? : Binary → Option (Int × Nat)
  | .finite negative mantissa unit =>
      let size : Int := (mantissa * Nat.pow 2 unit.toNat : Nat)
      some (if negative then -size else size, Nat.pow 2 (-unit).toNat)
  | _ => none

/-- Whether a finite value has no fraction. -/
def isIntegral : Binary → Bool
  | .finite _ mantissa unit => mantissa * Nat.pow 2 unit.toNat % Nat.pow 2 (-unit).toNat == 0
  | _ => false

end Binary

/-- The integer left when the fraction of a machine number is dropped; the specials have none. -/
def truncate? (x : Float) : Option Int := (Binary.ofFloat x).truncate?

/-- The machine number nearest to an integer. -/
def floatOfInt (n : Int) : Float := (Binary.ofInt n).toFloat

/-- A power of two as a factor only lengthens a number. -/
theorem log2_mul_two_pow {m : Nat} (hm : m ≠ 0) (a : Nat) :
    (m * Nat.pow 2 a).log2 = m.log2 + a := by
  have hpos : m * 2 ^ a ≠ 0 := Nat.mul_ne_zero hm (Nat.ne_of_gt (Nat.two_pow_pos a))
  rw [Nat.pow_eq, Nat.log2_eq_iff hpos, Nat.pow_add, Nat.add_right_comm, Nat.pow_add]
  exact ⟨Nat.mul_le_mul_right _ (Nat.log2_self_le hm),
    Nat.mul_lt_mul_of_pos_right Nat.lt_log2_self (Nat.two_pow_pos a)⟩

/-- Powers of two only move the leading bit. -/
theorem leadingExponent_two_pow {m : Nat} (hm : m ≠ 0) (a b : Nat) :
    leadingExponent (m * Nat.pow 2 a) (Nat.pow 2 b) = m.log2 + a - b := by
  unfold leadingExponent
  rw [log2_mul_two_pow hm, Nat.pow_eq, Nat.log2_two_pow]
  simp only [Nat.pow_eq]
  rw [if_pos]
  · omega
  · generalize hg : ((m.log2 + a : Nat) : Int) - b = g
    have hexp : b + g.toNat = m.log2 + (a + (-g).toNat) := by omega
    rw [← Nat.pow_add, hexp, Nat.mul_assoc, ← Nat.pow_add, Nat.pow_add 2 m.log2]
    exact Nat.mul_le_mul_right _ (Nat.log2_self_le hm)

/-- Rounding a value is rounding the quotient that it is. -/
theorem Binary.roundTo_finite (f : Format) (negative : Bool) (mantissa : Nat) (unit : Int) :
    (Binary.finite negative mantissa unit).roundTo f =
      f.round negative (mantissa * Nat.pow 2 unit.toNat) (Nat.pow 2 (-unit).toNat) := by
  by_cases hm : mantissa = 0
  · simp [Binary.roundTo, Format.round, hm]
  · have hnum : mantissa * Nat.pow 2 unit.toNat ≠ 0 :=
      Nat.mul_ne_zero hm (Nat.ne_of_gt (Nat.two_pow_pos _))
    have hlead : (mantissa.log2 : Int) + unit.toNat - (-unit).toNat = unit + mantissa.log2 := by
      omega
    simp only [Binary.roundTo, Format.round, hm, hnum, if_false, leadingExponent_two_pow hm, hlead]
    generalize max f.leastUnit (unit + mantissa.log2 - f.fractionBits) = coarser
    congr 1
    have hadd : ∀ a b, Nat.pow 2 a * Nat.pow 2 b = Nat.pow 2 (a + b) :=
      fun a b => (Nat.pow_add 2 a b).symm
    rw [Nat.mul_assoc, hadd, hadd, roundDiv_two_pow]
    by_cases h : coarser ≤ unit
    · rw [if_pos h, if_pos (by omega)]
      congr 2
      omega
    · rw [if_neg h, if_neg (by omega)]
      congr 2
      omega

end PointElevation.Number
