import PointElevation.Proofs.Number.Exact

/-!
# Machine numbers and their values

A machine number is a pattern of sixty-four bits, and its value is read off the three fields.  No
machine number is lost that way: the fields put together are the pattern again (`pack_unpack`), the
value of a pattern is one that the format stores as it is (`Binary.roundTo_of_aligned`), and its
encoding is the pattern (`encode_decode_double`).  Only not-a-number has many patterns, of which the
machine makes one (`eq_of_isNaN`).  So the machine number of the value of a machine number is that
number (`Binary.toFloat_ofFloat`), the sign of a zero included.
-/

namespace PointElevation.Number

open Float.Model (UnpackedFloat)
open Float.Model.UnpackedFloat

/-! ## Values that are stored -/

/-- A value as the format stores it is not changed by rounding. -/
theorem Binary.roundTo_of_aligned {f : Format} {b : Binary} (hfits : b.Fits f)
    (haligned : b.Aligned f) : b.roundTo f = b := by
  cases b with
  | notANumber => rfl
  | infinite negative => rfl
  | finite negative mantissa unit =>
      obtain ⟨hmantissa, hunit⟩ := hfits
      obtain ⟨hleast, hfull⟩ := haligned
      unfold Binary.roundTo
      dsimp only
      by_cases hzero : mantissa = 0
      · have hempty : ¬ 2 ^ f.fractionBits ≤ mantissa := by
          rw [hzero]
          exact Nat.not_le.mpr (Nat.two_pow_pos _)
        rw [if_pos hzero, hzero, hfull.resolve_left hempty]
      · have hlog : mantissa.log2 < f.fractionBits + 1 := (Nat.log2_lt hzero).mpr hmantissa
        have hcoarser : max f.leastUnit (unit + mantissa.log2 - f.fractionBits) = unit := by
          rcases hfull with hfull | rfl
          · have hlog : f.fractionBits ≤ mantissa.log2 := (Nat.le_log2 hzero).mpr hfull
            omega
          · omega
        rw [if_neg hzero, hcoarser, if_pos le_rfl, Int.sub_self]
        show f.settle negative (mantissa * 1) unit = _
        rw [Nat.mul_one]
        exact Format.settle_of_lt hmantissa hunit negative

/-- The value of a double precision pattern by its fields. -/
theorem decode_double (bits : Nat) :
    Format.double.decode bits =
      if bits / 2 ^ 52 % 2 ^ 11 = 2047 then
        if bits % 2 ^ 52 = 0 then .infinite (bits / 2 ^ 63 % 2 == 1) else .notANumber
      else if bits / 2 ^ 52 % 2 ^ 11 = 0 then
        .finite (bits / 2 ^ 63 % 2 == 1) (bits % 2 ^ 52) (-1074)
      else .finite (bits / 2 ^ 63 % 2 == 1) (2 ^ 52 + bits % 2 ^ 52)
        ((bits / 2 ^ 52 % 2 ^ 11 : Nat) - 1075) := by
  have hunit (field : Nat) : Format.double.leastUnit + field - 1 = field - 1075 := by
    change -1074 + (field : Int) - 1 = _
    omega
  unfold Format.decode
  dsimp only
  rw [hunit]
  rfl

theorem fits_decode_double (bits : Nat) : (Format.double.decode bits).Fits .double := by
  have hfraction : bits % 2 ^ 52 < 2 ^ 52 := Nat.mod_lt _ (Nat.two_pow_pos 52)
  have hfield : bits / 2 ^ 52 % 2 ^ 11 < 2 ^ 11 := Nat.mod_lt _ (Nat.two_pow_pos 11)
  rw [decode_double]
  split
  · split <;> trivial
  · split
    · exact ⟨show bits % 2 ^ 52 < 2 ^ 53 by omega, show (-1074 : Int) ≤ 971 by decide⟩
    · exact ⟨show 2 ^ 52 + bits % 2 ^ 52 < 2 ^ 53 by omega,
        show ((bits / 2 ^ 52 % 2 ^ 11 : Nat) : Int) - 1075 ≤ 971 by omega⟩

theorem aligned_decode_double (bits : Nat) : (Format.double.decode bits).Aligned .double := by
  rw [decode_double]
  split
  · split <;> trivial
  · split
    · exact ⟨show (-1074 : Int) ≤ -1074 from le_rfl, .inr rfl⟩
    · exact ⟨show (-1074 : Int) ≤ (bits / 2 ^ 52 % 2 ^ 11 : Nat) - 1075 by omega,
        .inl (Nat.le_add_right ..)⟩

/-- A pattern is the encoding of its value. -/
theorem encode_decode_double {bits : Nat} (hbits : bits < 2 ^ 64)
    (hnumber : ¬ NoNumber bits) : Format.double.encode (Format.double.decode bits) = bits := by
  have hsign :
      (if (bits / 2 ^ 63 % 2 == 1) = true then 2 ^ 63 else 0) = bits / 2 ^ 63 * 2 ^ 63 := by
    by_cases hone : bits / 2 ^ 63 % 2 = 1
    · rw [if_pos (beq_iff_eq.mpr hone)]
      omega
    · rw [if_neg (by simpa using hone)]
      omega
  rw [decode_double]
  by_cases hfull : bits / 2 ^ 52 % 2 ^ 11 = 2047
  · have hzero : bits % 2 ^ 52 = 0 := by
      by_contra hne
      exact hnumber ⟨hfull, hne⟩
    rw [if_pos hfull, if_pos hzero]
    show (if (bits / 2 ^ 63 % 2 == 1) = true then 2 ^ 63 else 0) + 2047 * 2 ^ 52 = bits
    rw [hsign]
    omega
  · rw [if_neg hfull]
    by_cases hempty : bits / 2 ^ 52 % 2 ^ 11 = 0
    · rw [if_pos hempty, encode_double_finite, hsign, if_pos (Nat.mod_lt _ (Nat.two_pow_pos 52))]
      omega
    · rw [if_neg hempty, encode_double_finite, hsign, if_neg (by omega)]
      omega

/-! ## Packing -/

/-- The three fields of a pattern, put together again. -/
theorem append_fields (bits : BitVec 64) :
    bits.extractLsb' 63 1 ++ bits.extractLsb' 52 11 ++ bits.extractLsb' 0 52 = bits := by
  have hupper : bits.extractLsb' 63 1 ++ bits.extractLsb' 52 11 = bits.extractLsb' 52 12 :=
    BitVec.extractLsb'_append_extractLsb'_eq_extractLsb' rfl
  have hall : bits.extractLsb' 52 12 ++ bits.extractLsb' 0 52 = bits.extractLsb' 0 64 :=
    BitVec.extractLsb'_append_extractLsb'_eq_extractLsb' rfl
  rw [hupper, hall, BitVec.extractLsb'_eq_self]

theorem packComponents_unpack (bits : BitVec 64) :
    packComponents .binary64 (Sign.ofBitVec (@unpackSign .binary64 bits))
      (@unpackExponent .binary64 bits) (@unpackMantissa .binary64 bits) = bits := by
  have hsign : ∀ v : BitVec 1, (Sign.ofBitVec v).toBitVec = v := by decide
  rw [packComponents, hsign]
  exact append_fields bits

/-- A number whose exponent field is empty. -/
theorem pack_subnormal (sign : Sign) {mantissa : BitVec 52} (hpos : 0 < mantissa.toNat) :
    pack .binary64 (.finite sign mantissa.toNat (-1074) hpos) =
      packComponents .binary64 sign 0#_ mantissa := by
  have hlog : mantissa.toNat.log2 < 52 := (Nat.log2_lt (Nat.ne_of_gt hpos)).mpr mantissa.isLt
  have hsmall : ¬ mantissa.toNat.log2 + 1 = Float.Model.Format.binary64.mantissaBits := by
    change ¬ mantissa.toNat.log2 + 1 = 53
    omega
  unfold pack
  dsimp only
  rw [if_neg (by decide), if_neg hsmall]
  exact congrArg _ (BitVec.ofNat_toNat ..)

/-- A number with a leading bit that is not stored. -/
theorem pack_normal (sign : Sign) {exponent : BitVec 11} (hfield : exponent.toNat + 1 < 2 ^ 11)
    {mantissa : BitVec 52} (hpos : 0 < (1#1 ++ mantissa).toNat) :
    pack .binary64 (.finite sign (1#1 ++ mantissa).toNat (exponent.toNat - 1075) hpos) =
      packComponents .binary64 sign exponent mantissa := by
  have hfraction : mantissa.toNat < 2 ^ 52 := mantissa.isLt
  have hvalue : (1#1 ++ mantissa).toNat = 2 ^ 52 + mantissa.toNat := by
    rw [BitVec.toNat_append, ← Nat.shiftLeft_add_eq_or_of_lt hfraction, Nat.shiftLeft_eq]
    rfl
  have hlog : (1#1 ++ mantissa).toNat.log2 + 1 = Float.Model.Format.binary64.mantissaBits := by
    rw [(Nat.log2_eq_iff (k := 52) (Nat.ne_of_gt hpos)).mpr (by omega)]
    rfl
  have hroom : ¬ 2 ^ Float.Model.Format.binary64.exponentBits ≤ exponent.toNat + 1 :=
    Nat.not_le.mpr hfield
  have hbiased : ((exponent.toNat : Int) - 1075 + Float.Model.Format.binary64.exponentBias +
      Float.Model.Format.binary64.mantissaBitsWithoutImplicit).toNat = exponent.toNat := by
    change ((exponent.toNat : Int) - 1075 + (1023 : Nat) + (52 : Nat)).toNat = _
    omega
  unfold pack
  dsimp only
  rw [hbiased, if_neg hroom, if_pos hlog]
  congr 1
  · exact BitVec.ofNat_toNat ..
  · apply BitVec.eq_of_toNat_eq
    rw [BitVec.toNat_ofNat, hvalue]
    exact (Nat.add_mod_left ..).trans (Nat.mod_eq_of_lt hfraction)

/-- What is unpacked is packed into the same pattern, if not-a-number is the one that is made. -/
theorem pack_unpack {bits : BitVec 64} (hvalid : Float.Model.Format.binary64.Valid bits) :
    pack .binary64 (unpack .binary64 bits) = bits := by
  have hparts := packComponents_unpack bits
  unfold unpack
  dsimp only
  by_cases hfull : @unpackExponent .binary64 bits = -1#_
  · rw [if_pos hfull]
    by_cases hzero : @unpackMantissa .binary64 bits = 0#_
    · rw [if_pos hzero]
      rw [hfull, hzero] at hparts
      exact hparts
    · rw [if_neg hzero]
      exact (hvalid.eq_packedNaN hfull hzero).symm
  · rw [if_neg hfull]
    by_cases hempty : @unpackExponent .binary64 bits = 0#_
    · rw [if_pos hempty]
      rw [hempty] at hparts
      by_cases hzero : @unpackMantissa .binary64 bits = 0#_
      · rw [dif_pos hzero]
        rw [hzero] at hparts
        exact hparts
      · rw [dif_neg hzero]
        have hpos : 0 < (@unpackMantissa .binary64 bits).toNat :=
          Nat.pos_of_ne_zero fun h => hzero (BitVec.eq_of_toNat_eq h)
        have hunit : ((@unpackExponent .binary64 bits).toNat : Int) -
            (Float.Model.Format.binary64.exponentBias + (52 : Nat)) + 1 = -1074 := by
          rw [hempty]
          rfl
        rw [← pack_subnormal _ hpos] at hparts
        exact (congrArg _ ((finite.injEq ..).mpr ⟨rfl, rfl, hunit⟩)).trans hparts
    · rw [if_neg hempty]
      have hfield : (@unpackExponent .binary64 bits).toNat + 1 < 2 ^ 11 := by
        have hlt : (@unpackExponent .binary64 bits).toNat < 2 ^ 11 := BitVec.isLt _
        have hne : (@unpackExponent .binary64 bits).toNat ≠ 2 ^ 11 - 1 :=
          fun h => hfull (BitVec.eq_of_toNat_eq h)
        omega
      exact (pack_normal _ hfield _).trans hparts

/-! ## Machine numbers -/

/-- A machine number is made from its own pattern. -/
theorem ofBits_toBits (x : Float) : Float.ofBits x.toBits = x := by
  obtain ⟨⟨bits, hvalid⟩⟩ := x
  have hbits : UInt64.ofBitVec (pack .binary64 (unpack .binary64 bits.toBitVec)) = bits :=
    congrArg UInt64.ofBitVec (pack_unpack hvalid)
  exact congrArg Float.ofModel ((Float.Model.mk.injEq ..).mpr hbits)

/-- There is only one machine number that is not a number. -/
theorem eq_of_isNaN {x y : Float} (hx : x.isNaN = true) (hy : y.isNaN = true) : x = y := by
  obtain ⟨⟨bits, hvalid⟩⟩ := x
  obtain ⟨⟨bits', hvalid'⟩⟩ := y
  have hbits := hvalid.eq_packedNaN (isNaN_unpack_iff.mp hx).1 (isNaN_unpack_iff.mp hx).2
  have hbits' := hvalid'.eq_packedNaN (isNaN_unpack_iff.mp hy).1 (isNaN_unpack_iff.mp hy).2
  obtain rfl : bits = bits' := UInt64.toBitVec_inj.mp (hbits.trans hbits'.symm)
  rfl

/-- A machine number is the one of its value. -/
theorem Binary.toFloat_ofFloat (x : Float) : (Binary.ofFloat x).toFloat = x := by
  have hbits : x.toBits.toNat < 2 ^ 64 := UInt64.toNat_lt _
  have hround : (Binary.ofFloat x).roundTo .double = Binary.ofFloat x :=
    Binary.roundTo_of_aligned (fits_decode_double _) (aligned_decode_double _)
  by_cases hnumber : NoNumber x.toBits.toNat
  · have hvalue : Binary.ofFloat x = .notANumber := by
      rw [Binary.ofFloat, decode_double]
      exact (if_pos hnumber.1).trans (if_neg hnumber.2)
    refine eq_of_isNaN ?_ ?_
    · rw [hvalue]
      exact Binary.isNaN_toFloat _
    · rwa [← ofBits_toBits x, isNaN_ofBits_iff]
  · rw [Binary.toFloat, hround, Binary.ofFloat, encode_decode_double hbits hnumber,
      UInt64.ofNat_toNat, ofBits_toBits]

theorem isFinite_unpack_iff {bits : BitVec 64} :
    (unpack .binary64 bits).isFinite = true ↔ @unpackExponent .binary64 bits ≠ -1#_ := by
  unfold unpack
  dsimp only
  by_cases hfull : @unpackExponent .binary64 bits = -1#_
  · rw [if_pos hfull]
    refine iff_of_false ?_ fun hne => hne hfull
    by_cases hzero : @unpackMantissa .binary64 bits = 0#_
    · rw [if_pos hzero]
      exact Bool.false_ne_true
    · rw [if_neg hzero]
      exact Bool.false_ne_true
  · rw [if_neg hfull]
    refine iff_of_true ?_ hfull
    by_cases hempty : @unpackExponent .binary64 bits = 0#_
    · rw [if_pos hempty]
      by_cases hzero : @unpackMantissa .binary64 bits = 0#_
      · rw [dif_pos hzero]
        rfl
      · rw [dif_neg hzero]
        rfl
    · rw [if_neg hempty]
      rfl

theorem decode_double_finite_iff {bits : Nat} :
    (∃ negative mantissa unit, Format.double.decode bits = .finite negative mantissa unit) ↔
      bits / 2 ^ 52 % 2 ^ 11 ≠ 2047 := by
  rw [decode_double]
  by_cases hfull : bits / 2 ^ 52 % 2 ^ 11 = 2047
  · rw [if_pos hfull]
    refine iff_of_false ?_ fun hne => hne hfull
    split <;> simp
  · rw [if_neg hfull]
    refine iff_of_true ?_ hfull
    split <;> exact ⟨_, _, _, rfl⟩

/-- A machine number is finite if its value is. -/
theorem isFinite_iff {x : Float} :
    x.isFinite = true ↔
      ∃ negative mantissa unit, Binary.ofFloat x = .finite negative mantissa unit := by
  have hfield : (@unpackExponent .binary64 x.toBits.toBitVec).toNat =
      x.toBits.toNat / 2 ^ 52 % 2 ^ 11 := by
    simp [unpackExponent, Nat.shiftRight_eq_div_pow]
  have hunpack : x.isFinite = (unpack .binary64 x.toBits.toBitVec).isFinite := rfl
  rw [hunpack, isFinite_unpack_iff, Binary.ofFloat, decode_double_finite_iff, ← hfield, ne_eq,
    ne_eq, ← BitVec.toNat_inj]
  rfl

end PointElevation.Number
