import PointElevation.Proofs.Number.Widening

/-!
# Which integers single precision tells apart

Rounding leaves a value in the one form that its format stores (`Binary.aligned_roundTo`), so
storing a rounded value and reading it again gives that value (`Single.value_ofBinary`), and two
single precision numbers are the same pattern exactly if they were rounded to the same value
(`Single.ofBinary_inj`).

For integers this decides which of them become one number.  Below the twenty-fourth power of two no
bit is lost and the unit is at most one (`roundTo_of_lt`); from there on the unit is at least two
(`roundTo_of_le`).  So an integer below that bound shares its number with no other
integer (`Single.ofInt_eq_iff`), and one on it does.  And up to the fifty-third power of two it
makes no difference whether an integer is taken to double precision first
(`roundTo_roundTo_double`).
-/

namespace PointElevation.Number

variable {f : Format} {negative : Bool} {mantissa m n : Nat} {unit : Int}

/-! ## Values as they are stored -/

/-- The mantissa fills its field, unless the unit is the least one. -/
def Binary.Aligned (f : Format) : Binary → Prop
  | .finite _ mantissa unit =>
      f.leastUnit ≤ unit ∧ (2 ^ f.fractionBits ≤ mantissa ∨ unit = f.leastUnit)
  | _ => True

theorem Format.aligned_settle (hunit : f.leastUnit ≤ unit)
    (hfull : 2 ^ f.fractionBits ≤ mantissa ∨ unit = f.leastUnit) (negative : Bool) :
    (f.settle negative mantissa unit).Aligned f := by
  unfold Format.settle
  dsimp only
  split
  · split
    · trivial
    · exact ⟨by omega, .inl le_rfl⟩
  · split
    · trivial
    · exact ⟨hunit, hfull⟩

/-- Dropping bits leaves as many as are left. -/
theorem two_pow_le_roundDiv {k : Nat} (h : 2 ^ (k + n) ≤ m) : 2 ^ k ≤ roundDiv m (2 ^ n) := by
  have hquotient : 2 ^ k ≤ m / 2 ^ n := by
    rw [Nat.le_div_iff_mul_le (Nat.two_pow_pos n), ← Nat.pow_add]
    exact h
  rcases roundDiv_eq_or m (2 ^ n) with heq | heq <;> omega

theorem Binary.aligned_roundTo (f : Format) (b : Binary) : (b.roundTo f).Aligned f := by
  cases b with
  | notANumber => trivial
  | infinite negative => trivial
  | finite negative mantissa unit =>
      unfold Binary.roundTo
      dsimp only
      by_cases hzero : mantissa = 0
      · rw [if_pos hzero]
        exact ⟨le_rfl, .inr rfl⟩
      · rw [if_neg hzero]
        have hlog : 2 ^ mantissa.log2 ≤ mantissa := Nat.log2_self_le hzero
        apply Format.aligned_settle (le_max_left _ _)
        by_cases hleast : unit + mantissa.log2 - f.fractionBits ≤ f.leastUnit
        · exact .inr (max_eq_left hleast)
        · left
          rw [max_eq_right (by omega)]
          split
          · calc 2 ^ f.fractionBits
                ≤ 2 ^ (mantissa.log2 + (unit - (unit + mantissa.log2 - f.fractionBits)).toNat) :=
                  Nat.pow_le_pow_right Nat.two_pos (by omega)
              _ = 2 ^ mantissa.log2 * 2 ^ (unit - (unit + mantissa.log2 - f.fractionBits)).toNat :=
                  Nat.pow_add ..
              _ ≤ mantissa * 2 ^ (unit - (unit + mantissa.log2 - f.fractionBits)).toNat :=
                  Nat.mul_le_mul_right _ hlog
          · apply two_pow_le_roundDiv
            exact le_trans (Nat.pow_le_pow_right Nat.two_pos (by omega)) hlog

/-! ## Patterns of single precision -/

/-- A pattern by its fields. -/
def singleFields (negative : Bool) (field fraction : Nat) : Nat :=
  (if negative then 2 ^ 31 else 0) + field * 2 ^ 23 + fraction

/-- The pattern of a finite single precision value. -/
theorem encode_single_finite (negative : Bool) (mantissa : Nat) (unit : Int) :
    Format.single.encode (.finite negative mantissa unit) =
      if mantissa < 2 ^ 23 then singleFields negative 0 mantissa
      else singleFields negative (unit + 150).toNat (mantissa - 2 ^ 23) := by
  have hfield : unit - Format.single.leastUnit + 1 = unit + 150 := by
    change unit - -149 + 1 = unit + 150
    omega
  have hfraction : Nat.pow 2 Format.single.fractionBits = 2 ^ 23 := rfl
  simp only [Format.encode, hfield, hfraction, singleFields, Nat.zero_mul, Nat.add_zero]
  rfl

/-- The value of a pattern, unless its exponent field is full. -/
theorem decode_singleFields {field fraction : Nat} (hfield : field < 255)
    (hfraction : fraction < 2 ^ 23) :
    Format.single.decode (singleFields negative field fraction % 2 ^ 32) =
      if field = 0 then .finite negative fraction (-149)
      else .finite negative (2 ^ 23 + fraction) (field - 150) := by
  generalize hbits : singleFields negative field fraction % 2 ^ 32 = bits
  unfold singleFields at hbits
  have hlow : bits % 2 ^ 23 = fraction := by
    split at hbits <;> omega
  have hmiddle : bits / 2 ^ 23 % 2 ^ 8 = field := by
    split at hbits <;> omega
  have hhigh : (bits / 2 ^ 31 % 2 == 1) = negative := by
    rw [Bool.eq_iff_iff, beq_iff_eq]
    cases negative with
    | false =>
        rw [if_neg Bool.false_ne_true] at hbits
        exact iff_of_false (by omega) Bool.false_ne_true
    | true =>
        rw [if_pos rfl] at hbits
        exact iff_of_true (by omega) rfl
  show (if bits / 2 ^ 23 % 2 ^ 8 = 255 then
      if bits % 2 ^ 23 = 0 then Binary.infinite (bits / 2 ^ 31 % 2 == 1) else .notANumber
    else if bits / 2 ^ 23 % 2 ^ 8 = 0 then
      Binary.finite (bits / 2 ^ 31 % 2 == 1) (bits % 2 ^ 23) (-149)
    else Binary.finite (bits / 2 ^ 31 % 2 == 1) (2 ^ 23 + bits % 2 ^ 23)
      (-149 + (bits / 2 ^ 23 % 2 ^ 8 : Nat) - 1)) = _
  rw [hlow, hmiddle, hhigh, if_neg (by omega)]
  by_cases hzero : field = 0
  · rw [if_pos hzero, if_pos hzero]
  · rw [if_neg hzero, if_neg hzero]
    congr 1
    omega

/-- What is stored is read again. -/
theorem decode_encode_single {b : Binary} (hfits : b.Fits .single) (haligned : b.Aligned .single) :
    Format.single.decode (Format.single.encode b % 2 ^ 32) = b := by
  cases b with
  | notANumber => decide +kernel
  | infinite negative => cases negative <;> decide +kernel
  | finite negative mantissa unit =>
      obtain ⟨hmantissa, hunit⟩ := hfits
      obtain ⟨hleast, hfull⟩ := haligned
      change mantissa < 2 ^ 24 at hmantissa
      change unit ≤ 104 at hunit
      change -149 ≤ unit at hleast
      change 2 ^ 23 ≤ mantissa ∨ unit = -149 at hfull
      rw [encode_single_finite]
      by_cases hsmall : mantissa < 2 ^ 23
      · rw [if_pos hsmall, decode_singleFields (by decide) hsmall, if_pos rfl]
        congr 1
        omega
      · have hmantissa : 2 ^ 23 + (mantissa - 2 ^ 23) = mantissa := by omega
        have hunit : ((unit + 150).toNat : Int) - 150 = unit := by omega
        rw [if_neg hsmall, decode_singleFields (by omega) (by omega), if_neg (by omega),
          hmantissa, hunit]

/-- A value is stored as what it is rounded to. -/
theorem Single.value_ofBinary (b : Binary) : (Single.ofBinary b).value = b.roundTo .single := by
  have hfits : (b.roundTo .single).Fits .single := b.fits_roundTo (by decide)
  rw [Single.value, Single.ofBinary, UInt32.toNat_ofNat',
    decode_encode_single hfits (b.aligned_roundTo .single)]

/-- Two values are stored alike if they are rounded to the same. -/
theorem Single.ofBinary_inj {b c : Binary} :
    Single.ofBinary b = Single.ofBinary c ↔ b.roundTo .single = c.roundTo .single := by
  constructor
  · intro h
    rw [← Single.value_ofBinary, ← Single.value_ofBinary, h]
  · intro h
    unfold Single.ofBinary
    rw [h]

/-! ## Rounding what is not small -/

/-- Settling keeps the unit or takes the next one. -/
theorem Format.settle_eq_or (f : Format) (negative : Bool) (mantissa : Nat) (unit : Int) :
    f.settle negative mantissa unit = .infinite negative ∨
      ∃ mantissa' unit', f.settle negative mantissa unit = .finite negative mantissa' unit' ∧
        unit ≤ unit' := by
  unfold Format.settle
  dsimp only
  split
  · split
    · exact .inl rfl
    · exact .inr ⟨_, _, rfl, by omega⟩
  · split
    · exact .inl rfl
    · exact .inr ⟨_, _, rfl, le_rfl⟩

theorem Format.settle_of_lt (hmantissa : mantissa < 2 ^ (f.fractionBits + 1))
    (hunit : unit ≤ (f.maxExponent : Int) - f.fractionBits) (negative : Bool) :
    f.settle negative mantissa unit = .finite negative mantissa unit := by
  have hcarried : (mantissa == Nat.pow 2 (f.fractionBits + 1)) = false :=
    beq_false_of_ne (Nat.ne_of_lt hmantissa)
  unfold Format.settle
  dsimp only
  rw [hcarried, if_neg Bool.false_ne_true, if_neg Bool.false_ne_true, if_neg (by omega)]

/-- The unit of a rounded value is not finer than the leading bit asks for. -/
theorem Binary.roundTo_eq_or (f : Format) (negative : Bool) (hm : m ≠ 0) (unit : Int) :
    (Binary.finite negative m unit).roundTo f = .infinite negative ∨
      ∃ mantissa' unit', (Binary.finite negative m unit).roundTo f =
          .finite negative mantissa' unit' ∧ unit + m.log2 - f.fractionBits ≤ unit' := by
  unfold Binary.roundTo
  dsimp only
  rw [if_neg hm]
  refine (f.settle_eq_or negative _ _).imp_right ?_
  rintro ⟨mantissa', unit', heq, hunit⟩
  exact ⟨mantissa', unit', heq, le_trans (le_max_right _ _) hunit⟩

/-- A number that is no less than one in size. -/
def Binary.Sizable : Binary → Prop
  | .finite _ mantissa unit => mantissa ≠ 0 ∧ 0 ≤ unit + mantissa.log2
  | .infinite _ => True
  | .notANumber => False

theorem Binary.sizable_ofInt {n : Int} (hn : n ≠ 0) : (Binary.ofInt n).Sizable :=
  ⟨Int.natAbs_ne_zero.mpr hn, by omega⟩

/-- Rounding does not make it less than one. -/
theorem Binary.Sizable.roundTo {b : Binary} (hf : f.fractionBits + 1 < f.maxExponent)
    (h : b.Sizable) : (b.roundTo f).Sizable := by
  have hleast : f.leastUnit < -(f.fractionBits : Int) := by
    unfold Format.leastUnit
    omega
  cases b with
  | notANumber => exact h
  | infinite negative => trivial
  | finite negative mantissa unit =>
      obtain ⟨hm, hsize⟩ := h
      have haligned := (Binary.finite negative mantissa unit).aligned_roundTo f
      rcases roundTo_eq_or f negative hm unit with heq | ⟨mantissa', unit', heq, hunit⟩
      · rw [heq]
        trivial
      · rw [heq] at haligned ⊢
        -- the unit is not the least one, so the mantissa fills its field
        have hfull : 2 ^ f.fractionBits ≤ mantissa' := haligned.2.resolve_right (by omega)
        have hne : mantissa' ≠ 0 := Nat.ne_of_gt (lt_of_lt_of_le (Nat.two_pow_pos _) hfull)
        have hlog : f.fractionBits ≤ mantissa'.log2 := (Nat.le_log2 hne).mpr hfull
        exact ⟨hne, by omega⟩

/-! ## Comparing -/

namespace Single

variable {s t : Single}

/-- With a number that is no zero only the same number is equal, -/
theorem equals_iff_of_sizable (ht : t.value.Sizable) : s.equals t = true ↔ s.value = t.value := by
  unfold equals
  split
  · rename_i hzero
    rw [hzero] at ht
    exact absurd rfl ht.1
  · rename_i hnone
    rw [hnone]
    refine iff_of_false Bool.false_ne_true fun heq => ?_
    rw [← heq] at ht
    exact ht
  · exact beq_iff_eq

/-- and with a zero either zero is. -/
theorem equals_iff_of_zero {unit : Int} (ht : t.value = .finite negative 0 unit) :
    s.equals t = true ↔ ∃ negative' unit', s.value = .finite negative' 0 unit' := by
  unfold equals
  split
  · rename_i hzero _
    exact iff_of_true rfl ⟨_, _, hzero⟩
  · rename_i hnone
    rw [hnone]
    exact iff_of_false Bool.false_ne_true nofun
  · rename_i hother
    rw [beq_iff_eq]
    constructor
    · intro heq
      exact ⟨_, _, heq.trans ht⟩
    · rintro ⟨negative', unit', heq⟩
      exact (hother _ _ _ _ heq ht).elim

end Single

/-! ## Integers -/

/-- An integer whose bits all fit keeps them, with a unit that is no more than one. -/
theorem roundTo_of_lt (hf : f.fractionBits + 1 < f.maxExponent)
    (hm : m < 2 ^ (f.fractionBits + 1)) (negative : Bool) :
    ∃ k : Nat, (Binary.finite negative m 0).roundTo f = .finite negative (m * 2 ^ k) (-k) := by
  have hleast : f.leastUnit = 1 - (f.maxExponent : Int) - f.fractionBits := rfl
  by_cases hzero : m = 0
  · refine ⟨f.maxExponent + f.fractionBits - 1, ?_⟩
    simp only [Binary.roundTo, hzero, if_true, Nat.zero_mul, hleast]
    congr 1
    omega
  · have hlog : m.log2 ≤ f.fractionBits := Nat.lt_succ_iff.mp ((Nat.log2_lt hzero).mpr hm)
    have hunit : max f.leastUnit (0 + (m.log2 : Int) - f.fractionBits) =
        -((f.fractionBits - m.log2 : Nat) : Int) := by omega
    have hshift : (0 - -((f.fractionBits - m.log2 : Nat) : Int)).toNat =
        f.fractionBits - m.log2 := by omega
    have hfull : m * 2 ^ (f.fractionBits - m.log2) < 2 ^ (f.fractionBits + 1) := by
      calc m * 2 ^ (f.fractionBits - m.log2)
          < 2 ^ (m.log2 + 1) * 2 ^ (f.fractionBits - m.log2) :=
            Nat.mul_lt_mul_of_pos_right Nat.lt_log2_self (Nat.two_pow_pos _)
        _ = 2 ^ (f.fractionBits + 1) := by
            rw [← Nat.pow_add]
            congr 1
            omega
    refine ⟨f.fractionBits - m.log2, ?_⟩
    simp only [Binary.roundTo, if_neg hzero, hunit]
    rw [if_pos (by omega), hshift]
    exact Format.settle_of_lt hfull (by omega) negative

/-- A greater one has a unit that is at least two, or none. -/
theorem roundTo_of_le (hm : 2 ^ (f.fractionBits + 1) ≤ m) (negative negative' : Bool)
    (k k' : Nat) : (Binary.finite negative m 0).roundTo f ≠ .finite negative' k (-k') := by
  have hzero : m ≠ 0 := Nat.ne_of_gt (lt_of_lt_of_le (Nat.two_pow_pos _) hm)
  have hlog : f.fractionBits + 1 ≤ m.log2 := (Nat.le_log2 hzero).mpr hm
  intro hsmall
  rcases Binary.roundTo_eq_or f negative hzero 0 with heq | ⟨mantissa', unit', heq, hunit⟩
  · cases hsmall.symm.trans heq
  · rw [hsmall, Binary.finite.injEq] at heq
    omega

/-- A power of two may be in the mantissa or in the unit. -/
theorem roundTo_shift (f : Format) (negative : Bool) (m k : Nat) :
    (Binary.finite negative (m * 2 ^ k) (-k)).roundTo f =
      (Binary.finite negative m 0).roundTo f := by
  have hunit : (-(k : Int)).toNat = 0 := by omega
  have hshift : (- -(k : Int)).toNat = k := by omega
  rw [Binary.roundTo_finite, Binary.roundTo_finite, hunit, hshift]
  show f.round negative (m * 2 ^ k * 1) (2 ^ k) = f.round negative (m * 1) 1
  rw [Nat.mul_one, Nat.mul_one]
  by_cases hzero : m = 0
  · simp only [Format.round, hzero, Nat.zero_mul, if_true]
  · have hpos : m * 2 ^ k ≠ 0 := Nat.mul_ne_zero hzero (Nat.ne_of_gt (Nat.two_pow_pos k))
    have hlead : leadingExponent (m * 2 ^ k) (2 ^ k) = leadingExponent m 1 := by
      have hone := leadingExponent_two_pow hzero 0 0
      rw [Nat.pow_eq, pow_zero, Nat.mul_one] at hone
      rw [hone]
      refine (leadingExponent_two_pow hzero k k).trans ?_
      omega
    simp only [Format.round, if_neg hpos, if_neg hzero, hlead]
    generalize max f.leastUnit (leadingExponent m 1 - f.fractionBits) = coarser
    congr 1
    have hnum : m * 2 ^ k * Nat.pow 2 (-coarser).toNat = m * Nat.pow 2 (-coarser).toNat * 2 ^ k :=
      Nat.mul_right_comm ..
    have hden : 2 ^ k * Nat.pow 2 coarser.toNat = 1 * Nat.pow 2 coarser.toNat * 2 ^ k := by
      rw [Nat.one_mul, Nat.mul_comm]
    rw [hnum, hden, roundDiv_mul_right _ _ (Nat.two_pow_pos k)]

/-- Integers below the bound stay apart from all others. -/
theorem roundTo_ofInt_inj (hf : f.fractionBits + 1 < f.maxExponent) {m n : Int}
    (hn : n.natAbs < 2 ^ (f.fractionBits + 1)) :
    (Binary.ofInt m).roundTo f = (Binary.ofInt n).roundTo f ↔ m = n := by
  constructor
  · intro heq
    obtain ⟨k, hk⟩ := roundTo_of_lt hf hn (n < 0)
    have hm : m.natAbs < 2 ^ (f.fractionBits + 1) := by
      by_contra hlarge
      exact roundTo_of_le (not_lt.mp hlarge) (m < 0) (n < 0) (n.natAbs * 2 ^ k) k (heq.trans hk)
    obtain ⟨j, hj⟩ := roundTo_of_lt hf hm (m < 0)
    have hvalues := hj.symm.trans (heq.trans hk)
    rw [Binary.finite.injEq] at hvalues
    obtain ⟨hsign, hmantissa, hunit⟩ := hvalues
    obtain rfl : j = k := by omega
    have hsize := Nat.eq_of_mul_eq_mul_right (Nat.two_pow_pos j) hmantissa
    have hsides : m < 0 ↔ n < 0 := by simpa using hsign
    omega
  · rintro rfl
    rfl

/-! ## Integers in single precision -/

/-- A size that is not zero is with its sign an integer. -/
theorem Binary.finite_eq_ofInt {size : Nat} (hsize : size ≠ 0) (negative : Bool) :
    Binary.finite negative size 0 = .ofInt (if negative then -(size : Int) else size) := by
  cases negative with
  | false => simp [Binary.ofInt]
  | true => simpa [Binary.ofInt] using Nat.pos_of_ne_zero hsize

/-- An integer that double precision holds may be taken to it on the way. -/
theorem roundTo_roundTo_double {n : Int} (hn : n.natAbs < 2 ^ 53) (f : Format) :
    ((Binary.ofInt n).roundTo .double).roundTo f = (Binary.ofInt n).roundTo f := by
  have hdouble : Format.double.fractionBits + 1 < Format.double.maxExponent := by decide
  obtain ⟨k, hk⟩ := roundTo_of_lt hdouble hn (n < 0)
  calc ((Binary.ofInt n).roundTo .double).roundTo f
      = (Binary.finite (n < 0) (n.natAbs * 2 ^ k) (-k)).roundTo f := by rw [Binary.ofInt, hk]
    _ = (Binary.ofInt n).roundTo f := roundTo_shift f (n < 0) n.natAbs k

theorem Single.ofBinary_double {n : Int} (hn : n.natAbs < 2 ^ 53) :
    Single.ofBinary ((Binary.ofInt n).roundTo .double) = Single.ofInt n :=
  Single.ofBinary_inj.mpr (roundTo_roundTo_double hn .single)

/-- An integer below the twenty-fourth power of two shares its number with no other integer. -/
theorem Single.ofInt_eq_iff {m n : Int} (hn : n.natAbs < 2 ^ 24) :
    Single.ofInt m = Single.ofInt n ↔ m = n := by
  have hsingle : Format.single.fractionBits + 1 < Format.single.maxExponent := by decide
  exact Single.ofBinary_inj.trans (roundTo_ofInt_inj hsingle hn)

example : Single.ofInt (2 ^ 24) = Single.ofInt (2 ^ 24 + 1) := by decide +kernel

/-- An integer is a number. -/
theorem Single.isNaN_ofInt (n : Int) : (Single.ofInt n).isNaN = false := by
  rw [Single.isNaN, Single.ofInt, Single.value_ofBinary, Binary.isNaN_roundTo]
  rfl

/-- The number of an integer is a zero only if the integer is. -/
theorem Single.value_ofInt_eq_zero_iff {m : Int} :
    (∃ negative unit, (Single.ofInt m).value = .finite negative 0 unit) ↔ m = 0 := by
  rw [Single.ofInt, Single.value_ofBinary]
  constructor
  · rintro ⟨negative, unit, hzero⟩
    by_contra hne
    have hsizable := (Binary.sizable_ofInt hne).roundTo (f := .single) (by decide)
    rw [hzero] at hsizable
    exact hsizable.1 rfl
  · rintro rfl
    exact ⟨_, _, rfl⟩

/-- An integer equals what was read for another one, through double precision and with either zero,
exactly if they are one number in single precision. -/
theorem Single.equals_ofBinary_iff (m : Int) (negative : Bool) (size : Nat) :
    (Single.ofInt m).equals (Single.ofBinary ((Binary.finite negative size 0).roundTo .double)) =
        true ↔
      Single.ofInt m = Single.ofBinary
        ((Binary.ofInt (if negative then -size else size)).roundTo .double) := by
  by_cases hzero : size = 0
  · have hvalue : (Single.ofBinary ((Binary.finite negative size 0).roundTo .double)).value =
        .finite negative 0 Format.single.leastUnit := by
      rw [Single.value_ofBinary, hzero]
      rfl
    have hnone : (if negative then -(size : Int) else size) = 0 := by split <;> omega
    rw [Single.equals_iff_of_zero hvalue, Single.value_ofInt_eq_zero_iff, hnone,
      Single.ofBinary_double (by decide), Single.ofInt_eq_iff (by decide)]
  · rw [Binary.finite_eq_ofInt hzero]
    have hne : (if negative then -(size : Int) else size) ≠ 0 := by split <;> omega
    generalize (if negative then -(size : Int) else size) = n at hne
    have hsizable : (Single.ofBinary ((Binary.ofInt n).roundTo .double)).value.Sizable := by
      rw [Single.value_ofBinary]
      exact ((Binary.sizable_ofInt hne).roundTo (by decide)).roundTo (by decide)
    rw [Single.equals_iff_of_sizable hsizable, Single.value_ofBinary, Single.ofInt,
      Single.value_ofBinary, Single.ofBinary_inj]

end PointElevation.Number
