import PointElevation.Number.Reading
import PointElevation.Proofs.Number.Nearest

/-!
# The shortest decimal is read back

The decimal that is written for a number was found by comparing it with the ends of the interval
around the number, and the quotients in there are the ones that are rounded to the number
(`Positive.near_of_readsBack`).  Stripping zeros keeps the value, and the exact decimal lies near
anyway, so whichever way `Positive.shortest` takes, its decimal lies near the number
(`Positive.shortest_spec`).  A reader settles very large and very small decimals by their magnitude
alone; no decimal near a number is among them (`Decimal.magnitude_of_range`).  So it is read as the
number (`Decimal.toBinary_of_near`), and so is any other decimal of the same value.
-/

namespace PointElevation.Number

variable {negative : Bool} {m a b : Nat} {unit i j : Int} {d : Decimal} {x : Positive}

/-! ## Comparing with powers of ten -/

/-- The number that a decimal is. -/
def Decimal.value (d : Decimal) : ℚ := d.digits * 10 ^ d.exponent

/-- Both sides of a scaled comparison, over one denominator. -/
theorem compareScaled_eq (a : Nat) (i : Int) (b : Nat) (j : Int) :
    ∃ (left right : Nat) (scale : ℚ), 0 < scale ∧ compareScaled a i b j = compare left right ∧
      (left : ℚ) = a * 10 ^ i * scale ∧ (right : ℚ) = b * 2 ^ j * scale := by
  refine ⟨_, _, 10 ^ (-i).toNat * 2 ^ (-j).toNat, by positivity, rfl, ?_, ?_⟩
  · rw [zpow_eq_div, Nat.pow_eq, Nat.pow_eq]
    push_cast
    field_simp
  · rw [zpow_eq_div, Nat.pow_eq, Nat.pow_eq]
    push_cast
    field_simp

theorem compareScaled_eq_gt_iff :
    compareScaled a i b j = .gt ↔ (b * 2 ^ j : ℚ) < a * 10 ^ i := by
  obtain ⟨left, right, scale, hscale, hcompare, hleft, hright⟩ := compareScaled_eq a i b j
  rw [hcompare, Nat.compare_eq_gt, ← mul_lt_mul_iff_of_pos_right hscale, ← hleft, ← hright,
    Nat.cast_lt]

theorem compareScaled_eq_lt_iff :
    compareScaled a i b j = .lt ↔ (a * 10 ^ i : ℚ) < b * 2 ^ j := by
  obtain ⟨left, right, scale, hscale, hcompare, hleft, hright⟩ := compareScaled_eq a i b j
  rw [hcompare, Nat.compare_eq_lt, ← mul_lt_mul_iff_of_pos_right hscale, ← hleft, ← hright,
    Nat.cast_lt]

theorem compareScaled_eq_eq_iff :
    compareScaled a i b j = .eq ↔ (a * 10 ^ i : ℚ) = b * 2 ^ j := by
  obtain ⟨left, right, scale, hscale, hcompare, hleft, hright⟩ := compareScaled_eq a i b j
  rw [hcompare, Nat.compare_eq_eq, ← mul_left_inj' hscale.ne', ← hleft, ← hright,
    Nat.cast_inj]

/-! ## The interval around a number -/

/-- The lower end in quarters of the unit. -/
theorem Positive.low_quarters (hpos : 0 < x.mantissa) :
    ((if x.narrowBelow then 4 * x.mantissa - 1 else 4 * x.mantissa - 2 : Nat) : ℚ) / 4 =
      x.mantissa - Format.double.gapBelow x.mantissa x.unit := by
  have hnarrow : x.narrowBelow = true ↔
      x.mantissa = 2 ^ Format.double.fractionBits ∧ Format.double.leastUnit < x.unit := by
    simp only [Positive.narrowBelow, Bool.and_eq_true, beq_iff_eq, decide_eq_true_eq, Nat.pow_eq,
      gt_iff_lt]
  unfold Format.gapBelow
  by_cases h : x.narrowBelow = true
  · rw [if_pos h, if_pos (hnarrow.mp h), Nat.cast_sub (by omega)]
    push_cast
    ring
  · rw [if_neg h, if_neg (mt hnarrow.mpr h), Nat.cast_sub (by omega)]
    push_cast
    ring

/-- A decimal that reads back lies near the number. -/
theorem Positive.near_of_readsBack (hpos : 0 < x.mantissa) (h : x.readsBack d = true) :
    Format.double.Near x.mantissa x.unit d.value := by
  have hquarter (c : ℚ) : c * 2 ^ (x.unit - 2) = c / 4 * 2 ^ x.unit := by
    rw [zpow_sub₀ two_ne_zero]
    ring
  have hhalf : ((4 * x.mantissa + 2 : Nat) : ℚ) / 4 = x.mantissa + 1 / 2 := by
    push_cast
    ring
  unfold Positive.readsBack at h
  dsimp only at h
  simp only [Bool.and_eq_true, Bool.or_eq_true, beq_iff_eq, compareScaled_eq_gt_iff,
    compareScaled_eq_lt_iff, compareScaled_eq_eq_iff, hquarter, x.low_quarters hpos, hhalf] at h
  obtain ⟨hlow, hhigh⟩ := h
  change (_ < d.value ∨ _ ∧ d.value = _) at hlow
  change (d.value < _ ∨ _ ∧ d.value = _) at hhigh
  refine ⟨?_, ?_, fun hodd => ?_⟩
  · rcases hlow with hlow | ⟨-, hlow⟩
    · exact hlow.le
    · exact hlow.ge
  · rcases hhigh with hhigh | ⟨-, hhigh⟩
    · exact hhigh.le
    · exact hhigh.le
  · have hclosed : ¬ x.mantissa % 2 = 0 := by omega
    exact ⟨hlow.resolve_right fun h => hclosed h.1, hhigh.resolve_right fun h => hclosed h.1⟩

/-- A value lies near itself. -/
theorem Format.near_self (f : Format) (m : Nat) (unit : Int) : f.Near m unit (m * 2 ^ unit) := by
  have hpos : (0 : ℚ) < 2 ^ unit := by positivity
  have hgap : 0 < f.gapBelow m unit := by
    unfold Format.gapBelow
    split <;> norm_num
  have hlow : (m - f.gapBelow m unit) * 2 ^ unit < m * 2 ^ unit :=
    mul_lt_mul_of_pos_right (by linarith) hpos
  have hhigh : (m * 2 ^ unit : ℚ) < (m + 1 / 2) * 2 ^ unit :=
    mul_lt_mul_of_pos_right (by linarith) hpos
  exact ⟨hlow.le, hhigh.le, fun _ => ⟨hlow, hhigh⟩⟩

/-! ## The decimal that is written -/

theorem Positive.value_exactDecimal (x : Positive) :
    x.exactDecimal.value = x.mantissa * 2 ^ x.unit := by
  unfold Positive.exactDecimal Decimal.value
  dsimp only
  rw [zpow_neg, zpow_natCast, zpow_eq_div 2 x.unit, Nat.pow_eq, Nat.pow_eq]
  have hten : (10 : ℚ) ^ (-x.unit).toNat = 2 ^ (-x.unit).toNat * 5 ^ (-x.unit).toNat := by
    rw [← mul_pow]
    norm_num
  rw [hten]
  push_cast
  field_simp

/-- Stripping zeros keeps the value, and never lowers the exponent. -/
theorem Decimal.stripZeros_spec (fuel : Nat) (d : Decimal) :
    (d.stripZeros fuel).value = d.value ∧ d.exponent ≤ (d.stripZeros fuel).exponent := by
  induction fuel generalizing d with
  | zero => exact ⟨rfl, le_rfl⟩
  | succ fuel ih =>
      rw [Decimal.stripZeros]
      split
      · rename_i h
        obtain ⟨hvalue, hexponent⟩ := ih ⟨d.digits / 10, d.exponent + 1⟩
        refine ⟨?_, ?_⟩
        · have hdigits : (d.digits : ℚ) = (d.digits / 10 : Nat) * 10 := by
            have : d.digits = d.digits / 10 * 10 := by omega
            exact_mod_cast this
          rw [hvalue, Decimal.value, Decimal.value, hdigits, zpow_add_one₀ (by norm_num)]
          ring
        · dsimp only at hexponent
          omega
      · exact ⟨rfl, le_rfl⟩

theorem Positive.le_scale (hunit : -1074 ≤ x.unit) : -325 ≤ x.scale := by
  have hguess : -324 ≤ ((x.mantissa.log2 : Int) + x.unit) * 1233 / 4096 := by omega
  unfold Positive.scale
  dsimp only
  split
  · omega
  · split
    · omega
    · split <;> omega

/-- Only what reads back is taken from a grid. -/
theorem Positive.onGrid_spec {exponent : Int} (h : x.onGrid exponent = some d) :
    x.readsBack d = true ∧ d.exponent = exponent := by
  unfold Positive.onGrid at h
  dsimp only at h
  split at h
  · rename_i hlower _
    cases h
    exact ⟨hlower, rfl⟩
  · rename_i _ hupper
    cases h
    exact ⟨hupper, rfl⟩
  · cases h
  · rename_i hlower hupper
    split at h
    · cases h
      exact ⟨hlower, rfl⟩
    · cases h
      exact ⟨hupper, rfl⟩
    · split at h
      · cases h
        exact ⟨hlower, rfl⟩
      · cases h
        exact ⟨hupper, rfl⟩

/-- The decimal of a number lies near it. -/
theorem Positive.shortest_spec (hpos : 0 < x.mantissa) (hunit : -1074 ≤ x.unit) :
    Format.double.Near x.mantissa x.unit x.shortest.value ∧ -1100 ≤ x.shortest.exponent := by
  unfold Positive.shortest
  dsimp only
  generalize hfound :
    (List.range 17).findSome? (fun n : Nat => x.onGrid (x.scale - (n + 1 : Nat))) = found
  obtain ⟨hvalue, hexponent⟩ := Decimal.stripZeros_spec
    (Nat.toDigits 10 (found.getD x.exactDecimal).digits).length (found.getD x.exactDecimal)
  rw [hvalue]
  cases found with
  | none =>
      rw [Option.getD_none] at hexponent ⊢
      rw [x.value_exactDecimal]
      refine ⟨Format.near_self _ _ _, le_trans ?_ hexponent⟩
      change -1100 ≤ -((-x.unit).toNat : Int)
      omega
  | some d =>
      obtain ⟨n, hn, hgrid⟩ := List.exists_of_findSome?_eq_some hfound
      obtain ⟨hback, hgridExponent⟩ := x.onGrid_spec hgrid
      rw [Option.getD_some] at hexponent ⊢
      refine ⟨x.near_of_readsBack hpos hback, le_trans ?_ hexponent⟩
      have hscale := x.le_scale hunit
      rw [List.mem_range] at hn
      omega

/-! ## Magnitudes -/

/-- Ninety-three bits make no more than twenty-eight digits, -/
theorem two_pow_le_ten_pow (n : Nat) : (2 : ℚ) ^ n ≤ 10 ^ (28 * (n / 93 + 1)) := by
  calc (2 : ℚ) ^ n ≤ 2 ^ (93 * (n / 93 + 1)) := pow_le_pow_right₀ one_le_two (by omega)
    _ = (2 ^ 93) ^ (n / 93 + 1) := pow_mul ..
    _ ≤ (10 ^ 28) ^ (n / 93 + 1) := pow_le_pow_left₀ (by positivity) (by norm_num) _
    _ = 10 ^ (28 * (n / 93 + 1)) := (pow_mul ..).symm

/-- and three digits no more than ten bits. -/
theorem ten_pow_le_two_pow (n : Nat) : (10 : ℚ) ^ (3 * (n / 10)) ≤ 2 ^ n := by
  calc (10 : ℚ) ^ (3 * (n / 10)) = (10 ^ 3) ^ (n / 10) := pow_mul ..
    _ ≤ (2 ^ 10) ^ (n / 10) := pow_le_pow_left₀ (by positivity) (by norm_num) _
    _ = 2 ^ (10 * (n / 10)) := (pow_mul ..).symm
    _ ≤ 2 ^ n := pow_le_pow_right₀ one_le_two (by omega)

/-- A decimal in the range of double precision is not settled by its magnitude. -/
theorem Decimal.magnitude_of_range (hlow : ((2 : ℚ) ^ 1075)⁻¹ ≤ d.value)
    (hhigh : d.value < (2 : ℚ) ^ 1024) (hexponent : -1100 ≤ d.exponent) :
    d.digits ≠ 0 ∧ -400 ≤ d.magnitude ∧ d.magnitude ≤ 400 := by
  have hten : (1 : ℚ) < 10 := by norm_num
  have hne : d.digits ≠ 0 := by
    intro hzero
    rw [Decimal.value, hzero, Nat.cast_zero, zero_mul] at hlow
    exact absurd hlow (not_le.mpr (by positivity))
  have hpos : (0 : ℚ) < 10 ^ d.exponent := by positivity
  have habove : ((3 * (d.digits.log2 / 10) : Nat) : Int) + d.exponent <
      (28 * (1024 / 93 + 1) : Nat) := by
    have hdigits : (10 : ℚ) ^ (3 * (d.digits.log2 / 10)) ≤ d.digits :=
      (ten_pow_le_two_pow _).trans (by exact_mod_cast Nat.log2_self_le hne)
    rw [← zpow_lt_zpow_iff_right₀ hten, zpow_add₀ (by norm_num), zpow_natCast, zpow_natCast]
    calc (10 : ℚ) ^ (3 * (d.digits.log2 / 10)) * 10 ^ d.exponent
        ≤ d.value := mul_le_mul_of_nonneg_right hdigits hpos.le
      _ < 2 ^ 1024 := hhigh
      _ ≤ 10 ^ (28 * (1024 / 93 + 1)) := two_pow_le_ten_pow 1024
  have hbelow : -((28 * (1075 / 93 + 1) : Nat) : Int) <
      ((28 * ((d.digits.log2 + 1) / 93 + 1) : Nat) : Int) + d.exponent := by
    have hdigits : (d.digits : ℚ) < 10 ^ (28 * ((d.digits.log2 + 1) / 93 + 1)) :=
      lt_of_lt_of_le (by exact_mod_cast @Nat.lt_log2_self d.digits) (two_pow_le_ten_pow _)
    rw [← zpow_lt_zpow_iff_right₀ hten, zpow_add₀ (by norm_num), zpow_neg, zpow_natCast,
      zpow_natCast]
    calc ((10 : ℚ) ^ (28 * (1075 / 93 + 1)))⁻¹
        ≤ (2 ^ 1075)⁻¹ := inv_anti₀ (by positivity) (two_pow_le_ten_pow 1075)
      _ ≤ d.value := hlow
      _ < 10 ^ (28 * ((d.digits.log2 + 1) / 93 + 1)) * 10 ^ d.exponent :=
        mul_lt_mul_of_pos_right hdigits hpos
  unfold Decimal.magnitude
  omega

/-- The range of double precision in powers of two. -/
theorem range_of_near {q : ℚ} (hm : 0 < m) (hfits : (Binary.finite negative m unit).Fits .double)
    (hunit : -1074 ≤ unit) (hnear : Format.double.Near m unit q) :
    ((2 : ℚ) ^ 1075)⁻¹ ≤ q ∧ q < 2 ^ 1024 := by
  have hpos : (0 : ℚ) < 2 ^ unit := by positivity
  have hgap := Format.double.gapBelow_le m unit
  obtain ⟨hmantissa, hgreatest⟩ := hfits
  change m < 2 ^ 53 at hmantissa
  change unit ≤ 971 at hgreatest
  constructor
  · have hone : (1 : ℚ) ≤ m := by exact_mod_cast hm
    calc ((2 : ℚ) ^ 1075)⁻¹ = 2 ^ (-1075 : Int) := (zpow_neg _ _).symm
      _ ≤ 2 ^ (unit - 1) := zpow_le_zpow_right₀ one_le_two (by omega)
      _ = 1 / 2 * 2 ^ unit := by
        rw [zpow_sub_one₀ two_ne_zero]
        ring
      _ ≤ (m - Format.double.gapBelow m unit) * 2 ^ unit :=
        mul_le_mul_of_nonneg_right (by linarith) hpos.le
      _ ≤ q := hnear.low
  · have hlt : (m + 1 / 2 : ℚ) < 2 ^ 53 := by
      have : (m + 1 : ℚ) ≤ 2 ^ 53 := by exact_mod_cast hmantissa
      linarith
    calc q ≤ (m + 1 / 2) * 2 ^ unit := hnear.high
      _ < 2 ^ 53 * 2 ^ unit := mul_lt_mul_of_pos_right hlt hpos
      _ ≤ 2 ^ 53 * 2 ^ (971 : Int) :=
        mul_le_mul_of_nonneg_left (zpow_le_zpow_right₀ one_le_two hgreatest) (by positivity)
      _ = 2 ^ 1024 := (pow_add (2 : ℚ) 53 971).symm

/-- A decimal near to a number is read as that number. -/
theorem Decimal.toBinary_of_near (hm : 0 < m) (hfits : (Binary.finite negative m unit).Fits .double)
    (haligned : (Binary.finite negative m unit).Aligned .double) (hexponent : -1100 ≤ d.exponent)
    (hnear : Format.double.Near m unit d.value) :
    d.toBinary negative = .finite negative m unit := by
  obtain ⟨hlow, hhigh⟩ := range_of_near hm hfits haligned.1 hnear
  obtain ⟨hne, hleast, hgreatest⟩ := d.magnitude_of_range hlow hhigh hexponent
  have hvalue : d.value = ((d.digits * Nat.pow 10 d.exponent.toNat : Nat) : ℚ) /
      (Nat.pow 10 (-d.exponent).toNat : Nat) := by
    rw [Decimal.value, zpow_eq_div, Nat.pow_eq, Nat.pow_eq]
    push_cast
    ring
  rw [Decimal.toBinary, if_neg (by omega), if_neg (by omega)]
  rw [hvalue] at hnear
  exact Format.round_of_near hm (Nat.pow_pos (by decide)) hfits haligned hnear

end PointElevation.Number
