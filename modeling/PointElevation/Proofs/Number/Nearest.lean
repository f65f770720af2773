import Mathlib.Algebra.Order.Field.Power
import Mathlib.Data.Rat.Cast.Order
import Mathlib.Tactic.FieldSimp
import Mathlib.Tactic.Linarith
import Mathlib.Tactic.NormNum
import Mathlib.Tactic.Positivity
import Mathlib.Tactic.Ring
import PointElevation.Proofs.Number.Exact

/-!
# Rounding a quotient to a value

Which value of a format a quotient is rounded to is a matter of where it lies: the quotients that
lie near a value (`Format.Near`), which is no further than half way to the next value on either
side, are rounded to it (`Format.round_of_near`).  On the way the unit is found from the leading bit
of the quotient.  It is the unit of the value, but for quotients just below a power of two: they are
rounded up from the finer unit below it (`Format.round_of_finer`).
-/

namespace PointElevation.Number

variable {f : Format} {negative : Bool} {m num den k : Nat} {unit : Int}

/-! ## Quotients of natural numbers -/

/-- A power as a quotient of two of which one is one. -/
theorem zpow_eq_div (b : ℚ) (g : Int) : b ^ g = b ^ g.toNat / b ^ (-g).toNat := by
  rcases le_total 0 g with hg | hg
  · rw [Int.toNat_of_nonpos (by omega : -g ≤ 0), pow_zero, div_one, ← zpow_natCast,
      Int.toNat_of_nonneg hg]
  · rw [Int.toNat_of_nonpos hg, pow_zero, one_div, ← zpow_natCast,
      Int.toNat_of_nonneg (by omega), zpow_neg, inv_inv]

/-- The integer that is nearest, by at most half a unit, and by less if it is odd. -/
theorem roundDiv_eq_of_near (hlow : 2 * (k * den) ≤ 2 * num + den)
    (hhigh : 2 * num ≤ 2 * (k * den) + den)
    (hodd : k % 2 = 1 → 2 * (k * den) < 2 * num + den ∧ 2 * num < 2 * (k * den) + den)
    (hden : 0 < den) : roundDiv num den = k := by
  have hsplit : num / den * den + num % den = num := Nat.div_add_mod' num den
  have hmod : num % den < den := Nat.mod_lt num hden
  have hle : num / den ≤ k := by
    by_contra hlt
    have hmul : (k + 1) * den ≤ num / den * den := Nat.mul_le_mul_right den (by omega)
    rw [Nat.add_mul] at hmul
    omega
  have hge : k ≤ num / den + 1 := by
    by_contra hlt
    have hmul : (num / den + 2) * den ≤ k * den := Nat.mul_le_mul_right den (by omega)
    rw [Nat.add_mul] at hmul
    omega
  unfold roundDiv
  dsimp only
  rcases Nat.eq_or_lt_of_le hle with heq | hlt
  · rw [heq] at hsplit ⊢
    rw [if_pos (by omega)]
  · obtain rfl : k = num / den + 1 := by omega
    rw [Nat.add_mul] at *
    rw [if_neg (by omega)]

/-! ## The leading bit -/

theorem two_pow_le_div_iff (hden : 0 < den) (g : Int) :
    den * Nat.pow 2 g.toNat ≤ num * Nat.pow 2 (-g).toNat ↔ (2 : ℚ) ^ g ≤ num / den := by
  have hpos : (0 : ℚ) < den := Nat.cast_pos.mpr hden
  rw [zpow_eq_div, div_le_div_iff₀ (by positivity) hpos, Nat.mul_comm den, Nat.pow_eq, Nat.pow_eq]
  exact_mod_cast Iff.rfl

/-- The leading bit lies between two powers of two. -/
theorem leadingExponent_spec (hnum : 0 < num) (hden : 0 < den) :
    (2 : ℚ) ^ leadingExponent num den ≤ num / den ∧
      (num / den : ℚ) < 2 ^ (leadingExponent num den + 1) := by
  have hpos : (0 : ℚ) < den := Nat.cast_pos.mpr hden
  have hnumLow : (2 : ℚ) ^ (num.log2 : Int) ≤ num := by
    exact_mod_cast Nat.log2_self_le hnum.ne'
  have hnumHigh : (num : ℚ) < 2 ^ ((num.log2 : Int) + 1) := by
    exact_mod_cast @Nat.lt_log2_self num
  have hdenLow : (2 : ℚ) ^ (den.log2 : Int) ≤ den := by
    exact_mod_cast Nat.log2_self_le hden.ne'
  have hdenHigh : (den : ℚ) < 2 ^ ((den.log2 : Int) + 1) := by
    exact_mod_cast @Nat.lt_log2_self den
  have hhigh : (num / den : ℚ) < 2 ^ ((num.log2 : Int) - den.log2 + 1) := by
    calc (num / den : ℚ) < 2 ^ ((num.log2 : Int) + 1) / 2 ^ (den.log2 : Int) :=
          div_lt_div₀ hnumHigh hdenLow (by positivity) (by positivity)
      _ = 2 ^ ((num.log2 : Int) - den.log2 + 1) := by
          rw [← zpow_sub₀ two_ne_zero, add_sub_right_comm]
  have hlow : (2 : ℚ) ^ ((num.log2 : Int) - den.log2 - 1) ≤ num / den := by
    calc (2 : ℚ) ^ ((num.log2 : Int) - den.log2 - 1)
        = 2 ^ (num.log2 : Int) / 2 ^ ((den.log2 : Int) + 1) := by
          rw [← zpow_sub₀ two_ne_zero, sub_add_eq_sub_sub]
      _ ≤ num / den := div_le_div₀ (by positivity) hnumLow hpos hdenHigh.le
  unfold leadingExponent
  dsimp only
  split
  · rename_i h
    exact ⟨(two_pow_le_div_iff hden _).mp h, hhigh⟩
  · rename_i h
    rw [two_pow_le_div_iff hden, not_le] at h
    rw [sub_add_cancel]
    exact ⟨hlow, h⟩

theorem leadingExponent_eq {e : Int} (hnum : 0 < num) (hden : 0 < den)
    (hlow : (2 : ℚ) ^ e ≤ num / den) (hhigh : (num / den : ℚ) < 2 ^ (e + 1)) :
    leadingExponent num den = e := by
  obtain ⟨hlow', hhigh'⟩ := leadingExponent_spec hnum hden
  have hle := (zpow_lt_zpow_iff_right₀ one_lt_two).mp (hlow.trans_lt hhigh')
  have hge := (zpow_lt_zpow_iff_right₀ one_lt_two).mp (hlow'.trans_lt hhigh)
  omega

/-! ## Units -/

/-- A quotient in units of a power of two. -/
theorem div_scaled (num den : Nat) (unit : Int) :
    ((num * Nat.pow 2 (-unit).toNat : Nat) / (den * Nat.pow 2 unit.toNat : Nat) : ℚ) =
      num / den / 2 ^ unit := by
  rw [zpow_eq_div, Nat.pow_eq, Nat.pow_eq]
  push_cast
  field_simp

/-- A quotient in the given units is rounded to the integer that is nearest. -/
theorem roundDiv_scaled {q : ℚ} (hq : q = num / den) (hden : 0 < den)
    (hlow : (k - 1 / 2) * 2 ^ unit ≤ q) (hhigh : q ≤ (k + 1 / 2) * 2 ^ unit)
    (hodd : k % 2 = 1 → (k - 1 / 2) * 2 ^ unit < q ∧ q < (k + 1 / 2) * 2 ^ unit) :
    roundDiv (num * Nat.pow 2 (-unit).toNat) (den * Nat.pow 2 unit.toNat) = k := by
  have hunit : (0 : ℚ) < 2 ^ unit := by positivity
  have hden' : 0 < den * Nat.pow 2 unit.toNat := Nat.mul_pos hden (Nat.two_pow_pos _)
  have hscaled := div_scaled num den unit
  rw [← hq] at hscaled
  generalize num * Nat.pow 2 (-unit).toNat = a at hscaled ⊢
  generalize den * Nat.pow 2 unit.toNat = b at hscaled hden' ⊢
  have hb : (0 : ℚ) < b := Nat.cast_pos.mpr hden'
  obtain rfl : q = a / b * 2 ^ unit := by rw [hscaled, div_mul_cancel₀ _ hunit.ne']
  rw [mul_le_mul_iff_of_pos_right hunit] at hlow hhigh
  rw [mul_lt_mul_iff_of_pos_right hunit, mul_lt_mul_iff_of_pos_right hunit] at hodd
  rw [le_div_iff₀ hb] at hlow
  rw [div_le_iff₀ hb] at hhigh
  rw [lt_div_iff₀ hb, div_lt_iff₀ hb] at hodd
  refine roundDiv_eq_of_near ?_ ?_ (fun h => ⟨?_, ?_⟩) hden'
  · have : (2 * (k * b) : ℚ) ≤ 2 * a + b := by linarith
    exact_mod_cast this
  · have : (2 * a : ℚ) ≤ 2 * (k * b) + b := by linarith
    exact_mod_cast this
  · have : (2 * (k * b) : ℚ) < 2 * a + b := by linarith [(hodd h).1]
    exact_mod_cast this
  · have : (2 * a : ℚ) < 2 * (k * b) + b := by linarith [(hodd h).2]
    exact_mod_cast this

/-! ## Values that are near -/

/-- How far below a value, in its unit, the quotients go on that are rounded to it.  Below a power
of two the values lie closer. -/
def Format.gapBelow (f : Format) (m : Nat) (unit : Int) : ℚ :=
  if m = 2 ^ f.fractionBits ∧ f.leastUnit < unit then 1 / 4 else 1 / 2

/-- A quotient that lies no further from a value than half way to the next one, and less far if the
mantissa is odd. -/
structure Format.Near (f : Format) (m : Nat) (unit : Int) (q : ℚ) : Prop where
  low : (m - f.gapBelow m unit) * 2 ^ unit ≤ q
  high : q ≤ (m + 1 / 2) * 2 ^ unit
  odd : m % 2 = 1 → (m - f.gapBelow m unit) * 2 ^ unit < q ∧ q < (m + 1 / 2) * 2 ^ unit

theorem Format.gapBelow_le (f : Format) (m : Nat) (unit : Int) : f.gapBelow m unit ≤ 1 / 2 := by
  unfold Format.gapBelow
  split <;> norm_num

/-- Where the values lie evenly, the nearest one is found in their unit. -/
theorem Format.round_of_unit {q : ℚ} (hq : q = num / den) (hnum : 0 < num) (hden : 0 < den)
    (hfits : (Binary.finite negative m unit).Fits f) (hnear : f.Near m unit q)
    (hunit : max f.leastUnit (leadingExponent num den - f.fractionBits) = unit) :
    f.round negative num den = .finite negative m unit := by
  have hgap : (m - 1 / 2) * (2 : ℚ) ^ unit ≤ (m - f.gapBelow m unit) * 2 ^ unit := by
    have := f.gapBelow_le m unit
    gcongr
  unfold Format.round
  dsimp only
  rw [if_neg hnum.ne', hunit, roundDiv_scaled hq hden (hgap.trans hnear.low) hnear.high
    fun h => ⟨hgap.trans_lt (hnear.odd h).1, (hnear.odd h).2⟩]
  exact settle_of_lt hfits.1 hfits.2 negative

/-- Just below a power of two a quotient is rounded up to it from the finer unit. -/
theorem Format.round_of_finer {q : ℚ} (hq : q = num / den) (hnum : 0 < num) (hden : 0 < den)
    (hfits : (Binary.finite negative m unit).Fits f) (hpower : m = 2 ^ f.fractionBits)
    (hleast : f.leastUnit < unit) (hnear : f.Near m unit q) (hbelow : q < m * 2 ^ unit)
    (hunit : max f.leastUnit (leadingExponent num den - f.fractionBits) = unit - 1) :
    f.round negative num den = .finite negative m unit := by
  have hgap : f.gapBelow m unit = 1 / 4 := if_pos ⟨hpower, hleast⟩
  have hdouble (x : ℚ) : x * 2 ^ unit = 2 * x * 2 ^ (unit - 1) := by
    rw [zpow_sub_one₀ two_ne_zero]
    ring
  have hk : (2 ^ (f.fractionBits + 1) : Nat) = 2 * m := by rw [hpower, pow_succ, mul_comm]
  have hlow := hnear.low
  rw [hgap, hdouble] at hlow
  rw [hdouble] at hbelow
  have hround : roundDiv (num * Nat.pow 2 (-(unit - 1)).toNat) (den * Nat.pow 2 (unit - 1).toNat) =
      2 ^ (f.fractionBits + 1) := by
    refine roundDiv_scaled hq hden ?_ ?_ fun h => ?_
    · rw [hk]
      push_cast
      linarith
    · rw [hk]
      push_cast
      have : (0 : ℚ) < 2 ^ (unit - 1) := by positivity
      linarith
    · rw [hk] at h
      omega
  have hlargest : ¬ (f.maxExponent : Int) - f.fractionBits < unit := not_lt.mpr hfits.2
  unfold Format.round
  dsimp only
  rw [if_neg hnum.ne', hunit, hround, Format.settle, Nat.pow_eq, beq_self_eq_true]
  simp only [if_true, sub_add_cancel, gt_iff_lt, if_neg hlargest, hpower]
  rfl

theorem zpow_fractionBits_add (f : Format) (unit : Int) :
    (2 : ℚ) ^ ((f.fractionBits : Int) + unit) = (2 ^ f.fractionBits : Nat) * 2 ^ unit := by
  rw [zpow_add₀ two_ne_zero]
  norm_cast

namespace Format.Near

variable {q : ℚ}

theorem pos (hnear : f.Near m unit q) (hm : 0 < m) : 0 < q := by
  have hone : (1 : ℚ) ≤ m := by exact_mod_cast hm
  have hgap := f.gapBelow_le m unit
  exact lt_of_lt_of_le (mul_pos (by linarith) (by positivity)) hnear.low

/-- What is near to a value of the format has no leading bit above that of the value. -/
theorem lt_of_fits (hnear : f.Near m unit q) (hfits : (Binary.finite negative m unit).Fits f) :
    q < 2 ^ ((f.fractionBits : Int) + unit + 1) := by
  have hlt : (m + 1 / 2 : ℚ) < 2 * (2 ^ f.fractionBits : Nat) := by
    have : (m + 1 : ℚ) ≤ (2 ^ (f.fractionBits + 1) : Nat) := by exact_mod_cast hfits.1
    rw [Nat.pow_succ', Nat.cast_mul, Nat.cast_ofNat] at this
    linarith
  calc q ≤ (m + 1 / 2) * 2 ^ unit := hnear.high
    _ < 2 * (2 ^ f.fractionBits : Nat) * 2 ^ unit := mul_lt_mul_of_pos_right hlt (by positivity)
    _ = 2 ^ ((f.fractionBits : Int) + unit + 1) := by
      rw [zpow_add_one₀ two_ne_zero, zpow_fractionBits_add]
      ring

/-- If the leading bit is lower than that of a full mantissa, the mantissa is the least full one. -/
theorem eq_of_lt (hnear : f.Near m unit q) (hfull : 2 ^ f.fractionBits ≤ m)
    (hbelow : q < 2 ^ ((f.fractionBits : Int) + unit)) : m = 2 ^ f.fractionBits := by
  have hgap := f.gapBelow_le m unit
  have hlow := hnear.low.trans_lt hbelow
  rw [zpow_fractionBits_add, mul_lt_mul_iff_of_pos_right (by positivity)] at hlow
  have hlt : (m : ℚ) < (2 ^ f.fractionBits + 1 : Nat) := by
    push_cast at hlow ⊢
    linarith
  have : m < 2 ^ f.fractionBits + 1 := by exact_mod_cast hlt
  omega

/-- What is near to a power of two is at least half of it. -/
theorem half_le (hnear : f.Near m unit q) (hpower : m = 2 ^ f.fractionBits) :
    2 ^ ((f.fractionBits : Int) + unit - 1) ≤ q := by
  have hone : (1 : ℚ) ≤ m := by
    rw [hpower]
    exact_mod_cast Nat.one_le_two_pow
  have hgap := f.gapBelow_le m unit
  calc (2 : ℚ) ^ ((f.fractionBits : Int) + unit - 1) = m / 2 * 2 ^ unit := by
        rw [zpow_sub_one₀ two_ne_zero, zpow_fractionBits_add, ← hpower]
        ring
    _ ≤ (m - f.gapBelow m unit) * 2 ^ unit :=
      mul_le_mul_of_nonneg_right (by linarith) (by positivity)
    _ ≤ q := hnear.low

end Format.Near

/-- A quotient is rounded to the value it lies near to. -/
theorem Format.round_of_near (hm : 0 < m) (hden : 0 < den)
    (hfits : (Binary.finite negative m unit).Fits f)
    (haligned : (Binary.finite negative m unit).Aligned f)
    (hnear : f.Near m unit (num / den)) : f.round negative num den = .finite negative m unit := by
  have hnum : 0 < num := by
    refine Nat.pos_of_ne_zero fun hzero => ?_
    have hquotient := hnear.pos hm
    rw [hzero, Nat.cast_zero, zero_div] at hquotient
    exact lt_irrefl _ hquotient
  by_cases hfull : (2 : ℚ) ^ ((f.fractionBits : Int) + unit) ≤ num / den
  · have hlead := leadingExponent_eq hnum hden hfull (hnear.lt_of_fits hfits)
    have hleast : f.leastUnit ≤ unit := haligned.1
    exact f.round_of_unit rfl hnum hden hfits hnear (by omega)
  · have hbelow := not_le.mp hfull
    rcases eq_or_ne unit f.leastUnit with hleast | hleast
    · obtain ⟨hlow, -⟩ := leadingExponent_spec hnum hden
      have hlead := (zpow_lt_zpow_iff_right₀ one_lt_two).mp (hlow.trans_lt hbelow)
      exact f.round_of_unit rfl hnum hden hfits hnear (by omega)
    · -- the quotient is less than the least full mantissa, so the mantissa is that one
      have hpower := hnear.eq_of_lt (haligned.2.resolve_right hleast) hbelow
      have hfiner : leadingExponent num den = (f.fractionBits : Int) + unit - 1 := by
        refine leadingExponent_eq hnum hden (hnear.half_le hpower) ?_
        rwa [sub_add_cancel]
      have hleast : f.leastUnit < unit := lt_of_le_of_ne haligned.1 hleast.symm
      rw [zpow_fractionBits_add, ← hpower] at hbelow
      exact f.round_of_finer rfl hnum hden hfits hpower hleast hnear hbelow (by omega)

end PointElevation.Number
