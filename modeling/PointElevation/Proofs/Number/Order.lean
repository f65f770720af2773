import Mathlib.Data.Prod.Lex
import Mathlib.Order.Compare

/-!
# The order of machine numbers

Machine numbers that are numbers are in a linear order but for the two zeros.  Their comparison goes
by cases over signs, infinities, exponents and mantissas; here each gets a `rank` in a linear order,
and comparing two of them is comparing their ranks (`le_iff_rank` and `lt_iff_rank`).  What else is
needed of the order is read off the ranks.
-/

namespace PointElevation.Number

open Float.Model (UnpackedFloat)

/-- The place of a number among the others: by kind first, and among those of one kind by exponent
and mantissa. -/
def place : UnpackedFloat → ℤ ×ₗ ℤ ×ₗ ℤ
  | .infinity .negative => toLex (-2, toLex (0, 0))
  | .finite .negative mantissa exponent _ => toLex (-1, toLex (-exponent, -mantissa))
  | .notANumber | .zero _ => toLex (0, toLex (0, 0))
  | .finite .positive mantissa exponent _ => toLex (1, toLex (exponent, mantissa))
  | .infinity .positive => toLex (2, toLex (0, 0))

/-- The rank of a machine number. -/
def rank (x : Float) : ℤ ×ₗ ℤ ×ₗ ℤ := place x.toModel.unpack

theorem compare_neg_neg (a b : ℤ) : compare (-a) (-b) = (compare a b).swap := by
  rcases lt_trichotomy a b with h | rfl | h
  · rw [compare_lt_iff_lt.mpr h, compare_gt_iff_gt.mpr (Int.neg_lt_neg h), Ordering.swap_lt]
  · rw [compare_eq_iff_eq.mpr rfl, compare_eq_iff_eq.mpr rfl, Ordering.swap_eq]
  · rw [compare_gt_iff_gt.mpr h, compare_lt_iff_lt.mpr (Int.neg_lt_neg h), Ordering.swap_gt]

theorem compare_natCast (m n : ℕ) : compare (m : ℤ) n = compare m n := by
  rcases lt_trichotomy m n with h | rfl | h
  · rw [compare_lt_iff_lt.mpr h, compare_lt_iff_lt.mpr (Int.ofNat_lt.mpr h)]
  · rw [compare_eq_iff_eq.mpr rfl, compare_eq_iff_eq.mpr rfl]
  · rw [compare_gt_iff_gt.mpr h, compare_gt_iff_gt.mpr (Int.ofNat_lt.mpr h)]

/-- Numbers compare as their places do. -/
theorem compare_eq_compare_place {a b : UnpackedFloat} (ha : a.isNaN = false)
    (hb : b.isNaN = false) : a.compare b = some (compare (place a) (place b)) := by
  -- only numbers of one kind and sign go beyond the first entry of the place
  cases a with
  | notANumber => cases ha
  | infinity s =>
      cases b with
      | notANumber => cases hb
      | infinity s' => cases s <;> cases s' <;> rfl
      | zero s' => cases s <;> rfl
      | finite s' m' e' _ => cases s <;> cases s' <;> rfl
  | zero s =>
      cases b with
      | notANumber => cases hb
      | infinity s' => cases s' <;> rfl
      | zero s' => rfl
      | finite s' m' e' _ => cases s' <;> rfl
  | finite s m e _ =>
      cases b with
      | notANumber => cases hb
      | infinity s' => cases s <;> cases s' <;> rfl
      | zero s' => cases s <;> rfl
      | finite s' m' e' _ =>
          cases s with
          | negative =>
              cases s' with
              | negative =>
                  change some ((compare e e').then (compare m m')).swap =
                    some ((compare (-e) (-e')).then (compare (-(m : ℤ)) (-(m' : ℤ))))
                  rw [compare_neg_neg, compare_neg_neg, compare_natCast, Ordering.swap_then]
              | positive => rfl
          | positive =>
              cases s' with
              | negative => rfl
              | positive =>
                  change some ((compare e e').then (compare m m')) =
                    some ((compare e e').then (compare (m : ℤ) m'))
                  rw [compare_natCast]

section Ranks

variable {a b : Float}

theorem le_iff_rank (ha : a.isNaN = false) (hb : b.isNaN = false) : a ≤ b ↔ rank a ≤ rank b := by
  have hcompare := compare_eq_compare_place ha hb
  have hle : a ≤ b ↔ (a.toModel.unpack.compare b.toModel.unpack).any (·.isLE) = true :=
    decide_eq_true_iff
  rw [hle, hcompare, Option.any_some, Ordering.isLE_iff_ne_gt]
  exact compare_le_iff_le

theorem lt_iff_rank (ha : a.isNaN = false) (hb : b.isNaN = false) : a < b ↔ rank a < rank b := by
  have hcompare := compare_eq_compare_place ha hb
  have hlt : a < b ↔ (a.toModel.unpack.compare b.toModel.unpack == some .lt) = true :=
    decide_eq_true_iff
  rw [hlt, hcompare, beq_iff_eq, Option.some_inj]
  exact compare_lt_iff_lt

end Ranks

end PointElevation.Number
