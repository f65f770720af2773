/-!
# Rounding a quotient to an integer

Every inexact number of the library, whether a decimal with a fixed count of places or a binary
sample, is one exact quotient rounded once.  The nearest integer wins and a half goes to the even
neighbour.  The lemmas say that the result is never more than half a unit away, and that a
quotient without remainder is left alone.
-/

namespace PointElevation.Number

/-- The integer nearest to `num / den`; of two equally near ones, the even one. -/
def roundDiv (num den : Nat) : Nat :=
  let quotient := num / den
  let remainder := num % den
  if 2 * remainder < den ∨ (2 * remainder = den ∧ quotient % 2 = 0) then quotient
  else quotient + 1

theorem roundDiv_eq_or (num den : Nat) :
    roundDiv num den = num / den ∨ roundDiv num den = num / den + 1 := by
  unfold roundDiv
  dsimp only
  split
  · exact Or.inl rfl
  · exact Or.inr rfl

/-- A quotient without remainder is not changed. -/
theorem roundDiv_mul_self (q den : Nat) (hden : 0 < den) : roundDiv (q * den) den = q := by
  unfold roundDiv
  simp [Nat.mul_div_cancel q hden, hden]

/-- A factor in both changes nothing. -/
theorem roundDiv_mul_right (num den : Nat) {k : Nat} (hk : 0 < k) :
    roundDiv (num * k) (den * k) = roundDiv num den := by
  unfold roundDiv
  dsimp only
  rw [Nat.mul_div_mul_right num den hk, Nat.mul_mod_mul_right, ← Nat.mul_assoc]
  simp only [Nat.mul_lt_mul_right hk, Nat.mul_left_inj (Nat.ne_of_gt hk)]

/-- Powers of two cancel. -/
theorem roundDiv_two_pow (m a b : Nat) :
    roundDiv (m * Nat.pow 2 a) (Nat.pow 2 b) =
      if b ≤ a then m * Nat.pow 2 (a - b) else roundDiv m (Nat.pow 2 (b - a)) := by
  simp only [Nat.pow_eq]
  split
  · rename_i h
    rw [show a = a - b + b by omega, Nat.pow_add, ← Nat.mul_assoc,
      roundDiv_mul_self _ _ (Nat.two_pow_pos b)]
    simp
  · rename_i h
    have : 2 ^ b = 2 ^ (b - a) * 2 ^ a := by rw [← Nat.pow_add]; congr 1; omega
    rw [this, roundDiv_mul_right _ _ (Nat.two_pow_pos a)]

/-- The result is at most half a unit below the quotient. -/
theorem le_roundDiv (num den : Nat) (hden : 0 < den) :
    2 * num ≤ 2 * (roundDiv num den * den) + den := by
  have hsplit := Nat.div_add_mod num den
  have hcomm : den * (num / den) = num / den * den := Nat.mul_comm _ _
  unfold roundDiv
  dsimp only
  split
  · rename_i h
    rcases h with h | h <;> omega
  · rw [Nat.add_mul, Nat.one_mul]
    have := Nat.mod_lt num hden
    omega

/-- The result is at most half a unit above the quotient. -/
theorem roundDiv_le (num den : Nat) :
    2 * (roundDiv num den * den) ≤ 2 * num + den := by
  have hsplit := Nat.div_add_mod num den
  have hcomm : den * (num / den) = num / den * den := Nat.mul_comm _ _
  unfold roundDiv
  dsimp only
  split
  · omega
  · rename_i h
    rw [Nat.add_mul, Nat.one_mul]
    omega

end PointElevation.Number
