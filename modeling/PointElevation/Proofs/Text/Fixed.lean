import PointElevation.Proofs.Json.Floats

/-!
# Numbers with a fixed count of decimals

In a text for people a number has a fixed count of decimals.  `Shows` says what such a text is: a
sign, digits on both sides of a point, as many behind it as there are decimals, and a value that is
no more than half of the last place away.  What is written is such a text (`shows_fixedText`), for
a number is scaled first and then rounded once.
-/

namespace PointElevation.Text

open PointElevation.Json (Whole isDigit_of_mem_zeros minus natOf natOf_toDigits natOf_zeros_append
  signed_eq_append whole_take whole_toDigits)
open PointElevation.Number (Binary digitChars fixedPlaces fixedText le_roundDiv padded roundDiv
  roundDiv_le zpow_eq_div)

/-- A text of a value with so many decimals. -/
inductive Shows (places : Nat) : List Char → Binary → Prop
  | notANumber : Shows places "nan".toList .notANumber
  | infinite (negative : Bool) :
      Shows places (minus negative ++ "inf".toList) (.infinite negative)
  | finite {whole decimals : List Char} {negative : Bool} {mantissa : Nat} {unit : Int} :
      Whole whole → (∀ c ∈ decimals, c.isDigit = true) → decimals.length = places →
      |(natOf (whole ++ decimals) / 10 ^ places - mantissa * 2 ^ unit : ℚ)| ≤
        1 / 2 / 10 ^ places →
      Shows places (minus negative ++ (whole ++ '.' :: decimals)) (.finite negative mantissa unit)

/-- A scaled value is rounded by no more than half of a unit. -/
theorem abs_roundDiv_sub_le (num : Nat) {den : Nat} (hden : 0 < den) :
    |(roundDiv num den - num / den : ℚ)| ≤ 1 / 2 := by
  have hpos : (0 : ℚ) < den := Nat.cast_pos.mpr hden
  have hbelow : (2 * num : ℚ) ≤ 2 * (roundDiv num den * den) + den := by
    exact_mod_cast le_roundDiv num den hden
  have habove : (2 * (roundDiv num den * den) : ℚ) ≤ 2 * num + den := by
    exact_mod_cast roundDiv_le num den
  rw [abs_le, neg_le_sub_iff_le_add, sub_le_iff_le_add, div_le_iff₀ hpos, ← sub_le_iff_le_add',
    le_div_iff₀ hpos]
  constructor <;> linarith

/-- Rounding a value after scaling it is off by no more than half of the last place. -/
theorem abs_scaled_sub_le (places mantissa : Nat) (unit : Int) :
    |(roundDiv (mantissa * Nat.pow 2 unit.toNat * Nat.pow 10 places)
        (Nat.pow 2 (-unit).toNat) / 10 ^ places - mantissa * 2 ^ unit : ℚ)| ≤
      1 / 2 / 10 ^ places := by
  have hten : (0 : ℚ) < 10 ^ places := by positivity
  have hquotient : ((mantissa * Nat.pow 2 unit.toNat * Nat.pow 10 places : Nat) : ℚ) /
      (Nat.pow 2 (-unit).toNat : Nat) = mantissa * 2 ^ unit * 10 ^ places := by
    rw [zpow_eq_div, Nat.pow_eq, Nat.pow_eq, Nat.pow_eq]
    push_cast
    ring
  have hrounded := abs_roundDiv_sub_le (mantissa * Nat.pow 2 unit.toNat * Nat.pow 10 places)
    (Nat.two_pow_pos (-unit).toNat)
  rw [← Nat.pow_eq, hquotient] at hrounded
  rw [le_div_iff₀ hten, ← abs_of_pos hten, ← abs_mul, abs_of_pos hten, sub_mul,
    div_mul_cancel₀ _ hten.ne']
  exact hrounded

/-- In front of the point stand the digits of the whole part, or a single zero. -/
theorem whole_take_padded (places n : Nat) :
    Whole ((padded (places + 1) (digitChars n)).take
      ((padded (places + 1) (digitChars n)).length - places)) := by
  unfold padded digitChars
  rw [List.length_append, List.length_replicate]
  rcases Nat.lt_or_ge places (Nat.toDigits 10 n).length with hlt | hge
  · have hzeros : places + 1 - (Nat.toDigits 10 n).length = 0 := by omega
    rw [hzeros, List.replicate_zero, List.nil_append]
    exact whole_take n (by omega)
  · obtain ⟨zeros, hzeros⟩ : ∃ zeros, places + 1 - (Nat.toDigits 10 n).length = zeros + 1 :=
      ⟨places - (Nat.toDigits 10 n).length, by omega⟩
    have hone :
        places + 1 - (Nat.toDigits 10 n).length + (Nat.toDigits 10 n).length - places = 1 := by
      omega
    rw [hone, hzeros, List.replicate_succ, List.cons_append, List.take_succ_cons, List.take_zero]
    exact whole_toDigits 0

theorem shows_fixedPlaces (places : Nat) (b : Binary) :
    Shows places (fixedPlaces places b).toList b := by
  cases b with
  | notANumber => exact .notANumber
  | infinite negative =>
      have htext : (fixedPlaces places (.infinite negative)).toList =
          minus negative ++ "inf".toList := by
        cases negative with
        | false => rfl
        | true =>
            show "-inf".toList = '-' :: "inf".toList
            decide
      rw [htext]
      exact .infinite negative
  | finite negative mantissa unit =>
      rw [fixedPlaces]
      have hclose := abs_scaled_sub_le places mantissa unit
      generalize roundDiv _ _ = scaled at hclose ⊢
      have hwhole := whole_take_padded places scaled
      have hlength : places < (padded (places + 1) (digitChars scaled)).length := by
        rw [padded, List.length_append, List.length_replicate]
        omega
      have hvalue : natOf (padded (places + 1) (digitChars scaled)) = scaled := by
        rw [padded, natOf_zeros_append, digitChars, natOf_toDigits]
      have hdigits : ∀ c ∈ padded (places + 1) (digitChars scaled), c.isDigit = true :=
        List.forall_mem_append.mpr ⟨isDigit_of_mem_zeros, (whole_toDigits scaled).1.2⟩
      generalize padded (places + 1) (digitChars scaled) = digits at *
      have hdecimals : (digits.drop (digits.length - places)).length = places := by
        rw [List.length_drop]
        omega
      rw [← hvalue, ← List.take_append_drop (digits.length - places) digits] at hclose
      have hbehind : ∀ c ∈ digits.drop (digits.length - places), c.isDigit = true :=
        fun c hc => hdigits c (List.mem_of_mem_drop hc)
      rw [String.toList_ofList, signed_eq_append]
      exact .finite hwhole hbehind hdecimals hclose

/-- A machine number is written with so many decimals. -/
theorem shows_fixedText (places : Nat) (x : Float) :
    Shows places (fixedText places x).toList (Binary.ofFloat x) :=
  shows_fixedPlaces places (Binary.ofFloat x)

end PointElevation.Text
