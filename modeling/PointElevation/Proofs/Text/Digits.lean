import PointElevation.Number.Reading

/-!
# Runs of digits

Numbers are read by taking digits as long as there are any.  What has been written as digits is
taken as a whole if no further digit follows, and a sign in front of it is told from it.
-/

namespace PointElevation.Text

open PointElevation.Number (splitSign)

/-- The text does not go on with a digit. -/
def NoDigit (rest : List Char) : Prop := ∀ c ∈ rest.head?, c.isDigit = false

theorem noDigit_cons {c : Char} (h : c.isDigit = false) (rest : List Char) :
    NoDigit (c :: rest) := by
  rintro _ ⟨⟩
  exact h

theorem noDigit_spaces (count : Nat) : NoDigit (List.replicate count ' ') := by
  cases count with
  | zero => exact nofun
  | succ count => exact noDigit_cons rfl _

variable {digits rest : List Char} (hdigits : ∀ c ∈ digits, c.isDigit = true)

include hdigits

section Run

variable (hrest : NoDigit rest)

include hrest

theorem takeWhile_isDigit_append : (digits ++ rest).takeWhile Char.isDigit = digits := by
  rw [List.takeWhile_append_of_pos hdigits]
  cases rest with
  | nil => exact List.append_nil digits
  | cons c rest =>
      rw [List.takeWhile_cons_of_neg (Bool.eq_false_iff.mp (hrest c rfl)), List.append_nil]

theorem dropWhile_isDigit_append : (digits ++ rest).dropWhile Char.isDigit = rest := by
  rw [List.dropWhile_append_of_pos hdigits]
  cases rest with
  | nil => rfl
  | cons c rest => exact List.dropWhile_cons_of_neg (Bool.eq_false_iff.mp (hrest c rfl))

end Run

/-- Digits begin with none of the other characters. -/
theorem exists_cons_of_isDigit (hne : digits ≠ []) :
    ∃ c tail, digits = c :: tail ∧ ∀ b, b.isDigit = false → c ≠ b := by
  obtain ⟨c, tail, rfl⟩ := List.exists_cons_of_ne_nil hne
  refine ⟨c, tail, rfl, ?_⟩
  rintro _ hb rfl
  rw [hdigits c List.mem_cons_self] at hb
  cases hb

theorem splitSign_append {sign : List Char} (hsign : sign ∈ [[], ['+'], ['-']])
    (hne : digits ≠ []) (rest : List Char) :
    splitSign (sign ++ (digits ++ rest)) = (decide (sign = ['-']), digits ++ rest) := by
  simp only [List.mem_cons, List.not_mem_nil, or_false] at hsign
  rcases hsign with rfl | rfl | rfl
  · obtain ⟨c, tail, rfl, hother⟩ := exists_cons_of_isDigit hdigits hne
    rw [List.nil_append, List.cons_append, splitSign]
    · rfl
    · exact fun _ heq => hother '-' rfl (List.cons.inj heq).1
    · exact fun _ heq => hother '+' rfl (List.cons.inj heq).1
  · rfl
  · rfl

end PointElevation.Text
