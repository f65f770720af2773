/-!
# Fields

Cutting a text at every occurrence of one character.  There is always at least one field, and
joining the fields with the separator gives the text back.
-/

namespace PointElevation.Text

/-- The parts of a text between occurrences of `sep`. -/
def fields (sep : Char) : List Char → List (List Char)
  | [] => [[]]
  | c :: rest =>
      if c = sep then [] :: fields sep rest
      else
        match fields sep rest with
        | [] => [[c]]
        | first :: others => (c :: first) :: others

/-- Parts joined by a separator. -/
def join (sep : List Char) : List (List Char) → List Char
  | [] => []
  | [last] => last
  | part :: rest => part ++ sep ++ join sep rest

/-- What follows the last occurrence of `sep`, or the whole text. -/
def lastField (sep : Char) (s : List Char) : List Char := (fields sep s).getLast?.getD []

theorem fields_ne_nil (sep : Char) (s : List Char) : fields sep s ≠ [] := by
  cases s with
  | nil => simp [fields]
  | cons c rest =>
    unfold fields
    split
    · simp
    · split <;> simp

/-- Cutting loses nothing. -/
theorem join_fields (sep : Char) (s : List Char) : join [sep] (fields sep s) = s := by
  induction s with
  | nil => rfl
  | cons c rest ih =>
    unfold fields
    split
    · rename_i h
      have hne := fields_ne_nil sep rest
      cases hf : fields sep rest with
      | nil => exact absurd hf hne
      | cons first others =>
        rw [hf] at ih
        simp [join, ih, h]
    · cases hf : fields sep rest with
      | nil => exact absurd hf (fields_ne_nil sep rest)
      | cons first others =>
        rw [hf] at ih
        cases others with
        | nil =>
          simp only [join] at ih ⊢
          rw [ih]
        | cons second others =>
          simp only [join, List.cons_append] at ih ⊢
          rw [ih]

/-- No field holds the separator. -/
theorem sep_notMem_of_mem_fields {sep : Char} {s field : List Char} (h : field ∈ fields sep s) :
    sep ∉ field := by
  induction s generalizing field with
  | nil => simp_all [fields]
  | cons c rest ih =>
    unfold fields at h
    split at h
    · rcases List.mem_cons.mp h with rfl | h
      · simp
      · exact ih h
    · rename_i hc
      cases hf : fields sep rest with
      | nil => exact absurd hf (fields_ne_nil sep rest)
      | cons first others =>
        rw [hf] at h ih
        rcases List.mem_cons.mp h with rfl | h
        · simp only [List.mem_cons, not_or]
          exact ⟨fun e => hc e.symm, ih (List.mem_cons_self ..)⟩
        · exact ih (List.mem_cons_of_mem _ h)

end PointElevation.Text
