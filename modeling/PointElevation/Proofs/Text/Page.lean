import PointElevation.Proofs.Listing.FileName
import PointElevation.Proofs.Text.Line
import PointElevation.Response.Point

/-!
# Pages

A text for people is some lines with line feeds between them, and cutting it at its line breaks
gives these lines back (`lines_intercalate`), as long as none of them has a break inside and the
last one is not empty.  What the service itself writes on a line has no break: words, and numbers
in digits (`unbroken_fixedText`, `unbroken_toString`).
-/

namespace PointElevation.Text

open PointElevation.Number (Binary digitChars fixedPlaces fixedText padded signed)
open PointElevation.Response (heightText pointText)

/-! ## Joining lines -/

/-- Lines that are joined by line feeds are read as they were. -/
theorem lines_intercalate {ls : List (List Char)} (hunbroken : ∀ line ∈ ls, Unbroken line)
    (hlast : ∀ line ∈ ls.getLast?, line ≠ []) : lines (['\n'].intercalate ls) = ls := by
  induction ls with
  | nil => exact lines_nil
  | cons line rest ih =>
      obtain ⟨hline, hrest⟩ := List.forall_mem_cons.mp hunbroken
      cases rest with
      | nil =>
          have hread := lines_unbroken_append hline []
          rw [List.append_nil, lines_nil] at hread
          rw [List.intercalate_singleton, hread]
          cases line with
          | nil => exact absurd rfl (hlast [] rfl)
          | cons c line => exact foldr_consLine_nil c line
      | cons second rest =>
          rw [List.intercalate_cons_cons, List.append_assoc, lines_unbroken_append hline,
            List.singleton_append, lines_lineFeed, foldr_consLine_cons, List.append_nil,
            ih hrest hlast]

/-! ## What stands on a line -/

theorem unbroken_append {s t : List Char} : Unbroken (s ++ t) ↔ Unbroken s ∧ Unbroken t :=
  List.forall_mem_append

theorem unbroken_of_isDigit {s : List Char} (h : ∀ c ∈ s, c.isDigit = true) : Unbroken s := by
  intro c hc
  have hdigit : 48 ≤ c.toNat ∧ c.toNat ≤ 57 := Char.isDigit_iff_toNat.mp (h c hc)
  simp only [isLineBreak, Bool.or_eq_false_iff, Bool.and_eq_false_iff, decide_eq_false_iff_not,
    beq_eq_false_iff_ne]
  omega

theorem unbroken_digitChars (n : Nat) : Unbroken (digitChars n) :=
  unbroken_of_isDigit fun _ hc => Nat.isDigit_of_mem_toDigits (by decide) (by decide) hc

theorem unbroken_toString (i : Int) : Unbroken (toString i).toList := by
  rw [toList_toString_int]
  refine unbroken_append.mpr ⟨?_, unbroken_digitChars _⟩
  split <;> decide

theorem unbroken_padded {width : Nat} {digits : List Char} (h : Unbroken digits) :
    Unbroken (padded width digits) := by
  refine unbroken_append.mpr ⟨fun c hc => ?_, h⟩
  rw [List.eq_of_mem_replicate hc]
  decide

theorem unbroken_signed {negative : Bool} {text : List Char} (h : Unbroken text) :
    Unbroken (signed negative text) := by
  cases negative with
  | false => exact h
  | true => exact unbroken_cons.mpr ⟨by decide, h⟩

theorem unbroken_fixedText (places : Nat) (x : Float) : Unbroken (fixedText places x).toList := by
  unfold fixedText
  cases Binary.ofFloat x with
  | notANumber =>
      have hnan : Unbroken "nan".toList := by decide
      exact hnan
  | infinite negative =>
      have hinf : Unbroken (if negative then "-inf" else "inf").toList := by
        cases negative <;> decide
      exact hinf
  | finite negative mantissa unit =>
      rw [fixedPlaces]
      generalize Number.roundDiv _ _ = scaled
      have hdigits : Unbroken (padded (places + 1) (digitChars scaled)) :=
        unbroken_padded (unbroken_digitChars scaled)
      rw [String.toList_ofList]
      refine unbroken_signed (unbroken_append.mpr ⟨?_, unbroken_cons.mpr ⟨by decide, ?_⟩⟩)
      · exact fun c hc => hdigits c (List.mem_of_mem_take hc)
      · exact fun c hc => hdigits c (List.mem_of_mem_drop hc)

theorem unbroken_heightText (elevation : Float) : Unbroken (heightText elevation).toList := by
  rw [heightText, String.toList_append]
  exact unbroken_append.mpr ⟨unbroken_fixedText 1 elevation, by decide⟩

theorem unbroken_pointText (latitude longitude : Float) :
    Unbroken (pointText latitude longitude).toList := by
  simp only [pointText, String.toList_append, unbroken_append]
  exact ⟨⟨⟨⟨by decide, unbroken_fixedText 6 latitude⟩, by decide⟩, unbroken_fixedText 6 longitude⟩,
    by decide⟩

end PointElevation.Text
