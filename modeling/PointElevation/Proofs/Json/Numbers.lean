import PointElevation.Proofs.Json.Grammar
import PointElevation.Proofs.Text.Digits

/-!
# Every text of a number is read

The reader takes a number apart from the left: the digits in front, the decimal places with their
point, and the exponent with its mark.  Each part ends where the next one begins, as `NoDigit` and
`Ends` say of what follows, so that the reader finds the parts of which the text was put together.
-/

namespace PointElevation.Json

open PointElevation.Number (Decimal digitLimit readSignedDigits? readUnsigned? splitSign)
open PointElevation.Text (NoDigit digitsValue digitsValue_eq dropWhile_isDigit_append
  exists_cons_of_isDigit noDigit_cons splitSign_append takeWhile_isDigit_append)

/-! ## Digits -/

theorem digitsValue_eq_natOf (digits : List Char) : digitsValue digits = natOf digits := by
  rw [digitsValue_eq, natOf, Nat.ofDigitChars_eq_foldl]
  rfl

theorem Digits.not_isEmpty {digits : List Char} (h : Digits digits) : digits.isEmpty = false :=
  List.isEmpty_eq_false_iff.mpr h.1

/-! ## What follows a part -/

/-- White space, commas and closing brackets. -/
def delimiters : List Char := [' ', '\t', '\n', '\r', ',', ']', '}']

/-- Nothing follows that could belong to a number. -/
def Ends (rest : List Char) : Prop := ∀ c ∈ rest.head?, c ∈ delimiters

theorem ends_nil : Ends [] := nofun

theorem ends_cons {c : Char} (hc : c ∈ delimiters) (rest : List Char) : Ends (c :: rest) := by
  rintro _ ⟨⟩
  exact hc

theorem Ends.noDigit {rest : List Char} (h : Ends rest) : NoDigit rest := by
  have hall : ∀ c ∈ delimiters, c.isDigit = false := by simp [delimiters]
  exact fun c hc => hall c (h c hc)

theorem Ends.head?_ne {rest : List Char} (h : Ends rest) {c : Char} (hc : c ∉ delimiters) :
    rest.head? ≠ some c :=
  fun heq => hc (h c heq)

/-- What follows the decimal places goes on neither with a digit nor with a point. -/
theorem SpellsExponent.append_ends {written rest : List Char} {exponent : Int}
    (h : SpellsExponent written exponent) (hrest : Ends rest) :
    NoDigit (written ++ rest) ∧ (written ++ rest).head? ≠ some '.' := by
  cases h with
  | absent => exact ⟨hrest.noDigit, hrest.head?_ne (by decide)⟩
  | present hmark =>
      simp only [List.mem_cons, List.not_mem_nil, or_false] at hmark
      rcases hmark with rfl | rfl
      · exact ⟨noDigit_cons rfl _, by simp⟩
      · exact ⟨noDigit_cons rfl _, by simp⟩

theorem SpellsPlaces.append_noDigit {pointed places rest : List Char}
    (h : SpellsPlaces pointed places) (hrest : NoDigit rest) : NoDigit (pointed ++ rest) := by
  cases h with
  | absent => exact hrest
  | present _ => exact noDigit_cons rfl _

/-! ## Parts -/

/-- The digits of a number are taken as a whole. -/
theorem splitWhole_append {digits rest : List Char} (h : Whole digits) (hrest : NoDigit rest) :
    splitWhole (digits ++ rest) = (digits, rest) := by
  obtain ⟨⟨hne, hdigits⟩, hzero⟩ := h
  obtain ⟨c, tail, rfl⟩ := List.exists_cons_of_ne_nil hne
  by_cases hc : c = '0'
  · subst hc
    obtain ⟨⟩ := hzero rfl
    rfl
  · rw [List.cons_append, splitWhole, ← List.cons_append, takeWhile_isDigit_append hdigits hrest,
      dropWhile_isDigit_append hdigits hrest]
    exact fun _ heq => absurd (List.cons.inj heq).1 hc

theorem splitFraction_append {pointed places rest : List Char} (h : SpellsPlaces pointed places)
    (hrest : NoDigit rest) (hpoint : rest.head? ≠ some '.') :
    splitFraction (pointed ++ rest) = (pointed, rest) := by
  cases h with
  | absent =>
      rw [List.nil_append, splitFraction]
      rintro tail rfl
      exact hpoint rfl
  | present hplaces =>
      rw [List.cons_append, splitFraction, takeWhile_isDigit_append hplaces.2 hrest,
        dropWhile_isDigit_append hplaces.2 hrest, hplaces.not_isEmpty]
      rfl

/-- A sign in front of digits is told from them. -/
theorem filter_sign_append {sign digits : List Char} (hsign : sign ∈ [[], ['+'], ['-']])
    (hdigits : Digits digits) (rest : List Char) :
    ((sign ++ (digits ++ rest)).take 1).filter (fun c => c == '+' || c == '-') = sign := by
  obtain ⟨c, tail, rfl, hother⟩ := exists_cons_of_isDigit hdigits.2 hdigits.1
  simp only [List.mem_cons, List.not_mem_nil, or_false] at hsign
  rcases hsign with rfl | rfl | rfl
  · simp [hother '+' rfl, hother '-' rfl]
  · rfl
  · rfl

/-- An exponent is taken with a small mark. -/
theorem splitExponent_append {written rest : List Char} {exponent : Int}
    (h : SpellsExponent written exponent) (hrest : NoDigit rest)
    (hmark : rest.head? ≠ some 'e' ∧ rest.head? ≠ some 'E') :
    ∃ plain, splitExponent (written ++ rest) = (plain, rest) ∧ (plain = [] ↔ written = []) ∧
      SpellsExponent plain exponent := by
  cases h with
  | absent =>
      refine ⟨[], ?_, Iff.rfl, .absent⟩
      cases rest with
      | nil => rfl
      | cons c rest =>
          have hc : ¬(c = 'e' ∨ c = 'E') := by
            rintro (rfl | rfl)
            · exact hmark.1 rfl
            · exact hmark.2 rfl
          rw [List.nil_append, splitExponent, if_neg hc]
  | @present mark sign digits hmarks hsign hdigits =>
      refine ⟨'e' :: (sign ++ digits), ?_, by simp, .present (by decide) hsign hdigits⟩
      have hexponent : mark = 'e' ∨ mark = 'E' := by simpa using hmarks
      rw [List.cons_append, splitExponent, if_pos hexponent]
      simp only [List.append_assoc]
      rw [filter_sign_append hsign hdigits, List.drop_left,
        takeWhile_isDigit_append hdigits.2 hrest, dropWhile_isDigit_append hdigits.2 hrest,
        hdigits.not_isEmpty]
      rfl

theorem readSignedDigits?_of_digits {sign digits : List Char} (hsign : sign ∈ [[], ['+'], ['-']])
    (hdigits : Digits digits) :
    readSignedDigits? (sign ++ digits) = some (signed (sign = ['-']) (natOf digits)) := by
  have hsplit := splitSign_append hdigits.2 hsign hdigits.1 []
  rw [List.append_nil] at hsplit
  have hall : digits.all Char.isDigit = true := List.all_eq_true.mpr hdigits.2
  rw [readSignedDigits?, hsplit]
  simp only [hdigits.not_isEmpty, hall, digitsValue_eq_natOf, signed]
  rfl

/-! ## Decimals -/

/-- The places behind a point, and what follows them. -/
def splitPlaces (s : List Char) : List Char × List Char :=
  match s with
  | '.' :: tail => (tail.takeWhile Char.isDigit, tail.dropWhile Char.isDigit)
  | _ => ([], s)

/-- The exponent that a text is. -/
def readExponent? : List Char → Option Int
  | [] => some 0
  | mark :: tail => if mark = 'e' ∨ mark = 'E' then readSignedDigits? tail else none

/-- Decimals are read part by part. -/
theorem readUnsigned?_eq (s : List Char) :
    readUnsigned? s =
      let whole := s.takeWhile Char.isDigit
      let (places, rest) := splitPlaces (s.dropWhile Char.isDigit)
      if whole.isEmpty && places.isEmpty then none
      else (readExponent? rest).map fun e => ⟨digitsValue (whole ++ places), e - places.length⟩ :=
  rfl

theorem splitPlaces_append {pointed places rest : List Char} (h : SpellsPlaces pointed places)
    (hrest : NoDigit rest) (hpoint : rest.head? ≠ some '.') :
    splitPlaces (pointed ++ rest) = (places, rest) := by
  cases h with
  | absent =>
      rw [List.nil_append, splitPlaces]
      rintro tail rfl
      exact hpoint rfl
  | present hplaces =>
      rw [List.cons_append, splitPlaces, takeWhile_isDigit_append hplaces.2 hrest,
        dropWhile_isDigit_append hplaces.2 hrest]

theorem readExponent?_of_spells {written : List Char} {exponent : Int}
    (h : SpellsExponent written exponent) : readExponent? written = some exponent := by
  cases h with
  | absent => rfl
  | present hmark hsign hdigits =>
      rw [readExponent?, if_pos (by simpa using hmark), readSignedDigits?_of_digits hsign hdigits]

theorem readUnsigned?_of_spells {digits pointed places written : List Char} {exponent : Int}
    (hdigits : Digits digits) (hplaces : SpellsPlaces pointed places)
    (hexponent : SpellsExponent written exponent) :
    readUnsigned? (digits ++ (pointed ++ written)) =
      some ⟨natOf (digits ++ places), exponent - places.length⟩ := by
  obtain ⟨hwritten, hpoint⟩ := hexponent.append_ends ends_nil
  rw [List.append_nil] at hwritten hpoint
  have hrest : NoDigit (pointed ++ written) := hplaces.append_noDigit hwritten
  rw [readUnsigned?_eq, takeWhile_isDigit_append hdigits.2 hrest,
    dropWhile_isDigit_append hdigits.2 hrest, splitPlaces_append hplaces hwritten hpoint]
  simp only [hdigits.not_isEmpty, readExponent?_of_spells hexponent, digitsValue_eq_natOf]
  rfl

/-! ## Numbers -/

theorem natOf_cons (c : Char) (digits : List Char) :
    natOf (c :: digits) = 10 ^ digits.length * (c.toNat - '0'.toNat) + natOf digits := by
  rw [natOf, Nat.ofDigitChars_eq_foldl, List.foldl_cons, ← Nat.ofDigitChars_eq_foldl,
    Nat.ofDigitChars_eq_ofDigitChars_zero, Nat.mul_zero, Nat.zero_add, natOf]

/-- A number that is not too large is not too long either, as it does not begin with zeros. -/
theorem Whole.length_le {digits : List Char} (h : Whole digits) {limit : Nat} (hlimit : 0 < limit)
    (hsize : natOf digits < 10 ^ limit) : digits.length ≤ limit := by
  obtain ⟨⟨hne, hdigits⟩, hzero⟩ := h
  obtain ⟨c, tail, rfl⟩ := List.exists_cons_of_ne_nil hne
  by_cases hc : c = '0'
  · subst hc
    obtain ⟨⟩ := hzero rfl
    exact hlimit
  · have hdigit : '0'.toNat ≤ c.toNat :=
      (Char.isDigit_iff_toNat.mp (hdigits c List.mem_cons_self)).1
    have hpositive : 1 ≤ c.toNat - '0'.toNat := by
      have hother : c.toNat ≠ '0'.toNat := fun heq => hc (Char.toNat_inj.mp heq)
      omega
    have hlow : 10 ^ tail.length < 10 ^ limit := by
      calc 10 ^ tail.length
        _ ≤ 10 ^ tail.length * (c.toNat - '0'.toNat) := Nat.le_mul_of_pos_right _ hpositive
        _ ≤ natOf (c :: tail) := by
          rw [natOf_cons]
          exact Nat.le_add_right _ _
        _ < 10 ^ limit := hsize
    exact (Nat.pow_lt_pow_iff_right (by decide)).mp hlow

theorem readSize_int {digits rest : List Char} (h : Whole digits)
    (hsize : natOf digits < 10 ^ digitLimit) (hrest : Ends rest) (negative : Bool) :
    readSize negative (digits ++ rest) = some (.int (signed negative (natOf digits)), rest) := by
  have hfraction : splitFraction rest = ([], rest) :=
    splitFraction_append .absent hrest.noDigit (hrest.head?_ne (by decide))
  obtain ⟨plain, hexponent, hplain, -⟩ := splitExponent_append .absent hrest.noDigit
    ⟨hrest.head?_ne (by decide), hrest.head?_ne (by decide)⟩
  obtain rfl : plain = [] := hplain.mpr rfl
  have hlength : ¬ digits.length > digitLimit :=
    Nat.not_lt.mpr (h.length_le (by decide) hsize)
  rw [List.nil_append] at hexponent
  unfold readSize
  simp only [splitWhole_append h hrest.noDigit, hfraction, hexponent, h.1.not_isEmpty, hlength,
    digitsValue_eq_natOf]
  rfl

theorem readSize_float {digits pointed places written rest : List Char} {exponent : Int}
    (h : Whole digits) (hplaces : SpellsPlaces pointed places)
    (hexponent : SpellsExponent written exponent) (hne : pointed ++ written ≠ [])
    (hrest : Ends rest) (negative : Bool) :
    readSize negative (digits ++ (pointed ++ (written ++ rest))) =
      some (.float (Decimal.toBinary ⟨natOf (digits ++ places), exponent - places.length⟩
        negative).toFloat, rest) := by
  obtain ⟨hdigit, hpoint⟩ := hexponent.append_ends hrest
  have hwhole := splitWhole_append h (hplaces.append_noDigit hdigit)
  have hfraction := splitFraction_append hplaces hdigit hpoint
  obtain ⟨plain, hsplit, hplain, hexponent⟩ := splitExponent_append hexponent hrest.noDigit
    ⟨hrest.head?_ne (by decide), hrest.head?_ne (by decide)⟩
  have hshort : (pointed.isEmpty && plain.isEmpty) = false := by
    rw [Bool.and_eq_false_iff]
    simp only [List.isEmpty_eq_false_iff, ne_eq, hplain]
    refine Classical.not_and_iff_not_or_not.mp fun hboth => hne ?_
    rw [hboth.1, hboth.2, List.append_nil]
  unfold readSize
  simp only [hwhole, hfraction, hsplit, h.1.not_isEmpty, hshort, List.append_assoc,
    readUnsigned?_of_spells h.1 hplaces hexponent]
  rfl

/-- A number does not begin like a word. -/
theorem findSome?_words_of_digits {digits : List Char} (h : Digits digits) (negative : Bool)
    (rest : List Char) :
    (words.findSome? fun word => (afterWord? word.1 (minus negative ++ (digits ++ rest))).map
      fun rest => (word.2, rest)) = none := by
  obtain ⟨c, tail, rfl, hother⟩ := exists_cons_of_isDigit h.2 h.1
  have hfirst : ∀ b : Char, b.isDigit = false → b ≠ c := fun b hb => (hother b hb).symm
  cases negative with
  | false =>
      simp [words, afterWord?, minus, hfirst 'n' rfl, hfirst 't' rfl, hfirst 'f' rfl,
        hfirst 'N' rfl, hfirst 'I' rfl, hfirst '-' rfl]
  | true => simp [words, afterWord?, minus, hfirst 'I' rfl]

/-- A sign and digits are read as a number. -/
theorem readScalar_digits {digits : List Char} (h : Digits digits) (negative : Bool)
    (rest : List Char) :
    readScalar (minus negative ++ (digits ++ rest)) = readSize negative (digits ++ rest) := by
  unfold readScalar
  rw [findSome?_words_of_digits h negative rest]
  cases negative with
  | true => rfl
  | false =>
      obtain ⟨c, tail, rfl, hother⟩ := exists_cons_of_isDigit h.2 h.1
      rw [minus, if_neg Bool.false_ne_true, List.nil_append, List.cons_append]
      split
      case h_1 hfound => cases hfound
      case h_2 =>
          split
          case h_1 heq => exact absurd (List.cons.inj heq).1 (hother '-' rfl)
          case h_2 => rfl

end PointElevation.Json
