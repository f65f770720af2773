import PointElevation.Proofs.Number.Exact
import PointElevation.Proofs.Text.Digits
import PointElevation.Proofs.Tiff.Written
import PointElevation.Tiff.NoData

/-!
# Integers as texts

A file may declare an integer for missing data as a text of digits, with or without a sign and with
spaces around it (`Spells`).  However it is spelled, what is read is that integer: exactly among
samples of eight bytes (`leadingInteger_of_spells`), and in double precision among all others
(`leadingNumber_of_spells`), where a zero may keep its sign.
-/

namespace PointElevation.Tiff

open PointElevation.Number (Binary Decimal Format splitSign)
open PointElevation.Text (digitsValue dropWhile_isDigit_append isAsciiBlank lower noDigit_spaces
  splitSign_append takeWhile_isDigit_append)

/-- A text spells an integer: digits with or without a sign, and spaces around them. -/
inductive Spells : List Char → Int → Prop
  | intro (before after : Nat) {sign digits : List Char} :
      sign ∈ [[], ['+'], ['-']] → digits ≠ [] → (∀ c ∈ digits, c.isDigit = true) →
        Spells (List.replicate before ' ' ++ (sign ++ (digits ++ List.replicate after ' ')))
          (if sign = ['-'] then -(digitsValue digits : Int) else digitsValue digits)

section Digits

variable {digits : List Char} (hdigits : ∀ c ∈ digits, c.isDigit = true) (after : Nat)

include hdigits

/-- The digits end where the spaces begin. -/
theorem takeWhile_digits :
    (digits ++ List.replicate after ' ').takeWhile Char.isDigit = digits :=
  takeWhile_isDigit_append hdigits (noDigit_spaces after)

theorem dropWhile_digits :
    (digits ++ List.replicate after ' ').dropWhile Char.isDigit = List.replicate after ' ' :=
  dropWhile_isDigit_append hdigits (noDigit_spaces after)

/-- They begin with a digit. -/
theorem head?_digits (hnonempty : digits ≠ []) {c : Char} (hc : c.isDigit = false) :
    (digits ++ List.replicate after ' ').head? ≠ some c := by
  obtain ⟨first, rest, rfl⟩ := List.exists_cons_of_ne_nil hnonempty
  intro heq
  rw [List.cons_append, List.head?_cons, Option.some_inj] at heq
  rw [← heq, hdigits first List.mem_cons_self] at hc
  cases hc

/-- Digits and spaces are a decimal without fraction and exponent. -/
theorem leadingDecimal?_digits (hnonempty : digits ≠ []) :
    leadingDecimal? '.' (digits ++ List.replicate after ' ') = some ⟨digitsValue digits, 0⟩ := by
  have hmark : (List.replicate after ' ').head? ≠ some '.' := by
    cases after with
    | zero => exact nofun
    | succ after => exact fun h => absurd (Option.some.inj h) (by decide)
  have hexponent : writtenExponent (List.replicate after ' ') = 0 := by
    cases after with
    | zero => rfl
    | succ after =>
        rw [List.replicate_succ, writtenExponent]
        exact if_pos (by decide)
  have hempty : digits.isEmpty = false := by simpa using hnonempty
  simp only [leadingDecimal?, takeWhile_digits hdigits, dropWhile_digits hdigits, if_neg hmark,
    hempty, hexponent, Bool.false_and, Bool.false_eq_true, if_false, List.append_nil,
    List.length_nil]
  rfl

end Digits

/-- A letter that may stand in an integer or around it. -/
def isNumeric (c : Char) : Bool := c == ' ' || c == '+' || c == '-' || c.isDigit

/-- Neither case of such a letter is another letter. -/
theorem toLower_of_isNumeric {c : Char} (h : isNumeric c = true) :
    c.toLower = c ∧ c.toUpper = c := by
  have hcode : c.val.toNat < 65 := by
    simp only [isNumeric, Bool.or_eq_true, beq_iff_eq] at h
    rcases h with ((rfl | rfl) | rfl) | hdigit
    · decide
    · decide
    · decide
    · simp only [Char.isDigit, Bool.and_eq_true, decide_eq_true_eq] at hdigit
      have hle := UInt32.le_iff_toNat_le.mp hdigit.2
      exact lt_of_le_of_lt hle (by decide)
  constructor
  · refine dif_neg fun hletter => ?_
    have hle := UInt32.le_iff_toNat_le.mp hletter.1
    exact absurd (lt_of_le_of_lt hle hcode) (by decide)
  · refine dif_neg fun hletter => ?_
    have hle := UInt32.le_iff_toNat_le.mp hletter.1
    exact absurd (lt_of_le_of_lt hle hcode) (by decide)

section Numeric

variable {s : List Char} (hs : ∀ c ∈ s, isNumeric c = true)

include hs

/-- None of the words has only such letters, so the text is none of them, -/
theorem ne_of_isNumeric (word : String) (hword : word.toList.all isNumeric = false) :
    s ≠ word.toList := by
  obtain ⟨c, hc, hother⟩ := List.all_eq_false.mp hword
  rintro rfl
  exact hother (hs c hc)

/-- and does not begin with one. -/
theorem beginsWith_of_isNumeric (word : String) (hword : word.toList.all isNumeric = false) :
    beginsWith word s = false := by
  obtain ⟨c, hc, hother⟩ := List.all_eq_false.mp hword
  refine Bool.eq_false_iff.mpr fun hbegins => ?_
  have hsubset := (List.isPrefixOf_iff_prefix.mp hbegins).subset hc
  exact hother (hs c hsubset)

theorem special?_of_isNumeric : special? s = none := by
  have hlower : lower s = s := by
    refine (List.map_congr_left fun c hc => (toLower_of_isNumeric (hs c hc)).1).trans ?_
    exact List.map_id' s
  have hupper : s.map Char.toUpper = s := by
    refine (List.map_congr_left fun c hc => (toLower_of_isNumeric (hs c hc)).2).trans ?_
    exact List.map_id' s
  have hne := ne_of_isNumeric hs
  have hword : ∀ word : String, word.toList.all isNumeric = false → String.ofList s ≠ word :=
    fun word hother heq => hne word hother (by rw [← heq, String.toList_ofList])
  have hbegins := beginsWith_of_isNumeric hs
  simp only [special?, hlower, hupper, hword "nan" (by decide), hword "inf" (by decide),
    hword "-inf" (by decide), hne "Infinity" (by decide), hne "-Infinity" (by decide),
    hbegins "1.#INF" (by decide), hbegins "-1.#INF" (by decide), hbegins "1.#QNAN" (by decide),
    hbegins "1.#SNAN" (by decide), hbegins "-1.#QNAN" (by decide),
    hbegins "-1.#IND" (by decide), Bool.false_eq_true, or_self, if_false]

/-- Nor has the text a mark of a fraction. -/
theorem fractionMark_of_isNumeric : fractionMark s = '.' := by
  have hnone : (s.take markReach).find? (fun c => c = ',' ∨ c = '.') = none := by
    rw [List.find?_eq_none]
    intro c hc hmark
    have hnumeric := hs c (List.mem_of_mem_take hc)
    rcases of_decide_eq_true hmark with rfl | rfl <;> exact absurd hnumeric (by decide)
  rw [fractionMark, hnone, Option.getD_none]

end Numeric

/-- What an integer begins with behind the spaces is no blank. -/
theorem isMargin_of_isNumeric {c : Char} (h : isNumeric c = true) (hspace : c ≠ ' ') :
    isAsciiBlank c = false ∧ isMargin c = false := by
  simp only [isNumeric, Bool.or_eq_true, beq_iff_eq] at h
  rcases h with ((rfl | rfl) | rfl) | hdigit
  · exact absurd rfl hspace
  · decide
  · decide
  · simp only [Char.isDigit, Bool.and_eq_true, decide_eq_true_eq] at hdigit
    have hle : 48 ≤ c.toNat := UInt32.le_iff_toNat_le.mp hdigit.1
    constructor
    · have hlarge : ¬ c.toNat ≤ 0x0D := by omega
      simp [isAsciiBlank, hspace, hlarge]
    · have hother : ∀ b : Char, b.toNat < 48 → c ≠ b := by
        rintro b hb rfl
        omega
      simp [isMargin, hother ' ' (by decide), hother '\t' (by decide), hother '\n' (by decide),
        hother '\r' (by decide)]

section Spelled

variable {sign digits : List Char} (hsign : sign ∈ [[], ['+'], ['-']])
  (hdigits : ∀ c ∈ digits, c.isDigit = true) (hnonempty : digits ≠ []) (before after : Nat)

include hsign hdigits

theorem isNumeric_of_spelled :
    ∀ c ∈ sign ++ (digits ++ List.replicate after ' '), isNumeric c = true := by
  intro c hc
  rcases List.mem_append.mp hc with hfirst | hrest
  · simp only [List.mem_cons, List.not_mem_nil, or_false] at hsign
    rcases hsign with rfl | rfl | rfl
    · cases hfirst
    · rw [List.mem_singleton.mp hfirst]
      rfl
    · rw [List.mem_singleton.mp hfirst]
      rfl
  · rcases List.mem_append.mp hrest with hdigit | hspace
    · rw [isNumeric, hdigits c hdigit, Bool.or_true]
    · rw [(List.mem_replicate.mp hspace).2]
      rfl

include hnonempty

/-- The spaces in front are skipped, and no more. -/
theorem dropWhile_spelled {blank : Char → Bool} (hspace : blank ' ' = true)
    (hother : ∀ c, isNumeric c = true → c ≠ ' ' → blank c = false) :
    (List.replicate before ' ' ++ (sign ++ (digits ++ List.replicate after ' '))).dropWhile blank =
      sign ++ (digits ++ List.replicate after ' ') := by
  have hnumeric := isNumeric_of_spelled hsign hdigits after
  rw [List.dropWhile_append_of_pos fun a ha => (List.mem_replicate.mp ha).2 ▸ hspace]
  obtain ⟨first, rest, hcons, hfirst⟩ : ∃ first rest,
      sign ++ (digits ++ List.replicate after ' ') = first :: rest ∧ first ≠ ' ' := by
    simp only [List.mem_cons, List.not_mem_nil, or_false] at hsign
    rcases hsign with rfl | rfl | rfl
    · obtain ⟨c, rest, rfl⟩ := List.exists_cons_of_ne_nil hnonempty
      refine ⟨c, _, rfl, ?_⟩
      rintro rfl
      exact absurd (hdigits ' ' List.mem_cons_self) (by decide)
    · exact ⟨'+', _, rfl, by decide⟩
    · exact ⟨'-', _, rfl, by decide⟩
  rw [hcons] at hnumeric ⊢
  refine List.dropWhile_cons_of_neg ?_
  rw [hother first (hnumeric first List.mem_cons_self) hfirst]
  exact Bool.false_ne_true

theorem splitSign_spelled : splitSign (sign ++ (digits ++ List.replicate after ' ')) =
    (decide (sign = ['-']), digits ++ List.replicate after ' ') :=
  splitSign_append hdigits hsign hnonempty (List.replicate after ' ')

end Spelled

/-- An integer of eight bytes that is spelled is read as it is. -/
theorem leadingInteger_of_spells {text : List Char} {n : Int} (h : Spells text n)
    {t : SampleType} (hbits : t.bits = 64) (hn : (Stored.whole n).Fits t) :
    leadingInteger t.kind text = n := by
  obtain ⟨before, after, hsign, hnonempty, hdigits⟩ := h
  rename_i sign digits
  have hblank : ∀ c, isNumeric c = true → c ≠ ' ' → isAsciiBlank c = false :=
    fun c hc hspace => (isMargin_of_isNumeric hc hspace).1
  simp only [leadingInteger]
  rw [dropWhile_spelled hsign hdigits hnonempty before after rfl hblank,
    splitSign_spelled hsign hdigits hnonempty, takeWhile_digits hdigits]
  simp only [decide_eq_true_eq]
  generalize digitsValue digits = size at hn ⊢
  -- an unsigned number is taken modulo its range, a signed one is brought into it
  have hlong : Int.pow 2 64 = 18446744073709551616 := rfl
  have hhalf : Int.pow 2 63 = 9223372036854775808 := rfl
  rcases hn with ⟨hkind, hlow, hhigh⟩ | ⟨hkind, hlow, hhigh⟩
  · rw [hbits] at hhigh
    rw [hkind, if_neg (by decide), hlong]
    by_cases hnegative : sign = ['-']
    · rw [if_pos hnegative] at hlow hhigh ⊢
      rw [if_pos (by omega)]
      exact Int.emod_eq_of_lt hlow hhigh
    · rw [if_neg hnegative] at hlow hhigh ⊢
      rw [if_pos (by omega)]
      exact Int.emod_eq_of_lt hlow hhigh
  · rw [hbits] at hlow hhigh
    rw [hkind, if_pos rfl, hhalf]
    generalize (if sign = ['-'] then -(size : Int) else size) = n at hlow hhigh ⊢
    omega

/-- What is left of the sign is a minus or nothing. -/
theorem leadingNumber_spelled {sign digits : List Char} (hsign : sign ∈ [[], ['+'], ['-']])
    (hdigits : ∀ c ∈ digits, c.isDigit = true) (hnonempty : digits ≠ []) (before after : Nat) :
    leadingNumber '.'
        (List.replicate before ' ' ++ (sign ++ (digits ++ List.replicate after ' '))) =
      (Decimal.toBinary ⟨digitsValue digits, 0⟩ (decide (sign = ['-']))) := by
  have hmargin : ∀ c, isNumeric c = true → c ≠ ' ' → isMargin c = false :=
    fun c hc hspace => (isMargin_of_isNumeric hc hspace).2
  have hplus := head?_digits hdigits after hnonempty (c := '+') rfl
  have hminus := head?_digits hdigits after hnonempty (c := '-') rfl
  have hdecimal := leadingDecimal?_digits hdigits after hnonempty
  have hnumeric := isNumeric_of_spelled hsign hdigits after
  unfold leadingNumber
  dsimp only
  rw [dropWhile_spelled hsign hdigits hnonempty before after rfl hmargin]
  -- a plus is dropped before special words are looked for, a minus only behind that
  simp only [List.mem_cons, List.not_mem_nil, or_false] at hsign
  rcases hsign with rfl | rfl | rfl
  · rw [List.nil_append] at hnumeric ⊢
    rw [if_neg hplus, special?_of_isNumeric hnumeric]
    simp only [hminus, decide_false, if_false, hdecimal]
    rfl
  · have hnone := special?_of_isNumeric fun c hc => hnumeric c (List.mem_append_right _ hc)
    simp only [List.cons_append, List.nil_append, List.head?_cons, if_true, List.drop_succ_cons,
      List.drop_zero, hnone, hminus, decide_false, if_false, hdecimal]
    rfl
  · have hnone := special?_of_isNumeric hnumeric
    have hsigns : (some '-' = some '+') = False := eq_false (by decide)
    rw [List.singleton_append] at hnone ⊢
    simp only [List.head?_cons, hsigns, if_false, hnone, decide_true, if_true,
      List.drop_succ_cons, List.drop_zero, hdecimal]

/-- A decimal that is an integer is rounded like the integer. -/
theorem toBinary_integer {size : Nat} (hsize : size < 2 ^ 64) (negative : Bool) :
    Decimal.toBinary ⟨size, 0⟩ negative = (Binary.finite negative size 0).roundTo .double := by
  by_cases hzero : size = 0
  · rw [Decimal.toBinary, if_pos (.inl hzero), hzero]
    rfl
  · have hlog : size.log2 < 64 := (Nat.log2_lt hzero).mpr hsize
    have hmagnitude : Decimal.magnitude ⟨size, 0⟩ = (size.log2 * 30103 / 100000 : Nat) :=
      Int.zero_add _
    have hlow : ¬ ((⟨size, 0⟩ : Decimal).digits = 0 ∨ Decimal.magnitude ⟨size, 0⟩ < -400) := by
      rw [hmagnitude]
      show ¬ (size = 0 ∨ _)
      omega
    have hhigh : ¬ Decimal.magnitude ⟨size, 0⟩ > 400 := by
      rw [hmagnitude]
      omega
    rw [Decimal.toBinary, if_neg hlow, if_neg hhigh, Binary.roundTo_finite]
    rfl

/-- A shorter one is read as a number in double precision, a zero perhaps with its sign. -/
theorem leadingNumber_of_spells {text : List Char} {n : Int} (h : Spells text n)
    (hn : n.natAbs < 2 ^ 64) : ∃ negative : Bool, ∃ size : Nat,
      n = (if negative then -(size : Int) else size) ∧ text ≠ [] ∧ fractionMark text = '.' ∧
        leadingNumber '.' text = (Binary.finite negative size 0).roundTo .double := by
  obtain ⟨before, after, hsign, hnonempty, hdigits⟩ := h
  rename_i sign digits
  have hsize : digitsValue digits < 2 ^ 64 := by split at hn <;> omega
  refine ⟨decide (sign = ['-']), digitsValue digits, by simp, by simp [hnonempty], ?_, ?_⟩
  · apply fractionMark_of_isNumeric
    intro c hc
    rcases List.mem_append.mp hc with hspace | hrest
    · rw [(List.mem_replicate.mp hspace).2]
      rfl
    · exact isNumeric_of_spelled hsign hdigits after c hrest
  · rw [leadingNumber_spelled hsign hdigits hnonempty, toBinary_integer hsize]

end PointElevation.Tiff
