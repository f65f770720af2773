/-!
# Decimal digits

The characters of Unicode category Nd, version 14.  They come in runs of ten with ascending value,
so the table holds the zeros only.
-/

namespace PointElevation.Text

/-- The characters with decimal value zero. -/
def digitZeros : List Nat :=
  [0x30, 0x660, 0x6F0, 0x7C0, 0x966, 0x9E6, 0xA66, 0xAE6, 0xB66, 0xBE6, 0xC66, 0xCE6, 0xD66,
   0xDE6, 0xE50, 0xED0, 0xF20, 0x1040, 0x1090, 0x17E0, 0x1810, 0x1946, 0x19D0, 0x1A80, 0x1A90,
   0x1B50, 0x1BB0, 0x1C40, 0x1C50, 0xA620, 0xA8D0, 0xA900, 0xA9D0, 0xA9F0, 0xAA50, 0xABF0,
   0xFF10, 0x104A0, 0x10D30, 0x11066, 0x110F0, 0x11136, 0x111D0, 0x112F0, 0x11450, 0x114D0,
   0x11650, 0x116C0, 0x11730, 0x118E0, 0x11950, 0x11C50, 0x11D50, 0x11DA0, 0x16A60, 0x16AC0,
   0x16B50, 0x1D7CE, 0x1D7D8, 0x1D7E2, 0x1D7EC, 0x1D7F6, 0x1E140, 0x1E2F0, 0x1E950, 0x1FBF0]

/-- The value of a decimal digit of any script. -/
def digitValue? (c : Char) : Option Nat :=
  (digitZeros.find? fun start => start ≤ c.toNat && c.toNat < start + 10).map (c.toNat - ·)

/-- The value of a digit of ASCII; zero for any other character. -/
def asciiDigitValue (c : Char) : Nat := c.toNat - '0'.toNat

/-- Writes digits behind a number. -/
def appendDigits (n : Nat) (digits : List Char) : Nat :=
  digits.foldl (fun n c => 10 * n + asciiDigitValue c) n

/-- The number that a run of ASCII digits spells.  The run is cut in two so many times, and the
numbers of the pieces are put together. -/
def piecedDigitsValue : Nat → List Char → Nat
  | 0, digits => appendDigits 0 digits
  | cuts + 1, digits =>
      let low := digits.length / 2
      let front := digits.take (digits.length - low)
      let back := digits.drop (digits.length - low)
      piecedDigitsValue cuts front * Nat.pow 10 low + piecedDigitsValue cuts back

/-- The number that a run of ASCII digits spells.  Only runs of more than a hundred digits are
cut. -/
def digitsValue (digits : List Char) : Nat :=
  piecedDigitsValue (digits.length.log2 - 6) digits

theorem appendDigits_eq (n : Nat) (digits : List Char) :
    appendDigits n digits = n * Nat.pow 10 digits.length + appendDigits 0 digits := by
  rw [Nat.pow_eq]
  induction digits generalizing n with
  | nil => simp [appendDigits]
  | cons c rest ih =>
    have hn := ih (10 * n + asciiDigitValue c)
    have hzero := ih (10 * 0 + asciiDigitValue c)
    simp only [appendDigits, List.foldl_cons, List.length_cons, Nat.pow_succ] at hn hzero ⊢
    rw [hn, hzero]
    grind

/-- Cutting does not change the number. -/
theorem piecedDigitsValue_eq (cuts : Nat) (digits : List Char) :
    piecedDigitsValue cuts digits = appendDigits 0 digits := by
  induction cuts generalizing digits with
  | zero => rfl
  | succ cuts ih =>
    let front := digits.take (digits.length - digits.length / 2)
    let back := digits.drop (digits.length - digits.length / 2)
    have hback : back.length = digits.length / 2 := by
      rw [List.length_drop]
      omega
    calc piecedDigitsValue (cuts + 1) digits
      _ = appendDigits 0 front * Nat.pow 10 back.length + appendDigits 0 back := by
        rw [hback]
        simp only [piecedDigitsValue, ih, front, back]
      _ = appendDigits (appendDigits 0 front) back := (appendDigits_eq _ back).symm
      _ = appendDigits 0 (front ++ back) := by simp only [appendDigits, List.foldl_append]
      _ = appendDigits 0 digits := by rw [List.take_append_drop]

theorem digitsValue_eq (digits : List Char) : digitsValue digits = appendDigits 0 digits :=
  piecedDigitsValue_eq _ digits

end PointElevation.Text
