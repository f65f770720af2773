import PointElevation.Number.Shortest

/-!
# Laying out decimals

Which digits a number has is settled in `Shortest`; here they are put on paper.  A `NumberStyle`
holds all decisions of one format: which magnitudes are written without an exponent, how wide an
exponent is, and what stands for the values that have no digits.  Two styles are in use, one for
texts and one for JSON answers.  Texts for people have a fixed count of places instead, rounded
from the exact binary value.
-/

namespace PointElevation.Number

/-- How a format writes a floating point number. -/
structure NumberStyle where
  /-- exponents of the leading digit from here on are written without an exponent -/
  plainFrom : Int
  /-- and up to but not including this one -/
  plainBelow : Int
  /-- an exponent has at least this many digits -/
  exponentWidth : Nat
  notANumber : String
  infinity : String
  negativeInfinity : String

/-- Messages and point lists: plain from 0.0001 to below 10^16, exponents such as `1e-07`. -/
def textStyle : NumberStyle := ⟨-4, 16, 2, "nan", "inf", "-inf"⟩

/-- JSON answers: plain from 0.00001 to below 10^16, exponents such as `1e-7`, and `null` for what
JSON has no number for. -/
def jsonStyle : NumberStyle := ⟨-5, 16, 1, "null", "null", "null"⟩

/-- The digits of a natural number. -/
def digitChars (n : Nat) : List Char := Nat.toDigits 10 n

/-- Digits preceded by as many zeros as the width asks for. -/
def padded (width : Nat) (digits : List Char) : List Char :=
  List.replicate (width - digits.length) '0' ++ digits

/-- A sign in front of a text, if there is one to write. -/
def signed (negative : Bool) (text : List Char) : List Char :=
  if negative then '-' :: text else text

namespace NumberStyle

/-- Digits with the point after the digit of weight `10 ^ leading`'s place: zeros fill the gap on
either side, and at least one digit stands on both sides of the point. -/
def plain (digits : List Char) (leading : Int) : List Char :=
  if leading < 0 then
    '0' :: '.' :: List.replicate (-leading - 1).toNat '0' ++ digits
  else
    let whole := leading.toNat + 1
    let fraction := digits.drop whole
    digits.take whole ++ List.replicate (whole - digits.length) '0'
      ++ '.' :: (if fraction.isEmpty then ['0'] else fraction)

/-- One digit, the others behind the point if there are any, and the exponent with its sign. -/
def scientific (style : NumberStyle) (digits : List Char) (leading : Int) : List Char :=
  let mantissa :=
    match digits with
    | first :: second :: rest => first :: '.' :: second :: rest
    | short => short
  let sign := if leading < 0 then '-' else '+'
  mantissa ++ 'e' :: sign :: padded style.exponentWidth (digitChars leading.natAbs)

/-- Digits and exponent in the notation that the magnitude calls for. -/
def layout (style : NumberStyle) (d : Decimal) : List Char :=
  let digits := digitChars d.digits
  let leading := d.exponent + (digits.length - 1 : Nat)
  if style.plainFrom ≤ leading ∧ leading < style.plainBelow then plain digits leading
  else style.scientific digits leading

/-- The text of a value. -/
def render (style : NumberStyle) : Binary → String
  | .notANumber => style.notANumber
  | .infinite negative => if negative then style.negativeInfinity else style.infinity
  | .finite negative mantissa unit =>
      let d : Decimal := if mantissa = 0 then ⟨0, 0⟩ else Positive.shortest ⟨mantissa, unit⟩
      String.ofList (signed negative (style.layout d))

end NumberStyle

/-- A floating point number in messages, by its shortest digits. -/
def floatText (x : Float) : String := textStyle.render (Binary.ofFloat x)

/-- A value with exactly `places` decimals, a half to the even neighbour.  The sign stays even if
all digits written are zero. -/
def fixedPlaces (places : Nat) : Binary → String
  | .notANumber => "nan"
  | .infinite negative => if negative then "-inf" else "inf"
  | .finite negative mantissa unit =>
      let scaled :=
        roundDiv (mantissa * Nat.pow 2 unit.toNat * Nat.pow 10 places) (Nat.pow 2 (-unit).toNat)
      let digits := padded (places + 1) (digitChars scaled)
      let whole := digits.length - places
      String.ofList (signed negative (digits.take whole ++ '.' :: digits.drop whole))

/-- A machine number with exactly `places` decimals. -/
def fixedText (places : Nat) (x : Float) : String := fixedPlaces places (Binary.ofFloat x)

end PointElevation.Number
