import PointElevation.Number.Shortest
import PointElevation.Text.Blank
import PointElevation.Text.Digit
import PointElevation.Text.Field

/-!
# Reading numbers

One grammar of decimals serves every place where a number arrives as text: digits with an optional
point, an optional exponent, an optional sign, or one of the words for the values without digits.
The readers differ in what may stand around it.

* Settings may be surrounded by blanks, may use digits of any script, and may group digits by
  single underscores (`readSettingFloat?`, `readSettingInt?`).
* Fields of a response may be surrounded by white space or grouped by single underscores anywhere
  inside, and an integer may begin with zeros and end in a point and zeros (`readFieldFloat?`,
  `readFieldInt?`).
-/

namespace PointElevation.Number

open PointElevation.Text (isAsciiBlank isWhiteSpace isBlank trimBy lower digitValue? digitsValue)

/-- A decimal as it was written: a sign and an exact size, or one of the two words. -/
inductive Numeral where
  | notANumber
  | infinite (negative : Bool)
  | decimal (negative : Bool) (size : Decimal)
deriving DecidableEq, Repr

/-- The decimal magnitude of a decimal that is not zero, up to a small error: one binary digit is
worth 0.30103 decimal ones. -/
def Decimal.magnitude (d : Decimal) : Int := d.exponent + (d.digits.log2 * 30103 / 100000 : Nat)

/-- The double precision value of a decimal.  Magnitudes far outside the range are settled before
any power is computed. -/
def Decimal.toBinary (d : Decimal) (negative : Bool) : Binary :=
  if d.digits = 0 ∨ d.magnitude < -400 then .finite negative 0 Format.double.leastUnit
  else if d.magnitude > 400 then .infinite negative
  else
    Format.double.round negative (d.digits * Nat.pow 10 d.exponent.toNat)
      (Nat.pow 10 (-d.exponent).toNat)

/-- The double precision value of a numeral. -/
def Numeral.toBinary : Numeral → Binary
  | .notANumber => .notANumber
  | .infinite negative => .infinite negative
  | .decimal negative size => size.toBinary negative

/-- A sign and what follows it. -/
def splitSign : List Char → Bool × List Char
  | '-' :: rest => (true, rest)
  | '+' :: rest => (false, rest)
  | s => (false, s)

/-- A whole text of digits, with a sign in front or not. -/
def readSignedDigits? (s : List Char) : Option Int :=
  let (negative, digits) := splitSign s
  if digits.isEmpty || !digits.all Char.isDigit then none
  else
    let size : Int := digitsValue digits
    some (if negative then -size else size)

/-- A decimal without sign: digits on at least one side of an optional point, and an optional
exponent, up to the end of the text. -/
def readUnsigned? (s : List Char) : Option Decimal :=
  let whole := s.takeWhile Char.isDigit
  let rest := s.dropWhile Char.isDigit
  let (fraction, rest) :=
    match rest with
    | '.' :: tail => (tail.takeWhile Char.isDigit, tail.dropWhile Char.isDigit)
    | _ => ([], rest)
  if whole.isEmpty && fraction.isEmpty then none
  else
    let exponent :=
      match rest with
      | [] => some 0
      | mark :: tail => if mark = 'e' ∨ mark = 'E' then readSignedDigits? tail else none
    exponent.map fun e => ⟨digitsValue (whole ++ fraction), e - (fraction.length : Int)⟩

/-- A number with an optional sign, or one of the words `inf`, `infinity` and `nan` in any case. -/
def readNumeral? (s : List Char) : Option Numeral :=
  let (negative, size) := splitSign s
  let word := lower size
  if word = "inf".toList ∨ word = "infinity".toList then some (.infinite negative)
  else if word = "nan".toList then some .notANumber
  else (readUnsigned? size).map (.decimal negative)

/-- A number as it is written, in double precision. -/
def readNumber? (s : List Char) : Option Binary := (readNumeral? s).map Numeral.toBinary

/-- Removes underscores that stand between two digits; any other underscore is refused.  The flag
says whether the character before was a digit. -/
def ungroup? : Bool → List Char → Option (List Char)
  | _, [] => some []
  | afterDigit, '_' :: rest =>
      match rest with
      | [] => none
      | c :: _ => if afterDigit && c.isDigit then ungroup? false rest else none
  | _, c :: rest => (ungroup? c.isDigit rest).map (c :: ·)

/-- Outside ASCII, digits of any script become the digits of ASCII and blanks become spaces; all
other characters stay. -/
def plainNumeral (c : Char) : Char :=
  if c.toNat < 128 then c
  else if isBlank c then ' '
  else match digitValue? c with
    | some v => Nat.digitChar v
    | none => c

/-- A setting that holds a floating point number. -/
def readSettingFloat? (s : String) : Option Float :=
  let body := trimBy isAsciiBlank (s.toList.map plainNumeral)
  ((ungroup? false body).bind readNumber?).map Binary.toFloat

/-- An integer is refused from this count of digits on. -/
def digitLimit : Nat := 4300

/-- A sign and digits, up to the end of the text. -/
def readInteger? (s : List Char) : Option Int :=
  let (_, digits) := splitSign s
  if digits.length > digitLimit then none else readSignedDigits? s

/-- A setting that holds an integer. -/
def readSettingInt? (s : String) : Option Int :=
  let body := trimBy isAsciiBlank (s.toList.map plainNumeral)
  (ungroup? false body).bind readInteger?

/-- Removes underscores, unless one stands at an end of the text or next to another one. -/
def joinGroups (s : List Char) : List Char :=
  let groups := Text.fields '_' s
  if [] ∈ groups then s else groups.flatten

/-- A response field given as text that holds a floating point number.  White space around a number
is accepted only where no underscore stands in it. -/
def readFieldFloat? (s : String) : Option Float :=
  ((readNumber? (trimBy isWhiteSpace s.toList)).or (readNumber? (joinGroups s.toList))).map
    Binary.toFloat

/-- What remains of a number behind its first zero, without further zeros and underscores.  In front
of a point and at the end one character has to remain, which is the last of those; otherwise a digit
or a minus has to follow. -/
def afterZeros? (last : Char) : List Char → Option (List Char)
  | [] => some [last]
  | '.' :: rest => some (last :: '.' :: rest)
  | c :: rest =>
      if c = '0' ∨ c = '_' then afterZeros? c rest
      else if c.isDigit ∨ c = '-' then some (c :: rest) else none

/-- A number without the zeros in front of it; it has to begin with a digit. -/
def withoutZeros? : List Char → Option (List Char)
  | '0' :: rest => afterZeros? '0' rest
  | c :: rest => if c.isDigit then some (c :: rest) else none
  | [] => none

/-- Drops a point and the zeros behind it, if the text ends with that. -/
def dropZeroFraction (s : List Char) : List Char :=
  match s.dropWhile (· ≠ '.') with
  | _ :: zero :: zeros => if (zero :: zeros).all (· = '0') then s.takeWhile (· ≠ '.') else s
  | _ => s

/-- A sign and digits that do not begin with a zero, unless that is the only one. -/
def readPlainInteger? (s : List Char) : Option Int :=
  let (_, digits) := splitSign s
  if digits.length ≠ 1 ∧ digits.head? = some '0' then none else readInteger? s

/-- A response field given as text that holds an integer. -/
def readFieldInt? (s : String) : Option Int := do
  let (negative, size) := splitSign (trimBy isWhiteSpace s.toList)
  let plain := joinGroups (dropZeroFraction (← withoutZeros? size))
  readPlainInteger? (if negative then '-' :: plain else plain)

/-- Whether a response field is refused for its length alone: from its first character on it has a
minus or not, and more digits than an integer may have, of which the first is not zero.  What
follows the digits is not looked at. -/
def isOverlong (s : String) : Bool :=
  let size := if s.toList.head? = some '-' then s.toList.drop 1 else s.toList
  size.head? ≠ some '0' && (size.takeWhile Char.isDigit).length > digitLimit

end PointElevation.Number
