import PointElevation.Number.Reading
import PointElevation.Tiff.Sample

/-!
# Missing data

A file may declare a value that stands for missing data, as a text; a note beside the file may
declare another one in its place.  How a text is read depends on the samples: those of eight byte
integers take an integer from its beginning (`leadingInteger`), all others a decimal or a word
(`leadingNumber`).  Whatever follows a number is not looked at, a text that does not begin with one
is a zero, and an empty text declares nothing.

A sample is hidden when it equals the value in single precision, so zero hides both zeros and a
value past the largest single precision number hides the infinity of its sign; but a value out of
the range of the samples hides nothing.  And where no samples are stored, all of them are the one
that is stored for the value.
-/

namespace PointElevation.Tiff

open PointElevation.Number (Binary Decimal Format Single splitSign)
open PointElevation.Text (digitsValue isAsciiBlank lower)

/-! ## Reading the text -/

/-- The integer that a text begins with, behind blanks, brought into the range of eight bytes: at
the ends of the range with a sign, and without one a negative integer counts from the upper end. -/
def leadingInteger (kind : SampleKind) (text : List Char) : Int :=
  let (negative, rest) := splitSign (text.dropWhile isAsciiBlank)
  let size : Int := digitsValue (rest.takeWhile Char.isDigit)
  let number := if negative then -size else size
  if kind = .signed then max (-Int.pow 2 63) (min (Int.pow 2 63 - 1) number)
  else if size < Int.pow 2 64 then number % Int.pow 2 64
  else Int.pow 2 64 - 1

/-- The exponent behind a decimal: a mark, a sign or not, and digits.  Without digits there is no
exponent. -/
def writtenExponent : List Char → Int
  | mark :: rest =>
      let (negative, digits) := splitSign rest
      let size : Int := digitsValue (digits.takeWhile Char.isDigit)
      if mark ≠ 'e' ∧ mark ≠ 'E' then 0 else if negative then -size else size
  | [] => 0

/-- The decimal that a text begins with, if it begins with one.  `mark` stands in front of the
fraction. -/
def leadingDecimal? (mark : Char) (s : List Char) : Option Decimal :=
  let whole := s.takeWhile Char.isDigit
  let rest := s.dropWhile Char.isDigit
  let (fraction, rest) :=
    if rest.head? = some mark then
      ((rest.drop 1).takeWhile Char.isDigit, (rest.drop 1).dropWhile Char.isDigit)
    else ([], rest)
  if whole.isEmpty && fraction.isEmpty then none
  else some ⟨digitsValue (whole ++ fraction), writtenExponent rest - (fraction.length : Int)⟩

/-- Whether a text begins with a word. -/
def beginsWith (word : String) (s : List Char) : Bool := word.toList.isPrefixOf s

/-- The value without digits that a text stands for, if it does: as a word with nothing behind it,
or in one of the spellings that are known by their beginning. -/
def special? (s : List Char) : Option Binary :=
  let word := String.ofList (lower s)
  let upper := s.map Char.toUpper
  if word = "nan" then some .notANumber
  else if word = "inf" ∨ s = "Infinity".toList then some (.infinite false)
  else if word = "-inf" ∨ s = "-Infinity".toList then some (.infinite true)
  else if beginsWith "1.#INF" upper then some (.infinite false)
  else if beginsWith "-1.#INF" upper then some (.infinite true)
  else if beginsWith "1.#QNAN" s ∨ beginsWith "1.#SNAN" s then some .notANumber
  else if beginsWith "-1.#QNAN" s ∨ beginsWith "-1.#IND" s then some .notANumber
  else none

/-- So many letters are searched for the mark of the fraction. -/
def markReach : Nat := 50

/-- What stands in front of a fraction: a point, or a comma where that comes first. -/
def fractionMark (text : List Char) : Char :=
  ((text.take markReach).find? fun c => c = ',' ∨ c = '.').getD '.'

/-- Space, tab, line feed and carriage return. -/
def isMargin (c : Char) : Bool := c = ' ' || c = '\t' || c = '\n' || c = '\r'

/-- The number that a text begins with in double precision, behind blanks and one plus sign. -/
def leadingNumber (mark : Char) (text : List Char) : Binary :=
  let s := text.dropWhile isMargin
  let s := if s.head? = some '+' then s.drop 1 else s
  match special? s with
  | some value => value
  | none =>
      let negative := s.head? = some '-'
      match leadingDecimal? mark (if negative then s.drop 1 else s) with
      | some d => d.toBinary negative
      | none => .finite false 0 Format.double.leastUnit

/-! ## What the value does -/

/-- What hides a sample, and what the samples are where none is stored. -/
structure NoData where
  hidden : Option Single
  filler : Single
deriving DecidableEq, Repr

namespace NoData

/-- Nothing is declared. -/
def undeclared : NoData := ⟨none, Single.ofInt 0⟩

/-- The part of a value that hides samples of a type. -/
def hiddenBy (t : SampleType) (value : Binary) : Option Single :=
  if t.holds value then some (Single.ofBinary value) else none

/-- What an integer does among samples that are integers of eight bytes.  It is compared in double
precision. -/
def ofInteger (t : SampleType) (n : Int) : NoData :=
  ⟨hiddenBy t ((Binary.ofInt n).roundTo Format.double), Single.ofInt n⟩

/-- What a number does among samples of a type. -/
def ofNumber (t : SampleType) (value : Binary) : NoData := ⟨hiddenBy t value, t.nearest value⟩

/-- What the value of a file does.  Single precision samples take it in their precision. -/
def ofText (t : SampleType) (text : List Char) : NoData :=
  if text.isEmpty then undeclared
  else if t.isLongInteger then ofInteger t (leadingInteger t.kind text)
  else
    let number := leadingNumber (fractionMark text) text
    ofNumber t (if t = ⟨.floating, 32⟩ then number.roundTo Format.single else number)

/-- What the value of a note beside the file does. -/
def ofNote (t : SampleType) (text : List Char) : NoData :=
  if t.isLongInteger then ofInteger t (leadingInteger t.kind text)
  else ofNumber t (leadingNumber '.' text)

/-- A height, or the pixel for missing data in its place. -/
def apply (d : NoData) (s : Single) : Single :=
  match d.hidden with
  | some h => if s.equals h then Single.notANumber else s
  | none => s

end NoData

end PointElevation.Tiff
