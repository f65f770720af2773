/-!
# Bytes to text

Two readings of bytes.  `decodeUtf8` reads UTF-8 and puts one U+FFFD for every maximal piece that
is not part of a well formed sequence.  `decodeAscii` reads ASCII, puts one U+FFFD for every byte
outside it, and turns each carriage return, with a following line feed if there is one, into a
line feed.
-/

namespace PointElevation.Text

/-- U+FFFD, which stands for bytes that could not be read. -/
def replacement : Char := '\uFFFD'

/-- A byte that continues a sequence, from `low` to `high`. -/
def within (low high : UInt8) (b : UInt8) : Bool := low ≤ b && b ≤ high

/-- How a leading byte goes on: the count of bytes that follow and the range of the first of
them; the others lie between 0x80 and 0xBF.  Overlong forms, surrogates and values past the end of
Unicode are kept out by the ranges. -/
def leadByte? (b : UInt8) : Option (Nat × UInt8 × UInt8) :=
  if within 0xC2 0xDF b then some (1, 0x80, 0xBF)
  else if b == 0xE0 then some (2, 0xA0, 0xBF)
  else if b == 0xED then some (2, 0x80, 0x9F)
  else if within 0xE1 0xEF b then some (2, 0x80, 0xBF)
  else if b == 0xF0 then some (3, 0x90, 0xBF)
  else if within 0xF1 0xF3 b then some (3, 0x80, 0xBF)
  else if b == 0xF4 then some (3, 0x80, 0x8F)
  else none

/-- What a decoder has read of the sequence it is in: the value so far, the count of bytes still
to come, and the range of the next one. -/
structure Utf8State where
  value : Nat
  missing : Nat
  low : UInt8
  high : UInt8

/-- Reads a byte outside a sequence. -/
def utf8Start (b : UInt8) : List Char × Option Utf8State :=
  if b < 0x80 then ([Char.ofNat b.toNat], none)
  else
    match leadByte? b with
    | none => ([replacement], none)
    | some (missing, low, high) =>
        ([], some ⟨b.toNat % Nat.pow 2 (6 - missing), missing, low, high⟩)

/-- Reads a byte; what comes out is the text it completes, and the sequence it leaves open. -/
def utf8Step : Option Utf8State → UInt8 → List Char × Option Utf8State
  | none, b => utf8Start b
  | some s, b =>
      if within s.low s.high b then
        let value := s.value * 64 + b.toNat % 64
        if s.missing ≤ 1 then ([Char.ofNat value], none)
        else ([], some ⟨value, s.missing - 1, 0x80, 0xBF⟩)
      else
        let next := utf8Start b
        (replacement :: next.1, next.2)

/-- Reads UTF-8 from a given state on; a sequence cut off by the end is one replacement. -/
def utf8Run : Option Utf8State → List UInt8 → List Char
  | none, [] => []
  | some _, [] => [replacement]
  | state, b :: rest =>
      let step := utf8Step state b
      step.1 ++ utf8Run step.2 rest

/-- The text of a UTF-8 body. -/
def decodeUtf8 (bytes : ByteArray) : String := String.ofList (utf8Run none bytes.data.toList)

/-- One character for every byte. -/
def asciiChar (b : UInt8) : Char := if b < 0x80 then Char.ofNat b.toNat else replacement

/-- Line feeds in place of the other two common line ends. -/
def unifyLineEnds : List Char → List Char
  | [] => []
  | '\r' :: '\n' :: rest => '\n' :: unifyLineEnds rest
  | '\r' :: rest => '\n' :: unifyLineEnds rest
  | c :: rest => c :: unifyLineEnds rest

/-- The text of an ASCII file. -/
def decodeAscii (bytes : ByteArray) : List Char :=
  unifyLineEnds (bytes.data.toList.map asciiChar)

end PointElevation.Text
