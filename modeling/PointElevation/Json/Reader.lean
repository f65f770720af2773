import PointElevation.Json.Value
import PointElevation.Number.Reading
import PointElevation.Text.Utf8

/-!
# Reading JSON

`Json.parse` reads one value with white space around it.  The dialect is that of RFC 8259 with
three more number words, `NaN`, `Infinity` and `-Infinity`.  Raw control characters in strings, a
byte order mark, and whole numbers of more than `Number.digitLimit` digits are refused.

Arrays and objects may lie in each other up to `depthLimit` times.  Going deeper is a fault of its
own, which is found where the container begins, whatever follows.

A string is first read into code units, one for every character or escape, and then pairs of
surrogates are joined; a surrogate without partner becomes U+FFFD.
-/

namespace PointElevation

namespace Json

open PointElevation.Number (readUnsigned? digitLimit)
open PointElevation.Text (digitsValue replacement)

/-- Space, tab, line feed and carriage return. -/
def isSpace (c : Char) : Bool := c == ' ' || c == '\t' || c == '\n' || c == '\r'

def skipSpace (s : List Char) : List Char := s.dropWhile isSpace

/-! ## Strings -/

/-- The value of a hexadecimal digit in either case. -/
def hexValue? (c : Char) : Option Nat :=
  if c.isDigit then some (c.toNat - '0'.toNat)
  else if 'a' ≤ c ∧ c ≤ 'f' then some (c.toNat - 'a'.toNat + 10)
  else if 'A' ≤ c ∧ c ≤ 'F' then some (c.toNat - 'A'.toNat + 10)
  else none

/-- The code unit of four hexadecimal digits. -/
def codeUnit? (a b c d : Char) : Option Nat := do
  let a ← hexValue? a
  let b ← hexValue? b
  let c ← hexValue? c
  let d ← hexValue? d
  some (((a * 16 + b) * 16 + c) * 16 + d)

/-- What a letter after a backslash stands for. -/
def shortEscape? : Char → Option Char
  | '"' => some '"'
  | '\\' => some '\\'
  | '/' => some '/'
  | 'b' => some '\x08'
  | 'f' => some '\x0C'
  | 'n' => some '\n'
  | 'r' => some '\r'
  | 't' => some '\t'
  | _ => none

/-- Puts a code unit in front of what was read. -/
def consUnit (unit : Nat) (read : List Nat × List Char) : List Nat × List Char :=
  (unit :: read.1, read.2)

/-- Reads the inside of a string and its closing quote. -/
def readUnits : List Char → Option (List Nat × List Char)
  | [] => none
  | '"' :: rest => some ([], rest)
  | '\\' :: 'u' :: a :: b :: c :: d :: rest =>
      match codeUnit? a b c d with
      | none => none
      | some unit => (readUnits rest).map (consUnit unit)
  | '\\' :: letter :: rest =>
      match shortEscape? letter with
      | none => none
      | some c => (readUnits rest).map (consUnit c.toNat)
  | c :: rest => if c.toNat < 0x20 then none else (readUnits rest).map (consUnit c.toNat)

def isHighSurrogate (unit : Nat) : Bool := 0xD800 ≤ unit && unit < 0xDC00

def isLowSurrogate (unit : Nat) : Bool := 0xDC00 ≤ unit && unit < 0xE000

/-- The character of a code unit that stands alone. -/
def unitChar (unit : Nat) : Char :=
  if isHighSurrogate unit || isLowSurrogate unit then replacement else Char.ofNat unit

/-- The text of a list of code units. -/
def joinUnits : List Nat → List Char
  | [] => []
  | [unit] => [unitChar unit]
  | high :: low :: rest =>
      if isHighSurrogate high && isLowSurrogate low then
        Char.ofNat (0x10000 + (high - 0xD800) * 0x400 + (low - 0xDC00)) :: joinUnits rest
      else unitChar high :: joinUnits (low :: rest)

/-- Reads the inside of a string and its closing quote. -/
def readString (s : List Char) : Option (String × List Char) :=
  (readUnits s).map fun read => (String.ofList (joinUnits read.1), read.2)

/-! ## Numbers and words -/

/-- The digits in front of a number: a single zero, or digits that do not begin with one. -/
def splitWhole : List Char → List Char × List Char
  | '0' :: rest => (['0'], rest)
  | s => (s.takeWhile Char.isDigit, s.dropWhile Char.isDigit)

/-- A point and at least one digit; otherwise nothing is taken. -/
def splitFraction : List Char → List Char × List Char
  | '.' :: rest =>
      let digits := rest.takeWhile Char.isDigit
      if digits.isEmpty then ([], '.' :: rest) else ('.' :: digits, rest.dropWhile Char.isDigit)
  | s => ([], s)

/-- An exponent with at least one digit; otherwise nothing is taken. -/
def splitExponent : List Char → List Char × List Char
  | mark :: rest =>
      if mark = 'e' ∨ mark = 'E' then
        let sign := (rest.take 1).filter fun c => c == '+' || c == '-'
        let tail := rest.drop sign.length
        let digits := tail.takeWhile Char.isDigit
        if digits.isEmpty then ([], mark :: rest)
        else ('e' :: sign ++ digits, tail.dropWhile Char.isDigit)
      else ([], mark :: rest)
  | [] => ([], [])

/-- Reads a number without sign.  It is whole if it has neither fraction nor exponent. -/
def readSize (negative : Bool) (s : List Char) : Option (Json × List Char) :=
  let (whole, rest) := splitWhole s
  let (fraction, rest) := splitFraction rest
  let (exponent, rest) := splitExponent rest
  if whole.isEmpty then none
  else if fraction.isEmpty && exponent.isEmpty then
    if whole.length > digitLimit then none
    else
      let size : Int := digitsValue whole
      some (.int (if negative then -size else size), rest)
  else
    (readUnsigned? (whole ++ fraction ++ exponent)).map fun d =>
      (.float (d.toBinary negative).toFloat, rest)

/-- What follows a word, if the text begins with it. -/
def afterWord? (word : String) (s : List Char) : Option (List Char) :=
  if word.toList.isPrefixOf s then some (s.drop word.length) else none

/-- The words of the dialect and what they stand for. -/
def words : List (String × Json) :=
  [("null", .null), ("true", .bool true), ("false", .bool false), ("NaN", .float (0 / 0)),
   ("Infinity", .float (1 / 0)), ("-Infinity", .float (-1 / 0))]

/-- Reads a word or a number. -/
def readScalar (s : List Char) : Option (Json × List Char) :=
  match words.findSome? fun word => (afterWord? word.1 s).map fun rest => (word.2, rest) with
  | some found => some found
  | none =>
      match s with
      | '-' :: rest => readSize true rest
      | _ => readSize false s

/-! ## Values -/

/-- A value that holds others. -/
inductive Container where
  | array
  | object
deriving DecidableEq, Repr

/-- Why a text is not read. -/
inductive ReadFault where
  /-- the text holds no value, or more than one -/
  | malformed
  /-- a container lies in too many others -/
  | tooDeep (container : Container)
deriving DecidableEq, Repr

/-- A container in a message. -/
def Container.text : Container → String
  | .array => "a JSON array"
  | .object => "a JSON object"

def ReadFault.message : ReadFault → String
  | .malformed => "not a JSON value"
  | .tooDeep container =>
      "maximum recursion depth exceeded while decoding " ++ container.text
        ++ " from a unicode string"

/-- A part that is there; without it the text is malformed. -/
def demand : Option α → Except ReadFault α
  | some part => .ok part
  | none => .error .malformed

/-- So many containers may lie in each other. -/
def depthLimit : Nat := 985

/-- The room inside a container, if there is room for it. -/
def enter (container : Container) : Nat → Except ReadFault Nat
  | 0 => .error (.tooDeep container)
  | room + 1 => .ok room

mutual

/-- Reads a value that begins with the first character. -/
def readValue : Nat → Nat → List Char → Except ReadFault (Json × List Char)
  | 0, _, _ => .error .malformed
  | fuel + 1, room, s =>
      match s with
      | '"' :: rest => (demand (readString rest)).map fun read => (.string read.1, read.2)
      | '[' :: rest => do
          let room ← enter .array room
          match skipSpace rest with
          | ']' :: tail => .ok (.array [], tail)
          | items => (readItems fuel room items).map fun read => (.array read.1, read.2)
      | '{' :: rest => do
          let room ← enter .object room
          match skipSpace rest with
          | '}' :: tail => .ok (.object [], tail)
          | members => (readMembers fuel room members).map fun read => (.object read.1, read.2)
      | _ => demand (readScalar s)

/-- Reads the items of an array that has one, and the closing bracket. -/
def readItems : Nat → Nat → List Char → Except ReadFault (List Json × List Char)
  | 0, _, _ => .error .malformed
  | fuel + 1, room, s => do
      let (item, rest) ← readValue fuel room s
      match skipSpace rest with
      | ',' :: tail =>
          (readItems fuel room (skipSpace tail)).map fun read => (item :: read.1, read.2)
      | ']' :: tail => .ok ([item], tail)
      | _ => .error .malformed

/-- Reads the members of an object that has one, and the closing brace. -/
def readMembers :
    Nat → Nat → List Char → Except ReadFault (List (String × Json) × List Char)
  | 0, _, _ => .error .malformed
  | fuel + 1, room, s =>
      match s with
      | '"' :: rest => do
          let (name, rest) ← demand (readString rest)
          match skipSpace rest with
          | ':' :: rest => do
              let (value, rest) ← readValue fuel room (skipSpace rest)
              match skipSpace rest with
              | ',' :: tail =>
                  (readMembers fuel room (skipSpace tail)).map fun read =>
                    ((name, value) :: read.1, read.2)
              | '}' :: tail => .ok ([(name, value)], tail)
              | _ => .error .malformed
          | _ => .error .malformed
      | _ => .error .malformed

end

/-- Reads a text that holds one value and white space.  No character is looked at more than twice
before it is taken, which bounds the depth of the calls. -/
def parse (text : String) : Except ReadFault Json := do
  let s := text.toList
  let (value, rest) ← readValue (2 * s.length + 2) depthLimit (skipSpace s)
  if (skipSpace rest).isEmpty then .ok value else .error .malformed

/-- Reads a text that holds one value and white space, if it does. -/
def parse? (text : String) : Option Json := (parse text).toOption

end Json

end PointElevation
