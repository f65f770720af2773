import PointElevation.Json.Value
import PointElevation.Number.Layout
import PointElevation.Text.Quoted

/-!
# Writing JSON

Values are written without any white space, members in their order.  A string shows every
character as it is, except the quote, the backslash and the controls below U+0020: five of those
have a letter, the others are written by their code.  Numbers without digits become `null`.
-/

namespace PointElevation

namespace Json

open PointElevation.Number (Binary jsonStyle)
open PointElevation.Text (hexDigits)

/-- One character inside a string. -/
def escapedChar (c : Char) : List Char :=
  if c = '"' then ['\\', '"']
  else if c = '\\' then ['\\', '\\']
  else if c = '\x08' then ['\\', 'b']
  else if c = '\t' then ['\\', 't']
  else if c = '\n' then ['\\', 'n']
  else if c = '\x0C' then ['\\', 'f']
  else if c = '\r' then ['\\', 'r']
  else if c.toNat < 0x20 then '\\' :: 'u' :: hexDigits 4 c.toNat
  else [c]

/-- A string with its quotes. -/
def writeString (s : String) : List Char := '"' :: s.toList.flatMap escapedChar ++ ['"']

mutual

/-- A value. -/
def write : Json → List Char
  | .null => "null".toList
  | .bool value => if value then "true".toList else "false".toList
  | .int value => (toString value).toList
  | .float value => (jsonStyle.render (Binary.ofFloat value)).toList
  | .string value => writeString value
  | .array items => '[' :: writeItems items ++ [']']
  | .object members => '{' :: writeMembers members ++ ['}']

/-- The items of an array, with commas between them. -/
def writeItems : List Json → List Char
  | [] => []
  | [item] => write item
  | item :: rest => write item ++ ',' :: writeItems rest

/-- The members of an object, with commas between them. -/
def writeMembers : List (String × Json) → List Char
  | [] => []
  | [(name, value)] => writeString name ++ ':' :: write value
  | (name, value) :: rest => writeString name ++ ':' :: write value ++ ',' :: writeMembers rest

end

/-- The compact text of a value. -/
def render (value : Json) : String := String.ofList value.write

end Json

end PointElevation
