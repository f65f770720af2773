import PointElevation.Json.Value
import PointElevation.Number.Layout
import PointElevation.Text.Quoted

/-!
# Showing a value in a message

A message that mentions a value of unknown type shows a text as it is and everything else in a
notation for readers: capitalised words for the three constants, and texts inside lists and
mappings between quotes.
-/

namespace PointElevation

namespace Json

open PointElevation.Number (floatText)
open PointElevation.Text (quoted)

mutual

/-- A value inside another one. -/
def showNested : Json → String
  | .null => "None"
  | .bool value => if value then "True" else "False"
  | .int value => toString value
  | .float value => floatText value
  | .string value => quoted value
  | .array items => "[" ++ showItems items ++ "]"
  | .object members => "\x7b" ++ showMembers members ++ "\x7d"

/-- The items of a list. -/
def showItems : List Json → String
  | [] => ""
  | [item] => showNested item
  | item :: rest => showNested item ++ ", " ++ showItems rest

/-- The entries of a mapping. -/
def showMembers : List (String × Json) → String
  | [] => ""
  | [(name, value)] => quoted name ++ ": " ++ showNested value
  | (name, value) :: rest =>
      quoted name ++ ": " ++ showNested value ++ ", " ++ showMembers rest

end

/-- A value in a message. -/
def display : Json → String
  | .string value => value
  | other => other.showNested

end Json

end PointElevation
