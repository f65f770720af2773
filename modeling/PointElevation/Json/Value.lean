/-!
# JSON values

Whole numbers and floating point numbers are kept apart, since the fields of a response are.  The
members of an object stay in the order in which they were written, duplicates included; looking
one up finds the last.
-/

namespace PointElevation

/-- A JSON value. -/
inductive Json where
  | null
  | bool (value : Bool)
  | int (value : Int)
  | float (value : Float)
  | string (value : String)
  | array (items : List Json)
  | object (members : List (String × Json))
deriving Inhabited

namespace Json

/-- The last of the members with a name. -/
def lastMember? (name : String) (members : List (String × Json)) : Option Json :=
  (members.reverse.find? fun member => member.1 == name).map (·.2)

/-- The last member of an object with a name; other values have no members. -/
def member? (name : String) : Json → Option Json
  | .object members => lastMember? name members
  | _ => none

end Json

end PointElevation
