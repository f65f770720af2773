import PointElevation.Tiff.Tag

/-!
# What is wrong with a file

The ways in which a file can fail to be a raster that the service can read.  Most of them are about
one field of its directory.
-/

namespace PointElevation.Tiff

/-- What is wrong with a field. -/
inductive FieldFault where
  /-- it is not there -/
  | missing
  /-- it has too few values, or more than one -/
  | count
  /-- its values are of a type that it cannot have -/
  | type
  /-- its values do not lie in the file -/
  | outside
  /-- one of its values is negative or too large -/
  | range
  /-- its values differ from band to band -/
  | uneven
  /-- it has more values than can be held -/
  | oversized
  /-- its value means nothing -/
  | value (n : Nat)
deriving DecidableEq, Repr

/-- The fault in words, for a field with a name. -/
def FieldFault.message (name : String) : FieldFault → String
  | .missing => "TIFF directory is missing required \"" ++ name ++ "\" field"
  | .count => "Incorrect count for \"" ++ name ++ "\""
  | .type => "Incompatible type for \"" ++ name ++ "\""
  | .outside => "IO error during reading of \"" ++ name ++ "\""
  | .range => "Incorrect value for \"" ++ name ++ "\""
  | .uneven => "Cannot handle different values per sample for \"" ++ name ++ "\""
  | .oversized => "Sanity check on size of \"" ++ name ++ "\" value failed"
  | .value n => "Bad value " ++ toString n ++ " for \"" ++ name ++ "\" tag"

/-- Why a file gives no raster. -/
inductive Defect where
  /-- there is no file, or a directory in its place -/
  | absent
  /-- the first bytes are not those of the format -/
  | foreign
  /-- the file ends inside something that it announces -/
  | truncated
  /-- the directory has no entries, or too many -/
  | entryCount (count : Nat)
  /-- a field cannot be used -/
  | field (tag : Nat) (fault : FieldFault)
  /-- the raster has no rows, no columns or no blocks, or is too large -/
  | shapeless
  /-- a field asks for something that this reader does not do -/
  | unsupported (tag : Nat)
  /-- the raster has no such band -/
  | bandOutOfRange (band : Int)
deriving DecidableEq, Repr

/-- The reason in words. -/
def Defect.message : Defect → String
  | .absent => "no such file"
  | .foreign => "not a raster file"
  | .truncated => "file is truncated"
  | .entryCount count => "directory of " ++ toString count ++ " entries"
  | .field tag fault => fault.message (tagName tag)
  | .shapeless => "raster without pixels, or too large"
  | .unsupported tag => "value of " ++ tagName tag ++ " is not supported"
  | .bandOutOfRange band => "band " ++ toString band ++ " is out of range"

end PointElevation.Tiff
