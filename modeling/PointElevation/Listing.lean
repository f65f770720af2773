import Std.Data.HashMap
import PointElevation.Grid
import PointElevation.Text.Blank
import PointElevation.Text.Field
import PointElevation.Text.Line

/-!
# The tile listing

Addresses of tiles carry the year of survey, so they cannot be computed from a position; the
dataset publishes a list of them, one on each line.  The third of the underscore separated fields
of an address's file name is the key of its tile.  `Listing.ofText` keeps the last address of each
key and skips lines that are no address, and `Listing.url?` looks a key up.
-/

namespace PointElevation

open PointElevation.Text (fields lastField lines trim)

/-- The key in the file name of an address, on characters. -/
def keyChars? (url : List Char) : Option (List Char) := (fields '_' (lastField '/' url))[2]?

/-- The key in the file name of an address, if the name has three fields. -/
def keyOfUrl? (url : String) : Option TileKey := (keyChars? url.toList).map String.ofList

/-- Addresses of tiles by key. -/
structure Listing where
  urls : Std.HashMap TileKey String

namespace Listing

instance : EmptyCollection Listing := ⟨⟨∅⟩⟩

instance : Inhabited Listing := ⟨∅⟩

/-- The address of a tile. -/
def url? (l : Listing) (key : TileKey) : Option String := l.urls[key]?

/-- The number of tiles. -/
def size (l : Listing) : Nat := l.urls.size

/-- Sets the address of a tile. -/
def insert (l : Listing) (key : TileKey) (url : String) : Listing := ⟨l.urls.insert key url⟩

/-- The entry that a line makes: the line without blanks around it must have a slash and a key. -/
def entry? (line : List Char) : Option (TileKey × String) :=
  let url := trim line
  if '/' ∈ url then (keyChars? url).map fun key => (String.ofList key, String.ofList url)
  else none

/-- Takes in one line. -/
def addLine (l : Listing) (line : List Char) : Listing :=
  match entry? line with
  | some (key, url) => l.insert key url
  | none => l

/-- The listing of a text; of several lines with one key the last counts. -/
def ofText (text : List Char) : Listing := (lines text).foldl addLine ∅

/-- All entries, by ascending key. -/
def toSortedList (l : Listing) : List (TileKey × String) :=
  l.urls.toList.mergeSort fun a b => a.1 ≤ b.1

@[simp] theorem url?_empty (key : TileKey) : (∅ : Listing).url? key = none := by
  simp [url?, EmptyCollection.emptyCollection]

theorem url?_insert (l : Listing) (key key' : TileKey) (url : String) :
    (l.insert key url).url? key' = if key = key' then some url else l.url? key' := by
  simp [url?, insert, Std.HashMap.getElem?_insert]

end Listing

end PointElevation
