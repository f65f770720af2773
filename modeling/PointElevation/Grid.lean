/-!
# The tile grid

Heights are stored on the Swiss LV95 grid (EPSG:2056), in metres.  The plane is cut into square
tiles of one kilometre, each tile into square pixels of two metres, and the rows of a tile run
from north to south, so that row zero is the northern edge.  All of this is integer arithmetic
with division toward the lower integer, and holds for negative coordinates too.

`Position` is a projected point with its fraction dropped, `Covered` the rectangle in which the
dataset has tiles at all, `tileKey` the name of a tile and `pixel` the cell of a position in its
tile.
-/

namespace PointElevation

/-- Name of a tile, such as `2501-1120`: the kilometres of its south west corner. -/
abbrev TileKey := String

/-- A point of the LV95 plane in whole metres. -/
structure Position where
  x : Int
  y : Int
deriving DecidableEq, Repr, Inhabited

/-- A cell of a raster. -/
structure Pixel where
  column : Nat
  row : Nat
deriving DecidableEq, Repr

namespace Grid

def minX : Int := 2420000

def maxX : Int := 2900000

def minY : Int := 1000000

def maxY : Int := 1350000

/-- The edge of a tile in metres. -/
def tileSize : Int := 1000

/-- The edge of a pixel in metres. -/
def resolution : Int := 2

/-- The edge of a tile in pixels. -/
def tilePixels : Int := tileSize / resolution

end Grid

namespace Position

open Grid

/-- The position lies in the rectangle that the dataset covers, edges included. -/
def Covered (p : Position) : Prop := minX ≤ p.x ∧ p.x ≤ maxX ∧ minY ≤ p.y ∧ p.y ≤ maxY

instance (p : Position) : Decidable p.Covered := by
  unfold Covered
  infer_instance

/-- The tile a position lies in, counted in tiles from the origin. -/
def tile (p : Position) : Int × Int := (p.x / tileSize, p.y / tileSize)

/-- The name of the tile a position lies in. -/
def tileKey (p : Position) : TileKey := toString p.tile.1 ++ "-" ++ toString p.tile.2

/-- The cell of a position in its tile.  Columns follow the easting, rows run against the
northing. -/
def pixel (p : Position) : Pixel where
  column := (p.x % tileSize / resolution).toNat
  row := (tilePixels - 1 - p.y % tileSize / resolution).toNat

theorem column_lt (p : Position) : p.pixel.column < 500 := by
  unfold pixel tileSize resolution
  have := Int.emod_nonneg p.x (show (1000 : Int) ≠ 0 by decide)
  have := Int.emod_lt_of_pos p.x (show (0 : Int) < 1000 by decide)
  dsimp only
  omega

theorem row_lt (p : Position) : p.pixel.row < 500 := by
  unfold pixel tilePixels tileSize resolution
  have := Int.emod_nonneg p.y (show (1000 : Int) ≠ 0 by decide)
  have := Int.emod_lt_of_pos p.y (show (0 : Int) < 1000 by decide)
  dsimp only
  omega

end Position

end PointElevation
