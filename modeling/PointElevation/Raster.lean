import PointElevation.Grid
import PointElevation.Number.Single

/-!
# Rasters

A decoded tile is a rectangle of single precision heights, stored row by row.  Reading a pixel
outside the rectangle has no answer; `Raster.sample` reads the pixel of a position and says which
pixel was missing if the rectangle is too small for it.
-/

namespace PointElevation

open PointElevation.Number (Single)

/-- A rectangle of heights. -/
structure Raster where
  rows : Nat
  columns : Nat
  samples : Array Single
  size_samples : samples.size = rows * columns

/-- A raster that has no value for a pixel. -/
structure MissingPixel where
  rows : Nat
  columns : Nat
  pixel : Pixel
deriving DecidableEq, Repr

namespace Raster

instance : Inhabited Raster := ⟨⟨0, 0, #[], rfl⟩⟩

/-- The raster whose value at each row and column is given by a function. -/
def ofFn (rows columns : Nat) (value : Nat → Nat → Single) : Raster where
  rows := rows
  columns := columns
  samples := Array.ofFn fun i : Fin (rows * columns) => value (i / columns) (i % columns)
  size_samples := Array.size_ofFn

/-- The value at a row and a column, if the raster reaches that far. -/
def at? (r : Raster) (row column : Nat) : Option Single :=
  if row < r.rows ∧ column < r.columns then r.samples[row * r.columns + column]? else none

/-- The number of pixels without data. -/
def countMissing (r : Raster) : Nat := r.samples.countP Single.isNaN

/-- The height at a position.  Only the pixel asked for has to exist. -/
def sample (r : Raster) (p : Position) : Except MissingPixel Single :=
  match r.at? p.pixel.row p.pixel.column with
  | some value => .ok value
  | none => .error ⟨r.rows, r.columns, p.pixel⟩

@[simp] theorem rows_ofFn (rows columns : Nat) (value : Nat → Nat → Single) :
    (ofFn rows columns value).rows = rows := rfl

@[simp] theorem columns_ofFn (rows columns : Nat) (value : Nat → Nat → Single) :
    (ofFn rows columns value).columns = columns := rfl

/-- The index of a pixel lies inside the raster. -/
theorem index_lt {rows columns row column : Nat} (hrow : row < rows) (hcolumn : column < columns) :
    row * columns + column < rows * columns := by
  calc row * columns + column < row * columns + columns := by omega
    _ = (row + 1) * columns := by rw [Nat.add_mul, Nat.one_mul]
    _ ≤ rows * columns := Nat.mul_le_mul_right _ hrow

/-- A raster made from a function has that function's values. -/
theorem at?_ofFn {rows columns row column : Nat} (value : Nat → Nat → Single)
    (hrow : row < rows) (hcolumn : column < columns) :
    (ofFn rows columns value).at? row column = some (value row column) := by
  have hindex := index_lt hrow hcolumn
  have hdiv : (row * columns + column) / columns = row := by
    rw [Nat.mul_comm, Nat.mul_add_div (by omega), Nat.div_eq_of_lt hcolumn, Nat.add_zero]
  have hmod : (row * columns + column) % columns = column := by
    rw [Nat.mul_comm, Nat.mul_add_mod, Nat.mod_eq_of_lt hcolumn]
  simp [at?, ofFn, hrow, hcolumn, hindex, hdiv, hmod]

/-- A raster has a value at exactly the pixels of its rectangle. -/
theorem at?_eq_none_iff {r : Raster} {row column : Nat} :
    r.at? row column = none ↔ ¬ (row < r.rows ∧ column < r.columns) := by
  unfold at?
  split
  · rename_i h
    have := index_lt h.1 h.2
    simp [h, r.size_samples, this]
  · simp_all

end Raster

end PointElevation
