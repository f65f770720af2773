import Mathlib.Data.Rat.Floor
import Mathlib.Tactic.Linarith
import Mathlib.Tactic.NormNum
import PointElevation.Proofs.Listing.FileName
import PointElevation.Projection

/-!
# The cells of the grid

A position is what is left of a point of the plane when the fractions of its coordinates are
dropped, and everything else about it is division of integers.  This file goes back from the
integers to the plane: a tile and a pixel name a half open square of two metres, the squares of all
tiles cover the plane without overlap, and the square that a position is taken to is the one that
its point lies in.

* `Position.ofPoint` drops the fractions, toward zero; `position?_eq` says that a projected point is
  treated so, by its exact value.
* `InCell` is the square of a tile and a pixel; its rows go down from the northern edge.
* `inCell_iff` is the arithmetic: the square of a point is read off the integers below its
  coordinates.  Where the dataset has tiles the coordinates are positive, and dropping the fraction
  is going to the integer below.
* `tileKey_inj` lets the name of a tile stand for the tile.
-/

namespace PointElevation

open PointElevation.Number (Binary truncate?)

/-! ## Names of tiles -/

theorem hyphen_notMem_toDigits (n : Nat) : '-' ∉ Nat.toDigits 10 n := by
  intro hmem
  have hdigit := Nat.isDigit_of_mem_toDigits (by decide) (by decide) hmem
  exact absurd hdigit (by decide)

theorem toDigits_append_ne {n : Nat} {s t : List Char} : Nat.toDigits 10 n ++ s ≠ '-' :: t := by
  intro heq
  cases hdigits : Nat.toDigits 10 n with
  | nil => exact Nat.toDigits_ne_nil hdigits
  | cons c rest =>
      rw [hdigits] at heq
      have hc : c = '-' := (List.cons.inj heq).1
      exact hyphen_notMem_toDigits n (by rw [hdigits, hc]; exact List.mem_cons_self)

theorem append_hyphen_inj {first second s t : List Char} (hfirst : '-' ∉ first)
    (hsecond : '-' ∉ second) (h : first ++ '-' :: s = second ++ '-' :: t) :
    first = second ∧ s = t := by
  induction first generalizing second with
  | nil =>
      cases second with
      | nil => exact ⟨rfl, (List.cons.inj h).2⟩
      | cons d second => exact absurd (List.mem_cons.mpr (.inl (List.cons.inj h).1)) hsecond
  | cons c first ih =>
      cases second with
      | nil => exact absurd (List.mem_cons.mpr (.inl (List.cons.inj h).1.symm)) hfirst
      | cons d second =>
          obtain ⟨hhead, htail⟩ := List.cons.inj h
          rw [List.mem_cons, not_or] at hfirst hsecond
          obtain ⟨hrest, hend⟩ := ih hfirst.2 hsecond.2 htail
          exact ⟨by rw [hhead, hrest], hend⟩

/-- The first hyphen that is no sign ends the decimals of an integer. -/
theorem hyphenated_inj {i j : Int} {s t : List Char}
    (h : (toString i).toList ++ '-' :: s = (toString j).toList ++ '-' :: t) : i = j ∧ s = t := by
  have hmagnitude : ∀ {m n : Nat}, Nat.toDigits 10 m ++ '-' :: s = Nat.toDigits 10 n ++ '-' :: t →
      m = n ∧ s = t := by
    intro m n heq
    obtain ⟨hdigits, hrest⟩ :=
      append_hyphen_inj (hyphen_notMem_toDigits m) (hyphen_notMem_toDigits n) heq
    have hvalue := congrArg (fun digits => Nat.ofDigitChars 10 digits 0) hdigits
    simp only [Nat.ofDigitChars_ten_toDigits] at hvalue
    exact ⟨hvalue, hrest⟩
  rw [toList_toString_int, toList_toString_int] at h
  -- texts with a sign and without one differ in their first character
  by_cases hi : i < 0 <;> by_cases hj : j < 0 <;>
    simp only [hi, hj, if_true, if_false, List.nil_append, List.cons_append] at h
  · obtain ⟨habs, hrest⟩ := hmagnitude (List.cons.inj h).2
    exact ⟨by omega, hrest⟩
  · exact absurd h.symm toDigits_append_ne
  · exact absurd h toDigits_append_ne
  · obtain ⟨habs, hrest⟩ := hmagnitude h
    exact ⟨by omega, hrest⟩

/-- A key names one tile. -/
theorem tileKey_inj {p q : Position} : p.tileKey = q.tileKey ↔ p.tile = q.tile := by
  constructor
  · intro hkey
    have hlist := congrArg String.toList hkey
    have hhyphen : "-".toList = ['-'] := rfl
    simp only [Position.tileKey, String.toList_append, hhyphen, List.append_assoc,
      List.singleton_append] at hlist
    obtain ⟨hx, hdecimals⟩ := hyphenated_inj hlist
    have hy := (hyphenated_inj (congrArg (· ++ ['-']) hdecimals)).1
    exact Prod.ext hx hy
  · intro htile
    rw [Position.tileKey, Position.tileKey, htile]

/-! ## Dropping a fraction -/

/-- A rational without its fraction: the integer next to it on the side of zero. -/
def truncated (q : ℚ) : ℤ := if 0 ≤ q then ⌊q⌋ else ⌈q⌉

theorem truncated_of_nonneg {q : ℚ} (h : 0 ≤ q) : truncated q = ⌊q⌋ := if_pos h

theorem truncated_neg (q : ℚ) : truncated (-q) = -truncated q := by
  unfold truncated
  rcases lt_trichotomy q 0 with hneg | hzero | hpos
  · rw [if_pos (by linarith), if_neg (by linarith), Int.floor_neg]
  · simp [hzero]
  · rw [if_neg (by linarith), if_pos (by linarith), Int.ceil_neg]

/-- A positive integer is what is left of the numbers from it up to the next one. -/
theorem truncated_eq_floor {q : ℚ} (h : 0 < truncated q) : truncated q = ⌊q⌋ := by
  by_cases hq : 0 ≤ q
  · exact truncated_of_nonneg hq
  · have hceil : ⌈q⌉ ≤ 0 := Int.ceil_le.mpr (by push_cast; linarith)
    rw [truncated, if_neg hq] at h
    omega

/-- The number that a value is; the specials are none. -/
def Number.Binary.rational? : Binary → Option ℚ
  | .finite negative mantissa unit =>
      let size : ℚ := mantissa * 2 ^ unit
      some (if negative then -size else size)
  | _ => none

theorem Number.Binary.truncate?_eq (b : Binary) : b.truncate? = b.rational?.map truncated := by
  cases b with
  | notANumber => rfl
  | infinite negative => rfl
  | finite negative mantissa unit =>
      have hunit : (2 : ℚ) ^ unit = 2 ^ unit.toNat / 2 ^ (-unit).toNat := by
        rw [← zpow_natCast, ← zpow_natCast, ← zpow_sub₀ (by norm_num)]
        congr 1
        omega
      have hsize : truncated (mantissa * 2 ^ unit) =
          ((mantissa * Nat.pow 2 unit.toNat / Nat.pow 2 (-unit).toNat : Nat) : ℤ) := by
        have hnonneg : (0 : ℚ) ≤ mantissa * 2 ^ unit :=
          mul_nonneg (Nat.cast_nonneg mantissa) (zpow_nonneg (by norm_num) unit)
        rw [truncated_of_nonneg hnonneg, hunit, ← mul_div_assoc]
        have hfloor := Rat.floor_natCast_div_natCast (mantissa * 2 ^ unit.toNat) (2 ^ (-unit).toNat)
        push_cast at hfloor ⊢
        exact hfloor
      cases negative with
      | false => simp only [Binary.truncate?, rational?, Option.map_some, hsize, Bool.false_eq_true,
          if_false]
      | true => simp only [Binary.truncate?, rational?, Option.map_some, truncated_neg, hsize,
          if_true]

/-- The position of a point of the plane. -/
def Position.ofPoint (x y : ℚ) : Position := ⟨truncated x, truncated y⟩

/-- A projected point is taken at its exact value. -/
theorem Projection.position?_eq (project : Projection) (latitude longitude : Float) :
    project.position? latitude longitude =
      (Binary.ofFloat (project latitude longitude).1).rational?.bind fun x =>
        (Binary.ofFloat (project latitude longitude).2).rational?.map fun y =>
          Position.ofPoint x y := by
  simp only [Projection.position?, truncate?, Binary.truncate?_eq]
  cases (Binary.ofFloat (project latitude longitude).1).rational? with
  | none => rfl
  | some x => cases (Binary.ofFloat (project latitude longitude).2).rational? <;> rfl

/-! ## Cells -/

/-- The point lies in the square of two metres that a tile, by its kilometres, and a pixel of the
tile name.  Its western and southern edges are part of it. -/
structure InCell (tile : ℤ × ℤ) (cell : Pixel) (x y : ℚ) : Prop where
  west : 1000 * tile.1 + 2 * cell.column ≤ x
  east : x < 1000 * tile.1 + 2 * cell.column + 2
  south : 1000 * (tile.2 + 1) - 2 * (cell.row + 1) ≤ y
  north : y < 1000 * (tile.2 + 1) - 2 * cell.row

/-- The edges of a square are integers, so the integers below a point decide. -/
theorem inCell_iff_floor {tile : ℤ × ℤ} {cell : Pixel} {x y : ℚ} :
    InCell tile cell x y ↔
      1000 * tile.1 + 2 * cell.column ≤ ⌊x⌋ ∧ ⌊x⌋ < 1000 * tile.1 + 2 * cell.column + 2 ∧
      1000 * (tile.2 + 1) - 2 * (cell.row + 1) ≤ ⌊y⌋ ∧
      ⌊y⌋ < 1000 * (tile.2 + 1) - 2 * cell.row := by
  rw [Int.le_floor, Int.floor_lt, Int.le_floor, Int.floor_lt]
  push_cast
  constructor
  · rintro ⟨west, east, south, north⟩
    exact ⟨west, east, south, north⟩
  · rintro ⟨west, east, south, north⟩
    exact ⟨west, east, south, north⟩

theorem Position.column_eq (p : Position) : (p.pixel.column : ℤ) = p.x % 1000 / 2 := by
  simp only [Position.pixel, Grid.tileSize, Grid.resolution]
  omega

theorem Position.row_eq (p : Position) : (p.pixel.row : ℤ) = 499 - p.y % 1000 / 2 := by
  simp only [Position.pixel, Grid.tilePixels, Grid.tileSize, Grid.resolution]
  omega

/-- A point lies in one cell of the plane, which its position names. -/
theorem inCell_iff {tile : ℤ × ℤ} {cell : Pixel} {x y : ℚ} (hcolumn : cell.column < 500)
    (hrow : cell.row < 500) :
    InCell tile cell x y ↔
      tile = Position.tile ⟨⌊x⌋, ⌊y⌋⟩ ∧ cell = Position.pixel ⟨⌊x⌋, ⌊y⌋⟩ := by
  obtain ⟨tx, ty⟩ := tile
  obtain ⟨column, row⟩ := cell
  have hpx := Position.column_eq ⟨⌊x⌋, ⌊y⌋⟩
  have hpy := Position.row_eq ⟨⌊x⌋, ⌊y⌋⟩
  generalize hpixel : Position.pixel ⟨⌊x⌋, ⌊y⌋⟩ = pixel at hpx hpy ⊢
  obtain ⟨column', row'⟩ := pixel
  rw [inCell_iff_floor]
  simp only [Position.tile, Grid.tileSize, Prod.mk.injEq, Pixel.mk.injEq] at hpx hpy hcolumn hrow ⊢
  omega

theorem Position.Covered.ofPoint_eq {x y : ℚ} (h : (Position.ofPoint x y).Covered) :
    Position.ofPoint x y = ⟨⌊x⌋, ⌊y⌋⟩ := by
  obtain ⟨hx, -, hy, -⟩ := h
  have hminX : (0 : ℤ) < Grid.minX := by decide
  have hminY : (0 : ℤ) < Grid.minY := by decide
  have hx' : truncated x = ⌊x⌋ := truncated_eq_floor (lt_of_lt_of_le hminX hx)
  have hy' : truncated y = ⌊y⌋ := truncated_eq_floor (lt_of_lt_of_le hminY hy)
  rw [Position.ofPoint, hx', hy']

/-- The cell that a position of the covered area is taken to is that of its point. -/
theorem Position.Covered.inCell {x y : ℚ} (h : (Position.ofPoint x y).Covered) :
    InCell (Position.ofPoint x y).tile (Position.ofPoint x y).pixel x y := by
  rw [h.ofPoint_eq]
  exact (inCell_iff (Position.column_lt _) (Position.row_lt _)).mpr ⟨rfl, rfl⟩

/-- Positions share a cell when they agree up to the last bit of both coordinates. -/
theorem Position.sameCell_iff {p q : Position} :
    p.tileKey = q.tileKey ∧ p.pixel = q.pixel ↔ p.x / 2 = q.x / 2 ∧ p.y / 2 = q.y / 2 := by
  have hpx := p.column_eq
  have hpy := p.row_eq
  have hqx := q.column_eq
  have hqy := q.row_eq
  rw [tileKey_inj]
  generalize p.pixel = pixel at hpx hpy ⊢
  generalize q.pixel = pixel' at hqx hqy ⊢
  obtain ⟨column, row⟩ := pixel
  obtain ⟨column', row'⟩ := pixel'
  simp only [Position.tile, Grid.tileSize, Prod.mk.injEq, Pixel.mk.injEq] at hpx hpy hqx hqy ⊢
  omega

/-- The south western corner of a cell. -/
def Pixel.corner (tile : ℤ × ℤ) (cell : Pixel) : Position :=
  ⟨1000 * tile.1 + 2 * cell.column, 1000 * (tile.2 + 1) - 2 * (cell.row + 1)⟩

theorem Pixel.corner_inCell (tile : ℤ × ℤ) (cell : Pixel) :
    InCell tile cell (cell.corner tile).x (cell.corner tile).y := by
  rw [inCell_iff_floor, Int.floor_intCast, Int.floor_intCast]
  simp only [Pixel.corner]
  omega

/-- Pixels address the plane exactly.  A point of the dataset's area lies in the cell that its
position is taken to and in no other, and so does every image of a projection, whose exact value is
what counts; the pixel is one of the tile's wherever the position is; two positions share a cell
exactly when their halves are the same integers; and every cell of every tile has positions. -/
theorem pixel_partition :
    (∀ x y : ℚ, (Position.ofPoint x y).Covered →
      InCell (Position.ofPoint x y).tile (Position.ofPoint x y).pixel x y ∧
      ∀ tile cell, cell.column < 500 → cell.row < 500 → InCell tile cell x y →
        tile = (Position.ofPoint x y).tile ∧ cell = (Position.ofPoint x y).pixel) ∧
    (∀ (project : Projection) (latitude longitude : Float) (p : Position),
      project.position? latitude longitude = some p → p.Covered →
        ∃ x y, (Binary.ofFloat (project latitude longitude).1).rational? = some x ∧
          (Binary.ofFloat (project latitude longitude).2).rational? = some y ∧
          InCell p.tile p.pixel x y) ∧
    (∀ p : Position, (p.pixel.column : ℤ) = p.x % 1000 / 2 ∧
      (p.pixel.row : ℤ) = 499 - p.y % 1000 / 2 ∧ p.pixel.column < 500 ∧ p.pixel.row < 500) ∧
    (∀ p q : Position,
      p.tileKey = q.tileKey ∧ p.pixel = q.pixel ↔ p.x / 2 = q.x / 2 ∧ p.y / 2 = q.y / 2) ∧
    (∀ tile cell, cell.column < 500 → cell.row < 500 →
      ∃ p : Position, p.tile = tile ∧ p.pixel = cell) := by
  refine ⟨?_, ?_, fun p => ⟨p.column_eq, p.row_eq, p.column_lt, p.row_lt⟩,
    fun p q => Position.sameCell_iff, ?_⟩
  · intro x y hcovered
    refine ⟨hcovered.inCell, ?_⟩
    intro tile cell hcolumn hrow hcell
    rw [hcovered.ofPoint_eq]
    exact (inCell_iff hcolumn hrow).mp hcell
  · intro project latitude longitude p hposition hcovered
    rw [Projection.position?_eq, Option.bind_eq_some_iff] at hposition
    obtain ⟨x, hx, hnorthing⟩ := hposition
    obtain ⟨y, hy, rfl⟩ := Option.map_eq_some_iff.mp hnorthing
    exact ⟨x, y, hx, hy, hcovered.inCell⟩
  · intro tile cell hcolumn hrow
    obtain ⟨htile, hpixel⟩ := (inCell_iff hcolumn hrow).mp (cell.corner_inCell tile)
    rw [Int.floor_intCast, Int.floor_intCast] at htile hpixel
    exact ⟨cell.corner tile, htile.symm, hpixel.symm⟩

/-- The last millimetres of a tile, next to its eastern and above its southern edge, and the cell
at the northern edge of a tile far from the dataset's area. -/
theorem pixel_partition_at_edges :
    (Position.ofPoint (2600999 + 999 / 1000) (1200000 + 1 / 1000)).Covered ∧
      InCell (2600, 1200) ⟨499, 499⟩ (2600999 + 999 / 1000) (1200000 + 1 / 1000) ∧
      ∃ p : Position, p.tile = (-3, -1) ∧ p.pixel = ⟨499, 0⟩ := by
  have hpoint : Position.ofPoint (2600999 + 999 / 1000) (1200000 + 1 / 1000) =
      ⟨2600999, 1200000⟩ := by
    norm_num [Position.ofPoint, truncated]
  have hcovered : (Position.ofPoint (2600999 + 999 / 1000) (1200000 + 1 / 1000)).Covered := by
    rw [hpoint]
    decide
  have hcell := (pixel_partition.1 _ _ hcovered).1
  rw [hpoint] at hcell
  exact ⟨hcovered, hcell, pixel_partition.2.2.2.2 (-3, -1) ⟨499, 0⟩ (by decide) (by decide)⟩

end PointElevation
