import PointElevation.Proofs.Tiff.Reading

/-!
# A tile is read the same in any layout

What is read from the file of a written picture without a value for missing data is the picture,
for each of its bands, and nothing of how it is laid out (`readTile_any_layout`): the byte order,
strips or tiles and their size, the order of the bands, and where the blocks and the values of the
fields are.  For a number that is none of a band there is a fault.
-/

namespace PointElevation.Tiff

variable {p : Picture} {plan : Plan} {data : ByteArray} {path : FilePath} {host : Host}

/-- What is read from a picture without a value for missing data does not depend on its layout:
each band gives a raster with the rows and columns of the picture and its samples in single
precision, and any other number gives a fault. -/
theorem readTile_any_layout (h : p.WrittenIn plan data) (hdeclared : plan.declared = none)
    (hfile : host.disk.read path = .ok data)
    (hnotes : ∀ notes, host.disk.read (sideFile path) ≠ .ok notes) (band : Int) :
    (0 ≤ band ∧ band < p.bands → ∃ r, readTile path band host = .ok r host ∧
      r.rows = p.rows ∧ r.columns = p.columns ∧
      ∀ row < p.rows, ∀ column < p.columns,
        r.at? row column = some (p.sample row column band.toNat).toSingle) ∧
    (band < 0 ∨ p.bands ≤ band → readTile path band host =
      .error (.decode (.unreadable path.name (.bandOutOfRange band))) host) := by
  have hside := side_eq_none hnotes
  constructor
  · rintro ⟨hnonneg, hlt⟩
    obtain ⟨band, rfl⟩ := Int.eq_ofNat_of_zero_le hnonneg
    obtain ⟨r, hread, hshown⟩ := h.exists_read none (Int.ofNat_lt.mp hlt)
    have hplain : plan.noData p none = .undeclared := by
      simp only [Plan.noData, hdeclared]
    refine ⟨r, ?_, hshown.rows, hshown.columns, fun row hrow column hcolumn => ?_⟩
    · rw [readTile_eq _ hfile, hside, Option.map_none, hread]
    · rw [hshown.value row hrow column hcolumn, Option.bind_none, hplain]
      rfl
  · intro houtside
    rw [readTile_eq _ hfile, h.read_of_outside _ houtside]

/-! ## Two bands in planes -/

/-- Three rows and two columns of signed numbers in two bands. -/
def planarPicture : Picture where
  rows := 3
  columns := 2
  bands := 2
  type := ⟨.signed, 16⟩
  sample := fun row column band => .whole (1000 * band - 300 * row - 7 * column)

/-- Strips of two rows, those of the second band in front of those of the first. -/
def planarPlan : Plan where
  order := .mostFirst
  start := 8
  tags := [256, 257, 258, 273, 277, 278, 279, 284, 339]
  cutting := .strips 2
  interleaved := false
  place := fun k => [150, 158, 138, 146].getD k 0
  declared := none

def planarFile : ByteArray := ⟨#[
  77, 77, 0, 42, 0, 0, 0, 8, 0, 9, 1, 0, 0, 3, 0, 0,
  0, 1, 0, 2, 0, 0, 1, 1, 0, 3, 0, 0, 0, 1, 0, 3,
  0, 0, 1, 2, 0, 3, 0, 0, 0, 2, 0, 16, 0, 16, 1, 17,
  0, 3, 0, 0, 0, 4, 0, 0, 0, 122, 1, 21, 0, 3, 0, 0,
  0, 1, 0, 2, 0, 0, 1, 22, 0, 3, 0, 0, 0, 1, 0, 2,
  0, 0, 1, 23, 0, 3, 0, 0, 0, 4, 0, 0, 0, 130, 1, 28,
  0, 3, 0, 0, 0, 1, 0, 2, 0, 0, 1, 83, 0, 3, 0, 0,
  0, 2, 0, 2, 0, 2, 0, 0, 0, 0, 0, 150, 0, 158, 0, 138,
  0, 146, 0, 8, 0, 4, 0, 8, 0, 4, 3, 232, 3, 225, 2, 188,
  2, 181, 1, 144, 1, 137, 0, 0, 255, 249, 254, 212, 254, 205, 253, 168,
  253, 161]⟩

theorem planar_entry {tag : Nat} {values : List Nat} (i place : Nat)
    (h : planarPlan.Entry planarFile tag 3 2 values i place) :
    planarPlan.Says planarFile tag values :=
  ⟨3, 2, i, place, .inl ⟨rfl, rfl⟩, h⟩

theorem planar_writtenIn : planarPicture.WrittenIn planarPlan planarFile where
  proper :=
    { rows_pos := by decide
      rows_lt := by decide
      columns_pos := by decide
      columns_lt := by decide
      bands_pos := by decide
      bands_lt := by decide
      plain := .inl ⟨.inr rfl, by decide⟩
      fits := by decide +kernel }
  heads := by decide +kernel
  described :=
    { rows := planar_entry 1 30 (by decide +kernel)
      columns := planar_entry 0 18 (by decide +kernel)
      bands := .inl (planar_entry 4 66 (by decide +kernel))
      bits := .inr (planar_entry 2 42 (by decide +kernel))
      format := .inl (.inr (planar_entry 8 114 (by decide +kernel)))
      compression := .inr (by decide)
      arrangement := .inl (planar_entry 7 102 (by decide +kernel))
      colours := .inr (by decide)
      bitOrder := .inr (by decide)
      further := .inr (by decide)
      silent := by decide }
  cut :=
    { rows_pos := by decide
      told := .inl (planar_entry 5 78 (by decide +kernel))
      silent := by decide }
  next := by decide +kernel
  places := planar_entry 3 122 (by decide +kernel)
  sizes := planar_entry 6 130 (by decide +kernel)
  laid := by decide +kernel
  declared := (by decide : planarPlan.Silent noDataTag)

theorem readTile_any_layout_planar :
    let host : Host := ⟨soleFile "tile.tif" planarFile, ⟨[], []⟩, ∅⟩
    let path : FilePath := .ofLocation ["tile.tif"]
    planarPicture.WrittenIn planarPlan planarFile ∧ planarPlan.declared = none ∧
      host.disk.read path = .ok planarFile ∧
      (∀ notes, host.disk.read (sideFile path) ≠ .ok notes) ∧
      (∃ r, readTile path 1 host = .ok r host ∧ r.rows = 3 ∧ r.columns = 2 ∧
        r.at? 2 1 = some (.ofInt 393)) ∧
      readTile path 2 host =
        .error (.decode (.unreadable "tile.tif" (.bandOutOfRange 2))) host := by
  intro host path
  have hfile : host.disk.read path = .ok planarFile := rfl
  have hnotes : ∀ notes, host.disk.read (sideFile path) ≠ .ok notes :=
    fun _ => (side_soleFile _).symm ▸ nofun
  refine ⟨planar_writtenIn, rfl, hfile, hnotes, ?_, ?_⟩
  · obtain ⟨r, hread, hrows, hcolumns, hvalue⟩ :=
      (readTile_any_layout planar_writtenIn rfl hfile hnotes 1).1 (by decide)
    exact ⟨r, hread, hrows, hcolumns, hvalue 2 (by decide) 1 (by decide)⟩
  · exact (readTile_any_layout planar_writtenIn rfl hfile hnotes 2).2 (.inr (by decide))

end PointElevation.Tiff
