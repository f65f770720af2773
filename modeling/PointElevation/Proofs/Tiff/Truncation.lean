import PointElevation.Proofs.Tiff.LostPlaces
import PointElevation.Proofs.Tiff.Masking

/-!
# Files of any length

Whatever bytes a tile file has, reading it ends with a raster of the declared size or with a fault
of decoding, and leaves the host as it is.  `readTile_whole_or_fault` says so, and what becomes of a
raster when the file gets longer or shorter.  A longer file gives the same raster if nothing that is
looked up lies behind the end of the first.  A shorter one gives a fault if it has lost some of the
directory, of the sizes or of the blocks; but the text for missing data can be lost without one, and
so can places of blocks.
-/

namespace PointElevation.Tiff

open PointElevation.Text (decodeUtf8)

variable {data : ByteArray}

/-! ## Tile files -/

/-- A raster has the rows and columns that fields of a file declare, and a value at each pixel. -/
structure Fills (data : ByteArray) (r : Raster) : Prop where
  declares : ∃ d, readDirectory data = .ok d ∧ d.Declares data rowsTag r.rows ∧
    d.Declares data columnsTag r.columns
  value : ∀ row < r.rows, ∀ column < r.columns, ∃ value, r.at? row column = some value

theorem fills_of_read {side : Option String} {band : Int} {r : Raster}
    (h : read data side band = .ok r) : Fills data r where
  declares := declares_of_read h
  value := by
    intro row hrow column hcolumn
    apply Option.ne_none_iff_exists'.mp
    exact fun hnone => Raster.at?_eq_none_iff.mp hnone ⟨hrow, hcolumn⟩

section TileFile

variable {path : FilePath} {host : Host}

theorem readTile_eq_ok_iff {band : Int} {r : Raster} (hfile : host.disk.read path = .ok data) :
    readTile path band host = .ok r host ↔
      read data ((host.disk.read (sideFile path)).toOption.map decodeUtf8) band = .ok r := by
  rw [readTile_eq band hfile]
  cases read data ((host.disk.read (sideFile path)).toOption.map decodeUtf8) band with
  | ok r' => simp
  | error defect => simp

/-- A file that cannot be read from the disk is no raster. -/
theorem readTile_of_absent {fault : DiskFault} (band : Int)
    (hfile : host.disk.read path = .error fault) :
    readTile path band host = .error (.decode (.unreadable path.name .absent)) host := by
  simp only [readTile, bind_apply, get_apply, hfile]
  rfl

end TileFile

/-- Reading a tile gives a raster that fills the declared shape or a fault of decoding, whatever
the file is.  A raster is the same with anything behind the file, if all that is looked up lies in
the file.  A front part of the file of a picture with one band, of which the places of the blocks
are not lost, is read exactly if it has the directory, the sizes and the blocks; then it is the
whole picture, but without the text for missing data nothing is hidden.  If some of the places are
lost, blocks are read from the beginning of the file in their stead, and there has to be enough. -/
theorem readTile_whole_or_fault (path : FilePath) (host : Host) :
    (∀ band : Int,
      (∃ data r, host.disk.read path = .ok data ∧ readTile path band host = .ok r host ∧
        Fills data r) ∨
      ∃ defect, readTile path band host =
        .error (.decode (.unreadable path.name defect)) host) ∧
    (∀ (band : Int) (data more : ByteArray) (d : Directory) (r : Raster) (longer : Host),
      host.disk.read path = .ok data → readDirectory data = .ok d → d.Contained data →
      longer.disk.read path = .ok (data ++ more) →
      longer.disk.read (sideFile path) = host.disk.read (sideFile path) →
      readTile path band host = .ok r host → readTile path band longer = .ok r longer) ∧
    (∀ (p : Picture) (plan : Plan) (data more : ByteArray), host.disk.read path = .ok data →
      p.WrittenIn plan (data ++ more) → p.bands = 1 →
      (plan.Heads data → plan.Says data plan.placesTag (plan.places p)) →
      ((∃ r, readTile path 0 host = .ok r host) ↔
        plan.Heads data ∧ plan.Says data plan.sizesTag (plan.sizes p) ∧
          plan.HoldsBand data p 0) ∧
      ∀ r, readTile path 0 host = .ok r host →
        (∀ notes, host.disk.read (sideFile path) ≠ .ok notes) →
        ((∀ text, plan.declared = some text → plan.SaysText data noDataTag text) →
          p.Shown (plan.noData p none) 0 r) ∧
        ((∀ text, plan.declared = some text → ¬ plan.SaysText data noDataTag text) →
          p.Shown .undeclared 0 r)) ∧
    (∀ (p : Picture) (plan : Plan) (data more : ByteArray) (code width i place : Nat),
      host.disk.read path = .ok data → p.WrittenIn plan (data ++ more) → p.bands = 1 →
      plan.Heads data → (code = 3 ∧ width = 2 ∨ code = 4 ∧ width = 4) →
      plan.Entry (data ++ more) plan.placesTag code width (plan.places p) i place →
      ¬ plan.Says data plan.placesTag (plan.places p) →
      ((∃ r, readTile path 0 host = .ok r host) ↔
        plan.Says data plan.sizesTag (plan.sizes p) ∧
          (plan.salvaged p data width place).HoldsBand data p 0) ∧
      ∀ r, readTile path 0 host = .ok r host →
        (∀ notes, host.disk.read (sideFile path) ≠ .ok notes) →
        ((∀ text, plan.declared = some text → plan.SaysText data noDataTag text) →
          (plan.salvaged p data width place).Yields p data (plan.noData p none) 0 r) ∧
        ((∀ text, plan.declared = some text → ¬ plan.SaysText data noDataTag text) →
          (plan.salvaged p data width place).Yields p data .undeclared 0 r)) := by
  refine ⟨fun band => ?_, ?_, ?_, ?_⟩
  · cases hfile : host.disk.read path with
    | error fault => exact .inr ⟨.absent, readTile_of_absent band hfile⟩
    | ok data =>
        have hreading := readTile_eq band hfile
        cases hread : read data ((host.disk.read (sideFile path)).toOption.map decodeUtf8) band with
        | ok r =>
            rw [hread] at hreading
            exact .inl ⟨data, r, rfl, hreading, fills_of_read hread⟩
        | error defect =>
            rw [hread] at hreading
            exact .inr ⟨defect, hreading⟩
  · intro band data more d r longer hfile hdirectory hcontained hlonger hside hread
    have hread := (readTile_eq_ok_iff hfile).mp hread
    apply (readTile_eq_ok_iff hlonger).mpr
    rw [hside]
    exact read_append hdirectory hcontained hread more
  · intro p plan data more hfile hwritten hband hplaces
    constructor
    · rw [exists_congr fun r => readTile_eq_ok_iff hfile]
      exact hwritten.exists_read_iff hband hplaces
    · intro r hread hnotes
      have hshown := hwritten.shown_of_read hband hplaces ((readTile_eq_ok_iff hfile).mp hread)
      rwa [side_eq_none hnotes] at hshown
  · intro p plan data more code width i place hfile hwritten hband hheads hcode hentry hlost
    constructor
    · rw [exists_congr fun r => readTile_eq_ok_iff hfile]
      exact hwritten.exists_read_iff_of_lost hband hheads hcode hentry hlost
    · intro r hread hnotes
      have hyields := hwritten.yields_of_read_of_lost hband hheads hcode hentry hlost
        ((readTile_eq_ok_iff hfile).mp hread)
      rwa [side_eq_none hnotes] at hyields

/-! ## A picture without its last byte -/

/-- The file of `crowdedPicture` but for the zero behind the text for missing data. -/
def shortenedFile : ByteArray := ⟨crowdedFile.data.pop⟩

theorem shortened_append : shortenedFile ++ ⟨#[0]⟩ = crowdedFile := by decide +kernel

theorem shortened_heads : crowdedPlan.Heads shortenedFile := by decide +kernel

theorem shortened_silent (text : List Char) (hlength : text.length = 9) :
    ¬ crowdedPlan.SaysText shortenedFile noDataTag text := by
  rintro ⟨-, -, i, place, hentry⟩
  obtain ⟨hi, htag⟩ := List.getElem?_eq_some_iff.mp hentry.tag
  obtain rfl : i = 8 := by
    have hall : ∀ (j : Nat) (h : j < crowdedPlan.tags.length),
        crowdedPlan.tags[j] = noDataTag → j = 8 := by decide
    exact hall i hi htag
  have hmany : (text.map Char.toNat ++ [0]).length = 10 := by simp [hlength]
  have hplace : place = 134 := by
    have hread := (hentry.apart (by omega)).natAt_eq
    rw [← hread]
    decide +kernel
  have hinside := hentry.inside shortened_heads
  have hsize : shortenedFile.size = 143 := by decide +kernel
  omega

theorem crowded_contained : (crowdedPlan.directory crowdedFile).Contained crowdedFile where
  lies := by
    unfold Directory.LiesIn Field.LiesIn
    decide +kernel
  full := fun _ _ => crowded_writtenIn.full

/-! ## A picture without its last place -/

/-- Two rows of one column each. -/
def slenderPicture : Picture where
  rows := 2
  columns := 1
  bands := 1
  type := ⟨.unsigned, 8⟩
  sample := fun row _ _ => .whole (5 + row)

/-- Two strips, and behind them the table of their places. -/
def slenderPlan : Plan where
  order := .leastFirst
  start := 8
  tags := [256, 257, 258, 273, 278, 279]
  cutting := .strips 1
  interleaved := true
  place := fun k => 86 + k
  declared := none

/-- The file, but for the last byte of the table. -/
def slenderFront : ByteArray := ⟨#[
  73, 73, 42, 0, 8, 0, 0, 0, 6, 0, 0, 1, 3, 0, 1, 0,
  0, 0, 1, 0, 0, 0, 1, 1, 3, 0, 1, 0, 0, 0, 2, 0,
  0, 0, 2, 1, 3, 0, 1, 0, 0, 0, 8, 0, 0, 0, 17, 1,
  4, 0, 2, 0, 0, 0, 88, 0, 0, 0, 22, 1, 3, 0, 1, 0,
  0, 0, 1, 0, 0, 0, 23, 1, 3, 0, 2, 0, 0, 0, 1, 0,
  1, 0, 0, 0, 0, 0, 5, 6, 86, 0, 0, 0, 87, 0, 0]⟩

theorem slender_writtenIn : slenderPicture.WrittenIn slenderPlan (slenderFront ++ ⟨#[0]⟩) where
  proper :=
    { rows_pos := by decide
      rows_lt := by decide
      columns_pos := by decide
      columns_lt := by decide
      bands_pos := by decide
      bands_lt := by decide
      plain := .inl ⟨.inl rfl, by decide⟩
      fits := by decide +kernel }
  heads := by decide +kernel
  described :=
    { rows := ⟨3, 2, 1, 30, by decide, by decide +kernel⟩
      columns := ⟨3, 2, 0, 18, by decide, by decide +kernel⟩
      bands := .inr ⟨rfl, by decide⟩
      bits := .inl ⟨3, 2, 2, 42, by decide, by decide +kernel⟩
      format := .inr ⟨rfl, by decide⟩
      compression := .inr (by decide)
      arrangement := .inr ⟨rfl, by decide⟩
      colours := .inr (by decide)
      bitOrder := .inr (by decide)
      further := .inr (by decide)
      silent := by decide }
  cut :=
    { rows_pos := by decide
      told := .inl ⟨3, 2, 4, 66, by decide, by decide +kernel⟩
      silent := by decide }
  next := by decide +kernel
  places := ⟨4, 4, 3, 88, by decide, by decide +kernel⟩
  sizes := ⟨3, 2, 5, 78, by decide, by decide +kernel⟩
  laid := by decide +kernel
  declared := (by decide : slenderPlan.Silent noDataTag)

/-- The table ends behind the front part. -/
theorem slender_lost :
    ¬ slenderPlan.Says slenderFront slenderPlan.placesTag (slenderPlan.places slenderPicture) := by
  have hheads : slenderPlan.Heads slenderFront := by decide +kernel
  rintro ⟨code, width, i, place, hcode, hentry⟩
  obtain ⟨hi, htag⟩ := List.getElem?_eq_some_iff.mp hentry.tag
  obtain rfl : i = 3 := by
    have hall : ∀ (j : Nat) (h : j < slenderPlan.tags.length),
        slenderPlan.tags[j] = slenderPlan.placesTag → j = 3 := by decide
    exact hall i hi htag
  have hread := hentry.code.natAt_eq
  have hfour : slenderPlan.order.natAt slenderFront (slenderPlan.entry 3 + 2) 2 = 4 := by
    decide +kernel
  have hlength : (slenderPlan.places slenderPicture).length = 2 := by decide
  have hwidth : width = 4 := by omega
  have hplace := (hentry.apart (by rw [hlength]; omega)).natAt_eq
  have hbegins : slenderPlan.order.natAt slenderFront (slenderPlan.entry 3 + 8) 4 = 88 := by
    decide +kernel
  have hinside := hentry.inside hheads
  rw [hlength] at hinside
  have hsize : slenderFront.size = 95 := by decide +kernel
  omega

/-- Without the last byte the text for missing data is lost, and the sample that it hides is shown;
with more bytes behind the file the raster stays as it is.  A table of two places that has lost its
last byte is lost altogether, and the raster has the first letter of the file at both pixels. -/
theorem readTile_whole_or_fault_shortened :
    let path : FilePath := .ofLocation ["tile.tif"]
    let host (data : ByteArray) : Host := ⟨soleFile "tile.tif" data, ⟨[], []⟩, ∅⟩
    crowdedPicture.WrittenIn crowdedPlan (shortenedFile ++ ⟨#[0]⟩) ∧
      (∃ r, readTile path 0 (host shortenedFile) = .ok r (host shortenedFile) ∧
        r.at? 0 1 = some (.ofInt 16777217)) ∧
      (∃ r, readTile path 0 (host crowdedFile) = .ok r (host crowdedFile) ∧
        readTile path 0 (host (crowdedFile ++ ⟨#[1, 2, 3]⟩)) =
          .ok r (host (crowdedFile ++ ⟨#[1, 2, 3]⟩))) ∧
      slenderPicture.WrittenIn slenderPlan (slenderFront ++ ⟨#[0]⟩) ∧
      ∃ r, readTile path 0 (host slenderFront) = .ok r (host slenderFront) ∧
        r.at? 0 0 = some (.ofInt 'I'.toNat) ∧ r.at? 1 0 = some (.ofInt 'I'.toNat) := by
  intro path host
  have hfile : ∀ data, (host data).disk.read path = .ok data := fun _ => rfl
  have hside : ∀ data, (host data).disk.read (sideFile path) = _ := side_soleFile
  have hnotes : ∀ data notes, (host data).disk.read (sideFile path) ≠ .ok notes :=
    fun data _ => hside data ▸ nofun
  have hwritten : crowdedPicture.WrittenIn crowdedPlan (shortenedFile ++ ⟨#[0]⟩) :=
    shortened_append.symm ▸ crowded_writtenIn
  refine ⟨hwritten, ?_, ?_, slender_writtenIn, ?_⟩
  · obtain ⟨-, -, hcut, -⟩ := readTile_whole_or_fault path (host shortenedFile)
    obtain ⟨hiff, hshown⟩ := hcut crowdedPicture crowdedPlan shortenedFile ⟨#[0]⟩
      (hfile shortenedFile) hwritten rfl
      fun _ => ⟨4, 4, 3, 54, by decide, by decide +kernel⟩
    obtain ⟨r, hread⟩ := hiff.mpr
      ⟨shortened_heads, ⟨4, 4, 6, 90, by decide, by decide +kernel⟩, by decide +kernel⟩
    have hplain := (hshown r hread (hnotes _)).2 fun text htext =>
      shortened_silent text (by cases htext; rfl)
    exact ⟨r, hread, hplain.value 0 (by decide) 1 (by decide)⟩
  · obtain ⟨-, hstable, -⟩ := readTile_whole_or_fault path (host crowdedFile)
    obtain ⟨r, hread, -⟩ := crowded_writtenIn.exists_read none Nat.one_pos
    have htile : readTile path 0 (host crowdedFile) = .ok r (host crowdedFile) := by
      apply (readTile_eq_ok_iff (hfile crowdedFile)).mpr
      rwa [side_eq_none (hnotes crowdedFile)]
    have hdirectory := crowded_writtenIn.heads.readDirectory_eq
    refine ⟨r, htile, hstable 0 crowdedFile ⟨#[1, 2, 3]⟩ _ r _ (hfile _) hdirectory
      crowded_contained (hfile _) ((hside _).trans (hside _).symm) htile⟩
  · obtain ⟨-, -, -, hlost⟩ := readTile_whole_or_fault path (host slenderFront)
    obtain ⟨hiff, hyields⟩ := hlost slenderPicture slenderPlan slenderFront ⟨#[0]⟩ 4 4 3 88
      (hfile _) slender_writtenIn rfl (by decide +kernel) (by decide) (by decide +kernel)
      slender_lost
    obtain ⟨r, hread⟩ := hiff.mpr ⟨⟨3, 2, 5, 78, by decide, by decide +kernel⟩, by decide +kernel⟩
    have hletters := (hyields r hread (hnotes _)).1 nofun
    refine ⟨r, hread, ?_, ?_⟩
    · rw [hletters.value 0 (by decide) 0 (by decide)]
      decide +kernel
    · rw [hletters.value 1 (by decide) 0 (by decide)]
      decide +kernel

end PointElevation.Tiff
