import PointElevation.Proofs.Tiff.Reading

/-!
# What a file has to be for a raster

A reader that succeeds has passed every check, and `Directory.Outlines` lists them: it is all that
is known of the pixels before the only strip is looked at.  What comes then cannot fail
(`Image.ofDirectory_eq_ok_iff`), so a raster is read exactly if the directory outlines a layout
that has the band, and the blocks of the band are found (`read_eq_ok_iff`).

This holds of any bytes.  It follows that a raster has the rows and columns that a field of the
directory declares (`declares_of_read`).
-/

namespace PointElevation.Tiff

variable {d : Directory} {data : ByteArray} {f : Field} {l : Layout} {t : Tables} {tag n : Nat}

/-- What is known of the pixels before the only strip is looked at. -/
structure Directory.Outlines (d : Directory) (data : ByteArray) (l : Layout) (t : Tables) :
    Prop where
  bands : d.bands data = .ok l.bands
  compression : d.valueOr compressionTag 1 (d.shared data l.bands) = .ok 1
  shape : d.checkFields (d.checkShape data l.bands) = .ok ()
  raster : d.rasterShape data = .ok (l.rows, l.columns)
  block : d.blockShape data l.rows l.columns = .ok (l.blockRows, l.blockColumns)
  samples : d.checkFields (d.checkSamples data l.bands) = .ok ()
  type : SampleType.ofCodes? (d.sampleBits data l.bands) (d.sampleCode data l.bands) l.bands =
    some l.sample
  filled : d.isTiled = l.filled
  interleaved : d.isInterleaved data = l.interleaved
  map : d.checkColourMap data (d.sampleBits data l.bands) = .ok ()
  tables : ∃ places, d.placesField = .ok places ∧ d.tables data l places = .ok t
  colours : d.checkColours data l = .ok ()

/-- The image that a layout and tables give, once the only strip has been looked at. -/
def Image.arranged (d : Directory) (data : ByteArray) (l : Layout) (t : Tables) : Image :=
  let known := if l.isSingleStrip then t.settled d data l.fullSize else t
  let arranged := l.cut (d.stripRows data) data.size known
  { directory := d
    layout := arranged.1
    tables := arranged.2
    bitsReversed := d.bitsReversed data
    declared := d.text? data noDataTag }

/-- An image is made only where every check is passed, -/
theorem Image.exists_outlines {image : Image} (h : Image.ofDirectory data d = .ok image) :
    ∃ l t, d.Outlines data l t ∧ image = Image.arranged d data l t := by
  unfold Image.ofDirectory at h
  obtain ⟨bands, hbands, h⟩ := exists_of_bind_eq_ok h
  obtain ⟨compression, hcompression, h⟩ := exists_of_bind_eq_ok h
  obtain ⟨⟨⟩, hshape, h⟩ := exists_of_bind_eq_ok h
  obtain ⟨⟨rows, columns⟩, hraster, h⟩ := exists_of_bind_eq_ok h
  obtain ⟨⟨blockRows, blockColumns⟩, hblock, h⟩ := exists_of_bind_eq_ok h
  obtain ⟨places, hplaces, h⟩ := exists_of_bind_eq_ok h
  obtain ⟨⟨⟩, hsamples, h⟩ := exists_of_bind_eq_ok h
  obtain ⟨⟨⟩, hmap, h⟩ := exists_of_bind_eq_ok h
  obtain ⟨tables, htables, h⟩ := exists_of_bind_eq_ok h
  by_cases hplain : compression ≠ 1
  · rw [if_pos hplain] at h
    cases h
  rw [if_neg hplain] at h
  cases htype : SampleType.ofCodes? (d.sampleBits data bands) (d.sampleCode data bands) bands with
  | none =>
    rw [htype] at h
    cases h
  | some sample =>
  rw [htype] at h htables
  obtain ⟨⟨⟩, hcolours, h⟩ := exists_of_bind_eq_ok h
  cases h
  obtain rfl : compression = 1 := not_not.mp hplain
  let layout : Layout := ⟨rows, columns, bands, sample, blockRows, blockColumns, d.isTiled,
    d.isInterleaved data⟩
  have houtline : d.Outlines data layout tables :=
    { bands := hbands
      compression := hcompression
      shape := hshape
      raster := hraster
      block := hblock
      samples := hsamples
      type := htype
      filled := rfl
      interleaved := rfl
      map := hmap
      tables := ⟨places, hplaces, htables⟩
      colours := hcolours }
  exact ⟨layout, tables, houtline, rfl⟩

/-- and it is made there. -/
theorem Directory.Outlines.ofDirectory_eq (h : d.Outlines data l t) :
    Image.ofDirectory data d = .ok (Image.arranged d data l t) := by
  obtain ⟨places, hplaces, htables⟩ := h.tables
  have hlayout : (⟨l.rows, l.columns, l.bands,
      (some l.sample).getD ⟨.unsigned, d.sampleBits data l.bands⟩, l.blockRows, l.blockColumns,
      d.isTiled, d.isInterleaved data⟩ : Layout) = l := by
    rw [h.filled, h.interleaved]
    rfl
  simp only [Image.ofDirectory, h.bands, h.compression, h.shape, h.raster, h.block, hplaces,
    h.samples, h.type, h.map, hlayout, htables, h.colours, ok_bind]
  simp only [ne_eq, not_true_eq_false, if_false, Option.isNone_some, Bool.false_eq_true]
  rfl

theorem Image.ofDirectory_eq_ok_iff {image : Image} :
    Image.ofDirectory data d = .ok image ↔
      ∃ l t, d.Outlines data l t ∧ image = Image.arranged d data l t := by
  constructor
  · exact Image.exists_outlines
  · rintro ⟨l, t, houtline, rfl⟩
    exact houtline.ofDirectory_eq

/-! ## Answers that succeed -/

namespace Directory

/-- An answer that is not the one for no field is that of a field. -/
theorem exists_of_valueOr_eq_ok {default : Nat} {read : Field → Except FieldFault Nat}
    (h : d.valueOr tag default read = .ok n) :
    n = default ∨ ∃ f ∈ d.fields, f.tag = tag ∧ read f = .ok n := by
  unfold valueOr at h
  split at h
  · exact .inl (Except.ok.inj h).symm
  · rename_i f hfound
    unfold field? at hfound
    have htag := List.find?_some hfound
    exact .inr ⟨f, List.mem_of_find?_eq_some hfound, beq_iff_eq.mp htag, mapError_eq_ok_iff.mp h⟩

theorem exists_of_valueOrIgnored {default : Nat} {read : Field → Except FieldFault Nat}
    (h : d.valueOrIgnored tag default read = n) :
    n = default ∨ ∃ f ∈ d.fields, f.tag = tag ∧ read f = .ok n := by
  unfold valueOrIgnored at h
  cases hanswer : d.valueOr tag default read with
  | error defect =>
      rw [hanswer] at h
      exact .inl h.symm
  | ok m =>
      rw [hanswer] at h
      obtain rfl : m = n := h
      exact exists_of_valueOr_eq_ok hanswer

theorem number_eq_ok {bound : Nat} (h : d.number data bound f = .ok n) :
    f.count = 1 ∧ d.valueBits data f 0 = n := by
  unfold number at h
  split_ifs at h with hcount htype hreaches
  refine ⟨not_not.mp hcount, ?_⟩
  unfold numberBelow at h
  dsimp only at h
  split_ifs at h
  exact Except.ok.inj h

/-- The file declares a number in a field of its directory. -/
def Declares (d : Directory) (data : ByteArray) (tag n : Nat) : Prop :=
  ∃ f ∈ d.fields, f.tag = tag ∧ f.count = 1 ∧ d.valueBits data f 0 = n

theorem declares_extent (h : 0 < d.extent data tag 0) :
    d.Declares data tag (d.extent data tag 0) := by
  rcases exists_of_valueOrIgnored (n := d.extent data tag 0) rfl with hnone | ⟨f, hf, htag, hread⟩
  · exact absurd hnone h.ne'
  · obtain ⟨hcount, hvalue⟩ := number_eq_ok hread
    exact ⟨f, hf, htag, hcount, hvalue⟩

theorem rasterShape_eq_ok {rows columns : Nat} (h : d.rasterShape data = .ok (rows, columns)) :
    0 < rows ∧ 0 < columns ∧ d.Declares data rowsTag rows ∧ d.Declares data columnsTag columns := by
  unfold rasterShape at h
  dsimp only at h
  split_ifs at h with _ hshape
  obtain ⟨rfl, rfl⟩ := Prod.mk.inj (Except.ok.inj h)
  exact ⟨hshape.1, hshape.2.2.1, declares_extent hshape.1, declares_extent hshape.2.2.1⟩

theorem bands_pos (h : d.bands data = .ok n) : 0 < n := by
  rcases exists_of_valueOr_eq_ok h with rfl | ⟨f, -, -, hread⟩
  · exact Nat.one_pos
  · obtain ⟨m, -, hread⟩ := exists_of_bind_eq_ok hread
    by_cases hzero : m = 0
    · rw [if_pos hzero] at hread
      cases hread
    · rw [if_neg hzero] at hread
      cases hread
      exact Nat.pos_of_ne_zero hzero

theorem stripRows_pos {bands : Nat} (h : d.checkFields (d.checkShape data bands) = .ok ()) :
    0 < d.stripRows data := by
  rcases exists_of_valueOrIgnored (n := d.stripRows data) rfl with hnone | ⟨f, hf, htag, hread⟩
  · rw [hnone]
    decide
  · have hcheck := checkFields_eq_ok_iff.mp h f hf
    unfold checkShape at hcheck
    rw [if_neg (by rw [htag]; decide), if_pos htag, hread, ok_bind] at hcheck
    apply Nat.pos_of_ne_zero
    intro hzero
    rw [if_pos hzero] at hcheck
    cases hcheck

end Directory

theorem SampleType.bits_pos_of_ofCodes? {bits code bands : Nat} {t : SampleType}
    (h : SampleType.ofCodes? bits code bands = some t) : 0 < t.bits := by
  unfold ofCodes? at h
  split at h
  · rename_i hone
    cases h
    exact hone.1 ▸ Nat.one_pos
  · split at h <;> grind

/-! ## Layouts that come from a file -/

/-- There are rows and columns, bands and bits, and strips are as wide as the raster. -/
structure Layout.Sound (l : Layout) : Prop where
  rows_pos : 0 < l.rows
  columns_pos : 0 < l.columns
  bands_pos : 0 < l.bands
  bits_pos : 0 < l.sample.bits
  strips : l.filled = false → l.blockColumns = l.columns ∧ ∃ height, l.HasHeight height

namespace Directory.Outlines

theorem sound (h : d.Outlines data l t) : l.Sound where
  rows_pos := (rasterShape_eq_ok h.raster).1
  columns_pos := (rasterShape_eq_ok h.raster).2.1
  bands_pos := bands_pos h.bands
  bits_pos := SampleType.bits_pos_of_ofCodes? h.type
  strips := by
    intro hstrips
    -- the block of a file without tiles is a strip
    have hblock := h.block
    rw [blockShape, h.filled, hstrips, if_neg Bool.false_ne_true] at hblock
    obtain ⟨hrows, hcolumns⟩ := Prod.mk.inj (Except.ok.inj hblock)
    exact ⟨hcolumns.symm, d.stripRows data, hstrips, (rasterShape_eq_ok h.raster).1,
      stripRows_pos h.shape, hrows.symm⟩

end Directory.Outlines

/-- Cutting the only strip leaves the raster as it is. -/
theorem Image.layout_arranged (d : Directory) (data : ByteArray) (l : Layout) (t : Tables) :
    (Image.arranged d data l t).layout = l ∨ (Image.arranged d data l t).layout = l.pieces :=
  l.fst_cut _ _ _

theorem Image.bands_arranged (d : Directory) (data : ByteArray) (l : Layout) (t : Tables) :
    (Image.arranged d data l t).layout.bands = l.bands := by
  rcases Image.layout_arranged d data l t with hlayout | hlayout
  · rw [hlayout]
  · rw [hlayout]
    rfl

/-! ## Reading -/

/-- The raster of a band, once its blocks are found. -/
def Image.shown (image : Image) (data : ByteArray) (side : Option String) (blocks : Array Block)
    (band : Nat) : Raster :=
  image.raster (if image.bitsReversed then reverseBitOrder data else data)
    (image.noData (side.bind fun text => noDataNote? text band)) blocks band

variable {side : Option String} {r : Raster}

theorem read_eq_ok_iff {band : Int} :
    read data side band = .ok r ↔
      ∃ d l t, readDirectory data = .ok d ∧ d.Outlines data l t ∧ ∃ k : Nat, band = k ∧
        k < l.bands ∧ ∃ blocks, (Image.arranged d data l t).bandBlocks data k = .ok blocks ∧
          r = (Image.arranged d data l t).shown data side blocks k := by
  constructor
  · intro h
    unfold read at h
    obtain ⟨d, hdirectory, h⟩ := exists_of_bind_eq_ok h
    obtain ⟨image, himage, h⟩ := exists_of_bind_eq_ok h
    obtain ⟨l, t, houtline, rfl⟩ := Image.ofDirectory_eq_ok_iff.mp himage
    rw [Image.bands_arranged] at h
    by_cases hband : band < 0 ∨ l.bands ≤ band
    · rw [if_pos hband] at h
      cases h
    · rw [if_neg hband] at h
      obtain ⟨blocks, hblocks, h⟩ := exists_of_bind_eq_ok h
      cases h
      obtain ⟨k, rfl⟩ := Int.eq_ofNat_of_zero_le (not_lt.mp (not_or.mp hband).1)
      exact ⟨d, l, t, hdirectory, houtline, k, rfl, by omega, blocks, hblocks, rfl⟩
  · rintro ⟨d, l, t, hdirectory, houtline, k, rfl, hk, blocks, hblocks, rfl⟩
    have himage := houtline.ofDirectory_eq
    have hband : ¬ ((k : Int) < 0 ∨ (l.bands : Int) ≤ k) := by omega
    simp only [read, hdirectory, himage, ok_bind, Image.bands_arranged, if_neg hband,
      Int.toNat_natCast, hblocks]
    rfl

/-- What is read has the rows and columns that the file declares. -/
theorem declares_of_read {band : Int} (h : read data side band = .ok r) :
    ∃ d, readDirectory data = .ok d ∧ d.Declares data rowsTag r.rows ∧
      d.Declares data columnsTag r.columns := by
  obtain ⟨d, l, t, hdirectory, houtline, k, -, -, blocks, -, rfl⟩ := read_eq_ok_iff.mp h
  obtain ⟨-, -, hrows, hcolumns⟩ := Directory.rasterShape_eq_ok houtline.raster
  refine ⟨d, hdirectory, ?_⟩
  show d.Declares data rowsTag (Image.arranged d data l t).layout.rows ∧
    d.Declares data columnsTag (Image.arranged d data l t).layout.columns
  rcases Image.layout_arranged d data l t with hlayout | hlayout <;>
  · rw [hlayout]
    exact ⟨hrows, hcolumns⟩

end PointElevation.Tiff
