import PointElevation.Proofs.Tiff.OnlyStrip

/-!
# A raster does not change with what stands behind the file

If everything that is looked up lies in the file (`Directory.Contained`), a raster that is read is
read from every longer file (`read_append`): the directory, the outline and the blocks are the same,
and a sample stands in a block, which lies in the file as far as it is asked for
(`Layout.place_add_bits_le`, `Image.inside_of_stored`).
-/

namespace PointElevation.Raster

open PointElevation.Number (Single)

/-- Rasters with the same values are the same. -/
theorem ofFn_congr {rows columns : Nat} {value value' : Nat → Nat → Single}
    (h : ∀ row < rows, ∀ column < columns, value row column = value' row column) :
    ofFn rows columns value = ofFn rows columns value' := by
  unfold ofFn
  congr 1
  apply congrArg
  funext i
  have hcolumns : 0 < columns := Nat.pos_of_mul_pos_left (Nat.zero_lt_of_lt i.isLt)
  exact h _ (Nat.div_lt_of_lt_mul (Nat.mul_comm rows columns ▸ i.isLt)) _ (Nat.mod_lt _ hcolumns)

end PointElevation.Raster

namespace PointElevation.Tiff

variable {d : Directory} {data more : ByteArray} {l : Layout} {t : Tables} {image image' : Image}
  {first count band row column : Nat} {found blocks : Array Block}

/-! ## Samples -/

namespace Layout

/-- The rows that are asked for are enough for every pixel of the raster. -/
theorem mod_lt_askedRows (hrow : row < l.rows) (hblock : 0 < l.blockRows) :
    row % l.blockRows < l.askedRows (row / l.blockRows) := by
  have hmod := Nat.mod_lt row hblock
  have hdiv := Nat.div_add_mod' row l.blockRows
  unfold askedRows
  dsimp only
  split
  · rename_i hreached
    have hleft : (row / l.blockRows + 1) * l.blockRows % l.rows ≤
        (row / l.blockRows + 1) * l.blockRows - l.rows := by
      rw [Nat.mod_eq_sub_mod hreached.le]
      exact Nat.mod_le _ _
    rw [Nat.succ_mul] at hreached hleft ⊢
    omega
  · exact hmod

/-- The samples of a row stand in it. -/
theorem bits_le_rowSize (column : Nat) (hband : band < l.bands) (hblock : 0 < l.blockColumns) :
    (column % l.blockColumns * l.pixelSamples + l.sampleOfBand band) * l.sample.bits
      + l.sample.bits ≤ 8 * l.rowSize := by
  have hslot : l.sampleOfBand band < l.pixelSamples := by
    unfold sampleOfBand pixelSamples
    split
    · exact hband
    · exact Nat.one_pos
  have hsamples : column % l.blockColumns * l.pixelSamples + l.sampleOfBand band + 1 ≤
      l.blockColumns * l.pixelSamples := by
    calc column % l.blockColumns * l.pixelSamples + l.sampleOfBand band + 1
        ≤ (column % l.blockColumns + 1) * l.pixelSamples := by rw [Nat.succ_mul]; omega
      _ ≤ l.blockColumns * l.pixelSamples := Nat.mul_le_mul_right _ (Nat.mod_lt column hblock)
  have hbits := Nat.mul_le_mul_right l.sample.bits hsamples
  rw [Nat.succ_mul] at hbits
  rw [rowSize]
  omega

/-- A sample stands in what is asked for of its block. -/
theorem place_add_bits_le (hrow : row < l.rows) (hcolumn : column < l.columns)
    (hband : band < l.bands) (hblock : l.blockOf row column < l.blocksPerPlane) :
    l.placeInBlock band row column + l.sample.bits ≤ 8 * l.askedSize (l.blockOf row column) := by
  have hplane : 0 < l.blocksAcross * l.blocksDown := Nat.zero_lt_of_lt hblock
  have hrows : 0 < l.blockRows := by
    apply Nat.pos_of_ne_zero
    intro hzero
    rw [blocksDown, hzero, Nat.div_zero, Nat.mul_zero] at hplane
    exact absurd hplane (lt_irrefl 0)
  have hcolumns : 0 < l.blockColumns := by
    apply Nat.pos_of_ne_zero
    intro hzero
    rw [blocksAcross, hzero, Nat.div_zero, Nat.zero_mul] at hplane
    exact absurd hplane (lt_irrefl 0)
  have hacross : column / l.blockColumns < l.blocksAcross := div_lt_ceil hcolumns hcolumn
  have hdiv : l.blockOf row column / l.blocksAcross = row / l.blockRows :=
    Nat.div_eq_of_lt_le (Nat.le_add_right _ _) (by rw [Nat.succ_mul, blockOf]; omega)
  have hbits := bits_le_rowSize column hband hcolumns
  have hasked := Nat.mul_le_mul_right l.rowSize (mod_lt_askedRows hrow hrows)
  rw [Nat.succ_mul] at hasked
  rw [askedSize, hdiv, placeInBlock]
  omega

end Layout

theorem SampleType.bitsOf_append {type : SampleType} (order : ByteOrder) {place : Nat}
    (h : place + type.bits ≤ 8 * data.size) (more : ByteArray) :
    type.bitsOf order (data ++ more) place = type.bitsOf order data place := by
  unfold bitsOf
  split
  · rename_i htriple
    have hbits : type.bits = 24 := by rw [htriple]
    exact natAt_append _ (by omega)
  split
  · have hnumber : type.numberBits ≤ type.bits := by
      unfold numberBits
      split <;> omega
    exact natAt_append _ (by omega)
  · exact bitsAt_append h

namespace Image

/-- Blocks that are stored lie in the file, as far as they are asked for. -/
theorem inside_of_stored (h : image.findBlocks data first count t found = .ok blocks)
    (hfound : ∀ (k place : Nat), found[k]? = some (.stored place) →
      place + image.layout.askedSize k ≤ data.size) :
    ∀ (k place : Nat), blocks[k]? = some (.stored place) →
      place + image.layout.askedSize k ≤ data.size := by
  induction count generalizing t found with
  | zero =>
      cases h
      exact hfound
  | succ count ih =>
      unfold findBlocks at h
      dsimp only at h
      split at h
      · rename_i b hb
        apply ih h
        intro k place hk
        rw [Array.getElem?_push] at hk
        split at hk
        · rename_i hlast
          cases hk
          rcases blockOf_eq_ok hb with ⟨hmissing, -⟩ | ⟨hstored, hends⟩
          · cases hmissing
          · cases hstored
            exact hlast ▸ hends
        · exact hfound k place hk
      · cases h

/-- A sample is the same in a longer file. -/
theorem sampleAt_append (hlayout : image'.layout = image.layout)
    (hdirectory : image'.directory = image.directory) (noData : NoData)
    (hinside : ∀ (k place : Nat), blocks[k]? = some (.stored place) →
      place + image.layout.askedSize k ≤ data.size)
    (hsize : blocks.size = image.layout.blocksPerPlane) (hband : band < image.layout.bands)
    (hrow : row < image.layout.rows) (hcolumn : column < image.layout.columns) (more : ByteArray) :
    image'.sampleAt (data ++ more) noData blocks band row column =
      image.sampleAt data noData blocks band row column := by
  unfold sampleAt
  dsimp only
  rw [hlayout, hdirectory]
  refine congrArg noData.apply ?_
  split
  · rfl
  · rename_i place hplace
    rw [Array.getD_eq_getD_getElem?] at hplace
    cases hfound : blocks[image.layout.blockOf row column]? with
    | none =>
        rw [hfound] at hplace
        cases hplace
    | some b =>
        rw [hfound] at hplace
        obtain rfl : b = .stored place := hplace
        obtain ⟨hlt, -⟩ := Array.getElem?_eq_some_iff.mp hfound
        have hends := hinside _ _ hfound
        have hplaced := Layout.place_add_bits_le hrow hcolumn hband (hsize ▸ hlt)
        rw [SampleType.bitsOf_append _ (by omega)]

end Image

/-! ## The blocks of a band -/

namespace Directory.Outlines

variable {side : Option String} (h : d.Outlines data l t)

include h

/-- The values of the tables lie in the file if those of all fields do. -/
theorem lieIn (hlies : d.LiesIn data) : t.LieIn data := by
  obtain ⟨places, hplaces, htables⟩ := h.tables
  unfold Directory.tables at htables
  split at htables
  · rename_i sizes hsizes
    cases htables
    intro name
    cases name
    · exact hlies places (mem_of_placesField_eq_ok hplaces)
    · exact hlies sizes (List.mem_of_mem_filter (List.mem_of_getLast? hsizes))
  · split at htables
    · cases htables
    · split at htables
      · cases htables
      · cases htables
        trivial

/-- Blocks that are found are found in a longer file. -/
theorem bandBlocks_append (hlies : d.LiesIn data) (hfull : t.Full) (more : ByteArray) {band : Nat}
    (hband : band < l.bands)
    (hblocks : (Image.arranged d data l t).bandBlocks data band = .ok blocks) :
    (Image.arranged d (data ++ more) l t).layout = (Image.arranged d data l t).layout ∧
      (Image.arranged d (data ++ more) l t).bandBlocks (data ++ more) band = .ok blocks := by
  have hlie := h.lieIn hlies
  cases hsingle : l.isSingleStrip with
  | false =>
      -- the length of the file matters for a single strip only
      have hcut : ∀ fileSize, l.cut (d.stripRows data) fileSize t = (l, t) := by
        intro fileSize
        rcases l.cut_cases (d.stripRows data) fileSize t with hcut | ⟨_, _, _, hstrip, _⟩
        · exact hcut
        · rw [hsingle] at hstrip
          cases hstrip
      have harranged : (Image.arranged d data l t).layout = l ∧
          (Image.arranged d data l t).tables = t := by
        simp only [Image.arranged, hsingle, Bool.false_eq_true, if_false, hcut, and_self]
      have harranged' : (Image.arranged d (data ++ more) l t).layout = l ∧
          (Image.arranged d (data ++ more) l t).tables = t := by
        simp only [Image.arranged, hsingle, Bool.false_eq_true, if_false, hcut, and_self,
          hlies.stripRows_append more]
      have hlayout := harranged'.1.trans harranged.1.symm
      refine ⟨hlayout, ?_⟩
      rw [Image.bandBlocks, harranged.1, harranged.2] at hblocks
      rw [Image.bandBlocks, harranged'.1, harranged'.2]
      have hdirectory : (Image.arranged d (data ++ more) l t).directory =
          (Image.arranged d data l t).directory := rfl
      exact Image.findBlocks_append hdirectory hlayout hfull hlie more hblocks
  | true =>
      have hl : l.OneStrip := ⟨h.sound, hsingle⟩
      obtain ⟨p, s, p', s', hsettled, hsettled', hgrown⟩ :=
        Tables.exists_settled_append hfull hlie d more l.fullSize
      have hcut : ((Image.arranged d data l t).layout, (Image.arranged d data l t).tables) =
          l.cut (d.stripRows data) data.size (.whole p s) := by
        simp only [Image.arranged, hsingle, if_true, hsettled]
      have hcut' : ((Image.arranged d (data ++ more) l t).layout,
          (Image.arranged d (data ++ more) l t).tables) =
            l.cut (d.stripRows data) (data ++ more).size (.whole p' s') := by
        simp only [Image.arranged, hsingle, if_true, hsettled', hlies.stripRows_append more]
      -- a strip behind the end of the file would not have been found
      rcases hgrown with hgrown | ⟨hbehind, hpos⟩
      · exact Image.bandBlocks_append_of_cut hl hband hcut hcut' hgrown hblocks
      · exact absurd hblocks (Image.bandBlocks_ne_ok hl hband hcut hbehind hpos)

/-- A raster is the same in a longer file. -/
theorem shown_append (side : Option String) (hdirectory : readDirectory data = .ok d)
    (hlies : d.LiesIn data) (hfull : t.Full) (more : ByteArray) (hband : band < l.bands)
    (hblocks : (Image.arranged d data l t).bandBlocks data band = .ok blocks) :
    (Image.arranged d (data ++ more) l t).shown (data ++ more) side blocks band =
      (Image.arranged d data l t).shown data side blocks band := by
  obtain ⟨hlayout, -⟩ := h.bandBlocks_append hlies hfull more hband hblocks
  have hreversed : (Image.arranged d (data ++ more) l t).bitsReversed =
      (Image.arranged d data l t).bitsReversed := hlies.bitsReversed_append more
  have hdeclared : (Image.arranged d (data ++ more) l t).declared =
      (Image.arranged d data l t).declared := hlies.text?_append more hdirectory noDataTag
  have hnoData : ∀ note, (Image.arranged d (data ++ more) l t).noData note =
      (Image.arranged d data l t).noData note := by
    intro note
    simp only [Image.noData, hlayout, hdeclared]
  have hbands : band < (Image.arranged d data l t).layout.bands := by rwa [Image.bands_arranged]
  have hinside := Image.inside_of_stored hblocks fun k place hnone => by simp at hnone
  have hsize := Image.size_bandBlocks hblocks
  unfold Image.shown Image.raster
  rw [hlayout, hreversed, hnoData]
  apply Raster.ofFn_congr
  intro row hrow column hcolumn
  split
  · rw [reverseBitOrder_append]
    rw [← size_reverseBitOrder data] at hinside
    exact Image.sampleAt_append hlayout rfl _ hinside hsize hbands hrow
      hcolumn _
  · exact Image.sampleAt_append hlayout rfl _ hinside hsize hbands hrow hcolumn more

end Directory.Outlines

/-! ## Reading -/

/-- All that is looked up lies in the file: the values of all fields do, and the tables of blocks
are read whole or have a number for each block. -/
structure Directory.Contained (d : Directory) (data : ByteArray) : Prop where
  lies : d.LiesIn data
  full : ∀ l t, d.Outlines data l t → t.Full

/-- What is read from a file in which all is contained is read from every longer one. -/
theorem read_append {side : Option String} {band : Int} {r : Raster}
    (hdirectory : readDirectory data = .ok d) (h : d.Contained data)
    (hread : read data side band = .ok r) (more : ByteArray) :
    read (data ++ more) side band = .ok r := by
  obtain ⟨d', l, t, hsame, houtline, k, rfl, hk, blocks, hblocks, rfl⟩ := read_eq_ok_iff.mp hread
  obtain rfl : d = d' := Except.ok.inj (hdirectory.symm.trans hsame)
  have hfull := h.full l t houtline
  obtain ⟨-, hblocks'⟩ := houtline.bandBlocks_append h.lies hfull more hk hblocks
  have hshown := houtline.shown_append side hdirectory h.lies hfull more hk hblocks
  exact read_eq_ok_iff.mpr ⟨d, l, t, readDirectory_append more hdirectory,
    houtline.append h.lies more, k, rfl, hk, blocks, hblocks', hshown.symm⟩

/-- The tables of a written picture have a number for each block. -/
theorem Picture.WrittenIn.full {p : Picture} {plan : Plan} (h : p.WrittenIn plan data)
    (houtline : (plan.directory data).Outlines data l t) : t.Full := by
  obtain ⟨places, hplaces⟩ := h.places.tells h.heads
  obtain ⟨sizes, hsizes⟩ := h.sizes.tells h.heads
  have hl : plan.Locates data places sizes := ⟨hplaces.mem, hplaces.tag, hsizes.mem, hsizes.tag⟩
  obtain ⟨field, hfield, htables⟩ := houtline.tables
  obtain rfl : places = field := Except.ok.inj ((h.placesField_eq hl).symm.trans hfield)
  rw [h.tables_eq hl] at htables
  cases htables
  have hbands : p.bands = l.bands := Except.ok.inj (h.bands_eq.symm.trans houtline.bands)
  obtain ⟨hrows, hcolumns⟩ :=
    Prod.mk.inj (Except.ok.inj (h.rasterShape_eq.symm.trans houtline.raster))
  have hblock := houtline.block
  rw [← hrows, ← hcolumns, h.blockShape_eq] at hblock
  obtain ⟨hblockRows, hblockColumns⟩ := Prod.mk.inj (Except.ok.inj hblock)
  have hinterleaved : plan.interleaved = l.interleaved :=
    h.isInterleaved_eq.symm.trans houtline.interleaved
  have hcount : l.blockCount = plan.blockCount p := by
    rw [← h.blockCount_eq]
    simp only [Layout.blockCount, Layout.blocksPerPlane, Layout.blocksAcross, Layout.blocksDown,
      ← hrows, ← hcolumns, ← hbands, ← hblockRows, ← hblockColumns, ← hinterleaved]
    rfl
  have hplaceCount : places.count = l.blockCount := by rw [hplaces.count, hcount, Plan.places]; simp
  have hsizeCount : sizes.count = l.blockCount := by rw [hsizes.count, hcount, Plan.sizes]; simp
  rcases Nat.lt_or_ge shortTable l.blockCount with hlong | hshort
  · refine .inr fun name => ?_
    cases name
    · exact ⟨hplaceCount ▸ hlong, hplaceCount.ge⟩
    · exact ⟨hsizeCount ▸ hlong, hsizeCount.ge⟩
  · refine .inl fun name => ?_
    cases name
    · exact hplaceCount ▸ hshort
    · exact hsizeCount ▸ hshort

end PointElevation.Tiff
