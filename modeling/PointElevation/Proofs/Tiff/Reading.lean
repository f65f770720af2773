import PointElevation.Proofs.Tiff.Pieces
import PointElevation.TileFile

/-!
# Reading a written picture

A reader of a file that announces a picture gets the picture: for a band that it has, a raster with
its rows and columns in which each sample stands where it does in the picture, in single precision,
unless it is hidden (`Picture.Announced.exists_read`).  The blocks of the band have to lie in the
file, and a reader that gets a raster has found all of them
(`Picture.Announced.holdsBand_of_read`).  The operation that asks the disk for the file adds
nothing to this (`readTile_eq`).
-/

namespace PointElevation.Tiff

open PointElevation.Number (Single)
open PointElevation.Text (decodeUtf8)

variable {p : Picture} {plan : Plan} {data : ByteArray}

/-! ## The tables after the only strip has been looked at -/

section Settled

variable {d : Directory} {t : Tables} {place size : Nat → Nat} {needed : Nat}

/-- Whatever is found about the only strip, its tables are in memory and answer as before. -/
theorem Tables.Answers.settled (h : t.Answers d data 1 place size) (hneeded : size 0 = needed) :
    ∃ ps ss, t.settled d data needed = .whole ps ss ∧
      (Tables.whole ps ss).Answers d data 1 place size := by
  obtain ⟨hfirst, hkept⟩ := h.entry_eq .sizes Nat.one_pos
  obtain ⟨hsecond, hkept'⟩ := hkept.entry_eq .places Nat.one_pos
  have honly : ∀ n, n = size 0 →
      (Tables.whole (some #[place 0]) (some #[n])).Answers d data 1 place size := by
    rintro n rfl
    refine ⟨_, _, rfl, rfl, fun k hk => ?_⟩
    rw [Nat.lt_one_iff.mp hk]
    exact ⟨rfl, rfl⟩
  unfold Tables.settled
  dsimp only
  rw [hfirst, hsecond]
  split
  · exact ⟨_, _, rfl, honly needed hneeded.symm⟩
  · split
    · exact ⟨_, _, rfl, honly _ rfl⟩
    · rename_i ps ss htables
      exact ⟨ps, ss, rfl, htables ▸ hkept'⟩

end Settled

/-! ## The image of a picture -/

theorem Layout.cut_cases (l : Layout) (stripRows fileSize : Nat) (t : Tables) :
    l.cut stripRows fileSize t = (l, t) ∨
      ∃ ps ss, t = .whole ps ss ∧ l.isSingleStrip = true ∧ l.interleaved = true ∧
        l.cut stripRows fileSize t =
          (l.pieces, l.pieceTables (Tables.numberIn ps 0) (Tables.numberIn ss 0)) := by
  cases t with
  | onDemand places sizes blocks => exact .inl rfl
  | whole ps ss =>
      rw [Layout.cut]
      split
      · rename_i hcut
        simp only [Layout.isCut, Bool.and_eq_true] at hcut
        exact .inr ⟨ps, ss, rfl, hcut.1.1.1, hcut.1.1.2, rfl⟩
      · exact .inl rfl

/-- Cutting leaves the layout as it is, or gives that of the pieces. -/
theorem Layout.fst_cut (l : Layout) (stripRows fileSize : Nat) (t : Tables) :
    (l.cut stripRows fileSize t).1 = l ∨ (l.cut stripRows fileSize t).1 = l.pieces := by
  rcases l.cut_cases stripRows fileSize t with hcut | ⟨_, _, _, _, _, hcut⟩
  · exact .inl (congrArg Prod.fst hcut)
  · exact .inr (congrArg Prod.fst hcut)

theorem Plan.layout_image (plan : Plan) (p : Picture) (data : ByteArray) (places sizes : Field) :
    (plan.image p data places sizes).layout = plan.layout p ∨
      (plan.image p data places sizes).layout = (plan.layout p).pieces :=
  (plan.layout p).fst_cut _ _ _

namespace Picture.Announced

variable (h : p.Announced plan data)

include h

/-- The only strip has the size of a full block. -/
theorem fullSize_eq (hsingle : (plan.layout p).isSingleStrip = true) :
    plan.sizeAt p 0 = (plan.layout p).fullSize ∧
      (plan.layout p).fullSize = p.rows * (plan.layout p).rowSize := by
  obtain ⟨hunfilled, -, hacross, hdown⟩ := Layout.blocks_of_isSingleStrip hsingle
  obtain ⟨hrows, hsize⟩ := h.sizeOf_only hunfilled hdown
  have hfull : (plan.layout p).fullSize = p.rows * (plan.layout p).rowSize := by
    rw [Layout.fullSize, hrows]
  have hfirst : 0 < (plan.layout p).blocksPerPlane := by
    rw [Layout.blocksPerPlane, hacross, hdown]
    exact Nat.one_pos
  refine ⟨?_, hfull⟩
  rw [hfull, ← hsize, h.sizeOf_eq hfirst, Plan.sizeAt, Nat.zero_mod]

variable {places sizes : Field}
  (hplaces : (plan.directory data).Tells data plan.placesTag (plan.places p) places)
  (hsizes : (plan.directory data).Tells data plan.sizesTag (plan.sizes p) sizes)

include hplaces hsizes

/-- The tables answer with the places and sizes of the plan. -/
theorem tables_answer : (plan.tables p data places sizes).Answers (plan.directory data) data
    (plan.blockCount p) plan.place (plan.sizeAt p) := by
  have hdemanded : (Tables.onDemand places sizes (plan.layout p).blockCount).Answers
      (plan.directory data) data (plan.blockCount p) plan.place (plan.sizeAt p) :=
    ⟨h.blockCount_eq, ⟨_, hplaces⟩, _, hsizes⟩
  unfold Plan.tables
  dsimp only
  split
  · rename_i hsingle
    have hcount : plan.blockCount p = 1 := by
      rw [← h.blockCount_eq]
      exact (Layout.blocks_of_isSingleStrip hsingle).2.1
    rw [hcount] at hdemanded ⊢
    obtain ⟨ps, ss, hsettled, hanswers⟩ := hdemanded.settled (h.fullSize_eq hsingle).1
    rwa [hsettled]
  · exact hdemanded

theorem image_leads : ∃ n place size, (plan.image p data places sizes).Leads p plan data n place
    size := by
  have hanswers := h.tables_answer hplaces hsizes
  rcases Layout.cut_cases (plan.layout p) ((plan.directory data).stripRows data) data.size
    (plan.tables p data places sizes) with hcut | ⟨ps, ss, hwhole, hsingle, hinterleaved, hcut⟩
  · refine ⟨_, _, _, h.leads ?_ ?_⟩
    · simp only [Plan.image, hcut]
    · simp only [Plan.image, hcut]
      exact hanswers.numbers
  · refine ⟨_, _, _, h.leads_pieces ?_ hsingle hinterleaved ?_⟩
    · simp only [Plan.image, hcut]
    · obtain ⟨hsize, hfull⟩ := h.fullSize_eq hsingle
      have hcount : 0 < plan.blockCount p := by
        rw [← h.blockCount_eq, (Layout.blocks_of_isSingleStrip hsingle).2.1]
        exact Nat.one_pos
      rw [hwhole] at hanswers
      obtain ⟨ps', ss', rfl, rfl, hall⟩ := hanswers
      obtain ⟨hplace, hsize'⟩ := hall 0 hcount
      simp only [Plan.image, hcut, Tables.numberIn, Option.getD_some, hplace, hsize', hsize, hfull]

end Picture.Announced

/-! ## Samples -/

section Samples

variable {t : SampleType}

theorem numberBits_plain (ht : t.IsPlain) : t.numberBits = t.bits := by
  apply if_neg
  rcases ht with ⟨hkind | hkind, -⟩ | ⟨hkind, -⟩ <;> rw [hkind] <;> decide

/-- Samples of whole bytes are read as numbers of so many bytes. -/
theorem bitsOf_plain (ht : t.IsPlain) (order : ByteOrder) (data : ByteArray) (place : Nat) :
    t.bitsOf order data (8 * place) = order.natAt data place (t.bits / 8) := by
  have hbits : t.bits % 8 = 0 ∧ t.bits ≠ 24 := by
    have hwidths := ht.bits_eq
    omega
  have htriple : t ≠ ⟨.unsigned, 24⟩ := fun htype => hbits.2 (by rw [htype])
  rw [SampleType.bitsOf, if_neg htriple, if_pos hbits.1, numberBits_plain ht,
    Nat.mul_div_cancel_left place (by decide)]

theorem twosComplement_pattern {bits : Nat} {n : Int} (hbits : 0 < bits)
    (hlow : -2 ^ (bits - 1) ≤ n) (hhigh : n < 2 ^ (bits - 1)) :
    twosComplement bits (n % 2 ^ bits).toNat = n := by
  obtain ⟨fewer, rfl⟩ := Nat.exists_eq_add_of_le' hbits
  rw [Nat.add_sub_cancel] at hlow hhigh
  have hdouble : (2 : Int) ^ (fewer + 1) = 2 * 2 ^ fewer := by rw [Int.pow_succ, Int.mul_comm]
  have hcast : ((2 ^ fewer : Nat) : Int) = 2 ^ fewer := by push_cast; rfl
  simp only [twosComplement, Nat.add_sub_cancel, Nat.pow_eq]
  show (if _ then _ else ((_ : Nat) : Int) - 2 ^ (fewer + 1)) = n
  -- a negative number is written in the upper half
  by_cases hnegative : n < 0
  · have hmod : n % 2 ^ (fewer + 1) = n + 2 ^ (fewer + 1) := by
      rw [← Int.add_emod_right, Int.emod_eq_of_lt (by omega) (by omega)]
    rw [hmod, if_neg (by omega)]
    omega
  · have hmod : n % 2 ^ (fewer + 1) = n := Int.emod_eq_of_lt (by omega) (by omega)
    rw [hmod, if_pos (by omega)]
    omega

/-- The bits that are written for a number are read as the number. -/
theorem toSingle_pattern (ht : t.IsPlain) {s : Stored} (h : s.Fits t) :
    t.toSingle (s.pattern t.bits) = s.toSingle := by
  have hnumber := numberBits_plain ht
  cases s with
  | whole n =>
      rcases h with ⟨hkind, hlow, hhigh⟩ | ⟨hkind, hlow, hhigh⟩
      · have hmod : n % 2 ^ t.bits = n := Int.emod_eq_of_lt hlow hhigh
        simp only [SampleType.toSingle, hkind, Stored.pattern, Stored.toSingle, hmod,
          Int.toNat_of_nonneg hlow]
      · have hbits : 0 < t.bits := by
          have hwidths := ht.bits_eq
          omega
        simp only [SampleType.toSingle, hkind, hnumber, Stored.pattern, Stored.toSingle,
          twosComplement_pattern hbits hlow hhigh]
  | single s =>
      have htype : t = ⟨.floating, 32⟩ := h
      rw [htype]
      show (⟨UInt32.ofNat s.bits.toNat⟩ : Single) = s
      rw [UInt32.ofNat_toNat]
  | double bits =>
      have htype : t = ⟨.floating, 64⟩ := h
      rw [htype]
      rfl

end Samples

/-! ## Reading -/

/-- A raster shows a band of a picture: it has the rows and columns of the picture, and at each
pixel the sample in single precision, or what stands for missing data in its place. -/
structure Picture.Shown (p : Picture) (noData : NoData) (band : Nat) (r : Raster) : Prop where
  rows : r.rows = p.rows
  columns : r.columns = p.columns
  value : ∀ row < p.rows, ∀ column < p.columns,
    r.at? row column = some (noData.apply (p.sample row column band).toSingle)

/-- A raster shows what stands where a plan has the samples of a band: at each pixel the number that
is read there, or what stands for missing data in its place. -/
structure Plan.Yields (plan : Plan) (p : Picture) (data : ByteArray) (noData : NoData) (band : Nat)
    (r : Raster) : Prop where
  rows : r.rows = p.rows
  columns : r.columns = p.columns
  value : ∀ row < p.rows, ∀ column < p.columns,
    r.at? row column = some (noData.apply (p.type.toSingle (plan.order.natAt data
      (plan.samplePlace p band (row / plan.blockRows) (column / plan.blockColumns p)
        (row % plan.blockRows) (column % plan.blockColumns p)) (p.type.bits / 8))))

/-- The samples of a band stand where the plan has them. -/
def Picture.Stands (p : Picture) (plan : Plan) (data : ByteArray) (band : Nat) : Prop :=
  ∀ row < p.rows, ∀ column < p.columns,
    plan.order.Stands data
      (plan.samplePlace p band (row / plan.blockRows) (column / plan.blockColumns p)
        (row % plan.blockRows) (column % plan.blockColumns p))
      (p.type.bits / 8) ((p.sample row column band).pattern p.type.bits)

section Announced

variable {places sizes : Field} {side : Option String}

/-- The size of the raster, its bands and its samples are those of the picture, whether it is cut or
not. -/
theorem Plan.image_shape (plan : Plan) (p : Picture) (data : ByteArray) (places sizes : Field) :
    (plan.image p data places sizes).layout.rows = p.rows ∧
      (plan.image p data places sizes).layout.columns = p.columns ∧
      (plan.image p data places sizes).layout.bands = p.bands ∧
      (plan.image p data places sizes).layout.sample = p.type := by
  rcases plan.layout_image p data places sizes with hlayout | hlayout <;>
  · rw [hlayout]
    exact ⟨rfl, rfl, rfl, rfl⟩

variable (h : p.Announced plan data)

include h

theorem Picture.Announced.read_of_outside (hl : plan.Locates data places sizes) {band : Int}
    (hband : band < 0 ∨ p.bands ≤ band) :
    read data side band = .error (.bandOutOfRange band) := by
  have hbands := (plan.image_shape p data places sizes).2.2.1
  simp only [read, h.heads.readDirectory_eq, ok_bind, h.ofDirectory_eq hl, hbands, if_pos hband]

theorem Picture.Announced.read_eq (hl : plan.Locates data places sizes) {band : Nat}
    (hband : band < p.bands) :
    read data side band = ((plan.image p data places sizes).bandBlocks data band).map fun blocks =>
      (plan.image p data places sizes).raster data
        ((plan.image p data places sizes).noData (side.bind fun text => noDataNote? text band))
        blocks band := by
  have hbands := (plan.image_shape p data places sizes).2.2.1
  have hinside : ¬ ((band : Int) < 0 ∨ (p.bands : Int) ≤ band) := by omega
  simp only [read, h.heads.readDirectory_eq, ok_bind, h.ofDirectory_eq hl, hbands, if_neg hinside,
    Int.toNat_natCast]
  cases (plan.image p data places sizes).bandBlocks data band <;> rfl

/-- Where an image leads to the samples of a band, the blocks that are in the file give a raster
with what stands there. -/
theorem Picture.Announced.exists_read_of_leads (side : Option String)
    (hl : plan.Locates data places sizes) {n : Nat} {place size : Nat → Nat}
    (hleads : (plan.image p data places sizes).Leads p plan data n place size) {band : Nat}
    (hband : band < p.bands) (hinside : plan.HoldsBand data p band) :
    ∃ r, read data side band = .ok r ∧
      plan.Yields p data ((plan.image p data places sizes).noData
        (side.bind fun text => noDataNote? text band)) band r := by
  obtain ⟨hrows, hcolumns, -, htype⟩ := plan.image_shape p data places sizes
  obtain ⟨blocks, hblocks, hall⟩ := Image.bandBlocks_of_inside hleads.numbers
    (hleads.sizes band hband) ((hleads.inside band hband).mp hinside)
  rw [h.read_eq hl hband, hblocks]
  refine ⟨_, rfl, hrows, hcolumns, fun row hrow column hcolumn => ?_⟩
  have hplace := hleads.place band hband row hrow column hcolumn
  show (Raster.ofFn _ _ _).at? row column = _
  rw [hrows, hcolumns, Raster.at?_ofFn _ hrow hcolumn, Image.sampleAt]
  simp only [hall _ (hleads.block_lt row hrow column hcolumn), htype, hplace,
    bitsOf_plain h.proper.plain]
  rfl

/-- A reader that gets a raster has found all blocks of the band. -/
theorem Picture.Announced.holdsBand_of_leads (hl : plan.Locates data places sizes) {n : Nat}
    {place size : Nat → Nat}
    (hleads : (plan.image p data places sizes).Leads p plan data n place size) {band : Nat}
    (hband : band < p.bands) {r : Raster} (hread : read data side band = .ok r) :
    plan.HoldsBand data p band := by
  rw [h.read_eq hl hband] at hread
  cases hblocks : (plan.image p data places sizes).bandBlocks data band with
  | error defect => simp [hblocks, Except.map] at hread
  | ok blocks =>
      apply (hleads.inside band hband).mpr
      exact Image.inside_of_bandBlocks hleads.numbers (hleads.sizes band hband) hblocks

/-- Where the samples stand, what stands there are their patterns. -/
theorem Picture.Announced.shown_of_yields {noData : NoData} {band : Nat} {r : Raster}
    (hband : band < p.bands) (hstands : p.Stands plan data band)
    (hyields : plan.Yields p data noData band r) : p.Shown noData band r where
  rows := hyields.rows
  columns := hyields.columns
  value := by
    intro row hrow column hcolumn
    rw [hyields.value row hrow column hcolumn, (hstands row hrow column hcolumn).natAt_eq,
      toSingle_pattern h.proper.plain (h.proper.fits row hrow column hcolumn band hband)]

/-- If the directory tells where the blocks are, the blocks of a band that are in the file give a
raster, and its values are the samples that stand there. -/
theorem Picture.Announced.exists_read (side : Option String)
    (hplaces : (plan.directory data).Tells data plan.placesTag (plan.places p) places)
    (hsizes : (plan.directory data).Tells data plan.sizesTag (plan.sizes p) sizes) {band : Nat}
    (hband : band < p.bands) (hinside : plan.HoldsBand data p band)
    (hstands : p.Stands plan data band) :
    ∃ r, read data side band = .ok r ∧
      p.Shown ((plan.image p data places sizes).noData
        (side.bind fun text => noDataNote? text band)) band r := by
  have hl : plan.Locates data places sizes := ⟨hplaces.mem, hplaces.tag, hsizes.mem, hsizes.tag⟩
  obtain ⟨n, place, size, hleads⟩ := h.image_leads hplaces hsizes
  obtain ⟨r, hread, hyields⟩ := h.exists_read_of_leads side hl hleads hband hinside
  exact ⟨r, hread, h.shown_of_yields hband hstands hyields⟩

theorem Picture.Announced.holdsBand_of_read
    (hplaces : (plan.directory data).Tells data plan.placesTag (plan.places p) places)
    (hsizes : (plan.directory data).Tells data plan.sizesTag (plan.sizes p) sizes) {band : Nat}
    (hband : band < p.bands) {r : Raster} (hread : read data side band = .ok r) :
    plan.HoldsBand data p band := by
  have hl : plan.Locates data places sizes := ⟨hplaces.mem, hplaces.tag, hsizes.mem, hsizes.tag⟩
  obtain ⟨n, place, size, hleads⟩ := h.image_leads hplaces hsizes
  exact h.holdsBand_of_leads hl hleads hband hread

end Announced

/-! ## Written pictures -/

/-- What a note beside the file or a declaration in it does to the samples. -/
def Plan.noData (plan : Plan) (p : Picture) (note : Option (List Char)) : NoData :=
  match note, plan.declared with
  | some text, _ => .ofNote p.type text
  | none, some text => .ofText p.type text
  | none, none => .undeclared

/-- A reader does to the samples what the text that it finds says. -/
theorem Plan.noData_image {plan' : Plan} {places sizes : Field}
    (h : (plan.directory data).text? data noDataTag = plan'.declared) (note : Option (List Char)) :
    (plan.image p data places sizes).noData note = plan'.noData p note := by
  have htype := (plan.image_shape p data places sizes).2.2.2
  have hdeclared : (plan.image p data places sizes).declared = plan'.declared := h
  cases note with
  | some text => simp only [Image.noData, Plan.noData, htype]
  | none =>
      cases hsaid : plan'.declared <;>
        simp only [Image.noData, Plan.noData, htype, hdeclared, hsaid]

namespace Picture.WrittenIn

variable (h : p.WrittenIn plan data)

include h

/-- The samples of a written picture stand where the plan has them. -/
theorem stands {band : Nat} (hband : band < p.bands) : p.Stands plan data band := by
  intro row hrow column hcolumn
  -- the laying is said of each block and each row and column in it
  have hrows : row / plan.blockRows * plan.blockRows + row % plan.blockRows = row :=
    Nat.div_add_mod' _ _
  have hcolumns : column / plan.blockColumns p * plan.blockColumns p
      + column % plan.blockColumns p = column := Nat.div_add_mod' _ _
  have hplaced := h.laid.samples band hband (row / plan.blockRows)
    (Layout.div_lt_ceil h.plannedRows_pos hrow) (column / plan.blockColumns p)
    (Layout.div_lt_ceil h.blockColumns_pos hcolumn) (row % plan.blockRows)
    (Nat.mod_lt _ h.plannedRows_pos) (hrows.symm ▸ hrow) (column % plan.blockColumns p)
    (Nat.mod_lt _ h.blockColumns_pos) (hcolumns.symm ▸ hcolumn)
  rwa [hrows, hcolumns] at hplaced

theorem text?_eq : (plan.directory data).text? data noDataTag = plan.declared := by
  have hdeclared := h.declared
  split at hdeclared
  · rename_i text htext
    rw [htext]
    exact hdeclared.text?_eq h.heads
  · rename_i hnone
    rw [hnone]
    exact h.heads.text?_of_silent hdeclared

/-- A written picture is read. -/
theorem exists_read (side : Option String) {band : Nat} (hband : band < p.bands) :
    ∃ r, read data side band = .ok r ∧
      p.Shown (plan.noData p (side.bind fun text => noDataNote? text band)) band r := by
  obtain ⟨places, hplaces⟩ := h.places.tells h.heads
  obtain ⟨sizes, hsizes⟩ := h.sizes.tells h.heads
  obtain ⟨r, hread, hshown⟩ := h.toAnnounced.exists_read side hplaces hsizes hband
    (h.laid.inside band hband) (h.stands hband)
  rw [Plan.noData_image h.text?_eq] at hshown
  exact ⟨r, hread, hshown⟩

theorem read_of_outside (side : Option String) {band : Int} (hband : band < 0 ∨ p.bands ≤ band) :
    read data side band = .error (.bandOutOfRange band) := by
  obtain ⟨places, hplaces⟩ := h.places.tells h.heads
  obtain ⟨sizes, hsizes⟩ := h.sizes.tells h.heads
  exact h.toAnnounced.read_of_outside ⟨hplaces.mem, hplaces.tag, hsizes.mem, hsizes.tag⟩ hband

end Picture.WrittenIn

/-! ## Tile files -/

section TileFile

variable {path : FilePath} {host : Host}

/-- Reading a file of the disk is reading its bytes, with the notes beside it. -/
theorem readTile_eq (band : Int) (hfile : host.disk.read path = .ok data) :
    readTile path band host =
      match read data ((host.disk.read (sideFile path)).toOption.map decodeUtf8) band with
      | .ok r => .ok r host
      | .error defect => .error (Fault.decode (.unreadable path.name defect)) host := by
  cases hread : read data ((host.disk.read (sideFile path)).toOption.map decodeUtf8) band with
  | ok r =>
      have hdecode : decodeTile path band (host.disk.read path).toOption
          (host.disk.read (sideFile path)).toOption = .ok r := by
        simp only [hfile, Except.toOption, decodeTile] at hread ⊢
        rw [hread]
      simp only [readTile, bind_apply, get_apply, hdecode]
      rfl
  | error defect =>
      have hdecode : decodeTile path band (host.disk.read path).toOption
          (host.disk.read (sideFile path)).toOption =
            .error (.unreadable path.name defect) := by
        simp only [hfile, Except.toOption, decodeTile] at hread ⊢
        rw [hread]
      simp only [readTile, bind_apply, get_apply, hdecode]
      rfl

/-- Where no notes are, they say nothing. -/
theorem side_eq_none (hnotes : ∀ notes, host.disk.read (sideFile path) ≠ .ok notes) :
    (host.disk.read (sideFile path)).toOption = none := by
  cases hread : host.disk.read (sideFile path) with
  | ok notes => exact absurd hread (hnotes notes)
  | error fault => rfl

end TileFile

/-- A disk with one file and nothing else. -/
def soleFile (name : String) (data : ByteArray) : Disk := ⟨⟨[([name], .file data)]⟩, some []⟩

/-- No notes are beside the file. -/
theorem side_soleFile (data : ByteArray) :
    (soleFile "tile.tif" data).read (sideFile (.ofLocation ["tile.tif"])) =
      .error (.refused .notFound (.ofLocation ["tile.tif.aux.xml"])) := by
  have hside : sideFile (.ofLocation ["tile.tif"]) = .ofLocation ["tile.tif.aux.xml"] := by
    decide +kernel
  rw [hside]
  rfl

end PointElevation.Tiff
