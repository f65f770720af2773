import PointElevation.Proofs.Tiff.Address

/-!
# Pieces of the only strip

A large strip that is the only one is cut into pieces, which follow each other and end where the
strip ends (`Layout.forall_piece_iff`).  A sample is as far behind the beginning of its piece as
the piece leaves it (`Layout.place_pieces`), so the image still leads to the samples
(`Picture.Announced.leads_pieces`).
-/

namespace PointElevation.Tiff

variable {p : Picture} {plan : Plan} {data : ByteArray} {l : Layout} {row column : Nat}

namespace Layout

theorem pieceRows_pos (l : Layout) : 0 < l.pieceRows := by
  rw [pieceRows]
  split
  · rename_i hsmall
    exact Nat.div_pos (max_le (by decide) hsmall) (by omega)
  · exact Nat.one_pos

theorem pieces_hasHeight (hunfilled : l.filled = false) (hrows : 0 < l.rows) :
    l.pieces.HasHeight l.pieceRows :=
  ⟨hunfilled, hrows, l.pieceRows_pos, rfl⟩

/-- A piece has the bytes that are left of the strip, up to those of a full piece. -/
theorem sizeOf_pieces (hheight : l.pieces.HasHeight l.pieceRows) (hacross : l.blocksAcross = 1)
    {k : Nat} (hk : k < l.pieces.blocksDown) :
    l.pieces.sizeOf k = min (l.pieceRows * l.rowSize)
      (l.rows * l.rowSize - k * (l.pieceRows * l.rowSize)) := by
  have hone : l.pieces.blocksAcross = 1 := hacross
  rw [sizeOf, hheight.unfilled, if_neg Bool.false_ne_true, askedSize, hone, Nat.div_one,
    hheight.askedRows_eq hk, ← Nat.mul_assoc, ← Nat.sub_mul, Nat.mul_min_mul_right]
  rfl

/-- Where the pieces of a strip are, and how large they are. -/
theorem pieceTables_eq (l : Layout) (place size : Nat) :
    ∃ ps ss, l.pieceTables place size = .whole (some ps) (some ss) ∧
      ∀ k < l.pieces.blockCount,
        ps.getD k 0 = (if size ≤ l.pieceRows * l.rowSize * k then 0
          else place + l.pieceRows * l.rowSize * k) ∧
        ss.getD k 0 = min (l.pieceRows * l.rowSize) (size - l.pieceRows * l.rowSize * k) := by
  refine ⟨_, _, rfl, fun k hk => ?_⟩
  constructor
  · simp only [Array.getD, Array.size_ofFn, hk, dif_pos, Array.getInternal_eq_getElem,
      Array.getElem_ofFn]
  · simp only [Array.getD, Array.size_ofFn, hk, dif_pos, Array.getInternal_eq_getElem,
      Array.getElem_ofFn]

/-- The tables of the pieces lead through the strip, one piece behind the other. -/
theorem pieceTables_answers (d : Directory) (data : ByteArray)
    (hheight : l.pieces.HasHeight l.pieceRows) (hacross : l.blocksAcross = 1)
    (hinterleaved : l.interleaved = true) (hrow : 0 < l.rowSize) (place : Nat) :
    (l.pieceTables place (l.rows * l.rowSize)).Answers d data l.pieces.blocksDown
      (fun k => place + k * (l.pieceRows * l.rowSize)) l.pieces.sizeOf := by
  have hcount : l.pieces.blockCount = l.pieces.blocksDown := by
    have hone : l.pieces.blocksAcross = 1 := hacross
    have hjoined : l.pieces.interleaved = true := hinterleaved
    rw [blockCount, if_pos hjoined, blocksPerPlane, hone, Nat.one_mul]
  obtain ⟨ps, ss, htables, hall⟩ := l.pieceTables_eq place (l.rows * l.rowSize)
  rw [htables]
  refine ⟨ps, ss, rfl, rfl, fun k hk => ?_⟩
  obtain ⟨hplace, hsize⟩ := hall k (hcount ▸ hk)
  have hbegins : l.pieceRows * l.rowSize * k < l.rows * l.rowSize := by
    rw [Nat.mul_comm, ← Nat.mul_assoc]
    exact Nat.mul_lt_mul_of_pos_right (hheight.mul_lt_rows hk) hrow
  rw [if_neg (not_le.mpr hbegins)] at hplace
  rw [hplace, hsize, sizeOf_pieces hheight hacross hk, Nat.mul_comm _ k]
  exact ⟨rfl, rfl⟩

/-- The last piece ends with the strip. -/
theorem forall_piece_iff (hheight : l.pieces.HasHeight l.pieceRows) (hacross : l.blocksAcross = 1)
    (place bound : Nat) :
    (∀ k < l.pieces.blocksDown,
      place + k * (l.pieceRows * l.rowSize) + l.pieces.sizeOf k ≤ bound) ↔
        place + l.rows * l.rowSize ≤ bound := by
  have hreach : l.rows * l.rowSize ≤ l.pieces.blocksDown * (l.pieceRows * l.rowSize) := by
    rw [← Nat.mul_assoc]
    exact Nat.mul_le_mul_right _ hheight.rows_le
  constructor
  · intro hall
    have hpos : 0 < l.pieces.blocksDown := by
      by_contra hnone
      have hrows := lt_of_lt_of_le hheight.rows_pos hheight.rows_le
      rw [Nat.eq_zero_of_not_pos hnone, Nat.zero_mul] at hrows
      exact absurd hrows (lt_irrefl 0)
    -- the last piece is the one that decides
    obtain ⟨k, hlast⟩ := Nat.exists_eq_add_of_le' hpos
    have hends := hall k (by omega)
    rw [sizeOf_pieces hheight hacross (by omega)] at hends
    rw [hlast, Nat.succ_mul] at hreach
    omega
  · intro hends k hk
    have hbegins : k * (l.pieceRows * l.rowSize) ≤ l.rows * l.rowSize := by
      rw [← Nat.mul_assoc]
      exact Nat.mul_le_mul_right _ (hheight.mul_lt_rows hk).le
    rw [sizeOf_pieces hheight hacross hk]
    omega

theorem sizeOf_pieces_pos (hheight : l.pieces.HasHeight l.pieceRows) (hacross : l.blocksAcross = 1)
    (hrow : 0 < l.rowSize) {k : Nat} (hk : k < l.pieces.blocksDown) : 0 < l.pieces.sizeOf k := by
  have hbegins := Nat.mul_lt_mul_of_pos_right (hheight.mul_lt_rows hk) hrow
  rw [Nat.mul_assoc] at hbegins
  rw [sizeOf_pieces hheight hacross hk]
  exact Nat.lt_min.mpr ⟨Nat.mul_pos hheight.height_pos hrow, Nat.sub_pos_of_lt hbegins⟩

/-- A sample is as far behind the beginning of its piece as the piece leaves it. -/
theorem place_pieces (hheight : l.pieces.HasHeight l.pieceRows) (hacross : l.blocksAcross = 1)
    (hrows : l.blockRows = l.rows) (hrow : row < l.rows) (hside : column / l.blockColumns = 0)
    (place band : Nat) :
    (place + l.pieces.blockOf row column * (l.pieceRows * l.rowSize)) * 8
        + l.pieces.placeInBlock band row column =
      place * 8 + l.placeInBlock band row column := by
  have hblock : l.pieces.blockOf row column * (l.pieceRows * l.rowSize) =
      row / l.pieceRows * l.pieceRows * l.rowSize := by
    have hone : l.pieces.blocksAcross = 1 := hacross
    have hcolumn : column / l.pieces.blockColumns = 0 := hside
    rw [blockOf, hheight.div_eq hrow, hone, hcolumn, Nat.mul_one, Nat.add_zero, Nat.mul_assoc]
  have hpiece : l.pieces.placeInBlock band row column = row % l.pieceRows * l.rowSize * 8
      + (column % l.blockColumns * l.pixelSamples + l.sampleOfBand band) * l.sample.bits := by
    rw [placeInBlock, hheight.mod_eq hrow]
    rfl
  have hstrip : l.placeInBlock band row column = row * l.rowSize * 8
      + (column % l.blockColumns * l.pixelSamples + l.sampleOfBand band) * l.sample.bits := by
    rw [placeInBlock, hrows, Nat.mod_eq_of_lt hrow]
  have hsplit : row * l.rowSize =
      row / l.pieceRows * l.pieceRows * l.rowSize + row % l.pieceRows * l.rowSize := by
    rw [← Nat.add_mul, Nat.div_add_mod']
  rw [hblock, hpiece, hstrip, hsplit]
  ring

theorem blocks_of_isSingleStrip (hsingle : l.isSingleStrip = true) :
    l.filled = false ∧ l.blockCount = 1 ∧ l.blocksAcross = 1 ∧ l.blocksDown = 1 := by
  simp only [isSingleStrip, Bool.and_eq_true, Bool.not_eq_true', beq_iff_eq] at hsingle
  have hplane : l.blocksPerPlane = 1 := by
    have hcount := hsingle.2
    rw [blockCount] at hcount
    split at hcount
    · exact hcount
    · exact Nat.eq_one_of_mul_eq_one_left hcount
  exact ⟨hsingle.1, hsingle.2, Nat.eq_one_of_mul_eq_one_right hplane,
    Nat.eq_one_of_mul_eq_one_left hplane⟩

end Layout

namespace Picture.Announced

variable {image : Image} (h : p.Announced plan data)

include h

/-- The only strip has all rows. -/
theorem sizeOf_only (hunfilled : (plan.layout p).filled = false)
    (hdown : (plan.layout p).blocksDown = 1) :
    (plan.layout p).blockRows = p.rows ∧
      (plan.layout p).sizeOf 0 = p.rows * (plan.layout p).rowSize := by
  cases hcutting : plan.cutting with
  | strips rows =>
      have hheight := h.hasHeight hcutting
      have hle : p.rows ≤ rows := by
        have hreach := hheight.rows_le
        rwa [hdown, Nat.one_mul] at hreach
      have hall : (plan.layout p).blockRows = p.rows := by
        rw [hheight.blockRows]
        exact min_eq_right hle
      refine ⟨hall, ?_⟩
      rw [Layout.sizeOf, hunfilled, if_neg Bool.false_ne_true, Layout.askedSize, Nat.zero_div,
        hheight.askedRows_eq (by omega), Nat.zero_mul, Nat.sub_zero]
      exact congrArg (· * _) (min_eq_right hle)
  | tiles rows columns => simp [Plan.layout, hcutting] at hunfilled

/-- Cutting the only strip moves no sample. -/
theorem leads_pieces (hlayout : image.layout = (plan.layout p).pieces)
    (hsingle : (plan.layout p).isSingleStrip = true)
    (hinterleaved : (plan.layout p).interleaved = true)
    (htables : image.tables = (plan.layout p).pieceTables (plan.place 0)
      (p.rows * (plan.layout p).rowSize)) :
    image.Leads p plan data (plan.layout p).pieces.blocksDown
      (fun k => plan.place 0 + k * ((plan.layout p).pieceRows * (plan.layout p).rowSize))
      (plan.layout p).pieces.sizeOf := by
  obtain ⟨hunfilled, -, hacross, hdown⟩ := Layout.blocks_of_isSingleStrip hsingle
  obtain ⟨hrows, hsize⟩ := h.sizeOf_only hunfilled hdown
  have hheight := Layout.pieces_hasHeight hunfilled h.proper.rows_pos
  have hpos := h.rowSize_pos
  have hfirst : ∀ band, (plan.layout p).firstBlock band = 0 := fun band =>
    if_pos hinterleaved
  have hplane : (plan.layout p).pieces.blocksPerPlane = (plan.layout p).pieces.blocksDown := by
    have hone : (plan.layout p).pieces.blocksAcross = 1 := hacross
    rw [Layout.blocksPerPlane, hone, Nat.one_mul]
  have hpieces : ∀ band, (plan.layout p).pieces.firstBlock band = 0 := fun band =>
    if_pos hinterleaved
  constructor
  case numbers =>
    rw [htables]
    exact (Layout.pieceTables_answers _ _ hheight hacross hinterleaved hpos _).numbers
  case sizes =>
    intro band _
    rw [hlayout, hpieces]
    constructor
    case le => rw [hlayout, hplane, Nat.zero_add]
    case pos =>
      rw [hlayout, hplane]
      exact fun k hk => Layout.sizeOf_pieces_pos hheight hacross hpos hk
    case eq =>
      rw [hlayout]
      exact fun k _ => congrArg _ (Nat.zero_add k)
  case inside =>
    intro band _
    -- the only block of a band is the strip, and the last of its pieces ends where it does
    rw [h.holdsBand_iff, hlayout, hpieces, hplane, Layout.blocksPerPlane, hacross, hdown, hfirst]
    simp only [Nat.zero_add, Nat.mul_one, Nat.lt_one_iff, forall_eq, hsize]
    exact (Layout.forall_piece_iff hheight hacross _ _).symm
  case block_lt =>
    intro row hrow column hcolumn
    rw [hlayout]
    exact Layout.blockOf_lt (Nat.lt_min.mpr ⟨hheight.height_pos, h.proper.rows_pos⟩)
      h.blockColumns_pos hrow hcolumn
  case place =>
    intro band _ row hrow column hcolumn
    have hside : column / (plan.layout p).blockColumns < (plan.layout p).blocksAcross :=
      Layout.div_lt_ceil h.blockColumns_pos hcolumn
    rw [hacross, Nat.lt_one_iff] at hside
    have honly : (plan.layout p).firstBlock band + (plan.layout p).blockOf row column = 0 := by
      rw [hfirst, Layout.blockOf, hrows, Nat.div_eq_of_lt hrow, hside, Nat.zero_mul]
    rw [← h.samplePlace_eq band column hrow, honly, hlayout, hpieces, Nat.zero_add]
    exact Layout.place_pieces hheight hacross hrows hrow hside _ _

end Picture.Announced

end PointElevation.Tiff
