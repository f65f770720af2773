import PointElevation.Proofs.Tiff.Finding

/-!
# The only strip in a longer file

What becomes of the only strip depends on how long the file is: a size that reaches behind its end
is not believed, and a strip is not cut into too many pieces for it.  If the strip is found,
neither makes a difference when the file becomes longer.  The strip is cut as before
(`Layout.OneStrip.isCut_eq`); its tables are the same, or declare a size that is believed only now,
and is at least the one that was taken in its place (`Tables.Grown`); and the same blocks are found
(`Image.bandBlocks_append_of_cut`).
-/

namespace PointElevation.Tiff

variable {d : Directory} {data more : ByteArray} {l : Layout} {t : Tables} {image image' : Image}
  {blocks : Array Block}

/-! ## The only strip -/

/-- Pieces are cut from a strip in which the bands of a pixel stand together. -/
theorem Layout.interleaved_of_isCut {stripRows fileSize place : Nat}
    (h : l.isCut stripRows fileSize place = true) : l.interleaved = true := by
  simp only [isCut, Bool.and_eq_true] at h
  exact h.1.1.2

theorem Layout.pieces_joined (h : l.interleaved = true) (band : Nat) :
    l.pieces.firstBlock band = 0 ∧ l.pieces.blockCount = l.pieces.blocksPerPlane :=
  ⟨if_pos h, if_pos h⟩

/-- A layout of one strip that comes from a file. -/
structure Layout.OneStrip (l : Layout) : Prop extends l.Sound where
  single : l.isSingleStrip = true

namespace Layout.OneStrip

variable (h : l.OneStrip)

include h

theorem unfilled : l.filled = false := (blocks_of_isSingleStrip h.single).1

theorem acrossOne : l.blocksAcross = 1 := (blocks_of_isSingleStrip h.single).2.2.1

theorem downOne : l.blocksDown = 1 := (blocks_of_isSingleStrip h.single).2.2.2

theorem perPlane : l.blocksPerPlane = 1 := by
  rw [blocksPerPlane, h.acrossOne, h.downOne]

theorem blockRows_eq : l.blockRows = l.rows := by
  obtain ⟨height, hheight⟩ := (h.strips h.unfilled).2
  have hreach := hheight.rows_le
  rw [h.downOne, Nat.one_mul] at hreach
  rw [hheight.blockRows]
  exact min_eq_right hreach

theorem fullSize_eq : l.fullSize = l.rows * l.rowSize := by
  rw [fullSize, h.blockRows_eq]

theorem rowSize_pos : 0 < l.rowSize := by
  have hcolumns : 0 < l.blockColumns := (h.strips h.unfilled).1 ▸ h.columns_pos
  have hsamples : 0 < l.pixelSamples := by
    unfold pixelSamples
    split
    · exact h.bands_pos
    · exact Nat.one_pos
  have hbits := Nat.mul_pos (Nat.mul_pos hcolumns hsamples) h.bits_pos
  rw [rowSize]
  omega

theorem fullSize_pos : 0 < l.fullSize := by
  rw [h.fullSize_eq]
  exact Nat.mul_pos h.rows_pos h.rowSize_pos

theorem firstBlock_eq {band : Nat} (hband : band < l.bands) : l.firstBlock band = 0 := by
  unfold firstBlock
  split
  · rfl
  · rename_i hplanes
    have hcount := (blocks_of_isSingleStrip h.single).2.1
    rw [blockCount, if_neg hplanes, h.perPlane, Nat.mul_one] at hcount
    have hfirst : band = 0 := by omega
    rw [hfirst, Nat.zero_mul]

theorem pieces_hasHeight : l.pieces.HasHeight l.pieceRows :=
  Layout.pieces_hasHeight h.unfilled h.rows_pos

/-- The last piece begins in the strip. -/
theorem mul_lt_fullSize {k : Nat} (hk : k < l.pieces.blocksDown) :
    l.pieceRows * l.rowSize * k < l.fullSize := by
  have hbegins := Nat.mul_lt_mul_of_pos_right (h.pieces_hasHeight.mul_lt_rows hk) h.rowSize_pos
  rw [h.fullSize_eq]
  calc l.pieceRows * l.rowSize * k = k * l.pieceRows * l.rowSize := by ring
    _ < l.rows * l.rowSize := hbegins

theorem pieces_pos : 0 < l.pieces.blocksDown := by
  apply Nat.pos_of_ne_zero
  intro hnone
  have hreach := lt_of_lt_of_le h.rows_pos h.pieces_hasHeight.rows_le
  rw [hnone, Nat.zero_mul] at hreach
  exact absurd hreach (lt_irrefl 0)

theorem perPlane_pieces : l.pieces.blocksPerPlane = l.pieces.blocksDown := by
  have hone : l.pieces.blocksAcross = 1 := h.acrossOne
  rw [blocksPerPlane, hone, Nat.one_mul]

end Layout.OneStrip

namespace Layout.OneStrip

variable {stripRows size size' place : Nat} (h : l.OneStrip)

include h

/-- A longer file is cut if the shorter one is, and not otherwise: a strip of so many pieces is
tall, and if it is there the file is not too small for them. -/
theorem isCut_eq (hle : size ≤ size')
    (hthere : l.isCut stripRows size place = false → l.isTall = true →
      place + l.fullSize ≤ size) :
    l.isCut stripRows size' place = l.isCut stripRows size place := by
  cases hcut : l.isCut stripRows size place with
  | true =>
      -- more bytes have room for no fewer pieces
      simp only [isCut, Bool.and_eq_true, Bool.or_eq_true, decide_eq_true_eq] at hcut ⊢
      exact ⟨hcut.1, hcut.2.imp_right fun hfits => le_trans hfits (Nat.sub_le_sub_right hle _)⟩
  | false =>
      -- only the room for the pieces can have been missing, and then there are very many of them
      have hwhole := hthere hcut
      by_contra hcut'
      simp only [isCut, Bool.and_eq_true, Bool.or_eq_true, decide_eq_true_eq,
        Bool.not_eq_false] at hcut'
      have hcount : l.pieces.blockCount = l.pieces.blocksDown := by
        rw [(pieces_joined hcut'.1.1.2 0).2, h.perPlane_pieces]
      have hmany : ¬ (l.pieces.blockCount ≤ longestFilled ∨
          l.pieceRows * l.rowSize * (l.pieces.blockCount - 1) ≤ size - place) := by
        intro hfits
        have htrue : l.isCut stripRows size place = true := by
          simp only [isCut, Bool.and_eq_true, Bool.or_eq_true, decide_eq_true_eq]
          exact ⟨hcut'.1, hfits⟩
        rw [htrue] at hcut
        cases hcut
      rw [hcount] at hmany
      obtain ⟨hlong, hsmall⟩ := not_or.mp hmany
      have hlast : l.pieces.blocksDown - 1 < l.pieces.blocksDown := by omega
      have hrows : l.pieces.blocksDown - 1 < l.rows := by
        calc l.pieces.blocksDown - 1 ≤ (l.pieces.blocksDown - 1) * l.pieceRows :=
              Nat.le_mul_of_pos_right _ l.pieceRows_pos
          _ < l.rows := h.pieces_hasHeight.mul_lt_rows hlast
      have htall : l.isTall = true := by
        have hmillion : longestFilled = 1000000 := rfl
        have htallRows : tallRows = 2000 := rfl
        simp only [isTall, h.unfilled, h.blockRows_eq, Bool.not_false, BEq.rfl, Bool.true_and,
          decide_eq_true_eq]
        omega
      have hends := hwhole htall
      have hbegins := h.mul_lt_fullSize hlast
      omega

end Layout.OneStrip

/-- The tables of the only strip are the same again, or declare a size that is larger but still ends
in the file. -/
def Tables.Grown (needed fileSize : Nat) (p s p' s' : Option (Array Nat)) : Prop :=
  p' = p ∧ s' = s ∨
    numberIn p' 0 = numberIn p 0 ∧ needed ≤ numberIn s 0 ∧ numberIn s 0 ≤ numberIn s' 0 ∧
      numberIn p 0 + numberIn s' 0 ≤ fileSize

namespace Image

variable {p s p' s' : Option (Array Nat)} {stripRows band : Nat}
  (hl : l.OneStrip)

include hl

/-- A tall strip that is found and not cut lies in the file. -/
theorem inside_of_isTall (hband : band < l.bands) (hlayout : image.layout = l)
    (htables : image.tables = .whole p s) (htall : l.isTall = true)
    (h : image.bandBlocks data band = .ok blocks) :
    Tables.numberIn p 0 + l.fullSize ≤ data.size := by
  rw [bandBlocks, hlayout, htables, hl.firstBlock_eq hband, hl.perPlane] at h
  obtain ⟨b, hb⟩ := exists_answer (Tables.steady_whole _ _ p s) h le_rfl Nat.one_pos
  rw [answer, hlayout] at hb
  rcases blockOf_eq_ok hb with ⟨-, -, hlow⟩ | ⟨-, hends⟩
  · rw [htall] at hlow
    cases hlow
  · rwa [l.askedSize_of_isTall htall (hl.perPlane ▸ Nat.one_pos)] at hends

/-- The strip is found with a larger size too, -/
theorem bandBlocks_of_uncut (hband : band < l.bands) (hlayout : image.layout = l)
    (hlayout' : image'.layout = l) (htables : image.tables = .whole p s)
    (htables' : image'.tables = .whole p' s')
    (hgrown : Tables.Grown l.fullSize data.size p s p' s')
    (h : image.bandBlocks data band = .ok blocks) : image'.bandBlocks data band = .ok blocks := by
  rw [bandBlocks, hlayout, htables, hl.firstBlock_eq hband, hl.perPlane] at h
  rw [bandBlocks, hlayout', htables', hl.firstBlock_eq hband, hl.perPlane]
  refine findBlocks_of_answer (Tables.steady_whole _ _ p s) (Tables.steady_whole _ _ p' s')
    (fun k hk b hb => ?_) h
  rw [answer, hlayout] at hb
  rw [answer, hlayout']
  rcases hgrown with ⟨rfl, rfl⟩ | ⟨hplace, hneeded, hsize, hinside⟩
  · exact hb
  · obtain rfl : k = 0 := Nat.lt_one_iff.mp hk
    refine blockOf_of_le ?_ ?_ ?_ ?_ hb
    · exact hplace
    · exact lt_of_lt_of_le hl.fullSize_pos hneeded
    · exact hsize
    · exact hinside

/-- and so are its pieces. -/
theorem bandBlocks_of_cut (hinterleaved : l.interleaved = true) (hlayout : image.layout = l.pieces)
    (hlayout' : image'.layout = l.pieces)
    (htables : image.tables = l.pieceTables (Tables.numberIn p 0) (Tables.numberIn s 0))
    (htables' : image'.tables = l.pieceTables (Tables.numberIn p' 0) (Tables.numberIn s' 0))
    (hgrown : Tables.Grown l.fullSize data.size p s p' s')
    (h : image.bandBlocks data band = .ok blocks) : image'.bandBlocks data band = .ok blocks := by
  obtain ⟨ps, ss, hpieces, hall⟩ :=
    l.pieceTables_eq (Tables.numberIn p 0) (Tables.numberIn s 0)
  obtain ⟨hfirst, hcount⟩ := Layout.pieces_joined hinterleaved band
  rw [bandBlocks, hlayout, htables, hpieces, hfirst] at h
  rw [bandBlocks, hlayout', htables', hfirst]
  rcases hgrown with ⟨rfl, rfl⟩ | ⟨hplace, hneeded, hsize, hinside⟩
  · rw [hpieces]
    refine findBlocks_of_answer (Tables.steady_whole _ _ _ _) (Tables.steady_whole _ _ _ _)
      (fun k _ b hb => ?_) h
    rw [answer, hlayout] at hb
    rw [answer, hlayout']
    exact hb
  · obtain ⟨ps', ss', hpieces', hall'⟩ :=
      l.pieceTables_eq (Tables.numberIn p' 0) (Tables.numberIn s' 0)
    rw [hpieces']
    refine findBlocks_of_answer (Tables.steady_whole _ _ _ _) (Tables.steady_whole _ _ _ _)
      (fun k hk b hb => ?_) h
    rw [answer, hlayout] at hb
    rw [answer, hlayout']
    rw [Array.size_empty, Nat.zero_add] at hk
    obtain ⟨hplaces, hsizes⟩ := hall k (hcount ▸ hk)
    obtain ⟨hplaces', hsizes'⟩ := hall' k (hcount ▸ hk)
    have hbegins := hl.mul_lt_fullSize (hl.perPlane_pieces ▸ hk)
    have hbytes : 0 < l.pieceRows * l.rowSize := Nat.mul_pos l.pieceRows_pos hl.rowSize_pos
    rw [if_neg (by omega)] at hplaces hplaces'
    rw [Nat.zero_add] at hb ⊢
    refine blockOf_of_le ?_ ?_ ?_ ?_ hb
    · show ps'.getD k 0 = ps.getD k 0
      rw [hplaces, hplaces', hplace]
    · show 0 < ss.getD k 0
      rw [hsizes]
      omega
    · show ss.getD k 0 ≤ ss'.getD k 0
      rw [hsizes, hsizes']
      omega
    · show ps.getD k 0 + ss'.getD k 0 ≤ data.size
      rw [hplaces, hsizes']
      omega

/-- A strip behind the end of the file is not found. -/
theorem bandBlocks_ne_ok (hband : band < l.bands)
    (hcut : (image.layout, image.tables) = l.cut stripRows data.size (.whole p s))
    (hplace : data.size < Tables.numberIn p 0) (hsize : 0 < Tables.numberIn s 0) :
    image.bandBlocks data band ≠ .ok blocks := by
  intro h
  have hnone : ∀ {l : Layout} {place size : Entry} {b : Block}, data.size < place.number →
      0 < size.number → blockOf l data 0 place size ≠ .ok b := by
    intro l place size b hplace hsize hb
    rcases blockOf_eq_ok hb with ⟨-, hzero, -⟩ | ⟨-, hends⟩ <;> omega
  rw [Layout.cut] at hcut
  split at hcut
  · rename_i hpieces
    obtain ⟨hlayout, htables⟩ := Prod.mk.inj hcut
    obtain ⟨ps, ss, hpair, hall⟩ :=
      l.pieceTables_eq (Tables.numberIn p 0) (Tables.numberIn s 0)
    obtain ⟨hfirst, hcount⟩ := Layout.pieces_joined (Layout.interleaved_of_isCut hpieces) band
    have hpos : 0 < l.pieces.blocksPerPlane := hl.perPlane_pieces ▸ hl.pieces_pos
    rw [bandBlocks, hlayout, htables, hpair, hfirst] at h
    have hasked := Nat.add_pos_right 0 hpos
    obtain ⟨b, hb⟩ := exists_answer (Tables.steady_whole _ _ _ _) h le_rfl hasked
    obtain ⟨hplaces, hsizes⟩ := hall 0 (hcount ▸ hpos)
    have hbytes : 0 < l.pieceRows * l.rowSize := Nat.mul_pos l.pieceRows_pos hl.rowSize_pos
    rw [Nat.mul_zero, if_neg (by omega), Nat.add_zero] at hplaces
    rw [Nat.mul_zero, Nat.sub_zero] at hsizes
    refine hnone ?_ ?_ hb
    · show data.size < ps.getD 0 0
      rwa [hplaces]
    · show 0 < ss.getD 0 0
      rw [hsizes]
      omega
  · obtain ⟨hlayout, htables⟩ := Prod.mk.inj hcut
    rw [bandBlocks, hlayout, htables, hl.firstBlock_eq hband, hl.perPlane] at h
    obtain ⟨b, hb⟩ := exists_answer (Tables.steady_whole _ _ p s) h le_rfl Nat.one_pos
    exact hnone hplace hsize hb

end Image

/-! ## What is found about the only strip -/

theorem isBogus_iff {fileSize place size needed : Nat} :
    isBogus fileSize place size needed = true ↔
      place ≠ 0 ∧ (size = 0 ∨ place ≤ fileSize ∧ fileSize - place < size ∨ size < needed) := by
  simp only [isBogus, Bool.and_eq_true, Bool.or_eq_true, decide_eq_true_eq, or_assoc]

namespace Tables

/-- Once both tables have been asked about the only strip, both answers are in memory. -/
theorem exists_told (hfull : t.Full) (d : Directory) (data : ByteArray) :
    ∃ p s, (t.entry d data .sizes 0).1.number = numberIn s 0 ∧
      ((t.entry d data .sizes 0).2.entry d data .places 0).1.number = numberIn p 0 ∧
      (match ((t.entry d data .sizes 0).2.entry d data .places 0).2 with
        | .onDemand .. => Tables.whole (some #[numberIn p 0]) (some #[numberIn s 0])
        | .whole p s => .whole p s) = .whole p s := by
  cases t with
  | whole p s => exact ⟨p, s, rfl, rfl, rfl⟩
  | onDemand places sizes blocks =>
      rcases hfull with hshort | hlong
      · have hsizes : sizes.count ≤ shortTable := hshort .sizes
        refine ⟨(complete d data places sizes blocks).1,
          (complete d data places sizes blocks).2, ?_⟩
        simp only [entry, pick, hsizes, if_true]
        exact ⟨trivial, trivial, trivial⟩
      · have hplaces : ¬ places.count ≤ shortTable := not_le.mpr (hlong .places).1
        have hsizes : ¬ sizes.count ≤ shortTable := not_le.mpr (hlong .sizes).1
        refine ⟨some #[((alone? d data places blocks 0).getD 0)],
          some #[((alone? d data sizes blocks 0).getD 0)], ?_⟩
        simp only [entry, pick, hsizes, if_false]
        cases alone? d data sizes blocks 0 <;>
        · simp only [hplaces, if_false]
          cases alone? d data places blocks 0 <;> exact ⟨rfl, rfl, rfl⟩

/-- What the tables say about the only strip does not depend on what stands behind the file, but
whether it is believed does. -/
theorem exists_settled_eq (hfull : t.Full) (hlie : t.LieIn data) (d : Directory) :
    ∃ p s, ∀ more needed, t.settled d (data ++ more) needed =
      if isBogus (data ++ more).size (numberIn p 0) (numberIn s 0) needed then
        .whole (some #[numberIn p 0]) (some #[needed]) else .whole p s := by
  obtain ⟨p, s, hsize, hplace, htold⟩ := exists_told hfull d data
  refine ⟨p, s, fun more needed => ?_⟩
  obtain ⟨hsame, hfull', hlie'⟩ := entry_append (d := d) hfull hlie more .sizes 0
  obtain ⟨hsame', -, -⟩ := entry_append (d := d) hfull' hlie' more .places 0
  unfold settled
  dsimp only
  rw [hsame, hsame', hsize, hplace]
  split
  · rfl
  · exact htold

/-- The tables of the only strip in a longer file are those of the file again or have grown, unless
the strip begins behind the file. -/
theorem exists_settled_append (hfull : t.Full) (hlie : t.LieIn data) (d : Directory)
    (more : ByteArray) (needed : Nat) :
    ∃ p s p' s', t.settled d data needed = .whole p s ∧
      t.settled d (data ++ more) needed = .whole p' s' ∧
      (Grown needed (data ++ more).size p s p' s' ∨
        data.size < numberIn p 0 ∧ 0 < numberIn s 0) := by
  obtain ⟨p, s, hall⟩ := exists_settled_eq hfull hlie d
  have hhere := hall .empty needed
  have hthere := hall more needed
  rw [ByteArray.append_empty] at hhere
  have hlonger := size_le_size_append data more
  rw [hhere, hthere]
  -- a size may be believed in the longer file only, or, if the strip is not there, in neither way
  by_cases hbogus : isBogus data.size (numberIn p 0) (numberIn s 0) needed
  all_goals by_cases hbogus' : isBogus (data ++ more).size (numberIn p 0) (numberIn s 0) needed
  · rw [if_pos hbogus, if_pos hbogus']
    exact ⟨_, _, _, _, rfl, rfl, .inl (.inl ⟨rfl, rfl⟩)⟩
  · rw [if_pos hbogus, if_neg hbogus']
    refine ⟨_, _, _, _, rfl, rfl, .inl (.inr ⟨rfl, le_rfl, ?_⟩)⟩
    show needed ≤ numberIn s 0 ∧ numberIn p 0 + numberIn s 0 ≤ (data ++ more).size
    obtain ⟨hplace, hwrong⟩ := isBogus_iff.mp hbogus
    have hright := mt isBogus_iff.mpr hbogus'
    omega
  · rw [if_neg hbogus, if_pos hbogus']
    refine ⟨_, _, _, _, rfl, rfl, .inr ?_⟩
    obtain ⟨hplace, hwrong⟩ := isBogus_iff.mp hbogus'
    have hright := mt isBogus_iff.mpr hbogus
    omega
  · rw [if_neg hbogus, if_neg hbogus']
    exact ⟨_, _, _, _, rfl, rfl, .inl (.inl ⟨rfl, rfl⟩)⟩

end Tables

/-! ## The blocks of a band -/

theorem Tables.Grown.place_eq {needed fileSize : Nat} {p s p' s' : Option (Array Nat)}
    (h : Tables.Grown needed fileSize p s p' s') : Tables.numberIn p' 0 = Tables.numberIn p 0 := by
  rcases h with ⟨rfl, -⟩ | ⟨hplace, -⟩
  · rfl
  · exact hplace

namespace Image

variable {p s p' s' : Option (Array Nat)} {stripRows band : Nat}

/-- If the only strip is found in a file, it is found and cut in the same way in a longer one. -/
theorem bandBlocks_append_of_cut (hl : l.OneStrip) (hband : band < l.bands)
    (hcut : (image.layout, image.tables) = l.cut stripRows data.size (.whole p s))
    (hcut' : (image'.layout, image'.tables) =
      l.cut stripRows (data ++ more).size (.whole p' s'))
    (hgrown : Tables.Grown l.fullSize (data ++ more).size p s p' s')
    (h : image.bandBlocks data band = .ok blocks) :
    image'.layout = image.layout ∧ image'.bandBlocks (data ++ more) band = .ok blocks := by
  have hlonger := size_le_size_append data more
  have hsame : l.isCut stripRows (data ++ more).size (Tables.numberIn p' 0) =
      l.isCut stripRows data.size (Tables.numberIn p 0) := by
    rw [hgrown.place_eq]
    apply hl.isCut_eq hlonger
    intro huncut htall
    simp only [Layout.cut, huncut, Bool.false_eq_true, if_false] at hcut
    obtain ⟨hlayout, htables⟩ := Prod.mk.inj hcut
    exact inside_of_isTall hl hband hlayout htables htall h
  cases hpieces : l.isCut stripRows data.size (Tables.numberIn p 0) with
  | true =>
      simp only [Layout.cut, hsame, hpieces, if_true] at hcut hcut'
      obtain ⟨hlayout, htables⟩ := Prod.mk.inj hcut
      obtain ⟨hlayout', htables'⟩ := Prod.mk.inj hcut'
      refine ⟨hlayout'.trans hlayout.symm, ?_⟩
      apply bandBlocks_of_cut hl (Layout.interleaved_of_isCut hpieces) hlayout hlayout' htables
        htables' hgrown
      apply findBlocks_append rfl rfl _ _ more h
      · rw [htables]
        trivial
      · rw [htables]
        trivial
  | false =>
      simp only [Layout.cut, hsame, hpieces, Bool.false_eq_true, if_false] at hcut hcut'
      obtain ⟨hlayout, htables⟩ := Prod.mk.inj hcut
      obtain ⟨hlayout', htables'⟩ := Prod.mk.inj hcut'
      refine ⟨hlayout'.trans hlayout.symm, ?_⟩
      apply bandBlocks_of_uncut hl hband hlayout hlayout' htables htables' hgrown
      apply findBlocks_append rfl rfl _ _ more h
      · rw [htables]
        trivial
      · rw [htables]
        trivial

end Image

end PointElevation.Tiff
