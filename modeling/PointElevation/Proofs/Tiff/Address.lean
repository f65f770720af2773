import Mathlib.Tactic.Ring
import PointElevation.Proofs.Tiff.Blocks
import PointElevation.Proofs.Tiff.Described

/-!
# Where a sample of a picture is

An image leads to the samples of a picture (`Image.Leads`) if its tables and its layout say of each
sample what the plan says.  The layout that a reader makes of a plan does so, though the rows of
its strips are not more than the picture has: a strip has the rows that are left of the raster, up
to its height (`Layout.HasHeight.askedRows_eq`), and no sample moves
(`Picture.Announced.samplePlace_eq`).
-/

namespace PointElevation.Tiff

variable {p : Picture} {plan : Plan} {data : ByteArray} {l : Layout} {height row column : Nat}

/-! ## Strips with as many rows as there are -/

namespace Layout

/-- The blocks are strips of a height, or the only strip is lower. -/
structure HasHeight (l : Layout) (height : Nat) : Prop where
  unfilled : l.filled = false
  rows_pos : 0 < l.rows
  height_pos : 0 < height
  blockRows : l.blockRows = min height l.rows

namespace HasHeight

variable (h : l.HasHeight height)

include h

theorem div_eq (hrow : row < l.rows) : row / l.blockRows = row / height := by
  rw [h.blockRows]
  rcases Nat.le_total height l.rows with hle | hle
  · rw [min_eq_left hle]
  · rw [min_eq_right hle, Nat.div_eq_of_lt hrow, Nat.div_eq_of_lt (lt_of_lt_of_le hrow hle)]

theorem mod_eq (hrow : row < l.rows) : row % l.blockRows = row % height := by
  rw [h.blockRows]
  rcases Nat.le_total height l.rows with hle | hle
  · rw [min_eq_left hle]
  · rw [min_eq_right hle, Nat.mod_eq_of_lt hrow, Nat.mod_eq_of_lt (lt_of_lt_of_le hrow hle)]

theorem blocksDown_eq : l.blocksDown = l.rows ⌈/⌉ height := by
  have hrows := h.rows_pos
  rw [blocksDown, h.blockRows, Nat.ceilDiv_eq_add_pred_div]
  rcases Nat.le_total height l.rows with hle | hle
  · rw [min_eq_left hle]
  · have hleft : (l.rows + l.rows - 1) / l.rows = 1 :=
      Nat.div_eq_of_lt_le (by omega) (by omega)
    have hright : (l.rows + height - 1) / height = 1 :=
      Nat.div_eq_of_lt_le (by omega) (by omega)
    rw [min_eq_right hle, hleft, hright]

/-- Every strip begins in the raster. -/
theorem mul_lt_rows {i : Nat} (hi : i < l.blocksDown) : i * height < l.rows := by
  have hpos := h.height_pos
  rw [h.blocksDown_eq, Nat.ceilDiv_eq_add_pred_div] at hi
  have hreach := (Nat.le_div_iff_mul_le hpos).mp (Nat.succ_le_of_lt hi)
  rw [Nat.succ_mul] at hreach
  omega

/-- The strips reach to the end of the raster. -/
theorem rows_le : l.rows ≤ l.blocksDown * height := by
  have hreach := le_smul_ceilDiv (b := l.rows) h.height_pos
  rwa [← h.blocksDown_eq, smul_eq_mul, Nat.mul_comm] at hreach

/-- A strip has as many rows as its height says, or those that are left. -/
theorem askedRows_eq {i : Nat} (hi : i < l.blocksDown) :
    l.askedRows i = min height (l.rows - i * height) := by
  have hbegins := h.mul_lt_rows hi
  rw [askedRows, h.blockRows]
  rcases Nat.le_total height l.rows with hle | hle
  · rw [min_eq_left hle, Nat.succ_mul]
    split
    · rename_i hreached
      -- the last strip would reach behind the raster by less than all of its rows
      have hmod : (i * height + height) % l.rows = i * height + height - l.rows := by
        rw [Nat.mod_eq_sub_mod hreached.le, Nat.mod_eq_of_lt (by omega)]
      rw [hmod]
      omega
    · omega
  · -- there is one strip
    have hfirst : i = 0 := by
      by_contra hne
      have hlarge : height ≤ i * height := Nat.le_mul_of_pos_left _ (Nat.pos_of_ne_zero hne)
      omega
    subst hfirst
    rw [min_eq_right hle, Nat.zero_add, Nat.one_mul, if_neg (lt_irrefl _)]
    omega

end HasHeight

/-! ## Bytes -/

variable {width band k : Nat}

/-- The samples take whole bytes. -/
theorem rowSize_eq (hbits : l.sample.bits = 8 * width) :
    l.rowSize = l.blockColumns * l.pixelSamples * width := by
  rw [rowSize, hbits]
  have hproduct : l.blockColumns * l.pixelSamples * (8 * width) =
      8 * (l.blockColumns * l.pixelSamples * width) := by ring
  omega

theorem placeInBlock_eq (hbits : l.sample.bits = 8 * width) :
    l.placeInBlock band row column =
      8 * (((row % l.blockRows * l.blockColumns + column % l.blockColumns) * l.pixelSamples
        + l.sampleOfBand band) * width) := by
  rw [placeInBlock, rowSize_eq hbits, hbits]
  ring

/-! ## Blocks of a plane -/

theorem div_lt_ceil {i count size : Nat} (hsize : 0 < size) (hi : i < count) :
    i / size < (count + size - 1) / size := by
  calc i / size < (i + size) / size := by rw [Nat.add_div_right _ hsize]; exact Nat.lt_succ_self _
    _ ≤ (count + size - 1) / size := Nat.div_le_div_right (by omega)

theorem blockOf_lt (hrows : 0 < l.blockRows) (hcolumns : 0 < l.blockColumns) (hrow : row < l.rows)
    (hcolumn : column < l.columns) : l.blockOf row column < l.blocksPerPlane := by
  have hdown : row / l.blockRows < l.blocksDown := div_lt_ceil hrows hrow
  have hacross : column / l.blockColumns < l.blocksAcross := div_lt_ceil hcolumns hcolumn
  calc l.blockOf row column < (row / l.blockRows + 1) * l.blocksAcross := by
        rw [blockOf, Nat.succ_mul]
        exact Nat.add_lt_add_left hacross _
    _ ≤ l.blocksDown * l.blocksAcross := Nat.mul_le_mul_right _ hdown
    _ = l.blocksPerPlane := Nat.mul_comm _ _

/-- What holds of all blocks of a plane holds of all rows of blocks and all blocks in them. -/
theorem forall_block_iff {P : Nat → Nat → Prop} :
    (∀ k < l.blocksPerPlane, P (k / l.blocksAcross) k) ↔
      ∀ i < l.blocksDown, ∀ j < l.blocksAcross, P i (i * l.blocksAcross + j) := by
  constructor
  · intro hall i hi j hj
    have hlt : i * l.blocksAcross + j < l.blocksPerPlane := by
      calc i * l.blocksAcross + j < (i + 1) * l.blocksAcross := by rw [Nat.succ_mul]; omega
        _ ≤ l.blocksDown * l.blocksAcross := Nat.mul_le_mul_right _ hi
        _ = l.blocksPerPlane := Nat.mul_comm _ _
    have hdiv : (i * l.blocksAcross + j) / l.blocksAcross = i :=
      Nat.div_eq_of_lt_le (Nat.le_add_right _ _) (by rw [Nat.succ_mul]; omega)
    have hblock := hall _ hlt
    -- the row of blocks is the quotient
    rwa [hdiv] at hblock
  · intro hall k hk
    have hacross : 0 < l.blocksAcross := Nat.pos_of_mul_pos_right (Nat.zero_lt_of_lt hk)
    have hdown : k / l.blocksAcross < l.blocksDown :=
      Nat.div_lt_of_lt_mul hk
    have hblock := hall _ hdown _ (Nat.mod_lt k hacross)
    rwa [Nat.div_add_mod' k l.blocksAcross] at hblock

end Layout

/-! ## The layout of a plan -/

namespace Picture.Announced

variable (h : p.Announced plan data)

include h

theorem bits_eq_mul : p.type.bits = 8 * (p.type.bits / 8) := by
  have hbits := h.proper.plain.bits_eq
  omega

theorem bytes_pos : 0 < p.type.bits / 8 := by
  have hbits := h.proper.plain.bits_eq
  omega

theorem hasHeight {rows : Nat} (hcutting : plan.cutting = .strips rows) :
    (plan.layout p).HasHeight rows where
  unfilled := by simp only [Plan.layout, hcutting]
  rows_pos := h.proper.rows_pos
  height_pos := (h.cut.strips hcutting).rows_pos
  blockRows := by simp only [Plan.layout, hcutting]

theorem plannedRows_pos : 0 < plan.blockRows := by
  unfold Plan.blockRows
  cases hcutting : plan.cutting with
  | strips rows => exact (h.cut.strips hcutting).rows_pos
  | tiles rows columns => exact (h.cut.tiles hcutting).rows_pos

theorem blockRows_pos : 0 < (plan.layout p).blockRows := by
  cases hcutting : plan.cutting with
  | strips rows =>
      rw [(h.hasHeight hcutting).blockRows]
      exact Nat.lt_min.mpr ⟨(h.cut.strips hcutting).rows_pos, h.proper.rows_pos⟩
  | tiles rows columns =>
      simp only [Plan.layout, hcutting]
      exact (h.cut.tiles hcutting).rows_pos

theorem blockColumns_pos : 0 < (plan.layout p).blockColumns := by
  cases hcutting : plan.cutting with
  | strips rows =>
      simp only [Plan.layout, Plan.blockColumns, hcutting]
      exact h.proper.columns_pos
  | tiles rows columns =>
      simp only [Plan.layout, Plan.blockColumns, hcutting]
      exact (h.cut.tiles hcutting).columns_pos

omit h in
theorem across_eq : (plan.layout p).blocksAcross = plan.across p := by
  rw [Plan.across, Nat.ceilDiv_eq_add_pred_div]
  rfl

theorem down_eq : (plan.layout p).blocksDown = plan.down p := by
  cases hcutting : plan.cutting with
  | strips rows =>
      rw [(h.hasHeight hcutting).blocksDown_eq, Plan.down, Plan.blockRows, hcutting]
      rfl
  | tiles rows columns =>
      rw [Layout.blocksDown, Plan.down, Nat.ceilDiv_eq_add_pred_div]
      simp only [Plan.layout, Plan.blockRows, hcutting]

theorem div_blockRows (hrow : row < p.rows) :
    row / (plan.layout p).blockRows = row / plan.blockRows := by
  cases hcutting : plan.cutting with
  | strips rows =>
      rw [(h.hasHeight hcutting).div_eq hrow, Plan.blockRows, hcutting]
  | tiles rows columns => simp only [Plan.layout, Plan.blockRows, hcutting]

theorem mod_blockRows (hrow : row < p.rows) :
    row % (plan.layout p).blockRows = row % plan.blockRows := by
  cases hcutting : plan.cutting with
  | strips rows =>
      rw [(h.hasHeight hcutting).mod_eq hrow, Plan.blockRows, hcutting]
  | tiles rows columns => simp only [Plan.layout, Plan.blockRows, hcutting]

theorem rowSize_eq : (plan.layout p).rowSize =
    plan.blockColumns p * plan.slots p * (p.type.bits / 8) :=
  Layout.rowSize_eq h.bits_eq_mul

theorem rowSize_pos : 0 < (plan.layout p).rowSize := by
  have hslots : 0 < plan.slots p := by
    rw [Plan.slots]
    split
    · exact h.proper.bands_pos
    · exact Nat.one_pos
  rw [h.rowSize_eq]
  exact Nat.mul_pos (Nat.mul_pos h.blockColumns_pos hslots) h.bytes_pos

/-- A block takes as many bytes as it is stored in. -/
theorem sizeOf_eq {k : Nat} (hk : k < (plan.layout p).blocksPerPlane) :
    (plan.layout p).sizeOf k = plan.blockSize p (k / plan.across p) := by
  rw [Plan.blockSize, ← h.rowSize_eq, Layout.sizeOf]
  cases hcutting : plan.cutting with
  | strips rows =>
      have hheight := h.hasHeight hcutting
      have hrow : k / plan.across p < (plan.layout p).blocksDown := by
        rw [← across_eq]
        exact Nat.div_lt_of_lt_mul hk
      rw [hheight.unfilled, if_neg Bool.false_ne_true, Layout.askedSize, across_eq,
        hheight.askedRows_eq hrow, Plan.storedRows, hcutting]
      rfl
  | tiles rows columns =>
      simp only [Plan.storedRows, Layout.fullSize, Plan.layout, hcutting, if_true]

theorem sizeOf_pos {k : Nat} (hk : k < (plan.layout p).blocksPerPlane) :
    0 < (plan.layout p).sizeOf k := by
  rw [h.sizeOf_eq hk, Plan.blockSize, ← h.rowSize_eq]
  apply Nat.mul_pos _ h.rowSize_pos
  rw [Plan.storedRows]
  cases hcutting : plan.cutting with
  | strips rows =>
      have hheight := h.hasHeight hcutting
      have hrow : k / plan.across p < (plan.layout p).blocksDown := by
        rw [← across_eq]
        exact Nat.div_lt_of_lt_mul hk
      have hbegins := hheight.mul_lt_rows hrow
      exact Nat.lt_min.mpr ⟨hheight.height_pos, Nat.sub_pos_of_lt hbegins⟩
  | tiles rows columns => exact (h.cut.tiles hcutting).rows_pos

/-- The number of a block, by the plane of a band. -/
theorem firstBlock_eq (band : Nat) : (plan.layout p).firstBlock band =
    plan.plane band * (plan.across p * plan.down p) := by
  rw [Layout.firstBlock, Layout.blocksPerPlane, across_eq, h.down_eq, Plan.plane]
  cases hinterleaved : plan.interleaved <;> simp [Plan.layout, hinterleaved]

theorem blockCount_eq : (plan.layout p).blockCount = plan.blockCount p := by
  rw [Layout.blockCount, Layout.blocksPerPlane, across_eq, h.down_eq, Plan.blockCount, Plan.planes]
  cases hinterleaved : plan.interleaved <;> simp [Plan.layout, hinterleaved]

theorem samplePlace_eq (band column : Nat) (hrow : row < p.rows) :
    plan.place ((plan.layout p).firstBlock band + (plan.layout p).blockOf row column) * 8
        + (plan.layout p).placeInBlock band row column =
      8 * plan.samplePlace p band (row / plan.blockRows) (column / plan.blockColumns p)
        (row % plan.blockRows) (column % plan.blockColumns p) := by
  have hblock : (plan.layout p).firstBlock band + (plan.layout p).blockOf row column =
      plan.blockIndex p (plan.plane band) (row / plan.blockRows)
        (column / plan.blockColumns p) := by
    rw [h.firstBlock_eq, Layout.blockOf, h.div_blockRows hrow, across_eq, Plan.blockIndex,
      Nat.add_assoc]
    rfl
  -- the place of a block counts bytes, and that in the block counts bits
  rw [hblock, Layout.placeInBlock_eq h.bits_eq_mul, h.mod_blockRows hrow, Plan.samplePlace,
    Nat.mul_add, Nat.mul_comm _ 8]
  rfl

end Picture.Announced

/-! ## Images that lead to the samples -/

/-- The tables and the layout of an image lead to the samples of a picture: the blocks of a band lie
in the file if those of the plan do, and a sample is where the plan has it. -/
structure Image.Leads (image : Image) (p : Picture) (plan : Plan) (data : ByteArray) (n : Nat)
    (place size : Nat → Nat) : Prop where
  numbers : image.tables.Numbers image.directory data n place size
  sizes : ∀ band < p.bands, image.HasSizes (image.layout.firstBlock band) n size
  inside : ∀ band < p.bands, plan.HoldsBand data p band ↔
    ∀ k < image.layout.blocksPerPlane,
      place (image.layout.firstBlock band + k) + image.layout.sizeOf k ≤ data.size
  block_lt : ∀ row < p.rows, ∀ column < p.columns,
    image.layout.blockOf row column < image.layout.blocksPerPlane
  place : ∀ band < p.bands, ∀ row < p.rows, ∀ column < p.columns,
    place (image.layout.firstBlock band + image.layout.blockOf row column) * 8
        + image.layout.placeInBlock band row column =
      8 * plan.samplePlace p band (row / plan.blockRows) (column / plan.blockColumns p)
        (row % plan.blockRows) (column % plan.blockColumns p)

/-! ### Blocks as they are planned -/

namespace Picture.Announced

variable {image : Image} (h : p.Announced plan data)

include h

theorem perPlane_eq : (plan.layout p).blocksPerPlane = plan.across p * plan.down p := by
  rw [Layout.blocksPerPlane, across_eq, h.down_eq]

theorem holdsBand_iff (band : Nat) : plan.HoldsBand data p band ↔
    ∀ k < (plan.layout p).blocksPerPlane,
      plan.place ((plan.layout p).firstBlock band + k) + (plan.layout p).sizeOf k ≤ data.size := by
  have hblocks : plan.HoldsBand data p band ↔ ∀ k < (plan.layout p).blocksPerPlane,
      plan.place ((plan.layout p).firstBlock band + k) +
        plan.blockSize p (k / (plan.layout p).blocksAcross) ≤ data.size := by
    rw [Layout.forall_block_iff (P := fun i k =>
      plan.place ((plan.layout p).firstBlock band + k) + plan.blockSize p i ≤ data.size),
      across_eq, h.down_eq, h.firstBlock_eq]
    simp only [Plan.HoldsBand, Plan.blockIndex, Nat.add_assoc]
  rw [hblocks]
  apply forall₂_congr
  intro k hk
  rw [h.sizeOf_eq hk, across_eq]

theorem hasSizes {band : Nat} (hlayout : image.layout = plan.layout p) (hband : band < p.bands) :
    image.HasSizes (image.layout.firstBlock band) (plan.blockCount p) (plan.sizeAt p) := by
  rw [hlayout, h.firstBlock_eq]
  constructor
  case le =>
    have hplane : plan.plane band < plan.planes p := by
      rw [Plan.plane, Plan.planes]
      split <;> omega
    rw [hlayout, h.perPlane_eq]
    calc plan.plane band * (plan.across p * plan.down p) + plan.across p * plan.down p
        = (plan.plane band + 1) * (plan.across p * plan.down p) := (Nat.succ_mul _ _).symm
      _ ≤ plan.planes p * (plan.across p * plan.down p) := Nat.mul_le_mul_right _ hplane
  case pos =>
    rw [hlayout]
    exact fun k hk => h.sizeOf_pos hk
  case eq =>
    rw [hlayout]
    intro k hk
    -- every plane has the same sizes, so the number in the plane decides
    have hmod : (plan.plane band * (plan.across p * plan.down p) + k) %
        (plan.across p * plan.down p) = k := by
      rw [Nat.mul_comm, Nat.mul_add_mod, Nat.mod_eq_of_lt (h.perPlane_eq ▸ hk)]
    rw [Plan.sizeAt, hmod, h.sizeOf_eq hk]

theorem leads (hlayout : image.layout = plan.layout p)
    (hnumbers : image.tables.Numbers image.directory data (plan.blockCount p) plan.place
      (plan.sizeAt p)) :
    image.Leads p plan data (plan.blockCount p) plan.place (plan.sizeAt p) where
  numbers := hnumbers
  sizes := fun _ hband => h.hasSizes hlayout hband
  inside := fun band _ => hlayout ▸ h.holdsBand_iff band
  block_lt := fun _ hrow _ hcolumn =>
    hlayout ▸ Layout.blockOf_lt h.blockRows_pos h.blockColumns_pos hrow hcolumn
  place := fun band _ _ hrow _ _ => hlayout ▸ h.samplePlace_eq band _ hrow

end Picture.Announced

end PointElevation.Tiff
