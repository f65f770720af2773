import PointElevation.Proofs.Tiff.Trailing

/-!
# Blocks that are found in a longer file

If the values of both tables lie in a file (`Tables.LieIn`), and the tables are read whole or have
a number for each block (`Tables.Full`), what they say of a block does not depend on what stands
behind the file, so blocks that are found are found in a longer file too
(`Image.findBlocks_append`).

Tables that do not change when they are asked (`Tables.Steady`) are those in memory and the long
ones.  For them each block is found on its own: `Image.exists_answer` and
`Image.findBlocks_of_answer` lead from all blocks to one of them and back.
-/

namespace PointElevation.Tiff

variable {d : Directory} {data more : ByteArray} {l : Layout} {t t' : Tables} {image image' : Image}
  {first count : Nat} {found blocks : Array Block}

/-! ## Tables -/

namespace Tables

/-- Both tables are read whole, or both are read piece by piece and have a number for each block. -/
def Full : Tables → Prop
  | .onDemand places sizes blocks =>
      (∀ name, (pick name places sizes).count ≤ shortTable) ∨
        ∀ name, shortTable < (pick name places sizes).count ∧
          blocks ≤ (pick name places sizes).count
  | .whole _ _ => True

/-- The values of both tables lie in a file, or have been read. -/
def LieIn (data : ByteArray) : Tables → Prop
  | .onDemand places sizes _ => ∀ name, (pick name places sizes).LiesIn data
  | .whole _ _ => True

theorem alone?_append {f : Field} (h : f.LiesIn data) (more : ByteArray) {blocks : Nat}
    (hblocks : blocks ≤ f.count) (i : Nat) :
    alone? d (data ++ more) f blocks i = alone? d data f blocks i := by
  have hwindow : windowEnd f blocks i ≤ data.size := by
    calc windowEnd f blocks i ≤ f.place + f.type.width * blocks := min_le_right _ _
      _ ≤ data.size := h.le_size hblocks
  have hlonger := le_trans hwindow (size_le_size_append data more)
  by_cases hi : i < f.count
  · simp only [alone?, hwindow, hlonger, h.valueBits_append more hi]
  · simp only [alone?, hi, decide_false, Bool.false_and, Bool.false_eq_true, if_false]

/-- What tables say does not change with what stands behind the file. -/
theorem entry_append (hfull : t.Full) (h : t.LieIn data) (more : ByteArray) (name : TableName)
    (block : Nat) : t.entry d (data ++ more) name block = t.entry d data name block ∧
      (t.entry d data name block).2.Full ∧ (t.entry d data name block).2.LieIn data := by
  cases t with
  | whole p s => exact ⟨rfl, trivial, trivial⟩
  | onDemand places sizes blocks =>
      have hplaces : places.LiesIn data := h .places
      have hsizes : sizes.LiesIn data := h .sizes
      have hcomplete : complete d (data ++ more) places sizes blocks =
          complete d data places sizes blocks := by
        simp only [complete, hplaces.table?_append more, hsizes.table?_append more]
      simp only [entry]
      split
      · rw [hcomplete]
        exact ⟨rfl, trivial, trivial⟩
      · rename_i hlong
        have hmany : blocks ≤ (pick name places sizes).count :=
          ((hfull.resolve_left fun hshort => hlong (hshort name)) name).2
        rw [alone?_append (h name) more hmany]
        split
        · exact ⟨rfl, hfull, h⟩
        · exact ⟨rfl, hfull, h⟩

end Tables

/-! ## One block -/

namespace Image

/-- No more is read than a file declares. -/
theorem readSize_le (full size : Nat) : readSize full size ≤ size := by
  unfold readSize
  split
  · rename_i hlarge
    have hfar := (Nat.lt_div_iff_mul_lt (by decide : 0 < 10)).mp hlarge.2
    omega
  · exact le_rfl

/-- A block is not stored, or it lies in the file as far as it is asked for. -/
theorem blockOf_eq_ok {block : Nat} {place size : Entry} {b : Block}
    (h : blockOf l data block place size = .ok b) :
    b = .missing ∧ size.number = 0 ∧ l.isTall = false ∨
      b = .stored place.number ∧ place.number + l.askedSize block ≤ data.size := by
  unfold blockOf at h
  dsimp only at h
  split at h
  · rename_i hempty
    split at h
    · cases h
      exact .inl ⟨rfl, hempty.1, by simpa using hempty.2⟩
    · cases h
  · generalize hneeded : (if isSizeTrusted l block = true then readSize l.fullSize size.number
      else l.askedSize block) = needed at h
    split at h
    · rename_i hthere
      obtain ⟨henough, hends⟩ := Bool.and_eq_true_iff.mp hthere
      -- a declared size is only trusted where it is not less than what is asked for
      have hasked : l.askedSize block ≤ needed := by
        rw [← hneeded]
        split
        · rename_i htrusted
          have hdeclared : l.askedSize block ≤ size.number := by simpa [htrusted] using henough
          have hfull := l.askedSize_le block
          unfold readSize
          split <;> omega
        · exact le_rfl
      cases h
      exact .inr ⟨rfl, le_trans (Nat.add_le_add_left hasked _) (decide_eq_true_iff.mp hends)⟩
    · cases h

/-- A block that is there is there with a larger size too, if it lies in the file with that. -/
theorem blockOf_of_le {block : Nat} {place place' size size' : Entry} {b : Block}
    (hplace : place'.number = place.number) (hpos : 0 < size.number)
    (hle : size.number ≤ size'.number) (hinside : place.number + size'.number ≤ data.size)
    (h : blockOf l data block place size = .ok b) : blockOf l data block place' size' = .ok b := by
  unfold blockOf at h ⊢
  dsimp only at h ⊢
  rw [if_neg fun hempty => hpos.ne' hempty.1] at h
  rw [if_neg fun hempty => absurd hempty.1 (by omega), hplace]
  have hread := readSize_le l.fullSize size'.number
  cases htrusted : isSizeTrusted l block with
  | false =>
      rw [htrusted] at h
      exact h
  | true =>
      simp only [htrusted, if_true, Bool.not_true, Bool.false_or, Bool.and_eq_true,
        decide_eq_true_eq] at h ⊢
      split at h
      · rename_i henough
        rw [if_pos ⟨by omega, by omega⟩]
        exact h
      · cases h

theorem blockOf_append {block : Nat} {place size : Entry} {b : Block}
    (h : blockOf l data block place size = .ok b) (more : ByteArray) :
    blockOf l (data ++ more) block place size = .ok b := by
  unfold blockOf at h ⊢
  dsimp only at h ⊢
  split
  · rename_i hempty
    rwa [if_pos hempty] at h
  · rename_i hthere
    rw [if_neg hthere] at h
    generalize (if isSizeTrusted l block = true then readSize l.fullSize size.number
      else l.askedSize block) = needed at h ⊢
    split at h
    · rename_i hinside
      obtain ⟨henough, hends⟩ := Bool.and_eq_true_iff.mp hinside
      have hlonger : place.number + needed ≤ (data ++ more).size :=
        le_trans (decide_eq_true_iff.mp hends) (size_le_size_append data more)
      rw [henough, decide_eq_true hlonger]
      exact h
    · cases h

/-! ## All blocks -/

/-- Blocks that are found are found in a longer file. -/
theorem findBlocks_append (hdirectory : image'.directory = image.directory)
    (hlayout : image'.layout = image.layout) (hfull : t.Full) (hlie : t.LieIn data)
    (more : ByteArray) (h : image.findBlocks data first count t found = .ok blocks) :
    image'.findBlocks (data ++ more) first count t found = .ok blocks := by
  -- asking for a block keeps what is known of the tables, so the rest is found with the new ones
  induction count generalizing t found with
  | zero => exact h
  | succ count ih =>
      unfold findBlocks at h ⊢
      dsimp only at h ⊢
      obtain ⟨hsize, hfull', hlie'⟩ :=
        Tables.entry_append (d := image.directory) hfull hlie more .sizes (first + found.size)
      rw [hdirectory, hlayout, hsize]
      obtain ⟨hplace, hfull'', hlie''⟩ :=
        Tables.entry_append (d := image.directory) hfull' hlie' more .places (first + found.size)
      rw [hplace]
      split at h
      · rename_i b hblock
        rw [blockOf_append hblock more]
        exact ih hfull'' hlie'' h
      · cases h

end Image

/-- No question changes the tables. -/
def Tables.Steady (d : Directory) (data : ByteArray) (t : Tables) : Prop :=
  ∀ name block, (t.entry d data name block).2 = t

theorem Tables.steady_whole (d : Directory) (data : ByteArray) (p s : Option (Array Nat)) :
    (Tables.whole p s).Steady d data := fun _ _ => rfl

/-- Long tables are never read whole. -/
theorem Tables.steady_of_long {places sizes : Field} (d : Directory) (data : ByteArray) (n : Nat)
    (h : ∀ name, shortTable < (pick name places sizes).count) :
    (Tables.onDemand places sizes n).Steady d data := by
  intro name block
  simp only [entry, not_le.mpr (h name), if_false]
  split <;> rfl

namespace Image

/-- What tables say about a block. -/
def answer (image : Image) (data : ByteArray) (t : Tables) (first k : Nat) : Except Defect Block :=
  blockOf image.layout data k (t.entry image.directory data .places (first + k)).1
    (t.entry image.directory data .sizes (first + k)).1

theorem findBlocks_succ_of_steady (h : t.Steady image.directory data) :
    image.findBlocks data first (count + 1) t found =
      match image.answer data t first found.size with
      | .ok b => image.findBlocks data first count t (found.push b)
      | .error defect => .error defect := by
  rw [findBlocks]
  dsimp only
  rw [h .sizes, h .places]
  rfl

/-- Each of the blocks that are found has been asked for. -/
theorem exists_answer (hsteady : t.Steady image.directory data)
    (h : image.findBlocks data first count t found = .ok blocks) {k : Nat} (hk : found.size ≤ k)
    (hlt : k < found.size + count) : ∃ b, image.answer data t first k = .ok b := by
  induction count generalizing found with
  | zero => omega
  | succ count ih =>
      rw [findBlocks_succ_of_steady hsteady] at h
      split at h
      · rename_i b hb
        by_cases hfirst : k = found.size
        · exact ⟨b, hfirst ▸ hb⟩
        · apply ih h
          all_goals
            rw [Array.size_push]
            omega
      · cases h

/-- Tables that give the same answers find the same blocks. -/
theorem findBlocks_of_answer (hsteady : t.Steady image.directory data)
    (hsteady' : t'.Steady image'.directory data)
    (hsame : ∀ k < found.size + count, ∀ b, image.answer data t first k = .ok b →
      image'.answer data t' first k = .ok b)
    (h : image.findBlocks data first count t found = .ok blocks) :
    image'.findBlocks data first count t' found = .ok blocks := by
  induction count generalizing found with
  | zero => exact h
  | succ count ih =>
      rw [findBlocks_succ_of_steady hsteady] at h
      rw [findBlocks_succ_of_steady hsteady']
      split at h
      · rename_i b hb
        rw [hsame found.size (by omega) b hb]
        apply ih _ h
        rw [Array.size_push]
        exact fun k hk => hsame k (by omega)
      · cases h

end Image

end PointElevation.Tiff
