import PointElevation.Proofs.Tiff.Fields
import PointElevation.Tiff.Band

/-!
# Finding blocks

Tables of blocks answer with given places and sizes (`Tables.Answers`) if both fields tell them,
and no less once they have been read whole: a question is answered by the numbers whatever has been
asked before (`Answers.entry_eq`).  Finding blocks takes less: the numbers have to last
(`Tables.Numbers`), and it does not matter whether they are sound.  With the size that a block has
by its layout, a reader of the block needs exactly that many bytes (`blockOf_eq`), so the blocks of
a plane are found if they lie in the file, and only then (`findBlocks_of_inside`,
`inside_of_findBlocks`).
-/

namespace PointElevation.Tiff

variable {d : Directory} {data : ByteArray} {tag n : Nat} {values : List Nat} {f : Field}
  {place size : Nat → Nat}

/-! ## Tables -/

namespace Directory.Tells

theorem alone?_eq (h : d.Tells data tag values f) {k : Nat} (hk : k < values.length) :
    Tables.alone? d data f values.length k = some values[k] := by
  have hcount := h.count
  have hpaged : Tables.isPaged f.type = true := by
    simp [Tables.isPaged, h.kind, h.wide]
  have hwindow : Tables.windowEnd f values.length k ≤ data.size :=
    le_trans (min_le_right _ _) (hcount ▸ h.inside)
  rw [Tables.alone?, hpaged, h.value k hk]
  simp [hcount, hk, hwindow]

theorem table?_eq (h : d.Tells data tag values f) (hheld : f.count ≤ heldBytes / 4) :
    d.table? data values.length f = some values.toArray := by
  have hcount := h.count
  have hbound : ∀ n ∈ values, n < Nat.pow 2 64 := fun n hn =>
    lt_trans (h.lt n hn) (by decide)
  have hkept : ({ f with count := min f.count values.length } : Field) = f := by
    rw [hcount, min_self, ← hcount]
  have hnumbers := h.numbers_eq hheld hbound
  unfold table?
  rw [if_neg (by omega)]
  dsimp only
  rw [hkept, hnumbers, hcount, min_self, Nat.sub_self]
  simp

end Directory.Tells

namespace Tables

/-- Whatever is asked, the tables of `n` blocks answer with these places and sizes. -/
def Answers (d : Directory) (data : ByteArray) (n : Nat) (place size : Nat → Nat) : Tables → Prop
  | .onDemand p s blocks =>
      blocks = n ∧ (∃ tag, d.Tells data tag ((List.range n).map place) p) ∧
        ∃ tag, d.Tells data tag ((List.range n).map size) s
  | .whole p s =>
      ∃ ps ss, p = some ps ∧ s = some ss ∧
        ∀ k < n, ps.getD k 0 = place k ∧ ss.getD k 0 = size k

theorem complete_eq {p s : Field} {tag' : Nat} (hp : d.Tells data tag ((List.range n).map place) p)
    (hs : d.Tells data tag' ((List.range n).map size) s) (hpos : 0 < n) (hshort : n ≤ shortTable) :
    complete d data p s n =
      (some ((List.range n).map place).toArray, some ((List.range n).map size).toArray) := by
  have hlength : ∀ value : Nat → Nat, ((List.range n).map value).length = n := by simp
  have hheld : n ≤ Directory.heldBytes / 4 := le_trans hshort (by decide)
  have hpcount : p.count = n := hp.count.trans (hlength place)
  have hscount : s.count = n := hs.count.trans (hlength size)
  have hplaces := hp.table?_eq (hpcount ▸ hheld)
  have hsizes := hs.table?_eq (hscount ▸ hheld)
  rw [hlength] at hplaces hsizes
  rw [complete, if_neg (by omega), hplaces, hsizes]

theorem getD_toArray_range {k : Nat} (value : Nat → Nat) (hk : k < n) :
    ((List.range n).map value).toArray.getD k 0 = value k := by
  simp [Array.getD, hk]

/-- A question is answered, and so will be the next one. -/
theorem Answers.entry_eq {t : Tables} (h : t.Answers d data n place size) (name : TableName)
    {k : Nat} (hk : k < n) :
    (t.entry d data name k).1 = ⟨pick name place size k, true⟩ ∧
      (t.entry d data name k).2.Answers d data n place size := by
  cases t with
  | onDemand p s blocks =>
      obtain ⟨rfl, ⟨tag, hp⟩, tag', hs⟩ := h
      have hlength : ∀ value : Nat → Nat, ((List.range blocks).map value).length = blocks := by simp
      have hown : ∃ tag'', d.Tells data tag'' ((List.range blocks).map (pick name place size))
          (pick name p s) := by
        cases name
        · exact ⟨tag, hp⟩
        · exact ⟨tag', hs⟩
      obtain ⟨tag'', hown⟩ := hown
      have hcount : (pick name p s).count = blocks := hown.count.trans (hlength _)
      -- the first question has short tables read whole, and leaves long ones as they are
      by_cases hshort : blocks ≤ shortTable
      · have hcomplete := complete_eq hp hs (Nat.zero_lt_of_lt hk) hshort
        simp only [entry, hcount, hshort, if_true, hcomplete]
        refine ⟨?_, _, _, rfl, rfl, fun j hj => ?_⟩
        · cases name <;> simp only [pick, numberIn, Option.getD_some, getD_toArray_range _ hk,
            Option.isSome_some, Bool.and_self]
        · exact ⟨getD_toArray_range place hj, getD_toArray_range size hj⟩
      · have halone := hown.alone?_eq (k := k) (by rwa [hlength])
        simp only [List.length_map, List.length_range, List.getElem_map,
          List.getElem_range] at halone
        simp only [entry, hcount, hshort, if_false, halone]
        exact ⟨trivial, rfl, ⟨tag, hp⟩, tag', hs⟩
  | whole p s =>
      obtain ⟨ps, ss, rfl, rfl, hall⟩ := h
      refine ⟨?_, ps, ss, rfl, rfl, hall⟩
      cases name <;> simp [entry, pick, numberIn, hall k hk]

/-- The tables have these numbers for `n` blocks, and keep them whatever is asked. -/
def Numbers (d : Directory) (data : ByteArray) (n : Nat) (place size : Nat → Nat) (t : Tables) :
    Prop :=
  ∃ kept : Tables → Prop, kept t ∧ ∀ t', kept t' → ∀ name, ∀ k < n,
    (t'.entry d data name k).1.number = pick name place size k ∧ kept (t'.entry d data name k).2

theorem Numbers.entry {t : Tables} (h : t.Numbers d data n place size) (name : TableName) {k : Nat}
    (hk : k < n) : (t.entry d data name k).1.number = pick name place size k ∧
      (t.entry d data name k).2.Numbers d data n place size := by
  obtain ⟨kept, ht, hall⟩ := h
  obtain ⟨hnumber, hnext⟩ := hall t ht name k hk
  exact ⟨hnumber, kept, hnext, hall⟩

theorem Answers.numbers {t : Tables} (h : t.Answers d data n place size) :
    t.Numbers d data n place size := by
  refine ⟨_, h, fun t' ht' name k hk => ?_⟩
  obtain ⟨hentry, hnext⟩ := ht'.entry_eq name hk
  exact ⟨congrArg Entry.number hentry, hnext⟩

end Tables

/-! ## Blocks -/

namespace Layout

/-- The bytes that a block takes: a tile is as large as all others, a strip has the rows that are
left. -/
def sizeOf (l : Layout) (block : Nat) : Nat := if l.filled then l.fullSize else l.askedSize block

theorem askedSize_le (l : Layout) (block : Nat) : l.askedSize block ≤ l.fullSize := by
  apply Nat.mul_le_mul_right
  unfold askedRows
  dsimp only
  split
  · exact Nat.sub_le _ _
  · exact le_rfl

theorem askedSize_le_sizeOf (l : Layout) (block : Nat) : l.askedSize block ≤ l.sizeOf block := by
  unfold sizeOf
  split
  · exact l.askedSize_le block
  · exact le_rfl

/-- A tall strip is as high as the raster, so all of its rows are asked for. -/
theorem askedSize_of_isTall {l : Layout} (htall : l.isTall = true) {block : Nat}
    (hblock : block < l.blocksPerPlane) : l.askedSize block = l.fullSize := by
  simp only [isTall, Bool.and_eq_true, beq_iff_eq, decide_eq_true_eq] at htall
  obtain ⟨⟨-, hrows⟩, hmany⟩ := htall
  have hpos : 0 < l.rows := Nat.zero_lt_of_lt hmany
  have hdown : l.blocksDown = 1 := by
    rw [blocksDown, hrows]
    exact Nat.div_eq_of_lt_le (by omega) (by omega)
  rw [blocksPerPlane, hdown, Nat.mul_one] at hblock
  rw [askedSize, Nat.div_eq_of_lt hblock, askedRows, Nat.zero_add, Nat.one_mul, hrows,
    if_neg (lt_irrefl _), fullSize, hrows]

end Layout

theorem Image.readSize_self (full : Nat) : Image.readSize full full = full := by
  apply if_neg
  omega

/-- A block with the size that it takes is there if it lies in the file. -/
theorem Image.blockOf_eq {l : Layout} {block : Nat} (hblock : block < l.blocksPerPlane)
    (hpos : 0 < l.sizeOf block) (place : Entry) {size : Entry}
    (hsize : size.number = l.sizeOf block) :
    Image.blockOf l data block place size =
      if place.number + l.sizeOf block ≤ data.size then .ok (.stored place.number)
      else .error .truncated := by
  -- where the declared size counts, it is that of a full block
  have hfull : Image.isSizeTrusted l block = true → l.sizeOf block = l.fullSize := by
    intro htrusted
    simp only [isSizeTrusted, Bool.or_eq_true, Bool.and_eq_true] at htrusted
    rcases htrusted with htall | ⟨hfilled, -⟩
    · rw [Layout.sizeOf, l.askedSize_of_isTall htall hblock, ite_self]
    · rw [Layout.sizeOf, if_pos hfilled]
  have hasked : Image.isSizeTrusted l block = false → l.askedSize block = l.sizeOf block := by
    intro huntrusted
    simp only [isSizeTrusted, Bool.or_eq_false_iff, Bool.and_eq_false_iff] at huntrusted
    rcases huntrusted.2 with hstrip | hsame
    · rw [Layout.sizeOf, hstrip, if_neg Bool.false_ne_true]
    · have hequal : l.askedSize block = l.fullSize := by simpa using hsame
      rw [Layout.sizeOf, hequal, ite_self]
  rw [blockOf, hsize]
  dsimp only
  rw [if_neg fun hempty => hpos.ne' hempty.1]
  cases htrusted : Image.isSizeTrusted l block with
  | true =>
      have hle := l.askedSize_le block
      simp only [hfull htrusted, readSize_self, if_true, Bool.not_true, Bool.false_or,
        Bool.and_eq_true, decide_eq_true_eq, hle, true_and]
  | false =>
      simp only [hasked htrusted, Bool.false_eq_true, if_false, Bool.not_false, Bool.true_or,
        Bool.true_and, decide_eq_true_eq]

namespace Image

variable {image : Image} {tables : Tables} {first : Nat} {blocks : Array Block}

/-- The blocks of a plane, from a first one on, are among `n` and have the sizes of the layout. -/
structure HasSizes (image : Image) (first n : Nat) (size : Nat → Nat) : Prop where
  le : first + image.layout.blocksPerPlane ≤ n
  pos : ∀ k < image.layout.blocksPerPlane, 0 < image.layout.sizeOf k
  eq : ∀ k < image.layout.blocksPerPlane, size (first + k) = image.layout.sizeOf k

/-- One more block. -/
theorem findBlocks_succ (h : tables.Numbers image.directory data n place size)
    (hsizes : image.HasSizes first n size) (count : Nat) (found : Array Block)
    (hnext : found.size < image.layout.blocksPerPlane) :
    ∃ tables', tables'.Numbers image.directory data n place size ∧
      image.findBlocks data first (count + 1) tables found =
        if place (first + found.size) + image.layout.sizeOf found.size ≤ data.size then
          image.findBlocks data first count tables'
            (found.push (.stored (place (first + found.size))))
        else .error .truncated := by
  have hindex : first + found.size < n := lt_of_lt_of_le (Nat.add_lt_add_left hnext _) hsizes.le
  obtain ⟨hsize, hkept⟩ := h.entry .sizes hindex
  obtain ⟨hplace, hkept'⟩ := hkept.entry .places hindex
  refine ⟨_, hkept', ?_⟩
  rw [Tables.pick, hsizes.eq _ hnext] at hsize
  rw [Tables.pick] at hplace
  rw [findBlocks]
  dsimp only
  rw [blockOf_eq hnext (hsizes.pos _ hnext) _ hsize, hplace]
  split_ifs <;> rfl

/-- Blocks that lie in the file are found, behind those that are found already. -/
theorem findBlocks_of_inside (h : tables.Numbers image.directory data n place size)
    (hsizes : image.HasSizes first n size) (count : Nat) (found : Array Block)
    (hcount : found.size + count ≤ image.layout.blocksPerPlane)
    (hinside : ∀ k < found.size + count, place (first + k) + image.layout.sizeOf k ≤ data.size)
    (hfound : ∀ k < found.size, found.getD k .missing = .stored (place (first + k))) :
    ∃ blocks, image.findBlocks data first count tables found = .ok blocks ∧
      ∀ k < found.size + count, blocks.getD k .missing = .stored (place (first + k)) := by
  -- on the blocks that are left; the tables may change, but go on answering as before
  induction count generalizing tables found with
  | zero => exact ⟨found, rfl, hfound⟩
  | succ count ih =>
      obtain ⟨tables', hkept, hstep⟩ := findBlocks_succ h hsizes count found (by omega)
      have hsum : (found.push (.stored (place (first + found.size)))).size + count =
          found.size + (count + 1) := by
        rw [Array.size_push]
        omega
      have hpushed : ∀ k < (found.push (.stored (place (first + found.size)))).size,
          (found.push (.stored (place (first + found.size)))).getD k .missing =
            .stored (place (first + k)) := by
        intro k hk
        rw [Array.size_push] at hk
        by_cases hlast : k = found.size
        · simp [hlast, Array.getD]
        · have hold : k < found.size := by omega
          rw [← hfound k hold]
          simp [Array.getD, hold, hk, Array.getElem_push_lt]
      obtain ⟨blocks, hblocks, hall⟩ := ih hkept _ (by omega)
        (fun k hk => hinside k (by omega)) hpushed
      rw [hstep, if_pos (hinside found.size (by omega))]
      exact ⟨blocks, hblocks, fun k hk => hall k (by omega)⟩

/-- Blocks that are found lie in the file. -/
theorem inside_of_findBlocks (h : tables.Numbers image.directory data n place size)
    (hsizes : image.HasSizes first n size) (count : Nat) (found : Array Block)
    (hcount : found.size + count ≤ image.layout.blocksPerPlane)
    (hok : image.findBlocks data first count tables found = .ok blocks) :
    ∀ k < found.size + count, found.size ≤ k →
      place (first + k) + image.layout.sizeOf k ≤ data.size := by
  induction count generalizing tables found with
  | zero => exact fun k hk hle => absurd hk (by omega)
  | succ count ih =>
      obtain ⟨tables', hkept, hstep⟩ := findBlocks_succ h hsizes count found (by omega)
      rw [hstep] at hok
      split_ifs at hok with hfits
      intro k hk hle
      by_cases hfirst : k = found.size
      · rwa [hfirst]
      · apply ih hkept _ _ hok k
        all_goals
          rw [Array.size_push]
          omega

theorem bandBlocks_of_inside {band : Nat}
    (h : image.tables.Numbers image.directory data n place size)
    (hsizes : image.HasSizes (image.layout.firstBlock band) n size)
    (hinside : ∀ k < image.layout.blocksPerPlane,
      place (image.layout.firstBlock band + k) + image.layout.sizeOf k ≤ data.size) :
    ∃ blocks, image.bandBlocks data band = .ok blocks ∧
      ∀ k < image.layout.blocksPerPlane,
        blocks.getD k .missing = .stored (place (image.layout.firstBlock band + k)) := by
  have hsum : (#[] : Array Block).size + image.layout.blocksPerPlane =
      image.layout.blocksPerPlane := Nat.zero_add _
  obtain ⟨blocks, hblocks, hall⟩ := findBlocks_of_inside h hsizes image.layout.blocksPerPlane #[]
    hsum.le (fun k hk => hinside k (hsum ▸ hk)) fun k hk => absurd hk (Nat.not_lt_zero k)
  exact ⟨blocks, hblocks, fun k hk => hall k (hsum.symm ▸ hk)⟩

theorem inside_of_bandBlocks {band : Nat}
    (h : image.tables.Numbers image.directory data n place size)
    (hsizes : image.HasSizes (image.layout.firstBlock band) n size)
    (hok : image.bandBlocks data band = .ok blocks) :
    ∀ k < image.layout.blocksPerPlane,
      place (image.layout.firstBlock band + k) + image.layout.sizeOf k ≤ data.size := by
  have hsum : (#[] : Array Block).size + image.layout.blocksPerPlane =
      image.layout.blocksPerPlane := Nat.zero_add _
  intro k hk
  exact inside_of_findBlocks h hsizes _ _ hsum.le hok k (hsum.symm ▸ hk) (Nat.zero_le k)

end Image

end PointElevation.Tiff
