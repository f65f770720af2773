import PointElevation.Proofs.Tiff.Stability

/-!
# A front part of the file of a picture

What is left of a picture of one band when the end of its file is missing?  All that the directory
says of one band stands in the entries themselves, so a front part with a directory announces the
picture (`Picture.Announced.of_append`).  Apart from the entries there are the blocks, both tables
and the text for missing data:

* A block that ends behind the front part is not found, as before
  (`Picture.Announced.holdsBand_of_read`).
* A table of sizes that ends there is not read, and without sizes no block is found
  (`Picture.WrittenIn.says_sizes_of_read`).
* A text that ends there is taken for none (`Plan.SaysText.text?_of_lost`).
* A table of places that ends there is taken for zeros, and blocks are read from the beginning of
  the file.  Nothing is said about this case here; it has a theory of its own.

So a front part with the places is read exactly if it has the directory, the sizes and the blocks
(`Picture.WrittenIn.exists_read_iff`), and then shows the picture with or without missing data
(`Picture.WrittenIn.shown_of_read`).
-/

namespace PointElevation.Tiff

variable {p : Picture} {plan : Plan} {data more : ByteArray} {tag code width i place : Nat}
  {values : List Nat}

/-! ## The directory of a front part -/

namespace Plan

theorem entry_add_le (hi : i < plan.tags.length) :
    plan.entry i + 12 ≤ plan.entry plan.tags.length := by
  unfold entry
  omega

/-- A front part with a directory has the directory of the file. -/
theorem Heads.of_readDirectory {d : Directory} (h : plan.Heads (data ++ more))
    (hread : readDirectory data = .ok d) : plan.Heads data := by
  have hsame : d = plan.directory (data ++ more) :=
    Except.ok.inj ((readDirectory_append more hread).symm.trans h.readDirectory_eq)
  obtain ⟨v, start, count, -, hvariant, hstart, hcount, hhead, hinside, -⟩ :=
    readDirectory_eq_ok_iff.mp hread
  have horder : d.order = plan.order := by
    rw [hsame]
    rfl
  rw [horder] at hvariant hstart hcount
  -- the head is the same, so the front part is read in the same variant and with as many entries
  have height : 8 ≤ data.size := le_trans (by cases v <;> decide) hhead
  have hmark := h.mark.of_append (by omega)
  have hplace := h.place.of_append (by omega)
  obtain rfl : v = .classic := by
    rw [variant?, hmark.natAt_eq] at hvariant
    exact (Option.some.inj hvariant).symm
  obtain rfl : plan.start = start := hplace.natAt_eq.symm.trans hstart
  have hcounted := h.count.of_append (Nat.le_of_add_right_le hinside)
  obtain rfl : plan.tags.length = count := hcounted.natAt_eq.symm.trans hcount
  have hends : plan.entry plan.tags.length ≤ data.size := hinside
  refine ⟨fun i hi => ?_, hmark, hplace, hcounted, h.count_pos, h.count_le, hends,
    fun i hi => ?_, h.nodup⟩
  · rw [← h.letters i hi, byteAt_append (by omega)]
  · have hentry := entry_add_le hi
    exact (h.tags i hi).of_append (by omega)

/-- An entry whose values lie in a front part of the file is there. -/
theorem Entry.of_append (h : plan.Heads data)
    (hentry : plan.Entry (data ++ more) tag code width values i place)
    (hinside : place + width * values.length ≤ data.size) :
    plan.Entry data tag code width values i place := by
  obtain ⟨hi, -⟩ := List.getElem?_eq_some_iff.mp hentry.tag
  have hends := h.inside
  have hbefore := entry_add_le hi
  refine ⟨hentry.tag, hentry.code.of_append (by omega), hentry.count.of_append (by omega),
    hentry.inline, fun happart => (hentry.apart happart).of_append (by omega), fun j hj => ?_⟩
  exact (hentry.values j hj).of_append (le_trans (end_le_end hj) hinside)

/-- A single value is in the entry. -/
theorem Says.of_append (h : plan.Heads data) (htold : plan.Says (data ++ more) tag values)
    (hsingle : values.length ≤ 1) : plan.Says data tag values := by
  obtain ⟨code, width, i, place, hcode, hentry⟩ := htold
  have hshort : width * values.length ≤ 4 := by
    calc width * values.length ≤ width * 1 := Nat.mul_le_mul_left _ hsingle
      _ ≤ 4 := by omega
  obtain ⟨hi, -⟩ := List.getElem?_eq_some_iff.mp hentry.tag
  have hplace := hentry.inline hshort
  have hends := h.inside
  have hbefore := entry_add_le hi
  exact ⟨code, width, i, place, hcode, hentry.of_append h (by omega)⟩

theorem SaysEach.of_append {n : Nat} (h : plan.Heads data)
    (htold : plan.SaysEach (data ++ more) tag 1 n) : plan.SaysEach data tag 1 n :=
  htold.imp (fun hone => hone.of_append h le_rfl) fun heach => heach.of_append h le_rfl

theorem Cut.of_append (h : plan.Heads data) (hcut : plan.Cut (data ++ more)) : plan.Cut data := by
  unfold Cut at hcut ⊢
  split at hcut
  · exact ⟨hcut.rows_pos, hcut.told.imp_left fun hrows => hrows.of_append h le_rfl, hcut.silent⟩
  · exact ⟨hcut.rows_pos, hcut.rows_lt, hcut.columns_pos, hcut.columns_lt,
      hcut.rows.of_append h le_rfl, hcut.columns.of_append h le_rfl, hcut.silent⟩

theorem directory_append (h : plan.Heads data) (more : ByteArray) :
    plan.directory (data ++ more) = plan.directory data := by
  apply congrArg (Directory.mk plan.order)
  apply List.map_congr_left
  intro i hi
  apply fieldAt_append
  exact le_trans (entry_add_le (List.mem_range.mp hi)) h.inside

end Plan

namespace Picture

variable {side : Option String} {r : Raster}

/-- A front part of a picture of one band announces it if the directory is there: everything that
is said of one band is said in the entries. -/
theorem Announced.of_append (hann : p.Announced plan (data ++ more)) (h : plan.Heads data)
    (hband : p.bands = 1) : p.Announced plan data where
  proper := hann.proper
  heads := h
  described :=
    { rows := hann.described.rows.of_append h le_rfl
      columns := hann.described.columns.of_append h le_rfl
      bands := hann.described.bands.imp_left fun htold => htold.of_append h le_rfl
      bits := by
        have htold := hann.described.bits
        rw [hband] at htold ⊢
        exact htold.of_append h
      format := by
        have htold := hann.described.format
        rw [hband] at htold ⊢
        exact htold.imp_left fun htold => htold.of_append h
      compression := hann.described.compression.imp_left fun htold => htold.of_append h le_rfl
      arrangement := hann.described.arrangement.imp_left fun htold => htold.of_append h le_rfl
      colours := hann.described.colours.imp_left fun ⟨n, hn, htold⟩ =>
        ⟨n, hn, htold.of_append h le_rfl⟩
      bitOrder := hann.described.bitOrder.imp_left fun htold => htold.of_append h le_rfl
      further := hann.described.further.imp_left fun ⟨kinds, hfew, hkinds, htold⟩ =>
        ⟨kinds, hfew, hkinds, htold.of_append h (hband ▸ hfew)⟩
      silent := hann.described.silent }
  cut := hann.cut.of_append h

/-- Where the blocks of a band are, its samples are too. -/
theorem WrittenIn.stands_of_append (h : p.WrittenIn plan (data ++ more))
    (hann : p.Announced plan data) {band : Nat} (hband : band < p.bands)
    (hholds : plan.HoldsBand data p band) : p.Stands plan data band := by
  intro row hrow column hcolumn
  apply (h.stands hband row hrow column hcolumn).of_append
  have hblock : (plan.layout p).blockOf row column < (plan.layout p).blocksPerPlane :=
    Layout.blockOf_lt hann.blockRows_pos hann.blockColumns_pos hrow hcolumn
  have hplace := hann.samplePlace_eq band column hrow
  have hends := (hann.holdsBand_iff band).mp hholds _ hblock
  have hasked := (plan.layout p).askedSize_le_sizeOf ((plan.layout p).blockOf row column)
  have hbits : (plan.layout p).placeInBlock band row column + p.type.bits ≤
      8 * (plan.layout p).askedSize ((plan.layout p).blockOf row column) :=
    Layout.place_add_bits_le hrow hcolumn hband hblock
  have hbytes := hann.bits_eq_mul
  omega

end Picture

/-! ## Many blocks -/

theorem Layout.firstBlock_zero (l : Layout) : l.firstBlock 0 = 0 := by
  rw [firstBlock, Nat.zero_mul, ite_self]

theorem Picture.Announced.blocksPerPlane_eq (h : p.Announced plan data) (hband : p.bands = 1) :
    (plan.layout p).blocksPerPlane = plan.blockCount p := by
  have hone : (plan.layout p).bands = 1 := hband
  rw [← h.blockCount_eq, Layout.blockCount, hone, Nat.one_mul, ite_self]

/-- Only a single strip is looked at before it is read. -/
theorem Picture.Announced.image_of_many (h : p.Announced plan data)
    (hmany : 2 ≤ plan.blockCount p) (places sizes : Field) :
    (plan.image p data places sizes).layout = plan.layout p ∧
      (plan.image p data places sizes).tables =
        .onDemand places sizes (plan.blockCount p) := by
  have hcount : (plan.layout p).blockCount = plan.blockCount p := h.blockCount_eq
  have hsingle : (plan.layout p).isSingleStrip = false := by
    have hne : ((plan.layout p).blockCount == 1) = false := beq_false_of_ne (by omega)
    rw [Layout.isSingleStrip, hne, Bool.and_false]
  simp only [Plan.image, Plan.tables, hsingle, Bool.false_eq_true, if_false, hcount]
  exact ⟨rfl, rfl⟩

/-! ## Lost values -/

section Lost

variable {d : Directory} {f : Field} {l : Layout}

/-- Numbers that end behind the file are not read. -/
theorem Directory.numbers_of_outside {bound : Nat} (hpos : 0 < f.count)
    (houtside : data.size < f.place + f.type.width * f.count) :
    (d.numbers data bound f).toOption = none := by
  have hreaches : f.reaches data f.count = false := by
    simp only [Field.reaches, Bool.and_eq_false_iff, decide_eq_false_iff_not]
    exact .inr (not_le.mpr houtside)
  unfold numbers
  rw [hreaches]
  split
  · rfl
  split
  · omega
  split
  · rfl
  · rfl

theorem Directory.table?_of_outside (hpos : 0 < f.count)
    (houtside : data.size < f.place + f.type.width * f.count) :
    d.table? data f.count f = none := by
  have hnone : (d.numbers data (Nat.pow 2 64) f).toOption = none :=
    d.numbers_of_outside hpos houtside
  unfold table?
  split
  · rfl
  · dsimp only
    rw [min_self]
    split
    · rename_i hread
      rw [hread] at hnone
      cases hnone
    · rfl

/-- The last number of a long table is not read alone either. -/
theorem Tables.alone?_of_outside {k : Nat} (hlast : k + 1 = f.count)
    (houtside : data.size < f.place + f.type.width * f.count) :
    alone? d data f f.count k = none := by
  have hwindow : data.size < windowEnd f f.count k := by
    -- the page of the last byte reaches beyond it
    refine lt_of_lt_of_le houtside (le_min ?_ le_rfl)
    show _ ≤ ((f.place + f.type.width * k + f.type.width - 1) / 4096 + 1) * 4096
    rw [← hlast, Nat.mul_succ]
    omega
  simp only [alone?, not_le.mpr hwindow, decide_false, Bool.and_false, Bool.false_eq_true, if_false]

/-- A block without a size is not found, if it has to have one. -/
theorem Image.blockOf_of_unsound {k : Nat} (hpos : 0 < l.sizeOf k) (place : Entry) :
    blockOf l data k place ⟨0, false⟩ = .error .truncated := by
  unfold blockOf
  dsimp only
  split
  · rfl
  · rename_i htall
    have htall : l.isTall = true := by simpa using htall
    have hunfilled : l.filled = false := by
      simp only [Layout.isTall, Bool.and_eq_true, Bool.not_eq_true'] at htall
      exact htall.1.1
    rw [Layout.sizeOf, hunfilled, if_neg Bool.false_ne_true] at hpos
    have htrusted : isSizeTrusted l k = true := by
      rw [isSizeTrusted, htall, Bool.true_or]
    simp [htrusted, hpos.ne']

/-- Blocks whose sizes end behind the file are not found. -/
theorem Image.findBlocks_of_outside {image : Image} {places sizes : Field} {n : Nat}
    {blocks : Array Block} (hplaces : places.count = n) (hsizes : sizes.count = n) (hpos : 0 < n)
    (houtside : data.size < sizes.place + sizes.type.width * sizes.count)
    (hsize : ∀ k < n, 0 < image.layout.sizeOf k) :
    image.findBlocks data 0 n (.onDemand places sizes n) #[] ≠ .ok blocks := by
  obtain ⟨fewer, rfl⟩ := Nat.exists_eq_add_of_le' hpos
  intro h
  by_cases hshort : fewer + 1 ≤ shortTable
  · -- both tables are read, and that of the sizes cannot be
    have hnone := image.directory.table?_of_outside (hsizes ▸ hpos) houtside
    rw [hsizes] at hnone
    have hfirst : ((Tables.onDemand places sizes (fewer + 1)).entry image.directory data .sizes
        (0 + (#[] : Array Block).size)).1 = ⟨0, false⟩ := by
      have hthere : places.count ≠ 0 := by omega
      simp only [Tables.entry, Tables.pick, hsizes, hshort, if_true, Tables.complete, hthere,
        if_false, hnone, Option.isSome_none, Bool.and_false]
      rfl
    have hneeded : 0 < image.layout.sizeOf (#[] : Array Block).size := hsize 0 hpos
    rw [findBlocks] at h
    dsimp only at h
    rw [hfirst, blockOf_of_unsound hneeded] at h
    cases h
  · -- the last number cannot be read
    have hlong : ∀ name, shortTable < (Tables.pick name places sizes).count := by
      intro name
      cases name
      · exact hplaces ▸ not_le.mp hshort
      · exact hsizes ▸ not_le.mp hshort
    obtain ⟨b, hb⟩ := exists_answer (Tables.steady_of_long _ data _ hlong) h (k := fewer)
      (Nat.zero_le _) (Nat.lt_add_left _ (Nat.lt_succ_self fewer))
    have hnone := Tables.alone?_of_outside (d := image.directory) hsizes.symm houtside
    rw [hsizes] at hnone
    have hlast : ((Tables.onDemand places sizes (fewer + 1)).entry image.directory data .sizes
        (0 + fewer)).1 = ⟨0, false⟩ := by
      rw [Nat.zero_add]
      simp only [Tables.entry, Tables.pick, hsizes, hshort, if_false, hnone]
    rw [answer, hlast, blockOf_of_unsound (hsize fewer (Nat.lt_succ_self fewer))] at hb
    cases hb

end Lost

/-- A text that ends behind the file is not declared. -/
theorem Plan.SaysText.text?_of_lost {text : List Char} (h : plan.Heads (data ++ more))
    (hheads : plan.Heads data) (htold : plan.SaysText (data ++ more) tag text)
    (hlost : ¬ plan.SaysText data tag text) : (plan.directory data).text? data tag = none := by
  obtain ⟨hletters, hshort, i, place, hentry⟩ := htold
  have houtside : data.size < place + 1 * (text.map Char.toNat ++ [0]).length := by
    by_contra hinside
    exact hlost ⟨hletters, hshort, i, place, hentry.of_append hheads (not_lt.mp hinside)⟩
  have hmem := hentry.mem h rfl
  rw [Plan.directory_append hheads more] at hmem
  have hfound := hheads.field?_eq hmem
  have hpos : 0 < (text.map Char.toNat ++ [0]).length := by simp
  rw [Directory.text?, hfound]
  show (do
    let codes ← ((plan.directory data).numbers data 256
      ⟨tag, ⟨.unsigned, 1⟩, (text.map Char.toNat ++ [0]).length, place⟩).toOption
    some ((codes.takeWhile (· ≠ 0)).map Char.ofNat)) = none
  rw [Directory.numbers_of_outside hpos houtside]
  rfl

/-! ## Reading a front part -/

namespace Picture

variable {side : Option String} {r : Raster}

namespace WrittenIn

variable (h : p.WrittenIn plan (data ++ more)) (hband : p.bands = 1)

include h hband

/-- If the table of sizes is lost in part, nothing is read, whatever the places are. -/
theorem says_sizes_of_read (hheads : plan.Heads data) {f : Field}
    (hmem : f ∈ (plan.directory data).fields) (htag : f.tag = plan.placesTag)
    (hcount : f.count = plan.blockCount p) (hread : read data side 0 = .ok r) :
    plan.Says data plan.sizesTag (plan.sizes p) := by
  have hann := h.toAnnounced.of_append hheads hband
  by_contra hlost
  obtain ⟨code, width, i, place, hcode, hentry⟩ := h.sizes
  have hwidth : (valueType code).width = width := by
    rcases hcode with ⟨rfl, rfl⟩ | ⟨rfl, rfl⟩ <;> rfl
  have houtside : data.size < place + width * (plan.sizes p).length := by
    by_contra hinside
    exact hlost ⟨code, width, i, place, hcode, hentry.of_append hheads (not_lt.mp hinside)⟩
  -- a single size would stand in its entry, so there are several blocks and no single strip
  have hmany : 2 ≤ (plan.sizes p).length := by
    by_contra hfew
    exact hlost (h.sizes.of_append hheads (by omega))
  let g : Field := ⟨plan.sizesTag, valueType code, (plan.sizes p).length, place⟩
  have hg : g ∈ (plan.directory data).fields := by
    rw [← Plan.directory_append hheads more]
    exact hentry.mem h.heads hwidth
  have hsizeCount : (plan.sizes p).length = plan.blockCount p := by rw [Plan.sizes]; simp
  have hplane := hann.blocksPerPlane_eq hband
  have himage := hann.image_of_many (by omega) f g
  have hpos : 0 < p.bands := by omega
  have hread' := (hann.read_eq ⟨hmem, htag, hg, rfl⟩ hpos).symm.trans hread
  cases hblocks : (plan.image p data f g).bandBlocks data 0 with
  | error defect => simp [hblocks, Except.map] at hread'
  | ok blocks =>
      rw [Image.bandBlocks, himage.1, himage.2, Layout.firstBlock_zero, hplane] at hblocks
      refine Image.findBlocks_of_outside hcount hsizeCount (by omega) ?_ ?_ hblocks
      · show data.size < place + (valueType code).width * _
        rwa [hwidth]
      · rw [himage.1]
        exact fun k hk => hann.sizeOf_pos (hplane ▸ hk)

omit hband in
/-- What is left of the declaration in a front part of the file: all of the text or nothing. -/
theorem text?_of_append (hheads : plan.Heads data) :
    ((∀ text, plan.declared = some text → plan.SaysText data noDataTag text) →
      (plan.directory data).text? data noDataTag = plan.declared) ∧
    ((∀ text, plan.declared = some text → ¬ plan.SaysText data noDataTag text) →
      (plan.directory data).text? data noDataTag = none) := by
  have hdeclared := h.declared
  cases hsaid : plan.declared with
  | none =>
      rw [hsaid] at hdeclared
      have hnone := hheads.text?_of_silent hdeclared
      exact ⟨fun _ => hnone, fun _ => hnone⟩
  | some text =>
      rw [hsaid] at hdeclared
      exact ⟨fun hkept => (hkept text rfl).text?_eq hheads,
        fun hlost => hdeclared.text?_of_lost h.heads hheads (hlost text rfl)⟩

/-- A front part of the file is read if it has the directory, the tables and the blocks, and only
then, as far as the places of the blocks are not lost. -/
theorem exists_read_iff
    (hplaces : plan.Heads data → plan.Says data plan.placesTag (plan.places p)) :
    (∃ r, read data side 0 = .ok r) ↔
      plan.Heads data ∧ plan.Says data plan.sizesTag (plan.sizes p) ∧ plan.HoldsBand data p 0 := by
  have hpos : 0 < p.bands := by omega
  constructor
  · rintro ⟨r, hread⟩
    obtain ⟨d, l, t, hdirectory, -⟩ := read_eq_ok_iff.mp hread
    have hheads := h.heads.of_readDirectory hdirectory
    have hann := h.toAnnounced.of_append hheads hband
    obtain ⟨f, hf⟩ := (hplaces hheads).tells hheads
    have hcount : f.count = plan.blockCount p := by
      rw [hf.count, Plan.places, List.length_map, List.length_range]
    have hsizes := h.says_sizes_of_read hband hheads hf.mem hf.tag hcount hread
    obtain ⟨g, hg⟩ := hsizes.tells hheads
    exact ⟨hheads, hsizes, hann.holdsBand_of_read hf hg hpos hread⟩
  · rintro ⟨hheads, hsizes, hholds⟩
    have hann := h.toAnnounced.of_append hheads hband
    obtain ⟨f, hf⟩ := (hplaces hheads).tells hheads
    obtain ⟨g, hg⟩ := hsizes.tells hheads
    have hstands := h.stands_of_append hann hpos hholds
    obtain ⟨r, hread, -⟩ := hann.exists_read side hf hg hpos hholds hstands
    exact ⟨r, hread⟩

/-- What is read from a front part is the picture; only the text for missing data may be lost. -/
theorem shown_of_read (hplaces : plan.Heads data → plan.Says data plan.placesTag (plan.places p))
    (hread : read data side 0 = .ok r) :
    ((∀ text, plan.declared = some text → plan.SaysText data noDataTag text) →
      p.Shown (plan.noData p (side.bind fun text => noDataNote? text 0)) 0 r) ∧
    ((∀ text, plan.declared = some text → ¬ plan.SaysText data noDataTag text) →
      p.Shown ({ plan with declared := none }.noData p
        (side.bind fun text => noDataNote? text 0)) 0 r) := by
  have hpos : 0 < p.bands := by omega
  obtain ⟨hheads, hsizes, hholds⟩ := (h.exists_read_iff hband hplaces).mp ⟨r, hread⟩
  have hann := h.toAnnounced.of_append hheads hband
  obtain ⟨f, hf⟩ := (hplaces hheads).tells hheads
  obtain ⟨g, hg⟩ := hsizes.tells hheads
  have hstands := h.stands_of_append hann hpos hholds
  obtain ⟨r', hread', hshown⟩ := hann.exists_read side hf hg hpos hholds hstands
  obtain rfl : r' = r := Except.ok.inj (hread'.symm.trans hread)
  obtain ⟨hkept, hlost⟩ := h.text?_of_append hheads
  constructor
  · intro hall
    rwa [Plan.noData_image (hkept hall)] at hshown
  · intro hnone
    have hsilent : (plan.directory data).text? data noDataTag =
        ({ plan with declared := none } : Plan).declared := hlost hnone
    rwa [Plan.noData_image hsilent] at hshown

end WrittenIn

end Picture

end PointElevation.Tiff
