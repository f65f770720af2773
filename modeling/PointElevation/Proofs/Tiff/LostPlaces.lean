import PointElevation.Proofs.Tiff.FrontPart

/-!
# A table of places that has lost its end

A front part of the file of a picture may end in the middle of the table of places, and a reader
does not notice.  A table of up to four numbers is read whole, so all of them are lost; a longer one
is read page by page, and what is lost are the numbers that end in a page that is not complete.  A
block without a place is then taken to begin with the file, header and all.

So the front part is read as if another plan had been followed (`Plan.salvaged`): it is read exactly
if it has the sizes, and all blocks where that plan has them
(`Picture.WrittenIn.exists_read_iff_of_lost`), and what is shown is what stands there
(`Picture.WrittenIn.yields_of_read_of_lost`).
-/

namespace PointElevation.Tiff

variable {p : Picture} {plan : Plan} {data more : ByteArray} {tag code width i place : Nat}
  {values : List Nat}

/-! ## Plans with other places -/

namespace Plan

/-- The plan with other places for its blocks. -/
def withPlaces (plan : Plan) (place : Nat → Nat) : Plan := { plan with place }

variable {place' : Nat → Nat}

theorem Heads.withPlaces (h : plan.Heads data) : (plan.withPlaces place').Heads data :=
  ⟨h.letters, h.mark, h.place, h.count, h.count_pos, h.count_le, h.inside, h.tags, h.nodup⟩

theorem Says.withPlaces (h : plan.Says data tag values) :
    (plan.withPlaces place').Says data tag values := by
  obtain ⟨code, width, i, place, hcode, hentry⟩ := h
  exact ⟨code, width, i, place, hcode, hentry.tag, hentry.code, hentry.count, hentry.inline,
    hentry.apart, hentry.values⟩

theorem SaysEach.withPlaces {bands n : Nat} (h : plan.SaysEach data tag bands n) :
    (plan.withPlaces place').SaysEach data tag bands n :=
  h.imp Says.withPlaces Says.withPlaces

theorem Cut.withPlaces (h : plan.Cut data) : (plan.withPlaces place').Cut data := by
  cases hcutting : plan.cutting with
  | strips rows =>
      have hstrips := h.strips hcutting
      unfold Cut
      rw [show (plan.withPlaces place').cutting = .strips rows from hcutting]
      exact ⟨hstrips.rows_pos, hstrips.told.imp_left Says.withPlaces, hstrips.silent⟩
  | tiles rows columns =>
      have htiles := h.tiles hcutting
      unfold Cut
      rw [show (plan.withPlaces place').cutting = .tiles rows columns from hcutting]
      exact ⟨htiles.rows_pos, htiles.rows_lt, htiles.columns_pos, htiles.columns_lt,
        htiles.rows.withPlaces, htiles.columns.withPlaces, htiles.silent⟩

end Plan

/-- Where the blocks begin does not matter to what a directory announces. -/
theorem Picture.Announced.withPlaces (h : p.Announced plan data) (place' : Nat → Nat) :
    p.Announced (plan.withPlaces place') data where
  proper := h.proper
  heads := h.heads.withPlaces
  described :=
    { rows := h.described.rows.withPlaces
      columns := h.described.columns.withPlaces
      bands := h.described.bands.imp_left Plan.Says.withPlaces
      bits := h.described.bits.withPlaces
      format := h.described.format.imp_left Plan.SaysEach.withPlaces
      compression := h.described.compression.imp_left Plan.Says.withPlaces
      arrangement := h.described.arrangement.imp_left Plan.Says.withPlaces
      colours := h.described.colours.imp_left fun ⟨n, hn, htold⟩ => ⟨n, hn, htold.withPlaces⟩
      bitOrder := h.described.bitOrder.imp_left Plan.Says.withPlaces
      further := h.described.further.imp_left fun ⟨kinds, hfew, hkinds, htold⟩ =>
        ⟨kinds, hfew, hkinds, htold.withPlaces⟩
      silent := h.described.silent }
  cut := h.cut.withPlaces

/-! ## What is left of a table -/

/-- The place of a block is still known: the table is not read whole, and the page in which the
number ends is complete. -/
def Plan.Known (plan : Plan) (p : Picture) (data : ByteArray) (width place k : Nat) : Prop :=
  shortTable < plan.blockCount p ∧
    ((place + width * k + width - 1) / pageSize + 1) * pageSize ≤ data.size

instance (plan : Plan) (p : Picture) (data : ByteArray) (width place k : Nat) :
    Decidable (plan.Known p data width place k) := inferInstanceAs (Decidable (_ ∧ _))

/-- The plan as far as it is still known from a table at a place.  All other blocks begin with the
file. -/
def Plan.salvaged (plan : Plan) (p : Picture) (data : ByteArray) (width place : Nat) : Plan :=
  plan.withPlaces fun k => if plan.Known p data width place k then plan.place k else 0

theorem Picture.Announced.salvaged (h : p.Announced plan data) (width place : Nat) :
    p.Announced (plan.salvaged p data width place) data := h.withPlaces _

section Tables

variable {d : Directory} {f g : Field} {n : Nat} {size : Nat → Nat}

/-- Of a table that ends behind the file, a number is read if its page is complete. -/
theorem Tables.alone?_of_lost (hpaged : isPaged f.type = true)
    (houtside : data.size < f.place + f.type.width * f.count) {k : Nat} (hk : k < f.count) :
    alone? d data f f.count k =
      if ((f.place + f.type.width * k + f.type.width - 1) / pageSize + 1) * pageSize ≤ data.size
        then some (d.valueBits data f k) else none := by
  have hwindow : windowEnd f f.count k ≤ data.size ↔
      ((f.place + f.type.width * k + f.type.width - 1) / pageSize + 1) * pageSize ≤ data.size :=
    min_le_iff.trans (or_iff_left (not_le.mpr houtside))
  simp only [alone?, hk, hpaged, hwindow, decide_true, Bool.true_and, decide_eq_true_eq]

/-- A short table of which the end is lost has no places at all. -/
theorem Tables.numbers_of_short (hf : f.count = n)
    (houtside : data.size < f.place + f.type.width * f.count)
    (hg : d.Tells data tag ((List.range n).map size) g) (hshort : n ≤ shortTable) :
    (Tables.onDemand f g n).Numbers d data n (fun _ => 0) size := by
  have hgcount : g.count = n := by rw [hg.count, List.length_map, List.length_range]
  by_cases hpos : 0 < n
  · have hplaces := d.table?_of_outside (hf ▸ hpos) houtside
    have hsizes := hg.table?_eq (hgcount ▸ le_trans hshort (by decide))
    rw [List.length_map, List.length_range] at hsizes
    have hcomplete : complete d data f g n =
        (none, some ((List.range n).map size).toArray) := by
      rw [complete, if_neg (by omega), hsizes, ← hf, hplaces]
    -- the first question has both tables read
    refine ⟨fun t => t = .onDemand f g n ∨
      t = .whole none (some ((List.range n).map size).toArray), .inl rfl, ?_⟩
    rintro t (rfl | rfl) name k hk
    · have hown : (pick name f g).count ≤ shortTable := by
        cases name
        · exact hf ▸ hshort
        · exact hgcount ▸ hshort
      simp only [entry, hown, if_true, hcomplete]
      refine ⟨?_, .inr trivial⟩
      cases name
      · rfl
      · exact getD_toArray_range size hk
    · refine ⟨?_, .inr rfl⟩
      cases name
      · rfl
      · exact getD_toArray_range size hk
  · refine ⟨fun _ => True, trivial, fun _ _ _ k hk => ?_⟩
    omega

/-- A long table keeps the places of which the page is complete. -/
theorem Tables.numbers_of_long {value : Nat → Nat} (hf : f.count = n)
    (hpaged : isPaged f.type = true) (houtside : data.size < f.place + f.type.width * f.count)
    (hvalue : ∀ k < n, f.place + f.type.width * k + f.type.width ≤ data.size →
      d.valueBits data f k = value k)
    (hg : d.Tells data tag ((List.range n).map size) g) (hlong : shortTable < n) :
    (Tables.onDemand f g n).Numbers d data n (fun k =>
      if ((f.place + f.type.width * k + f.type.width - 1) / pageSize + 1) * pageSize ≤ data.size
        then value k else 0) size := by
  have hlength : ((List.range n).map size).length = n := by
    rw [List.length_map, List.length_range]
  have hgcount : g.count = n := hg.count.trans hlength
  refine ⟨fun t => t = .onDemand f g n, rfl, ?_⟩
  rintro t rfl name k hk
  cases name with
  | places =>
      have halone := Tables.alone?_of_lost (d := d) hpaged houtside (hf.symm ▸ hk)
      rw [hf] at halone
      by_cases hpage :
          ((f.place + f.type.width * k + f.type.width - 1) / pageSize + 1) * pageSize ≤ data.size
      · -- the page goes on at least to the end of the number
        have hends : f.place + f.type.width * k + f.type.width ≤ data.size := by
          have hlast := Nat.lt_mul_div_succ (f.place + f.type.width * k + f.type.width - 1)
            (by decide : 0 < pageSize)
          rw [Nat.mul_comm pageSize] at hlast
          omega
        rw [if_pos hpage] at halone
        simp only [entry, pick, hf, not_le.mpr hlong, if_false, halone, hpage, if_true]
        exact ⟨hvalue k hk hends, trivial⟩
      · rw [if_neg hpage] at halone
        simp only [entry, pick, hf, not_le.mpr hlong, if_false, halone, hpage]
        exact ⟨trivial, trivial⟩
  | sizes =>
      have halone := hg.alone?_eq (k := k) (hlength.symm ▸ hk)
      simp only [List.length_map, List.length_range, List.getElem_map,
        List.getElem_range] at halone
      simp only [entry, pick, hgcount, not_le.mpr hlong, if_false, halone]
      exact ⟨trivial, trivial⟩

end Tables

/-! ## Reading what is left -/

namespace Picture.WrittenIn

variable {side : Option String} {r : Raster}

variable (h : p.WrittenIn plan (data ++ more)) (hband : p.bands = 1) (hheads : plan.Heads data)
  (hcode : code = 3 ∧ width = 2 ∨ code = 4 ∧ width = 4)
  (hentry : plan.Entry (data ++ more) plan.placesTag code width (plan.places p) i place)
  (hlost : ¬ plan.Says data plan.placesTag (plan.places p))

include h hheads hcode hentry hlost

/-- The field of a table that has lost its end. -/
theorem exists_field_of_lost : ∃ f ∈ (plan.directory data).fields, f.tag = plan.placesTag ∧
    f.type = ⟨.unsigned, width⟩ ∧ f.count = plan.blockCount p ∧ f.place = place ∧
      data.size < place + width * plan.blockCount p ∧ 2 ≤ plan.blockCount p := by
  have htype : valueType code = ⟨.unsigned, width⟩ := by
    rcases hcode with ⟨rfl, rfl⟩ | ⟨rfl, rfl⟩ <;> rfl
  have hlength : (plan.places p).length = plan.blockCount p := by
    rw [Plan.places, List.length_map, List.length_range]
  have hmem := hentry.mem h.heads (by rw [htype])
  rw [Plan.directory_append hheads more] at hmem
  refine ⟨_, hmem, rfl, htype, hlength, rfl, ?_, ?_⟩
  · by_contra hinside
    rw [← hlength] at hinside
    exact hlost ⟨code, width, i, place, hcode, hentry.of_append hheads (not_lt.mp hinside)⟩
  · -- a single place would stand in its entry
    by_contra hfew
    have hsaid : plan.Says (data ++ more) plan.placesTag (plan.places p) :=
      ⟨code, width, i, place, hcode, hentry⟩
    exact hlost (hsaid.of_append hheads (by omega))

omit h hheads hcode hlost in
/-- A place that is still there is the one of the plan. -/
theorem valueBits_of_lost {f : Field} (htype : f.type = ⟨.unsigned, width⟩)
    (hplace : f.place = place) {k : Nat} (hk : k < plan.blockCount p)
    (hinside : f.place + f.type.width * k + f.type.width ≤ data.size) :
    (plan.directory data).valueBits data f k = plan.place k := by
  have hlength : (plan.places p).length = plan.blockCount p := by
    rw [Plan.places, List.length_map, List.length_range]
  rw [htype, hplace] at hinside
  have hread := ((hentry.values k (hlength.symm ▸ hk)).of_append hinside).natAt_eq
  simp only [Plan.places, List.getElem_map, List.getElem_range] at hread
  rw [Directory.valueBits, htype, hplace]
  exact hread

include hband

/-- The image of the front part leads to where the salvaged plan has the samples. -/
theorem leads_of_lost {g : Field}
    (hg : (plan.directory data).Tells data plan.sizesTag (plan.sizes p) g) :
    ∃ f, (plan.salvaged p data width place).Locates data f g ∧
      (plan.image p data f g).Leads p (plan.salvaged p data width place) data (plan.blockCount p)
        (plan.salvaged p data width place).place (plan.sizeAt p) := by
  obtain ⟨f, hmem, htag, htype, hcount, hplace, houtside, hmany⟩ :=
    h.exists_field_of_lost hheads hcode hentry hlost
  have hann := h.toAnnounced.of_append hheads hband
  have houtside' : data.size < f.place + f.type.width * f.count := by
    rw [hplace, htype, hcount]
    exact houtside
  have hwidth : 2 ≤ width := by omega
  have hpaged : Tables.isPaged f.type = true := by simp [Tables.isPaged, htype, hwidth]
  obtain ⟨hlayout, htables⟩ := hann.image_of_many hmany f g
  refine ⟨f, ⟨hmem, htag, hg.mem, hg.tag⟩, (hann.salvaged width place).leads hlayout ?_⟩
  show (plan.image p data f g).tables.Numbers (plan.directory data) data _ _ _
  rw [htables]
  by_cases hshort : plan.blockCount p ≤ shortTable
  · have hnone : (plan.salvaged p data width place).place = fun _ => 0 := by
      funext k
      exact if_neg fun hknown => absurd hknown.1 (not_lt.mpr hshort)
    rw [hnone]
    exact Tables.numbers_of_short hcount houtside' hg hshort
  · have hsome : (plan.salvaged p data width place).place = fun k =>
        if ((f.place + f.type.width * k + f.type.width - 1) / pageSize + 1) * pageSize ≤ data.size
          then plan.place k else 0 := by
      funext k
      simp only [Plan.salvaged, Plan.withPlaces, Plan.Known, not_le.mp hshort, true_and, htype,
        hplace]
    rw [hsome]
    exact Tables.numbers_of_long hcount hpaged houtside'
      (fun k hk hinside => valueBits_of_lost hentry htype hplace hk hinside) hg (not_le.mp hshort)

/-- A front part with the directory that has lost some of the places is read if it has the sizes,
and the blocks where they are taken to be, and only then. -/
theorem exists_read_iff_of_lost :
    (∃ r, read data side 0 = .ok r) ↔ plan.Says data plan.sizesTag (plan.sizes p) ∧
      (plan.salvaged p data width place).HoldsBand data p 0 := by
  have hpos : 0 < p.bands := by omega
  have hann := (h.toAnnounced.of_append hheads hband).salvaged width place
  constructor
  · rintro ⟨r, hread⟩
    obtain ⟨f, hmem, htag, -, hcount, -⟩ := h.exists_field_of_lost hheads hcode hentry hlost
    have hsizes := h.says_sizes_of_read hband hheads hmem htag hcount hread
    obtain ⟨g, hg⟩ := hsizes.tells hheads
    obtain ⟨f, hl, hleads⟩ := h.leads_of_lost hband hheads hcode hentry hlost hg
    exact ⟨hsizes, hann.holdsBand_of_leads hl hleads hpos hread⟩
  · rintro ⟨hsizes, hholds⟩
    obtain ⟨g, hg⟩ := hsizes.tells hheads
    obtain ⟨f, hl, hleads⟩ := h.leads_of_lost hband hheads hcode hentry hlost hg
    obtain ⟨r, hread, -⟩ := hann.exists_read_of_leads side hl hleads hpos hholds
    exact ⟨r, hread⟩

/-- What is read then is what stands where the blocks are taken to be; the text for missing data may
be lost too. -/
theorem yields_of_read_of_lost (hread : read data side 0 = .ok r) :
    ((∀ text, plan.declared = some text → plan.SaysText data noDataTag text) →
      (plan.salvaged p data width place).Yields p data
        (plan.noData p (side.bind fun text => noDataNote? text 0)) 0 r) ∧
    ((∀ text, plan.declared = some text → ¬ plan.SaysText data noDataTag text) →
      (plan.salvaged p data width place).Yields p data
        ({ plan with declared := none }.noData p (side.bind fun text => noDataNote? text 0)) 0
        r) := by
  have hpos : 0 < p.bands := by omega
  have hann := (h.toAnnounced.of_append hheads hband).salvaged width place
  obtain ⟨hsizes, hholds⟩ :=
    (h.exists_read_iff_of_lost hband hheads hcode hentry hlost).mp ⟨r, hread⟩
  obtain ⟨g, hg⟩ := hsizes.tells hheads
  obtain ⟨f, hl, hleads⟩ := h.leads_of_lost hband hheads hcode hentry hlost hg
  obtain ⟨r', hread', hyields⟩ := hann.exists_read_of_leads side hl hleads hpos hholds
  obtain rfl : r' = r := Except.ok.inj (hread'.symm.trans hread)
  have himage : (plan.salvaged p data width place).image p data f g = plan.image p data f g := rfl
  rw [himage] at hyields
  obtain ⟨hkept, hdropped⟩ := h.text?_of_append hheads
  constructor
  · intro hall
    rwa [Plan.noData_image (hkept hall)] at hyields
  · intro hnone
    have hsilent : (plan.directory data).text? data noDataTag =
        ({ plan with declared := none } : Plan).declared := hdropped hnone
    rwa [Plan.noData_image hsilent] at hyields

end Picture.WrittenIn

end PointElevation.Tiff
