import Mathlib.Tactic.Common
import PointElevation.Proofs.Host.Ending
import PointElevation.Proofs.Tiff.Fields
import PointElevation.Tiff.Image

/-!
# What a reader learns from the directory

Each question that `Image.ofDirectory` asks has one answer for a file that describes a picture: the
numbers of the picture and of its plan, or what goes without saying.  The checks of all fields pass,
since a field is either described or not looked at.  `Plan.layout` is the layout that comes out of
this; the rows of a strip are never more than the picture has.

The tables of blocks are only found here (`Plan.Locates`); what is in them comes later, so all of
this also holds of the front part of a file, if the directory is in it.
-/

namespace PointElevation.Tiff

variable {p : Picture} {plan : Plan} {data : ByteArray} {tag n default bound : Nat}
  {values : List Nat} {f : Field}

/-! ## Fields that say something or are left out -/

namespace Plan

/-- A field says a number, or that is the one that goes without saying. -/
def SaysOr (plan : Plan) (data : ByteArray) (tag default n : Nat) : Prop :=
  plan.Says data tag [n] ∨ n = default ∧ plan.Silent tag

/-- The field with a tag is the one that tells the numbers. -/
theorem Says.tells_of_tag (hfield : plan.Says data tag values) (h : plan.Heads data)
    (hf : f ∈ (plan.directory data).fields) (htag : f.tag = tag) :
    (plan.directory data).Tells data tag values f := by
  obtain ⟨g, hg⟩ := hfield.tells h
  have hsame : f = g := h.eq_of_tag_eq hf hg.mem (htag.trans hg.tag.symm)
  rwa [hsame]

theorem SaysEach.tells_of_tag {bands : Nat} (hfield : plan.SaysEach data tag bands n)
    (h : plan.Heads data) (hf : f ∈ (plan.directory data).fields) (htag : f.tag = tag) :
    (plan.directory data).TellsEach data tag bands n f :=
  hfield.imp (fun hone => hone.tells_of_tag h hf htag) fun heach => heach.tells_of_tag h hf htag

theorem SaysEach.exists_field {bands : Nat} (hfield : plan.SaysEach data tag bands n)
    (h : plan.Heads data) : ∃ f ∈ (plan.directory data).fields, f.tag = tag := by
  rcases hfield with hfield | hfield <;>
  · obtain ⟨f, hf⟩ := hfield.tells h
    exact ⟨f, hf.mem, hf.tag⟩

namespace Heads

variable (h : plan.Heads data)

include h

theorem tag_ne (hf : f ∈ (plan.directory data).fields) (hsilent : plan.Silent tag) :
    f.tag ≠ tag := by
  intro htag
  exact hsilent (htag ▸ h.tag_mem hf)

theorem valueOr_of_silent (hsilent : plan.Silent tag) (read : Field → Except FieldFault Nat) :
    (plan.directory data).valueOr tag default read = .ok default := by
  rw [Directory.valueOr, h.field?_of_silent hsilent]

theorem valueOr_of_mem {read : Field → Except FieldFault Nat}
    (hf : f ∈ (plan.directory data).fields) (htag : f.tag = tag) (hread : read f = .ok n) :
    (plan.directory data).valueOr tag default read = .ok n := by
  rw [Directory.valueOr, ← htag, h.field?_eq hf]
  show (read f).mapError _ = _
  rw [hread]
  rfl

/-- The answer for a field with one number. -/
theorem valueOr_number (hfield : plan.SaysOr data tag default n) (hbound : n < bound) :
    (plan.directory data).valueOr tag default ((plan.directory data).number data bound) =
      .ok n := by
  rcases hfield with hfield | ⟨rfl, hsilent⟩
  · obtain ⟨f, hf⟩ := hfield.tells h
    exact h.valueOr_of_mem hf.mem hf.tag (hf.number_eq hbound)
  · exact h.valueOr_of_silent hsilent _

/-- The answer for a field with one number for all bands. -/
theorem valueOr_shared {bands : Nat}
    (hfield : plan.SaysEach data tag bands n ∨ n = default ∧ plan.Silent tag)
    (hpos : 0 < bands) (hbands : bands < Directory.shortBound) (hn : n < Directory.shortBound) :
    (plan.directory data).valueOr tag default ((plan.directory data).shared data bands) =
      .ok n := by
  rcases hfield with hfield | ⟨rfl, hsilent⟩
  · obtain ⟨f, hf, htag⟩ := hfield.exists_field h
    have hread := (hfield.tells_of_tag h hf htag).shared_eq hpos hbands hn
    exact h.valueOr_of_mem hf htag hread
  · exact h.valueOr_of_silent hsilent _

end Heads

end Plan

namespace Directory

variable {d : Directory}

theorem valueOrIgnored_eq {read : Field → Except FieldFault Nat}
    (h : d.valueOr tag default read = .ok n) : d.valueOrIgnored tag default read = n := by
  rw [valueOrIgnored, h]
  rfl

theorem mapError_eq_ok_iff {ε ε' α : Type} {g : ε → ε'} {x : Except ε α} {a : α} :
    x.mapError g = .ok a ↔ x = .ok a := by
  cases x <;> simp [Except.mapError]

/-- All fields pass if each of them does. -/
theorem checkFields_eq_ok_iff {check : Field → Except FieldFault Unit} :
    d.checkFields check = .ok () ↔ ∀ f ∈ d.fields, check f = .ok () := by
  unfold checkFields
  induction d.fields with
  | nil => simp [List.forM, pure, Except.pure]
  | cons f rest ih =>
      rw [List.forall_mem_cons, ← ih, List.forM]
      constructor
      · intro h
        obtain ⟨⟨⟩, hfirst, hrest⟩ := exists_of_bind_eq_ok h
        exact ⟨mapError_eq_ok_iff.mp hfirst, hrest⟩
      · rintro ⟨hfirst, hrest⟩
        rw [hfirst]
        exact hrest

end Directory

/-! ## The picture -/

namespace Picture.Announced

variable (h : p.Announced plan data)

include h

theorem bands_eq : (plan.directory data).bands data = .ok p.bands := by
  have hread : ∀ f, (plan.directory data).Tells data bandsTag [p.bands] f →
      (do let n ← (plan.directory data).number data Directory.shortBound f
          if n = 0 then throw (.value n)
          pure n) = (.ok p.bands : Except FieldFault Nat) := by
    intro f hf
    have hnumber : (plan.directory data).number data Directory.shortBound f = .ok p.bands :=
      hf.number_eq h.proper.bands_lt
    rw [hnumber]
    show (if p.bands = 0 then _ else _) = _
    exact if_neg h.proper.bands_pos.ne'
  rcases h.described.bands with hfield | ⟨hone, hsilent⟩
  · obtain ⟨f, hf⟩ := hfield.tells h.heads
    exact h.heads.valueOr_of_mem hf.mem hf.tag (hread f hf)
  · rw [hone]
    exact h.heads.valueOr_of_silent hsilent _

theorem compression_eq : (plan.directory data).valueOr compressionTag 1
    ((plan.directory data).shared data p.bands) = .ok 1 := by
  apply h.heads.valueOr_shared _ h.proper.bands_pos h.proper.bands_lt (by decide)
  exact h.described.compression.imp .inl fun hsilent => ⟨rfl, hsilent⟩

theorem rows_eq : (plan.directory data).extent data rowsTag 0 = p.rows := by
  apply Directory.valueOrIgnored_eq
  exact h.heads.valueOr_number (.inl h.described.rows) (lt_trans h.proper.rows_lt (by decide))

theorem columns_eq : (plan.directory data).extent data columnsTag 0 = p.columns := by
  apply Directory.valueOrIgnored_eq
  exact h.heads.valueOr_number (.inl h.described.columns) (lt_trans h.proper.columns_lt (by decide))

theorem rasterShape_eq : (plan.directory data).rasterShape data = .ok (p.rows, p.columns) := by
  obtain ⟨f, hf⟩ := h.described.rows.tells h.heads
  have hthere : ((plan.directory data).field? rowsTag).isNone = false := by
    rw [← hf.tag, h.heads.field?_eq hf.mem]
    rfl
  have hshape := And.intro h.proper.rows_pos (And.intro h.proper.rows_lt
    (And.intro h.proper.columns_pos h.proper.columns_lt))
  unfold Directory.rasterShape
  rw [hthere, h.rows_eq, h.columns_eq]
  exact if_pos hshape

theorem isInterleaved_eq : (plan.directory data).isInterleaved data = plan.interleaved := by
  have hanswer : (plan.directory data).valueOrIgnored arrangementTag 1
      ((plan.directory data).number data Directory.shortBound) =
        if plan.interleaved then 1 else 2 := by
    apply Directory.valueOrIgnored_eq
    apply h.heads.valueOr_number
    · refine h.described.arrangement.imp_right fun hleft => ?_
      exact ⟨by rw [hleft.1]; rfl, hleft.2⟩
    · split <;> decide
  rw [Directory.isInterleaved, hanswer]
  cases plan.interleaved <;> rfl

theorem colours_le : (plan.directory data).colours data ≤ 2 := by
  have hanswer : ∃ n ≤ 2, plan.SaysOr data coloursTag 0 n := by
    rcases h.described.colours with ⟨n, hn, hfield⟩ | hsilent
    · exact ⟨n, hn, .inl hfield⟩
    · exact ⟨0, Nat.zero_le 2, .inr ⟨rfl, hsilent⟩⟩
  obtain ⟨n, hn, hfield⟩ := hanswer
  have hbound : n < Directory.shortBound := lt_of_le_of_lt hn (by decide)
  rw [Directory.colours, Directory.valueOrIgnored_eq (h.heads.valueOr_number hfield hbound)]
  exact hn

theorem bitsReversed_eq : (plan.directory data).bitsReversed data = false := by
  have hanswer : (plan.directory data).valueOrIgnored bitOrderTag 1
      ((plan.directory data).number data Directory.shortBound) = 1 := by
    apply Directory.valueOrIgnored_eq
    apply h.heads.valueOr_number _ (by decide)
    exact h.described.bitOrder.imp_right fun hsilent => ⟨rfl, hsilent⟩
  rw [Directory.bitsReversed, hanswer]
  rfl

/-! ### The samples -/

theorem bits_lt : p.type.bits < Directory.shortBound := by
  have hbits := h.proper.plain.bits_eq
  simp only [Directory.shortBound, Nat.pow_eq]
  omega

theorem bits_eq : (plan.directory data).sampleBits data p.bands = p.type.bits := by
  apply Directory.valueOrIgnored_eq
  have hbits := h.bits_lt
  exact h.heads.valueOr_shared (.inl h.described.bits) h.proper.bands_pos h.proper.bands_lt hbits

omit h in
theorem code_bounds (t : SampleType) : 0 < t.code ∧ t.code ≤ 3 := by
  unfold SampleType.code
  split <;> decide

theorem format_eq : (plan.directory data).valueOrIgnored sampleFormatTag 1
    ((plan.directory data).shared data p.bands) = p.type.code := by
  apply Directory.valueOrIgnored_eq
  apply h.heads.valueOr_shared _ h.proper.bands_pos h.proper.bands_lt
  · exact lt_of_le_of_lt (code_bounds p.type).2 (by decide)
  · exact h.described.format.imp_right fun ⟨hkind, hsilent⟩ =>
      ⟨by rw [SampleType.code, hkind], hsilent⟩

/-- The code of the samples is told by one field, or it is the first without it. -/
theorem code_eq : (plan.directory data).sampleCode data p.bands = p.type.code := by
  -- of the two fields that could tell it the last one counts, but one of them is never there
  have hother : ∀ f ∈ (plan.directory data).fields, f.tag ≠ dataTypeTag := fun f hf =>
    h.heads.tag_ne hf (h.described.silent _ (by simp))
  have hformat := h.format_eq
  unfold Directory.sampleCode
  rcases h.described.format with hfield | ⟨hkind, hsilent⟩
  · obtain ⟨f, hf, htag⟩ := hfield.exists_field h.heads
    have hlast : ((plan.directory data).fields.filter fun f =>
        decide (f.tag ∈ [sampleFormatTag, dataTypeTag])).getLast? = some f := by
      apply getLast?_filter_of_unique hf (by simp [htag])
      intro g hg hmem
      have htags : g.tag = sampleFormatTag := by simpa [hother g hg] using hmem
      exact h.heads.eq_of_tag_eq hg hf (htags.trans htag.symm)
    rw [hlast]
    simp only [htag, hformat]
    rfl
  · have hnone : (plan.directory data).fields.filter (fun f =>
        decide (f.tag ∈ [sampleFormatTag, dataTypeTag])) = [] := by
      apply List.filter_eq_nil_iff.mpr
      intro f hf
      simp [hother f hf, h.heads.tag_ne hf hsilent]
    rw [hnone, SampleType.code, hkind]
    rfl

omit h in
/-- The codes of a plain type stand for the type. -/
theorem ofCodes?_plain {t : SampleType} (ht : t.IsPlain) (bands : Nat) :
    SampleType.ofCodes? t.bits t.code bands = some t := by
  obtain ⟨kind, bits⟩ := t
  rcases ht with ⟨rfl | rfl, hbits⟩ | ⟨rfl, hbits⟩
  all_goals
    simp only [List.mem_cons, List.not_mem_nil, or_false] at hbits
    rcases hbits with rfl | rfl | rfl | rfl <;> simp [SampleType.ofCodes?, SampleType.code]

/-! ### Checks -/

theorem exists_extent (hf : f ∈ (plan.directory data).fields)
    (htag : f.tag ∈ [columnsTag, rowsTag, tileColumnsTag, tileRowsTag]) :
    ∃ n, plan.Says data f.tag [n] := by
  simp only [List.mem_cons, List.not_mem_nil, or_false] at htag
  cases hcutting : plan.cutting with
  | strips rows =>
      have hsilent := (h.cut.strips hcutting).silent
      rcases htag with htag | htag | htag | htag
      · exact ⟨p.columns, htag ▸ h.described.columns⟩
      · exact ⟨p.rows, htag ▸ h.described.rows⟩
      · exact absurd htag (h.heads.tag_ne hf (hsilent _ (by simp)))
      · exact absurd htag (h.heads.tag_ne hf (hsilent _ (by simp)))
  | tiles rows columns =>
      have htiles := h.cut.tiles hcutting
      rcases htag with htag | htag | htag | htag
      · exact ⟨p.columns, htag ▸ h.described.columns⟩
      · exact ⟨p.rows, htag ▸ h.described.rows⟩
      · exact ⟨columns, htag ▸ htiles.columns⟩
      · exact ⟨rows, htag ▸ htiles.rows⟩

theorem exists_stripRows (hf : f ∈ (plan.directory data).fields) (htag : f.tag = stripRowsTag) :
    ∃ n ≠ 0, plan.Says data stripRowsTag [n] := by
  cases hcutting : plan.cutting with
  | strips rows =>
      have hstrips := h.cut.strips hcutting
      rcases hstrips.told with hfield | ⟨-, hsilent⟩
      · exact ⟨rows, hstrips.rows_pos.ne', hfield⟩
      · exact absurd htag (h.heads.tag_ne hf hsilent)
  | tiles rows columns =>
      have hsilent := (h.cut.tiles hcutting).silent stripRowsTag (by simp)
      exact absurd htag (h.heads.tag_ne hf hsilent)

theorem checkShape_eq (hf : f ∈ (plan.directory data).fields) :
    (plan.directory data).checkShape data p.bands f = .ok () := by
  unfold Directory.checkShape
  split
  · rename_i htag
    obtain ⟨n, hfield⟩ := h.exists_extent hf htag
    have htold := hfield.tells_of_tag h.heads hf rfl
    rw [htold.number_eq (htold.lt n (List.mem_singleton_self n))]
    rfl
  split
  · rename_i htag
    obtain ⟨n, hn, hfield⟩ := h.exists_stripRows hf htag
    have htold := hfield.tells_of_tag h.heads hf htag
    rw [htold.number_eq (htold.lt n (List.mem_singleton_self n))]
    exact if_neg hn
  split
  · rename_i htag
    rcases h.described.arrangement with hfield | ⟨-, hsilent⟩
    · have htold := hfield.tells_of_tag h.heads hf htag
      rw [htold.number_eq (by split <;> decide)]
      cases plan.interleaved <;> rfl
    · exact absurd htag (h.heads.tag_ne hf hsilent)
  split
  · rename_i htag
    rcases h.described.further with ⟨kinds, hfew, hkinds, hfield⟩ | hsilent
    · have htold := hfield.tells_of_tag h.heads hf htag
      have hcount : f.count ≤ p.bands := htold.count ▸ hfew
      have hshort : ¬ Directory.shortBound ≤ f.count :=
        not_le.mpr (lt_of_le_of_lt hcount h.proper.bands_lt)
      have hnumbers : (plan.directory data).numbers data Directory.shortBound f = .ok kinds := by
        apply htold.numbers_eq
        · exact le_trans hcount (le_trans h.proper.bands_lt.le (by decide))
        · exact fun kind hkind => lt_of_le_of_lt (hkinds kind hkind) (by decide)
      have hall : kinds.all Directory.isFurtherKind = true := by
        apply List.all_eq_true.mpr
        intro kind hkind
        simp [Directory.isFurtherKind, hkinds kind hkind]
      simp [hshort, hnumbers, hall, bind, Except.bind, not_lt.mpr hcount]
      rfl
    · exact absurd htag (h.heads.tag_ne hf hsilent)
  · rfl

theorem checkSamples_eq (hf : f ∈ (plan.directory data).fields) :
    (plan.directory data).checkSamples data p.bands f = .ok () := by
  have hunsaid : ∀ tag ∈ [leastSampleTag, greatestSampleTag, colourMapTag, leastValueTag,
      greatestValueTag, dataTypeTag], f.tag ≠ tag := fun tag htag =>
    h.heads.tag_ne hf (h.described.silent tag htag)
  unfold Directory.checkSamples
  split
  · rename_i htag
    have hbits : f.tag = bitsTag := by simpa [hunsaid] using htag
    have htold := h.described.bits.tells_of_tag h.heads hf hbits
    rw [htold.shared_eq h.proper.bands_pos h.proper.bands_lt h.bits_lt]
    rfl
  split
  · rename_i htag
    rcases h.described.format with hfield | ⟨-, hsilent⟩
    · have hcode := code_bounds p.type
      have htold := hfield.tells_of_tag h.heads hf htag
      rw [htold.shared_eq h.proper.bands_pos h.proper.bands_lt (lt_of_le_of_lt hcode.2 (by decide))]
      show (if _ then _ else _) = _
      rw [if_neg (by omega)]
      rfl
    · exact absurd htag (h.heads.tag_ne hf hsilent)
  · simp [hunsaid]
    rfl

end Picture.Announced

/-! ## The layout -/

/-- The blocks as a reader sees them: a strip has no more rows than the picture. -/
def Plan.layout (plan : Plan) (p : Picture) : Layout where
  rows := p.rows
  columns := p.columns
  bands := p.bands
  sample := p.type
  blockRows := match plan.cutting with
    | .strips rows => min rows p.rows
    | .tiles rows _ => rows
  blockColumns := plan.blockColumns p
  filled := match plan.cutting with
    | .strips _ => false
    | .tiles _ _ => true
  interleaved := plan.interleaved

/-- The fields with the tables of blocks. -/
structure Plan.Locates (plan : Plan) (data : ByteArray) (places sizes : Field) : Prop where
  places_mem : places ∈ (plan.directory data).fields
  places_tag : places.tag = plan.placesTag
  sizes_mem : sizes ∈ (plan.directory data).fields
  sizes_tag : sizes.tag = plan.sizesTag

/-- The tables of blocks.  Where the only strip is, is settled at once. -/
def Plan.tables (plan : Plan) (p : Picture) (data : ByteArray) (places sizes : Field) : Tables :=
  let l := plan.layout p
  let demanded := Tables.onDemand places sizes l.blockCount
  if l.isSingleStrip then demanded.settled (plan.directory data) data l.fullSize else demanded

/-- What a reader makes of the directory. -/
def Plan.image (plan : Plan) (p : Picture) (data : ByteArray) (places sizes : Field) : Image :=
  let d := plan.directory data
  let arranged := (plan.layout p).cut (d.stripRows data) data.size (plan.tables p data places sizes)
  { directory := d
    layout := arranged.1
    tables := arranged.2
    bitsReversed := false
    declared := d.text? data noDataTag }

namespace Picture.Announced

variable (h : p.Announced plan data)

include h

theorem isTiled_eq : (plan.directory data).isTiled = (plan.layout p).filled := by
  cases hcutting : plan.cutting with
  | strips rows =>
      have hsilent := (h.cut.strips hcutting).silent
      have hcolumns := h.heads.field?_of_silent (hsilent tileColumnsTag (by simp))
      have hrows := h.heads.field?_of_silent (hsilent tileRowsTag (by simp))
      simp [Directory.isTiled, Plan.layout, hcutting, hcolumns, hrows]
  | tiles rows columns =>
      obtain ⟨f, hf⟩ := (h.cut.tiles hcutting).columns.tells h.heads
      have hcolumns := h.heads.field?_eq hf.mem
      rw [hf.tag] at hcolumns
      simp [Directory.isTiled, Plan.layout, hcutting, hcolumns]

theorem stripRows_eq {rows : Nat} (hcutting : plan.cutting = .strips rows) :
    (plan.directory data).stripRows data = rows := by
  apply Directory.valueOrIgnored_eq
  have htold := (h.cut.strips hcutting).told
  apply h.heads.valueOr_number htold
  rcases htold with hfield | ⟨rfl, -⟩
  · obtain ⟨f, hf⟩ := hfield.tells h.heads
    exact hf.lt rows (List.mem_singleton_self rows)
  · decide

theorem blockShape_eq : (plan.directory data).blockShape data p.rows p.columns =
    .ok ((plan.layout p).blockRows, (plan.layout p).blockColumns) := by
  have htiled := h.isTiled_eq
  cases hcutting : plan.cutting with
  | strips rows =>
      have hfilled : (plan.layout p).filled = false := by simp only [Plan.layout, hcutting]
      rw [Directory.blockShape, htiled, hfilled, if_neg Bool.false_ne_true,
        h.stripRows_eq hcutting]
      simp only [Plan.layout, Plan.blockColumns, hcutting]
  | tiles rows columns =>
      have htiles := h.cut.tiles hcutting
      have hfilled : (plan.layout p).filled = true := by simp only [Plan.layout, hcutting]
      have hrows : (plan.directory data).extent data tileRowsTag 0 = rows :=
        Directory.valueOrIgnored_eq (h.heads.valueOr_number (.inl htiles.rows)
          (lt_trans htiles.rows_lt (by decide)))
      have hcolumns : (plan.directory data).extent data tileColumnsTag 0 = columns :=
        Directory.valueOrIgnored_eq (h.heads.valueOr_number (.inl htiles.columns)
          (lt_trans htiles.columns_lt (by decide)))
      have hshape := And.intro htiles.rows_pos (And.intro htiles.rows_lt
        (And.intro htiles.columns_pos htiles.columns_lt))
      rw [Directory.blockShape, htiled, hfilled, if_pos rfl, hrows, hcolumns]
      simp only [Plan.layout, Plan.blockColumns, hcutting]
      exact if_pos hshape

/-- The field with a table is the only one of the two that could have it. -/
theorem eitherField?_eq {tag' : Nat} (hf : f ∈ (plan.directory data).fields)
    (htag : f.tag = tag ∧ plan.Silent tag' ∨ f.tag = tag' ∧ plan.Silent tag) :
    (plan.directory data).eitherField? tag tag' = some f := by
  apply getLast?_filter_of_unique hf
  · rcases htag with ⟨htag, -⟩ | ⟨htag, -⟩ <;> simp [htag]
  · intro g hg hmem
    have htags : g.tag = tag ∨ g.tag = tag' := by simpa using hmem
    apply h.heads.eq_of_tag_eq hg hf
    rcases htag with ⟨htag, hsilent⟩ | ⟨htag, hsilent⟩
    · exact (htags.resolve_right (h.heads.tag_ne hg hsilent)).trans htag.symm
    · exact (htags.resolve_left (h.heads.tag_ne hg hsilent)).trans htag.symm

/-- A table of strips is there without one of tiles, and the other way round. -/
theorem tagged_or_silent {strips tiles : Nat} (hstrips : strips ∈ [stripPlacesTag, stripSizesTag])
    (htiles : tiles ∈ [tilePlacesTag, tileSizesTag])
    (htag : f.tag = match plan.cutting with
      | .strips _ => strips
      | .tiles _ _ => tiles) :
    f.tag = strips ∧ plan.Silent tiles ∨ f.tag = tiles ∧ plan.Silent strips := by
  cases hcutting : plan.cutting with
  | strips rows =>
      rw [hcutting] at htag
      have hunsaid := List.mem_cons_of_mem tileColumnsTag (List.mem_cons_of_mem tileRowsTag htiles)
      exact .inl ⟨htag, (h.cut.strips hcutting).silent tiles hunsaid⟩
  | tiles rows columns =>
      rw [hcutting] at htag
      exact .inr ⟨htag, (h.cut.tiles hcutting).silent _ (List.mem_cons_of_mem _ hstrips)⟩

theorem placesField_eq {places sizes : Field} (hl : plan.Locates data places sizes) :
    (plan.directory data).placesField = .ok places := by
  have hfield : (plan.directory data).eitherField? stripPlacesTag tilePlacesTag = some places :=
    h.eitherField?_eq hl.places_mem (h.tagged_or_silent (by simp) (by simp) hl.places_tag)
  rw [Directory.placesField, hfield]

theorem tables_eq {places sizes : Field} (hl : plan.Locates data places sizes) (l : Layout) :
    (plan.directory data).tables data l places = .ok (.onDemand places sizes l.blockCount) := by
  have hfield : (plan.directory data).eitherField? stripSizesTag tileSizesTag = some sizes :=
    h.eitherField?_eq hl.sizes_mem (h.tagged_or_silent (by simp) (by simp) hl.sizes_tag)
  rw [Directory.tables, hfield]

theorem ofDirectory_eq {places sizes : Field} (hl : plan.Locates data places sizes) :
    Image.ofDirectory data (plan.directory data) = .ok (plan.image p data places sizes) := by
  have hsample : SampleType.ofCodes? p.type.bits p.type.code p.bands = some p.type :=
    ofCodes?_plain h.proper.plain p.bands
  -- with two colours at most no picture needs a map of them, and none needs to be converted
  have hcolours := h.colours_le
  have hmap : (plan.directory data).checkColourMap data p.type.bits = .ok () :=
    if_neg fun hneeds => by omega
  have hconvert : (plan.directory data).checkColours data (plan.layout p) = .ok () :=
    if_neg fun hneeds => by omega
  have hlayout : (⟨p.rows, p.columns, p.bands, (some p.type).getD ⟨.unsigned, p.type.bits⟩,
      (plan.layout p).blockRows, (plan.layout p).blockColumns, (plan.directory data).isTiled,
      (plan.directory data).isInterleaved data⟩ : Layout) = plan.layout p := by
    rw [h.isTiled_eq, h.isInterleaved_eq]
    rfl
  simp only [Image.ofDirectory, h.bands_eq, h.compression_eq, h.rasterShape_eq, h.blockShape_eq,
    h.placesField_eq hl, Directory.checkFields_eq_ok_iff.mpr fun f hf => h.checkShape_eq hf,
    Directory.checkFields_eq_ok_iff.mpr fun f hf => h.checkSamples_eq hf, h.bits_eq, h.code_eq,
    hsample,
    hlayout, hmap, hconvert, h.tables_eq hl, ok_bind, h.bitsReversed_eq]
  simp only [ne_eq, not_true_eq_false, if_false, Option.isNone_some, Bool.false_eq_true]
  rfl

end Picture.Announced

end PointElevation.Tiff
