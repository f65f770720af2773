import PointElevation.Proofs.Tiff.Outline

/-!
# A directory with more bytes behind the file

Bytes behind a file change nothing of its directory (`readDirectory_append`), and nothing of what is
read from a field whose values lie in the file (`Field.LiesIn`).  So if the values of all fields do,
the directory outlines the same layout and the same tables as before (`Directory.Outlines.append`).

A field that points out of the file is another matter.  Where it has to make sense the file is
refused, but some fields are ignored if they cannot be read, and these may come to life when
something is put behind the file.
-/

namespace PointElevation.Tiff

variable {d : Directory} {data : ByteArray} {f : Field} {l : Layout} {t : Tables} {tag n : Nat}

/-! ## The directory -/

/-- A file has a directory if its head and the entries lie in it. -/
theorem readDirectory_eq_ok_iff :
    readDirectory data = .ok d ↔
      ∃ v start count, byteOrder? data = some d.order ∧ variant? d.order data = some v ∧
        d.order.natAt data v.announcement v.placeWidth = start ∧
        d.order.natAt data start v.countWidth = count ∧
        v.announcement + v.placeWidth ≤ data.size ∧
        start + v.countWidth + v.entryWidth * count ≤ data.size ∧ 0 < count ∧ count ≤ maxEntries ∧
        d.fields = fieldsAt d.order v data (start + v.countWidth) count := by
  constructor
  · intro h
    unfold readDirectory at h
    split at h
    · cases h
    rename_i order horder
    split at h
    · cases h
    rename_i v hvariant
    dsimp only at h
    split_ifs at h with hhead hstart hcount hinside
    cases h
    exact ⟨v, _, _, horder, hvariant, rfl, rfl, not_lt.mp hhead, not_lt.mp hinside,
      Nat.pos_of_ne_zero (not_or.mp hcount).1, not_lt.mp (not_or.mp hcount).2, rfl⟩
  · rintro ⟨v, start, count, horder, hvariant, rfl, rfl, hhead, hinside, hpos, hfew, hfields⟩
    have hcount : ¬ (d.order.natAt data (d.order.natAt data v.announcement v.placeWidth)
        v.countWidth = 0 ∨ maxEntries < d.order.natAt data
          (d.order.natAt data v.announcement v.placeWidth) v.countWidth) :=
      not_or.mpr ⟨hpos.ne', not_lt.mpr hfew⟩
    have hstart := Nat.le_of_add_right_le hinside
    simp only [readDirectory, horder, hvariant, if_neg (not_lt.mpr hhead),
      if_neg (not_lt.mpr hstart), if_neg hcount, if_neg (not_lt.mpr hinside), ← hfields]

section Head

variable {order : ByteOrder} {v : Variant}

theorem byteOrder?_append (more : ByteArray) (h : 2 ≤ data.size) :
    byteOrder? (data ++ more) = byteOrder? data := by
  rw [byteOrder?, byteOrder?, byteAt_append (by omega), byteAt_append (by omega)]

theorem variant?_append (more : ByteArray) (h : 8 ≤ data.size) :
    variant? order (data ++ more) = variant? order data := by
  simp only [variant?, natAt_append order (show 2 + 2 ≤ data.size by omega),
    natAt_append order (show 4 + 2 ≤ data.size by omega),
    natAt_append order (show 6 + 2 ≤ data.size by omega)]

theorem fieldAt_append (more : ByteArray) {entry : Nat} (h : entry + v.entryWidth ≤ data.size) :
    fieldAt order v (data ++ more) entry = fieldAt order v data entry := by
  simp only [Variant.entryWidth] at h
  have htag : entry + 2 ≤ data.size := by omega
  have htype : entry + 2 + 2 ≤ data.size := by omega
  have hcount : entry + 4 + v.placeWidth ≤ data.size := by omega
  have hvalues : entry + 4 + v.placeWidth + v.placeWidth ≤ data.size := by omega
  simp only [fieldAt, natAt_append order htag, natAt_append order htype, natAt_append order hcount,
    natAt_append order hvalues]

theorem fieldsAt_append (more : ByteArray) {start count : Nat}
    (h : start + v.entryWidth * count ≤ data.size) :
    fieldsAt order v (data ++ more) start count = fieldsAt order v data start count := by
  have hfields : (List.range count).map (fun i =>
      fieldAt order v (data ++ more) (start + v.entryWidth * i)) =
        (List.range count).map fun i => fieldAt order v data (start + v.entryWidth * i) := by
    apply List.map_congr_left
    intro i hi
    apply fieldAt_append
    exact le_trans (end_le_end (List.mem_range.mp hi)) h
  rw [fieldsAt, hfields]
  rfl

end Head

/-- A directory that has been read is not changed by what stands behind the file. -/
theorem readDirectory_append (more : ByteArray) (h : readDirectory data = .ok d) :
    readDirectory (data ++ more) = .ok d := by
  obtain ⟨v, start, count, horder, hvariant, hstart, hcount, hhead, hinside, hpos, hfew, hfields⟩ :=
    readDirectory_eq_ok_iff.mp h
  have height : 8 ≤ data.size := le_trans (by cases v <;> decide) hhead
  have hlonger := size_le_size_append data more
  refine readDirectory_eq_ok_iff.mpr ⟨v, start, count, ?_, ?_, ?_, ?_, le_trans hhead hlonger,
    le_trans hinside hlonger, hpos, hfew, ?_⟩
  · rw [byteOrder?_append more (by omega), horder]
  · rw [variant?_append more height, hvariant]
  · rw [natAt_append _ hhead, hstart]
  · rw [natAt_append _ (Nat.le_of_add_right_le hinside), hcount]
  · rw [fieldsAt_append more hinside, hfields]

/-! ## Fields -/

theorem mapM_congr {α β ε : Type} {g g' : α → Except ε β} {as : List α}
    (h : ∀ a ∈ as, g a = g' a) : as.mapM g = as.mapM g' := by
  induction as with
  | nil => rfl
  | cons a rest ih =>
      rw [List.mapM_cons, List.mapM_cons, h a List.mem_cons_self,
        ih fun b hb => h b (List.mem_cons_of_mem _ hb)]

/-- The values of a field lie in a file. -/
def Field.LiesIn (f : Field) (data : ByteArray) : Prop :=
  f.place + f.type.width * f.count ≤ data.size

namespace Field.LiesIn

variable (h : f.LiesIn data) (more : ByteArray) {bound count : Nat}

include h

theorem le_size (hcount : count ≤ f.count) : f.place + f.type.width * count ≤ data.size :=
  le_trans (Nat.add_le_add_left (Nat.mul_le_mul_left _ hcount) _) h

theorem of_le (hcount : count ≤ f.count) : ({ f with count := count } : Field).LiesIn data :=
  h.le_size hcount

theorem reaches_append (hcount : count ≤ f.count) :
    f.reaches (data ++ more) count = f.reaches data count := by
  have hinside := h.le_size hcount
  have hlonger := le_trans hinside (size_le_size_append data more)
  simp only [Field.reaches, hinside, hlonger]

theorem valueBits_append {i : Nat} (hi : i < f.count) :
    d.valueBits (data ++ more) f i = d.valueBits data f i := by
  apply natAt_append
  exact le_trans (end_le_end hi) h

theorem numberBelow_append {i : Nat} (hi : i < f.count) :
    d.numberBelow (data ++ more) bound f i = d.numberBelow data bound f i := by
  simp only [Directory.numberBelow, h.valueBits_append more hi]

theorem number_append : d.number (data ++ more) bound f = d.number data bound f := by
  by_cases hone : f.count = 1
  · have hfirst : 0 < f.count := by omega
    simp only [Directory.number, h.reaches_append more hone.ge, h.numberBelow_append more hfirst]
  · simp only [Directory.number, if_pos hone]

theorem numbers_append : d.numbers (data ++ more) bound f = d.numbers data bound f := by
  have hall : (List.range f.count).mapM (d.numberBelow (data ++ more) bound f) =
      (List.range f.count).mapM (d.numberBelow data bound f) :=
    mapM_congr fun i hi => h.numberBelow_append more (List.mem_range.mp hi)
  simp only [Directory.numbers, h.reaches_append more le_rfl, hall]

theorem shared_append (bands : Nat) : d.shared (data ++ more) bands f = d.shared data bands f := by
  simp only [Directory.shared, h.number_append more, h.numbers_append more]

theorem table?_append (blocks : Nat) :
    d.table? (data ++ more) blocks f = d.table? data blocks f := by
  have hkept := h.of_le (min_le_left f.count blocks)
  simp only [Directory.table?, hkept.numbers_append more]

end Field.LiesIn

/-! ## Questions to the directory -/

namespace Directory

theorem valueOr_congr {default : Nat} {read read' : Field → Except FieldFault Nat}
    (h : ∀ f ∈ d.fields, read f = read' f) :
    d.valueOr tag default read = d.valueOr tag default read' := by
  unfold valueOr
  split
  · rfl
  · rename_i f hfound
    rw [h f (List.mem_of_find?_eq_some hfound)]

theorem valueOrIgnored_congr {default : Nat} {read read' : Field → Except FieldFault Nat}
    (h : ∀ f ∈ d.fields, read f = read' f) :
    d.valueOrIgnored tag default read = d.valueOrIgnored tag default read' := by
  rw [valueOrIgnored, valueOr_congr h]
  rfl

/-- The values of all fields lie in a file. -/
def LiesIn (d : Directory) (data : ByteArray) : Prop := ∀ f ∈ d.fields, f.LiesIn data

namespace LiesIn

variable (h : d.LiesIn data) (more : ByteArray)

include h

theorem number_append {bound : Nat} :
    ∀ f ∈ d.fields, d.number (data ++ more) bound f = d.number data bound f :=
  fun f hf => (h f hf).number_append more

theorem shared_append (bands : Nat) :
    ∀ f ∈ d.fields, d.shared (data ++ more) bands f = d.shared data bands f :=
  fun f hf => (h f hf).shared_append more bands

theorem bands_append : d.bands (data ++ more) = d.bands data := by
  apply valueOr_congr
  intro f hf
  rw [(h f hf).number_append more]

theorem checkShape_append (bands : Nat) (hf : f ∈ d.fields) :
    d.checkShape (data ++ more) bands f = d.checkShape data bands f := by
  simp only [checkShape, (h f hf).number_append more, (h f hf).numbers_append more]

theorem checkSamples_append (bands : Nat) (hf : f ∈ d.fields) :
    d.checkSamples (data ++ more) bands f = d.checkSamples data bands f := by
  simp only [checkSamples, checkValues, (h f hf).shared_append more,
    (h f hf).reaches_append more le_rfl]

theorem extent_append (tag default : Nat) :
    d.extent (data ++ more) tag default = d.extent data tag default :=
  valueOrIgnored_congr (h.number_append more)

theorem rasterShape_append : d.rasterShape (data ++ more) = d.rasterShape data := by
  simp only [rasterShape, h.extent_append more]

theorem stripRows_append : d.stripRows (data ++ more) = d.stripRows data := h.extent_append more _ _

theorem blockShape_append (rows columns : Nat) :
    d.blockShape (data ++ more) rows columns = d.blockShape data rows columns := by
  simp only [blockShape, h.extent_append more, h.stripRows_append more]

theorem isInterleaved_append : d.isInterleaved (data ++ more) = d.isInterleaved data := by
  rw [isInterleaved, valueOrIgnored_congr (h.number_append more)]
  rfl

theorem sampleBits_append (bands : Nat) :
    d.sampleBits (data ++ more) bands = d.sampleBits data bands :=
  valueOrIgnored_congr (h.shared_append more bands)

theorem sampleCode_append (bands : Nat) :
    d.sampleCode (data ++ more) bands = d.sampleCode data bands := by
  simp only [sampleCode, valueOrIgnored_congr (h.shared_append more bands)]

theorem colours_append : d.colours (data ++ more) = d.colours data :=
  valueOrIgnored_congr (h.number_append more)

theorem hasColourMap_append (bits : Nat) :
    d.hasColourMap (data ++ more) bits = d.hasColourMap data bits := by
  unfold hasColourMap
  split
  · rfl
  · rename_i f hfound
    rw [(h f (List.mem_of_find?_eq_some hfound)).numbers_append more]

theorem checkColourMap_append (bits : Nat) :
    d.checkColourMap (data ++ more) bits = d.checkColourMap data bits := by
  simp only [checkColourMap, h.colours_append more, h.hasColourMap_append more]

theorem checkColours_append (l : Layout) :
    d.checkColours (data ++ more) l = d.checkColours data l := by
  simp only [checkColours, h.colours_append more]

theorem bitsReversed_append : d.bitsReversed (data ++ more) = d.bitsReversed data := by
  rw [bitsReversed, valueOrIgnored_congr (h.number_append more)]
  rfl

theorem tables_append {places : Field} (hplaces : places ∈ d.fields) (l : Layout) :
    d.tables (data ++ more) l places = d.tables data l places := by
  simp only [tables, (h places hplaces).table?_append more]

end LiesIn

theorem mem_of_placesField_eq_ok {places : Field} (h : d.placesField = .ok places) :
    places ∈ d.fields := by
  unfold placesField eitherField? at h
  split at h
  · rename_i f hfound
    cases h
    exact List.mem_of_mem_filter (List.mem_of_getLast? hfound)
  · cases h

end Directory

/-! ## Texts -/

theorem mem_of_mem_eraseDupsBy {α : Type} {same : α → α → Bool} {a : α} :
    ∀ {as : List α}, a ∈ as.eraseDupsBy same → a ∈ as
  | [], h => by simp at h
  | b :: rest, h => by
      rw [List.eraseDupsBy_cons] at h
      rcases List.mem_cons.mp h with rfl | h
      · exact List.mem_cons_self
      · exact List.mem_cons_of_mem b (List.mem_of_mem_filter (mem_of_mem_eraseDupsBy h))
  termination_by as => as.length
  decreasing_by
    simp only [List.length_cons]
    exact Nat.lt_succ_of_le (List.length_filter_le _ _)

/-- The type of a field is that of its code. -/
theorem exists_valueType (h : readDirectory data = .ok d) (hf : f ∈ d.fields) :
    ∃ code, f.type = valueType code := by
  obtain ⟨v, start, count, -, -, -, -, -, -, -, -, hfields⟩ := readDirectory_eq_ok_iff.mp h
  rw [hfields] at hf
  obtain ⟨i, -, rfl⟩ := List.mem_map.mp (mem_of_mem_eraseDupsBy hf)
  exact ⟨_, rfl⟩

theorem width_of_letters {code : Nat}
    (h : (valueType code).kind = .letters ∨ (valueType code).kind = .bytes) :
    (valueType code).width = 1 := by
  unfold valueType at h ⊢
  split <;> simp_all

namespace Directory

theorem LiesIn.text?_append (h : d.LiesIn data) (more : ByteArray)
    (hdirectory : readDirectory data = .ok d) (tag : Nat) :
    d.text? (data ++ more) tag = d.text? data tag := by
  unfold text?
  cases hfound : d.field? tag with
  | none => rfl
  | some f =>
      have hmem := List.mem_of_find?_eq_some hfound
      -- letters are read as numbers of one byte, which they take in any case
      have hletters : (if f.type.kind = .letters ∨ f.type.kind = .bytes then
          { f with type := ⟨.unsigned, 1⟩ } else f : Field).LiesIn data := by
        split
        · rename_i hlettered
          obtain ⟨code, htype⟩ := exists_valueType hdirectory hmem
          rw [htype] at hlettered
          have hlies := h f hmem
          rwa [Field.LiesIn, htype, width_of_letters hlettered] at hlies
        · exact h f hmem
      simp only [Option.bind_eq_bind, Option.bind_some, hletters.numbers_append more]

/-- The outline of a file does not change with what stands behind it. -/
theorem Outlines.append (houtline : d.Outlines data l t) (h : d.LiesIn data) (more : ByteArray) :
    d.Outlines (data ++ more) l t where
  bands := by rw [h.bands_append more, houtline.bands]
  compression := by rw [valueOr_congr (h.shared_append more _), houtline.compression]
  shape := checkFields_eq_ok_iff.mpr fun f hf =>
    (h.checkShape_append more _ hf).trans (checkFields_eq_ok_iff.mp houtline.shape f hf)
  raster := by rw [h.rasterShape_append more, houtline.raster]
  block := by rw [h.blockShape_append more, houtline.block]
  samples := checkFields_eq_ok_iff.mpr fun f hf =>
    (h.checkSamples_append more _ hf).trans (checkFields_eq_ok_iff.mp houtline.samples f hf)
  type := by rw [h.sampleBits_append more, h.sampleCode_append more, houtline.type]
  filled := houtline.filled
  interleaved := by rw [h.isInterleaved_append more, houtline.interleaved]
  map := by rw [h.sampleBits_append more, h.checkColourMap_append more, houtline.map]
  tables := by
    obtain ⟨places, hplaces, htables⟩ := houtline.tables
    refine ⟨places, hplaces, ?_⟩
    rw [h.tables_append more (mem_of_placesField_eq_ok hplaces), htables]
  colours := by rw [h.checkColours_append more, houtline.colours]

end Directory

end PointElevation.Tiff
