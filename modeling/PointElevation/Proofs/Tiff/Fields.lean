import Mathlib.Data.List.GetD
import Mathlib.Data.List.Nodup
import PointElevation.Proofs.Tiff.Written
import PointElevation.Tiff.Directory

/-!
# The directory of a written file

A file that is headed as a plan says has one directory for every reader, `Plan.directory`.  What the
plan says of a field becomes `Directory.Tells`: the field that is found under a tag, and the numbers
that are read from it.  From here on a reader's questions to the directory are answered by these,
and the bytes of the entries are not looked at again.
-/

namespace PointElevation.Tiff

variable {plan : Plan} {data : ByteArray} {tag : Nat} {values : List Nat}

/-! ## Lists with one of a kind -/

section Unique

variable {α : Type} {l : List α} {a : α} {p : α → Bool}

theorem find?_eq_some_of_unique (hmem : a ∈ l) (ha : p a = true)
    (hunique : ∀ b ∈ l, p b = true → b = a) : l.find? p = some a := by
  cases hfind : l.find? p with
  | none => exact absurd ha (List.find?_eq_none.mp hfind a hmem)
  | some b => rw [hunique b (List.mem_of_find?_eq_some hfind) (List.find?_some hfind)]

theorem getLast?_filter_of_unique (hmem : a ∈ l) (ha : p a = true)
    (hunique : ∀ b ∈ l, p b = true → b = a) : (l.filter p).getLast? = some a := by
  rw [List.getLast?_filter]
  exact find?_eq_some_of_unique (List.mem_reverse.mpr hmem) ha
    fun b hb => hunique b (List.mem_reverse.mp hb)

theorem eraseDupsBy_loop_of_pairwise {same : α → α → Bool} (seen : List α)
    (hseen : ∀ a ∈ l, ∀ b ∈ seen, same a b = false)
    (hpairwise : l.Pairwise fun a b => same b a = false) :
    List.eraseDupsBy.loop same l seen = seen.reverse ++ l := by
  -- what has been seen grows at its front, and each new element differs from all of it
  induction l generalizing seen with
  | nil => simp [List.eraseDupsBy.loop]
  | cons a rest ih =>
      obtain ⟨hfirst, hrest⟩ := List.pairwise_cons.mp hpairwise
      have hnew : seen.any (same a) = false := by
        simpa using hseen a List.mem_cons_self
      rw [List.eraseDupsBy.loop, hnew, ih (a :: seen) ?_ hrest, List.reverse_cons,
        List.append_assoc, List.singleton_append]
      intro b hb c hc
      rcases List.mem_cons.mp hc with rfl | hc
      · exact hfirst b hb
      · exact hseen b (List.mem_cons_of_mem _ hb) c hc

/-- Where all are different, none are erased. -/
theorem eraseDupsBy_of_pairwise {same : α → α → Bool}
    (hpairwise : l.Pairwise fun a b => same b a = false) : l.eraseDupsBy same = l := by
  rw [List.eraseDupsBy, eraseDupsBy_loop_of_pairwise [] (fun _ _ _ => nofun) hpairwise]
  rfl

end Unique

/-! ## The directory -/

/-- The fields of the directory, as they are read. -/
def Plan.directory (plan : Plan) (data : ByteArray) : Directory where
  order := plan.order
  fields := (List.range plan.tags.length).map fun i =>
    fieldAt plan.order .classic data (plan.entry i)

namespace Plan.Heads

variable (h : plan.Heads data)

include h

theorem tags_eq : (plan.directory data).fields.map Field.tag = plan.tags := by
  apply List.ext_getElem
  · simp [Plan.directory]
  · intro i hleft hright
    simp only [Plan.directory, List.map_map, List.getElem_map, List.getElem_range]
    exact (h.tags i hright).natAt_eq

theorem readDirectory_eq : readDirectory data = .ok (plan.directory data) := by
  have hletters : byteOrder? data = some plan.order := by
    have hfirst := h.letters 0 (by decide)
    have hsecond := h.letters 1 (by decide)
    rw [byteOrder?, hfirst, hsecond]
    cases plan.order <;> rfl
  have hvariant : variant? plan.order data = some .classic := by
    rw [variant?, h.mark.natAt_eq]
    rfl
  have hplace : plan.order.natAt data Variant.classic.announcement Variant.classic.placeWidth =
      plan.start := h.place.natAt_eq
  have hcount : plan.order.natAt data plan.start Variant.classic.countWidth = plan.tags.length :=
    h.count.natAt_eq
  have hfields : fieldsAt plan.order .classic data (plan.start + Variant.classic.countWidth)
      plan.tags.length = (plan.directory data).fields := by
    refine eraseDupsBy_of_pairwise ?_
    have hnodup : ((plan.directory data).fields.map Field.tag).Nodup := h.tags_eq ▸ h.nodup
    refine (List.pairwise_map.mp hnodup).imp fun {a b} hne => ?_
    exact beq_eq_false_iff_ne.mpr hne.symm
  have hsize : ¬ data.size < Variant.classic.announcement + Variant.classic.placeWidth :=
    not_lt.mpr h.place.inside
  have hstart : ¬ data.size < plan.start + Variant.classic.countWidth :=
    not_lt.mpr h.count.inside
  have hinside : ¬ data.size < plan.start + Variant.classic.countWidth +
      Variant.classic.entryWidth * plan.tags.length := not_lt.mpr h.inside
  have hlegal : ¬ (plan.tags.length = 0 ∨ maxEntries < plan.tags.length) :=
    not_or.mpr ⟨h.count_pos.ne', not_lt.mpr h.count_le⟩
  simp only [readDirectory, hletters, hvariant, hplace, hcount, hsize, hstart, hinside, hlegal,
    if_false, hfields]
  rfl

/-- Different fields have different tags. -/
theorem eq_of_tag_eq {f g : Field} (hf : f ∈ (plan.directory data).fields)
    (hg : g ∈ (plan.directory data).fields) (htag : f.tag = g.tag) : f = g :=
  List.inj_on_of_nodup_map (h.tags_eq ▸ h.nodup) hf hg htag

theorem tag_mem {f : Field} (hf : f ∈ (plan.directory data).fields) : f.tag ∈ plan.tags :=
  h.tags_eq ▸ List.mem_map_of_mem hf

theorem field?_of_silent (hsilent : plan.Silent tag) : (plan.directory data).field? tag = none := by
  refine List.find?_eq_none.mpr fun f hf => ?_
  intro htag
  exact hsilent (beq_iff_eq.mp htag ▸ h.tag_mem hf)

end Plan.Heads

/-! ## What the fields say -/

/-- The values of a field are these unsigned numbers, and they lie in the file. -/
structure Directory.HasValues (d : Directory) (data : ByteArray) (values : List Nat) (f : Field) :
    Prop where
  kind : f.type.kind = .unsigned
  width_pos : 0 < f.type.width
  width_le : f.type.width ≤ 4
  count : f.count = values.length
  inside : f.place + f.type.width * f.count ≤ data.size
  value : ∀ j (h : j < values.length), d.valueBits data f j = values[j]

/-- Under a tag there is a field with these numbers, of more than a byte each. -/
structure Directory.Tells (d : Directory) (data : ByteArray) (tag : Nat) (values : List Nat)
    (f : Field) : Prop extends d.HasValues data values f where
  mem : f ∈ d.fields
  tag : f.tag = tag
  wide : 2 ≤ f.type.width
  lt : ∀ n ∈ values, n < longBound

theorem Plan.Heads.field?_eq (h : plan.Heads data) {f : Field}
    (hf : f ∈ (plan.directory data).fields) : (plan.directory data).field? f.tag = some f :=
  find?_eq_some_of_unique hf (beq_self_eq_true f.tag)
    fun _ hg htag => h.eq_of_tag_eq hg hf (beq_iff_eq.mp htag)

/-- An entry is read as a field. -/
theorem Plan.Entry.fieldAt_eq {code width i place : Nat} (h : plan.Heads data)
    (hentry : plan.Entry data tag code width values i place)
    (hwidth : (valueType code).width = width) :
    fieldAt plan.order .classic data (plan.entry i) =
      ⟨tag, valueType code, values.length, place⟩ := by
  obtain ⟨hi, htag⟩ := List.getElem?_eq_some_iff.mp hentry.tag
  have hread := (h.tags i hi).natAt_eq
  rw [htag] at hread
  have hcount : plan.order.natAt data (plan.entry i + 4) Variant.classic.placeWidth =
      values.length := hentry.count.natAt_eq
  simp only [fieldAt, hread, hentry.code.natAt_eq, hcount, Field.mk.injEq, true_and, hwidth]
  split
  · rename_i hshort
    exact (hentry.inline hshort).symm
  · rename_i hlong
    exact (hentry.apart (not_le.mp hlong)).natAt_eq

theorem Plan.Entry.mem {code width i place : Nat} (h : plan.Heads data)
    (hentry : plan.Entry data tag code width values i place)
    (hwidth : (valueType code).width = width) :
    (⟨tag, valueType code, values.length, place⟩ : Field) ∈ (plan.directory data).fields := by
  obtain ⟨hi, -⟩ := List.getElem?_eq_some_iff.mp hentry.tag
  rw [← hentry.fieldAt_eq h hwidth]
  exact List.mem_map_of_mem (List.mem_range.mpr hi)

/-- The values of an entry end in the file. -/
theorem Plan.Entry.inside {code width i place : Nat} (h : plan.Heads data)
    (hentry : plan.Entry data tag code width values i place) :
    place + width * values.length ≤ data.size := by
  obtain ⟨hi, -⟩ := List.getElem?_eq_some_iff.mp hentry.tag
  -- the last value does, and without values the place is in the entry
  rcases Nat.eq_zero_or_pos values.length with hzero | hpos
  · have hinline := hentry.inline (by rw [hzero]; exact Nat.zero_le _)
    have hheads := h.inside
    simp only [Plan.entry] at hinline hheads
    rw [hzero, hinline]
    omega
  · have hlast := (hentry.values (values.length - 1) (Nat.sub_lt hpos Nat.one_pos)).inside
    have hsplit : width * values.length = width * (values.length - 1) + width := by
      rw [← Nat.mul_succ, Nat.succ_eq_add_one, Nat.sub_add_cancel hpos]
    omega

theorem Plan.Says.tells (h : plan.Heads data) (hfield : plan.Says data tag values) :
    ∃ f, (plan.directory data).Tells data tag values f := by
  obtain ⟨code, width, i, place, hcode, hentry⟩ := hfield
  have htype : valueType code = ⟨.unsigned, width⟩ := by
    rcases hcode with ⟨rfl, rfl⟩ | ⟨rfl, rfl⟩ <;> rfl
  have hwidth : (valueType code).width = width := by rw [htype]
  have hbounds : 2 ≤ width ∧ width ≤ 4 := by omega
  refine ⟨⟨tag, valueType code, values.length, place⟩, ⟨?_, ?_, ?_, rfl, ?_, ?_⟩,
    hentry.mem h hwidth, rfl, ?_, ?_⟩
  · rw [htype]
  · exact hwidth ▸ lt_of_lt_of_le Nat.two_pos hbounds.1
  · exact hwidth ▸ hbounds.2
  · rw [hwidth]
    exact hentry.inside h
  · intro j hj
    simp only [Directory.valueBits, hwidth]
    exact (hentry.values j hj).natAt_eq
  · exact hwidth ▸ hbounds.1
  · intro n hn
    obtain ⟨j, hj, rfl⟩ := List.getElem_of_mem hn
    calc values[j] < 256 ^ width := (hentry.values j hj).fits
      _ ≤ 256 ^ 4 := Nat.pow_le_pow_right (by decide) hbounds.2
      _ = Directory.longBound := rfl

namespace Directory

variable {d : Directory} {f : Field}

/-! ### Numbers of a field -/

theorem mapM_ok {α β ε : Type} {g : α → Except ε β} {value : α → β} {l : List α}
    (h : ∀ a ∈ l, g a = .ok (value a)) : l.mapM g = .ok (l.map value) := by
  induction l with
  | nil => rfl
  | cons a rest ih =>
      rw [List.mapM_cons, h a List.mem_cons_self,
        ih fun b hb => h b (List.mem_cons_of_mem _ hb)]
      rfl

namespace HasValues

variable {bound : Nat} (h : d.HasValues data values f)

include h

theorem isInteger : f.type.isInteger = true := by
  simp [ValueType.isInteger, h.kind]

theorem reaches {count : Nat} (hcount : count ≤ f.count) : f.reaches data count = true := by
  have hwidth := h.width_pos.ne'
  have hinside := h.inside
  have hfewer : f.type.width * count ≤ f.type.width * f.count := Nat.mul_le_mul_left _ hcount
  simp only [Field.reaches, ne_eq, hwidth, not_false_eq_true, decide_true, Bool.true_and,
    decide_eq_true_eq]
  omega

theorem numberBelow_eq {j : Nat} (hj : j < values.length) (hbound : values[j] < bound) :
    d.numberBelow data bound f j = .ok values[j] := by
  simp [numberBelow, h.kind, h.value j hj, hbound]

/-- The values are read, if they are not more than can be held. -/
theorem numbers_eq (hheld : f.count ≤ heldBytes / 4) (hbound : ∀ n ∈ values, n < bound) :
    d.numbers data bound f = .ok values := by
  have hfew : ¬ heldBytes / max 2 f.type.width < f.count := by
    have hmax : max 2 f.type.width ≤ 4 := max_le (by decide) h.width_le
    have hpos : 0 < max 2 f.type.width := by omega
    have hle := Nat.div_le_div_left (a := heldBytes) hmax hpos
    omega
  have hall : ∀ j ∈ List.range f.count, d.numberBelow data bound f j = .ok (values.getD j 0) := by
    intro j hj
    have hlt : j < values.length := h.count ▸ List.mem_range.mp hj
    rw [h.numberBelow_eq hlt (hbound _ (List.getElem_mem hlt)), List.getD_eq_getElem _ _ hlt]
  have hvalues : (List.range f.count).map (fun j => values.getD j 0) = values := by
    rw [h.count]
    apply List.ext_getElem
    · simp
    · intro j _ hlt
      simp [hlt]
  simp only [numbers, h.isInteger, Bool.not_true, Bool.false_eq_true, if_false, hfew,
    h.reaches le_rfl, mapM_ok hall, hvalues]
  split
  · rename_i hzero
    rw [h.count] at hzero
    rw [List.eq_nil_of_length_eq_zero hzero]
  · rfl

end HasValues

theorem HasValues.number_eq {n bound : Nat} (h : d.HasValues data [n] f) (hbound : n < bound) :
    d.number data bound f = .ok n := by
  have hcount : f.count = 1 := h.count
  have hread := h.numberBelow_eq (j := 0) Nat.one_pos hbound
  simp only [List.getElem_cons_zero] at hread
  simp [number, hcount, h.isInteger, h.reaches hcount.ge, hread]

/-! ### Questions to the directory -/

/-- Under a tag the directory has a number for all bands, or it once for each of them. -/
def TellsEach (d : Directory) (data : ByteArray) (tag bands n : Nat) (f : Field) : Prop :=
  d.Tells data tag [n] f ∨ d.Tells data tag (List.replicate bands n) f

theorem TellsEach.shared_eq {bands n : Nat} (h : d.TellsEach data tag bands n f)
    (hpos : 0 < bands) (hbands : bands < shortBound) (hn : n < shortBound) :
    d.shared data bands f = .ok n := by
  rcases h with h | h
  · have hcount : f.count = 1 := h.count
    rw [shared, if_pos hcount, h.number_eq hn]
  · have hcount : f.count = bands := by rw [h.count, List.length_replicate]
    obtain ⟨others, rfl⟩ := Nat.exists_eq_add_of_le' hpos
    have hsmall : ∀ m ∈ List.replicate (others + 1) n, m < shortBound := by
      intro m hm
      rw [List.eq_of_mem_replicate hm]
      exact hn
    have hheld : f.count ≤ heldBytes / 4 := by
      rw [hcount]
      exact le_trans hbands.le (by decide)
    have hnumbers := h.numbers_eq hheld hsmall
    -- a field with one number is read in another way, also where there is one band
    by_cases hone : f.count = 1
    · have hsingle : others = 0 := by omega
      subst hsingle
      rw [shared, if_pos hone, HasValues.number_eq h.toHasValues hn]
    · rw [shared, if_neg hone, if_neg (by rw [hcount]; exact lt_irrefl _), hnumbers]
      simp [List.replicate_succ, bind, Except.bind, List.take_of_length_le]

end Directory

/-- A text is read up to the zero behind it. -/
theorem Plan.SaysText.text?_eq {text : List Char} (h : plan.Heads data)
    (hfield : plan.SaysText data tag text) : (plan.directory data).text? data tag = some text := by
  obtain ⟨hletters, hshort, i, place, hentry⟩ := hfield
  have hwidth : (valueType 2).width = 1 := rfl
  have hmem := hentry.mem h hwidth
  have hfound := h.field?_eq hmem
  have hcodes : (plan.directory data).HasValues data (text.map Char.toNat ++ [0])
      ⟨tag, ⟨.unsigned, 1⟩, (text.map Char.toNat ++ [0]).length, place⟩ := by
    refine ⟨rfl, Nat.one_pos, (by decide : 1 ≤ 4), rfl, hentry.inside h, fun j hj => ?_⟩
    exact (hentry.values j hj).natAt_eq
  have hnumbers : (plan.directory data).numbers data 256
      ⟨tag, ⟨.unsigned, 1⟩, (text.map Char.toNat ++ [0]).length, place⟩ =
        .ok (text.map Char.toNat ++ [0]) := by
    apply hcodes.numbers_eq
    · rw [List.length_append, List.length_map, List.length_singleton]
      exact le_trans hshort (by decide)
    · intro n hn
      rcases List.mem_append.mp hn with hn | hn
      · obtain ⟨c, hc, rfl⟩ := List.mem_map.mp hn
        exact lt_trans (hletters c hc).2 (by decide)
      · rw [List.mem_singleton.mp hn]
        decide
  -- no letter is a zero, so the one behind the text is the first
  have hcut : ((text.map Char.toNat ++ [0]).takeWhile (· ≠ 0)).map Char.ofNat = text := by
    have hnonzero : ∀ n ∈ text.map Char.toNat, decide (n ≠ 0) = true := by
      intro n hn
      obtain ⟨c, hc, rfl⟩ := List.mem_map.mp hn
      exact decide_eq_true (hletters c hc).1.ne'
    rw [List.takeWhile_append_of_pos hnonzero, List.takeWhile_cons_of_neg (by decide),
      List.append_nil, List.map_map]
    exact List.map_id'' (fun c => Char.ofNat_toNat c) text
  rw [Directory.text?, hfound]
  show (do
    let codes ← ((plan.directory data).numbers data 256
      ⟨tag, ⟨.unsigned, 1⟩, (text.map Char.toNat ++ [0]).length, place⟩).toOption
    some ((codes.takeWhile (· ≠ 0)).map Char.ofNat)) = some text
  rw [hnumbers]
  exact congrArg some hcut

theorem Plan.Heads.text?_of_silent (h : plan.Heads data) (hsilent : plan.Silent tag) :
    (plan.directory data).text? data tag = none := by
  rw [Directory.text?, h.field?_of_silent hsilent]
  rfl

end PointElevation.Tiff
