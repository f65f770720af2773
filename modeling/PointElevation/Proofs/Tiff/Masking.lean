import Mathlib.Data.Bool.AllAny
import PointElevation.Proofs.Tiff.Reading
import PointElevation.Proofs.Tiff.Spelling

/-!
# What an integer hides among integers

A pixel is hidden if its sample and the value for missing data are the same in single precision
(`SampleType.Hides`), which is less than that they are the same.  Up to the twenty-fourth power of
two it makes no difference, so an integer hides itself and nothing else there (`hides_iff_eq`);
beyond it hides its neighbours with it.  Beyond the fifty-third, where only integers of eight bytes
are, the value has been rounded once before, and may have left the range of the samples; then it
hides nothing.

`readTile_masks` puts this together for files: the raster is not-a-number where the sample is
hidden, and has all other samples in single precision.
-/

namespace PointElevation.Tiff

open PointElevation.Number (Binary Format Single)

/-! ## What hides a sample -/

/-- An integer hides another one among samples of a type: in double precision it is in the range of
the type, and then in single precision it is the other one. -/
def SampleType.Hides (t : SampleType) (n m : Int) : Prop :=
  t.holds ((Binary.ofInt n).roundTo .double) = true ∧
    Single.ofInt m = Single.ofBinary ((Binary.ofInt n).roundTo .double)

/-- The type has the integers of eight bytes, or shorter ones, with or without sign. -/
theorem kind_of_fits {t : SampleType} {n : Int} (h : (Stored.whole n).Fits t) :
    t.kind = .unsigned ∨ t.kind = .signed := by
  rcases h with ⟨hkind, -⟩ | ⟨hkind, -⟩
  · exact .inl hkind
  · exact .inr hkind

section Hidden

variable {t : SampleType} {text : List Char} {n : Int}

theorem natAbs_lt_of_fits (hplain : t.IsPlain) (hn : (Stored.whole n).Fits t) :
    n.natAbs < 2 ^ t.bits := by
  have hbits := hplain.bits_eq
  rcases hn with ⟨-, hlow, hhigh⟩ | ⟨-, hlow, hhigh⟩
  · have hcast : ((2 ^ t.bits : Nat) : Int) = 2 ^ t.bits := by push_cast; rfl
    omega
  · have hcast : ((2 ^ (t.bits - 1) : Nat) : Int) = 2 ^ (t.bits - 1) := by push_cast; rfl
    have hhalf : 2 ^ (t.bits - 1) < 2 ^ t.bits := Nat.pow_lt_pow_right (by decide) (by omega)
    omega

/-- An integer of the type is in its range. -/
theorem inRange_of_fits (hplain : t.IsPlain) (hn : (Stored.whole n).Fits t) :
    t.least ≤ n ∧ n ≤ t.greatest := by
  have hheld : t.heldBits = t.bits := by
    rcases hplain.bits_eq with hbits | hbits | hbits | hbits
    all_goals
      rw [SampleType.heldBits, hbits]
      rfl
  rcases hn with ⟨hkind, hlow, hhigh⟩ | ⟨hkind, hlow, hhigh⟩
  · rw [SampleType.least, SampleType.greatest, hkind, hheld]
    exact ⟨hlow, Int.le_sub_one_of_lt hhigh⟩
  · rw [SampleType.least, SampleType.greatest, hkind, hheld]
    exact ⟨hlow, Int.le_sub_one_of_lt hhigh⟩

/-- The two zeros are in the same ranges. -/
theorem holds_finite (t : SampleType) (negative : Bool) (size : Nat) :
    t.holds ((Binary.finite negative size 0).roundTo .double) =
      t.holds ((Binary.ofInt (if negative then -(size : Int) else size)).roundTo .double) := by
  by_cases hzero : size = 0
  · rw [hzero]
    cases negative <;> rfl
  · rw [Binary.finite_eq_ofInt hzero]

/-- Among integers the value hides what an integer hides among samples of a type, and nothing
else. -/
def NoData.Masks (d : NoData) (t : SampleType) (n : Int) : Prop :=
  ∀ m, (t.Hides n m → d.apply (.ofInt m) = Single.notANumber) ∧
    (¬ t.Hides n m → d.apply (.ofInt m) = .ofInt m)

/-- A size with a sign hides as the integer does that the two are. -/
theorem masks_of_hiddenBy (t : SampleType) {negative : Bool} {size : Nat}
    (hn : n = if negative then -(size : Int) else size) (filler : Single) :
    NoData.Masks ⟨NoData.hiddenBy t ((Binary.finite negative size 0).roundTo .double), filler⟩ t
      n := by
  intro m
  have hholds := holds_finite t negative size
  have hequals := Single.equals_ofBinary_iff m negative size
  rw [← hn] at hholds hequals
  unfold SampleType.Hides
  rw [← hholds, ← hequals]
  simp only [NoData.apply, NoData.hiddenBy]
  constructor
  · rintro ⟨hin, heq⟩
    rw [if_pos hin]
    exact if_pos heq
  · intro hnot
    by_cases hin : t.holds ((Binary.finite negative size 0).roundTo .double) = true
    · rw [if_pos hin]
      exact if_neg fun heq => hnot ⟨hin, heq⟩
    · rw [if_neg hin]

/-- A text that spells an integer of the type hides what the integer hides. -/
theorem masks_ofText (hplain : t.IsPlain) (hspells : Spells text n)
    (hn : (Stored.whole n).Fits t) : (NoData.ofText t text).Masks t n := by
  have hkind := kind_of_fits hn
  have hsize : n.natAbs < 2 ^ 64 := by
    refine lt_of_lt_of_le (natAbs_lt_of_fits hplain hn) (Nat.pow_le_pow_right Nat.two_pos ?_)
    rcases hplain.bits_eq with hbits | hbits | hbits | hbits <;> omega
  obtain ⟨negative, size, hvalue, hnonempty, hmark, hread⟩ := leadingNumber_of_spells hspells hsize
  have hsingle : t ≠ ⟨.floating, 32⟩ := by
    rintro rfl
    rcases hkind with hkind | hkind <;> cases hkind
  have hempty : text.isEmpty = false := by simpa using hnonempty
  simp only [NoData.ofText, hempty, Bool.false_eq_true, if_false, hmark, hread, if_neg hsingle]
  -- among samples of eight bytes the text is read as an integer, otherwise in double precision
  split
  · rename_i hlong
    have hbits : t.bits = 64 := by
      simp only [SampleType.isLongInteger, Bool.and_eq_true, decide_eq_true_eq] at hlong
      exact hlong.2
    rw [leadingInteger_of_spells hspells hbits hn]
    refine masks_of_hiddenBy t ?_ _
    simp only [decide_eq_true_eq]
    omega
  · exact masks_of_hiddenBy t hvalue _

/-- Double precision keeps an integer of the type in its range up to the fifty-third power of
two. -/
theorem holds_of_fits (hplain : t.IsPlain) (hn : (Stored.whole n).Fits t)
    (hlt : n.natAbs < 2 ^ 53) : t.holds ((Binary.ofInt n).roundTo .double) = true := by
  have hdouble : Format.double.fractionBits + 1 < Format.double.maxExponent := by decide
  obtain ⟨k, hk⟩ := Number.roundTo_of_lt hdouble hlt (decide (n < 0))
  have hunit : (-(k : Int)).toNat = 0 := by omega
  have hshift : (- -(k : Int)).toNat = k := by omega
  -- the bits behind the point are zeros, so the bounds may be compared without them
  have hquotient : ((Binary.ofInt n).roundTo .double).quotient? = some (n * 2 ^ k, 2 ^ k) := by
    rw [Binary.ofInt, hk]
    simp only [Binary.quotient?, hunit, hshift, decide_eq_true_eq]
    have hsize : ((n.natAbs * 2 ^ k * Nat.pow 2 0 : Nat) : Int) = (n.natAbs : Int) * 2 ^ k := by
      push_cast
      exact Int.mul_one _
    rw [hsize]
    congr 2
    split
    · rw [← Int.neg_mul]
      congr 1
      omega
    · congr 1
      omega
  obtain ⟨hlow, hhigh⟩ := inRange_of_fits hplain hn
  have hpos : (0 : Int) ≤ 2 ^ k := Int.le_of_lt (Int.pow_pos (by decide))
  simp only [SampleType.holds, hquotient, Bool.and_eq_true, decide_eq_true_eq, Nat.cast_pow,
    Nat.cast_ofNat]
  exact ⟨Int.mul_le_mul_of_nonneg_right hlow hpos, Int.mul_le_mul_of_nonneg_right hhigh hpos⟩

/-- Up to the fifty-third power of two an integer of the type hides what is the same in single
precision, -/
theorem hides_iff (hplain : t.IsPlain) (hn : (Stored.whole n).Fits t) (hlt : n.natAbs < 2 ^ 53)
    (m : Int) : t.Hides n m ↔ Single.ofInt m = Single.ofInt n := by
  rw [SampleType.Hides, Single.ofBinary_double hlt]
  exact and_iff_right (holds_of_fits hplain hn hlt)

/-- and up to the twenty-fourth only itself. -/
theorem hides_iff_eq (hplain : t.IsPlain) (hn : (Stored.whole n).Fits t)
    (hlt : n.natAbs < 2 ^ 24) (m : Int) : t.Hides n m ↔ m = n := by
  rw [hides_iff hplain hn (by omega), Single.ofInt_eq_iff hlt]

/-- A sample of a type that has integers is one. -/
theorem exists_whole (hplain : t.IsPlain) (hn : (Stored.whole n).Fits t) {s : Stored}
    (hs : s.Fits t) : ∃ m, s = .whole m := by
  cases s with
  | whole m => exact ⟨m, rfl⟩
  | single _ =>
      obtain rfl : t = ⟨.floating, 32⟩ := hs
      rcases kind_of_fits hn with hkind | hkind <;> cases hkind
  | double _ =>
      obtain rfl : t = ⟨.floating, 64⟩ := hs
      rcases kind_of_fits hn with hkind | hkind <;> cases hkind

end Hidden

/-! ## Files that declare an integer -/

section Files

variable {p : Picture} {plan : Plan} {data : ByteArray} {path : FilePath} {host : Host}

/-- In a picture of integers that is written with an integer of their type for missing data, a pixel
is not-a-number exactly if its sample is hidden, and has its sample in single precision otherwise.
Hidden is what is the same in single precision, and it is nothing else if the samples have one or
two bytes, or if the value is below the twenty-fourth power of two. -/
theorem readTile_masks {text : List Char} {n : Int} (h : p.WrittenIn plan data)
    (hdeclared : plan.declared = some text) (hspells : Spells text n)
    (hn : (Stored.whole n).Fits p.type) (hfile : host.disk.read path = .ok data)
    (hnotes : ∀ notes, host.disk.read (sideFile path) ≠ .ok notes) {band : Nat}
    (hband : band < p.bands) :
    ∃ r, readTile path band host = .ok r host ∧ r.rows = p.rows ∧ r.columns = p.columns ∧
      ∀ row < p.rows, ∀ column < p.columns, ∃ m value,
        p.sample row column band = .whole m ∧ r.at? row column = some value ∧
          (value.isNaN = true ↔ p.type.Hides n m) ∧ (value.isNaN = false → value = .ofInt m) ∧
          (n.natAbs < 2 ^ 53 → (value.isNaN = true ↔ Single.ofInt m = Single.ofInt n)) ∧
          (p.type.bits ≤ 16 ∨ n.natAbs < 2 ^ 24 → (value.isNaN = true ↔ m = n)) := by
  have hplain := h.proper.plain
  obtain ⟨r, hread, hshown⟩ := h.exists_read none hband
  have hnoData : plan.noData p none = .ofText p.type text := by simp only [Plan.noData, hdeclared]
  refine ⟨r, ?_, hshown.rows, hshown.columns, fun row hrow column hcolumn => ?_⟩
  · rw [readTile_eq _ hfile, side_eq_none hnotes, Option.map_none, hread]
  · obtain ⟨m, hm⟩ := exists_whole hplain hn (h.proper.fits row hrow column hcolumn band hband)
    -- the value of the pixel is what the text does to the sample
    have hvalue := hshown.value row hrow column hcolumn
    rw [Option.bind_none, hnoData, hm] at hvalue
    change r.at? row column = some ((NoData.ofText p.type text).apply (.ofInt m)) at hvalue
    obtain ⟨hhidden, hshows⟩ := masks_ofText hplain hspells hn m
    have hiff : ((NoData.ofText p.type text).apply (.ofInt m)).isNaN = true ↔
        p.type.Hides n m := by
      by_cases hides : p.type.Hides n m
      · rw [hhidden hides]
        exact iff_of_true (by decide +kernel) hides
      · rw [hshows hides, Single.isNaN_ofInt]
        exact iff_of_false Bool.false_ne_true hides
    refine ⟨m, _, hm, hvalue, hiff, fun hnumber => ?_, fun hlt => ?_, fun hsmall => ?_⟩
    · refine hshows fun hides => ?_
      rw [hiff.mpr hides] at hnumber
      cases hnumber
    · exact hiff.trans (hides_iff hplain hn hlt m)
    · have hlt : n.natAbs < 2 ^ 24 := by
        rcases hsmall with hbits | hlt
        · refine lt_of_lt_of_le (natAbs_lt_of_fits hplain hn) (Nat.pow_le_pow_right Nat.two_pos ?_)
          omega
        · exact hlt
      exact hiff.trans (hides_iff_eq hplain hn hlt m)

end Files

/-! ## Two neighbours -/

/-- One row of three signed numbers, of which the first two are the same in single precision. -/
def crowdedPicture : Picture where
  rows := 1
  columns := 3
  bands := 1
  type := ⟨.signed, 32⟩
  sample := fun _ column _ => .whole ([16777216, 16777217, -5].getD column 0)

/-- One strip, and behind it the second of the numbers as the text for missing data. -/
def crowdedPlan : Plan where
  order := .leastFirst
  start := 8
  tags := [256, 257, 258, 273, 277, 278, 279, 339, 42113]
  cutting := .strips 1
  interleaved := true
  place := fun _ => 122
  declared := some " 16777217".toList

def crowdedFile : ByteArray := ⟨#[
  73, 73, 42, 0, 8, 0, 0, 0, 9, 0, 0, 1, 3, 0, 1, 0,
  0, 0, 3, 0, 0, 0, 1, 1, 3, 0, 1, 0, 0, 0, 1, 0,
  0, 0, 2, 1, 3, 0, 1, 0, 0, 0, 32, 0, 0, 0, 17, 1,
  4, 0, 1, 0, 0, 0, 122, 0, 0, 0, 21, 1, 3, 0, 1, 0,
  0, 0, 1, 0, 0, 0, 22, 1, 3, 0, 1, 0, 0, 0, 1, 0,
  0, 0, 23, 1, 4, 0, 1, 0, 0, 0, 12, 0, 0, 0, 83, 1,
  3, 0, 1, 0, 0, 0, 2, 0, 0, 0, 129, 164, 2, 0, 10, 0,
  0, 0, 134, 0, 0, 0, 0, 0, 0, 0, 0, 0, 0, 1, 1, 0,
  0, 1, 251, 255, 255, 255, 32, 49, 54, 55, 55, 55, 50, 49, 55, 0]⟩

theorem crowded_writtenIn : crowdedPicture.WrittenIn crowdedPlan crowdedFile where
  proper :=
    { rows_pos := by decide
      rows_lt := by decide
      columns_pos := by decide
      columns_lt := by decide
      bands_pos := by decide
      bands_lt := by decide
      plain := .inl ⟨.inr rfl, by decide⟩
      fits := by decide +kernel }
  heads := by decide +kernel
  described :=
    { rows := ⟨3, 2, 1, 30, by decide, by decide +kernel⟩
      columns := ⟨3, 2, 0, 18, by decide, by decide +kernel⟩
      bands := .inl ⟨3, 2, 4, 66, by decide, by decide +kernel⟩
      bits := .inl ⟨3, 2, 2, 42, by decide, by decide +kernel⟩
      format := .inl (.inl ⟨3, 2, 7, 102, by decide, by decide +kernel⟩)
      compression := .inr (by decide)
      arrangement := .inr (by decide)
      colours := .inr (by decide)
      bitOrder := .inr (by decide)
      further := .inr (by decide)
      silent := by decide }
  cut :=
    { rows_pos := by decide
      told := .inl ⟨3, 2, 5, 78, by decide, by decide +kernel⟩
      silent := by decide }
  next := by decide +kernel
  places := ⟨4, 4, 3, 54, by decide, by decide +kernel⟩
  sizes := ⟨4, 4, 6, 90, by decide, by decide +kernel⟩
  laid := by decide +kernel
  declared := ⟨List.all_iff_forall_prop.mp (by decide), by decide, 8, 134, by decide +kernel⟩

/-- Both neighbours are hidden, although only the second is declared. -/
theorem readTile_masks_crowded :
    let host : Host := ⟨soleFile "tile.tif" crowdedFile, ⟨[], []⟩, ∅⟩
    let path : FilePath := .ofLocation ["tile.tif"]
    crowdedPicture.WrittenIn crowdedPlan crowdedFile ∧ Spells " 16777217".toList 16777217 ∧
      (Stored.whole 16777217).Fits crowdedPicture.type ∧
      host.disk.read path = .ok crowdedFile ∧
      (∀ notes, host.disk.read (sideFile path) ≠ .ok notes) ∧
      ∃ r, readTile path 0 host = .ok r host ∧ r.rows = 1 ∧ r.columns = 3 ∧
        (∃ value, r.at? 0 0 = some value ∧ value.isNaN = true) ∧
        r.at? 0 2 = some (.ofInt (-5)) := by
  intro host path
  have hfile : host.disk.read path = .ok crowdedFile := rfl
  have hnotes : ∀ notes, host.disk.read (sideFile path) ≠ .ok notes :=
    fun _ => (side_soleFile _).symm ▸ nofun
  have hspells : Spells " 16777217".toList 16777217 :=
    .intro 1 0 List.mem_cons_self (List.cons_ne_nil '1' "6777217".toList)
      (List.all_eq_true.mp (by decide))
  have hfits : (Stored.whole 16777217).Fits crowdedPicture.type := by decide
  refine ⟨crowded_writtenIn, hspells, hfits, hfile, hnotes, ?_⟩
  obtain ⟨r, hread, hrows, hcolumns, hpixel⟩ :=
    readTile_masks crowded_writtenIn rfl hspells hfits hfile hnotes (Nat.one_pos)
  refine ⟨r, hread, hrows, hcolumns, ?_, ?_⟩
  · obtain ⟨m, value, hm, hvalue, -, -, hiff, -⟩ := hpixel 0 (by decide) 0 (by decide)
    cases hm
    exact ⟨value, hvalue, (hiff (by decide)).mpr (by decide +kernel)⟩
  · obtain ⟨m, value, hm, hvalue, -, hshows, hiff, -⟩ := hpixel 0 (by decide) 2 (by decide)
    cases hm
    have hnumber : value.isNaN ≠ true := fun hnone =>
      absurd ((hiff (by decide)).mp hnone) (by decide +kernel)
    rw [hvalue, hshows (Bool.eq_false_of_not_eq_true hnumber)]
    rfl

end PointElevation.Tiff
