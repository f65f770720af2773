import PointElevation.Number.Layout
import PointElevation.Proofs.Json.Grammar
import PointElevation.Proofs.Number.Machine
import PointElevation.Proofs.Number.Shortest

/-!
# The text of a floating point number

A finite number is written by the digits of its shortest decimal, with the point among them, in
front of them or behind them, or with an exponent.  Each of these is a text of a decimal of the
same value (`exists_spells_layout`), if not of the same one: zeros in front of the point are digits
too.  And as only the value matters to a reader, the number is read back (`spells_render`).
-/

namespace PointElevation.Json

open PointElevation.Number (Binary Decimal Format NumberStyle Positive aligned_decode_double
  digitChars fits_decode_double isFinite_iff jsonStyle padded range_of_near)

/-! ## Digits -/

/-- The digits of a number that is not zero do not begin with a zero. -/
theorem head?_toDigits_ne {n : Nat} (hn : 0 < n) : (Nat.toDigits 10 n).head? ≠ some '0' := by
  induction n using Nat.strongRecOn with
  | ind n ih =>
      by_cases hsmall : n < 10
      · rw [Nat.toDigits_of_lt_base hsmall]
        intro heq
        have hzero : n.digitChar = '0' := Option.some.inj heq
        rw [Nat.digitChar_eq_zero] at hzero
        omega
      · have hhead := ih (n / 10) (by omega) (by omega)
        rw [Nat.toDigits_of_base_le (by decide) (Nat.le_of_not_lt hsmall)]
        obtain ⟨c, tail, hcons⟩ :=
          List.exists_cons_of_ne_nil (Nat.toDigits_ne_nil (b := 10) (n := n / 10))
        rw [hcons] at hhead ⊢
        exact hhead

theorem whole_toDigits (n : Nat) : Whole (Nat.toDigits 10 n) := by
  refine ⟨⟨Nat.toDigits_ne_nil, fun c hc => Nat.isDigit_of_mem_toDigits (by decide) (by decide) hc⟩,
    fun hzero => ?_⟩
  obtain rfl | hn := Nat.eq_zero_or_pos n
  · rfl
  · exact absurd hzero (head?_toDigits_ne hn)

theorem natOf_append (front back : List Char) :
    natOf (front ++ back) = natOf front * 10 ^ back.length + natOf back := by
  rw [natOf, natOf, natOf, Nat.ofDigitChars_append, Nat.ofDigitChars_eq_ofDigitChars_zero,
    Nat.mul_comm]

theorem natOf_zeros (count : Nat) : natOf (List.replicate count '0') = 0 := by
  rw [natOf, Nat.ofDigitChars_replicate_zero, Nat.mul_zero]

theorem natOf_toDigits (n : Nat) : natOf (Nat.toDigits 10 n) = n := Nat.ofDigitChars_ten_toDigits

/-- Digits after zeros are the same number. -/
theorem natOf_zeros_append (count : Nat) (digits : List Char) :
    natOf (List.replicate count '0' ++ digits) = natOf digits := by
  rw [natOf_append, natOf_zeros, Nat.zero_mul, Nat.zero_add]

/-! ## Decimals -/

/-- A text of a decimal that has a point or an exponent. -/
inductive SpellsDecimal : List Char → Decimal → Prop
  | intro {digits pointed places mark : List Char} {exponent : Int} : Whole digits →
      SpellsPlaces pointed places → SpellsExponent mark exponent → pointed ++ mark ≠ [] →
      SpellsDecimal (digits ++ (pointed ++ mark))
        ⟨natOf (digits ++ places), exponent - places.length⟩

theorem SpellsDecimal.spells {text : List Char} {d : Decimal} (h : SpellsDecimal text d)
    (negative : Bool) :
    Spells (minus negative ++ text) (.float (d.toBinary negative).toFloat) := by
  obtain ⟨hdigits, hplaces, hmark, hne⟩ := h
  exact .float negative hdigits hplaces hmark hne

theorem isDigit_of_mem_zeros {count : Nat} : ∀ c ∈ List.replicate count '0', c.isDigit = true := by
  intro c hc
  rw [List.eq_of_mem_replicate hc]
  rfl

/-- Below one, zeros stand between the point and the digits. -/
theorem spells_plain_of_neg {n : Nat} {leading : Int} (hleading : leading < 0) :
    SpellsDecimal (NumberStyle.plain (Nat.toDigits 10 n) leading)
      ⟨n, leading - ((Nat.toDigits 10 n).length - 1 : Nat)⟩ := by
  obtain ⟨⟨hne, hdigits⟩, -⟩ := whole_toDigits n
  have hlength := List.length_pos_iff.mpr hne
  have hplaces : SpellsPlaces
      ('.' :: (List.replicate (-leading - 1).toNat '0' ++ Nat.toDigits 10 n))
      (List.replicate (-leading - 1).toNat '0' ++ Nat.toDigits 10 n) :=
    .present ⟨List.append_ne_nil_of_right_ne_nil _ hne,
      List.forall_mem_append.mpr ⟨isDigit_of_mem_zeros, hdigits⟩⟩
  have htext := SpellsDecimal.intro (whole_toDigits 0) hplaces .absent (by simp)
  have hvalue : natOf (Nat.toDigits 10 0 ++
      (List.replicate (-leading - 1).toNat '0' ++ Nat.toDigits 10 n)) = n := by
    rw [natOf_append, natOf_zeros_append, natOf_toDigits, natOf_toDigits, Nat.zero_mul,
      Nat.zero_add]
  have hexponent :
      0 - ((List.replicate (-leading - 1).toNat '0' ++ Nat.toDigits 10 n).length : Int) =
        leading - ((Nat.toDigits 10 n).length - 1 : Nat) := by
    rw [List.length_append, List.length_replicate]
    omega
  rw [hvalue, hexponent, List.append_nil] at htext
  rw [NumberStyle.plain, if_pos hleading]
  exact htext

/-- The first digits of a number. -/
theorem whole_take (n : Nat) {count : Nat} (hcount : 0 < count) :
    Whole ((Nat.toDigits 10 n).take count) := by
  obtain ⟨⟨hne, hdigits⟩, hzero⟩ := whole_toDigits n
  obtain ⟨c, tail, hcons⟩ := List.exists_cons_of_ne_nil hne
  obtain ⟨count, rfl⟩ := Nat.exists_eq_add_of_le' hcount
  refine ⟨⟨?_, fun c hc => hdigits c (List.mem_of_mem_take hc)⟩, fun hhead => ?_⟩
  · rw [hcons, List.take_succ_cons]
    exact List.cons_ne_nil _ _
  · have hall : Nat.toDigits 10 n = ['0'] := by
      refine hzero ?_
      rw [hcons, List.take_succ_cons] at hhead
      rw [hcons]
      exact hhead
    rw [hall, List.take_succ_cons, List.take_nil]

/-- Digits on both sides of the point. -/
theorem spells_plain_of_lt {n : Nat} {leading : Int} (hleading : 0 ≤ leading)
    (hlt : leading.toNat + 1 < (Nat.toDigits 10 n).length) :
    SpellsDecimal (NumberStyle.plain (Nat.toDigits 10 n) leading)
      ⟨n, leading - ((Nat.toDigits 10 n).length - 1 : Nat)⟩ := by
  have hfraction : (Nat.toDigits 10 n).drop (leading.toNat + 1) ≠ [] := by
    rw [ne_eq, List.drop_eq_nil_iff]
    omega
  have hplaces := SpellsPlaces.present
    ⟨hfraction, fun c hc => (whole_toDigits n).1.2 c (List.mem_of_mem_drop hc)⟩
  have htext := SpellsDecimal.intro (whole_take n leading.toNat.succ_pos) hplaces .absent (by simp)
  have hexponent : 0 - (((Nat.toDigits 10 n).drop (leading.toNat + 1)).length : Int) =
      leading - ((Nat.toDigits 10 n).length - 1 : Nat) := by
    rw [List.length_drop]
    omega
  rw [Nat.succ_eq_add_one, List.take_append_drop, natOf_toDigits, hexponent,
    List.append_nil] at htext
  have hzeros : leading.toNat + 1 - (Nat.toDigits 10 n).length = 0 := by omega
  rw [NumberStyle.plain, if_neg (not_lt.mpr hleading)]
  dsimp only
  rw [hzeros, List.replicate_zero, List.append_nil, List.isEmpty_eq_false_iff.mpr hfraction]
  exact htext

/-- Digits with zeros up to the point, and one behind it. -/
theorem spells_plain_of_le {n : Nat} {leading : Int} (hleading : 0 ≤ leading)
    (hle : (Nat.toDigits 10 n).length ≤ leading.toNat + 1) (hzero : n = 0 → leading = 0) :
    SpellsDecimal (NumberStyle.plain (Nat.toDigits 10 n) leading)
      ⟨n * 10 ^ (leading.toNat + 1 - (Nat.toDigits 10 n).length + 1), -1⟩ := by
  obtain ⟨⟨hne, hdigits⟩, -⟩ := whole_toDigits n
  generalize hzeros : leading.toNat + 1 - (Nat.toDigits 10 n).length = zeros
  have hwhole : Whole (Nat.toDigits 10 n ++ List.replicate zeros '0') := by
    refine ⟨⟨List.append_ne_nil_of_left_ne_nil hne _,
      List.forall_mem_append.mpr ⟨hdigits, isDigit_of_mem_zeros⟩⟩, fun hhead => ?_⟩
    obtain rfl | hn := Nat.eq_zero_or_pos n
    · obtain rfl : zeros = 0 := by
        rw [← hzeros, hzero rfl]
        rfl
      rfl
    · rw [List.head?_append_of_ne_nil _ hne] at hhead
      exact absurd hhead (head?_toDigits_ne hn)
  have hplaces : SpellsPlaces ['.', '0'] ['0'] := .present ⟨by decide, by simp⟩
  have htext := SpellsDecimal.intro hwhole hplaces .absent (by simp)
  have hvalue : natOf (Nat.toDigits 10 n ++ List.replicate zeros '0' ++ ['0']) =
      n * 10 ^ (zeros + 1) := by
    have hlast : natOf ['0'] = 0 := natOf_zeros 1
    rw [natOf_append, natOf_append, natOf_toDigits, natOf_zeros, List.length_replicate, hlast,
      pow_succ, ← Nat.mul_assoc]
    rfl
  rw [hvalue, List.append_nil] at htext
  have hfraction : (Nat.toDigits 10 n).drop (leading.toNat + 1) = [] := List.drop_eq_nil_iff.mpr hle
  rw [NumberStyle.plain, if_neg (not_lt.mpr hleading)]
  dsimp only
  rw [hzeros, hfraction, List.take_of_length_le hle]
  exact htext

/-- An exponent with its sign, and with zeros if it is short. -/
theorem spells_exponent (width : Nat) (exponent : Int) :
    SpellsExponent ('e' :: (if exponent < 0 then '-' else '+') ::
      padded width (digitChars exponent.natAbs)) exponent := by
  obtain ⟨⟨hne, hdigits⟩, -⟩ := whole_toDigits exponent.natAbs
  have hpadded : Digits (padded width (digitChars exponent.natAbs)) :=
    ⟨List.append_ne_nil_of_right_ne_nil _ hne,
      List.forall_mem_append.mpr ⟨isDigit_of_mem_zeros, hdigits⟩⟩
  have hvalue : natOf (padded width (digitChars exponent.natAbs)) = exponent.natAbs := by
    rw [padded, natOf_zeros_append, digitChars, natOf_toDigits]
  have hmark : 'e' ∈ ['e', 'E'] := List.mem_cons_self
  by_cases hneg : exponent < 0
  · have htext := SpellsExponent.present hmark (by simp : ['-'] ∈ [[], ['+'], ['-']]) hpadded
    have hsigned : signed (['-'] = ['-']) exponent.natAbs = exponent := by
      simp only [signed, decide_true, if_true]
      omega
    rw [hvalue, hsigned] at htext
    rw [if_pos hneg]
    exact htext
  · have htext := SpellsExponent.present hmark (by simp : ['+'] ∈ [[], ['+'], ['-']]) hpadded
    have hsigned : signed (['+'] = ['-']) exponent.natAbs = exponent := by
      have hsign : decide (['+'] = ['-']) = false := rfl
      rw [signed, hsign, if_neg Bool.false_ne_true]
      omega
    rw [hvalue, hsigned] at htext
    rw [if_neg hneg]
    exact htext

theorem spells_scientific (style : NumberStyle) (n : Nat) (leading : Int) :
    SpellsDecimal (style.scientific (Nat.toDigits 10 n) leading)
      ⟨n, leading - ((Nat.toDigits 10 n).length - 1 : Nat)⟩ := by
  obtain ⟨⟨hne, hdigits⟩, -⟩ := whole_toDigits n
  have hvalue := natOf_toDigits n
  have hmark := spells_exponent style.exponentWidth leading
  have hdigit {c : Char} (hc : c.isDigit = true) : Whole [c] :=
    ⟨⟨List.cons_ne_nil _ _, List.forall_mem_singleton.mpr hc⟩, fun hzero => by
      rw [Option.some.inj hzero]⟩
  unfold NumberStyle.scientific
  dsimp only
  generalize Nat.toDigits 10 n = digits at hne hdigits hvalue ⊢
  match digits with
  | [] => exact absurd rfl hne
  | [c] =>
      have hc : c.isDigit = true := hdigits c List.mem_cons_self
      have htext := SpellsDecimal.intro (hdigit hc) .absent hmark (by simp)
      rw [List.append_nil, hvalue] at htext
      exact htext
  | first :: second :: rest =>
      obtain ⟨hfirst, hrest⟩ := List.forall_mem_cons.mp hdigits
      have hplaces := SpellsPlaces.present ⟨List.cons_ne_nil _ _, hrest⟩
      have htext := SpellsDecimal.intro (hdigit hfirst) hplaces hmark (by simp)
      simp only [List.singleton_append, hvalue] at htext
      exact htext

/-- Whichever notation is taken, the value of a decimal stays the same. -/
theorem exists_spells_layout (style : NumberStyle) {d : Decimal}
    (hzero : d.digits = 0 → d.exponent = 0) :
    ∃ e, SpellsDecimal (style.layout d) e ∧ e.value = d.value ∧
      min d.exponent (-1) ≤ e.exponent := by
  have hlength := List.length_pos_iff.mpr (whole_toDigits d.digits).1.1
  have hself : (⟨d.digits, d.exponent + ((Nat.toDigits 10 d.digits).length - 1 : Nat) -
      ((Nat.toDigits 10 d.digits).length - 1 : Nat)⟩ : Decimal) = d := by rw [Int.add_sub_cancel]
  unfold NumberStyle.layout digitChars
  dsimp only
  generalize hlead : d.exponent + ((Nat.toDigits 10 d.digits).length - 1 : Nat) = leading
  rw [hlead] at hself
  split
  · rcases lt_or_ge leading 0 with hneg | hnonneg
    · have htext := spells_plain_of_neg (n := d.digits) hneg
      rw [hself] at htext
      exact ⟨d, htext, rfl, min_le_left ..⟩
    · rcases lt_or_ge (leading.toNat + 1) (Nat.toDigits 10 d.digits).length with hlt | hle
      · have htext := spells_plain_of_lt hnonneg hlt
        rw [hself] at htext
        exact ⟨d, htext, rfl, min_le_left ..⟩
      · have hleading : d.digits = 0 → leading = 0 := by
          intro h
          rw [← hlead, hzero h, h]
          rfl
        have hexponent :
            (leading.toNat + 1 - (Nat.toDigits 10 d.digits).length : Nat) = d.exponent := by
          omega
        refine ⟨_, spells_plain_of_le hnonneg hle hleading, ?_, min_le_right ..⟩
        rw [Decimal.value, Decimal.value, ← hexponent, zpow_natCast, zpow_neg_one, pow_succ]
        push_cast
        field_simp
  · have htext := spells_scientific style d.digits leading
    rw [hself] at htext
    exact ⟨d, htext, rfl, min_le_left ..⟩

/-! ## Machine numbers -/

theorem signed_eq_append (negative : Bool) (text : List Char) :
    Number.signed negative text = minus negative ++ text := by
  cases negative <;> rfl

/-- The decimal that is written for a value is read as that value. -/
theorem exists_spells_finite (style : NumberStyle) {negative : Bool} {mantissa : Nat} {unit : Int}
    (hfits : (Binary.finite negative mantissa unit).Fits .double)
    (haligned : (Binary.finite negative mantissa unit).Aligned .double) :
    ∃ text d, (style.render (.finite negative mantissa unit)).toList = minus negative ++ text ∧
      SpellsDecimal text d ∧ d.toBinary negative = .finite negative mantissa unit := by
  unfold NumberStyle.render
  dsimp only
  rw [String.toList_ofList, signed_eq_append]
  by_cases hzero : mantissa = 0
  · obtain ⟨e, htext, hvalue, -⟩ := exists_spells_layout style (d := ⟨0, 0⟩) fun _ => rfl
    have hdigits : e.digits = 0 := by
      have hten : (10 : ℚ) ^ e.exponent ≠ 0 := zpow_ne_zero _ (by norm_num)
      have hproduct : (e.digits * 10 ^ e.exponent : ℚ) = 0 := by
        rw [← Decimal.value, hvalue, Decimal.value, Nat.cast_zero, zero_mul]
      exact_mod_cast (mul_eq_zero.mp hproduct).resolve_right hten
    have hunit : unit = Format.double.leastUnit := by
      refine haligned.2.resolve_left (not_le.mpr ?_)
      rw [hzero]
      exact Nat.two_pow_pos _
    refine ⟨_, e, rfl, ?_, ?_⟩
    · rw [if_pos hzero]
      exact htext
    · rw [Decimal.toBinary, if_pos (.inl hdigits), hzero, hunit]
  · have hpos := Nat.pos_of_ne_zero hzero
    obtain ⟨hnear, hexponent⟩ :=
      Positive.shortest_spec (x := ⟨mantissa, unit⟩) hpos haligned.1
    obtain ⟨hlow, hhigh⟩ := range_of_near hpos hfits haligned.1 hnear
    have hdigits := (Decimal.magnitude_of_range hlow hhigh hexponent).1
    obtain ⟨e, htext, hvalue, hleast⟩ := exists_spells_layout style fun h => absurd h hdigits
    refine ⟨_, e, rfl, ?_, ?_⟩
    · rw [if_neg hzero]
      exact htext
    · rw [← hvalue] at hnear
      exact Decimal.toBinary_of_near hpos hfits haligned (by omega) hnear

/-- What is written for a finite number is a text of it. -/
theorem spells_render {x : Float} (hx : x.isFinite = true) :
    Spells (jsonStyle.render (Binary.ofFloat x)).toList (.float x) := by
  obtain ⟨negative, mantissa, unit, hvalue⟩ := isFinite_iff.mp hx
  have hfits : (Binary.ofFloat x).Fits .double := fits_decode_double _
  have haligned : (Binary.ofFloat x).Aligned .double := aligned_decode_double _
  rw [hvalue] at hfits haligned
  obtain ⟨text, d, htext, hspells, hread⟩ := exists_spells_finite jsonStyle hfits haligned
  have hfloat := hspells.spells negative
  rwa [hread, ← hvalue, Binary.toFloat_ofFloat, ← htext, ← hvalue] at hfloat

/-- There is no number in JSON for the others. -/
theorem render_of_not_isFinite {x : Float} (hx : x.isFinite = false) :
    jsonStyle.render (Binary.ofFloat x) = "null" := by
  cases hvalue : Binary.ofFloat x with
  | notANumber => rfl
  | infinite negative => cases negative <;> rfl
  | finite negative mantissa unit =>
      rw [isFinite_iff.mpr ⟨_, _, _, hvalue⟩] at hx
      cases hx

end PointElevation.Json
