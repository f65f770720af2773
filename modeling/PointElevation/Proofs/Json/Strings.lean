import PointElevation.Proofs.Json.Grammar

/-!
# Every text of a string is read

Between its quotes a string is a row of pieces, one for each character.  A piece is read into one
code unit or into two, and these join to the character again whatever follows: no character is a
surrogate itself, so an escaped pair never meets half of another.  By induction on the pieces the
whole string is read back, up to its closing quote.
-/

namespace PointElevation.Json

open PointElevation.Text (hexDigit hexDigits)

/-! ## Escapes -/

/-- A capital is a digit if its small letter is one. -/
theorem hexValue?_of_capital : ∀ n < 16, ∀ code < 91, 65 ≤ code →
    (Char.ofNat code).toLower = hexDigit n → hexValue? (Char.ofNat code) = some n := by
  decide

theorem hexValue?_hexDigit : ∀ n < 16, hexValue? (hexDigit n) = some n := by
  decide

theorem hexValue?_of_toLower {c : Char} {n : Nat} (hn : n < 16) (hc : c.toLower = hexDigit n) :
    hexValue? c = some n := by
  by_cases hcapital : 65 ≤ c.toNat ∧ c.toNat < 91
  · rw [← Char.ofNat_toNat c] at hc ⊢
    exact hexValue?_of_capital n hn c.toNat hcapital.2 hcapital.1 hc
  · have hlower : c.toLower = c := by
      refine dif_neg fun hletter => hcapital ?_
      have hlow : 65 ≤ c.toNat := UInt32.le_iff_toNat_le.mp hletter.1
      have hhigh : c.toNat ≤ 90 := UInt32.le_iff_toNat_le.mp hletter.2
      omega
    rw [← hlower, hc]
    exact hexValue?_hexDigit n hn

theorem codeUnit?_of_spells {digits : List Char} {unit : Nat} (hunit : unit < 0x10000)
    (h : SpellsUnit digits unit) :
    ∃ a b c d, digits = [a, b, c, d] ∧ codeUnit? a b c d = some unit := by
  have hlength : digits.length = 4 := by
    simpa [hexDigits] using congrArg List.length h
  obtain ⟨a, b, c, d, rfl⟩ : ∃ a b c d, digits = [a, b, c, d] := by
    match digits, hlength with
    | [a, b, c, d], _ => exact ⟨a, b, c, d, rfl⟩
  simp only [SpellsUnit, hexDigits, List.map_cons, List.map_nil, List.nil_append, List.cons_append,
    List.cons.injEq, and_true] at h
  obtain ⟨ha, hb, hc, hd⟩ := h
  refine ⟨a, b, c, d, rfl, ?_⟩
  rw [codeUnit?, hexValue?_of_toLower (by omega) ha, hexValue?_of_toLower (by omega) hb,
    hexValue?_of_toLower (by omega) hc, hexValue?_of_toLower (by omega) hd]
  show some _ = some _
  congr 1
  omega

/-! ## Joining code units -/

theorem isHighSurrogate_toNat (c : Char) : isHighSurrogate c.toNat = false := by
  have hvalid : c.toNat < 0xD800 ∨ 0xDFFF < c.toNat ∧ c.toNat < 0x110000 := c.valid
  simp only [isHighSurrogate, Bool.and_eq_false_iff, decide_eq_false_iff_not]
  omega

theorem isLowSurrogate_toNat (c : Char) : isLowSurrogate c.toNat = false := by
  have hvalid : c.toNat < 0xD800 ∨ 0xDFFF < c.toNat ∧ c.toNat < 0x110000 := c.valid
  simp only [isLowSurrogate, Bool.and_eq_false_iff, decide_eq_false_iff_not]
  omega

/-- A character that is one code unit stays alone. -/
theorem joinUnits_toNat (c : Char) (units : List Nat) :
    joinUnits (c.toNat :: units) = c :: joinUnits units := by
  have hchar : unitChar c.toNat = c := by
    rw [unitChar, isHighSurrogate_toNat, isLowSurrogate_toNat]
    exact Char.ofNat_toNat c
  cases units with
  | nil =>
      show [unitChar c.toNat] = [c]
      rw [hchar]
  | cons unit units =>
      rw [joinUnits, isHighSurrogate_toNat, hchar]
      rfl

/-- A character that is two code units is put together. -/
theorem joinUnits_pair {c : Char} (hc : 0x10000 ≤ c.toNat) (units : List Nat) :
    joinUnits ((0xD800 + (c.toNat - 0x10000) / 0x400) ::
      (0xDC00 + (c.toNat - 0x10000) % 0x400) :: units) = c :: joinUnits units := by
  have hvalid : c.toNat < 0xD800 ∨ 0xDFFF < c.toNat ∧ c.toNat < 0x110000 := c.valid
  have hhigh : isHighSurrogate (0xD800 + (c.toNat - 0x10000) / 0x400) = true := by
    simp only [isHighSurrogate, Bool.and_eq_true, decide_eq_true_eq]
    omega
  have hlow : isLowSurrogate (0xDC00 + (c.toNat - 0x10000) % 0x400) = true := by
    simp only [isLowSurrogate, Bool.and_eq_true, decide_eq_true_eq]
    omega
  have hcode : 0x10000 + (0xD800 + (c.toNat - 0x10000) / 0x400 - 0xD800) * 0x400 +
      (0xDC00 + (c.toNat - 0x10000) % 0x400 - 0xDC00) = c.toNat := by omega
  rw [joinUnits, hhigh, hlow, hcode, Char.ofNat_toNat]
  rfl

/-! ## Strings -/

/-- Reading a piece gives code units that join to its character. -/
theorem readUnits_of_spells {text : List Char} {c : Char} (h : SpellsChar text c) :
    ∃ units, (∀ more, joinUnits (units ++ more) = c :: joinUnits more) ∧
      ∀ rest, readUnits (text ++ rest) =
        (readUnits rest).map fun read => (units ++ read.1, read.2) := by
  cases h with
  | raw hcontrol hquote hbackslash =>
      refine ⟨[c.toNat], joinUnits_toNat c, fun rest => ?_⟩
      rw [List.singleton_append, readUnits, if_neg (Nat.not_lt.mpr hcontrol)]
      · rfl
      · exact hquote
      · exact fun _ _ _ _ _ heq => absurd heq hbackslash
      · exact fun _ _ heq => absurd heq hbackslash
  | short hletter =>
      refine ⟨[c.toNat], joinUnits_toNat c, fun rest => ?_⟩
      simp only [shortEscapes, List.mem_cons, List.not_mem_nil, or_false, Prod.mk.injEq] at hletter
      rcases hletter with ⟨rfl, rfl⟩ | ⟨rfl, rfl⟩ | ⟨rfl, rfl⟩ | ⟨rfl, rfl⟩ | ⟨rfl, rfl⟩ |
        ⟨rfl, rfl⟩ | ⟨rfl, rfl⟩ | ⟨rfl, rfl⟩
      all_goals rfl
  | unit hshort hdigits =>
      obtain ⟨a, b, x, d, rfl, hunit⟩ := codeUnit?_of_spells hshort hdigits
      refine ⟨[c.toNat], joinUnits_toNat c, fun rest => ?_⟩
      simp only [List.cons_append, List.nil_append]
      rw [readUnits, hunit]
      rfl
  | pair hlong hhigh hlow =>
      have hvalid : c.toNat < 0xD800 ∨ 0xDFFF < c.toNat ∧ c.toNat < 0x110000 := c.valid
      obtain ⟨a, b, x, d, rfl, hfirst⟩ := codeUnit?_of_spells (by omega) hhigh
      obtain ⟨a', b', x', d', rfl, hsecond⟩ := codeUnit?_of_spells (by omega) hlow
      refine ⟨[_, _], joinUnits_pair hlong, fun rest => ?_⟩
      simp only [List.cons_append, List.nil_append]
      rw [readUnits, hfirst]
      dsimp only
      rw [readUnits, hsecond]
      dsimp only
      rw [Option.map_map]
      rfl

/-- Reading goes on to the closing quote, and the code units join to the string. -/
theorem readUnits_closed {text cs : List Char} (h : SpellsChars text cs) (rest : List Char) :
    ∃ units, joinUnits units = cs ∧ readUnits (text ++ '"' :: rest) = some (units, rest) := by
  induction h with
  | nil => exact ⟨[], rfl, rfl⟩
  | @cons text c texts cs hc _ ih =>
      obtain ⟨units, hunits, hread⟩ := ih
      obtain ⟨first, hjoin, hfirst⟩ := readUnits_of_spells hc
      refine ⟨first ++ units, ?_, ?_⟩
      · rw [hjoin, hunits]
      · rw [List.append_assoc, hfirst, hread]
        rfl

/-- A string is read up to its closing quote. -/
theorem readString_of_spells {text : List Char} {s : String}
    (h : SpellsString text s) (rest : List Char) :
    ∃ inner, text = '"' :: inner ∧ readString (inner ++ rest) = some (s, rest) := by
  obtain @⟨inner, _, htext⟩ := h
  obtain ⟨units, hunits, hread⟩ := readUnits_closed htext rest
  refine ⟨inner ++ ['"'], rfl, ?_⟩
  rw [readString, List.append_assoc, List.singleton_append, hread, Option.map_some, hunits,
    String.ofList_toList]

end PointElevation.Json
