import PointElevation.Text.Blank
import PointElevation.Text.Field
import PointElevation.Text.Line
import PointElevation.Text.Utf8

/-!
# Texts as they are written

Somebody who writes a text puts down lines and ends each of them with a break of his choice; the
last line may go without.  `Written ls text` says that `text` came about in this way from the lines
`ls`.  Reading is not quite the inverse.  A line that ends with a carriage return and is followed by
an empty line that ends with a line feed is read as one line, since the two characters in a row are
one break, and an empty line at the end is not read at all.  Nothing but empty lines is lost, which
is why every result about reading is about `(lines text).filterMap f` for an `f` that makes nothing
of the empty line.

* `written_lines`: every text is written from the lines that it is read as, so what is shown by
  induction on `Written` holds of all texts.
* `filterMap_lines`: what is read is what has been written.
* `filterMap_lines_append`: a break cuts a text in two, wherever it stands and whatever stands
  around it.
* `lines_unifyLineEnds`: a file may be read with its line ends unified or as it is.
-/

namespace PointElevation.Text

/-! ## Breaks -/

/-- What may end a line. -/
inductive LineBreak where
  | lineFeed
  | carriageReturn
  | carriageReturnLineFeed
  | verticalTab
  | formFeed
  | fileSeparator
  | groupSeparator
  | recordSeparator
  | nextLine
  | lineSeparator
  | paragraphSeparator
deriving DecidableEq, Repr

/-- The characters of a break. -/
def LineBreak.text : LineBreak → List Char
  | .lineFeed => ['\n']
  | .carriageReturn => ['\r']
  | .carriageReturnLineFeed => ['\r', '\n']
  | .verticalTab => ['\u000B']
  | .formFeed => ['\u000C']
  | .fileSeparator => ['\u001C']
  | .groupSeparator => ['\u001D']
  | .recordSeparator => ['\u001E']
  | .nextLine => ['\u0085']
  | .lineSeparator => ['\u2028']
  | .paragraphSeparator => ['\u2029']

/-- The characters that break a line are the breaks of one character. -/
theorem isLineBreak_iff {c : Char} : isLineBreak c ↔ ∃ b : LineBreak, b.text = [c] := by
  constructor
  · intro hc
    have hchar : ∀ n, c.toNat = n → c = Char.ofNat n := by
      rintro n rfl
      exact (Char.ofNat_toNat c).symm
    simp only [isLineBreak, Bool.or_eq_true, Bool.and_eq_true, decide_eq_true_eq, beq_iff_eq] at hc
    rcases hc with (((hc | hc) | hc) | hc) | hc
    · have hn : c.toNat = 10 ∨ c.toNat = 11 ∨ c.toNat = 12 ∨ c.toNat = 13 := by omega
      rcases hn with hn | hn | hn | hn
      · exact ⟨.lineFeed, by rw [hchar _ hn]; rfl⟩
      · exact ⟨.verticalTab, by rw [hchar _ hn]; rfl⟩
      · exact ⟨.formFeed, by rw [hchar _ hn]; rfl⟩
      · exact ⟨.carriageReturn, by rw [hchar _ hn]; rfl⟩
    · have hn : c.toNat = 28 ∨ c.toNat = 29 ∨ c.toNat = 30 := by omega
      rcases hn with hn | hn | hn
      · exact ⟨.fileSeparator, by rw [hchar _ hn]; rfl⟩
      · exact ⟨.groupSeparator, by rw [hchar _ hn]; rfl⟩
      · exact ⟨.recordSeparator, by rw [hchar _ hn]; rfl⟩
    · exact ⟨.nextLine, by rw [hchar _ hc]; rfl⟩
    · exact ⟨.lineSeparator, by rw [hchar _ hc]; rfl⟩
    · exact ⟨.paragraphSeparator, by rw [hchar _ hc]; rfl⟩
  · rintro ⟨b, hb⟩
    cases b <;> cases hb <;> decide

/-- No character breaks the line. -/
def Unbroken (line : List Char) : Prop := ∀ c ∈ line, isLineBreak c = false

instance (line : List Char) : Decidable (Unbroken line) :=
  decidable_of_iff ((line.all fun c => !isLineBreak c) = true) (by simp [Unbroken])

theorem unbroken_nil : Unbroken [] := fun _ hc => absurd hc List.not_mem_nil

theorem unbroken_cons {c : Char} {line : List Char} :
    Unbroken (c :: line) ↔ isLineBreak c = false ∧ Unbroken line := List.forall_mem_cons

/-! ## Writing -/

/-- The texts that can be written from lines: each line is ended by some break, the last one may
be left as it is. -/
inductive Written : List (List Char) → List Char → Prop
  | nil : Written [] []
  | last {line : List Char} (hline : Unbroken line) : Written [line] line
  | cons {line : List Char} {rest : List (List Char)} {text : List Char} (b : LineBreak)
      (hline : Unbroken line) (hrest : Written rest text) :
      Written (line :: rest) (line ++ b.text ++ text)

theorem Written.unbroken {ls : List (List Char)} {text : List Char} (h : Written ls text) :
    ∀ line ∈ ls, Unbroken line := by
  induction h with
  | nil => exact fun _ hline => absurd hline List.not_mem_nil
  | last hline => exact List.forall_mem_singleton.mpr hline
  | cons b hline hrest ih => exact List.forall_mem_cons.mpr ⟨hline, ih⟩

/-- Lines may all be written with the same break between them. -/
theorem written_join {ls : List (List Char)} (b : LineBreak) (h : ∀ line ∈ ls, Unbroken line) :
    Written ls (join b.text ls) := by
  induction ls with
  | nil => exact .nil
  | cons line rest ih =>
      obtain ⟨hline, hrest⟩ := List.forall_mem_cons.mp h
      cases rest with
      | nil => exact .last hline
      | cons second rest => exact .cons b hline (ih hrest)

/-- Putting a character that is no break in front of a text puts it in front of its first line. -/
theorem Written.consLine {ls : List (List Char)} {text : List Char} {c : Char}
    (hc : isLineBreak c = false) (h : Written ls text) :
    Written (Text.consLine c ls) (c :: text) := by
  cases h with
  | nil => exact .last (unbroken_cons.mpr ⟨hc, unbroken_nil⟩)
  | last hline => exact .last (unbroken_cons.mpr ⟨hc, hline⟩)
  | cons b hline hrest => exact .cons b (unbroken_cons.mpr ⟨hc, hline⟩) hrest

/-- Every text is written from the lines that it is read as. -/
theorem written_lines (text : List Char) : Written (lines text) text := by
  induction text using lines.induct with
  | case1 => exact lines_nil ▸ .nil
  | case2 rest ih =>
      rw [lines]
      exact .cons .carriageReturnLineFeed unbroken_nil ih
  | case3 c rest hpair hc ih =>
      obtain ⟨b, hb⟩ := isLineBreak_iff.mp hc
      rw [lines, if_pos hc]
      · exact (hb ▸ .cons b unbroken_nil ih : Written ([] :: lines rest) ([] ++ [c] ++ rest))
      · exact hpair
  | case4 c rest hpair hc ih =>
      rw [lines, if_neg hc]
      · exact ih.consLine (Bool.eq_false_iff.mpr hc)
      · exact hpair

/-! ## Reading -/

/-- No character but a break takes part in how the text is cut. -/
theorem lines_cons {c : Char} (hc : isLineBreak c = false) (text : List Char) :
    lines (c :: text) = consLine c (lines text) := by
  rw [lines, if_neg (Bool.eq_false_iff.mp hc)]
  rintro rest rfl
  exact absurd hc (by decide)

theorem lines_unbroken_append {line : List Char} (hline : Unbroken line) (text : List Char) :
    lines (line ++ text) = line.foldr consLine (lines text) := by
  induction line with
  | nil => rfl
  | cons c rest ih =>
      obtain ⟨hc, hrest⟩ := unbroken_cons.mp hline
      rw [List.cons_append, lines_cons hc, ih hrest, List.foldr_cons]

theorem foldr_consLine_cons (line first : List Char) (rest : List (List Char)) :
    line.foldr consLine (first :: rest) = (line ++ first) :: rest := by
  induction line with
  | nil => rfl
  | cons c line ih => rw [List.foldr_cons, ih, consLine, List.cons_append]

theorem foldr_consLine_nil (c : Char) (line : List Char) :
    (c :: line).foldr consLine [] = [c :: line] := by
  induction line generalizing c with
  | nil => rfl
  | cons d line ih => rw [List.foldr_cons, ih d, consLine]

theorem lines_lineFeed (text : List Char) : lines ('\n' :: text) = [] :: lines text := by
  rw [lines, if_pos (by decide)]
  rintro rest hreturn
  exact absurd hreturn (by decide)

/-- A break is read as the end of a line.  A carriage return takes a line feed after it along. -/
theorem exists_lines_break (b : LineBreak) (text : List Char) :
    ∃ rest, (rest = text ∨ text = '\n' :: rest) ∧ lines (b.text ++ text) = [] :: lines rest := by
  have hsingle : ∀ c, isLineBreak c → c ≠ '\r' → lines (c :: text) = [] :: lines text := by
    intro c hc hreturn
    rw [lines, if_pos hc]
    exact fun rest heq => absurd heq hreturn
  cases b with
  | carriageReturnLineFeed => exact ⟨text, .inl rfl, lines.eq_2 text⟩
  | carriageReturn =>
      by_cases hfeed : ∃ rest, text = '\n' :: rest
      · obtain ⟨rest, rfl⟩ := hfeed
        exact ⟨rest, .inr rfl, lines.eq_2 rest⟩
      · refine ⟨text, .inl rfl, ?_⟩
        rw [LineBreak.text, List.singleton_append, lines, if_pos (by decide)]
        exact fun rest _ heq => hfeed ⟨rest, heq⟩
  | _ => exact ⟨text, .inl rfl, hsingle _ (by decide) (by decide)⟩

section Reading

variable {α : Type} {f : List Char → Option α} (hf : f [] = none)

include hf

/-- An unbroken line is read as itself, and the empty one as nothing. -/
theorem filterMap_lines_unbroken {line : List Char} (hline : Unbroken line) :
    (lines line).filterMap f = [line].filterMap f := by
  cases line with
  | nil => rw [lines_nil, List.filterMap_nil, List.filterMap_cons_none hf, List.filterMap_nil]
  | cons c rest =>
      have hread := lines_unbroken_append hline []
      rw [List.append_nil, lines_nil, foldr_consLine_nil] at hread
      rw [hread]

/-- What stands before a break is read as a line of its own. -/
theorem filterMap_lines_break {line : List Char} (hline : Unbroken line) (b : LineBreak)
    (text : List Char) :
    (lines (line ++ b.text ++ text)).filterMap f = (line :: lines text).filterMap f := by
  obtain ⟨rest, hrest, hbreak⟩ := exists_lines_break b text
  have hsame : (lines rest).filterMap f = (lines text).filterMap f := by
    rcases hrest with rfl | rfl
    · rfl
    · rw [lines_lineFeed, List.filterMap_cons_none hf]
  rw [List.append_assoc, lines_unbroken_append hline, hbreak, foldr_consLine_cons, List.append_nil,
    List.filterMap_cons, List.filterMap_cons, hsame]

/-- What is read is what has been written. -/
theorem filterMap_lines {ls : List (List Char)} {text : List Char} (h : Written ls text) :
    (lines text).filterMap f = ls.filterMap f := by
  induction h with
  | nil => rw [lines_nil]
  | last hline => exact filterMap_lines_unbroken hf hline
  | cons b hline hrest ih =>
      rw [filterMap_lines_break hf hline, List.filterMap_cons, List.filterMap_cons, ih]

theorem Written.filterMap_lines_append {ls : List (List Char)} {first : List Char}
    (h : Written ls first) (b : LineBreak) (second : List Char) :
    (lines (first ++ b.text ++ second)).filterMap f =
      ls.filterMap f ++ (lines second).filterMap f := by
  induction h with
  | nil =>
      have hread := filterMap_lines_break hf unbroken_nil b second
      rw [List.filterMap_cons_none hf] at hread
      exact hread
  | @last line hline =>
      rw [filterMap_lines_break hf hline, ← List.filterMap_append, List.singleton_append]
  | @cons line rest text b' hline hrest ih =>
      have hassoc : line ++ b'.text ++ text ++ b.text ++ second =
          line ++ b'.text ++ (text ++ b.text ++ second) := by
        simp only [List.append_assoc]
      rw [hassoc, filterMap_lines_break hf hline, List.filterMap_cons, List.filterMap_cons, ih]
      cases f line <;> rfl

/-- A break cuts every text in two. -/
theorem filterMap_lines_append (first : List Char) (b : LineBreak) (second : List Char) :
    (lines (first ++ b.text ++ second)).filterMap f =
      (lines first).filterMap f ++ (lines second).filterMap f :=
  (written_lines first).filterMap_lines_append hf b second

end Reading

/-- Unifying the line ends of a text first makes no difference to its lines. -/
theorem lines_unifyLineEnds (text : List Char) : lines (unifyLineEnds text) = lines text := by
  induction text using unifyLineEnds.induct with
  | case1 => rfl
  | case2 rest ih => rw [unifyLineEnds, lines_lineFeed, ih, lines.eq_2]
  | case3 rest hfeed ih =>
      rw [unifyLineEnds, lines_lineFeed, ih, lines, if_pos (by decide)]
      · exact fun rest' _ => hfeed rest'
      · exact hfeed
  | case4 c rest hpair hreturn ih =>
      rw [unifyLineEnds, lines, lines, ih]
      · exact fun rest' heq => absurd heq hreturn
      · exact fun rest' heq => absurd heq hreturn
      · exact hpair
      · exact hreturn

/-! ## Trimming -/

/-- No blank stands at either end. -/
def Trimmed (s : List Char) : Prop :=
  (∀ c ∈ s.head?, isBlank c = false) ∧ ∀ c ∈ s.getLast?, isBlank c = false

instance (s : List Char) : Decidable (Trimmed s) :=
  decidable_of_iff ((s.head?.all (!isBlank ·) && s.getLast?.all (!isBlank ·)) = true)
    (by simp [Trimmed, Option.all_eq_true])

theorem mem_of_mem_trim {s : List Char} {c : Char} (h : c ∈ trim s) : c ∈ s := by
  have hinner : c ∈ (s.dropWhile isBlank).reverse :=
    (List.dropWhile_sublist isBlank).mem (List.mem_reverse.mp h)
  exact (List.dropWhile_sublist isBlank).mem (List.mem_reverse.mp hinner)

theorem trim_of_trimmed {s : List Char} (h : Trimmed s) : trim s = s := by
  have hdrop : ∀ s : List Char, (∀ c ∈ s.head?, isBlank c = false) → s.dropWhile isBlank = s := by
    intro s hs
    cases s with
    | nil => rfl
    | cons c rest => exact List.dropWhile_cons_of_neg (Bool.eq_false_iff.mp (hs c rfl))
  have hback : s.reverse.dropWhile isBlank = s.reverse := by
    refine hdrop s.reverse ?_
    rw [List.head?_reverse]
    exact h.2
  rw [trim, trimBy, hdrop s h.1, hback, List.reverse_reverse]

theorem trimmed_trim (s : List Char) : Trimmed (trim s) := by
  have hhead : ∀ s : List Char, ∀ c ∈ (s.dropWhile isBlank).head?, isBlank c = false := by
    intro s c hc
    have hnot := List.head?_dropWhile_not isBlank s
    rw [Option.mem_def.mp hc] at hnot
    exact hnot
  have hfront : trim s <+: s.dropWhile isBlank := by
    rw [← List.reverse_suffix, trim, trimBy, List.reverse_reverse]
    exact List.dropWhile_suffix isBlank
  obtain ⟨tail, htail⟩ := hfront
  refine ⟨?_, ?_⟩
  · intro c hc
    refine hhead s c ?_
    rw [← htail, List.head?_append, Option.mem_def.mp hc]
    rfl
  · intro c hc
    rw [trim, trimBy, List.getLast?_reverse] at hc
    exact hhead _ c hc

end PointElevation.Text
