import PointElevation.Proofs.Listing.FileName
import PointElevation.Proofs.Text.Line

/-!
# What a listing keeps

A line of the listing counts when, without the blanks around it, it is the address of a tile: there
is a folder, a slash, and a name whose third part is the key.  `Addresses` says so by putting the
parts together, where the reader takes the text apart; `entry?_eq_some_iff` says that they agree.

A listing is filled by a fold over the lines, and each line overrides the ones before it.  So what
is found under a key is what the last line that names the key says (`url?_foldl_addLine`), and since
lines that name no key may come and go, it does not matter which breaks the lines end with
(`url?_ofText`).
-/

namespace PointElevation

open PointElevation.Text (LineBreak Written fields fields_ne_nil filterMap_lines
  filterMap_lines_append join join_fields lastField lines sep_notMem_of_mem_fields trim)

/-! ## Putting parts together -/

theorem fields_append_sep (sep : Char) (s t : List Char) :
    fields sep (s ++ sep :: t) = fields sep s ++ fields sep t := by
  induction s with
  | nil => simp [fields]
  | cons c rest ih =>
      rw [List.cons_append, fields, fields, ih]
      by_cases hc : c = sep
      · simp only [hc, if_true, List.cons_append]
      · cases hrest : fields sep rest with
        | nil => exact absurd hrest (fields_ne_nil sep rest)
        | cons first others => simp only [hc, if_false, List.cons_append]

/-- Parts without the separator are got back by cutting. -/
theorem fields_join {sep : Char} {parts : List (List Char)} (hne : parts ≠ [])
    (hparts : ∀ part ∈ parts, sep ∉ part) : fields sep (join [sep] parts) = parts := by
  induction parts with
  | nil => exact absurd rfl hne
  | cons part rest ih =>
      obtain ⟨hpart, hrest⟩ := List.forall_mem_cons.mp hparts
      cases rest with
      | nil => exact fields_of_notMem hpart
      | cons second rest =>
          have hjoin : join [sep] (part :: second :: rest) =
              part ++ sep :: join [sep] (second :: rest) := by
            simp [join]
          rw [hjoin, fields_append_sep, fields_of_notMem hpart,
            ih (List.cons_ne_nil second rest) hrest, List.singleton_append]

theorem lastField_append_sep {sep : Char} {t : List Char} (ht : sep ∉ t) (s : List Char) :
    lastField sep (s ++ sep :: t) = t := by
  rw [lastField, fields_append_sep, fields_of_notMem ht, List.getLast?_concat, Option.getD_some]

theorem exists_eq_append_lastField {sep : Char} {s : List Char} (h : sep ∈ s) :
    ∃ front, s = front ++ sep :: lastField sep s := by
  obtain ⟨back, front, hreverse, hback⟩ :=
    List.eq_append_cons_of_mem (List.mem_reverse.mpr h)
  have hs : s = front.reverse ++ sep :: back.reverse := by
    rw [← List.reverse_reverse s, hreverse]
    simp
  have hlast : lastField sep s = back.reverse := by
    rw [hs, lastField_append_sep (fun hmem => hback (List.mem_reverse.mp hmem))]
  exact ⟨front.reverse, hlast.symm ▸ hs⟩

theorem notMem_join {c sep : Char} (hc : c ≠ sep) {parts : List (List Char)}
    (hparts : ∀ part ∈ parts, c ∉ part) : c ∉ join [sep] parts := by
  induction parts with
  | nil => exact List.not_mem_nil
  | cons part rest ih =>
      obtain ⟨hpart, hrest⟩ := List.forall_mem_cons.mp hparts
      cases rest with
      | nil => exact hpart
      | cons second rest =>
          simp only [join, List.mem_append, List.mem_singleton, not_or]
          exact ⟨⟨hpart, hc⟩, ih hrest⟩

/-! ## Addresses -/

/-- The last segment of the path is made of parts with underscores between them, and the third of
them is the key. -/
def Addresses (url key : List Char) : Prop :=
  ∃ folder parts, url = folder ++ '/' :: join ['_'] parts ∧
    (∀ part ∈ parts, '/' ∉ part ∧ '_' ∉ part) ∧ parts[2]? = some key

theorem addresses_iff {url key : List Char} :
    Addresses url key ↔ '/' ∈ url ∧ keyChars? url = some key := by
  constructor
  · rintro ⟨folder, parts, rfl, hparts, hkey⟩
    have hne : parts ≠ [] := by
      rintro rfl
      cases hkey
    have hslash : '/' ∉ join ['_'] parts :=
      notMem_join (by decide) fun part hpart => (hparts part hpart).1
    refine ⟨List.mem_append_right folder List.mem_cons_self, ?_⟩
    rw [keyChars?, lastField_append_sep hslash,
      fields_join hne fun part hpart => (hparts part hpart).2, hkey]
  · rintro ⟨hslash, hkey⟩
    obtain ⟨folder, hfolder⟩ := exists_eq_append_lastField hslash
    refine ⟨folder, fields '_' (lastField '/' url), ?_, ?_, hkey⟩
    · rw [join_fields]
      exact hfolder
    · intro part hpart
      refine ⟨fun hmem => ?_, sep_notMem_of_mem_fields hpart⟩
      exact sep_notMem_of_mem_fields (lastField_mem '/' url) (mem_of_mem_fields hpart hmem)

namespace Listing

/-- The line is the address of a tile, blanks around it aside. -/
def Names (line : List Char) (key : TileKey) : Prop := Addresses (trim line) key.toList

theorem entry?_eq_some_iff {line : List Char} {key : TileKey} {url : String} :
    entry? line = some (key, url) ↔ Names line key ∧ url = String.ofList (trim line) := by
  rw [Names, addresses_iff, entry?]
  by_cases hslash : '/' ∈ trim line
  · rw [if_pos hslash]
    constructor
    · intro hentry
      obtain ⟨chars, hchars, heq⟩ := Option.map_eq_some_iff.mp hentry
      cases heq
      exact ⟨⟨hslash, by rw [hchars, String.toList_ofList]⟩, rfl⟩
    · rintro ⟨⟨-, hchars⟩, rfl⟩
      rw [hchars, Option.map_some, String.ofList_toList]
  · rw [if_neg hslash]
    constructor
    · intro hentry
      cases hentry
    · rintro ⟨⟨hmem, -⟩, -⟩
      exact absurd hmem hslash

instance (line : List Char) (key : TileKey) : Decidable (Names line key) :=
  decidable_of_iff _ addresses_iff.symm

/-! ## The last line counts -/

/-- What a line says about a key. -/
def urlIn? (key : TileKey) (line : List Char) : Option String :=
  entry? line |>.bind fun entry => if entry.1 = key then some entry.2 else none

theorem urlIn?_eq_some_iff {key : TileKey} {line : List Char} {url : String} :
    urlIn? key line = some url ↔ Names line key ∧ url = String.ofList (trim line) := by
  rw [← entry?_eq_some_iff, urlIn?, Option.bind_eq_some_iff]
  constructor
  · rintro ⟨⟨key', url'⟩, hentry, hif⟩
    split at hif
    · rename_i hkey
      cases hif
      exact hkey ▸ hentry
    · cases hif
  · intro hentry
    exact ⟨_, hentry, if_pos rfl⟩

theorem urlIn?_eq_none_iff {key : TileKey} {line : List Char} :
    urlIn? key line = none ↔ ¬Names line key := by
  rw [Option.eq_none_iff_forall_ne_some]
  constructor
  · intro hnone hnames
    exact hnone _ (urlIn?_eq_some_iff.mpr ⟨hnames, rfl⟩)
  · intro hnames url hurl
    exact hnames (urlIn?_eq_some_iff.mp hurl).1

theorem urlIn?_nil (key : TileKey) : urlIn? key [] = none := rfl

/-- A line overrides what the lines before it say. -/
theorem url?_addLine (l : Listing) (line : List Char) (key : TileKey) :
    (l.addLine line).url? key = (urlIn? key line).or (l.url? key) := by
  rw [addLine, urlIn?]
  cases entry? line with
  | none => rfl
  | some entry =>
      obtain ⟨key', url⟩ := entry
      dsimp only [Option.bind_some]
      rw [url?_insert]
      split <;> rfl

/-- Of many lines, the last one that names the key counts. -/
theorem url?_foldl_addLine (ls : List (List Char)) (l : Listing) (key : TileKey) :
    (ls.foldl addLine l).url? key = (ls.filterMap (urlIn? key)).getLast?.or (l.url? key) := by
  induction ls generalizing l with
  | nil => rfl
  | cons line rest ih =>
      rw [List.foldl_cons, ih, url?_addLine, List.filterMap_cons]
      cases urlIn? key line with
      | none => rfl
      | some url =>
          rw [List.getLast?_cons, Option.some_or]
          cases (rest.filterMap (urlIn? key)).getLast? <;> rfl

/-- How the lines are ended does not matter. -/
theorem url?_ofText {ls : List (List Char)} {text : List Char} (h : Written ls text)
    (key : TileKey) : (ofText text).url? key = (ls.filterMap (urlIn? key)).getLast? := by
  rw [ofText, url?_foldl_addLine, url?_empty, Option.or_none,
    filterMap_lines (urlIn?_nil key) h]

theorem getLast?_filterMap_eq_some_iff {α β : Type} {f : α → Option β} {xs : List α} {y : β} :
    (xs.filterMap f).getLast? = some y ↔
      ∃ before x after, xs = before ++ x :: after ∧ f x = some y ∧ ∀ x' ∈ after, f x' = none := by
  rw [List.getLast?_filterMap, List.findSome?_eq_some_iff]
  constructor
  · rintro ⟨after, x, before, hxs, hx, hafter⟩
    refine ⟨before.reverse, x, after.reverse, ?_, hx, ?_⟩
    · rw [← List.reverse_reverse xs, hxs]
      simp
    · intro x' hx'
      exact hafter x' (List.mem_reverse.mp hx')
  · rintro ⟨before, x, after, rfl, hx, hafter⟩
    refine ⟨after.reverse, x, before.reverse, by simp, hx, ?_⟩
    intro x' hx'
    exact hafter x' (List.mem_reverse.mp hx')

theorem url?_ofText_eq_some_iff {ls : List (List Char)} {text : List Char} (h : Written ls text)
    {key : TileKey} {url : String} :
    (ofText text).url? key = some url ↔
      ∃ before line after, ls = before ++ line :: after ∧ Names line key ∧
        url = String.ofList (trim line) ∧ ∀ later ∈ after, ¬Names later key := by
  rw [url?_ofText h, getLast?_filterMap_eq_some_iff]
  simp only [urlIn?_eq_some_iff, urlIn?_eq_none_iff, and_assoc]

theorem url?_ofText_eq_none_iff {ls : List (List Char)} {text : List Char} (h : Written ls text)
    {key : TileKey} : (ofText text).url? key = none ↔ ∀ line ∈ ls, ¬Names line key := by
  rw [url?_ofText h, List.getLast?_eq_none_iff, List.filterMap_eq_nil_iff]
  simp only [urlIn?_eq_none_iff]

/-- A text after a break overrides the text before it. -/
theorem url?_ofText_append (first : List Char) (b : LineBreak) (second : List Char)
    (key : TileKey) :
    (ofText (first ++ b.text ++ second)).url? key =
      ((ofText second).url? key).or ((ofText first).url? key) := by
  rw [ofText, ofText, ofText, url?_foldl_addLine, url?_foldl_addLine, url?_foldl_addLine,
    url?_empty, filterMap_lines_append (urlIn?_nil key), List.getLast?_append, Option.or_none,
    Option.or_none, Option.or_none]

/-- The listing maps a key to the last line that names it, without the blanks around that line, and
has no other keys, whatever breaks the lines are ended with.  Hence a text after a line feed
overrides the text before it. -/
theorem ofText_keeps_last :
    (∀ (ls : List (List Char)) (text : List Char), Written ls text → ∀ key : TileKey,
      (∀ url : String, (ofText text).url? key = some url ↔
        ∃ before line after, ls = before ++ line :: after ∧ Names line key ∧
          url = String.ofList (trim line) ∧ ∀ later ∈ after, ¬Names later key) ∧
      ((ofText text).url? key = none ↔ ∀ line ∈ ls, ¬Names line key)) ∧
    ∀ (first second : List Char) (key : TileKey),
      (ofText (first ++ '\n' :: second)).url? key =
        ((ofText second).url? key).or ((ofText first).url? key) := by
  refine ⟨?_, ?_⟩
  · intro ls text hwritten key
    exact ⟨fun url => url?_ofText_eq_some_iff hwritten, url?_ofText_eq_none_iff hwritten⟩
  · intro first second key
    have happend := url?_ofText_append first .lineFeed second key
    rw [LineBreak.text, List.append_assoc, List.singleton_append] at happend
    exact happend

/-- Four lines: a carriage return, an empty line with a line feed, a next line character, and none.
The last line is no address. -/
theorem ofText_mixed_breaks :
    (ofText "a/b_c_d\r\n e/f_g_d_h\t\u0085i_j_d".toList).url? "d" = some "e/f_g_d_h" := by
  have hwritten : Written ["a/b_c_d".toList, [], " e/f_g_d_h\t".toList, "i_j_d".toList]
      "a/b_c_d\r\n e/f_g_d_h\t\u0085i_j_d".toList :=
    .cons .carriageReturn (by decide) (.cons .lineFeed (by decide)
      (.cons .nextLine (by decide) (.last (by decide))))
  refine ((ofText_keeps_last.1 _ _ hwritten "d").1 "e/f_g_d_h").mpr ?_
  exact ⟨["a/b_c_d".toList, []], " e/f_g_d_h\t".toList, ["i_j_d".toList], by decide, by decide,
    by decide, by decide⟩

end Listing

end PointElevation
