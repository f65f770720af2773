import PointElevation.Proofs.Listing.Entry

/-!
# Listings as texts

A listing holds addresses and no lines, so anything about a text that the addresses do not show is
gone: the order of the lines, their breaks, the blanks around them, lines that are no address, and
addresses that a later line has overridden.  `Canonical` is what is known of an address that is
left.  It is enough to write the listing down again, one address on each line, and whoever reads
that text finds the same addresses under the same keys.
-/

namespace PointElevation

open PointElevation.Text (LineBreak Trimmed Unbroken Written join mem_of_mem_trim trim
  trim_of_trimmed trimmed_trim written_join written_lines)

namespace Listing

/-- An address that makes a line by itself: trimming the line gives the address back. -/
structure Canonical (url : String) (key : TileKey) : Prop where
  slash : '/' ∈ url.toList
  keyOf : keyOfUrl? url = some key
  unbroken : Unbroken url.toList
  trimmed : Trimmed url.toList

variable {key : TileKey} {url : String}

theorem Canonical.addresses (h : Canonical url key) : Addresses url.toList key.toList := by
  obtain ⟨chars, hchars, rfl⟩ := Option.map_eq_some_iff.mp h.keyOf
  rw [addresses_iff, String.toList_ofList]
  exact ⟨h.slash, hchars⟩

/-- A line that is an address says so about its key, and nothing about any other key. -/
theorem Canonical.urlIn? (h : Canonical url key) (key' : TileKey) :
    Listing.urlIn? key' url.toList = if key = key' then some url else none := by
  have hentry : entry? url.toList = some (key, url) := by
    rw [entry?_eq_some_iff, Names, trim_of_trimmed h.trimmed, String.ofList_toList]
    exact ⟨h.addresses, rfl⟩
  rw [Listing.urlIn?, hentry, Option.bind_some]

/-- The addresses that are read from a line can be written as a line. -/
theorem canonical_of_names {line : List Char} (hnames : Names line key)
    (hline : Unbroken line) : Canonical (String.ofList (trim line)) key where
  slash := by
    rw [String.toList_ofList]
    exact (addresses_iff.mp hnames).1
  keyOf := by
    rw [keyOfUrl?, String.toList_ofList, (addresses_iff.mp hnames).2, Option.map_some,
      String.ofList_toList]
  unbroken := by
    rw [String.toList_ofList]
    exact fun c hc => hline c (mem_of_mem_trim hc)
  trimmed := by
    rw [String.toList_ofList]
    exact trimmed_trim line

theorem canonical_of_url? {text : List Char} (h : (ofText text).url? key = some url) :
    Canonical url key := by
  have hwritten := written_lines text
  obtain ⟨before, line, after, hlines, hnames, rfl, -⟩ := (url?_ofText_eq_some_iff hwritten).mp h
  refine canonical_of_names hnames (hwritten.unbroken line ?_)
  rw [hlines]
  exact List.mem_append_right before List.mem_cons_self

/-- Every address is listed under its own key. -/
def Keyed (l : Listing) : Prop := ∀ key url, l.url? key = some url → keyOfUrl? url = some key

theorem keyed_ofText (text : List Char) : (ofText text).Keyed :=
  fun _ _ hurl => (canonical_of_url? hurl).keyOf

theorem mem_urls_toList_iff {l : Listing} : (key, url) ∈ l.urls.toList ↔ l.url? key = some url :=
  Std.HashMap.mem_toList_iff_getElem?_eq_some

/-- The text of entries: their addresses, with a break between them. -/
def written (b : LineBreak) (entries : List (TileKey × String)) : List Char :=
  join b.text (entries.map fun entry => entry.2.toList)

variable {l : Listing} {entries : List (TileKey × String)}

/-- Written in any order, the addresses are found again: no two of them have one key. -/
theorem url?_ofText_written (hcanonical : ∀ key url, l.url? key = some url → Canonical url key)
    (hentries : entries.Perm l.urls.toList) (b : LineBreak) (key : TileKey) :
    (ofText (written b entries)).url? key = l.url? key := by
  have hmem : ∀ {key url}, (key, url) ∈ entries ↔ l.url? key = some url :=
    hentries.mem_iff.trans mem_urls_toList_iff
  have hunbroken : ∀ line ∈ entries.map fun entry => entry.2.toList, Unbroken line := by
    intro line hline
    obtain ⟨⟨key, url⟩, hentry, rfl⟩ := List.mem_map.mp hline
    exact (hcanonical key url (hmem.mp hentry)).unbroken
  let said : TileKey × String → Option String := Listing.urlIn? key ∘ fun entry => entry.2.toList
  have hsaid : ∀ entry ∈ entries, said entry = if entry.1 = key then some entry.2 else none := by
    rintro ⟨key', url⟩ hentry
    exact (hcanonical key' url (hmem.mp hentry)).urlIn? key
  -- all that is said about the key is the address that the listing has under it
  have hall : ∀ url ∈ entries.filterMap said, l.url? key = some url := by
    intro url hurl
    obtain ⟨⟨key', url'⟩, hentry, hif⟩ := List.mem_filterMap.mp hurl
    rw [hsaid _ hentry] at hif
    obtain ⟨hkey, hsame⟩ := Option.ite_none_right_eq_some.mp hif
    exact hkey ▸ Option.some.inj hsame ▸ hmem.mp hentry
  rw [written, url?_ofText (written_join b hunbroken), List.filterMap_map]
  change (entries.filterMap said).getLast? = l.url? key
  cases hurl : l.url? key with
  | none =>
      rw [List.getLast?_eq_none_iff, List.eq_nil_iff_forall_not_mem]
      intro url hfound
      cases hurl.symm.trans (hall url hfound)
  | some url =>
      have hfound : url ∈ entries.filterMap said :=
        List.mem_filterMap.mpr ⟨(key, url), hmem.mpr hurl, by rw [hsaid _ (hmem.mpr hurl)]; simp⟩
      obtain ⟨last, hlast⟩ := Option.isSome_iff_exists.mp
        (List.getLast?_isSome.mpr (List.ne_nil_of_mem hfound))
      rw [hlast, ← hurl, hall last (List.mem_of_getLast? hlast)]

/-- A listing can be written down and read again: each of its addresses has the key it is listed
under, a slash, no character that breaks a line and no blank at its ends; and a text of all
addresses, in any order and with any break between them, reads as the same listing. -/
theorem ofText_written :
    ∀ text : List Char,
      (∀ (key : TileKey) (url : String), (ofText text).url? key = some url →
        keyOfUrl? url = some key ∧ '/' ∈ url.toList ∧ Unbroken url.toList ∧
          Trimmed url.toList) ∧
      ∀ (entries : List (TileKey × String)) (b : LineBreak),
        entries.Perm (ofText text).urls.toList →
          ∀ key : TileKey, (ofText (written b entries)).url? key = (ofText text).url? key := by
  intro text
  refine ⟨?_, ?_⟩
  · intro key url hurl
    have hcanonical := canonical_of_url? hurl
    exact ⟨hcanonical.keyOf, hcanonical.slash, hcanonical.unbroken, hcanonical.trimmed⟩
  · intro entries b hentries key
    exact url?_ofText_written (fun key url => canonical_of_url?) hentries b key

/-- Two addresses with blanks and another line between them, read, and written the other way round
with carriage returns. -/
theorem ofText_written_reversed :
    let text := " a/b_c_d\n# none\ne/f_g_h\t".toList
    (keyOfUrl? "a/b_c_d" = some "d" ∧ Trimmed "a/b_c_d".toList) ∧
      (ofText (written .carriageReturnLineFeed (ofText text).urls.toList.reverse)).url? "d" =
        some "a/b_c_d" := by
  intro text
  have hwritten : Written [" a/b_c_d".toList, "# none".toList, "e/f_g_h\t".toList] text :=
    .cons .lineFeed (by decide) (.cons .lineFeed (by decide) (.last (by decide)))
  have hurl : (ofText text).url? "d" = some "a/b_c_d" :=
    (url?_ofText_eq_some_iff hwritten).mpr
      ⟨[], _, ["# none".toList, "e/f_g_h\t".toList], rfl, by decide, by decide, by decide⟩
  obtain ⟨hentries, hagain⟩ := ofText_written text
  obtain ⟨hkey, -, -, htrimmed⟩ := hentries "d" "a/b_c_d" hurl
  refine ⟨⟨hkey, htrimmed⟩, ?_⟩
  exact (hagain _ _ (List.reverse_perm _) "d").trans hurl

end Listing

end PointElevation
