import PointElevation.Listing.Href
import PointElevation.Proofs.Json.Members
import PointElevation.Proofs.Json.Reading

/-!
# The address in a reply

The listing service may write its reply in any of the ways in which a value can be written.
Whichever it takes, the address is the text of the last member `href`, and a reply that has no such
text is malformed, whatever else it is.  So is a reply with more than one value, which shows in the
first character behind the first of them.

A scalar needs an argument of its own there, since more digits could make a longer number of it.
But no text that begins like a scalar is read as an object, whatever follows, and only objects have
an address.
-/

namespace PointElevation

namespace Json

theorem member?_of_scalar {value : Json} (h : isContainer value = false) (name : String) :
    value.member? name = none := by
  cases value with
  | object => cases h
  | _ => rfl

/-! ## Texts that begin like a scalar -/

theorem isContainer_of_readSize {negative : Bool} {s rest : List Char} {value : Json}
    (h : readSize negative s = some (value, rest)) : isContainer value = false := by
  unfold readSize at h
  dsimp only at h
  split at h
  · cases h
  · split at h
    · split at h
      · cases h
      · cases h
        rfl
    · obtain ⟨_, _, hread⟩ := Option.map_eq_some_iff.mp h
      cases hread
      rfl

theorem isContainer_of_readScalar {s rest : List Char} {value : Json}
    (h : readScalar s = some (value, rest)) : isContainer value = false := by
  unfold readScalar at h
  split at h
  case h_1 found hfound =>
      obtain ⟨word, hword, hrest⟩ := List.exists_of_findSome?_eq_some hfound
      obtain ⟨_, _, rfl⟩ := Option.map_eq_some_iff.mp hrest
      cases h
      have hwords : ∀ word ∈ words, isContainer word.2 = false := by
        simp [words, isContainer]
      exact hwords word hword
  case h_2 =>
      split at h
      · exact isContainer_of_readSize h
      · exact isContainer_of_readSize h

theorem readValue_eq_or {c : Char} (hc : c ∉ ['[', '{']) (fuel room : Nat) (tail : List Char) :
    readValue (fuel + 1) room (c :: tail) = .error .malformed ∨
      ∃ value rest, readValue (fuel + 1) room (c :: tail) = .ok (value, rest) ∧
        isContainer value = false := by
  by_cases hquote : c = '"'
  · subst hquote
    rw [readValue]
    cases readString tail with
    | none => exact .inl rfl
    | some read => exact .inr ⟨_, _, rfl, rfl⟩
  · rw [readValue_scalar]
    · cases hscalar : readScalar (c :: tail) with
      | none => exact .inl rfl
      | some read => exact .inr ⟨_, _, rfl, isContainer_of_readScalar hscalar⟩
    · rintro _ ⟨⟩
      simp only [List.mem_cons, List.not_mem_nil, or_false, not_or] at hc ⊢
      exact ⟨hquote, hc⟩

/-- A text that does not begin with an opening bracket is read as a scalar, if at all. -/
theorem parse_eq_or {text : List Char} {c : Char} {tail : List Char}
    (hhead : skipSpace text = c :: tail) (hc : c ∉ ['[', '{']) :
    parse (String.ofList text) = .error .malformed ∨
      ∃ value, parse (String.ofList text) = .ok value ∧ isContainer value = false := by
  rcases readValue_eq_or hc (2 * text.length + 1) depthLimit tail with
    hread | ⟨value, rest, hread, hvalue⟩
  · left
    simp only [parse, String.toList_ofList, hhead, hread]
    rfl
  · simp only [parse, String.toList_ofList, hhead, hread, bind, Except.bind]
    split
    · exact .inr ⟨value, rfl, hvalue⟩
    · exact .inl rfl

end Json

/-! ## Replies -/

/-- The value is an object, and the last of its members `href` is this text, which is not empty. -/
def GivesAddress (value : Json) (url : String) : Prop :=
  url ≠ "" ∧ ∃ before after, value = .object (before ++ ("href", .string url) :: after) ∧
    ∀ member ∈ after, member.1 ≠ "href"

theorem givesAddress_iff {value : Json} {url : String} :
    GivesAddress value url ↔ url ≠ "" ∧ value.member? "href" = some (.string url) := by
  rw [GivesAddress, Json.member?_eq_some_iff]

section Replies

variable {reply : String}

theorem listingAddress_of_malformed (h : Json.parse reply = .error .malformed) :
    listingAddress reply = .error (.malformed (.of reply)) := by
  simp only [listingAddress, h]

theorem listingAddress_of_givesAddress {value : Json} (h : Json.parse reply = .ok value)
    {url : String} (hurl : GivesAddress value url) : listingAddress reply = .ok url := by
  obtain ⟨hne, hmember⟩ := givesAddress_iff.mp hurl
  have hempty : url.isEmpty = false := by simpa using hne
  simp only [listingAddress, h, hmember, hempty]
  rfl

theorem listingAddress_of_not_givesAddress {value : Json} (h : Json.parse reply = .ok value)
    (hnone : ∀ url, ¬ GivesAddress value url) :
    listingAddress reply = .error (.malformed (.of reply)) := by
  simp only [listingAddress, h]
  split
  case h_1 url hmember =>
      have hempty : url.isEmpty = true := by
        by_cases hne : url = ""
        · simp [hne]
        · exact absurd (givesAddress_iff.mpr ⟨hne, hmember⟩) (hnone url)
      rw [if_pos hempty]
  case h_2 => rfl

theorem listingAddress_of_scalar {value : Json} (h : Json.parse reply = .ok value)
    (hscalar : Json.isContainer value = false) :
    listingAddress reply = .error (.malformed (.of reply)) := by
  refine listingAddress_of_not_givesAddress h fun url hurl => ?_
  have hmember := (givesAddress_iff.mp hurl).2
  rw [Json.member?_of_scalar hscalar] at hmember
  cases hmember

end Replies

/-- A second value, or anything else that is not white space, makes a reply malformed. -/
theorem listingAddress_append {text : List Char} {value : Json} (h : Json.Spells text value)
    (hfits : Json.Fits Json.depthLimit value) {c : Char} (hc : Json.isSpace c = false)
    (rest : List Char) :
    listingAddress (String.ofList (text ++ c :: rest)) =
      .error (.malformed (.of (String.ofList (text ++ c :: rest)))) := by
  cases hcontainer : Json.isContainer value with
  | true =>
      have hread : Json.ReadAs Json.depthLimit text value (c :: rest) :=
        h.readAs hfits (by rw [hcontainer]; nofun)
      refine listingAddress_of_malformed ?_
      rw [hread.parse_append, Json.skipSpace_cons hc]
      rfl
  | false =>
      obtain ⟨first, tail, hhead, -, hfirst⟩ := h.exists_head (c :: rest)
      rcases Json.parse_eq_or hhead (hfirst hcontainer) with hparse | ⟨found, hparse, hfound⟩
      · exact listingAddress_of_malformed hparse
      · exact listingAddress_of_scalar hparse hfound

/-- The address is found in every text of a value that gives one, every text of another value is
malformed, and so is every text with something behind the value. -/
theorem listingAddress_of_spells {text : List Char} {value : Json} (h : Json.Spells text value)
    (hfits : Json.Fits Json.depthLimit value) :
    (∀ url, listingAddress (String.ofList text) = .ok url ↔ GivesAddress value url) ∧
      ((∀ url, ¬ GivesAddress value url) →
        listingAddress (String.ofList text) =
          .error (.malformed (.of (String.ofList text)))) ∧
      ∀ c rest, Json.isSpace c = false →
        listingAddress (String.ofList (text ++ c :: rest)) =
          .error (.malformed (.of (String.ofList (text ++ c :: rest)))) := by
  have hparse := Json.parse_of_spells h hfits
  have hnone := listingAddress_of_not_givesAddress hparse
  refine ⟨fun url => ⟨fun hurl => ?_, listingAddress_of_givesAddress hparse⟩, hnone,
    fun c rest hc => listingAddress_append h hfits hc rest⟩
  -- without any address the reply would be malformed, and there is only one
  by_cases hother : ∃ other, GivesAddress value other
  · obtain ⟨other, hother⟩ := hother
    have heq : Except.ok url = Except.ok other :=
      hurl.symm.trans (listingAddress_of_givesAddress hparse hother)
    cases heq
    exact hother
  · rw [hnone fun other hgives => hother ⟨other, hgives⟩] at hurl
    cases hurl

/-! ### A reply with escapes -/

/-- Two members `href`.  The second is an address; one letter of its name is escaped, and so are
a slash and the last character of the address. -/
def escapedMembers : List Json.Member :=
  [⟨"href", "\"href\"".toList, .array [.int (-15)], "[-15]".toList⟩,
    ⟨"href", "\"\\u0068ref\" ".toList, .string "/x/😀", "\t\"\\/x/\\uD83D\\uDe00\"".toList⟩]

def escapedReply : List Char :=
  "\x7b\"href\":[-15],\"\\u0068ref\" :\t\"\\/x/\\uD83D\\uDe00\"\x7d".toList

def escapedValue : Json := .object (escapedMembers.map fun member => (member.name, member.value))

theorem spells_escapedReply : Json.Spells escapedReply escapedValue := by
  have hnumber : Json.Spells (Json.minus true ++ ['1', '5']) (.int (-15)) :=
    .int true ⟨⟨nofun, by simp⟩, nofun⟩
  have harray : Json.Spells "[-15]".toList (.array [.int (-15)]) :=
    .array (List.cons_ne_nil (_, _) []) (List.forall_mem_singleton.mpr hnumber)
  have hname : Json.SpellsString ('"' :: ("href".toList ++ ['"'])) "href" :=
    .intro (.plain (by simp))
  have hletter : Json.SpellsUnit "0068".toList 'h'.toNat := by decide
  have hescaped : Json.SpellsString ('"' :: ("\\u0068".toList ++ "ref".toList ++ ['"'])) "href" :=
    .intro (.cons (.unit (by decide) hletter) (.plain (by simp)))
  have hslash : Json.SpellsChar "\\/".toList '/' := .short (by decide)
  have hpath : Json.SpellsChars "x/".toList "x/".toList := .plain (by simp)
  have hhigh : Json.SpellsUnit "D83D".toList (0xD800 + ('😀'.toNat - 0x10000) / 0x400) := by decide
  have hlow : Json.SpellsUnit "De00".toList (0xDC00 + ('😀'.toNat - 0x10000) % 0x400) := by decide
  have hface : Json.SpellsChars "\\uD83D\\uDe00".toList ['😀'] :=
    .cons (.pair (by decide) hhigh hlow) .nil
  have haddress : Json.SpellsString
      ('"' :: ("\\/".toList ++ ("x/".toList ++ "\\uD83D\\uDe00".toList) ++ ['"'])) "/x/😀" :=
    .intro (.cons hslash (hpath.append hface))
  have hnames : ∀ member ∈ escapedMembers, Json.SpellsName member.nameText member.name := by
    refine List.forall_mem_cons.mpr ⟨.of_string hname, List.forall_mem_singleton.mpr ?_⟩
    exact .intro Json.blank_nil hescaped (by decide : Json.Blank [' '])
  have hvalues : ∀ member ∈ escapedMembers, Json.Spells member.valueText member.value := by
    refine List.forall_mem_cons.mpr ⟨harray, List.forall_mem_singleton.mpr ?_⟩
    exact .spaced (by decide : Json.Blank ['\t']) (.string haddress) Json.blank_nil
  exact .object (List.cons_ne_nil _ _) hnames hvalues

theorem listingAddress_escapedReply :
    Json.Spells escapedReply escapedValue ∧ Json.Fits Json.depthLimit escapedValue ∧
      listingAddress (String.ofList escapedReply) = .ok "/x/😀" ∧
      listingAddress (String.ofList (escapedReply ++ ['0'])) =
        .error (.malformed (.of (String.ofList (escapedReply ++ ['0'])))) := by
  have hfits : Json.Fits Json.depthLimit escapedValue := by
    refine .object fun member hmember => ?_
    simp only [escapedMembers, List.map_cons, List.map_nil, List.mem_cons, List.not_mem_nil,
      or_false] at hmember
    rcases hmember with rfl | rfl
    · refine .array (List.forall_mem_singleton.mpr (.int ?_))
      exact Nat.lt_of_lt_of_le (by decide) (Nat.pow_le_pow_right (by decide) (by decide : 2 ≤ _))
    · exact .string _
  have hgives : GivesAddress escapedValue "/x/😀" :=
    ⟨by decide, [_], [], rfl, nofun⟩
  obtain ⟨haddress, -, hrest⟩ := listingAddress_of_spells spells_escapedReply hfits
  exact ⟨spells_escapedReply, hfits, (haddress _).mpr hgives, hrest '0' [] rfl⟩

end PointElevation
