import PointElevation.Proofs.Grid.Cell
import PointElevation.Proofs.Listing.Entry

/-!
# Keys of positions and keys of addresses

A tile has a key twice: `Position.tileKey` makes one from coordinates, and `keyOfUrl?` cuts one out
of an address.  The two never meet but in the listing, where the one is looked up among the others.
They agree because the decimals of two integers and the hyphen between them have no slash and no
underscore, so a key goes into the name of a file and comes out whole, and because a key that is
made from coordinates tells the tile (`tileKey_inj`), signs and all.
-/

namespace PointElevation

open PointElevation.Text (Trimmed Written fields join join_fields
  sep_notMem_of_mem_fields trim_of_trimmed)

/-- Everything about the address of a tile but its key: the folder, the two fields of the file name
before the key, and what comes after it. -/
structure AddressForm where
  folder : List Char
  first : List Char
  second : List Char
  rest : List Char
  slash_notMem : '/' ∉ first ∧ '/' ∉ second ∧ '/' ∉ rest
  underscore_notMem : '_' ∉ first ∧ '_' ∉ second

/-- The address of the tile with a key. -/
def AddressForm.address (form : AddressForm) (key : TileKey) : List Char :=
  form.folder ++ '/' :: form.first ++ '_' :: form.second ++ '_' :: key.toList ++ '_' :: form.rest

theorem AddressForm.addresses (form : AddressForm) {key : TileKey} (hslash : '/' ∉ key.toList)
    (hunderscore : '_' ∉ key.toList) : Addresses (form.address key) key.toList := by
  refine ⟨form.folder, form.first :: form.second :: key.toList :: fields '_' form.rest, ?_, ?_, rfl⟩
  · have hrest := join_fields '_' form.rest
    cases hfields : fields '_' form.rest with
    | nil => exact absurd hfields (Text.fields_ne_nil '_' form.rest)
    | cons field others =>
        rw [hfields] at hrest
        simp only [address, join, hrest, List.append_assoc, List.cons_append, List.nil_append]
  · intro part hpart
    simp only [List.mem_cons] at hpart
    rcases hpart with rfl | rfl | rfl | hpart
    · exact ⟨form.slash_notMem.1, form.underscore_notMem.1⟩
    · exact ⟨form.slash_notMem.2.1, form.underscore_notMem.2⟩
    · exact ⟨hslash, hunderscore⟩
    · exact ⟨fun hmem => form.slash_notMem.2.2 (mem_of_mem_fields hpart hmem),
        sep_notMem_of_mem_fields hpart⟩

/-- A key that is made from coordinates is written with digits and hyphens. -/
theorem isDigit_or_hyphen_of_mem_tileKey {p : Position} {c : Char} (hc : c ∈ p.tileKey.toList) :
    c.isDigit ∨ c = '-' := by
  have hdecimals : ∀ i : Int, c ∈ (toString i).toList → c.isDigit ∨ c = '-' := by
    intro i hi
    rw [toList_toString_int, List.mem_append] at hi
    rcases hi with hsign | hdigit
    · split at hsign
      · exact .inr (List.mem_singleton.mp hsign)
      · cases hsign
    · exact .inl (Nat.isDigit_of_mem_toDigits (by decide) (by decide) hdigit)
  rw [Position.tileKey, String.toList_append, String.toList_append, List.mem_append,
    List.mem_append] at hc
  rcases hc with (hc | hc) | hc
  · exact hdecimals p.tile.1 hc
  · exact .inr (List.mem_singleton.mp hc)
  · exact hdecimals p.tile.2 hc

theorem notMem_tileKey {p : Position} {c : Char} (hdigit : c.isDigit = false) (hhyphen : c ≠ '-') :
    c ∉ p.tileKey.toList := by
  intro hc
  rcases isDigit_or_hyphen_of_mem_tileKey hc with h | h
  · rw [hdigit] at h
    cases h
  · exact hhyphen h

theorem AddressForm.addresses_tileKey (form : AddressForm) (p : Position) :
    Addresses (form.address p.tileKey) p.tileKey.toList :=
  form.addresses (notMem_tileKey (by decide) (by decide)) (notMem_tileKey (by decide) (by decide))

namespace Listing

/-- Positions have the same key when they lie in the same square of a kilometre.  The key of a
position is the key of every address with it; a listing with such an address and no later one for
the key finds the address, and a listing without any finds nothing. -/
theorem tileKey_agrees :
    (∀ p q : Position,
      p.tileKey = q.tileKey ↔ p.x / 1000 = q.x / 1000 ∧ p.y / 1000 = q.y / 1000) ∧
    (∀ (p : Position) (form : AddressForm),
      keyOfUrl? (String.ofList (form.address p.tileKey)) = some p.tileKey ∧
      ∀ (before after : List (List Char)) (text : List Char),
        Written (before ++ form.address p.tileKey :: after) text →
        Trimmed (form.address p.tileKey) → (∀ later ∈ after, ¬Names later p.tileKey) →
          (ofText text).url? p.tileKey = some (String.ofList (form.address p.tileKey))) ∧
    ∀ (p : Position) (ls : List (List Char)) (text : List Char), Written ls text →
      (∀ line ∈ ls, ¬Names line p.tileKey) → (ofText text).url? p.tileKey = none := by
  refine ⟨?_, ?_, ?_⟩
  · intro p q
    rw [tileKey_inj, Position.tile, Position.tile, Prod.mk.injEq]
    rfl
  · intro p form
    have haddresses := form.addresses_tileKey p
    refine ⟨?_, ?_⟩
    · rw [keyOfUrl?, String.toList_ofList, (addresses_iff.mp haddresses).2, Option.map_some,
        String.ofList_toList]
    · intro before after text hwritten htrimmed hafter
      have htrim := trim_of_trimmed htrimmed
      refine (url?_ofText_eq_some_iff hwritten).mpr ⟨before, _, after, rfl, ?_, ?_, hafter⟩
      · rw [Names, htrim]
        exact haddresses
      · rw [htrim]
  · intro p ls text hwritten hnone
    exact (url?_ofText_eq_none_iff hwritten).mpr hnone

/-- A tile west of the origin, in a listing whose last line is an address of another tile. -/
theorem tileKey_agrees_west_of_origin :
    let p : Position := ⟨-500, 1200999⟩
    let form : AddressForm := ⟨"h/d".toList, "t".toList, "2019".toList, "2.tif".toList, by decide,
      by decide⟩
    form.address p.tileKey = "h/d/t_2019_-1-1200_2.tif".toList ∧
      p.tileKey = (⟨-1000, 1200000⟩ : Position).tileKey ∧
      keyOfUrl? "h/d/t_2019_-1-1200_2.tif" = some p.tileKey ∧
      (ofText "h/d/t_2019_-1-1200_2.tif\rh/d/t_2019_1-1200_2.tif".toList).url? p.tileKey =
        some "h/d/t_2019_-1-1200_2.tif" ∧
      (ofText "h/d/t_2019_1-1200_2.tif".toList).url? p.tileKey = none := by
  intro p form
  have haddress : form.address p.tileKey = "h/d/t_2019_-1-1200_2.tif".toList := by decide
  obtain ⟨hsame, hlisted, hunlisted⟩ := tileKey_agrees
  obtain ⟨hkey, hfound⟩ := hlisted p form
  have hwritten : Written [form.address p.tileKey, "h/d/t_2019_1-1200_2.tif".toList]
      "h/d/t_2019_-1-1200_2.tif\rh/d/t_2019_1-1200_2.tif".toList := by
    rw [haddress]
    exact .cons .carriageReturn (by decide) (.last (by decide))
  refine ⟨haddress, (hsame p _).mpr (by decide), ?_, ?_, ?_⟩
  · rw [haddress, String.ofList_toList] at hkey
    exact hkey
  · rw [hfound [] _ _ hwritten (by decide) (by decide), haddress, String.ofList_toList]
  · exact hunlisted p ["h/d/t_2019_1-1200_2.tif".toList] _ (.last (by decide)) (by decide)

end Listing

end PointElevation
