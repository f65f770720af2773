import PointElevation.TileFile

/-!
# Keys and file names

Addresses come from a text that anybody may have written, and the names of the tiles' files are cut
out of them.  All that is known of a name in the listing is that it has a key, which is its third
field.  This is enough to keep the files of the cache directory apart: such a name is one name and
no dots, it is not that of the listing, it determines its key, and it is not the name of another
tile's notes, because the notes' suffix has no underscore and no key of a position ends like it.
-/

namespace PointElevation

open PointElevation.Text (fields fields_ne_nil join_fields lastField sep_notMem_of_mem_fields)

/-! ## Fields -/

/-- A text without the separator is one field. -/
theorem fields_of_notMem {sep : Char} {t : List Char} (ht : sep ∉ t) : fields sep t = [t] := by
  induction t with
  | nil => rfl
  | cons c rest ih =>
      rw [List.mem_cons, not_or] at ht
      simp [fields, Ne.symm ht.1, ih ht.2]

/-- A text without the separator that is added at the end goes to the last field. -/
theorem fields_append {sep : Char} {t : List Char} (ht : sep ∉ t) (s : List Char) :
    ∃ first last, fields sep s = first ++ [last] ∧ fields sep (s ++ t) = first ++ [last ++ t] := by
  induction s with
  | nil => exact ⟨[], [], rfl, fields_of_notMem ht⟩
  | cons c rest ih =>
      obtain ⟨first, last, hrest, happend⟩ := ih
      rw [List.cons_append, fields, fields, hrest, happend]
      -- a separator opens a field; any other character goes to the first field of the rest, which
      -- may be the last one
      by_cases hc : c = sep
      · simp only [hc, if_true]
        exact ⟨[] :: first, last, rfl, rfl⟩
      · simp only [hc, if_false]
        cases first with
        | nil => exact ⟨[], c :: last, rfl, rfl⟩
        | cons field more => exact ⟨(c :: field) :: more, last, rfl, rfl⟩

theorem lastField_mem (sep : Char) (s : List Char) : lastField sep s ∈ fields sep s := by
  unfold lastField
  cases hlast : (fields sep s).getLast? with
  | none => exact absurd (List.getLast?_eq_none_iff.mp hlast) (fields_ne_nil sep s)
  | some field => exact List.mem_of_getLast? hlast

theorem mem_of_mem_fields {sep c : Char} {s field : List Char} (h : field ∈ fields sep s)
    (hc : c ∈ field) : c ∈ s := by
  induction s generalizing field with
  | nil => simp_all [fields]
  | cons first rest ih =>
      unfold fields at h
      split at h
      · rcases List.mem_cons.mp h with rfl | h
        · cases hc
        · exact List.mem_cons_of_mem _ (ih h hc)
      · split at h
        · obtain rfl := List.mem_singleton.mp h
          rw [List.mem_singleton] at hc
          exact hc ▸ List.mem_cons_self
        · rename_i part others hfields
          rw [hfields] at ih
          rcases List.mem_cons.mp h with rfl | h
          · rcases List.mem_cons.mp hc with rfl | hc
            · exact List.mem_cons_self
            · exact List.mem_cons_of_mem _ (ih List.mem_cons_self hc)
          · exact List.mem_cons_of_mem _ (ih (List.mem_cons_of_mem _ h) hc)

/-! ## Names of files -/

/-- The file name of an address. -/
def fileName (url : String) : String := String.ofList (lastField '/' url.toList)

/-- A text that is one name for a file. -/
structure IsFileName (name : String) : Prop where
  namesIn : FilePath.namesIn name = [name]
  dots : name ≠ ".."

theorem namesIn_eq_singleton {name : String} (hslash : '/' ∉ name.toList) (hempty : name ≠ "")
    (hdot : name ≠ ".") : FilePath.namesIn name = [name] := by
  simp [FilePath.namesIn, fields_of_notMem hslash, FilePath.isName, hempty, hdot]

/-- It takes a character that is no dot to be a name. -/
theorem isFileName_of_mem {name : String} {c : Char} (hc : c ∈ name.toList) (hdot : c ≠ '.')
    (hslash : '/' ∉ name.toList) : IsFileName name := by
  have hne : ∀ dots : String, (∀ c ∈ dots.toList, c = '.') → name ≠ dots := by
    intro dots hdots heq
    rw [heq] at hc
    exact hdot (hdots c hc)
  refine ⟨namesIn_eq_singleton hslash (hne "" ?_) (hne "." ?_), hne ".." ?_⟩
  · simp
  · simp
  · simp

theorem child_ofLocation {name : String} (hname : IsFileName name) (directory : Location) :
    (FilePath.ofLocation directory).child name = .ofLocation (directory ++ [name]) := by
  simp [FilePath.child, FilePath.ofLocation, hname.namesIn]

theorem name_child {name : String} (hname : IsFileName name) (p : FilePath) :
    (p.child name).name = name := by
  simp [FilePath.child, FilePath.name, hname.namesIn]

theorem parent_child {name : String} (hname : IsFileName name) (p : FilePath) :
    (p.child name).parent = p := by
  simp [FilePath.child, FilePath.parent, hname.namesIn]

/-- A key is the third field of the file name. -/
theorem keyOfUrl?_eq_some_iff {url : String} {key : TileKey} :
    keyOfUrl? url = some key ↔ (fields '_' (fileName url).toList)[2]? = some key.toList := by
  simp only [keyOfUrl?, keyChars?, fileName, String.toList_ofList, Option.map_eq_some_iff]
  constructor
  · rintro ⟨field, hfield, rfl⟩
    rw [hfield, String.toList_ofList]
  · intro hfield
    exact ⟨_, hfield, String.ofList_toList⟩

/-- A name without underscores is no tile's. -/
theorem fileName_ne_of_notMem {url : String} {key : TileKey} (hkey : keyOfUrl? url = some key)
    {name : String} (hname : '_' ∉ name.toList) : fileName url ≠ name := by
  rintro rfl
  rw [keyOfUrl?_eq_some_iff, fields_of_notMem hname] at hkey
  cases hkey

theorem slash_notMem_fileName (url : String) : '/' ∉ (fileName url).toList := by
  rw [fileName, String.toList_ofList]
  exact sep_notMem_of_mem_fields (lastField_mem '/' url.toList)

theorem isFileName_fileName {url : String} {key : TileKey} (hkey : keyOfUrl? url = some key) :
    IsFileName (fileName url) where
  namesIn := namesIn_eq_singleton (slash_notMem_fileName url)
    (fileName_ne_of_notMem hkey (by decide)) (fileName_ne_of_notMem hkey (by decide))
  dots := fileName_ne_of_notMem hkey (by decide)

theorem fileName_ne_mappings {url : String} {key : TileKey} (hkey : keyOfUrl? url = some key) :
    fileName url ≠ "mappings.csv" := fileName_ne_of_notMem hkey (by decide)

/-- The name of a file tells which tile it is. -/
theorem key_eq_of_fileName_eq {url url' : String} {key key' : TileKey}
    (hkey : keyOfUrl? url = some key) (hkey' : keyOfUrl? url' = some key')
    (hname : fileName url = fileName url') : key = key' := by
  rw [keyOfUrl?_eq_some_iff] at hkey hkey'
  rw [hname, hkey', Option.some.injEq] at hkey
  exact (String.toList_inj.mp hkey).symm

/-! ## Notes on a file -/

/-- What the name of a file of notes ends in. -/
def notesSuffix : String := ".aux.xml"

theorem sideFile_ofLocation {directory : Location} {name : String}
    (hname : IsFileName (name ++ notesSuffix)) :
    sideFile (.ofLocation (directory ++ [name])) = .ofLocation (directory ++ [name ++ notesSuffix])
    := by
  have hside : sideFile (.ofLocation (directory ++ [name])) =
      (FilePath.ofLocation directory).child (name ++ notesSuffix) := by
    simp [sideFile, FilePath.parent, FilePath.name, FilePath.ofLocation, notesSuffix]
  rw [hside, child_ofLocation hname]

theorem isFileName_notes (url : String) : IsFileName (fileName url ++ notesSuffix) := by
  have hmem : 'x' ∈ (fileName url ++ notesSuffix).toList := by
    rw [String.toList_append]
    exact List.mem_append_right _ (by decide)
  refine isFileName_of_mem hmem (by decide) ?_
  rw [String.toList_append, List.mem_append, not_or]
  exact ⟨slash_notMem_fileName url, by decide⟩

/-- A tile whose file has the name of notes on another tile has the same key, or one that ends like
the notes. -/
theorem key_of_fileName_eq_notes {url url' : String} {key key' : TileKey}
    (hkey : keyOfUrl? url = some key) (hkey' : keyOfUrl? url' = some key')
    (hname : fileName url' = fileName url ++ notesSuffix) :
    key' = key ∨ key' = key ++ notesSuffix := by
  rw [keyOfUrl?_eq_some_iff] at hkey hkey'
  have hsuffix : '_' ∉ notesSuffix.toList := by decide
  obtain ⟨first, last, hfields, hfields'⟩ := fields_append hsuffix (fileName url).toList
  rw [hname, String.toList_append, hfields'] at hkey'
  rw [hfields] at hkey
  -- the suffix has gone to the last field, and the key is the third one
  rcases Nat.lt_trichotomy 2 first.length with hlt | heq | hgt
  · rw [List.getElem?_append_left hlt] at hkey hkey'
    rw [hkey, Option.some.injEq] at hkey'
    exact .inl (String.toList_inj.mp hkey'.symm)
  · rw [List.getElem?_append_right (by omega), ← heq] at hkey hkey'
    simp only [Nat.sub_self, List.getElem?_cons_zero, Option.some.injEq] at hkey hkey'
    refine .inr (String.toList_inj.mp ?_)
    rw [String.toList_append, ← hkey', ← hkey]
  · rw [List.getElem?_eq_none (by simp; omega)] at hkey
    cases hkey

/-! ## Keys of positions -/

/-- Integers are written as a sign and the decimals of their size. -/
theorem toList_toString_int (i : Int) :
    (toString i).toList = (if i < 0 then ['-'] else []) ++ Nat.toDigits 10 i.natAbs := by
  rw [Int.toString_eq_repr, Int.repr_eq_if]
  by_cases h : i < 0
  · have habs : (-i).toNat = i.natAbs := by omega
    rw [if_neg (by omega), if_pos h, String.toList_append, Nat.toList_repr, habs]
    rfl
  · have habs : i.toNat = i.natAbs := by omega
    rw [if_pos (by omega), if_neg h, Nat.toList_repr, habs]
    rfl

/-- Decimals end in a digit. -/
theorem exists_toString_int (i : Int) :
    ∃ first c, (toString i).toList = first ++ [c] ∧ c.isDigit = true := by
  have hdigits : Nat.toDigits 10 i.natAbs ≠ [] := Nat.toDigits_ne_nil
  have hlast := List.dropLast_concat_getLast hdigits
  rw [toList_toString_int, ← hlast, ← List.append_assoc]
  refine ⟨_, _, rfl, ?_⟩
  exact Nat.isDigit_of_mem_toDigits (by decide) (by decide) (List.getLast_mem hdigits)

/-- No key of a position ends like notes. -/
theorem tileKey_ne_append_notes (p : Position) (key : TileKey) :
    p.tileKey ≠ key ++ notesSuffix := by
  intro heq
  obtain ⟨first, c, hdigits, hc⟩ := exists_toString_int p.tile.2
  have hnotes : notesSuffix.toList = ".aux.xm".toList ++ ['l'] := by decide
  have hlast := congrArg (fun s : String => s.toList.getLast?) heq
  simp only [Position.tileKey, String.toList_append, hdigits, hnotes, ← List.append_assoc,
    List.getLast?_concat, Option.some.injEq] at hlast
  rw [hlast] at hc
  revert hc
  decide

end PointElevation
