import Mathlib.Data.List.Nodup
import Mathlib.Data.List.Perm.Subperm
import PointElevation.Proofs.Disk.Growth
import PointElevation.Proofs.Listing.FileName

/-!
# Room for a file

Writing a file can be refused at three points: while directories are made, when the temporary
sibling is made, and when it is moved to its place.  All of this is decided by the names and by the
directories that exist, so it can be said of a disk beforehand (`Disk.HasRoom`).  That no sibling is
left over is never a reason, since more names are tried than there are files
(`freshSibling?_isSome`).
-/

namespace PointElevation

/-! ## Names of siblings -/

/-- The number of a sibling can be read off its name. -/
theorem temporaryName_injective {name : String} {n m : Nat}
    (h : temporaryName name n = temporaryName name m) : n = m := by
  have htag : ∀ k, Nat.ofDigitChars 10 (temporaryTag k).toList 0 = k := by
    intro k
    simp [temporaryTag, Nat.ofDigitChars_append, Nat.ofDigitChars_replicate_zero]
  have hlist := congrArg String.toList h
  simp only [temporaryName, String.toList_append, List.append_cancel_right_eq,
    List.append_cancel_left_eq] at hlist
  rw [← htag n, hlist, htag m]

/-- One of the names that are tried is always free. -/
theorem freshSibling?_isSome (t : FileTree) (directory : Location) (name : String) :
    (t.freshSibling? directory name).isSome = true := by
  rw [FileTree.freshSibling?, List.find?_isSome]
  by_contra hnone
  -- otherwise all of them are locations of the tree, which has fewer
  have hsubset : ((List.range (t.nodes.length + 1)).map
      fun n => directory ++ [temporaryName name n]) ⊆ t.nodes.map Prod.fst := by
    intro l hl
    have htaken : t.get? l ≠ none := fun hfree => hnone ⟨l, hl, by simp [hfree]⟩
    obtain ⟨n, -, rfl⟩ := List.mem_map.mp hl
    rw [FileTree.get?, if_neg (by simp), Ne, List.lookup_eq_none_iff] at htaken
    push Not at htaken
    obtain ⟨entry, hentry, heq⟩ := htaken
    exact List.mem_map.mpr ⟨entry, hentry, (beq_iff_eq.mp (by simpa using heq)).symm⟩
  have hnodup : ((List.range (t.nodes.length + 1)).map
      fun n => directory ++ [temporaryName name n]).Nodup := by
    refine List.Nodup.map (fun n m heq => ?_) List.nodup_range
    have hname : temporaryName name n = temporaryName name m := by simpa using heq
    exact temporaryName_injective hname
  have hlength := (hnodup.subperm hsubset).length_le
  simp only [List.length_map, List.length_range] at hlength
  omega

theorem isFileName_temporaryName {name : String} (hslash : '/' ∉ name.toList) (n : Nat) :
    IsFileName (temporaryName name n) := by
  have hmem : 'p' ∈ (temporaryName name n).toList := by
    simp only [temporaryName, String.toList_append]
    exact List.mem_append_right _ (by decide)
  have hdigits : '/' ∉ (temporaryTag n).toList := by
    rw [temporaryTag, String.toList_ofList, List.mem_append, not_or, List.mem_replicate]
    refine ⟨by simp, fun hdigit => ?_⟩
    have hisDigit := Nat.isDigit_of_mem_toDigits (by decide) (by decide) hdigit
    revert hisDigit
    decide
  refine isFileName_of_mem hmem (by decide) ?_
  simp [temporaryName, hslash, hdigits]

/-! ## Paths -/

theorem parent_ofLocation (directory : Location) (name : String) :
    (FilePath.ofLocation (directory ++ [name])).parent = .ofLocation directory := by
  simp [FilePath.parent, FilePath.ofLocation]

theorem name_ofLocation (directory : Location) (name : String) :
    (FilePath.ofLocation (directory ++ [name])).name = name := by
  simp [FilePath.name, FilePath.ofLocation]

theorem hasIllegalName_iff {p : FilePath} :
    p.hasIllegalName = true ↔ ∃ name ∈ p.names, '\x00' ∈ name.toList := by
  simp [FilePath.hasIllegalName]

theorem hasIllegalName_of_parent {p : FilePath} (h : p.parent.hasIllegalName = true) :
    p.hasIllegalName = true := by
  obtain ⟨name, hname, hillegal⟩ := hasIllegalName_iff.mp h
  exact hasIllegalName_iff.mpr ⟨name, (List.dropLast_prefix p.names).subset hname, hillegal⟩

/-- If a path has legal names, so have its siblings. -/
theorem hasIllegalName_of_sibling {p : FilePath}
    (h : (p.parent.child (temporaryName p.name 0)).hasIllegalName = true) :
    p.hasIllegalName = true := by
  obtain ⟨name, hname, hillegal⟩ := hasIllegalName_iff.mp h
  rcases List.mem_append.mp hname with hname | hname
  · exact hasIllegalName_of_parent (hasIllegalName_iff.mpr ⟨name, hname, hillegal⟩)
  · -- what the sibling's name adds to the name of the path is legal
    obtain ⟨field, hfield, rfl⟩ := List.mem_map.mp (List.mem_filter.mp hname).1
    rw [String.toList_ofList] at hillegal
    have hmem := mem_of_mem_fields hfield hillegal
    have htag : '\x00' ∉ (temporaryTag 0).toList := by decide
    have hlast : '\x00' ∈ p.name.toList := by
      simpa [temporaryName, htag] using hmem
    rw [FilePath.name] at hlast
    cases hgetLast : p.names.getLast? with
    | none => simp [hgetLast] at hlast
    | some last =>
        rw [hgetLast] at hlast
        exact hasIllegalName_iff.mpr ⟨last, List.mem_of_getLast? hgetLast, hlast⟩

/-- The sibling of a path that ends in one name has an illegal name if the path has. -/
theorem hasIllegalName_sibling {p : FilePath} (hslash : '/' ∉ p.name.toList)
    (h : p.hasIllegalName = true) :
    (p.parent.child (temporaryName p.name 0)).hasIllegalName = true := by
  obtain ⟨name, hname, hillegal⟩ := hasIllegalName_iff.mp h
  obtain ⟨front, last, hnames⟩ : ∃ front last, p.names = front ++ [last] :=
    ⟨_, _, (List.dropLast_concat_getLast (List.ne_nil_of_mem hname)).symm⟩
  have hlast : p.name = last := by simp [FilePath.name, hnames]
  rw [hasIllegalName_iff]
  simp only [FilePath.child, FilePath.parent, (isFileName_temporaryName hslash 0).namesIn, hnames,
    List.dropLast_concat]
  rw [hnames] at hname
  rcases List.mem_append.mp hname with hfront | hname
  · exact ⟨name, List.mem_append_left _ hfront, hillegal⟩
  · refine ⟨_, List.mem_append_right _ List.mem_cons_self, ?_⟩
    rw [← List.mem_singleton.mp hname] at hlast
    simp [hlast, temporaryName, hillegal]

/-- Where the path of a name in a directory can be followed, that of the directory can be too. -/
theorem checkPath_directory {directory : Location} {name : String}
    (h : Disk.checkPath (.ofLocation (directory ++ [name])) = .ok ()) :
    Disk.checkPath (.ofLocation directory) = .ok () := by
  have hsize : (FilePath.ofLocation directory).toString.utf8ByteSize ≤
      (FilePath.ofLocation (directory ++ [name])).toString.utf8ByteSize := by
    simp only [FilePath.toString, FilePath.ofLocation, if_true, String.utf8ByteSize_append]
    cases directory with
    | nil => simp
    | cons first rest =>
        rw [String.intercalate_append_of_ne_nil (by simp) (by simp)]
        simp only [String.utf8ByteSize_append]
        omega
  -- a legal path stays legal without its last name, and a short one stays short
  unfold Disk.checkPath at h ⊢
  split at h
  · cases h
  · rename_i hlegal
    split at h
    · cases h
    · have hparent := hasIllegalName_of_parent (p := .ofLocation (directory ++ [name]))
      rw [parent_ofLocation] at hparent
      rw [if_neg (mt hparent hlegal), if_neg (by omega)]

/-! ## Directories that cannot be made -/

namespace FileTree

variable {t : FileTree} {l : Location} {name : String} {names : List String}

/-- A directory further down can be reached. -/
def ReachesFrom (t : FileTree) (l : Location) (names : List String) : Prop :=
  t.walk l names = .ok (l ++ names) ∧ t.get? (l ++ names) = some .directory

theorem reachesFrom_nil_iff {directory : Location} :
    t.ReachesFrom [] directory ↔ t.Reaches directory :=
  ⟨fun h => ⟨h.1, h.2⟩, fun h => ⟨h.walk, h.here⟩⟩

/-- Directories are left all the way. -/
theorem ReachesFrom.start (h : t.ReachesFrom l names) : t.get? l = some .directory := by
  cases names with
  | nil => simpa using h.2
  | cons name rest =>
      obtain ⟨next, hstep, -⟩ := walk_cons_eq_ok.mp h.1
      exact directory_of_enter hstep

theorem reachesFrom_cons_iff (hname : name ≠ "..") :
    t.ReachesFrom l (name :: names) ↔
      t.enter l name = .ok (l ++ [name]) ∧ t.ReachesFrom (l ++ [name]) names := by
  simp only [ReachesFrom, List.append_assoc, List.singleton_append, walk_cons_eq_ok]
  constructor
  · rintro ⟨⟨next, hstep, hrest⟩, hhere⟩
    obtain ⟨-, -, rfl⟩ := (enter_eq_ok_iff hname).mp hstep
    exact ⟨hstep, hrest, hhere⟩
  · rintro ⟨hstep, hrest, hhere⟩
    exact ⟨⟨_, hstep, hrest⟩, hhere⟩

end FileTree

namespace Disk

/-- What keeps a directory from being made still stands in the way afterwards. -/
theorem ends_makeAlong_refused {p : FilePath} (names : List String) (hdots : ".." ∉ names)
    (l : Location) (d : Disk) :
    Ends (names.foldlM (enterOrMake p) l) d (fun _ _ => True)
      fun _ d' => ¬ d'.tree.ReachesFrom l names := by
  -- the names still ahead: what is refused at the first of them is refused from here
  induction names generalizing l d with
  | nil => trivial
  | cons name rest ih =>
      rw [List.mem_cons, not_or] at hdots
      have hname := Ne.symm hdots.1
      simp only [List.foldlM_cons, ends_bind]
      refine ((ends_enterOrMake hname d).and (ends_self _ d)).mono ?_ ?_
      · intro next d₁ hend
        obtain ⟨⟨rfl, -⟩, -⟩ := hend
        refine (ih hdots.2 (l ++ [name]) d₁).mono (fun _ _ h => h) fun _ d' hrefused hreach => ?_
        exact hrefused ((FileTree.reachesFrom_cons_iff hname).mp hreach).2
      · rintro fault d' ⟨rfl, hrun⟩ hreach
        -- the step could be made, so it was a file that stood there
        obtain ⟨hstep, hrest⟩ := (FileTree.reachesFrom_cons_iff hname).mp hreach
        simp [enterOrMake, bind_apply, get_apply, pure_apply, hstep, hrest.start] at hrun

theorem not_reaches_of_makeDirectories {directory : Location} (hdots : ".." ∉ directory)
    (hcheck : checkPath (.ofLocation directory) = .ok ()) {d d' : Disk} {fault : DiskFault}
    (hrun : makeDirectories (.ofLocation directory) d = .error fault d') :
    ¬ d'.tree.Reaches directory := by
  have hends : Ends (makeDirectories (.ofLocation directory)) d (fun _ _ => True)
      fun _ d' => ¬ d'.tree.Reaches directory := by
    simp only [makeDirectories, ends_bind, ends_get, ends_ask, start, FilePath.ofLocation, if_true]
    refine ⟨fun _ _ => ⟨?_, by simp⟩, fun fault hfault => ?_⟩
    · rintro start hstart
      cases hstart
      refine (ends_makeAlong_refused directory hdots [] d).mono (fun _ _ _ => ?_) ?_
      · trivial
      · exact fun _ _ hrefused hreach => hrefused (FileTree.reachesFrom_nil_iff.mpr hreach)
    · rw [FilePath.ofLocation] at hcheck
      rw [hcheck] at hfault
      cases hfault
  exact hends.of_error hrun

/-! ## Room -/

/-- A file can stand at the place where a path leads. -/
def Takes (d : Disk) (p : FilePath) (l : Location) : Prop :=
  d.locate p = .ok l ∧ d.tree.get? l ≠ some .directory

theorem takes_congr {d d' : Disk} (hwork : d'.workDirectory = d.workDirectory)
    (hsame : ∀ l, d'.tree.get? l = some .directory ↔ d.tree.get? l = some .directory)
    {p : FilePath} {l : Location} : d'.Takes p l ↔ d.Takes p l :=
  and_congr (locate_eq_ok_congr hwork hsame) (not_congr (hsame l))

theorem Takes.ne_nil {d : Disk} {p : FilePath} {place : Location} (h : d.Takes p place) :
    place ≠ [] := by
  rintro rfl
  exact h.2 rfl

/-- A file that is put where a path leads is read there. -/
theorem Takes.read {d : Disk} {p : FilePath} {place : Location} (h : d.Takes p place)
    (bytes : ByteArray) :
    Disk.read { d with tree := d.tree.insert place (.file bytes) } p = .ok bytes := by
  have hlocate : Disk.locate { d with tree := d.tree.insert place (.file bytes) } p =
      .ok place := by
    refine locate_mono ?_ (fun l hl => FileTree.directory_insert_file h.2 hl) h.1
    rfl
  simp only [Disk.read, hlocate, FileTree.get?_insert h.ne_nil, if_true]

/-- A file of some name can be written in a directory. -/
structure HasRoom (d : Disk) (directory : Location) (name : String) : Prop where
  reaches : d.tree.Reaches directory
  nameable : Nameable directory name
  /-- the sibling that it is written to first -/
  sibling : Nameable directory (temporaryName name 0)
  plain : d.tree.get? (directory ++ [name]) ≠ some .directory

variable {d : Disk} {directory : Location} {name : String}

theorem HasRoom.takes (h : d.HasRoom directory name) (hdots : ".." ∉ directory ++ [name]) :
    d.Takes (.ofLocation (directory ++ [name])) (directory ++ [name]) :=
  ⟨(locate_place_eq_ok_iff hdots).mpr ⟨rfl, h.nameable, h.reaches⟩, h.plain⟩

/-- Where there is room, a sibling is made. -/
theorem HasRoom.createTemporary (h : d.HasRoom directory name) (hslash : '/' ∉ name.toList) :
    ∃ l d', Disk.createTemporary (.ofLocation (directory ++ [name])) d = .ok l d' := by
  have hfirst := isFileName_temporaryName hslash 0
  have hlocate : d.locate (.ofLocation directory) = .ok directory :=
    locate_eq_ok_iff.mpr ⟨checkPath_directory h.nameable.path, [], rfl, h.reaches.walk⟩
  have henter : d.tree.enter directory (temporaryName name 0) =
      .ok (directory ++ [temporaryName name 0]) :=
    (FileTree.enter_eq_ok_iff hfirst.dots).mpr ⟨h.reaches.here, h.sibling.short, rfl⟩
  obtain ⟨l, hfresh⟩ := Option.isSome_iff_exists.mp (freshSibling?_isSome d.tree directory name)
  -- the directory is entered with the first name that is tried, which decides for all of them
  refine ⟨l, { d with tree := d.tree.insert l (.file .empty) }, ?_⟩
  simp only [Disk.createTemporary, parent_ofLocation, name_ofLocation, child_ofLocation hfirst,
    h.sibling.path, hlocate, henter, hfresh, ask, modifyTree, bind_apply, get_apply, modify_apply,
    pure_apply]

/-! ## Refusals -/

/-- A file does not come to its place: the directories cannot be made, or there cannot be a sibling,
or the place is taken.  Nothing but directories has come to the disk. -/
inductive Refuses (target : FilePath) (d d' : Disk) : DiskFault → Prop
  | directories {fault : DiskFault} :
      makeDirectories target.parent d = .error fault d' → Refuses target d d' fault
  | sibling {fault : DiskFault} : makeDirectories target.parent d = .ok () d' →
      Disk.createTemporary target d' = .error fault d' → Refuses target d d' fault
  | place {fault : DiskFault} {l : Location} {filled : Disk} :
      makeDirectories target.parent d = .ok () d' →
        Disk.createTemporary target d' = .ok l filled → (∀ l, ¬ d'.Takes target l) →
          (fault = .illegalName → target.hasIllegalName = true) → Refuses target d d' fault

/-- Where there is room, nothing is refused. -/
theorem Refuses.not_hasRoom {d' : Disk} {fault : DiskFault}
    (h : Refuses (.ofLocation (directory ++ [name])) d d' fault)
    (hdots : ".." ∉ directory ++ [name]) (hslash : '/' ∉ name.toList) :
    ¬ d'.HasRoom directory name := by
  intro hroom
  cases h with
  | directories hmake =>
      rw [parent_ofLocation] at hmake
      refine not_reaches_of_makeDirectories ?_ (checkPath_directory hroom.nameable.path) hmake
        hroom.reaches
      exact fun hmem => hdots (List.mem_append_left _ hmem)
  | sibling _ hcreate =>
      obtain ⟨l, filled, hcreate'⟩ := hroom.createTemporary hslash
      rw [hcreate'] at hcreate
      cases hcreate
  | place _ _ hnone _ => exact hnone _ (hroom.takes hdots)

/-- A sibling of a name that no file can have cannot be made. -/
theorem createTemporary_illegal {target : FilePath} (hslash : '/' ∉ target.name.toList)
    (hillegal : target.hasIllegalName = true) (d : Disk) :
    Disk.createTemporary target d = .error .illegalName d := by
  have hcheck := checkPath_eq_illegalName_iff.mpr (hasIllegalName_sibling hslash hillegal)
  simp only [Disk.createTemporary, hcheck, ask, bind_apply, throw_apply]

theorem ends_createTemporary_legal (p : FilePath) (d : Disk) :
    Ends (createTemporary p) d (fun _ _ => True)
      fun fault _ => fault = .illegalName → p.hasIllegalName = true := by
  simp only [createTemporary, ends_bind, ends_ask, ends_get]
  refine ⟨fun _ _ => ⟨fun directory _ => ?_, ?_⟩, ?_⟩
  · cases d.tree.enter directory (temporaryName p.name 0) with
    | error obstacle => exact DiskFault.noConfusion
    | ok next =>
        dsimp only
        split
        · exact DiskFault.noConfusion
        · trivial
  · rintro fault hlocate rfl
    exact hasIllegalName_of_parent (locate_eq_illegalName_iff.mp hlocate)
  · rintro fault hcheck rfl
    exact hasIllegalName_of_sibling (checkPath_eq_illegalName_iff.mp hcheck)

theorem ends_enterOrMake_legal (p : FilePath) (l : Location) (name : String) (d : Disk) :
    Ends (enterOrMake p l name) d (fun _ _ => True) fun fault _ => fault ≠ .illegalName := by
  simp only [enterOrMake, ends_bind, ends_get]
  cases d.tree.enter l name with
  | error obstacle => exact DiskFault.noConfusion
  | ok next =>
      dsimp only
      split
      · trivial
      · exact DiskFault.noConfusion
      · trivial

theorem ends_makeAlong_legal (p : FilePath) (names : List String) (l : Location) (d : Disk) :
    Ends (names.foldlM (enterOrMake p) l) d (fun _ _ => True)
      fun fault _ => fault ≠ .illegalName := by
  induction names generalizing l d with
  | nil => trivial
  | cons name rest ih =>
      simp only [List.foldlM_cons, ends_bind]
      refine (ends_enterOrMake_legal p l name d).mono (fun next d' _ => ?_) fun _ _ hfault => hfault
      exact ih next d'

/-- Making directories fails for an illegal name only if there is one in the path. -/
theorem makeDirectories_illegal {p : FilePath} {d' : Disk}
    (h : makeDirectories p d = .error .illegalName d') : p.hasIllegalName = true := by
  have hends : Ends (makeDirectories p) d (fun _ _ => True)
      fun fault _ => fault = .illegalName → p.hasIllegalName = true := by
    simp only [makeDirectories, ends_bind, ends_get, ends_ask]
    refine ⟨fun _ _ => ⟨fun l _ => ?_, ?_⟩, ?_⟩
    · refine (ends_makeAlong_legal p p.names l d).mono (fun _ _ _ => trivial) ?_
      intro fault _ hfault heq
      exact absurd heq hfault
    · rintro fault hstart rfl
      unfold start at hstart
      split at hstart
      · cases hstart
      · split at hstart <;> cases hstart
    · rintro fault hcheck rfl
      exact checkPath_eq_illegalName_iff.mp hcheck
  exact hends.of_error h rfl

/-- A file cannot be written for the reason that its path has an illegal name; the directories on
the way would have been made, if there is no such name in them. -/
def CannotName (d : Disk) (target : FilePath) : Prop :=
  target.hasIllegalName = true ∧
    ∀ obstacle path d', makeDirectories target.parent d ≠ .error (.refused obstacle path) d'

/-- A refusal is for an illegal name exactly if the target has one, unless the directories have been
refused before. -/
theorem Refuses.eq_illegalName_iff {target : FilePath} {d' : Disk} {fault : DiskFault}
    (h : Refuses target d d' fault) (hslash : '/' ∉ target.name.toList) :
    fault = .illegalName ↔ d.CannotName target := by
  unfold CannotName
  -- by the point of refusal; an illegal name is found when the sibling is made, at the latest
  cases h with
  | directories hmake =>
      constructor
      · rintro rfl
        refine ⟨hasIllegalName_of_parent (makeDirectories_illegal hmake), ?_⟩
        intro obstacle path d'' hmake'
        rw [hmake] at hmake'
        cases hmake'
      · rintro ⟨-, hmake'⟩
        cases fault with
        | illegalName => rfl
        | refused obstacle path => exact absurd hmake (hmake' obstacle path _)
  | sibling hmake hcreate =>
      constructor
      · rintro rfl
        refine ⟨(ends_createTemporary_legal target _).of_error hcreate rfl, ?_⟩
        intro obstacle path d'' hmake'
        rw [hmake] at hmake'
        cases hmake'
      · rintro ⟨hillegal, -⟩
        rw [createTemporary_illegal hslash hillegal] at hcreate
        cases hcreate
        rfl
  | place hmake hcreate _ hfault =>
      constructor
      · intro heq
        refine ⟨hfault heq, fun obstacle path d'' hmake' => ?_⟩
        rw [hmake] at hmake'
        cases hmake'
      · rintro ⟨hillegal, -⟩
        rw [createTemporary_illegal hslash hillegal] at hcreate
        cases hcreate

end Disk

end PointElevation
