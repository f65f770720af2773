import PointElevation.Disk.Access

/-!
# Places in a directory

The service keeps all of its files in one directory, whose path has no dots.  What the disk says
about a name in it then falls into three parts: whether a file can have that name at all
(`Nameable`, which no change of the disk affects), whether the directory can be reached
(`FileTree.Reaches`), and what stands at the location.  Reaching a location only looks at
directories, so it lasts as long as they do (`walk_mono`).
-/

namespace PointElevation

/-! ## Walking -/

namespace FileTree

@[simp] theorem walk_nil (t : FileTree) (l : Location) : t.walk l [] = .ok l := rfl

theorem walk_cons (t : FileTree) (l : Location) (name : String) (names : List String) :
    t.walk l (name :: names) =
      match t.enter l name with
      | .ok next => t.walk next names
      | .error obstacle => .error obstacle := by
  simp only [walk, List.foldlM_cons]
  cases t.enter l name <;> rfl

theorem walk_cons_eq_ok {t : FileTree} {l last : Location} {name : String} {names : List String} :
    t.walk l (name :: names) = .ok last ↔
      ∃ next, t.enter l name = .ok next ∧ t.walk next names = .ok last := by
  rw [walk_cons]
  cases t.enter l name <;> simp

theorem walk_append (t : FileTree) (l : Location) (names more : List String) :
    t.walk l (names ++ more) =
      match t.walk l names with
      | .ok next => t.walk next more
      | .error obstacle => .error obstacle := by
  induction names generalizing l with
  | nil => simp
  | cons name rest ih =>
      rw [List.cons_append, walk_cons, walk_cons]
      cases t.enter l name with
      | ok next => exact ih next
      | error obstacle => rfl

theorem walk_append_eq_ok {t : FileTree} {l last : Location} {names more : List String} :
    t.walk l (names ++ more) = .ok last ↔
      ∃ next, t.walk l names = .ok next ∧ t.walk next more = .ok last := by
  rw [walk_append]
  cases t.walk l names <;> simp

/-- A step leaves a directory. -/
theorem directory_of_enter {t : FileTree} {l next : Location} {name : String}
    (h : t.enter l name = .ok next) : t.get? l = some .directory := by
  unfold enter at h
  split at h
  · assumption
  · cases h
  · cases h

/-- A step from a directory, to a name without dots. -/
theorem enter_of_directory {t : FileTree} {l : Location} {name : String}
    (h : t.get? l = some .directory) (hname : name ≠ "..") :
    t.enter l name =
      if maxNameBytes < name.utf8ByteSize then .error .nameTooLong else .ok (l ++ [name]) := by
  simp only [enter, h, hname, if_false]

/-- A step is taken again wherever the directories stay. -/
theorem enter_mono {t t' : FileTree}
    (hstay : ∀ l, t.get? l = some .directory → t'.get? l = some .directory) {l next : Location}
    {name : String} (h : t.enter l name = .ok next) : t'.enter l name = .ok next := by
  have hdir := directory_of_enter h
  simp only [enter, hdir, hstay l hdir] at h ⊢
  exact h

theorem walk_mono {t t' : FileTree}
    (hstay : ∀ l, t.get? l = some .directory → t'.get? l = some .directory) {l last : Location}
    {names : List String} (h : t.walk l names = .ok last) : t'.walk l names = .ok last := by
  induction names generalizing l with
  | nil => exact h
  | cons name rest ih =>
      obtain ⟨next, hstep, hrest⟩ := walk_cons_eq_ok.mp h
      exact walk_cons_eq_ok.mpr ⟨next, enter_mono hstay hstep, ih hrest⟩

/-- A step to a name without dots ends in that name. -/
theorem enter_eq_ok_iff {t : FileTree} {l next : Location} {name : String} (hname : name ≠ "..") :
    t.enter l name = .ok next ↔
      t.get? l = some .directory ∧ name.utf8ByteSize ≤ maxNameBytes ∧ next = l ++ [name] := by
  constructor
  · intro h
    have hdir := directory_of_enter h
    rw [enter_of_directory hdir hname] at h
    split at h
    · cases h
    · rename_i hshort
      cases h
      exact ⟨hdir, Nat.le_of_not_lt hshort, rfl⟩
  · rintro ⟨hdir, hshort, rfl⟩
    rw [enter_of_directory hdir hname, if_neg (Nat.not_lt_of_le hshort)]

/-- Without dots, a walk ends where its names say. -/
theorem walk_eq_append {t : FileTree} {l last : Location} {names : List String}
    (hdots : ".." ∉ names) (h : t.walk l names = .ok last) : last = l ++ names := by
  induction names generalizing l with
  | nil =>
      rw [walk_nil] at h
      cases h
      simp
  | cons name rest ih =>
      obtain ⟨next, hstep, hrest⟩ := walk_cons_eq_ok.mp h
      rw [List.mem_cons, not_or] at hdots
      obtain ⟨-, -, rfl⟩ := (enter_eq_ok_iff (Ne.symm hdots.1)).mp hstep
      rw [ih hdots.2 hrest]
      simp

/-- The directory at a location can be reached from the root. -/
structure Reaches (t : FileTree) (directory : Location) : Prop where
  walk : t.walk [] directory = .ok directory
  here : t.get? directory = some .directory

theorem Reaches.mono {t t' : FileTree} {directory : Location} (h : t.Reaches directory)
    (hstay : ∀ l, t.get? l = some .directory → t'.get? l = some .directory) :
    t'.Reaches directory :=
  ⟨walk_mono hstay h.walk, hstay _ h.here⟩

end FileTree

/-! ## Names in a directory -/

/-- A file in the directory can have this name. -/
structure Nameable (directory : Location) (name : String) : Prop where
  path : Disk.checkPath (.ofLocation (directory ++ [name])) = .ok ()
  short : name.utf8ByteSize ≤ maxNameBytes

section Places

variable {d d' : Disk} {directory : Location} {name : String}

theorem locate_eq (d : Disk) (p : FilePath) :
    d.locate p =
      match Disk.checkPath p with
      | .error fault => .error fault
      | .ok () =>
          match d.start p with
          | .error fault => .error fault
          | .ok l =>
              match d.tree.walk l p.names with
              | .ok last => .ok last
              | .error obstacle => .error (.refused obstacle p) := by
  simp only [Disk.locate]
  cases Disk.checkPath p with
  | error fault => rfl
  | ok _ => cases d.start p <;> rfl

theorem locate_eq_ok_iff {p : FilePath} {last : Location} :
    d.locate p = .ok last ↔
      Disk.checkPath p = .ok () ∧ ∃ l, d.start p = .ok l ∧ d.tree.walk l p.names = .ok last := by
  rw [locate_eq]
  cases Disk.checkPath p with
  | error fault => simp
  | ok _ =>
      cases d.start p with
      | error fault => simp
      | ok l => cases hwalk : d.tree.walk l p.names <;> simp [hwalk]

theorem checkPath_eq_illegalName_iff {p : FilePath} :
    Disk.checkPath p = .error .illegalName ↔ p.hasIllegalName = true := by
  unfold Disk.checkPath
  cases p.hasIllegalName with
  | true => simp
  | false =>
      simp only [Bool.false_eq_true, if_false, iff_false]
      split <;> simp

/-- Of all that can be wrong with a path, only its names are ever illegal. -/
theorem locate_eq_illegalName_iff {p : FilePath} :
    d.locate p = .error .illegalName ↔ p.hasIllegalName = true := by
  -- the start of a path and the walk along it are refused for other reasons
  rw [locate_eq, ← checkPath_eq_illegalName_iff]
  cases Disk.checkPath p with
  | error fault => simp
  | ok _ =>
      simp only [reduceCtorEq, iff_false]
      unfold Disk.start
      intro h
      split at h
      · rename_i fault hstart
        split at hstart
        · cases hstart
        · split at hstart <;> cases hstart
          cases h
      · split at h <;> cases h

/-- A path leads to the same place as long as the directories and its start stay. -/
theorem locate_mono (hwork : d'.workDirectory = d.workDirectory)
    (hstay : ∀ l, d.tree.get? l = some .directory → d'.tree.get? l = some .directory)
    {p : FilePath} {last : Location} (h : d.locate p = .ok last) : d'.locate p = .ok last := by
  obtain ⟨hcheck, l, hstart, hwalk⟩ := locate_eq_ok_iff.mp h
  refine locate_eq_ok_iff.mpr ⟨hcheck, l, ?_, FileTree.walk_mono hstay hwalk⟩
  simp only [Disk.start, hwork] at hstart ⊢
  exact hstart

theorem locate_eq_ok_congr (hwork : d'.workDirectory = d.workDirectory)
    (hsame : ∀ l, d'.tree.get? l = some .directory ↔ d.tree.get? l = some .directory)
    {p : FilePath} {last : Location} : d'.locate p = .ok last ↔ d.locate p = .ok last :=
  ⟨locate_mono hwork.symm fun l => (hsame l).mp, locate_mono hwork fun l => (hsame l).mpr⟩

theorem locate_place_eq_ok_iff (hdots : ".." ∉ directory ++ [name]) {l : Location} :
    d.locate (.ofLocation (directory ++ [name])) = .ok l ↔
      l = directory ++ [name] ∧ Nameable directory name ∧ d.tree.Reaches directory := by
  rw [List.mem_append, not_or, List.mem_singleton] at hdots
  have hname : name ≠ ".." := Ne.symm hdots.2
  rw [locate_eq_ok_iff]
  -- the path is walked to the directory first, and then there is the one step to the name
  constructor
  · rintro ⟨hcheck, root, hstart, hwalk⟩
    obtain rfl : [] = root := by simpa [Disk.start, FilePath.ofLocation] using hstart
    obtain ⟨middle, hdir, hlast⟩ := FileTree.walk_append_eq_ok.mp hwalk
    obtain rfl : middle = directory := FileTree.walk_eq_append hdots.1 hdir
    obtain ⟨next, hstep, hnext⟩ := FileTree.walk_cons_eq_ok.mp hlast
    obtain ⟨hhere, hshort, rfl⟩ := (FileTree.enter_eq_ok_iff hname).mp hstep
    cases hnext
    exact ⟨rfl, ⟨hcheck, hshort⟩, hdir, hhere⟩
  · rintro ⟨rfl, hnameable, hreach⟩
    refine ⟨hnameable.path, [], rfl, FileTree.walk_append_eq_ok.mpr ⟨_, hreach.walk, ?_⟩⟩
    refine FileTree.walk_cons_eq_ok.mpr ⟨_, ?_, rfl⟩
    exact (FileTree.enter_eq_ok_iff hname).mpr ⟨hreach.here, hnameable.short, rfl⟩

/-- A path that leads nowhere ends in a name that no file has, or its directory is out of reach. -/
theorem not_reaches_of_locate_error (hdots : ".." ∉ directory ++ [name]) {fault : DiskFault}
    (h : d.locate (.ofLocation (directory ++ [name])) = .error fault)
    (hnameable : Nameable directory name) : ¬ d.tree.Reaches directory := by
  intro hreach
  rw [(locate_place_eq_ok_iff hdots).mpr ⟨rfl, hnameable, hreach⟩] at h
  cases h

/-- What is read at a place. -/
theorem read_place_eq_ok_iff (hdots : ".." ∉ directory ++ [name]) {bytes : ByteArray} :
    d.read (.ofLocation (directory ++ [name])) = .ok bytes ↔
      Nameable directory name ∧ d.tree.Reaches directory ∧
        d.tree.get? (directory ++ [name]) = some (.file bytes) := by
  unfold Disk.read
  cases hlocate : d.locate (.ofLocation (directory ++ [name])) with
  | error fault =>
      have hnot := not_reaches_of_locate_error hdots hlocate
      simp only [reduceCtorEq, false_iff]
      exact fun hread => hnot hread.1 hread.2.1
  | ok l =>
      obtain ⟨rfl, hnameable, hreach⟩ := (locate_place_eq_ok_iff hdots).mp hlocate
      simp only [hnameable, hreach, true_and]
      cases d.tree.get? (directory ++ [name]) with
      | none => simp
      | some node => cases node <;> simp

/-- When something is there. -/
theorem exists?_place_eq_true_iff (hdots : ".." ∉ directory ++ [name]) :
    d.exists? (.ofLocation (directory ++ [name])) = .ok true ↔
      Nameable directory name ∧ d.tree.Reaches directory ∧
        d.tree.get? (directory ++ [name]) ≠ none := by
  unfold Disk.exists? Disk.find
  cases hlocate : d.locate (.ofLocation (directory ++ [name])) with
  | error fault =>
      have hnot := not_reaches_of_locate_error hdots hlocate
      refine iff_of_false ?_ fun hthere => hnot hthere.1 hthere.2.1
      -- only a name that is too long is a fault here; all others find nothing
      split
      · rename_i hok
        cases hok
      · exact fun htrue => by cases htrue
      · exact fun htrue => by cases htrue
  | ok l =>
      obtain ⟨rfl, hnameable, hreach⟩ := (locate_place_eq_ok_iff hdots).mp hlocate
      simp [hnameable, hreach, Except.map, Option.isSome_iff_ne_none]

/-- A path to something can be followed, so that the most that can be wrong with reading it is that
it leads to a directory. -/
theorem refused_of_exists?_true {p : FilePath} {fault : DiskFault}
    (hexists : d.exists? p = .ok true) (hread : d.read p = .error fault) :
    fault = .refused .isDirectory p := by
  unfold Disk.exists? Disk.find at hexists
  unfold Disk.read at hread
  cases hlocate : d.locate p with
  | error fault' =>
      rw [hlocate] at hexists
      split at hexists
      · rename_i hok
        cases hok
      · cases hexists
      · cases hexists
  | ok l =>
      rw [hlocate] at hexists hread
      dsimp only at hread
      cases hnode : d.tree.get? l with
      | none =>
          simp only [hnode] at hexists
          cases hexists
      | some node =>
          rw [hnode] at hread
          cases node with
          | file content => cases hread
          | directory =>
              cases hread
              rfl

/-- What is read at a place depends on nothing but what stands there, where the directory can be
reached. -/
theorem toOption_read_congr (hdots : ".." ∉ directory ++ [name]) (hreach : d.tree.Reaches directory)
    (hreach' : d'.tree.Reaches directory)
    (hget : d'.tree.get? (directory ++ [name]) = d.tree.get? (directory ++ [name])) :
    (d'.read (.ofLocation (directory ++ [name]))).toOption =
      (d.read (.ofLocation (directory ++ [name]))).toOption := by
  have hsome : ∀ (e : Except DiskFault ByteArray) (bytes : ByteArray),
      e.toOption = some bytes ↔ e = .ok bytes := by
    intro e bytes
    cases e <;> simp [Except.toOption]
  -- the faults of the two may differ, but not what is read
  ext bytes
  rw [hsome, hsome, read_place_eq_ok_iff hdots, read_place_eq_ok_iff hdots, hget]
  simp only [hreach, hreach', true_and]

end Places

end PointElevation
