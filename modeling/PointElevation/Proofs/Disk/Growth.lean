import Mathlib.Data.List.Basic
import PointElevation.Proofs.Disk.Place
import PointElevation.Proofs.Host.Ending

/-!
# What writing does to a disk

Two changes are all that a download makes.  Directories are made on the way to the cache directory
(`Disk.Grown`), and this may come to nothing half way.  A file is put in its place at once: the
temporary sibling comes and goes without a trace, because it takes a name that was free, so that
creating it and erasing it gives back the very tree there was (`erase_insert_of_free`).
-/

namespace PointElevation

/-! ## Trees -/

namespace FileTree

variable {t : FileTree} {l : Location}

theorem insert_insert (t : FileTree) (l : Location) (n m : Node) :
    (t.insert l n).insert l m = t.insert l m := by
  simp [insert]

/-- A location that was free is no location of the root. -/
theorem ne_nil_of_free (hfree : t.get? l = none) : l ≠ [] := by
  rintro rfl
  cases hfree

/-- A free location is in none of the entries. -/
theorem filter_of_free (hfree : t.get? l = none) :
    (t.nodes.filter fun entry => entry.1 != l) = t.nodes := by
  have hnil : l ≠ [] := ne_nil_of_free hfree
  have hlookup : t.nodes.lookup l = none := by simpa [get?, hnil] using hfree
  rw [List.lookup_eq_none_iff] at hlookup
  rw [List.filter_eq_self]
  intro entry hentry
  have hne : l ≠ entry.1 := by simpa using hlookup entry hentry
  simpa using hne.symm

/-- Erasing what came to a free location gives back what there was. -/
theorem erase_insert_of_free (hfree : t.get? l = none) (n : Node) : (t.insert l n).erase l = t := by
  have hfilter := filter_of_free hfree
  simp [insert, erase, hfilter]

/-- Where nothing was, a file in that place hides no directory. -/
theorem directory_insert_file {l' : Location} {content : ByteArray}
    (hplace : t.get? l ≠ some .directory) (hdir : t.get? l' = some .directory) :
    (t.insert l (.file content)).get? l' = some .directory := by
  have hnil : l ≠ [] := by
    rintro rfl
    exact hplace rfl
  rw [get?_insert hnil, if_neg]
  · exact hdir
  · rintro rfl
    exact hplace hdir

/-- A file in a free place changes nothing for directories. -/
theorem directory_insert_file_iff (hfree : t.get? l = none) {l' : Location} {content : ByteArray} :
    (t.insert l (.file content)).get? l' = some .directory ↔ t.get? l' = some .directory := by
  refine ⟨fun hdir => ?_, directory_insert_file (by simp [hfree])⟩
  rw [get?_insert (ne_nil_of_free hfree)] at hdir
  by_cases heq : l' = l
  · rw [if_pos heq] at hdir
    cases hdir
  · rwa [if_neg heq] at hdir

end FileTree

/-! ## Making directories -/

/-- The second disk is the first with directories made on the way to a location. -/
structure Disk.Grown (directory : Location) (d d' : Disk) : Prop where
  workDirectory : d'.workDirectory = d.workDirectory
  get? : ∀ l, d'.tree.get? l = d.tree.get? l ∨
    (l <+: directory ∧ d.tree.get? l = none ∧ d'.tree.get? l = some .directory)

/-- The second disk is the first with a file put in a directory, after directories were made on the
way. -/
structure Disk.Gained (directory : Location) (name : String) (bytes : ByteArray) (d d' : Disk) :
    Prop where
  workDirectory : d'.workDirectory = d.workDirectory
  reaches : d'.tree.Reaches directory
  nameable : Nameable directory name
  here : d'.tree.get? (directory ++ [name]) = some (.file bytes)
  elsewhere : ∀ l, l ≠ directory ++ [name] → d'.tree.get? l = d.tree.get? l ∨
    (l <+: directory ∧ d.tree.get? l = none ∧ d'.tree.get? l = some .directory)

namespace Disk

namespace Grown

variable {directory : Location} {d d' d'' : Disk}

theorem refl (directory : Location) (d : Disk) : Grown directory d d := ⟨rfl, fun _ => .inl rfl⟩

theorem trans (h : Grown directory d d') (h' : Grown directory d' d'') : Grown directory d d'' := by
  refine ⟨h'.workDirectory.trans h.workDirectory, fun l => ?_⟩
  -- a directory that the first step made is there for the second, which leaves what exists
  rcases h.get? l with hsame | ⟨hle, hnone, hdir⟩
  · rcases h'.get? l with hsame' | ⟨hle, hnone, hdir⟩
    · exact .inl (hsame'.trans hsame)
    · exact .inr ⟨hle, hsame ▸ hnone, hdir⟩
  · refine .inr ⟨hle, hnone, ?_⟩
    rcases h'.get? l with hsame' | ⟨-, hnone', -⟩
    · exact hsame'.trans hdir
    · rw [hdir] at hnone'
      cases hnone'

theorem mono {longer : Location} (h : Grown directory d d') (hle : directory <+: longer) :
    Grown longer d d' :=
  ⟨h.workDirectory, fun l => (h.get? l).imp_right fun hl => ⟨hl.1.trans hle, hl.2⟩⟩

/-- What exists stays as it is. -/
theorem get?_of_ne_none (h : Grown directory d d') {l : Location} (hl : d.tree.get? l ≠ none) :
    d'.tree.get? l = d.tree.get? l := by
  rcases h.get? l with hsame | ⟨-, hnone, -⟩
  · exact hsame
  · exact absurd hnone hl

/-- Nothing comes to be in the directory. -/
theorem get?_name (h : Grown directory d d') (name : String) :
    d'.tree.get? (directory ++ [name]) = d.tree.get? (directory ++ [name]) := by
  rcases h.get? (directory ++ [name]) with hsame | ⟨hle, -⟩
  · exact hsame
  · exact absurd hle.length_le (by simp)

theorem directory_stays (h : Grown directory d d') (l : Location)
    (hl : d.tree.get? l = some .directory) : d'.tree.get? l = some .directory := by
  rw [h.get?_of_ne_none (by simp [hl]), hl]

/-- Where the directory can be reached, a file may be put in it. -/
theorem gained (h : Grown directory d d') (hreach : d'.tree.Reaches directory) {name : String}
    (hnameable : Nameable directory name)
    (hplain : d'.tree.get? (directory ++ [name]) ≠ some .directory) (bytes : ByteArray) :
    Gained directory name bytes d
      { d' with tree := d'.tree.insert (directory ++ [name]) (.file bytes) } where
  workDirectory := h.workDirectory
  reaches := hreach.mono fun _ hl => FileTree.directory_insert_file hplain hl
  nameable := hnameable
  here := by rw [FileTree.get?_insert (by simp), if_pos rfl]
  elsewhere := fun l hl => by
    rw [FileTree.get?_insert (by simp), if_neg hl]
    exact h.get? l

end Grown

namespace Gained

variable {directory : Location} {name : String} {bytes : ByteArray} {d d' : Disk}

/-- The other files of the directory stay. -/
theorem get?_of_ne (h : Gained directory name bytes d d') {name' : String} (hne : name' ≠ name) :
    d'.tree.get? (directory ++ [name']) = d.tree.get? (directory ++ [name']) := by
  rcases h.elsewhere (directory ++ [name']) (by simpa using hne) with hsame | ⟨hle, -⟩
  · exact hsame
  · exact absurd hle.length_le (by simp)

theorem read (h : Gained directory name bytes d d') (hdots : ".." ∉ directory ++ [name]) :
    d'.read (.ofLocation (directory ++ [name])) = .ok bytes :=
  (read_place_eq_ok_iff hdots).mpr ⟨h.nameable, h.reaches, h.here⟩

end Gained

theorem ends_ask {question : Except DiskFault α} {d : Disk} {good : α → Disk → Prop}
    {bad : DiskFault → Disk → Prop} :
    Ends (ask question) d good bad ↔
      (∀ a, question = .ok a → good a d) ∧ ∀ fault, question = .error fault → bad fault d := by
  unfold ask
  cases question with
  | ok a => simp
  | error fault => simp

theorem ends_enterOrMake {p : FilePath} {l : Location} {name : String} (hname : name ≠ "..")
    (d : Disk) :
    Ends (enterOrMake p l name) d
      (fun next d' => next = l ++ [name] ∧ Grown next d d' ∧ d'.tree.get? next = some .directory)
      fun _ d' => d' = d := by
  simp only [enterOrMake, ends_bind, ends_get]
  cases hstep : d.tree.enter l name with
  | error obstacle => exact rfl
  | ok next =>
      obtain ⟨-, -, rfl⟩ := (FileTree.enter_eq_ok_iff hname).mp hstep
      dsimp only
      cases hnode : d.tree.get? (l ++ [name]) with
      | none =>
          have hne := FileTree.ne_nil_of_free hnode
          simp only [modifyTree, ends_bind, ends_modify, ends_pure]
          refine ⟨trivial, ⟨rfl, fun l' => ?_⟩, by rw [FileTree.get?_insert hne, if_pos rfl]⟩
          rw [FileTree.get?_insert hne]
          split
          · rename_i heq
            subst heq
            exact .inr ⟨List.prefix_rfl, hnode, rfl⟩
          · exact .inl rfl
      | some node =>
          cases node with
          | directory => exact ⟨rfl, .refl _ d, hnode⟩
          | file content => exact rfl

/-- Making directories makes nothing else, also when it is refused. -/
theorem ends_makeAlong {p : FilePath} (names : List String) (hdots : ".." ∉ names) (l : Location)
    (d : Disk) :
    Ends (names.foldlM (enterOrMake p) l) d (fun last d' => last = l ++ names ∧ Grown last d d')
      fun _ d' => Grown (l ++ names) d d' := by
  -- the names still ahead; the location and the disk change with every step
  induction names generalizing l d with
  | nil => simp [Grown.refl]
  | cons name rest ih =>
      rw [List.mem_cons, not_or] at hdots
      simp only [List.foldlM_cons, ends_bind]
      refine (ends_enterOrMake (Ne.symm hdots.1) d).mono ?_ ?_
      · intro next d₁ hend
        obtain ⟨rfl, hgrown, -⟩ := hend
        have hlonger : l ++ [name] <+: l ++ name :: rest := ⟨rest, by simp⟩
        refine (ih hdots.2 (l ++ [name]) d₁).mono ?_ ?_
        · intro last d₂ hend
          obtain ⟨hlast, hgrown'⟩ := hend
          rw [List.append_assoc, List.singleton_append] at hlast
          subst hlast
          exact ⟨rfl, (hgrown.mono hlonger).trans hgrown'⟩
        · intro fault d₂ hgrown'
          rw [List.append_assoc, List.singleton_append] at hgrown'
          exact (hgrown.mono hlonger).trans hgrown'
      · -- a step that is refused has made nothing
        rintro fault d₁ rfl
        exact .refl _ _

theorem ends_makeDirectories {directory : Location} (hdots : ".." ∉ directory) (d : Disk) :
    EndsIn (makeDirectories (.ofLocation directory)) d (Grown directory d) := by
  simp only [EndsIn, makeDirectories, ends_bind, ends_get, ends_ask, start, FilePath.ofLocation,
    if_true]
  refine ⟨fun _ _ => ⟨?_, by simp⟩, fun _ _ => .refl _ d⟩
  rintro start hstart
  cases hstart
  refine (ends_makeAlong directory hdots [] d).mono ?_ fun _ _ hgrown => hgrown
  intro last d' hend
  obtain ⟨rfl, hgrown⟩ := hend
  exact hgrown

end Disk

end PointElevation
