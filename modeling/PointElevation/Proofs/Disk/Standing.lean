import PointElevation.Proofs.Disk.Room

/-!
# What exists

A tree of files is a list of locations, and nothing in that keeps a file from being listed where
there is no directory.  What exists for anybody who follows paths is what stands in directories all
the way (`FileTree.Stands`); on a real disk that is everything.

The point of the notion is a converse: where nothing exists at the path of a file, nothing stands
(`not_stands_of_exists?_false`), so a file that is put there replaces none.
-/

namespace PointElevation

namespace FileTree

variable {t t' : FileTree} {l : Location}

/-- Something is there, and directories lead to it. -/
structure Stands (t : FileTree) (l : Location) : Prop where
  here : t.get? l ≠ none
  above : ∀ l', l' <+: l → l' ≠ l → t.get? l' = some .directory

/-- What stands somewhere goes on standing there as long as nothing that stands is touched. -/
theorem Stands.mono (h : t.Stands l) (hstay : ∀ l, t.Stands l → t'.get? l = t.get? l) :
    t'.Stands l := by
  have habove : ∀ l', l' <+: l → l' ≠ l → t.Stands l' := by
    intro l' hle hne
    refine ⟨by simp [h.above l' hle hne], fun l'' hle' _ => ?_⟩
    refine h.above l'' (hle'.trans hle) ?_
    rintro rfl
    exact hne (hle.eq_of_length_le hle'.length_le)
  refine ⟨hstay l h ▸ h.here, fun l' hle hne => ?_⟩
  rw [hstay l' (habove l' hle hne), h.above l' hle hne]

/-- On the way to something that stands, nothing but the length of a name can be refused. -/
theorem Stands.obstacle_of_walk {names : List String} (h : t.Stands (l ++ names))
    (hdots : ".." ∉ names) {obstacle : Obstacle} (hwalk : t.walk l names = .error obstacle) :
    obstacle = .nameTooLong := by
  induction names generalizing l with
  | nil => cases hwalk
  | cons name rest ih =>
      rw [List.mem_cons, not_or] at hdots
      have hdirectory := h.above l (List.prefix_append _ _) (by simp)
      rw [walk_cons, enter_of_directory hdirectory (Ne.symm hdots.1)] at hwalk
      by_cases hlong : maxNameBytes < name.utf8ByteSize
      · rw [if_pos hlong] at hwalk
        cases hwalk
        rfl
      · rw [if_neg hlong] at hwalk
        refine ih ?_ hdots.2 hwalk
        simpa using h

/-- What is in a directory that can be reached stands there. -/
theorem Reaches.stands {directory : Location} (hreach : t.Reaches directory)
    (hdots : ".." ∉ directory) {name : String} (hthere : t.get? (directory ++ [name]) ≠ none) :
    t.Stands (directory ++ [name]) := by
  refine ⟨hthere, fun l' hle hne => ?_⟩
  rcases List.prefix_concat_iff.mp hle with rfl | ⟨rest, rfl⟩
  · exact absurd rfl hne
  · -- the walk to the directory comes by here, and it goes on only from a directory
    cases rest with
    | nil =>
        rw [List.append_nil] at hreach
        exact hreach.here
    | cons next rest =>
        obtain ⟨middle, hwalk, hrest⟩ := walk_append_eq_ok.mp hreach.walk
        have hbefore : ".." ∉ l' := fun hmem => hdots (List.mem_append_left _ hmem)
        obtain rfl : middle = l' := walk_eq_append hbefore hwalk
        obtain ⟨last, hstep, -⟩ := walk_cons_eq_ok.mp hrest
        exact directory_of_enter hstep

end FileTree

/-- Where nothing exists, although something could have that name, nothing stands. -/
theorem Disk.not_stands_of_exists?_false {d : Disk} {directory : Location} {name : String}
    (hdots : ".." ∉ directory ++ [name]) (hnameable : Nameable directory name)
    (habsent : d.exists? (.ofLocation (directory ++ [name])) = .ok false) :
    ¬ d.tree.Stands (directory ++ [name]) := by
  intro hstands
  have hhere := hstands.here
  unfold Disk.exists? Disk.find at habsent
  -- otherwise the path leads there, or it is too long to be followed, which is a fault
  cases hlocate : d.locate (.ofLocation (directory ++ [name])) with
  | ok l =>
      obtain ⟨rfl, -⟩ := (locate_place_eq_ok_iff hdots).mp hlocate
      rw [hlocate] at habsent
      simp [Except.map, hhere] at habsent
  | error fault =>
      have hlong : ∃ path, fault = .refused .nameTooLong path := by
        rw [locate_eq, hnameable.path] at hlocate
        simp only [start, FilePath.ofLocation, if_true] at hlocate
        cases hwalk : d.tree.walk [] (directory ++ [name]) with
        | ok l =>
            rw [hwalk] at hlocate
            cases hlocate
        | error obstacle =>
            rw [hwalk] at hlocate
            cases hlocate
            obtain rfl := FileTree.Stands.obstacle_of_walk (l := []) hstands hdots hwalk
            exact ⟨_, rfl⟩
      obtain ⟨path, rfl⟩ := hlong
      rw [hlocate] at habsent
      cases habsent

end PointElevation
