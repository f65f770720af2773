import Mathlib.Data.List.Induction
import PointElevation.Proofs.Disk.Growth
import PointElevation.Proofs.Disk.Standing

/-!
# Disks as they are

On a real disk nothing is listed where there is no directory (`FileTree.Rooted`), and nothing that
a download does to the disk can change that: directories are made one in another, and a file is put
in a directory that was reached.  On such a disk, what stands somewhere is what is listed there, and
a file that does not exist is not listed.
-/

namespace PointElevation

variable {directory : Location} {name : String}

namespace FileTree

variable {t : FileTree} {l : Location}

/-- Whatever is listed is in a directory. -/
def Rooted (t : FileTree) : Prop :=
  ∀ (l : Location) (name : String), t.get? (l ++ [name]) ≠ none → t.get? l = some .directory

theorem rooted_empty : (∅ : FileTree).Rooted := by
  intro l name hthere
  have hempty : (∅ : FileTree).get? (l ++ [name]) = none := by
    rw [get?, if_neg (by simp)]
    rfl
  exact absurd hempty hthere

/-- Then directories lead to it from the root. -/
theorem Rooted.stands (h : t.Rooted) (hhere : t.get? l ≠ none) : t.Stands l := by
  refine ⟨hhere, ?_⟩
  -- from the last name backwards
  induction l using List.reverseRecOn with
  | nil =>
      intro l' hle hne
      exact absurd (List.prefix_nil.mp hle) hne
  | append_singleton l name ih =>
      have hdir := h l name hhere
      intro l' hle hne
      rcases List.prefix_concat_iff.mp hle with rfl | hle
      · exact absurd rfl hne
      · by_cases heq : l' = l
        · rw [heq, hdir]
        · exact ih (by simp [hdir]) l' hle heq

/-- A node may come to a directory, unless it is a file in the place of a directory. -/
theorem Rooted.insert (h : t.Rooted) {n : Node} (hdir : t.get? l = some .directory)
    (hplain : n = .directory ∨ t.get? (l ++ [name]) ≠ some .directory) :
    (t.insert (l ++ [name]) n).Rooted := by
  have hstays : ∀ l', t.get? l' = some .directory →
      (t.insert (l ++ [name]) n).get? l' = some .directory := by
    intro l' hl'
    rw [get?_insert (by simp)]
    split
    · rename_i heq
      subst heq
      rcases hplain with rfl | hplain
      · rfl
      · exact absurd hl' hplain
    · exact hl'
  intro l' name' hthere
  rw [get?_insert (by simp)] at hthere
  split at hthere
  · rename_i heq
    obtain ⟨rfl, -⟩ := List.append_inj' heq rfl
    exact hstays _ hdir
  · exact hstays _ (h l' name' hthere)

theorem Rooted.eraseTree (h : t.Rooted) (l : Location) : (t.eraseTree l).Rooted := by
  intro l' name hthere
  rw [get?_eraseTree (by simp)] at hthere
  split at hthere
  · exact absurd rfl hthere
  · rename_i hkept
    have hdir := h l' name hthere
    by_cases hnil : l' = []
    · rw [hnil, get?_nil]
    · rw [get?_eraseTree hnil, if_neg]
      · exact hdir
      · -- if the directory were below the location, so would be what is in it
        intro hbelow
        rw [List.isPrefixOf_iff_prefix] at hkept hbelow
        exact hkept (hbelow.trans (List.prefix_append _ _))

end FileTree

namespace Disk

variable {d : Disk}

theorem rooted_enterOrMake {p : FilePath} {l : Location} (hname : name ≠ "..")
    (h : d.tree.Rooted) : EndsIn (enterOrMake p l name) d fun d' => d'.tree.Rooted := by
  simp only [EndsIn, enterOrMake, ends_bind, ends_get]
  cases hstep : d.tree.enter l name with
  | error obstacle => exact h
  | ok next =>
      obtain ⟨hdir, -, rfl⟩ := (FileTree.enter_eq_ok_iff hname).mp hstep
      dsimp only
      cases d.tree.get? (l ++ [name]) with
      | none => exact h.insert hdir (.inl rfl)
      | some node => cases node <;> exact h

theorem rooted_makeDirectories (hdots : ".." ∉ directory) (h : d.tree.Rooted) :
    EndsIn (makeDirectories (.ofLocation directory)) d fun d' => d'.tree.Rooted := by
  have halong : ∀ (p : FilePath) (names : List String) (l : Location) (d : Disk), ".." ∉ names →
      d.tree.Rooted → EndsIn (names.foldlM (enterOrMake p) l) d fun d' => d'.tree.Rooted := by
    intro p names
    induction names with
    | nil => exact fun _ _ _ h => h
    | cons name rest ih =>
        intro l d hdots h
        rw [List.mem_cons, not_or] at hdots
        simp only [EndsIn, List.foldlM_cons, ends_bind]
        refine Ends.mono (rooted_enterOrMake (Ne.symm hdots.1) h) ?_ fun _ _ h => h
        exact fun next d' h => ih next d' hdots.2 h
  simp only [EndsIn, makeDirectories, ends_bind, ends_get, ends_ask, ends_pure]
  refine ⟨fun _ _ => ⟨fun start _ => ?_, fun _ _ => h⟩, fun _ _ => h⟩
  exact halong _ directory start d hdots h

/-- On a disk as it is, a file that does not exist is not listed. -/
theorem get?_of_exists?_false (h : d.tree.Rooted) (hdots : ".." ∉ directory ++ [name])
    (hnameable : Nameable directory name)
    (habsent : d.exists? (.ofLocation (directory ++ [name])) = .ok false) :
    d.tree.get? (directory ++ [name]) = none := by
  by_contra hthere
  exact not_stands_of_exists?_false hdots hnameable habsent (h.stands hthere)

end Disk

end PointElevation
