import PointElevation.Proofs.Disk.Rooted

/-!
# Making directories on any path

The cache directory has a path without dots, but a file may be downloaded to any path.  Two dots
lead back, so directories are made at all locations that the names of the path pass, and these need
not lie above one another.  Still nothing else comes to the disk (`Disk.Made`), and as long as the
path has no dots, or could be followed before, the file at its end is none of the locations passed
(`Made.node?_eq`).

The exception is real: the way to `t/..` passes `t`, which is where `t/../t` leads.
-/

namespace PointElevation

open FilePath (follow)

namespace Disk

/-- What stands where a path leads, if it leads anywhere. -/
def node? (d : Disk) (p : FilePath) : Option Node :=
  match d.locate p with
  | .ok l => d.tree.get? l
  | .error _ => none

/-- The locations that the names of a path pass. -/
def OnWay (d : Disk) (p : FilePath) (l : Location) : Prop :=
  ∃ start passed, d.start p = .ok start ∧ passed ≠ [] ∧ passed <+: p.names ∧
    l = passed.foldl follow start

/-- The second disk is the first with directories made at some of the locations that were free. -/
structure Made (way : Location → Prop) (d d' : Disk) : Prop where
  workDirectory : d'.workDirectory = d.workDirectory
  get? : ∀ l, d'.tree.get? l = d.tree.get? l ∨
    (way l ∧ d.tree.get? l = none ∧ d'.tree.get? l = some .directory)

namespace Made

variable {way way' : Location → Prop} {d d' d'' : Disk}

theorem refl (way : Location → Prop) (d : Disk) : Made way d d := ⟨rfl, fun _ => .inl rfl⟩

theorem mono (h : Made way d d') (hway : ∀ l, way l → way' l) : Made way' d d' :=
  ⟨h.workDirectory, fun l => (h.get? l).imp_right fun hl => ⟨hway l hl.1, hl.2⟩⟩

theorem get?_of_ne_none (h : Made way d d') {l : Location} (hl : d.tree.get? l ≠ none) :
    d'.tree.get? l = d.tree.get? l := by
  rcases h.get? l with hsame | ⟨-, hnone, -⟩
  · exact hsame
  · exact absurd hnone hl

theorem get?_of_not_way (h : Made way d d') {l : Location} (hl : ¬ way l) :
    d'.tree.get? l = d.tree.get? l := by
  rcases h.get? l with hsame | ⟨hway, -⟩
  · exact hsame
  · exact absurd hway hl

theorem directory_stays (h : Made way d d') (l : Location) (hl : d.tree.get? l = some .directory) :
    d'.tree.get? l = some .directory := by
  rw [h.get?_of_ne_none (by simp [hl]), hl]

theorem trans (h : Made way d d') (h' : Made way d' d'') : Made way d d'' := by
  refine ⟨h'.workDirectory.trans h.workDirectory, fun l => ?_⟩
  rcases h.get? l with hsame | ⟨hway, hnone, hdir⟩
  · rcases h'.get? l with hsame' | ⟨hway, hnone, hdir⟩
    · exact .inl (hsame'.trans hsame)
    · exact .inr ⟨hway, hsame ▸ hnone, hdir⟩
  · exact .inr ⟨hway, hnone, h'.directory_stays l hdir⟩

end Made

/-! ## One step and all steps -/

theorem enter_eq_follow {t : FileTree} {l next : Location} {name : String}
    (h : t.enter l name = .ok next) : next = follow l name := by
  have hdir := FileTree.directory_of_enter h
  by_cases hname : name = ".."
  · simp only [FileTree.enter, hdir, hname, if_true] at h
    cases h
    rw [follow, if_pos hname]
  · obtain ⟨-, -, rfl⟩ := (FileTree.enter_eq_ok_iff hname).mp h
    rw [follow, if_neg hname]

theorem made_enterOrMake (p : FilePath) (l : Location) (name : String) (d : Disk) :
    Ends (enterOrMake p l name) d
      (fun next d' => next = follow l name ∧ Made (· = follow l name) d d') fun _ d' => d' = d := by
  simp only [enterOrMake, ends_bind, ends_get]
  cases hstep : d.tree.enter l name with
  | error obstacle => exact rfl
  | ok next =>
      obtain rfl := enter_eq_follow hstep
      dsimp only
      cases hnode : d.tree.get? (follow l name) with
      | none =>
          have hne := FileTree.ne_nil_of_free hnode
          simp only [modifyTree, ends_bind, ends_modify, ends_pure]
          refine ⟨trivial, rfl, fun l' => ?_⟩
          rw [FileTree.get?_insert hne]
          by_cases heq : l' = follow l name
          · rw [if_pos heq, heq]
            exact .inr ⟨rfl, hnode, rfl⟩
          · rw [if_neg heq]
            exact .inl rfl
      | some node =>
          cases node with
          | directory => exact ⟨rfl, .refl _ d⟩
          | file content => exact rfl

theorem made_makeAlong (p : FilePath) (names : List String) (l : Location) (d : Disk) :
    EndsIn (names.foldlM (enterOrMake p) l) d fun d' =>
      Made (fun l' => ∃ passed, passed ≠ [] ∧ passed <+: names ∧ l' = passed.foldl follow l) d
        d' := by
  -- the names still ahead; the location and the disk change with every step
  induction names generalizing l d with
  | nil => exact .refl _ d
  | cons name rest ih =>
      simp only [EndsIn, List.foldlM_cons, ends_bind]
      refine (made_enterOrMake p l name d).mono ?_ ?_
      · rintro next d₁ ⟨rfl, hstep⟩
        have hfirst : ∀ l', l' = follow l name → ∃ passed, passed ≠ [] ∧
            passed <+: name :: rest ∧ l' = passed.foldl follow l :=
          fun l' hl' => ⟨[name], by simp, ⟨rest, rfl⟩, hl'⟩
        have hrest : ∀ l', (∃ passed, passed ≠ [] ∧ passed <+: rest ∧
            l' = passed.foldl follow (follow l name)) → ∃ passed, passed ≠ [] ∧
              passed <+: name :: rest ∧ l' = passed.foldl follow l := by
          rintro l' ⟨passed, -, hinitial, rfl⟩
          exact ⟨name :: passed, by simp, List.cons_prefix_cons.mpr ⟨rfl, hinitial⟩, rfl⟩
        refine Ends.mono (ih (follow l name) d₁) ?_ ?_
        · exact fun _ _ hmade => (hstep.mono hfirst).trans (hmade.mono hrest)
        · exact fun _ _ hmade => (hstep.mono hfirst).trans (hmade.mono hrest)
      · rintro fault d₁ rfl
        exact .refl _ _

/-- Making directories makes nothing else, whatever the path and whether it is refused or not. -/
theorem made_makeDirectories (p : FilePath) (d : Disk) :
    EndsIn (makeDirectories p) d (Made (d.OnWay p) d) := by
  simp only [EndsIn, makeDirectories, ends_bind, ends_get, ends_ask, ends_pure]
  refine ⟨fun _ _ => ⟨fun start hstart => ?_, fun _ _ => .refl _ d⟩, fun _ _ => .refl _ d⟩
  have hway : ∀ l, (∃ passed, passed ≠ [] ∧ passed <+: p.names ∧
      l = passed.foldl follow start) → d.OnWay p l := by
    rintro l ⟨passed, hne, hinitial, rfl⟩
    exact ⟨start, passed, hstart, hne, hinitial, rfl⟩
  refine Ends.mono (made_makeAlong p p.names start d) ?_ ?_
  · exact fun _ _ hmade => hmade.mono hway
  · exact fun _ _ hmade => hmade.mono hway

end Disk

/-! ## What is at the end of the path -/

namespace FileTree

theorem walk_eq_foldl {t : FileTree} {names : List String} {l last : Location}
    (h : t.walk l names = .ok last) : last = names.foldl follow l := by
  induction names generalizing l with
  | nil =>
      rw [walk_nil] at h
      cases h
      rfl
  | cons name rest ih =>
      obtain ⟨next, hstep, hrest⟩ := walk_cons_eq_ok.mp h
      obtain rfl := Disk.enter_eq_follow hstep
      exact ih hrest

theorem foldl_follow_eq_append {names : List String} (hdots : ".." ∉ names) (l : Location) :
    names.foldl follow l = l ++ names := by
  induction names generalizing l with
  | nil => simp
  | cons name rest ih =>
      rw [List.mem_cons, not_or] at hdots
      rw [List.foldl_cons, follow, if_neg (Ne.symm hdots.1), ih hdots.2]
      simp

/-- The way to something that stands can be walked, if some tree lets its names pass. -/
theorem Stands.walk_eq {t t' : FileTree} {names : List String} {l last : Location}
    (h : t.Stands (l ++ names)) (hdots : ".." ∉ names) (hnames : t'.walk l names = .ok last) :
    t.walk l names = .ok (l ++ names) := by
  induction names generalizing l with
  | nil => simp
  | cons name rest ih =>
      rw [List.mem_cons, not_or] at hdots
      obtain ⟨next, hstep, hrest⟩ := walk_cons_eq_ok.mp hnames
      obtain ⟨-, hshort, rfl⟩ := (enter_eq_ok_iff (Ne.symm hdots.1)).mp hstep
      have hdirectory := h.above l (List.prefix_append _ _) (by simp)
      have hnext : t.Stands ((l ++ [name]) ++ rest) := by simpa using h
      have hwalk := ih hnext hdots.2 hrest
      rw [List.append_assoc, List.singleton_append] at hwalk
      refine walk_cons_eq_ok.mpr ⟨l ++ [name], ?_, hwalk⟩
      exact (enter_eq_ok_iff (Ne.symm hdots.1)).mpr ⟨hdirectory, hshort, rfl⟩

end FileTree

namespace Disk

variable {p : FilePath} {d d' : Disk}

theorem start_parent {start : Location} : d.start p.parent = .ok start ↔ d.start p = .ok start := by
  unfold Disk.start
  by_cases hrooted : p.rooted = true
  · rw [if_pos (show p.parent.rooted = true from hrooted), if_pos hrooted]
  · rw [if_neg (show ¬ p.parent.rooted = true from hrooted), if_neg hrooted]
    cases d.workDirectory <;> simp

/-- A path that can be followed passes directories only. -/
theorem directory_of_onWay {l last : Location} (hlocate : d.locate p = .ok last)
    (hway : d.OnWay p.parent l) : d.tree.get? l = some .directory := by
  obtain ⟨start, passed, hstart, hne, hinitial, rfl⟩ := hway
  obtain ⟨-, start', hstart', hwalk⟩ := locate_eq_ok_iff.mp hlocate
  rw [start_parent, hstart'] at hstart
  cases hstart
  -- at least one name is left when the locations on the way have been passed
  obtain ⟨rest, hrest⟩ := hinitial.trans (List.dropLast_prefix p.names)
  have hshorter : passed.length < p.names.length := by
    have hle := hinitial.length_le
    have hpos := List.length_pos_of_ne_nil hne
    simp only [FilePath.parent, List.length_dropLast] at hle
    omega
  rw [← hrest] at hwalk hshorter
  obtain ⟨middle, hmiddle, hlast⟩ := FileTree.walk_append_eq_ok.mp hwalk
  rw [← FileTree.walk_eq_foldl hmiddle]
  cases rest with
  | nil => simp at hshorter
  | cons name rest =>
      obtain ⟨next, hstep, -⟩ := FileTree.walk_cons_eq_ok.mp hlast
      exact FileTree.directory_of_enter hstep

/-- Without dots, what is at the end of a path is not on the way. -/
theorem not_onWay_end (hdots : ".." ∉ p.names) {start : Location} (hstart : d.start p = .ok start) :
    ¬ d.OnWay p.parent (start ++ p.names) := by
  rintro ⟨start', passed, hstart', hne, hinitial, heq⟩
  rw [start_parent, hstart] at hstart'
  cases hstart'
  have hpassed : ".." ∉ passed := fun hmem => hdots
    ((hinitial.trans (List.dropLast_prefix p.names)).subset hmem)
  rw [FileTree.foldl_follow_eq_append hpassed, List.append_cancel_left_eq] at heq
  have hle := hinitial.length_le
  have hpos := List.length_pos_of_ne_nil hne
  rw [← heq] at hpos hle
  simp only [FilePath.parent, List.length_dropLast] at hle
  omega

/-- Making the directories on the way changes nothing about what a path leads to, if it has no dots
or could be followed before. -/
theorem Made.node?_eq (h : Made (d.OnWay p.parent) d d')
    (hpath : (∃ l, d.locate p = .ok l) ∨ (d.tree.Rooted ∧ ".." ∉ p.names)) :
    d'.node? p = d.node? p := by
  cases hlocate : d.locate p with
  | ok l =>
      have hlocate' : d'.locate p = .ok l := locate_mono h.workDirectory h.directory_stays hlocate
      have hsame : d'.tree.get? l = d.tree.get? l := by
        rcases h.get? l with hsame | ⟨hway, hnone, -⟩
        · exact hsame
        · rw [directory_of_onWay hlocate hway] at hnone
          cases hnone
      simp only [node?, hlocate, hlocate', hsame]
  | error fault =>
      rcases hpath with ⟨l, hok⟩ | ⟨hrooted, hdots⟩
      · rw [hlocate] at hok
        cases hok
      · cases hlocate' : d'.locate p with
        | error fault' => simp only [node?, hlocate, hlocate']
        | ok l =>
            simp only [node?, hlocate, hlocate']
            obtain ⟨hcheck, start, hstart, hwalk⟩ := locate_eq_ok_iff.mp hlocate'
            obtain rfl := FileTree.walk_eq_append hdots hwalk
            have hstart' : d.start p = .ok start := by
              simp only [Disk.start, h.workDirectory] at hstart ⊢
              exact hstart
            rw [h.get?_of_not_way (not_onWay_end hdots hstart')]
            -- otherwise there would have been directories all the way, and the path led there
            by_contra hthere
            have hwalk' := (hrooted.stands hthere).walk_eq hdots hwalk
            rw [locate_eq_ok_iff.mpr ⟨hcheck, start, hstart', hwalk'⟩] at hlocate
            cases hlocate

end Disk

end PointElevation
