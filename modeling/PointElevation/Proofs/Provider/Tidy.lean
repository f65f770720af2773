import PointElevation.Proofs.Download.Account
import PointElevation.Proofs.Provider.Stages

/-!
# Tidy operations

An operation is tidy in a directory if all that the journal says it does to files stays there
(`FileEvent.Within`) and is careful: it touches nothing that exists, publishes nothing twice, and
leaves what it has published.  Both go through everything by which operations are put together,
since what comes later cannot touch what is there by then.

The download of a file that does not exist is tidy (`tidy_fetchFile`), and this is where carefulness
comes from: the sibling takes a free name, and nothing stands in the place of the target.
-/

namespace PointElevation

open Host
open PointElevation.Downloader (Published Unpublished)

variable {ε ε' σ τ α β : Type} {directory : Location} {d d' d'' : Disk}
  {events more : List FileEvent}

namespace FileEvent

/-- A location that an event may touch if it is to stay in a directory: it is that of a file there,
or a directory is made there on the way. -/
inductive StaysIn (directory : Location) (e : FileEvent) : Location → Prop
  | file {name : String} : IsFileName name → StaysIn directory e (directory ++ [name])
  | way {l : Location} : l <+: directory → e.before.tree.get? l = none →
      e.after.tree.get? l = some .directory → StaysIn directory e l

/-- The names under which files are published: that of the listing, and those of tiles. -/
inductive Publishable : String → Prop
  | mappings : Publishable mappingsName
  | tile {url : String} {key : TileKey} : keyOfUrl? url = some key → Publishable (fileName url)

/-- All that is touched stays in a directory, and what is published is the listing or a tile
there. -/
structure Within (directory : Location) (e : FileEvent) : Prop where
  touches : ∀ l, e.Touches l → e.StaysIn directory l
  published : ∀ l, e.published? = some l → ∃ name, Publishable name ∧ l = directory ++ [name]

theorem Publishable.isFileName {name : String} (h : Publishable name) : IsFileName name := by
  cases h with
  | mappings => exact isFileName_mappings
  | tile hkey => exact isFileName_fileName hkey

theorem Publishable.slash_notMem {name : String} (h : Publishable name) : '/' ∉ name.toList := by
  cases h with
  | mappings => decide
  | tile _ => exact slash_notMem_fileName _

/-- The places in which files were put, in order. -/
def publications (events : List FileEvent) : List Location := events.filterMap published?

/-- Events between two disks touch nothing that existed, and what they have published was put in
a place where nothing stood, once, and is still there. -/
structure Careful (d : Disk) (events : List FileEvent) (d' : Disk) : Prop where
  stays : ∀ l, d.tree.Stands l → d'.tree.get? l = d.tree.get? l
  touches : ∀ e ∈ events, ∀ l, e.Touches l → ¬ d.tree.Stands l
  published : ∀ l ∈ publications events, ¬ d.tree.Stands l ∧ d'.tree.Stands l
  once : (publications events).Nodup

theorem publications_append (events more : List FileEvent) :
    publications (events ++ more) = publications events ++ publications more :=
  List.filterMap_append

theorem careful_nil (d : Disk) : Careful d [] d where
  stays := fun _ _ => rfl
  touches := fun _ he => absurd he List.not_mem_nil
  published := fun _ hl => absurd hl List.not_mem_nil
  once := List.nodup_nil

theorem Careful.append (h : Careful d events d') (h' : Careful d' more d'') :
    Careful d (events ++ more) d'' := by
  -- what stood at first stands in the middle, and so does what was published before
  have hstands : ∀ l, d.tree.Stands l → d'.tree.Stands l := fun l hl => hl.mono h.stays
  constructor
  · intro l hl
    rw [h'.stays l (hstands l hl), h.stays l hl]
  · intro e he l hl
    rcases List.mem_append.mp he with he | he
    · exact h.touches e he l hl
    · exact fun hthere => h'.touches e he l hl (hstands l hthere)
  · intro l hl
    rw [publications_append] at hl
    rcases List.mem_append.mp hl with hl | hl
    · obtain ⟨hbefore, hafter⟩ := h.published l hl
      exact ⟨hbefore, hafter.mono h'.stays⟩
    · obtain ⟨hbefore, hafter⟩ := h'.published l hl
      exact ⟨fun hthere => hbefore (hstands l hthere), hafter⟩
  · rw [publications_append]
    refine List.nodup_append.mpr ⟨h.once, h'.once, ?_⟩
    rintro l hl _ hl' rfl
    exact (h'.published l hl').1 (h.published l hl).2

end FileEvent

open FileEvent

/-- What was done to files between two hosts stays in a directory and is careful. -/
def Host.Kempt (directory : Location) (h h' : Host) : Prop :=
  ∃ events, h.Work events h' ∧ (∀ e ∈ events, e.Within directory) ∧ Careful h.disk events h'.disk

namespace Host.Kempt

variable {h h' h'' : Host}

theorem of_idle (hidle : h.Work [] h') : h.Kempt directory h' := by
  refine ⟨[], hidle, fun _ he => absurd he List.not_mem_nil, ?_⟩
  rw [hidle.disk_eq]
  exact careful_nil _

theorem trans (hkempt : h.Kempt directory h') (hkempt' : h'.Kempt directory h'') :
    h.Kempt directory h'' := by
  obtain ⟨events, hwork, hwithin, hcareful⟩ := hkempt
  obtain ⟨more, hwork', hwithin', hcareful'⟩ := hkempt'
  refine ⟨events ++ more, hwork.trans hwork', fun e he => ?_, hcareful.append hcareful'⟩
  rcases List.mem_append.mp he with he | he
  · exact hwithin e he
  · exact hwithin' e he

end Host.Kempt

/-- What an operation does to files stays in a directory and is careful. -/
def Tidy (directory : Location) (host : σ → Host) (operation : EStateM ε σ α) (s : σ) : Prop :=
  EndsIn operation s fun s' => (host s).Kempt directory (host s')

/-- An operation does nothing to files. -/
def Quiet (host : σ → Host) (operation : EStateM ε σ α) (s : σ) : Prop :=
  EndsIn operation s fun s' => (host s).Work [] (host s')

namespace Quiet

variable {host : σ → Host} {s : σ}

theorem pure (a : α) (s : σ) : Quiet host (pure a : EStateM ε σ α) s := .refl _

theorem throw (fault : ε) (s : σ) : Quiet host (throw fault : EStateM ε σ α) s := .refl _

theorem get (s : σ) : Quiet host (get : EStateM ε σ σ) s := .refl _

theorem modify {change : σ → σ} (hdisk : (host (change s)).disk = (host s).disk)
    (hfiles : (host (change s)).journal.files = (host s).journal.files) :
    Quiet host (modify change : EStateM ε σ PUnit) s := .idle hdisk hfiles

theorem say (level : Level) (text : String) (h : Host) :
    Quiet id (Host.say level text : HostM ε Unit) h := .modify rfl rfl

theorem askDisk (question : Disk → Except DiskFault α) (h : Host) :
    Quiet id (Host.askDisk question) h :=
  Host.ends_askDisk.mpr ⟨fun _ _ => .refl h, fun _ _ => .refl h⟩

theorem bind {first : EStateM ε σ β} {next : β → EStateM ε σ α} (hfirst : Quiet host first s)
    (hnext : ∀ b s', first s = .ok b s' → Quiet host (next b) s') :
    Quiet host (first >>= next) s := by
  refine ends_bind.mpr ((Ends.and hfirst (ends_self first s)).mono ?_ fun _ _ hend => hend.1)
  rintro b s' ⟨hwork, hrun⟩
  exact Ends.mono (hnext b s' hrun) (fun _ _ => hwork.trans) fun _ _ => hwork.trans

theorem recast {operation : EStateM ε σ α} (h : Quiet host operation s) (f : ε → ε') :
    Quiet host (Host.recast f operation) s := ends_recast.mpr h

theorem onPart {inner : τ → Host} {operation : EStateM ε τ α} {part : σ → τ} {update : σ → τ → σ}
    (h : Quiet inner operation (part s)) (hpart : inner (part s) = host s)
    (hupdate : ∀ t, host (update s t) = inner t) :
    Quiet host (Host.onPart part update operation) s := by
  refine ends_onPart.mpr (Ends.mono h (fun _ t hwork => ?_) fun _ t hwork => ?_)
  · rw [hupdate, ← hpart]
    exact hwork
  · rw [hupdate, ← hpart]
    exact hwork

end Quiet

namespace Tidy

variable {host : σ → Host} {s : σ}

theorem of_quiet {operation : EStateM ε σ α} (h : Quiet host operation s) :
    Tidy directory host operation s :=
  Ends.mono h (fun _ _ => .of_idle) fun _ _ => .of_idle

theorem bind {first : EStateM ε σ β} {next : β → EStateM ε σ α}
    (hfirst : Tidy directory host first s)
    (hnext : ∀ b s', first s = .ok b s' → Tidy directory host (next b) s') :
    Tidy directory host (first >>= next) s := by
  refine ends_bind.mpr ((Ends.and hfirst (ends_self first s)).mono ?_ fun _ _ hend => hend.1)
  rintro b s' ⟨hkempt, hrun⟩
  exact Ends.mono (hnext b s' hrun) (fun _ _ => hkempt.trans) fun _ _ => hkempt.trans

theorem recast {operation : EStateM ε σ α} (h : Tidy directory host operation s) (f : ε → ε') :
    Tidy directory host (Host.recast f operation) s := ends_recast.mpr h

theorem outcome {operation : EStateM ε σ α} (h : Tidy directory host operation s) :
    Tidy directory host (Host.outcome operation : EStateM ε' σ (Except ε α)) s :=
  ends_outcome.mpr h

theorem onPart {inner : τ → Host} {operation : EStateM ε τ α} {part : σ → τ} {update : σ → τ → σ}
    (h : Tidy directory inner operation (part s)) (hpart : inner (part s) = host s)
    (hupdate : ∀ t, host (update s t) = inner t) :
    Tidy directory host (Host.onPart part update operation) s := by
  refine ends_onPart.mpr (Ends.mono h (fun _ t hkempt => ?_) fun _ t hkempt => ?_)
  · rw [hupdate, ← hpart]
    exact hkempt
  · rw [hupdate, ← hpart]
    exact hkempt

theorem mapM {operation : β → EStateM ε σ α} {invariant : σ → Prop}
    (hstep : ∀ b s, invariant s →
      Tidy directory host (operation b) s ∧ EndsIn (operation b) s invariant)
    (bs : List β) (hs : invariant s) : Tidy directory host (bs.mapM operation) s := by
  induction bs generalizing s with
  | nil => exact .of_quiet (.pure _ _)
  | cons b rest ih =>
      rw [List.mapM_cons]
      obtain ⟨htidy, hkept⟩ := hstep b s hs
      refine htidy.bind fun a s' hrun => ?_
      exact (ih (hkept.of_ok hrun)).bind fun _ _ _ => .of_quiet (.pure _ _)

end Tidy

/-! ## Making directories -/

theorem grown_makeDirectories (hdots : ".." ∉ directory) (d : Disk) :
    Disk.Grown directory d (⟨.makeDirectories (.ofLocation directory), d⟩ : FileEvent).after :=
  after_of_endsIn (e := ⟨.makeDirectories (.ofLocation directory), d⟩)
    (Disk.ends_makeDirectories hdots d)

/-- What is touched where directories are made is what is made. -/
theorem changes_of_touches_makeDirectories {p : FilePath} {l : Location}
    (h : Touches ⟨.makeDirectories p, d⟩ l) : Changes ⟨.makeDirectories p, d⟩ l := by
  rcases h with hchanges | hhandled
  · exact hchanges
  · exact absurd hhandled List.not_mem_nil

/-- Making directories stays in their directory and publishes nothing. -/
theorem within_makeDirectories (hdots : ".." ∉ directory) (d : Disk) :
    (⟨.makeDirectories (.ofLocation directory), d⟩ : FileEvent).Within directory where
  published := fun _ hl => by cases hl
  touches := fun l hl => by
    rcases (grown_makeDirectories hdots d).get? l with hsame | ⟨hle, hnone, hdirectory⟩
    · exact absurd hsame (changes_of_touches_makeDirectories hl)
    · exact .way hle hnone hdirectory

theorem careful_makeDirectories (hdots : ".." ∉ directory) (d : Disk) :
    Careful d [⟨.makeDirectories (.ofLocation directory), d⟩]
      (⟨.makeDirectories (.ofLocation directory), d⟩ : FileEvent).after where
  stays := fun l hl => (grown_makeDirectories hdots d).get?_of_ne_none hl.here
  touches := fun e he l hl => by
    obtain rfl := List.mem_singleton.mp he
    rcases (grown_makeDirectories hdots d).get? l with hsame | ⟨-, hnone, -⟩
    · exact absurd hsame (changes_of_touches_makeDirectories hl)
    · exact fun hstands => hstands.here hnone
  published := fun _ hl => absurd hl List.not_mem_nil
  once := List.nodup_nil

/-! ## Attempts -/

section Attempts

variable {name : String}

theorem Tried.within (h : Tried directory d events) : ∀ e ∈ events, e.Within directory := by
  intro e he
  refine ⟨fun l hl => ?_, fun l hl => ?_⟩
  · obtain ⟨-, name, hname, rfl⟩ := (h e he).2 l hl
    exact .file hname
  · rw [(h e he).1] at hl
    cases hl

theorem Tried.publications_eq (h : Tried directory d events) : publications events = [] :=
  List.filterMap_eq_nil_iff.mpr fun e he => (h e he).1

theorem Tried.careful (h : Tried directory d events) : Careful d events d where
  stays := fun _ _ => rfl
  touches := fun e he l hl hstands => hstands.here ((h e he).2 l hl).1
  published := fun l hl => by
    rw [h.publications_eq] at hl
    cases hl
  once := by
    rw [h.publications_eq]
    exact List.nodup_nil

theorem Wrote.within (h : Wrote directory name d events) (hname : Publishable name) :
    ∀ e ∈ events, e.Within directory := by
  obtain ⟨before, last, rfl, htried, hpublished, htouches⟩ := h
  intro e he
  rcases List.mem_append.mp he with he | he
  · exact htried.within e he
  · obtain rfl := List.mem_singleton.mp he
    refine ⟨fun l hl => ?_, fun l hl => ?_⟩
    · rcases htouches l hl with rfl | ⟨-, name', hname', rfl⟩
      · exact .file hname.isFileName
      · exact .file hname'
    · rw [hpublished] at hl
      cases hl
      exact ⟨name, hname, rfl⟩

/-- Writing a file is careful where nothing stood before the directories were made. -/
theorem Wrote.careful {made : FileEvent} (h : Wrote directory name made.after events)
    (hgrown : Disk.Grown directory made.before made.after)
    (hmade : Careful made.before [made] made.after) (hunpublished : made.published? = none)
    (hfree : ¬ made.before.tree.Stands (directory ++ [name]))
    (hthere : d'.tree.Stands (directory ++ [name])) {bytes : ByteArray}
    (hd' : d'.tree = made.after.tree.insert (directory ++ [name]) (.file bytes)) :
    Careful made.before (made :: events) d' := by
  obtain ⟨before, last, rfl, htried, hpublished, htouches⟩ := h
  have hpublications : publications (made :: (before ++ [last])) = [directory ++ [name]] := by
    have hbefore : publications before = [] := htried.publications_eq
    simp only [publications, List.filterMap_cons, hunpublished, List.filterMap_append] at hbefore ⊢
    simp [hbefore, hpublished]
  -- a place that is free once the directories are there was free before
  have hplace : ∀ l, made.after.FreePlace directory l → ¬ made.before.tree.Stands l := by
    rintro l ⟨hnone, -⟩ hstands
    rw [hgrown.get?_of_ne_none hstands.here] at hnone
    exact hstands.here hnone
  constructor
  · intro l hl
    have hne : l ≠ directory ++ [name] := by
      rintro rfl
      exact hfree hl
    rw [hd', FileTree.get?_insert (by simp), if_neg hne, hgrown.get?_of_ne_none hl.here]
  · intro e he l hl
    rcases List.mem_cons.mp he with rfl | he
    · exact hmade.touches e List.mem_cons_self l hl
    · rcases List.mem_append.mp he with he | he
      · exact hplace l ((htried e he).2 l hl)
      · obtain rfl := List.mem_singleton.mp he
        rcases htouches l hl with rfl | hl
        · exact hfree
        · exact hplace l hl
  · intro l hl
    rw [hpublications, List.mem_singleton] at hl
    subst hl
    exact ⟨hfree, hthere⟩
  · rw [hpublications]
    exact List.nodup_singleton _

end Attempts

/-! ## Downloads -/

section Downloads

variable {name url : String} {h h' : Host}

/-- The directories of a download that fails are all that stays of it. -/
theorem after_of_unpublished {failure : Failure}
    (hfail : Unpublished url (.ofLocation (directory ++ [name])) h h' failure) :
    h'.disk = (⟨.makeDirectories (.ofLocation directory), h.disk⟩ : FileEvent).after := by
  have hparent := parent_ofLocation directory name
  cases hfail with
  | refused hrefuses =>
      cases hrefuses with
      | directories hmake => exact (after_of_error (hparent ▸ hmake)).symm
      | sibling hmake _ => exact (after_of_ok (hparent ▸ hmake)).symm
      | place hmake _ _ _ => exact (after_of_ok (hparent ▸ hmake)).symm
  | reply hmake _ _ _ => exact (after_of_ok (hparent ▸ hmake)).symm

/-- The directories of a download that succeeds are there when the file comes. -/
theorem after_of_published
    (publication : Published url (.ofLocation (directory ++ [name])) h h') :
    publication.disk = (⟨.makeDirectories (.ofLocation directory), h.disk⟩ : FileEvent).after := by
  have hmake := publication.directories
  rw [parent_ofLocation] at hmake
  exact (after_of_ok (e := ⟨.makeDirectories (.ofLocation directory), h.disk⟩) hmake).symm

/-- A file that does not exist is fetched tidily. -/
theorem tidy_fetchFile (downloader : Downloader) (hdots : ".." ∉ directory)
    (hname : Publishable name)
    (habsent : h.disk.exists? (.ofLocation (directory ++ [name])) = .ok false) :
    Tidy directory id (downloader.fetchFile url (.ofLocation (directory ++ [name]))) h := by
  have hfile := dots_notMem_append hdots hname.isFileName
  have hgrown := grown_makeDirectories hdots h.disk
  have hmade := within_makeDirectories hdots h.disk
  refine ((downloader.ends_fetchFile url _ h).and
    (downloader.work_fetchFile url hfile hname.slash_notMem h)).mono ?_ ?_
  · rintro _ h' ⟨⟨publication⟩, attempts, hwork, hwrote⟩
    -- a file could come to the place, so nothing but its name can have kept it from existing
    obtain ⟨hplace, hnameable, -⟩ := (locate_place_eq_ok_iff hfile).mp publication.takes.1
    have hfree := Disk.not_stands_of_exists?_false hfile hnameable habsent
    have hgained := publication.gained rfl hfile
    have hthere : h'.disk.tree.Stands (directory ++ [name]) :=
      hgained.reaches.stands hdots (by simp [hgained.here])
    have hcomes := publication.disk_eq
    rw [hplace, after_of_published publication] at hcomes
    refine ⟨_, hwork, List.forall_mem_cons.mpr ⟨hmade, hwrote.within hname⟩, ?_⟩
    exact hwrote.careful hgrown (careful_makeDirectories hdots h.disk) rfl hfree hthere
      (congrArg Disk.tree hcomes)
  · rintro fault h' ⟨⟨-, failure, -, hfail⟩, attempts, hwork, htried⟩
    refine ⟨_, hwork, List.forall_mem_cons.mpr ⟨hmade, htried.within⟩, ?_⟩
    change Careful h.disk _ h'.disk
    rw [after_of_unpublished hfail]
    exact (careful_makeDirectories hdots h.disk).append htried.careful

end Downloads

end PointElevation
