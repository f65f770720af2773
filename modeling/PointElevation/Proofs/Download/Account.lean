import PointElevation.Proofs.Disk.Standing
import PointElevation.Proofs.Download.Fetch
import PointElevation.Proofs.Host.FileEvents

/-!
# What a download does to files

A download makes directories, and then each of its attempts works on a sibling of its own that takes
a free name.  An attempt that fails has touched nothing else (`Tried`); the one that succeeds ends
by moving its sibling to the target (`Wrote`).  So what the journal says of a download is that
directories were made, any number of siblings tried, and at most one file published, which came
last.
-/

namespace PointElevation

open Host

/-! ## Events at one location -/

namespace FileEvent

/-- Nothing but one location is touched, and no file is put in its place. -/
structure Confined (l : Location) (e : FileEvent) : Prop where
  touches : ∀ l', e.Touches l' → l' = l
  unpublished : e.published? = none

/-- An operation that handles one file, and leaves all other places as they were. -/
theorem confined_of_endsIn {e : FileEvent} {l : Location}
    (hends : EndsIn e.operation.run e.before fun d =>
      ∀ l', l' = l ∨ d.tree.get? l' = e.before.tree.get? l')
    (hhandled : e.handled = [l]) (hunpublished : e.published? = none) : e.Confined l := by
  refine ⟨fun l' htouches => ?_, hunpublished⟩
  rcases htouches with hchanges | hl'
  · exact of_changes hends hchanges
  · rw [hhandled] at hl'
    exact List.mem_singleton.mp hl'

theorem confined_append {l : Location} (hl : l ≠ []) (bytes : ByteArray) (d : Disk) :
    Confined l ⟨.append l bytes, d⟩ := by
  have hends : EndsIn (Disk.append l bytes) d fun d' =>
      ∀ l', l' = l ∨ d'.tree.get? l' = d.tree.get? l' := by
    simp only [EndsIn, Disk.append, Disk.modifyTree, ends_modify]
    intro l'
    by_cases heq : l' = l
    · exact .inl heq
    · right
      cases d.tree.get? l with
      | none => rfl
      | some node =>
          cases node with
          | file content => rw [FileTree.get?_insert hl, if_neg heq]
          | directory => rfl
  exact confined_of_endsIn hends rfl rfl

theorem confined_remove {l : Location} (hl : l ≠ []) (d : Disk) : Confined l ⟨.remove l, d⟩ := by
  have hends : EndsIn (Disk.remove l) d fun d' =>
      ∀ l', l' = l ∨ d'.tree.get? l' = d.tree.get? l' := by
    simp only [EndsIn, Disk.remove, Disk.modifyTree, ends_modify]
    intro l'
    by_cases heq : l' = l
    · exact .inl heq
    · exact .inr (by rw [FileTree.get?_erase hl, if_neg heq])
  exact confined_of_endsIn hends rfl rfl

/-- The sibling is the only thing that comes. -/
theorem confined_createTemporary {p : FilePath} {d d' : Disk} {l : Location}
    (hcreate : Disk.createTemporary p d = .ok l d') : Confined l ⟨.createTemporary p, d⟩ := by
  have hends : EndsIn (Disk.createTemporary p) d fun d' =>
      ∀ l', l' = l ∨ d'.tree.get? l' = d.tree.get? l' := by
    refine ((Disk.ends_createTemporary p d).and (ends_self _ d)).mono ?_ ?_
    · rintro l₁ d₁ ⟨⟨hfree, rfl⟩, hrun⟩ l'
      obtain rfl : l = l₁ := by
        rw [hcreate] at hrun
        cases hrun
        rfl
      by_cases heq : l' = l
      · exact .inl heq
      · exact .inr (by rw [FileTree.get?_insert (FileTree.ne_nil_of_free hfree), if_neg heq])
    · rintro fault d₁ ⟨rfl, -⟩ l'
      exact .inr rfl
  have hhandled : handled ⟨.createTemporary p, d⟩ = [l] := by
    simp only [handled, hcreate]
  exact confined_of_endsIn hends hhandled rfl

/-- What is refused touches nothing. -/
theorem not_touches_createTemporary {p : FilePath} {d d' : Disk} {fault : DiskFault}
    (hcreate : Disk.createTemporary p d = .error fault d') (l : Location) :
    ¬ Touches ⟨.createTemporary p, d⟩ l := by
  obtain rfl := (Disk.ends_createTemporary p d).of_error hcreate
  simp [Touches, Changes, handled, after, FileOperation.run, hcreate]

section Replace

variable {t : FileTree} {l : Location} {bytes : ByteArray} {d d' : Disk} {p : FilePath}

/-- Moving a sibling to its target touches these two locations, and publishes the target. -/
theorem touches_replace (hfree : t.get? l = none) (hplace : d.tree = t.insert l (.file bytes))
    (hreplace : Disk.replace l p d = .ok () d') : ∃ target,
      Disk.Takes { d with tree := t } p target ∧
        published? ⟨.replace l p, d⟩ = some target ∧
          ∀ l', Touches ⟨.replace l p, d⟩ l' → l' = l ∨ l' = target := by
  obtain ⟨target, htakes, rfl⟩ := (Disk.ends_replace hfree p bytes hplace).of_ok hreplace
  have hlocate : d.locate p = .ok target := by
    refine (locate_eq_ok_congr ?_ fun l' => ?_).mp htakes.1
    · rfl
    · rw [hplace]
      exact (FileTree.directory_insert_file_iff hfree).symm
  have htarget : target ≠ [] := by
    rintro rfl
    exact htakes.2 rfl
  have hpublished : published? ⟨.replace l p, d⟩ = some target := by
    simp [published?, hreplace, hlocate, Except.toOption]
  refine ⟨target, htakes, hpublished, fun l' htouches => ?_⟩
  rcases htouches with hchanges | hhandled
  · by_contra hne
    rw [not_or] at hne
    refine hchanges ?_
    simp only [after, FileOperation.run, hreplace, hplace]
    rw [FileTree.get?_insert htarget, if_neg hne.2,
      FileTree.get?_insert (FileTree.ne_nil_of_free hfree), if_neg hne.1]
  · simpa [handled, hpublished] using hhandled

theorem confined_replace_error (hfree : t.get? l = none)
    (hplace : d.tree = t.insert l (.file bytes)) {fault : DiskFault}
    (hreplace : Disk.replace l p d = .error fault d') : Confined l ⟨.replace l p, d⟩ := by
  obtain ⟨rfl, -⟩ := (Disk.ends_replace hfree p bytes hplace).of_error hreplace
  have hunpublished : published? ⟨.replace l p, d'⟩ = none := by
    simp only [published?, hreplace]
  refine ⟨fun l' htouches => ?_, hunpublished⟩
  rcases htouches with hchanges | hhandled
  · refine absurd ?_ hchanges
    simp only [after, FileOperation.run, hreplace]
  · simpa [handled, hunpublished] using hhandled

end Replace

end FileEvent

/-! ## Attempts -/

section Attempts

variable {directory : Location} {name : String} {disk : Disk} {events more : List FileEvent}

/-- A place for a file of the directory, where nothing stands. -/
def Disk.FreePlace (d : Disk) (directory : Location) (l : Location) : Prop :=
  d.tree.get? l = none ∧ ∃ name, IsFileName name ∧ l = directory ++ [name]

/-- Nothing was touched but free places in a directory, and nothing was published. -/
def Tried (directory : Location) (d : Disk) (events : List FileEvent) : Prop :=
  ∀ e ∈ events, e.published? = none ∧ ∀ l, e.Touches l → d.FreePlace directory l

/-- A file was published in a directory, which came last; before that nothing was touched but free
places. -/
def Wrote (directory : Location) (name : String) (d : Disk) (events : List FileEvent) : Prop :=
  ∃ before last, events = before ++ [last] ∧ Tried directory d before ∧
    last.published? = some (directory ++ [name]) ∧
      ∀ l, last.Touches l → l = directory ++ [name] ∨ d.FreePlace directory l

theorem tried_nil : Tried directory disk [] := fun _ he => absurd he List.not_mem_nil

theorem Tried.append (h : Tried directory disk events) (h' : Tried directory disk more) :
    Tried directory disk (events ++ more) := by
  intro e he
  rcases List.mem_append.mp he with he | he
  · exact h e he
  · exact h' e he

theorem Tried.of_confined {l : Location} (hl : disk.FreePlace directory l)
    (h : ∀ e ∈ events, e.Confined l) : Tried directory disk events := by
  intro e he
  refine ⟨(h e he).unpublished, fun l' hl' => ?_⟩
  obtain rfl := (h e he).touches l' hl'
  exact hl

theorem Tried.append_wrote (h : Tried directory disk events)
    (h' : Wrote directory name disk more) : Wrote directory name disk (events ++ more) := by
  obtain ⟨before, last, rfl, hbefore, hlast⟩ := h'
  exact ⟨events ++ before, last, by rw [List.append_assoc], h.append hbefore, hlast⟩

end Attempts

namespace Downloader

variable (d : Downloader) (url : String)

theorem allWork_appendAll {l : Location} (hl : l ≠ []) (pieces : List ByteArray) (h : Host) :
    EndsIn (pieces.forM fun piece => onFiles (.append l piece)) h (AllWork (·.Confined l) h) := by
  induction pieces generalizing h with
  | nil => exact .idle rfl rfl
  | cons piece rest ih =>
      have hconfined := FileEvent.confined_append hl piece h.disk
      refine ends_bind.mpr ?_
      refine ends_onFiles_of_work (fun _ h' _ hwork _ => ?_) fun _ h' _ hwork _ => ?_
      · have hrest := AllWork.single hwork hconfined
        exact Ends.mono (ih h') (fun _ _ => hrest.trans) fun _ _ => hrest.trans
      · exact .single hwork hconfined

/-- All that is done while a body comes in is done to the file that takes it. -/
theorem allWork_receive {l : Location} (hl : l ≠ []) (h : Host) :
    EndsIn (d.receive url l) h (AllWork (·.Confined l) h) := by
  simp only [receive, EndsIn, ends_bind, ends_send]
  -- the request does nothing to files, and its reply decides whether there is anything to take in
  have hsent : AllWork (·.Confined l) h (h.sent ⟨url, true, d.timeout⟩) := .idle rfl rfl
  cases (h.network.next url).1 with
  | failure cause => exact hsent
  | response status reason pieces cut =>
      dsimp only
      cases statusFailure? url status reason with
      | some failure => exact hsent
      | none =>
          refine ends_bind.mpr (Ends.mono (allWork_appendAll hl pieces _) ?_ ?_)
          · intro _ h' hwork
            cases cut with
            | some cause => exact hsent.trans hwork
            | none => exact hsent.trans hwork
          · exact fun _ _ => hsent.trans

/-- A sibling is filled and moved to its target, which comes last, or nothing but the sibling has
been touched. -/
theorem work_fillAndMove {t : FileTree} {l : Location} (hfree : t.get? l = none) {h : Host}
    (hplace : h.disk.tree = t.insert l (.file .empty)) (target : FilePath) :
    let body := do
      d.receive url l
      onFiles (.replace l target)
    Ends body h
      (fun _ h' => ∃ before last place, h.Work (before ++ [last]) h' ∧
        (∀ e ∈ before, e.Confined l) ∧ Disk.Takes { h.disk with tree := t } target place ∧
          last.published? = some place ∧ ∀ l', last.Touches l' → l' = l ∨ l' = place)
      (fun _ h' => AllWork (·.Confined l) h h') := by
  intro body
  have hl := FileTree.ne_nil_of_free hfree
  refine ends_bind.mpr (((ends_receive hl hplace).and (allWork_receive d url hl h)).mono ?_ ?_)
  · rintro _ h₁ ⟨⟨bytes, noted, -, rfl⟩, events, hwork, hevents⟩
    -- the sibling is full now, and nothing else has changed
    refine ends_onFiles_of_work (fun _ h' hreplace hlast _ => ?_) fun _ h' hreplace hlast _ => ?_
    · obtain ⟨place, htakes, hpublished, htouches⟩ :=
        FileEvent.touches_replace (t := t) hfree rfl hreplace
      exact ⟨events, _, place, hwork.trans hlast, hevents, htakes, hpublished, htouches⟩
    · have hconfined := FileEvent.confined_replace_error (t := t) hfree rfl hreplace
      exact AllWork.trans ⟨events, hwork, hevents⟩ (.single hlast hconfined)
  · exact fun _ h' hend => hend.2

variable {directory : Location} {name : String}

/-- The sibling has a free place in the directory of the target. -/
theorem freePlace_of_createTemporary (hdots : ".." ∉ directory) (hslash : '/' ∉ name.toList)
    {disk disk' : Disk} {l : Location}
    (hcreate : Disk.createTemporary (.ofLocation (directory ++ [name])) disk = .ok l disk') :
    disk.FreePlace directory l := by
  have hends : Ends (Disk.createTemporary (.ofLocation (directory ++ [name]))) disk
      (fun l _ => disk.FreePlace directory l) fun _ _ => True := by
    simp only [Disk.createTemporary, parent_ofLocation, name_ofLocation, ends_bind, Disk.ends_ask,
      ends_get]
    refine ⟨fun _ _ => ⟨fun l' hlocate => ?_, fun _ _ => trivial⟩, fun _ _ => trivial⟩
    obtain ⟨-, root, hstart, hwalk⟩ := locate_eq_ok_iff.mp hlocate
    obtain rfl : [] = root := by simpa [Disk.start, FilePath.ofLocation] using hstart
    obtain rfl : l' = directory := FileTree.walk_eq_append hdots hwalk
    cases disk.tree.enter l' (temporaryName name 0) with
    | error obstacle => trivial
    | ok next =>
        dsimp only
        cases hfresh : disk.tree.freshSibling? l' name with
        | none => trivial
        | some l =>
            obtain ⟨hfree, n, rfl⟩ := Disk.get?_freshSibling hfresh
            exact ⟨hfree, _, isFileName_temporaryName hslash n, rfl⟩
  exact hends.of_ok hcreate

/-- A sibling is moved to its target, or it is removed. -/
theorem work_moveOrRemove (hdots : ".." ∉ directory ++ [name]) {t : FileTree} {l : Location}
    {h : Host} (hplace : Disk.FreePlace { h.disk with tree := t } directory l)
    (hcreated : h.disk.tree = t.insert l (.file .empty)) :
    let body : HostM Failure Unit :=
      tryCatch
        (do
          d.receive url l
          onFiles (.replace l (.ofLocation (directory ++ [name]))))
        fun failure => do
          onFiles (.remove l)
          throw failure
    Ends body h
      (fun _ h' => ∃ events, h.Work events h' ∧
        Wrote directory name { h.disk with tree := t } events)
      (fun _ h' => ∃ events, h.Work events h' ∧
        Tried directory { h.disk with tree := t } events) := by
  intro body
  have hl := FileTree.ne_nil_of_free hplace.1
  refine ends_tryCatch.mpr
    ((work_fillAndMove d url hplace.1 hcreated (.ofLocation (directory ++ [name]))).mono ?_ ?_)
  · rintro _ h' ⟨before, last, place, hwork, hbefore, htakes, hpublished, htouches⟩
    obtain ⟨rfl, -⟩ := (locate_place_eq_ok_iff hdots).mp htakes.1
    refine ⟨_, hwork, before, last, rfl, .of_confined hplace hbefore, hpublished, fun l' hl' => ?_⟩
    rcases htouches l' hl' with rfl | rfl
    · exact .inr hplace
    · exact .inl rfl
  · intro failure h₁ hconfined
    -- the sibling goes, which is one thing more that is done to it
    have hremove := FileEvent.confined_remove hl h₁.disk
    refine ends_bind.mpr (ends_onFiles_of_work (fun _ h' _ hwork _ => ?_) fun _ h' _ hwork _ => ?_)
    · obtain ⟨events, hall, hevents⟩ := hconfined.trans (.single hwork hremove)
      exact ⟨events, hall, .of_confined hplace hevents⟩
    · obtain ⟨events, hall, hevents⟩ := hconfined.trans (.single hwork hremove)
      exact ⟨events, hall, .of_confined hplace hevents⟩

theorem work_fileAttempt (hdots : ".." ∉ directory ++ [name]) (hslash : '/' ∉ name.toList)
    (h : Host) :
    Ends (d.fileAttempt url (.ofLocation (directory ++ [name]))) h
      (fun _ h' => ∃ events, h.Work events h' ∧ Wrote directory name h.disk events)
      (fun _ h' => ∃ events, h.Work events h' ∧ Tried directory h.disk events) := by
  have hdirectory : ".." ∉ directory := fun hmem => hdots (List.mem_append_left _ hmem)
  refine ends_bind.mpr (ends_onFiles_of_work (fun l h₁ hcreate hwork _ => ?_)
    fun _ h₁ hcreate hwork _ => ?_)
  · have hplace : h.disk.FreePlace directory l :=
      freePlace_of_createTemporary hdirectory hslash hcreate
    have hcreated : Tried directory h.disk
        [⟨.createTemporary (.ofLocation (directory ++ [name])), h.disk⟩] := by
      refine .of_confined hplace fun e he => ?_
      rw [List.mem_singleton.mp he]
      exact FileEvent.confined_createTemporary hcreate
    -- apart from the sibling the disk is still the same
    obtain ⟨-, hdisk⟩ := (Disk.ends_createTemporary _ h.disk).of_ok hcreate
    have hrest : { h₁.disk with tree := h.disk.tree } = h.disk := by rw [hdisk]
    have hends := work_moveOrRemove d url hdots (h := h₁) (t := h.disk.tree) (hrest ▸ hplace)
      (by rw [hdisk])
    rw [hrest] at hends
    refine hends.mono ?_ ?_
    · rintro _ h' ⟨events, hmore, hwrote⟩
      exact ⟨_, hwork.trans hmore, hcreated.append_wrote hwrote⟩
    · rintro _ h' ⟨events, hmore, htried⟩
      exact ⟨_, hwork.trans hmore, hcreated.append htried⟩
  · refine ⟨_, hwork, fun e he => ?_⟩
    rw [List.mem_singleton.mp he]
    exact ⟨rfl, fun l hl => absurd hl (FileEvent.not_touches_createTemporary hcreate l)⟩

/-! ## Downloads -/

/-- Attempts that failed have tried siblings; the one that succeeds comes last. -/
theorem work_retrying_fileAttempt (hdots : ".." ∉ directory ++ [name]) (hslash : '/' ∉ name.toList)
    (pauses : List Float) (h : Host) :
    Ends (retrying (d.fileAttempt url (.ofLocation (directory ++ [name]))) pauses) h
      (fun _ h' => ∃ events, h.Work events h' ∧ Wrote directory name h.disk events)
      (fun _ h' => ∃ events, h.Work events h' ∧ Tried directory h.disk events) := by
  have hfirst := work_fileAttempt d url hdots hslash h
  induction pauses generalizing h with
  | nil => exact hfirst
  | cons seconds rest ih =>
      refine ends_tryCatch.mpr ((hfirst.and (ends_self _ h)).mono (fun _ _ hend => hend.1) ?_)
      rintro failure h₁ ⟨⟨events, hwork, htried⟩, hrun⟩
      by_cases htransient : failure.isTransient = true
      · rw [if_pos htransient]
        -- a failure leaves the disk alone, so the next attempt starts where this one did
        have hdisk : (h₁.paused seconds).disk = h.disk :=
          (runs_of_fileAttempt_error h failure h₁ hrun).2
        have hpaused : h.Work (events ++ []) (h₁.paused seconds) := hwork.trans (.idle rfl rfl)
        rw [List.append_nil] at hpaused
        have hends := ih (h₁.paused seconds) (work_fileAttempt d url hdots hslash _)
        rw [hdisk] at hends
        refine ends_bind.mpr (ends_record.mpr (hends.mono ?_ ?_))
        · rintro _ h' ⟨more, hmore, hwrote⟩
          exact ⟨_, hpaused.trans hmore, htried.append_wrote hwrote⟩
        · rintro _ h' ⟨more, hmore, htried'⟩
          exact ⟨_, hpaused.trans hmore, htried.append htried'⟩
      · rw [if_neg htransient]
        exact ⟨events, hwork, htried⟩

/-- A file is fetched by making directories and then by attempts. -/
theorem work_fetchFile (hdots : ".." ∉ directory ++ [name]) (hslash : '/' ∉ name.toList)
    (h : Host) :
    let made : FileEvent := ⟨.makeDirectories (.ofLocation directory), h.disk⟩
    Ends (d.fetchFile url (.ofLocation (directory ++ [name]))) h
      (fun _ h' => ∃ attempts, h.Work (made :: attempts) h' ∧
        Wrote directory name made.after attempts)
      (fun _ h' => ∃ attempts, h.Work (made :: attempts) h' ∧
        Tried directory made.after attempts) := by
  intro made
  have hparent : (⟨.makeDirectories (FilePath.ofLocation (directory ++ [name])).parent, h.disk⟩ :
      FileEvent) = made := by rw [parent_ofLocation]
  simp only [fetchFile, ends_bind, ends_recast, ends_say]
  refine ends_onFiles_of_work (fun _ h₁ hmake hwork _ => ?_) fun _ h₁ _ hwork _ => ?_
  · -- the attempts start on the disk that the directories have been made on
    have hdisk : h₁.disk = made.after := hparent ▸ (FileEvent.after_of_ok hmake).symm
    rw [hparent] at hwork
    have hends := work_retrying_fileAttempt d url hdots hslash pauses h₁
    rw [hdisk] at hends
    refine hends.mono ?_ ?_
    · rintro _ h' ⟨attempts, hmore, hwrote⟩
      have hnoted := (hwork.trans hmore).trans (.idle rfl rfl :
        h'.Work [] (h'.note .info ("Downloaded " ++ url ++ " -> " ++
          toString (FilePath.ofLocation (directory ++ [name])))))
      rw [List.append_nil] at hnoted
      exact ⟨attempts, hnoted, hwrote⟩
    · rintro _ h' ⟨attempts, hmore, htried⟩
      exact ⟨attempts, hwork.trans hmore, htried⟩
  · exact ⟨[], hparent ▸ hwork, tried_nil⟩

theorem accounted_receive (l : Location) : Accounted (d.receive url l) := by
  refine (Accounted.send _).bind fun reply => ?_
  cases reply with
  | failure cause => exact .throw cause
  | response status reason pieces cut =>
      dsimp only
      cases statusFailure? url status reason with
      | some failure => exact .throw failure
      | none =>
          refine (Accounted.forM (fun piece => .onFiles _) pieces).bind fun _ => ?_
          cases cut with
          | some cause => exact .throw cause
          | none => exact .pure _

theorem accounted_fileAttempt (target : FilePath) : Accounted (d.fileAttempt url target) := by
  refine (Accounted.onFiles _).bind fun temporary => .tryCatch ?_ fun failure => ?_
  · exact (accounted_receive d url temporary).bind fun _ => .onFiles _
  · exact (Accounted.onFiles _).bind fun _ => .throw failure

theorem accounted_retrying {α : Type} {operation : HostM Failure α} (h : Accounted operation)
    (pauses : List Float) : Accounted (retrying operation pauses) := by
  induction pauses with
  | nil => exact h
  | cons seconds rest ih =>
      refine .tryCatch h fun failure => ?_
      split
      · exact (Accounted.pause seconds).bind fun _ => ih
      · exact .throw failure

/-- Whatever the target, the journal keeps all that a download does to files. -/
theorem accounted_fetchFile (target : FilePath) : Accounted (d.fetchFile url target) := by
  refine (Accounted.recast ?_ _).bind fun _ => .say _ _
  have hattempt := accounted_fileAttempt d url target
  exact (Accounted.onFiles _).bind fun _ => accounted_retrying hattempt _

theorem work_retrying_textAttempt (pauses : List Float) (h : Host) :
    EndsIn (retrying (d.textAttempt url) pauses) h (h.Work []) := by
  have hsent : h.Work [] (h.sent ⟨url, false, d.timeout⟩) := .idle rfl rfl
  induction pauses generalizing h with
  | nil =>
      rw [EndsIn, retrying, ends_textAttempt]
      cases (h.network.next url).1.text url <;> exact hsent
  | cons seconds rest ih =>
      rw [EndsIn, retrying, ends_tryCatch, ends_textAttempt]
      cases (h.network.next url).1.text url with
      | ok text => exact hsent
      | error failure =>
          dsimp only
          by_cases htransient : failure.isTransient = true
          · rw [if_pos htransient]
            have hpaused : h.Work [] ((h.sent ⟨url, false, d.timeout⟩).paused seconds) :=
              .idle rfl rfl
            refine ends_bind.mpr (ends_record.mpr (Ends.mono (ih _ (.idle rfl rfl)) ?_ ?_))
            · exact fun _ _ => hpaused.trans
            · exact fun _ _ => hpaused.trans
          · rw [if_neg htransient]
            exact hsent

/-- A text is fetched without any file. -/
theorem work_fetchText (h : Host) : EndsIn (d.fetchText url) h (h.Work []) :=
  ends_recast.mpr (work_retrying_textAttempt d url pauses h)

end Downloader

end PointElevation
