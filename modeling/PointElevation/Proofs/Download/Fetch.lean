import PointElevation.Proofs.Download.Attempt

/-!
# Downloads as a whole

A download is the attempt that decides it: the attempts before that one failed for transient
reasons, and a failed attempt leaves the disk as it was (`Retried.runs`).  So a text that is
fetched is a function of the network (`Network.text`), and a file that is fetched is the whole body
of one reply (`Published`), or else the disk has at most more directories (`Unpublished`).
-/

namespace PointElevation

/-- The host after a pause. -/
def Host.paused (h : Host) (seconds : Float) : Host :=
  { h with journal := { h.journal with pauses := h.journal.pauses ++ [seconds] } }

/-- An operation that starts in the first host and fails for transient reasons is tried again in
the second one. -/
inductive Retried {α : Type} (operation : HostM Failure α) : Host → Host → Prop
  | first (h : Host) : Retried operation h h
  | again {h h' last : Host} {failure : Failure} {seconds : Float} :
      operation h = .error failure h' → failure.isTransient = true →
        Retried operation (h'.paused seconds) last → Retried operation h last

/-- Repeated attempts end as the last of them does. -/
theorem Downloader.ends_retrying {α : Type} (operation : HostM Failure α) (pauses : List Float)
    (h : Host) :
    Ends (retrying operation pauses) h
      (fun a h' => ∃ last, Retried operation h last ∧ operation last = .ok a h')
      (fun failure h' =>
        ∃ last, Retried operation h last ∧ operation last = .error failure h') := by
  -- a pause is left for every further attempt, which starts where the one before has ended
  induction pauses generalizing h with
  | nil =>
      refine (ends_self operation h).mono (fun _ _ hrun => ?_) fun _ _ hrun => ?_
      · exact ⟨h, .first h, hrun⟩
      · exact ⟨h, .first h, hrun⟩
  | cons seconds rest ih =>
      simp only [retrying, ends_tryCatch]
      refine (ends_self operation h).mono (fun _ _ hrun => ⟨h, .first h, hrun⟩) ?_
      intro failure h' hrun
      split
      · rename_i htransient
        simp only [Host.pause, ends_bind, Host.ends_record]
        refine (ih (h'.paused seconds)).mono ?_ ?_
        · intro a end_ hend
          obtain ⟨last, hretried, hlast⟩ := hend
          exact ⟨last, .again hrun htransient hretried, hlast⟩
        · intro a end_ hend
          obtain ⟨last, hretried, hlast⟩ := hend
          exact ⟨last, .again hrun htransient hretried, hlast⟩
      · exact ⟨h, .first h, hrun⟩

/-- Where failures leave the disk alone, an operation is tried again on the same disk. -/
theorem Retried.runs {α : Type} {operation : HostM Failure α}
    (hfail : ∀ h failure h', operation h = .error failure h' → h.Runs h' ∧ h'.disk = h.disk)
    {h last : Host} (hretried : Retried operation h last) : h.Runs last ∧ last.disk = h.disk := by
  -- over the failed attempts before the last one
  induction hretried with
  | first h => exact ⟨.refl h, rfl⟩
  | again hrun _ _ ih =>
      obtain ⟨hruns, hdisk⟩ := hfail _ _ _ hrun
      exact ⟨(hruns.trans (.of_eq rfl rfl)).trans ih.1, ih.2.trans hdisk⟩

/-! ## Texts -/

/-- The text at an address, when up to so many further requests are made for transient failures. -/
def Network.textWithin (n : Network) (url : String) : Nat → Except Failure String
  | 0 => (n.next url).1.text url
  | further + 1 =>
      match (n.next url).1.text url with
      | .ok text => .ok text
      | .error fault =>
          if fault.isTransient then (n.next url).2.textWithin url further else .error fault

/-- The text that a downloader gets at an address. -/
def Network.text (n : Network) (url : String) : Except Failure String :=
  n.textWithin url Downloader.pauses.length

/-- The address fails to give its body. -/
inductive Reply.Fails (url : String) : Reply → Prop
  | refused (cause : Failure) : Fails url (.failure cause)
  | status {status : Nat} {reason : String} {pieces : List ByteArray} {cut : Option Failure} :
      statusFailure? url status reason ≠ none → Fails url (.response status reason pieces cut)
  | cut (status : Nat) (reason : String) (pieces : List ByteArray) (cause : Failure) :
      Fails url (.response status reason pieces (some cause))

/-- What does not fail is a whole body. -/
theorem Reply.fails_or_whole (url : String) (r : Reply) :
    r.Fails url ∨ ∃ status reason pieces, r = .response status reason pieces none ∧
      statusFailure? url status reason = none := by
  cases r with
  | failure cause => exact .inl (.refused cause)
  | response status reason pieces cut =>
      cases cut with
      | some cause => exact .inl (.cut status reason pieces cause)
      | none =>
          by_cases hstatus : statusFailure? url status reason = none
          · exact .inr ⟨status, reason, pieces, rfl, hstatus⟩
          · exact .inl (.status hstatus)

theorem Reply.fails_of_text {url : String} {r : Reply} {fault : Failure}
    (h : r.text url = .error fault) : r.Fails url := by
  rcases r.fails_or_whole url with hfails | ⟨status, reason, pieces, rfl, hstatus⟩
  · exact hfails
  · simp only [text, hstatus] at h
    cases h

theorem Reply.fails_of_content {url : String} {r : Reply} {fault : Failure}
    (h : r.content url = .error fault) : r.Fails url := by
  rcases r.fails_or_whole url with hfails | ⟨status, reason, pieces, rfl, hstatus⟩
  · exact hfails
  · simp only [content, hstatus] at h
    cases h

/-- An address was asked for a text, until there was an answer that stayed. -/
structure Asked (url : String) (answer : Except Failure String) (h h' : Host) : Prop where
  text : h.network.text url = answer
  runs : h.Runs h'
  disk : h'.disk = h.disk
  reply : ∃ reply, (url, reply) ∈ h.exchanges h' ∧ reply.text url = answer

namespace Downloader

theorem ends_retrying_textAttempt (d : Downloader) (url : String) (pauses : List Float) (h : Host) :
    Ends (retrying (d.textAttempt url) pauses) h
      (fun text h' => h.network.textWithin url pauses.length = .ok text ∧ h.Runs h' ∧
        h'.disk = h.disk ∧ ∃ reply, (url, reply) ∈ h.exchanges h' ∧ reply.text url = .ok text)
      (fun failure h' => h.network.textWithin url pauses.length = .error failure ∧ h.Runs h' ∧
        h'.disk = h.disk ∧ ∃ reply, (url, reply) ∈ h.exchanges h' ∧
          reply.text url = .error failure) := by
  have hsent := Host.Runs.sent h ⟨url, false, d.timeout⟩
  have hmem : (url, (h.network.next url).1) ∈ h.exchanges (h.sent ⟨url, false, d.timeout⟩) := by
    simp [Host.Runs.exchanges_sent]
  induction pauses generalizing h with
  | nil =>
      rw [retrying, ends_textAttempt, List.length_nil, Network.textWithin]
      cases htext : (h.network.next url).1.text url with
      | ok text => exact ⟨rfl, hsent, rfl, _, hmem, htext⟩
      | error failure => exact ⟨rfl, hsent, rfl, _, hmem, htext⟩
  | cons seconds rest ih =>
      rw [retrying, ends_tryCatch, ends_textAttempt, List.length_cons, Network.textWithin]
      cases htext : (h.network.next url).1.text url with
      | ok text => exact ⟨rfl, hsent, rfl, _, hmem, htext⟩
      | error failure =>
          dsimp only
          by_cases htransient : failure.isTransient = true
          · -- the next attempt starts with the network that this one has left
            rw [if_pos htransient, if_pos htransient]
            simp only [Host.pause, ends_bind, Host.ends_record]
            have hpaused : h.Runs ((h.sent ⟨url, false, d.timeout⟩).paused seconds) :=
              hsent.trans (.of_eq rfl rfl)
            refine (ih ((h.sent ⟨url, false, d.timeout⟩).paused seconds) (.sent _ _) ?_).mono ?_ ?_
            · simp [Host.Runs.exchanges_sent]
            · intro text h' hend
              obtain ⟨hnext, hruns, hdisk, reply, hreply, hlast⟩ := hend
              exact ⟨hnext, hpaused.trans hruns, hdisk, reply,
                hpaused.mem_exchanges_of_right hruns hreply, hlast⟩
            · intro fault h' hend
              obtain ⟨hnext, hruns, hdisk, reply, hreply, hlast⟩ := hend
              exact ⟨hnext, hpaused.trans hruns, hdisk, reply,
                hpaused.mem_exchanges_of_right hruns hreply, hlast⟩
          · rw [if_neg htransient, if_neg htransient]
            exact ⟨rfl, hsent, rfl, _, hmem, htext⟩

/-- A text is fetched without touching the disk, and it is the network's. -/
theorem ends_fetchText (d : Downloader) (url : String) (h : Host) :
    Ends (d.fetchText url) h (fun text h' => Asked url (.ok text) h h')
      (fun fault h' => ∃ failure, fault = .ofFailure url failure.isRequest failure ∧
        Asked url (.error failure) h h') := by
  simp only [fetchText, Host.ends_recast]
  refine (ends_retrying_textAttempt d url pauses h).mono ?_ ?_
  · intro text h' hend
    obtain ⟨htext, hruns, hdisk, hreply⟩ := hend
    exact ⟨htext, hruns, hdisk, hreply⟩
  · intro failure h' hend
    obtain ⟨htext, hruns, hdisk, hreply⟩ := hend
    exact ⟨failure, rfl, htext, hruns, hdisk, hreply⟩

/-! ## Files -/

/-- A body came to its target, whole, after the directories on the way had been made. -/
structure Published (url : String) (target : FilePath) (h h' : Host) where
  disk : Disk
  place : Location
  bytes : ByteArray
  reply : Reply
  runs : h.Runs h'
  directories : Disk.makeDirectories target.parent h.disk = .ok () disk
  takes : disk.Takes target place
  disk_eq : h'.disk = { disk with tree := disk.tree.insert place (.file bytes) }
  asked : (url, reply) ∈ h.exchanges h'
  content : reply.content url = .ok bytes

/-- A body came to nothing but possibly to directories, and how it failed: the disk refused the
file, or one of the replies was the failure. -/
inductive Unpublished (url : String) (target : FilePath) (h h' : Host) : Failure → Prop
  | refused {fault : DiskFault} :
      Disk.Refuses target h.disk h'.disk fault → Unpublished url target h h' (.ofDisk fault)
  | reply {reply : Reply} {failure : Failure} {l : Location} {filled : Disk} :
      Disk.makeDirectories target.parent h.disk = .ok () h'.disk →
        Disk.createTemporary target h'.disk = .ok l filled →
          (url, reply) ∈ h.exchanges h' → reply.content url = .error failure →
            Unpublished url target h h' failure

/-- An attempt that failed has left everything as it was, but for a request. -/
theorem runs_of_fileAttempt_error {d : Downloader} {url : String} {target : FilePath}
    (h : Host) (failure : Failure) (h' : Host)
    (hrun : d.fileAttempt url target h = .error failure h') : h.Runs h' ∧ h'.disk = h.disk := by
  rcases (ends_fileAttempt d url target h).of_error hrun with ⟨events, rfl, -⟩ | ⟨events, rfl, -⟩
  · exact ⟨.of_eq rfl rfl, rfl⟩
  · exact ⟨(Host.Runs.sent h ⟨url, true, d.timeout⟩).trans (.of_eq rfl rfl), rfl⟩

theorem ends_retrying_fileAttempt (d : Downloader) (url : String) (target : FilePath)
    (pauses : List Float) (h : Host) :
    Ends (retrying (d.fileAttempt url target) pauses) h
      (fun _ h' => h.Runs h' ∧ ∃ bytes place reply, h.disk.Takes target place ∧
        h'.disk = { h.disk with tree := h.disk.tree.insert place (.file bytes) } ∧
          (url, reply) ∈ h.exchanges h' ∧ reply.content url = .ok bytes)
      (fun failure h' => h.Runs h' ∧ h'.disk = h.disk ∧
        ((∃ fault, failure = .ofDisk fault ∧
            Disk.createTemporary target h.disk = .error fault h.disk) ∨
          ∃ l filled, Disk.createTemporary target h.disk = .ok l filled ∧
            ((∃ reply, (url, reply) ∈ h.exchanges h' ∧ reply.content url = .error failure) ∨
              ∃ fault, failure = .ofDisk fault ∧ (∀ l, ¬ h.disk.Takes target l) ∧
                (fault = .illegalName → target.hasIllegalName = true)))) := by
  -- what the journal says about files has nothing to do with the request
  have hsent : ∀ (last : Host) (events : List FileEvent),
      last.Runs ((last.sent ⟨url, true, d.timeout⟩).filed events) :=
    fun last events => (Host.Runs.sent last _).trans (.of_eq rfl rfl)
  have hmem : ∀ (last : Host) (events : List FileEvent), (url, (last.network.next url).1) ∈
      last.exchanges ((last.sent ⟨url, true, d.timeout⟩).filed events) := by
    intro last events
    simp [Host.exchanges, Host.filed, Host.sent, Network.exchanges]
  refine (ends_retrying (d.fileAttempt url target) pauses h).mono ?_ ?_
  · intro _ h' hend
    obtain ⟨last, hretried, hlast⟩ := hend
    -- the attempt that decides starts on the disk that was there at first
    obtain ⟨hruns, hdisk⟩ := hretried.runs runs_of_fileAttempt_error
    obtain ⟨bytes, place, events, hcontent, htakes, rfl⟩ :=
      (ends_fileAttempt d url target last).of_ok hlast
    rw [hdisk] at htakes
    exact ⟨hruns.trans (hsent last events), bytes, place, _, htakes, by rw [← hdisk]; rfl,
      hruns.mem_exchanges_of_right (hsent last events) (hmem last events), hcontent⟩
  · intro failure h' hend
    obtain ⟨last, hretried, hlast⟩ := hend
    obtain ⟨hruns, hdisk⟩ := hretried.runs runs_of_fileAttempt_error
    rcases (ends_fileAttempt d url target last).of_error hlast with
      ⟨events, rfl, fault, hfault, hcreate⟩ | ⟨events, rfl, ⟨l, filled, hcreate⟩, hreply⟩
    · rw [hdisk] at hcreate
      exact ⟨hruns.trans (.of_eq rfl rfl), hdisk, .inl ⟨fault, hfault, hcreate⟩⟩
    · have hlast := hsent last events
      rw [hdisk] at hcreate
      refine ⟨hruns.trans hlast, hdisk, .inr ⟨l, filled, hcreate, ?_⟩⟩
      rcases hreply with hcontent | ⟨-, fault, -, hfault, hnone, hillegal⟩
      · exact .inl ⟨_, hruns.mem_exchanges_of_right hlast (hmem last events), hcontent⟩
      · rw [hdisk] at hnone
        exact .inr ⟨fault, hfault, hnone, hillegal⟩

/-- A file is published whole or not at all. -/
theorem ends_fetchFile (d : Downloader) (url : String) (target : FilePath) (h : Host) :
    Ends (d.fetchFile url target) h
      (fun _ h' => Nonempty (Published url target h h'))
      (fun fault h' => h.Runs h' ∧ ∃ failure,
        fault = .ofFailure url (failure.isRequest || failure.kind = .system) failure ∧
          Unpublished url target h h' failure) := by
  -- the directories are made once, before the first attempt
  simp only [fetchFile, ends_bind, Host.ends_recast, Host.ends_say]
  refine Host.ends_onFiles.mpr
    ((ends_self (Disk.makeDirectories target.parent) h.disk).mono ?_ ?_)
  · intro _ disk hmake
    let made : Host := { h with disk := disk }.filed [⟨.makeDirectories target.parent, h.disk⟩]
    have hmade : h.Runs made := .of_eq rfl rfl
    refine (ends_retrying_fileAttempt d url target pauses made).mono ?_ ?_
    · intro _ h' hend
      obtain ⟨hruns, bytes, place, reply, htakes, hdisk, hreply, hcontent⟩ := hend
      have hnote : h'.Runs (h'.note .info ("Downloaded " ++ url ++ " -> " ++ toString target)) :=
        .of_eq rfl rfl
      refine ⟨?_⟩
      exact
        { disk, place, bytes, reply
          runs := hmade.trans (hruns.trans hnote)
          directories := hmake
          takes := htakes
          disk_eq := hdisk
          asked := hmade.mem_exchanges_of_right (hruns.trans hnote)
            (hruns.mem_exchanges_of_left hnote hreply)
          content := hcontent }
    · intro failure h' hend
      obtain ⟨hruns, hdisk, hreason⟩ := hend
      refine ⟨hmade.trans hruns, failure, rfl, ?_⟩
      have hmake' : Disk.makeDirectories target.parent h.disk = .ok () h'.disk := by
        rw [hdisk]
        exact hmake
      rcases hreason with ⟨fault, rfl, hcreate⟩ | ⟨l, filled, hcreate, hreply⟩
      · exact .refused (.sibling hmake' (by rw [hdisk]; exact hcreate))
      · have hcreate' : Disk.createTemporary target h'.disk = .ok l filled := by
          rw [hdisk]
          exact hcreate
        rcases hreply with ⟨reply, hreply, hcontent⟩ | ⟨fault, rfl, hnone, hillegal⟩
        · exact .reply hmake' hcreate' (hmade.mem_exchanges_of_right hruns hreply) hcontent
        · exact .refused (.place hmake' hcreate' (by rw [hdisk]; exact hnone) hillegal)
  · intro fault disk hmake
    exact ⟨.of_eq rfl rfl, _, rfl, .refused (.directories hmake)⟩

end Downloader

/-! ## What becomes of the directory -/

section Place

variable {directory : Location} {name url : String} {h h' : Host}

/-- What has been published can be read. -/
theorem Downloader.Published.read {target : FilePath} (publication : Published url target h h') :
    h'.disk.read target = .ok publication.bytes := by
  rw [publication.disk_eq]
  exact publication.takes.read publication.bytes

theorem Downloader.Published.gained {target : FilePath} (publication : Published url target h h')
    (htarget : target = .ofLocation (directory ++ [name])) (hdots : ".." ∉ directory ++ [name]) :
    Disk.Gained directory name publication.bytes h.disk h'.disk := by
  subst htarget
  have hdirectory : ".." ∉ directory := fun hmem => hdots (List.mem_append_left _ hmem)
  obtain ⟨hlocate, hplain⟩ := publication.takes
  obtain ⟨hplace, hnameable, hreach⟩ := (locate_place_eq_ok_iff hdots).mp hlocate
  have hmake := publication.directories
  rw [parent_ofLocation] at hmake
  have hgrown := (Disk.ends_makeDirectories hdirectory h.disk).of_ok hmake
  rw [hplace] at hplain
  rw [publication.disk_eq, hplace]
  exact hgrown.gained hreach hnameable hplain _

theorem Downloader.Unpublished.grown {failure : Failure}
    (hfail : Unpublished url (.ofLocation (directory ++ [name])) h h' failure)
    (hdots : ".." ∉ directory) : Disk.Grown directory h.disk h'.disk := by
  have hends := Disk.ends_makeDirectories hdots h.disk
  rw [← parent_ofLocation directory name] at hends
  -- wherever it failed, making the directories is all that has changed the disk
  cases hfail with
  | refused hrefuses =>
      cases hrefuses with
      | directories hmake => exact hends.of_error hmake
      | sibling hmake _ => exact hends.of_ok hmake
      | place hmake _ _ _ => exact hends.of_ok hmake
  | reply hmake _ _ _ => exact hends.of_ok hmake

end Place

end PointElevation
