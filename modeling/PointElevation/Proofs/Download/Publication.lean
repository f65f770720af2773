import PointElevation.Proofs.Disk.Way
import PointElevation.Proofs.Download.Repeat

/-!
# Publishing a file

A download to any path, on any disk, ends in one of two ways.  The file stands under its name and
holds the body of the last reply, whole, or nothing has changed.  The one trace that either way may
leave is directories on the way to the file; the siblings that attempts were written to are gone.

So the target is all or nothing, with one exception: a path that leads back by two dots can pass its
own end, and then the directory that is made on the way is the target
(`fetchFile_through_itself`).
-/

namespace PointElevation

open PointElevation.Downloader (Delivered Undelivered)

/-- What is streamed whole is the body of a response that is no error. -/
theorem Reply.eq_response_of_content {url : String} {r : Reply} {bytes : ByteArray}
    (h : r.content url = .ok bytes) : ∃ status reason pieces,
      r = .response status reason pieces none ∧ bytes = pieces.foldl (· ++ ·) .empty := by
  cases r with
  | failure cause => cases h
  | response status reason pieces cut =>
      simp only [content] at h
      split at h
      · cases h
      · cases cut with
        | some cause => cases h
        | none =>
            cases h
            exact ⟨status, reason, pieces, rfl, rfl⟩

/-! ## Files in their places -/

/-- The second disk is the first with a file put in a place, after directories were made at some of
the locations that were free. -/
structure Disk.Put (way : Location → Prop) (place : Location) (bytes : ByteArray) (d d' : Disk) :
    Prop where
  workDirectory : d'.workDirectory = d.workDirectory
  here : d'.tree.get? place = some (.file bytes)
  elsewhere : ∀ l, l ≠ place → d'.tree.get? l = d.tree.get? l ∨
    (way l ∧ d.tree.get? l = none ∧ d'.tree.get? l = some .directory)

namespace Disk

variable {d d' : Disk} {p : FilePath} {place : Location}

theorem Made.put {way : Location → Prop} (h : Made way d d') (htakes : d'.Takes p place)
    (bytes : ByteArray) :
    Put way place bytes d { d' with tree := d'.tree.insert place (.file bytes) } where
  workDirectory := h.workDirectory
  here := by rw [FileTree.get?_insert htakes.ne_nil, if_pos rfl]
  elsewhere := by
    intro l hl
    rw [FileTree.get?_insert htakes.ne_nil, if_neg hl]
    exact h.get? l

end Disk

namespace Downloader

variable {d : Downloader} {url : String} {target : FilePath} {h h' : Host}

/-- A download that fails has made directories and nothing else. -/
theorem Undelivered.made {failure : Failure}
    (hundelivered : Undelivered d url target h failure h') :
    h.disk.Made (h.disk.OnWay target.parent) h'.disk := by
  have hends := Disk.made_makeDirectories target.parent h.disk
  cases hundelivered with
  | unmade hmake => exact hends.of_error hmake
  | unopened hmake _ => exact hends.of_ok hmake
  | unanswered hmake _ _ => exact hends.of_ok hmake
  | unplaced hmake _ _ _ _ => exact hends.of_ok hmake

theorem Unpublished.made {failure : Failure} (hfail : Unpublished url target h h' failure) :
    h.disk.Made (h.disk.OnWay target.parent) h'.disk := by
  have hends := Disk.made_makeDirectories target.parent h.disk
  cases hfail with
  | reply hmake _ _ _ => exact hends.of_ok hmake
  | refused hrefuses =>
      cases hrefuses with
      | directories hmake => exact hends.of_error hmake
      | sibling hmake _ => exact hends.of_ok hmake
      | place hmake _ _ _ => exact hends.of_ok hmake

/-- While all names are legal, a failure is that of the reply, or it is one of the system. -/
theorem Undelivered.system_or_reply {failure : Failure}
    (hundelivered : Undelivered d url target h failure h')
    (hlegal : target.hasIllegalName = false) : failure.kind = .system ∨
      ∃ n, Decides (fun i => (h.network.reply url i).content url) 2 n ∧
        (h.network.reply url n).content url = .error failure := by
  have hsystem : ∀ {fault : DiskFault}, (fault = .illegalName → target.hasIllegalName = true) →
      (Failure.ofDisk fault).kind = .system := by
    intro fault hillegal
    cases fault with
    | refused obstacle path => rfl
    | illegalName => rw [hillegal rfl] at hlegal; cases hlegal
  cases hundelivered with
  | unmade hmake =>
      refine .inl (hsystem ?_)
      rintro rfl
      exact hasIllegalName_of_parent (Disk.makeDirectories_illegal hmake)
  | unopened _ hcreate =>
      exact .inl (hsystem ((Disk.ends_createTemporary_legal target _).of_error hcreate))
  | unanswered _ hdecides hcontent => exact .inr ⟨_, hdecides, hcontent⟩
  | unplaced _ _ _ _ hillegal => exact .inl (hsystem hillegal)

/-- A download publishes a file atomically, on any disk and whatever the address replies.  If it
succeeds, the target holds the pieces of the last reply, and everything else is as it was.  If it
fails, everything is, and so is the target, unless it is a path with dots that could not be followed
before.  Either way directories may have been made where nothing was on the way to the target.  A
failure of the request or of the system, refusals of the disk included, is a failed download of the
address. -/
theorem fetchFile_publishes (d : Downloader) (url : String) (target : FilePath) (h : Host) :
    Ends (d.fetchFile url target) h
      (fun _ h' => ∃ n place status reason pieces,
        h'.journal.requests =
          h.journal.requests ++ List.replicate (n + 1) ⟨url, true, d.timeout⟩ ∧
        h.network.reply url n = .response status reason pieces none ∧
        h'.disk.read target = .ok (pieces.foldl (· ++ ·) .empty) ∧
        h.disk.Put (h.disk.OnWay target.parent) place (pieces.foldl (· ++ ·) .empty) h'.disk)
      (fun fault h' =>
        h.disk.Made (h.disk.OnWay target.parent) h'.disk ∧
        ((∃ l, h.disk.locate target = .ok l) ∨ (h.disk.tree.Rooted ∧ ".." ∉ target.names) →
          h'.disk.node? target = h.disk.node? target) ∧
        ∃ failure, Undelivered d url target h failure h' ∧
          (target.hasIllegalName = false → failure.kind = .system ∨
            ∃ n, Decides (fun i => (h.network.reply url i).content url) 2 n ∧
              (h.network.reply url n).content url = .error failure) ∧
          fault = if failure.isRequest || failure.kind = .system then
            .failed (.ofRequest url failure) else .ofRaised failure) := by
  refine (ends_fetchFile_delivered d url target h).mono ?_ ?_
  · intro _ h' hdelivered
    cases hdelivered with
    | intro hmake _ hcontent htakes =>
        obtain ⟨status, reason, pieces, hreply, rfl⟩ := Reply.eq_response_of_content hcontent
        have hmade := (Disk.made_makeDirectories target.parent h.disk).of_ok hmake
        exact ⟨_, _, status, reason, pieces, rfl, hreply, htakes.read _, hmade.put htakes _⟩
  · intro fault h' hend
    obtain ⟨failure, rfl, hundelivered⟩ := hend
    refine ⟨hundelivered.made, hundelivered.made.node?_eq, failure, hundelivered,
      hundelivered.system_or_reply, ?_⟩
    rw [FetchFault.ofFailure_eq Failure.not_download_of_orderly]

/-- A body that is cut leaves the file that was there. -/
theorem fetchFile_publishes_cut :
    let h : Host := ⟨⟨⟨[(["t"], .file ⟨#[1]⟩)]⟩, some []⟩,
      ⟨[], [.response 200 "OK" [⟨#[7]⟩] (some ⟨.request, "cut"⟩)]⟩, ∅⟩
    h.disk.tree.Rooted ∧ ".." ∉ ["t"] ∧ ∃ fault h',
      (⟨"client", 10.0⟩ : Downloader).fetchFile "https://a.example/t" ⟨false, ["t"]⟩ h =
          .error fault h' ∧
        h'.disk.node? ⟨false, ["t"]⟩ = some (.file ⟨#[1]⟩) := by
  intro h
  have hrooted : ((∅ : FileTree).insert ([] ++ ["t"]) (.file ⟨#[1]⟩)).Rooted :=
    FileTree.rooted_empty.insert rfl (.inr nofun)
  refine ⟨hrooted, by decide, ?_⟩
  have hends := fetchFile_publishes ⟨"client", 10.0⟩ "https://a.example/t" ⟨false, ["t"]⟩ h
  cases hrun : (⟨"client", 10.0⟩ : Downloader).fetchFile "https://a.example/t" ⟨false, ["t"]⟩ h with
  | ok _ h' =>
      cases hrun
  | error fault h' =>
      obtain ⟨-, hnode, -⟩ := hends.of_error hrun
      exact ⟨fault, h', rfl, (hnode (.inr ⟨hrooted, by decide⟩)).trans rfl⟩

/-- The way to a file may pass its own place: a download that fails for want of a route leaves a
directory where nothing was. -/
theorem fetchFile_through_itself :
    let h : Host := ⟨⟨∅, some []⟩, ⟨[], []⟩, ∅⟩
    h.disk.node? ⟨false, ["t", "..", "t"]⟩ = none ∧ ∃ fault h',
      (⟨"client", 10.0⟩ : Downloader).fetchFile "https://a.example/t" ⟨false, ["t", "..", "t"]⟩ h =
          .error fault h' ∧
        h'.disk.node? ⟨false, ["t", "..", "t"]⟩ = some .directory :=
  ⟨rfl, _, _, rfl, rfl⟩

end Downloader

end PointElevation
