import PointElevation.Download
import PointElevation.Proofs.Disk.Room
import PointElevation.Proofs.Host.Exchange

/-!
# One attempt

An attempt makes one request, and what it comes to is a function of the reply: `Reply.text` for a
body that is taken as a whole, `Reply.content` for one that is streamed into a file.

The attempt to fetch a file is all or nothing (`ends_fileAttempt`).  The temporary sibling takes a
free name, so while it is filled the tree is the old one with one entry more; a failure erases that
entry, and success moves it.  Either way what stays is stated as an equation of hosts.
-/

namespace PointElevation

/-! ## What a reply comes to -/

namespace Reply

/-- The text of a body that is taken as a whole; a failure that cuts it comes before its status. -/
def text (url : String) : Reply → Except Failure String
  | .failure cause => .error cause
  | .response _ _ _ (some cut) => .error cut
  | .response status reason pieces none =>
      match statusFailure? url status reason with
      | some fault => .error fault
      | none => .ok (Text.decodeUtf8 (pieces.foldl (· ++ ·) .empty))

/-- The bytes of a body that is streamed; its status comes before a failure that cuts it. -/
def content (url : String) : Reply → Except Failure ByteArray
  | .failure cause => .error cause
  | .response status reason pieces cut =>
      match statusFailure? url status reason with
      | some fault => .error fault
      | none =>
          match cut with
          | some cause => .error cause
          | none => .ok (pieces.foldl (· ++ ·) .empty)

end Reply

/-- The host with another tree of files. -/
def Host.withTree (h : Host) (t : FileTree) : Host := { h with disk := { h.disk with tree := t } }

namespace Downloader

variable {d : Downloader} {url : String} {h : Host}

theorem ends_textAttempt {good : String → Host → Prop} {bad : Failure → Host → Prop} :
    Ends (d.textAttempt url) h good bad ↔
      match (h.network.next url).1.text url with
      | .ok text => good text (h.sent ⟨url, false, d.timeout⟩)
      | .error failure => bad failure (h.sent ⟨url, false, d.timeout⟩) := by
  simp only [textAttempt, ends_bind, Host.ends_send]
  cases (h.network.next url).1 with
  | failure cause => rfl
  | response status reason pieces cut =>
      cases cut with
      | some cause => rfl
      | none =>
          simp only [Reply.text]
          cases statusFailure? url status reason <;> rfl

/-! ## Filling the sibling -/

/-- Pieces that are appended to a file follow one another in it. -/
theorem ends_appendAll {t : FileTree} {l : Location} (hl : l ≠ []) (pieces : List ByteArray)
    (before : ByteArray) (h : Host) {bad : Failure → Host → Prop} :
    Ends (pieces.forM fun piece => Host.onFiles (.append l piece))
      (h.withTree (t.insert l (.file before)))
      (fun _ h' => ∃ events, h' =
        (h.withTree (t.insert l (.file (pieces.foldl (· ++ ·) before)))).filed events) bad := by
  -- the pieces that are still to come; the file holds those before them
  induction pieces generalizing before h with
  | nil => exact ⟨[], (Host.filed_nil _).symm⟩
  | cons piece rest ih =>
      have hget : (t.insert l (.file before)).get? l = some (.file before) := by
        rw [FileTree.get?_insert hl, if_pos rfl]
      refine ends_bind.mpr (Host.ends_onFiles.mpr ?_)
      simp only [FileOperation.run, Disk.append, Disk.modifyTree, ends_modify, Host.withTree, hget,
        FileTree.insert_insert]
      let noted : FileEvent :=
        ⟨.append l piece, { h.disk with tree := t.insert l (.file before) }⟩
      refine (ih (before ++ piece) (h.filed [noted])).mono ?_ fun _ _ hbad => hbad
      rintro _ h' ⟨events, rfl⟩
      exact ⟨noted :: events, by simp [Host.filed, Host.withTree]⟩

theorem ends_receive {t : FileTree} {l : Location} (hl : l ≠ [])
    (hplace : h.disk.tree = t.insert l (.file .empty)) :
    Ends (d.receive url l) h
      (fun _ h' => ∃ bytes events, (h.network.next url).1.content url = .ok bytes ∧
        h' = ((h.sent ⟨url, true, d.timeout⟩).withTree (t.insert l (.file bytes))).filed events)
      (fun failure h' => (h.network.next url).1.content url = .error failure ∧ ∃ bytes events, h' =
        ((h.sent ⟨url, true, d.timeout⟩).withTree (t.insert l (.file bytes))).filed events) := by
  -- before the first piece the sibling is there and empty
  have hself : (h.sent ⟨url, true, d.timeout⟩) =
      (h.sent ⟨url, true, d.timeout⟩).withTree (t.insert l (.file .empty)) := by
    rw [← hplace]
    rfl
  simp only [receive, ends_bind, Host.ends_send]
  cases (h.network.next url).1 with
  | failure cause => exact ⟨rfl, .empty, [], by rw [Host.filed_nil, ← hself]⟩
  | response status reason pieces cut =>
      simp only [Reply.content]
      cases statusFailure? url status reason with
      | some failure => exact ⟨rfl, .empty, [], by rw [Host.filed_nil, ← hself]⟩
      | none =>
          rw [hself]
          refine ends_bind.mpr ((ends_appendAll hl pieces .empty _).mono ?_ fun _ _ h => h)
          rintro - h' ⟨events, rfl⟩
          cases cut with
          | some cause => exact ⟨rfl, _, events, rfl⟩
          | none => exact ⟨_, events, rfl, rfl⟩

end Downloader

/-! ## The sibling itself -/

namespace Disk

theorem get?_freshSibling {t : FileTree} {directory l : Location} {name : String}
    (h : t.freshSibling? directory name = some l) :
    t.get? l = none ∧ ∃ n, l = directory ++ [temporaryName name n] := by
  unfold FileTree.freshSibling? at h
  have hfree := List.find?_some h
  obtain ⟨n, -, rfl⟩ := List.mem_map.mp (List.mem_of_find?_eq_some h)
  exact ⟨by simpa using hfree, n, rfl⟩

/-- A sibling takes a free place, and a refusal changes nothing. -/
theorem ends_createTemporary (p : FilePath) (d : Disk) :
    Ends (createTemporary p) d
      (fun l d' => d.tree.get? l = none ∧ d' = { d with tree := d.tree.insert l (.file .empty) })
      fun _ d' => d' = d := by
  simp only [createTemporary, ends_bind, ends_ask, ends_get]
  refine ⟨fun _ _ => ⟨fun directory _ => ?_, fun _ _ => trivial⟩, fun _ _ => trivial⟩
  cases d.tree.enter directory (temporaryName p.name 0) with
  | error obstacle => exact rfl
  | ok _ =>
      dsimp only
      cases hfresh : d.tree.freshSibling? directory p.name with
      | none => exact rfl
      | some l => exact ⟨(get?_freshSibling hfresh).1, rfl⟩

/-- Moving a sibling to its target: what it held stands there, and the sibling is gone. -/
theorem ends_replace {t : FileTree} {l : Location} (hfree : t.get? l = none) (p : FilePath)
    (bytes : ByteArray) {d : Disk} (hplace : d.tree = t.insert l (.file bytes)) :
    Ends (replace l p) d
      (fun _ d' => ∃ target, Takes { d with tree := t } p target ∧
        d' = { d with tree := t.insert target (.file bytes) })
      fun fault d' => d' = d ∧ (∀ target, ¬ Takes { d with tree := t } p target) ∧
        (fault = .illegalName → p.hasIllegalName = true) := by
  -- the sibling is no directory, so with it or without it paths lead to the same places
  have hdirectory : ∀ l', d.tree.get? l' = some .directory ↔ t.get? l' = some .directory := by
    intro l'
    rw [hplace]
    exact FileTree.directory_insert_file_iff hfree
  have htakes : ∀ target, Takes { d with tree := t } p target ↔ d.Takes p target := by
    intro target
    refine (takes_congr ?_ hdirectory).symm
    rfl
  simp only [htakes, replace, ends_bind, ends_get, ends_ask]
  refine ⟨fun target htarget => ?_, fun fault hfault => ⟨trivial, fun target htarget => ?_, ?_⟩⟩
  · -- a directory is not replaced
    by_cases hdir : d.tree.get? target = some .directory
    · simp only [hdir]
      refine ⟨rfl, fun target' htarget' => htarget'.2 ?_, fun hfault => by cases hfault⟩
      rw [htarget'.1] at htarget
      cases htarget
      exact hdir
    · have hl : d.tree.get? l = some (.file bytes) := by
        rw [hplace, FileTree.get?_insert (FileTree.ne_nil_of_free hfree), if_pos rfl]
      have hmove :
          (d.tree.erase l).insert target (.file bytes) = t.insert target (.file bytes) := by
        rw [hplace, FileTree.erase_insert_of_free hfree]
      split
      · rename_i hdir'
        exact absurd hdir' hdir
      · simp only [hl, modifyTree, ends_modify, hmove]
        exact ⟨target, ⟨htarget, hdir⟩, rfl⟩
  · rw [htarget.1] at hfault
    cases hfault
  · rintro rfl
    exact locate_eq_illegalName_iff.mp hfault

end Disk

/-! ## The whole attempt -/

/-- An attempt that succeeds puts the whole body in the target's place and changes nothing else.
One that fails leaves everything as it was, but for the request if it was made at all.  Either way
the journal keeps what was done to files. -/
theorem Downloader.ends_fileAttempt (d : Downloader) (url : String) (target : FilePath) (h : Host) :
    Ends (d.fileAttempt url target) h
      (fun _ h' => ∃ bytes l events, (h.network.next url).1.content url = .ok bytes ∧
        h.disk.Takes target l ∧
        h' = ((h.sent ⟨url, true, d.timeout⟩).withTree
          (h.disk.tree.insert l (.file bytes))).filed events)
      (fun failure h' =>
        (∃ events, h' = h.filed events ∧ ∃ fault, failure = .ofDisk fault ∧
          Disk.createTemporary target h.disk = .error fault h.disk) ∨
        (∃ events, h' = (h.sent ⟨url, true, d.timeout⟩).filed events ∧
          (∃ l disk, Disk.createTemporary target h.disk = .ok l disk) ∧
          ((h.network.next url).1.content url = .error failure ∨
            ∃ bytes fault, (h.network.next url).1.content url = .ok bytes ∧
              failure = .ofDisk fault ∧ (∀ l, ¬ h.disk.Takes target l) ∧
                (fault = .illegalName → target.hasIllegalName = true)))) := by
  -- three points of failure: making the sibling, filling it, and moving it to the target
  refine ends_bind.mpr (Host.ends_onFiles.mpr ?_)
  refine ((Disk.ends_createTemporary target h.disk).and (ends_self _ _)).mono ?_ ?_
  · intro l disk hend
    obtain ⟨⟨hfree, rfl⟩, hcreated⟩ := hend
    let made : FileEvent := ⟨.createTemporary target, h.disk⟩
    have hne := FileTree.ne_nil_of_free hfree
    -- whatever the sibling holds, erasing it gives the old host back
    have herase : ∀ bytes, (h.disk.tree.insert l (.file bytes)).erase l = h.disk.tree :=
      fun bytes => FileTree.erase_insert_of_free hfree _
    refine ends_tryCatch.mpr (ends_bind.mpr ((ends_receive hne rfl).mono ?_ ?_))
    · intro _ h' hend
      obtain ⟨bytes, events, hcontent, rfl⟩ := hend
      let filled : Disk := { h.disk with tree := h.disk.tree.insert l (.file bytes) }
      let moved : FileEvent := ⟨.replace l target, filled⟩
      refine Host.ends_onFiles.mpr ((Disk.ends_replace hfree target bytes rfl).mono ?_ ?_)
      · intro _ disk hend
        obtain ⟨place, htakes, rfl⟩ := hend
        refine ⟨bytes, place, made :: events ++ [moved], hcontent, htakes, ?_⟩
        simp [Host.filed, Host.withTree, Host.sent, made, moved, filled]
      · intro fault disk hend
        obtain ⟨rfl, hnone, hillegal⟩ := hend
        refine .inr ⟨made :: events ++ [moved, ⟨.remove l, filled⟩], ?_, ⟨l, _, hcreated⟩,
          .inr ⟨bytes, fault, hcontent, rfl, hnone, hillegal⟩⟩
        simp [Host.filed, Host.withTree, Host.sent, made, moved, filled, herase]
    · intro failure h' hend
      obtain ⟨hcontent, bytes, events, rfl⟩ := hend
      let filled : Disk := { h.disk with tree := h.disk.tree.insert l (.file bytes) }
      refine .inr ⟨made :: events ++ [⟨.remove l, filled⟩], ?_, ⟨l, _, hcreated⟩, .inl hcontent⟩
      simp [Host.filed, Host.withTree, Host.sent, made, filled, herase]
  · intro fault disk hend
    obtain ⟨rfl, hrun⟩ := hend
    exact .inl ⟨_, rfl, fault, rfl, hrun⟩

end PointElevation
