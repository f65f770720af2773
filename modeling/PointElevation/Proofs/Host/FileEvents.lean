import PointElevation.Proofs.Host.Ending

/-!
# What is done to files

The end of an operation does not tell what happened on the way: a sibling that was made and removed
again has left no trace on the disk.  The journal tells it, since every use of the disk is kept
there.  `Host.Work` reads off two journals of one run what was done between them, and says that this
is all: each use starts from the disk that the one before has left, and the last one leaves the disk
of the second host.

An operation touches more than what is different after it, for writing what is there already is
writing too (`FileEvent.Touches`).  That the journal is complete goes through everything by which
operations are put together (`Host.Accounted`).
-/

namespace PointElevation

variable {ε ε' α β : Type}

/-! ## Events -/

namespace FileEvent

/-- Something came to a location, or went, or was replaced. -/
def Changes (e : FileEvent) (l : Location) : Prop := e.after.tree.get? l ≠ e.before.tree.get? l

/-- Where a file was put in its place, if one was. -/
def published? (e : FileEvent) : Option Location :=
  match e.operation with
  | .replace place path =>
      match Disk.replace place path e.before with
      | .ok _ _ => (e.before.locate path).toOption
      | .error _ _ => none
  | _ => none

/-- The files that an operation makes, adds to, moves, replaces or removes. -/
def handled (e : FileEvent) : List Location :=
  match e.operation with
  | .createTemporary path =>
      match Disk.createTemporary path e.before with
      | .ok l _ => [l]
      | .error _ _ => []
  | .append place _ => [place]
  | .replace place _ => place :: e.published?.toList
  | .remove place => [place]
  | .makeDirectories _ => []
  | .removeTree _ => []

/-- A location is changed, or it is that of a file that is handled, whether or not this file is
different afterwards. -/
def Touches (e : FileEvent) (l : Location) : Prop := e.Changes l ∨ l ∈ e.handled

theorem after_of_ok {e : FileEvent} {a : e.operation.Result} {d : Disk}
    (hrun : e.operation.run e.before = .ok a d) : e.after = d := by
  rw [after, hrun]

theorem after_of_error {e : FileEvent} {fault : DiskFault} {d : Disk}
    (hrun : e.operation.run e.before = .error fault d) : e.after = d := by
  rw [after, hrun]

theorem after_of_endsIn {e : FileEvent} {P : Disk → Prop}
    (h : EndsIn e.operation.run e.before P) : P e.after := by
  unfold after
  cases hrun : e.operation.run e.before with
  | ok a d => exact h.of_ok hrun
  | error fault d => exact h.of_error hrun

/-- What an operation leaves alone has not changed. -/
theorem of_changes {e : FileEvent} {P : Location → Prop}
    (h : EndsIn e.operation.run e.before fun d =>
      ∀ l, P l ∨ d.tree.get? l = e.before.tree.get? l) {l : Location} (hl : e.Changes l) : P l := by
  rcases after_of_endsIn h l with hP | hsame
  · exact hP
  · exact absurd hsame hl

/-- Each event starts from what the one before has left. -/
def Follow : Disk → List FileEvent → Disk → Prop
  | d, [], d' => d' = d
  | d, e :: rest, d' => e.before = d ∧ Follow e.after rest d'

theorem Follow.append {d d' d'' : Disk} {events more : List FileEvent} (h : Follow d events d')
    (h' : Follow d' more d'') : Follow d (events ++ more) d'' := by
  induction events generalizing d with
  | nil =>
      obtain rfl : d' = d := h
      exact h'
  | cons e rest ih => exact ⟨h.1, ih h.2⟩

end FileEvent

/-! ## Between two hosts -/

namespace Host

/-- Between two hosts of one run these things were done to files, and nothing else. -/
structure Work (h : Host) (events : List FileEvent) (h' : Host) : Prop where
  files : h'.journal.files = h.journal.files ++ events
  follow : FileEvent.Follow h.disk events h'.disk

namespace Work

variable {h h' h'' : Host} {events more : List FileEvent}

/-- Nothing is done while disk and journal stay. -/
theorem idle (hdisk : h'.disk = h.disk) (hfiles : h'.journal.files = h.journal.files) :
    h.Work [] h' :=
  ⟨by rw [hfiles, List.append_nil], hdisk⟩

theorem refl (h : Host) : h.Work [] h := .idle rfl rfl

theorem trans (hwork : h.Work events h') (hwork' : h'.Work more h'') :
    h.Work (events ++ more) h'' where
  files := by rw [hwork'.files, hwork.files, List.append_assoc]
  follow := hwork.follow.append hwork'.follow

/-- The journals tell what was done. -/
theorem of_files (hwork : h.Work more h')
    (hfiles : h'.journal.files = h.journal.files ++ events) : h.Work events h' := by
  obtain rfl : more = events := List.append_cancel_left (hwork.files.symm.trans hfiles)
  exact hwork

theorem disk_eq (hwork : h.Work [] h') : h'.disk = h.disk := hwork.follow

end Work

/-- One operation on the disk is one thing that is done, and nothing else is done to the host. -/
theorem ends_onFiles_of_work {h : Host} {o : FileOperation} {good : o.Result → Host → Prop}
    {bad : Failure → Host → Prop}
    (hgood : ∀ a h', o.run h.disk = .ok a h'.disk → h.Work [⟨o, h.disk⟩] h' →
      h' = { h with disk := h'.disk }.filed [⟨o, h.disk⟩] → good a h')
    (hbad : ∀ fault h', o.run h.disk = .error fault h'.disk → h.Work [⟨o, h.disk⟩] h' →
      h' = { h with disk := h'.disk }.filed [⟨o, h.disk⟩] → bad (.ofDisk fault) h') :
    Ends (onFiles o) h good bad := by
  refine ends_onFiles.mpr ?_
  refine (ends_self o.run h.disk).mono (fun a d hrun => ?_) fun fault d hrun => ?_
  · have hafter := FileEvent.after_of_ok (e := ⟨o, h.disk⟩) hrun
    exact hgood a _ hrun ⟨rfl, rfl, hafter.symm⟩ rfl
  · have hafter := FileEvent.after_of_error (e := ⟨o, h.disk⟩) hrun
    exact hbad fault _ hrun ⟨rfl, rfl, hafter.symm⟩ rfl

/-- All that was done to files between two hosts of one run has a property. -/
def AllWork (P : FileEvent → Prop) (h h' : Host) : Prop :=
  ∃ events, h.Work events h' ∧ ∀ e ∈ events, P e

namespace AllWork

variable {P : FileEvent → Prop} {h h' h'' : Host}

theorem idle (hdisk : h'.disk = h.disk) (hfiles : h'.journal.files = h.journal.files) :
    AllWork P h h' :=
  ⟨[], .idle hdisk hfiles, fun _ he => absurd he List.not_mem_nil⟩

theorem single {e : FileEvent} (hwork : h.Work [e] h') (he : P e) : AllWork P h h' :=
  ⟨[e], hwork, fun _ hmem => List.mem_singleton.mp hmem ▸ he⟩

theorem trans (hwork : AllWork P h h') (hwork' : AllWork P h' h'') : AllWork P h h'' := by
  obtain ⟨events, hfirst, hevents⟩ := hwork
  obtain ⟨more, hsecond, hmore⟩ := hwork'
  refine ⟨events ++ more, hfirst.trans hsecond, fun e he => ?_⟩
  rcases List.mem_append.mp he with he | he
  · exact hevents e he
  · exact hmore e he

end AllWork

/-! ## Operations that are accounted for -/

/-- Wherever an operation starts, the journal keeps all that it does to files. -/
def Accounted (operation : HostM ε α) : Prop :=
  ∀ h : Host, EndsIn operation h fun h' => ∃ events, h.Work events h'

namespace Accounted

theorem of_idle {operation : HostM ε α} (hidle : ∀ h, EndsIn operation h (h.Work [])) :
    Accounted operation := fun h =>
  Ends.mono (hidle h) (fun _ _ hwork => ⟨[], hwork⟩) fun _ _ hwork => ⟨[], hwork⟩

theorem pure (a : α) : Accounted (pure a : HostM ε α) := .of_idle fun h => .refl h

theorem throw (fault : ε) : Accounted (throw fault : HostM ε α) := .of_idle fun h => .refl h

theorem say (level : Level) (text : String) : Accounted (say level text : HostM ε Unit) :=
  .of_idle fun _ => .idle rfl rfl

theorem pause (seconds : Float) : Accounted (pause seconds : HostM ε Unit) :=
  .of_idle fun _ => .idle rfl rfl

theorem send (r : Request) : Accounted (send r : HostM ε Reply) :=
  .of_idle fun _ => .idle rfl rfl

theorem onFiles (o : FileOperation) : Accounted (onFiles o) := fun _ =>
  ends_onFiles_of_work (fun _ _ _ hwork _ => ⟨_, hwork⟩) fun _ _ _ hwork _ => ⟨_, hwork⟩

/-- What is done later comes after what was done. -/
theorem after {operation : HostM ε α} (hoperation : Accounted operation) {h h' : Host}
    (hdone : ∃ events, h.Work events h') :
    EndsIn operation h' fun h'' => ∃ events, h.Work events h'' := by
  obtain ⟨events, hwork⟩ := hdone
  refine Ends.mono (hoperation h') ?_ ?_ <;>
  · rintro _ h'' ⟨more, hmore⟩
    exact ⟨_, hwork.trans hmore⟩

theorem bind {first : HostM ε β} {next : β → HostM ε α} (hfirst : Accounted first)
    (hnext : ∀ b, Accounted (next b)) : Accounted (first >>= next) := fun h =>
  ends_bind.mpr (Ends.mono (hfirst h) (fun b _ hdone => (hnext b).after hdone) fun _ _ => id)

theorem tryCatch {operation : HostM ε α} {handler : ε → HostM ε α}
    (hoperation : Accounted operation) (hhandler : ∀ fault, Accounted (handler fault)) :
    Accounted (tryCatch operation handler) := fun h =>
  ends_tryCatch.mpr (Ends.mono (hoperation h) (fun _ _ => id) fun fault _ hdone =>
    (hhandler fault).after hdone)

theorem forM {operation : β → HostM ε PUnit} (hoperation : ∀ b, Accounted (operation b))
    (bs : List β) : Accounted (bs.forM operation) := by
  induction bs with
  | nil => exact pure _
  | cons b rest ih => exact (hoperation b).bind fun _ => ih

theorem recast {operation : HostM ε α} (hoperation : Accounted operation) (f : ε → ε') :
    Accounted (recast f operation) := fun h => ends_recast.mpr (hoperation h)

end Accounted

end Host

end PointElevation
