import PointElevation.Proofs.Download.Account

/-!
# Which attempt decides

The replies of an address come one after another, and what an attempt comes to is a function of its
reply.  So a download is decided by one number: how many attempts fail in a way that may pass before
there is one that does not, or before no further one is left (`Decides`).  That attempt gives the
outcome, all earlier ones are forgotten but for their requests, the pauses after them
(`Host.attempted`) and what the journal says of their siblings (`Host.filed`), and no later reply is
looked at.

The proof is one induction, over the pauses that are left (`ends_retrying_attempts`), for any
operation that makes one request.  A text is fetched by such an operation, and so is a file as long
as the disk takes it; the disk it starts on is the same for every attempt, because a failed one
removes its sibling.
-/

namespace PointElevation

/-- The reply to a further request of an address; the first one is number zero. -/
def Network.reply (n : Network) (url : String) : Nat → Reply
  | 0 => (n.next url).1
  | i + 1 => (n.next url).2.reply url i

/-- The host after a number of attempts that failed and the one after them. -/
def Host.attempted (h : Host) (r : Request) (pauses : List Float) (failed : Nat) : Host :=
  { h with
    network := h.network.after (List.replicate (failed + 1) r.url)
    journal :=
      { h.journal with
        requests := h.journal.requests ++ List.replicate (failed + 1) r
        pauses := h.journal.pauses ++ pauses.take failed } }

/-- The attempt ended in a failure that another one may not have. -/
def Passing {α : Type} (answer : Except Failure α) : Prop :=
  ∃ failure, answer = .error failure ∧ failure.isTransient = true

/-- The number of the attempt that decides: all before it were passing failures, and it is none
unless no further attempt is left. -/
structure Decides {α : Type} (answers : Nat → Except Failure α) (further n : Nat) : Prop where
  le : n ≤ further
  before : ∀ i < n, Passing (answers i)
  here : n < further → ¬ Passing (answers n)

section Decides

variable {α : Type} {answers : Nat → Except Failure α} {further n n' : Nat}

theorem Decides.unique (h : Decides answers further n) (h' : Decides answers further n') :
    n = n' := by
  rcases Nat.lt_trichotomy n n' with hlt | heq | hgt
  · exact absurd (h'.before n hlt) (h.here (Nat.lt_of_lt_of_le hlt h'.le))
  · exact heq
  · exact absurd (h.before n' hgt) (h'.here (Nat.lt_of_lt_of_le hgt h.le))

theorem Decides.first (h : ¬ Passing (answers 0)) : Decides answers further 0 :=
  ⟨Nat.zero_le _, fun _ hi => absurd hi (Nat.not_lt_zero _), fun _ => h⟩

theorem Decides.only : Decides answers 0 0 :=
  ⟨Nat.le_refl _, fun _ hi => absurd hi (Nat.not_lt_zero _), fun h => absurd h (Nat.lt_irrefl _)⟩

theorem Decides.again (hfirst : Passing (answers 0))
    (h : Decides (fun i => answers (i + 1)) further n) : Decides answers (further + 1) (n + 1) where
  le := Nat.succ_le_succ h.le
  before := by
    intro i hi
    cases i with
    | zero => exact hfirst
    | succ i => exact h.before i (Nat.lt_of_succ_lt_succ hi)
  here := fun hn => h.here (Nat.lt_of_succ_lt_succ hn)

end Decides

section Attempted

variable {h : Host} {r : Request}

theorem Host.attempted_zero (pauses : List Float) : h.attempted r pauses 0 = h.sent r := by
  simp [attempted, sent, Network.after]

theorem Host.attempted_succ (seconds : Float) (rest : List Float) (n : Nat)
    (events : List FileEvent) :
    (((h.sent r).filed events).paused seconds).attempted r rest n =
      (h.attempted r (seconds :: rest) (n + 1)).filed events := by
  simp [attempted, sent, paused, filed, Network.after, List.replicate_succ]

end Attempted

namespace Downloader

/-- Attempts that make one request each are repeated until one of them decides.  What a success does
(`good`) starts where the request has left the host; a failure leaves it there, and unless it is
that of the reply (`bad`), it is final. -/
theorem ends_retrying_attempts {α β : Type} {operation : HostM Failure β} {r : Request}
    {answer : Reply → Except Failure α} {disk : Disk} (good : α → β → Host → Host → Prop)
    (bad : Failure → Prop) (hbad : ∀ failure, bad failure → failure.isTransient = false)
    (hattempt : ∀ h : Host, h.disk = disk → Ends operation h
      (fun b h' => ∃ a events, answer (h.network.next r.url).1 = .ok a ∧
        good a b ((h.sent r).filed events) h')
      (fun failure h' => (∃ events, h' = (h.sent r).filed events) ∧
        (answer (h.network.next r.url).1 = .error failure ∨
          (∃ a, answer (h.network.next r.url).1 = .ok a) ∧ bad failure)))
    (pauses : List Float) (h : Host) (hdisk : h.disk = disk) :
    Ends (retrying operation pauses) h
      (fun b h' => ∃ n a events,
        Decides (fun i => answer (h.network.reply r.url i)) pauses.length n ∧
          answer (h.network.reply r.url n) = .ok a ∧
            good a b ((h.attempted r pauses n).filed events) h')
      (fun failure h' => ∃ n events,
        Decides (fun i => answer (h.network.reply r.url i)) pauses.length n ∧
          h' = (h.attempted r pauses n).filed events ∧
            (answer (h.network.reply r.url n) = .error failure ∨
              (∃ a, answer (h.network.reply r.url n) = .ok a) ∧ bad failure)) := by
  induction pauses generalizing h with
  | nil =>
      rw [retrying]
      refine (hattempt h hdisk).mono ?_ ?_
      · intro b h' hend
        obtain ⟨a, events, hanswer, hgood⟩ := hend
        exact ⟨0, a, events, .only, hanswer, h.attempted_zero [] ▸ hgood⟩
      · intro failure h' hend
        obtain ⟨⟨events, rfl⟩, hanswer⟩ := hend
        exact ⟨0, events, .only, by rw [h.attempted_zero], hanswer⟩
  | cons seconds rest ih =>
      rw [retrying, ends_tryCatch]
      refine (hattempt h hdisk).mono ?_ ?_
      · intro b h' hend
        obtain ⟨a, events, hanswer, hgood⟩ := hend
        have hnot : ¬ Passing (answer (h.network.reply r.url 0)) := by
          rintro ⟨failure, hfailure, -⟩
          cases hanswer.symm.trans hfailure
        exact ⟨0, a, events, .first hnot, hanswer, h.attempted_zero _ ▸ hgood⟩
      · intro failure h' hend
        obtain ⟨⟨events, rfl⟩, hanswer⟩ := hend
        by_cases htransient : failure.isTransient = true
        · -- only the reply can have failed so, and the next attempt meets the next reply
          rw [if_pos htransient]
          have hpassing : Passing (answer (h.network.reply r.url 0)) := by
            rcases hanswer with hanswer | ⟨-, hfinal⟩
            · exact ⟨failure, hanswer, htransient⟩
            · rw [hbad failure hfinal] at htransient
              cases htransient
          simp only [Host.pause, ends_bind, Host.ends_record]
          refine (ih (((h.sent r).filed events).paused seconds) hdisk).mono ?_ ?_
          · intro b last hend
            obtain ⟨n, a, more, hdecides, hlast, hgood⟩ := hend
            rw [Host.attempted_succ, Host.filed_filed] at hgood
            exact ⟨n + 1, a, events ++ more, hdecides.again hpassing, hlast, hgood⟩
          · intro failure' last hend
            obtain ⟨n, more, hdecides, rfl, hlast⟩ := hend
            refine ⟨n + 1, events ++ more, hdecides.again hpassing, ?_, hlast⟩
            rw [Host.attempted_succ, Host.filed_filed]
        · rw [if_neg htransient]
          have hnot : ¬ Passing (answer (h.network.reply r.url 0)) := by
            rintro ⟨failure', hfailure, htransient'⟩
            rcases hanswer with hanswer | ⟨⟨a, hanswer⟩, -⟩
            · cases hanswer.symm.trans hfailure
              exact htransient htransient'
            · cases hanswer.symm.trans hfailure
          exact ⟨0, events, .first hnot, by rw [h.attempted_zero], hanswer⟩

/-! ## Texts -/

/-- A text, or the failure to get one, is that of the attempt that decides, and nothing but requests
and pauses is left of the others. -/
theorem fetchText_eq (d : Downloader) (url : String) (h : Host) :
    ∃ n, Decides (fun i => (h.network.reply url i).text url) pauses.length n ∧
      d.fetchText url h =
        match (h.network.reply url n).text url with
        | .ok text => .ok text (h.attempted ⟨url, false, d.timeout⟩ pauses n)
        | .error failure =>
            .error (.ofFailure url failure.isRequest failure)
              (h.attempted ⟨url, false, d.timeout⟩ pauses n) := by
  have hattempt : ∀ h₁ : Host, h₁.disk = h.disk → Ends (d.textAttempt url) h₁
      (fun text h₂ => ∃ text' events, (h₁.network.next url).1.text url = .ok text' ∧
        (text = text' ∧ h₂ = (h₁.sent ⟨url, false, d.timeout⟩).filed events))
      (fun failure h₂ => (∃ events, h₂ = (h₁.sent ⟨url, false, d.timeout⟩).filed events) ∧
        ((h₁.network.next url).1.text url = .error failure ∨
          (∃ text, (h₁.network.next url).1.text url = .ok text) ∧ False)) := by
    intro h₁ _
    rw [ends_textAttempt]
    cases htext : (h₁.network.next url).1.text url with
    | ok text => exact ⟨text, [], rfl, rfl, (Host.filed_nil _).symm⟩
    | error failure => exact ⟨⟨[], (Host.filed_nil _).symm⟩, .inl rfl⟩
  have hends := ends_retrying_attempts (r := ⟨url, false, d.timeout⟩)
    (fun text' text h₁ h₂ => text = text' ∧ h₂ = h₁) (fun _ => False) (fun _ => False.elim)
    hattempt pauses h rfl
  -- nothing is done to files, so there is nothing about them in the journal
  have hwork := work_retrying_textAttempt d url pauses h
  have hnothing : ∀ (n : Nat) (events : List FileEvent),
      h.Work [] ((h.attempted ⟨url, false, d.timeout⟩ pauses n).filed events) → events = [] := by
    intro n events hquiet
    have hfiles := hquiet.files
    simpa [Host.filed, Host.attempted] using hfiles
  unfold fetchText Host.recast
  cases hrun : retrying (d.textAttempt url) pauses h with
  | ok text h' =>
      obtain ⟨n, text', events, hdecides, htext, rfl, rfl⟩ := hends.of_ok hrun
      obtain rfl := hnothing n events (hwork.of_ok hrun)
      exact ⟨n, hdecides, by rw [htext, Host.filed_nil]⟩
  | error failure h' =>
      obtain ⟨n, events, hdecides, rfl, htext | ⟨-, hfalse⟩⟩ := hends.of_error hrun
      · obtain rfl := hnothing n events (hwork.of_error hrun)
        exact ⟨n, hdecides, by rw [htext, Host.filed_nil]⟩
      · exact hfalse.elim

/-! ## Files -/

/-- A body came to its target: directories were made on the way, and the attempt that decides
brought it whole. -/
inductive Delivered (d : Downloader) (url : String) (target : FilePath) (h : Host) : Host → Prop
  | intro {disk : Disk} {place : Location} {bytes : ByteArray} {n : Nat}
      {events : List FileEvent} :
      Disk.makeDirectories target.parent h.disk = .ok () disk →
        Decides (fun i => (h.network.reply url i).content url) pauses.length n →
          (h.network.reply url n).content url = .ok bytes → disk.Takes target place →
            Delivered d url target h
              (((({ h with disk := disk }.attempted ⟨url, true, d.timeout⟩ pauses n).withTree
                (disk.tree.insert place (.file bytes))).note .info
                  ("Downloaded " ++ url ++ " -> " ++ toString target)).filed events)

/-- A body did not come to its target, and where this ended: before the first request, with the
attempt that decides, or with a target that takes no file. -/
inductive Undelivered (d : Downloader) (url : String) (target : FilePath) (h : Host) :
    Failure → Host → Prop
  | unmade {fault : DiskFault} {disk : Disk} {events : List FileEvent} :
      Disk.makeDirectories target.parent h.disk = .error fault disk →
        Undelivered d url target h (.ofDisk fault) ({ h with disk := disk }.filed events)
  | unopened {fault : DiskFault} {disk : Disk} {events : List FileEvent} :
      Disk.makeDirectories target.parent h.disk = .ok () disk →
        Disk.createTemporary target disk = .error fault disk →
          Undelivered d url target h (.ofDisk fault) ({ h with disk := disk }.filed events)
  | unanswered {failure : Failure} {disk : Disk} {n : Nat} {events : List FileEvent} :
      Disk.makeDirectories target.parent h.disk = .ok () disk →
        Decides (fun i => (h.network.reply url i).content url) pauses.length n →
          (h.network.reply url n).content url = .error failure →
            Undelivered d url target h failure
              (({ h with disk := disk }.attempted ⟨url, true, d.timeout⟩ pauses n).filed events)
  | unplaced {fault : DiskFault} {disk : Disk} {bytes : ByteArray} {n : Nat}
      {events : List FileEvent} :
      Disk.makeDirectories target.parent h.disk = .ok () disk →
        Decides (fun i => (h.network.reply url i).content url) pauses.length n →
          (h.network.reply url n).content url = .ok bytes → (∀ l, ¬ disk.Takes target l) →
            (fault = .illegalName → target.hasIllegalName = true) →
            Undelivered d url target h (.ofDisk fault)
              (({ h with disk := disk }.attempted ⟨url, true, d.timeout⟩ pauses n).filed events)

theorem isTransient_ofDisk (fault : DiskFault) : (Failure.ofDisk fault).isTransient = false := by
  cases fault <;> rfl

/-- A failure that is not passing ends the attempts with the first one. -/
theorem retrying_of_final {α : Type} {operation : HostM Failure α} {h h' : Host} {failure : Failure}
    (hrun : operation h = .error failure h') (hfinal : failure.isTransient = false)
    (pauses : List Float) : retrying operation pauses h = .error failure h' := by
  cases pauses with
  | nil => exact hrun
  | cons seconds rest =>
      rw [retrying, tryCatch_apply, hrun]
      simp only [hfinal, Bool.false_eq_true, if_false]
      rfl

/-- Where no sibling can be made, there is no request. -/
theorem fileAttempt_of_refused {d : Downloader} {url : String} {target : FilePath} {h : Host}
    {fault : DiskFault} {disk : Disk}
    (hcreate : Disk.createTemporary target h.disk = .error fault disk) :
    d.fileAttempt url target h =
      .error (.ofDisk fault) (h.filed [⟨.createTemporary target, h.disk⟩]) := by
  have hdisk : disk = h.disk := (Disk.ends_createTemporary target h.disk).of_error hcreate
  subst hdisk
  have hrun : Host.onFiles (.createTemporary target) h =
      .error (.ofDisk fault) (h.filed [⟨.createTemporary target, h.disk⟩]) := by
    have hrefused : FileOperation.run (.createTemporary target) h.disk = .error fault h.disk :=
      hcreate
    simp only [Host.onFiles, Host.onDisk, Host.filed, hrefused]
  rw [fileAttempt, bind_apply, hrun]

/-- While the disk lets siblings be made, the attempts differ in their replies only. -/
theorem ends_retrying_fileAttempt_delivered (d : Downloader) (url : String) (target : FilePath)
    {h : Host} {l : Location} {filled : Disk}
    (hcreate : Disk.createTemporary target h.disk = .ok l filled) :
    Ends (retrying (d.fileAttempt url target) pauses) h
      (fun _ h' => ∃ n bytes place events,
        Decides (fun i => (h.network.reply url i).content url) pauses.length n ∧
          (h.network.reply url n).content url = .ok bytes ∧ h.disk.Takes target place ∧
            h' = ((h.attempted ⟨url, true, d.timeout⟩ pauses n).withTree
              (h.disk.tree.insert place (.file bytes))).filed events)
      (fun failure h' => ∃ n events,
        Decides (fun i => (h.network.reply url i).content url) pauses.length n ∧
          h' = (h.attempted ⟨url, true, d.timeout⟩ pauses n).filed events ∧
            ((h.network.reply url n).content url = .error failure ∨
              (∃ bytes, (h.network.reply url n).content url = .ok bytes) ∧
                ∃ fault, failure = .ofDisk fault ∧ (∀ l, ¬ h.disk.Takes target l) ∧
                  (fault = .illegalName → target.hasIllegalName = true))) := by
  have hattempt : ∀ h₁ : Host, h₁.disk = h.disk → Ends (d.fileAttempt url target) h₁
      (fun _ h₂ => ∃ bytes events, (h₁.network.next url).1.content url = .ok bytes ∧
        ∃ place, h.disk.Takes target place ∧
          h₂ = ((h₁.sent ⟨url, true, d.timeout⟩).filed events).withTree
            (h.disk.tree.insert place (.file bytes)))
      (fun failure h₂ => (∃ events, h₂ = (h₁.sent ⟨url, true, d.timeout⟩).filed events) ∧
        ((h₁.network.next url).1.content url = .error failure ∨
          (∃ bytes, (h₁.network.next url).1.content url = .ok bytes) ∧
            ∃ fault, failure = .ofDisk fault ∧ (∀ l, ¬ h.disk.Takes target l) ∧
              (fault = .illegalName → target.hasIllegalName = true))) := by
    intro h₁ hdisk
    refine (ends_fileAttempt d url target h₁).mono ?_ ?_
    · intro _ h₂ hend
      obtain ⟨bytes, place, events, hcontent, htakes, rfl⟩ := hend
      exact ⟨bytes, events, hcontent, place, hdisk ▸ htakes, by rw [hdisk]; rfl⟩
    · intro failure h₂ hend
      rcases hend with ⟨_, -, fault, -, hrefused⟩ | ⟨events, rfl, -, hreason⟩
      · rw [hdisk, hcreate] at hrefused
        cases hrefused
      · refine ⟨⟨events, rfl⟩, ?_⟩
        rcases hreason with hcontent | ⟨bytes, fault, hcontent, hfault, hnone, hillegal⟩
        · exact .inl hcontent
        · exact .inr ⟨⟨bytes, hcontent⟩, fault, hfault, hdisk ▸ hnone, hillegal⟩
  refine (ends_retrying_attempts (r := ⟨url, true, d.timeout⟩)
    (fun bytes _ h₁ h₂ => ∃ place, h.disk.Takes target place ∧
      h₂ = h₁.withTree (h.disk.tree.insert place (.file bytes)))
    (fun failure => ∃ fault, failure = .ofDisk fault ∧ (∀ l, ¬ h.disk.Takes target l) ∧
      (fault = .illegalName → target.hasIllegalName = true))
    ?_ hattempt pauses h rfl).mono ?_ ?_
  · rintro failure ⟨fault, rfl, -⟩
    exact isTransient_ofDisk fault
  · intro _ h' hend
    obtain ⟨n, bytes, events, hdecides, hcontent, place, htakes, rfl⟩ := hend
    exact ⟨n, bytes, place, events, hdecides, hcontent, htakes, rfl⟩
  · intro failure h' hend
    exact hend

theorem ends_fetchFile_delivered (d : Downloader) (url : String) (target : FilePath) (h : Host) :
    Ends (d.fetchFile url target) h (fun _ h' => Delivered d url target h h')
      (fun fault h' => ∃ failure,
        fault = .ofFailure url (failure.isRequest || failure.kind = .system) failure ∧
          Undelivered d url target h failure h') := by
  simp only [fetchFile, ends_bind, Host.ends_recast, Host.ends_say]
  refine Host.ends_onFiles.mpr ((ends_self (Disk.makeDirectories target.parent) h.disk).mono ?_
    fun fault disk hmake => ⟨_, rfl, .unmade hmake⟩)
  intro _ disk hmake
  let noted : List FileEvent := [⟨.makeDirectories target.parent, h.disk⟩]
  let made : Host := { h with disk := disk }.filed noted
  cases hcreate : Disk.createTemporary target disk with
  | error fault disk' =>
      have hdisk : disk' = disk := (Disk.ends_createTemporary target disk).of_error hcreate
      rw [hdisk] at hcreate
      have hfirst : d.fileAttempt url target made =
          .error (.ofDisk fault) (made.filed [⟨.createTemporary target, disk⟩]) :=
        fileAttempt_of_refused hcreate
      rw [ends_of_error (retrying_of_final hfirst (isTransient_ofDisk fault) pauses)]
      refine ⟨_, rfl, ?_⟩
      rw [Host.filed_filed]
      exact .unopened hmake hcreate
  | ok l filled =>
      refine (ends_retrying_fileAttempt_delivered d url target (h := made) hcreate).mono ?_ ?_
      · intro _ h' hend
        obtain ⟨n, bytes, place, events, hdecides, hcontent, htakes, rfl⟩ := hend
        have hdelivered := @Delivered.intro d url target h disk place bytes n (noted ++ events)
          hmake hdecides hcontent htakes
        rw [← Host.filed_filed] at hdelivered
        exact hdelivered
      · intro failure h' hend
        obtain ⟨n, events, hdecides, rfl, hreason⟩ := hend
        have hhost : (made.attempted ⟨url, true, d.timeout⟩ pauses n).filed events =
            ({ h with disk := disk }.attempted ⟨url, true, d.timeout⟩ pauses n).filed
              (noted ++ events) := by
          rw [← Host.filed_filed]
          rfl
        rw [hhost]
        rcases hreason with hcontent | ⟨⟨bytes, hcontent⟩, fault, rfl, hrefused⟩
        · exact ⟨failure, rfl, .unanswered hmake hdecides hcontent⟩
        · exact ⟨_, rfl, .unplaced hmake hdecides hcontent hrefused.1 hrefused.2⟩

/-- The operations on files that a download to a path takes succeed, and where the file comes to. -/
structure Accepts (target : FilePath) (d made : Disk) (place : Location) : Prop where
  directories : Disk.makeDirectories target.parent d = .ok () made
  sibling : ∃ l filled, Disk.createTemporary target made = .ok l filled
  place : made.Takes target place

/-- Where no operation on files fails, a file is that of the attempt that decides, and so is the
failure to get it.  What is done to files meanwhile is in the journal. -/
theorem fetchFile_eq (d : Downloader) (url : String) {target : FilePath} {h : Host} {made : Disk}
    {place : Location} (haccepts : Accepts target h.disk made place) :
    ∃ n events, EndsIn (d.fetchFile url target) h (h.Work events) ∧
      Decides (fun i => (h.network.reply url i).content url) pauses.length n ∧
      d.fetchFile url target h =
        match (h.network.reply url n).content url with
        | .ok bytes =>
            .ok () (((({ h with disk := made }.attempted ⟨url, true, d.timeout⟩ pauses n).withTree
              (made.tree.insert place (.file bytes))).note .info
                ("Downloaded " ++ url ++ " -> " ++ toString target)).filed events)
        | .error failure =>
            .error (.ofFailure url (failure.isRequest || failure.kind = .system) failure)
              (({ h with disk := made }.attempted ⟨url, true, d.timeout⟩ pauses n).filed
                events) := by
  obtain ⟨hmake, ⟨l, filled, hcreate⟩, htakes⟩ := haccepts
  have hends := ends_fetchFile_delivered d url target h
  have haccounted := accounted_fetchFile d url target h
  cases hrun : d.fetchFile url target h with
  | ok _ h' =>
      obtain ⟨_, hwork⟩ := haccounted.of_ok hrun
      cases hends.of_ok hrun with
      | @intro disk place' bytes n events hmake' hdecides hcontent htakes' =>
          have hdisk : disk = made := by
            rw [hmake] at hmake'
            cases hmake'
            rfl
          have hplace : place' = place := by
            have hlocate := htakes'.1
            rw [hdisk, htakes.1] at hlocate
            cases hlocate
            rfl
          refine ⟨n, events, (ends_of_ok hrun).mpr (hwork.of_files rfl), hdecides, ?_⟩
          rw [hcontent, hdisk, hplace]
  | error fault h' =>
      obtain ⟨_, hwork⟩ := haccounted.of_error hrun
      obtain ⟨failure, rfl, hundelivered⟩ := hends.of_error hrun
      cases hundelivered with
      | unmade hmake' =>
          rw [hmake] at hmake'
          cases hmake'
      | unopened hmake' hcreate' =>
          rw [hmake] at hmake'
          cases hmake'
          rw [hcreate] at hcreate'
          cases hcreate'
      | unanswered hmake' hdecides hcontent =>
          rw [hmake] at hmake'
          cases hmake'
          refine ⟨_, _, (ends_of_error hrun).mpr (hwork.of_files rfl), hdecides, ?_⟩
          rw [hcontent]
      | unplaced hmake' _ _ hnone _ =>
          rw [hmake] at hmake'
          cases hmake'
          exact absurd htakes (hnone place)

end Downloader

/-! ## Faults -/

/-- A failure that is passed on as it is; it may be a failed download already. -/
def FetchFault.ofRaised (failure : Failure) : FetchFault :=
  if failure.kind = .staged .download then .failed (.reported failure.text) else .escaped failure

theorem Failure.not_download_of_isRequest {failure : Failure} (h : failure.isRequest = true) :
    failure.kind ≠ .staged .download := by
  intro hkind
  simp [isRequest, hkind] at h

theorem Failure.not_download_of_orderly {failure : Failure}
    (h : (failure.isRequest || failure.kind = .system) = true) :
    failure.kind ≠ .staged .download := by
  intro hkind
  simp [isRequest, hkind] at h

theorem FetchFault.ofFailure_eq {failure : Failure} {own : Bool}
    (hown : own = true → failure.kind ≠ .staged .download) (url : String) :
    ofFailure url own failure =
      if own then .failed (.ofRequest url failure) else ofRaised failure := by
  cases own with
  | false => simp only [ofFailure, ofRaised, Bool.false_eq_true, if_false]
  | true =>
      rw [ofFailure, if_neg (hown rfl)]
      rfl

end PointElevation
