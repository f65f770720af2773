import PointElevation.Proofs.Provider.Settled

/-!
# Starting again over the same directory

What a provider knows is lost when it ends, but for the files of its directory.  These are enough:
what a run has settled, a provider that is made after it answers in the same way, and the network is
not needed for that.

If the answer is that a file cannot be decoded, the network of the run must not have failed in words
of decoding.  A request that does so ends the query as such a file would, and there is no file.
-/

namespace PointElevation

open Host

namespace Service

/-- Whatever a run has settled, a new provider over the directory as the run has left it answers in
the same way, without a request, whatever network it has. -/
theorem restart_answers {s₀ s u : Service} (h : s₀.Opened) {latitude longitude : Float}
    {answer : Lookup} (hanswered : s₀.Answered latitude longitude answer s)
    (hsettled : answer.status.settled = true)
    (hfile : answer.status = .decodeFailed →
      s₀.host.network.Only (Reply.FailsAs Failure.LeavesDecoding)) (hnew : u.Opened)
    (hdirectory : u.provider.directory = s.provider.directory)
    (hprojection : u.provider.projection = s.provider.projection)
    (hdisk : u.host.disk = s.host.disk) :
    ∃ u', lookup latitude longitude u = .ok answer u' ∧ u.host.Idle u'.host := by
  obtain ⟨directory, hstart, hbacked⟩ := h.backed
  obtain ⟨hcoherent, position, result, hplace, hholds, rfl⟩ :=
    hanswered.holds hstart hbacked hsettled hfile
  -- the new provider works where the old one did, and sees points where they were
  have hprojected := (keptOnward_projection s₀.provider.projection).onward hanswered.onward rfl
  rw [← hprojected, ← hprojection] at hplace
  rw [← hdisk] at hholds
  obtain ⟨u', hrun, hidle, -⟩ :=
    hnew.exists_lookup_of_holds (hdirectory.trans hcoherent.place) hplace hholds
  exact ⟨u', hrun, hidle⟩

/-- So the file of a tile is enough to give its heights again, and a network that would now send
something else for it is not asked. -/
theorem restart_answers_cropped :
    ∃ answer s u',
      lookup 46.95 7.44 ⟨.cornered, ⟨.cropped, ⟨[], []⟩, ∅⟩⟩ = .ok answer s ∧
      answer.status = .ok ∧ answer.elevation = (Number.Single.ofInt (-607)).toFloat ∧
      lookup 46.95 7.44 ⟨.cornered, ⟨.cropped, ⟨[], [.response 200 "OK" [] none]⟩, ∅⟩⟩ =
        .ok answer u' ∧
        Host.Idle ⟨.cropped, ⟨[], [.response 200 "OK" [] none]⟩, ∅⟩ u'.host := by
  obtain ⟨s, hrun, hidle, hdirectory, hprojection⟩ := lookup_cornered ⟨[], []⟩
  obtain ⟨u', hagain, hidle'⟩ := restart_answers (opened_cornered _) ⟨.refl, hrun, .refl⟩ rfl nofun
    (opened_cornered ⟨[], [.response 200 "OK" [] none]⟩) hdirectory.symm hprojection.symm
    hidle.disk.symm
  exact ⟨_, s, u', hrun, rfl, rfl, hagain, hidle'⟩

/-- A request that fails in words of decoding leaves nothing behind.  The query is answered as if
there were a file that cannot be decoded; a new provider on the same disk, with a network on which
all requests fail, makes three of them and has no listing. -/
theorem restart_after_decoding_reply :
    Opened ⟨.fixed, .bare .undecoding⟩ ∧ Opened ⟨.fixed, .bare ⟨[], []⟩⟩ ∧
      (∃ answer s, lookup 46.95 7.44 ⟨.fixed, .bare .undecoding⟩ = .ok answer s ∧
        answer.status = .decodeFailed ∧ s.host.disk = (bare ⟨[], []⟩).disk) ∧
      ∃ answer s, lookup 46.95 7.44 ⟨.fixed, .bare ⟨[], []⟩⟩ = .ok answer s ∧
        answer.status = .indexUnavailable ∧ s.host.journal.requests.length = 3 := by
  refine ⟨.intro .fixed (Provider.create_bare _ 10.0 false),
    .intro .fixed (Provider.create_bare _ 10.0 false), ?_, ?_⟩
  · exact ⟨_, _, rfl, rfl, rfl⟩
  · exact ⟨_, _, rfl, rfl, rfl⟩

end Service

end PointElevation
