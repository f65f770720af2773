import PointElevation.Proofs.Provider.Containment
import PointElevation.Proofs.Provider.Settled

/-!
# Nothing is fetched twice

Two things keep a provider from fetching again what it has.  A file is downloaded only where nothing
stands, and once it is in its place it is there for the rest of the run, so by the journal of a
whole run no place is published to twice and nothing that existed is touched.  And a query for a
tile that has been settled finds all that it needs on the disk.
-/

namespace PointElevation

open Host

namespace Service

variable {directory : Location} {limit : Int} {s s₀ : Service}

/-- What the journal of a whole run says was done to files was careful. -/
theorem Coherent.exists_careful (h : s.Coherent directory limit) {actions : List Action}
    (hkeeps : s.KeepsAll actions) :
    ∃ events, s.host.Work events (s.performAll actions).2.host ∧
      FileEvent.Careful s.host.disk events (s.performAll actions).2.host.disk := by
  induction actions generalizing s with
  | nil => exact ⟨[], .refl _, FileEvent.careful_nil _⟩
  | cons action rest ih =>
      obtain ⟨hkeep, hrest⟩ := hkeeps
      obtain ⟨first, haccount⟩ := h.account action
      obtain ⟨more, hwork, hcareful⟩ :=
        ih ((kept_coherent directory limit).perform action h) hrest
      exact ⟨first ++ more, haccount.work.trans hwork, (haccount.careful hkeep).append hcareful⟩

/-- As long as the directory is not removed, a run publishes to no place twice and touches nothing
that existed at its start; and once a query is settled, no query for any point in the same tile
makes a request, if it was not the network that failed in words of decoding. -/
theorem fetched_once (h : s₀.Opened) :
    (∀ actions, s₀.KeepsAll actions → ∃ events,
      s₀.host.Work events (s₀.performAll actions).2.host ∧
        FileEvent.Careful s₀.host.disk events (s₀.performAll actions).2.host.disk) ∧
    ∀ (s : Service) (latitude longitude : Float) (answer : Lookup),
      s₀.Answered latitude longitude answer s → answer.status.settled = true →
        (answer.status = .decodeFailed →
            s₀.host.network.Only (Reply.FailsAs Failure.LeavesDecoding)) →
          ∀ (latitude' longitude' : Float) (position : Position),
            s.provider.projection.locate latitude' longitude' = .ok position →
              answer.key = some position.tileKey →
                EndsIn (lookup latitude' longitude') s fun s' =>
                  s'.host.journal.requests = s.host.journal.requests := by
  obtain ⟨directory, hcoherent, hbacked⟩ := h.backed
  refine ⟨fun actions hkeeps => hcoherent.exists_careful hkeeps, ?_⟩
  intro s latitude longitude answer hanswered hsettled hfile latitude' longitude' position hplace
    hkey
  obtain ⟨hlast, answered, result, -, hholds, rfl⟩ :=
    hanswered.holds hcoherent hbacked hsettled hfile
  -- the key is all that the two points have in common, and what is held is held for the key
  rw [Lookup.key_ofHeld, Option.some.injEq] at hkey
  rw [hkey] at hholds
  refine (hlast.ends_lookup_of_holds hplace hholds).mono ?_ fun _ _ => False.elim
  exact fun _ _ hend => hend.2.requests

/-- So it is over a disk with tiles, where a height comes from the file of one, whatever the network
would send. -/
theorem fetched_once_cropped :
    ∃ answer s events,
      Host.Work ⟨.cropped, ⟨[], [.response 200 "OK" [] none]⟩, ∅⟩ events
        (performAll ⟨.cornered, ⟨.cropped, ⟨[], [.response 200 "OK" [] none]⟩, ∅⟩⟩
          [.release, .lookup 46.95 7.44, .elevation 46.95 7.44]).2.host ∧
      (FileEvent.publications events).Nodup ∧
      lookup 46.95 7.44 ⟨.cornered, ⟨.cropped, ⟨[], [.response 200 "OK" [] none]⟩, ∅⟩⟩ =
        .ok answer s ∧ answer.status = .ok ∧
      EndsIn (lookup 46.95 7.44) s fun s' =>
        s'.host.journal.requests = s.host.journal.requests := by
  obtain ⟨s, hrun, -, -, hprojection⟩ := lookup_cornered ⟨[], [.response 200 "OK" [] none]⟩
  obtain ⟨hcareful, hsettled⟩ := fetched_once (opened_cornered ⟨[], [.response 200 "OK" [] none]⟩)
  obtain ⟨events, hwork, hevents⟩ :=
    hcareful [.release, .lookup 46.95 7.44, .elevation 46.95 7.44]
    ⟨fun _ => rfl, nofun, nofun, trivial⟩
  have hkey : some "2600-1200" = some (Position.tileKey ⟨2600002, 1200994⟩) := by decide +kernel
  refine ⟨_, s, events, hwork, hevents.once, hrun, rfl, ?_⟩
  refine hsettled s 46.95 7.44 _ ⟨.refl, hrun, .refl⟩ rfl nofun 46.95 7.44 ⟨2600002, 1200994⟩ ?_
    hkey
  rw [hprojection]
  rfl

/-- A request that fails in words of decoding is made again: on a bare host two queries for the same
point are answered as if there were a file that cannot be decoded, and each makes a request. -/
theorem fetched_again_after_decoding_reply :
    Opened ⟨.fixed, .bare .undecoding⟩ ∧
      ∃ answer s s', lookup 46.95 7.44 ⟨.fixed, .bare .undecoding⟩ = .ok answer s ∧
        answer.status = .decodeFailed ∧ lookup 46.95 7.44 s = .ok answer s' ∧
          s.host.journal.requests.length = 1 ∧ s'.host.journal.requests.length = 2 := by
  refine ⟨.intro .fixed (Provider.create_bare _ 10.0 false), ?_⟩
  exact ⟨_, _, _, rfl, rfl, rfl, rfl, rfl⟩

end Service

end PointElevation
