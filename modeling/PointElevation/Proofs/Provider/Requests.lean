import PointElevation.Proofs.Download.Repeat
import PointElevation.Proofs.Provider.Failure

/-!
# What a query asks for

A query downloads up to three things, each only after the one before: the reply of the listing
service, the listing that this reply names, and the tile that the listing names.  Every download
makes up to three requests.  So whatever the state, the requests of a query come in three blocks
(`Service.AsksFor`), and what the second and the third block ask for is settled by what came before.
-/

namespace PointElevation

open PointElevation.Host

/-- These requests were made between two hosts. -/
def Host.Requested (h : Host) (requests : List Request) (h' : Host) : Prop :=
  h'.journal.requests = h.journal.requests ++ requests

/-! ## Downloads -/

namespace Downloader

theorem ends_fetchText_requested (d : Downloader) (url : String) (h : Host) :
    Ends (d.fetchText url) h
      (fun text h' => h.network.text url = .ok text ∧
        ∃ count ≤ 3, h.Requested (List.replicate count ⟨url, false, d.timeout⟩) h')
      (fun _ h' => ∃ count ≤ 3, h.Requested (List.replicate count ⟨url, false, d.timeout⟩) h') := by
  obtain ⟨n, hdecides, hrun⟩ := fetchText_eq d url h
  have hcount : n + 1 ≤ 3 := Nat.succ_le_succ hdecides.le
  refine ((ends_fetchText d url h).and (ends_self _ h)).mono ?_ ?_
  · intro text h' hend
    obtain ⟨hasked, hend⟩ := hend
    rw [hrun] at hend
    split at hend
    · cases hend
      exact ⟨hasked.text, n + 1, hcount, rfl⟩
    · cases hend
  · intro fault h' hend
    obtain ⟨-, hend⟩ := hend
    rw [hrun] at hend
    split at hend
    · cases hend
    · cases hend
      exact ⟨n + 1, hcount, rfl⟩

theorem endsIn_fetchFile_requested (d : Downloader) (url : String) (target : FilePath) (h : Host) :
    EndsIn (d.fetchFile url target) h fun h' =>
      ∃ count ≤ 3, h.Requested (List.replicate count ⟨url, true, d.timeout⟩) h' := by
  have hnone : ∀ disk : Disk, h.Requested (List.replicate 0 ⟨url, true, d.timeout⟩)
      { h with disk := disk } := fun disk => (List.append_nil _).symm
  refine (ends_fetchFile_delivered d url target h).mono ?_ ?_
  · intro _ h' hdelivered
    cases hdelivered with
    | intro _ hdecides _ _ => exact ⟨_, Nat.succ_le_succ hdecides.le, rfl⟩
  · intro fault h' hend
    obtain ⟨failure, -, hundelivered⟩ := hend
    cases hundelivered with
    | unmade _ => exact ⟨0, Nat.zero_le _, hnone _⟩
    | unopened _ _ => exact ⟨0, Nat.zero_le _, hnone _⟩
    | unanswered _ hdecides _ => exact ⟨_, Nat.succ_le_succ hdecides.le, rfl⟩
    | unplaced _ hdecides _ _ _ => exact ⟨_, Nat.succ_le_succ hdecides.le, rfl⟩

end Downloader

/-! ## The listing -/

namespace TileIndex

/-- Requests for the listing: some to the service, then some to the address that it gives. -/
def AsksFor (index : TileIndex) (h : Host) (requests : List Request) : Prop :=
  ∃ service file address, service ≤ 3 ∧ file ≤ 3 ∧
    requests = List.replicate service ⟨listingServiceUrl, false, index.downloader.timeout⟩ ++
      List.replicate file ⟨address, true, index.downloader.timeout⟩ ∧
    (file ≠ 0 → ∃ reply, h.network.text listingServiceUrl = .ok reply ∧
      listingAddress reply = .ok address)

theorem asksFor_nil (index : TileIndex) (h : Host) : index.AsksFor h [] :=
  ⟨0, 0, "", Nat.zero_le _, Nat.zero_le _, rfl, fun hne => absurd rfl hne⟩

theorem endsIn_fetch_requested (index : TileIndex) (h : Host) :
    EndsIn index.fetch h fun h' =>
      ∃ requests, index.AsksFor h requests ∧ h.Requested requests h' := by
  -- where the service gives no address, its block is the only one
  have honly : ∀ {count : Nat} {h' : Host}, count ≤ 3 → h.Requested
      (List.replicate count ⟨listingServiceUrl, false, index.downloader.timeout⟩) h' →
        ∃ requests, index.AsksFor h requests ∧ h.Requested requests h' := by
    intro count h' hcount hrequested
    refine ⟨_, ⟨count, 0, "", hcount, Nat.zero_le _, rfl, fun hne => absurd rfl hne⟩, ?_⟩
    simpa using hrequested
  simp only [EndsIn, fetch, ends_bind, ends_recast]
  refine (Downloader.ends_fetchText_requested index.downloader listingServiceUrl h).mono ?_ ?_
  · intro reply h₁ hend
    obtain ⟨htext, service, hservice, hfirst⟩ := hend
    cases haddress : listingAddress reply with
    | error cause => exact honly hservice hfirst
    | ok address =>
        dsimp only
        rw [ends_recast]
        refine Ends.mono (Downloader.endsIn_fetchFile_requested index.downloader address
          index.mappingFile h₁) ?_ ?_ <;>
        · rintro - h₂ ⟨file, hfile, hsecond⟩
          refine ⟨_, ⟨service, file, address, hservice, hfile, rfl, ?_⟩, ?_⟩
          · exact fun _ => ⟨reply, htext, haddress⟩
          · rw [Requested, hsecond, hfirst, List.append_assoc]
  · rintro fault h' ⟨count, hcount, hrequested⟩
    exact honly hcount hrequested

theorem endsIn_obtain_requested (index : TileIndex) (h : Host) :
    EndsIn index.obtain h fun h' =>
      ∃ requests, index.AsksFor h requests ∧ h.Requested requests h' := by
  have hnone : ∃ requests, index.AsksFor h requests ∧ h.Requested requests h :=
    ⟨[], asksFor_nil index h, (List.append_nil _).symm⟩
  -- reading the file asks for nothing more
  have hread : ∀ h₁ : Host, (∃ requests, index.AsksFor h requests ∧ h.Requested requests h₁) →
      EndsIn index.readFile h₁ fun h' =>
        ∃ requests, index.AsksFor h requests ∧ h.Requested requests h' := by
    intro h₁ hrequested
    simp only [EndsIn, readFile, ends_bind, ends_recast, ends_askDisk, ends_pure]
    exact ⟨fun _ _ => hrequested, fun _ _ => hrequested⟩
  simp only [EndsIn, obtain, ends_bind, ends_recast, ends_askDisk]
  refine ⟨fun present _ => ?_, fun _ _ => hnone⟩
  cases present with
  | true =>
      simp only [Bool.not_true, Bool.false_eq_true, if_false]
      exact hread h hnone
  | false =>
      simp only [Bool.not_false, if_true, ends_bind]
      refine (endsIn_fetch_requested index h).mono ?_ fun _ _ hend => hend
      exact fun _ h₁ hrequested => hread h₁ hrequested

theorem endsIn_load_requested (s : Indexed) :
    EndsIn load s fun s' =>
      ∃ requests, s.index.AsksFor s.host requests ∧ s.host.Requested requests s'.host := by
  simp only [EndsIn, load, ends_bind, ends_get]
  cases s.index.listing with
  | some listing => exact ⟨[], asksFor_nil s.index s.host, (List.append_nil _).symm⟩
  | none =>
      simp only [ends_bind, onIndexedHost, ends_onPart, ends_modify, ends_say, ends_pure]
      exact endsIn_obtain_requested s.index s.host

end TileIndex

/-! ## The tile -/

theorem endsIn_ensureTileFile_requested (directory : FilePath) (d : Downloader) (key : TileKey)
    (url : String) (h : Host) :
    EndsIn (ensureTileFile directory d key url) h fun h' =>
      ∃ count ≤ 3, h.Requested (List.replicate count ⟨url, true, d.timeout⟩) h' := by
  have hnone : ∃ count ≤ 3, h.Requested (List.replicate count ⟨url, true, d.timeout⟩) h :=
    ⟨0, Nat.zero_le _, (List.append_nil _).symm⟩
  simp only [EndsIn, ensureTileFile, ends_bind, ends_recast, ends_askDisk]
  refine ⟨fun present _ => ?_, fun _ _ => hnone⟩
  cases present with
  | true =>
      simp only [Bool.not_true, Bool.false_eq_true, if_false, ends_pure]
      exact hnone
  | false =>
      simp only [Bool.not_false, if_true, ends_bind, ends_say, ends_recast, ends_pure]
      exact Downloader.endsIn_fetchFile_requested d url _ _

/-- Requests for the raster of a key: those for the listing, then some to the address under which
the listing has the tile. -/
def Indexed.AsksFor (s : Indexed) (d : Downloader) (key : TileKey) (requests : List Request) :
    Prop :=
  ∃ before count address, s.index.AsksFor s.host before ∧ count ≤ 3 ∧
    requests = before ++ List.replicate count ⟨address, true, d.timeout⟩ ∧
    (count ≠ 0 → ∃ listing s', TileIndex.load s = .ok listing s' ∧
      listing.url? key = some address)

theorem Provider.endsIn_load_requested (directory : FilePath) (d : Downloader) (key : TileKey)
    (s : Indexed) :
    EndsIn ((pipeline directory d).load key) s fun s' =>
      ∃ requests, s.AsksFor d key requests ∧ s.host.Requested requests s'.host := by
  -- without a tile to ask for, there are the requests for the listing
  have honly : ∀ {s' : Indexed}, (∃ requests, s.index.AsksFor s.host requests ∧
      s.host.Requested requests s'.host) →
        ∃ requests, s.AsksFor d key requests ∧ s.host.Requested requests s'.host := by
    rintro s' ⟨before, hbefore, hrequested⟩
    refine ⟨before, ⟨before, 0, "", hbefore, Nat.zero_le _, ?_, fun hne => absurd rfl hne⟩,
      hrequested⟩
    exact (List.append_nil _).symm
  simp only [EndsIn, Pipeline.load, pipeline, TileIndex.resolve, ends_bind, ends_pure]
  refine (Ends.and (TileIndex.endsIn_load_requested s) (ends_self _ _)).mono ?_ ?_
  · intro listing s₁ hend
    obtain ⟨⟨before, hbefore, hfirst⟩, hload⟩ := hend
    cases hurl : listing.url? key with
    | none => exact honly ⟨before, hbefore, hfirst⟩
    | some address =>
        have hboth : ∀ s' : Indexed, (∃ count ≤ 3, s₁.host.Requested
            (List.replicate count ⟨address, true, d.timeout⟩) s'.host) →
              ∃ requests, s.AsksFor d key requests ∧ s.host.Requested requests s'.host := by
          rintro s' ⟨count, hcount, hsecond⟩
          refine ⟨_, ⟨before, count, address, hbefore, hcount, rfl, ?_⟩, ?_⟩
          · exact fun _ => ⟨listing, s₁, hload, hurl⟩
          · rw [Requested, hsecond, hfirst, List.append_assoc]
        simp only [ends_bind, onIndexedHost, ends_onPart, ends_pure]
        refine Ends.mono (endsIn_ensureTileFile_requested directory d key address s₁.host) ?_ ?_
        · intro path h' hrequested
          rw [ends_readTile]
          cases tileRaster h'.disk path with
          | ok raster => exact hboth { s₁ with host := h' } hrequested
          | error fault => exact hboth { s₁ with host := h' } hrequested
        · exact fun _ h' hrequested => hboth { s₁ with host := h' } hrequested
  · intro fault s' hend
    exact honly hend.1

/-! ## The query -/

namespace Service

/-- The requests of a query for a point. -/
def AsksFor (s : Service) (latitude longitude : Float) (requests : List Request) : Prop :=
  requests = [] ∨ ∃ position, s.provider.projection.locate latitude longitude = .ok position ∧
    s.indexed.AsksFor s.provider.downloader position.tileKey requests

theorem endsIn_rasterOf_requested (s : Service) (key : TileKey) :
    EndsIn (rasterOf key) s fun s' => ∃ requests,
      s.indexed.AsksFor s.provider.downloader key requests ∧
        s.host.Requested requests s'.host := by
  have hends := Provider.endsIn_load_requested s.provider.directory s.provider.downloader key
    s.indexed
  cases hfind : s.provider.memory.find? key with
  | some raster =>
      rw [EndsIn, ends_rasterOf, cached, ends_of_ok (Pipeline.get_of_held hfind _)]
      exact ⟨[], ⟨[], 0, "", TileIndex.asksFor_nil _ _, Nat.zero_le _, rfl,
        fun hne => absurd rfl hne⟩, (List.append_nil _).symm⟩
  | none =>
      have hrun := rasterOf_of_free hfind
      cases hload : s.load key s.indexed with
      | error fault t =>
          rw [hload] at hrun
          exact (ends_of_error hrun).mpr (hends.of_error hload)
      | ok found t =>
          rw [hload] at hrun
          obtain ⟨requests, hasks, hrequested⟩ := hends.of_ok hload
          cases found with
          | none => exact (ends_of_ok hrun).mpr ⟨requests, hasks, hrequested⟩
          | some raster =>
              refine (ends_of_ok hrun).mpr ⟨requests, hasks, ?_⟩
              -- making room is noted in the log and asks for nothing
              by_cases hfull : s.provider.memory.overfull = true
              · rw [if_pos hfull]
                exact hrequested
              · rw [if_neg hfull]
                exact hrequested

theorem Logged.requested {s s₁ s' : Service} {requests : List Request} (h : s₁.Logged s')
    (hrequested : s.host.Requested requests s₁.host) : s.host.Requested requests s'.host := by
  rcases h with rfl | ⟨level, text, rfl⟩ <;> exact hrequested

theorem endsIn_lookup_requested (latitude longitude : Float) (s : Service) :
    EndsIn (lookup latitude longitude) s fun s' => ∃ requests,
      s.AsksFor latitude longitude requests ∧ s.host.Requested requests s'.host := by
  refine (ends_lookup latitude longitude s).mono ?_ ?_
  · intro answer s' hanswers
    cases hanswers with
    | outside _ hlogged =>
        exact ⟨[], .inl rfl, hlogged.requested (List.append_nil _).symm⟩
    | found hplace hrun hlogged =>
        obtain ⟨requests, hasks, hrequested⟩ := (endsIn_rasterOf_requested s _).of_ok hrun
        exact ⟨requests, .inr ⟨_, hplace, hasks⟩, hlogged.requested hrequested⟩
    | degraded hplace hrun _ hlogged =>
        obtain ⟨requests, hasks, hrequested⟩ := (endsIn_rasterOf_requested s _).of_error hrun
        exact ⟨requests, .inr ⟨_, hplace, hasks⟩, hlogged.requested hrequested⟩
  · intro cause s' hend
    obtain ⟨position, hplace, hrun⟩ := hend
    obtain ⟨requests, hasks, hrequested⟩ := (endsIn_rasterOf_requested s _).of_error hrun
    exact ⟨requests, .inr ⟨position, hplace, hasks⟩, hrequested⟩

end Service

/-! ## Retrying, exactly -/

theorem kind_of_status {status : Nat} (hlow : 400 ≤ status) (hhigh : status < 600)
    (url reason : String) :
    ∃ failure, statusFailure? url status reason = some failure ∧ failure.kind = .request := by
  unfold statusFailure?
  by_cases hclient : status < 500
  · exact ⟨_, if_pos ⟨hlow, hclient⟩, rfl⟩
  · rw [if_neg (by omega), if_pos (by omega)]
    exact ⟨_, rfl, rfl⟩

/-- Downloads are decided by one attempt, of three at most, and it is the first that does not fail
in a passing way.  Its reply alone gives the outcome: a text or the bytes of the file, or a failure,
which is a failed download of the address if it is one of the request, or for a file also one of the
system, and otherwise goes on as it is.  The journal has what was done to files meanwhile.  A status
that is an error is not passing.  So a query makes up to three requests of each sort, in order. -/
theorem retrying_exact :
    (∀ (d : Downloader) (url : String) (h : Host), ∃ n,
      Decides (fun i => (h.network.reply url i).text url) 2 n ∧
        d.fetchText url h =
          match (h.network.reply url n).text url with
          | .ok text => .ok text (h.attempted ⟨url, false, d.timeout⟩ [1.0, 2.0] n)
          | .error failure =>
              .error (if failure.isRequest then .failed (.ofRequest url failure)
                  else .ofRaised failure)
                (h.attempted ⟨url, false, d.timeout⟩ [1.0, 2.0] n)) ∧
    (∀ (d : Downloader) (url : String) (target : FilePath) (h : Host) (made : Disk)
      (place : Location), Downloader.Accepts target h.disk made place → ∃ n events,
        EndsIn (d.fetchFile url target) h (h.Work events) ∧
        Decides (fun i => (h.network.reply url i).content url) 2 n ∧
          d.fetchFile url target h =
            match (h.network.reply url n).content url with
            | .ok bytes =>
                .ok () (((({ h with disk := made }.attempted ⟨url, true, d.timeout⟩ [1.0, 2.0]
                  n).withTree (made.tree.insert place (.file bytes))).note .info
                    ("Downloaded " ++ url ++ " -> " ++ toString target)).filed events)
            | .error failure =>
                .error (if failure.isRequest || failure.kind = .system then
                    .failed (.ofRequest url failure) else .ofRaised failure)
                  (({ h with disk := made }.attempted ⟨url, true, d.timeout⟩ [1.0, 2.0] n).filed
                    events)) ∧
    (∀ (url : String) (failure : Failure), (DownloadFault.ofRequest url failure).message =
      "Failed to download " ++ url ++ ": " ++ failure.text) ∧
    (∀ (url reason : String) (status : Nat), 400 ≤ status → status < 600 → ∃ failure,
      failure.kind = .request ∧ failure.isTransient = false ∧ ∀ pieces,
        (Reply.response status reason pieces none).text url = .error failure ∧
          ∀ cut, (Reply.response status reason pieces cut).content url = .error failure) ∧
    (∀ (latitude longitude : Float) (s : Service),
      EndsIn (Service.lookup latitude longitude) s fun s' => ∃ requests,
        s.AsksFor latitude longitude requests ∧ s.host.Requested requests s'.host) := by
  refine ⟨?_, ?_, fun _ _ => rfl, ?_, Service.endsIn_lookup_requested⟩
  · intro d url h
    obtain ⟨n, hdecides, hrun⟩ := d.fetchText_eq url h
    refine ⟨n, hdecides, ?_⟩
    rw [hrun]
    cases (h.network.reply url n).text url with
    | ok text => rfl
    | error failure =>
        dsimp only
        rw [FetchFault.ofFailure_eq Failure.not_download_of_isRequest]
        rfl
  · intro d url target h made place haccepts
    obtain ⟨n, events, hwork, hdecides, hrun⟩ := d.fetchFile_eq url haccepts
    refine ⟨n, events, hwork, hdecides, ?_⟩
    rw [hrun]
    cases (h.network.reply url n).content url with
    | ok bytes => rfl
    | error failure =>
        dsimp only
        rw [FetchFault.ofFailure_eq Failure.not_download_of_orderly]
        simp only [Bool.or_eq_true, decide_eq_true_eq]
        rfl
  · intro url reason status hlow hhigh
    obtain ⟨failure, hstatus, hkind⟩ := kind_of_status hlow hhigh url reason
    refine ⟨failure, hkind, by simp [Failure.isTransient, hkind], fun pieces => ⟨?_, fun cut => ?_⟩⟩
    · simp only [Reply.text, hstatus]
    · simp only [Reply.content, hstatus]

/-- A connection that is reset once costs a second request and the first pause; a page that is not
found costs nothing more. -/
theorem retrying_exact_reset :
    let url := "https://a.example/t"
    let d : Downloader := ⟨"client", 10.0⟩
    let replies : List Reply :=
      [.failure ⟨.transient, "reset"⟩, .response 200 "OK" [⟨#[7]⟩] none]
    let h : Host := .bare ⟨[(url, replies)], []⟩
    Downloader.Accepts ⟨false, ["t"]⟩ h.disk h.disk ["t"] ∧
      (∃ h', d.fetchFile url ⟨false, ["t"]⟩ h = .ok () h' ∧
        h'.disk.read ⟨false, ["t"]⟩ = .ok ⟨#[7]⟩ ∧
        h'.journal.requests = [⟨url, true, 10.0⟩, ⟨url, true, 10.0⟩] ∧ h'.journal.pauses = [1.0]) ∧
      ∃ failure, failure.kind = .request ∧
        (Reply.response 404 "Not Found" [] none).text url = .error failure := by
  intro url d replies h
  have haccepts : Downloader.Accepts ⟨false, ["t"]⟩ h.disk h.disk ["t"] :=
    ⟨rfl, ⟨_, _, rfl⟩, rfl, nofun⟩
  obtain ⟨n, events, -, hdecides, hrun⟩ :=
    retrying_exact.2.1 d url ⟨false, ["t"]⟩ h h.disk ["t"] haccepts
  have hsecond : Decides (fun i => (h.network.reply url i).content url) 2 1 := by
    refine ⟨by decide, ?_, fun _ => ?_⟩
    · intro i hi
      rw [Nat.lt_one_iff.mp hi]
      exact ⟨⟨.transient, "reset"⟩, rfl, rfl⟩
    · rintro ⟨failure, hfailure, -⟩
      cases hfailure
  obtain rfl := hdecides.unique hsecond
  obtain ⟨failure, hkind, -, htext⟩ :=
    retrying_exact.2.2.2.1 url "Not Found" 404 (by decide) (by decide)
  exact ⟨haccepts, ⟨_, hrun, rfl, rfl, rfl⟩, failure, hkind, (htext []).1⟩

/-- Into a file, a failure of the system is not passed on, although it is none of the request. -/
theorem system_failure_into_file :
    let url := "https://a.example/t"
    let failure : Failure := ⟨.system, "Input/output error"⟩
    let run := (⟨"client", 10.0⟩ : Downloader).fetchFile url ⟨false, ["t"]⟩
      (.bare ⟨[], [.failure failure]⟩)
    failure.isRequest = false ∧ (∃ h, run = .error (.failed (.ofRequest url failure)) h) ∧
      ∀ h, run ≠ .error (.ofRaised failure) h := by
  intro url failure run
  have hrun : ∃ h, run = .error (.failed (.ofRequest url failure)) h := ⟨_, rfl⟩
  refine ⟨rfl, hrun, ?_⟩
  intro h heq
  obtain ⟨h', hrun⟩ := hrun
  rw [hrun] at heq
  cases heq

end PointElevation
