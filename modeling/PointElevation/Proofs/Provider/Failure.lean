import PointElevation.Proofs.Disk.Rooted
import PointElevation.Proofs.Provider.Settled

/-!
# What a failed query leaves behind

A query fails before it comes to a tile if there is no listing, if the listing has no such tile, or
if its file cannot be downloaded.  It may have asked many times by then and got parts of bodies.  It
has not touched the rasters in memory, though, and all files are as they were, but that the file of
the listing may be new; and the listing is loaded exactly if the query got that far.

For the files to be told apart from what is merely listed, the disk must be as disks are
(`FileTree.Rooted`), which all actions keep (`kept_sound`).
-/

namespace PointElevation

open Host
open PointElevation.Downloader (Published Unpublished)
open PointElevation.TileIndex (Obtained Unobtained Loads)

variable {directory : Location} {name url : String} {key : TileKey}

/-! ## Disks stay as disks are -/

section Rooted

variable {h h' : Host} {index : TileIndex} {listing : Listing} {s s' : Indexed}

theorem Downloader.Published.rooted
    (publication : Published url (.ofLocation (directory ++ [name])) h h')
    (hdots : ".." ∉ directory ++ [name]) (hrooted : h.disk.tree.Rooted) :
    h'.disk.tree.Rooted := by
  have hdirectory : ".." ∉ directory := fun hmem => hdots (List.mem_append_left _ hmem)
  have hmake := publication.directories
  rw [parent_ofLocation] at hmake
  obtain ⟨hlocate, hplain⟩ := publication.takes
  obtain ⟨hplace, -, hreach⟩ := (locate_place_eq_ok_iff hdots).mp hlocate
  rw [publication.disk_eq]
  rw [hplace] at hplain ⊢
  exact ((Disk.rooted_makeDirectories hdirectory hrooted).of_ok hmake).insert hreach.here
    (.inr hplain)

theorem Downloader.Unpublished.rooted {failure : Failure}
    (hfail : Unpublished url (.ofLocation (directory ++ [name])) h h' failure)
    (hdots : ".." ∉ directory) (hrooted : h.disk.tree.Rooted) : h'.disk.tree.Rooted := by
  have hends := Disk.rooted_makeDirectories hdots hrooted
  rw [← parent_ofLocation directory name] at hends
  cases hfail with
  | refused hrefuses =>
      cases hrefuses with
      | directories hmake => exact hends.of_error hmake
      | sibling hmake _ => exact hends.of_ok hmake
      | place hmake _ _ _ => exact hends.of_ok hmake
  | reply hmake _ _ _ => exact hends.of_ok hmake

theorem TileIndex.Unobtained.rooted {fault : Fault} (hunobtained : Unobtained index h fault h')
    (hdots : ".." ∉ directory) (hplace : index.directory = .ofLocation directory)
    (hrooted : h.disk.tree.Rooted) : h'.disk.tree.Rooted := by
  cases hunobtained with
  | unasked _ => exact hrooted
  | unreadable _ _ => exact hrooted
  | unanswered _ hasked => exact hasked.disk ▸ hrooted
  | unaddressed _ hasked _ => exact hasked.disk ▸ hrooted
  | unpublished _ hasked _ _ hfail =>
      rw [mappingFile_eq hplace] at hfail
      exact hfail.rooted hdots (hasked.disk ▸ hrooted)

theorem TileIndex.Loads.rooted (hloads : Loads s listing s') (hdots : ".." ∉ directory)
    (hplace : s.index.directory = .ofLocation directory) (hrooted : s.host.disk.tree.Rooted) :
    s'.host.disk.tree.Rooted := by
  cases hloads with
  | held _ => exact hrooted
  | @obtained h₁ text _ hobtained =>
      change h₁.disk.tree.Rooted
      cases hobtained with
      | present _ _ => exact hrooted
      | fetched publication _ hasked _ =>
          rw [mappingFile_eq hplace] at publication
          exact publication.rooted (dots_notMem_append hdots isFileName_mappings)
            (hasked.disk ▸ hrooted)

theorem Ensured.rooted (hensured : Ensured (tileFile (.ofLocation directory) url) url h h')
    (hdots : ".." ∉ directory) (hkey : keyOfUrl? url = some key)
    (hrooted : h.disk.tree.Rooted) : h'.disk.tree.Rooted := by
  cases hensured with
  | present _ => exact hrooted
  | fetched publication _ =>
      rw [tileFile_eq hkey] at publication
      exact publication.rooted (dots_notMem_append hdots (isFileName_fileName hkey)) hrooted

theorem Unensured.rooted {fault : Fault}
    (hunensured : Unensured (tileFile (.ofLocation directory) url) url h fault h')
    (hdots : ".." ∉ directory) (hkey : keyOfUrl? url = some key)
    (hrooted : h.disk.tree.Rooted) : h'.disk.tree.Rooted := by
  cases hunensured with
  | unasked _ => exact hrooted
  | unpublished _ _ hfail =>
      rw [tileFile_eq hkey] at hfail
      exact hfail.rooted hdots hrooted

theorem Caches.Coherent.endsIn_load_rooted {limit : Int} {memory : RasterMemory}
    (h : Coherent directory limit memory s) (hdots : ".." ∉ directory)
    (hrooted : s.host.disk.tree.Rooted) (downloader : Downloader) (key : TileKey) :
    EndsIn ((Provider.pipeline (.ofLocation directory) downloader).load key) s
      fun s' => s'.host.disk.tree.Rooted := by
  have hloaded : ∀ listing s₁, TileIndex.load s = .ok listing s₁ →
      s₁.host.disk.tree.Rooted ∧ listing.Keyed := by
    intro listing s₁ hload
    have hloads := TileIndex.loads_of_load hload
    exact ⟨hloads.rooted hdots h.place hrooted, hloads.keyed h.keyed⟩
  refine (Provider.ends_pipeline_load _ downloader key s).mono ?_ ?_
  · intro found s' hfinds
    cases hfinds with
    | nothing hload _ => exact (hloaded _ _ hload).1
    | raster hload hurl hensured _ =>
        obtain ⟨hrooted₁, hkeyed⟩ := hloaded _ _ hload
        exact hensured.rooted hdots (hkeyed _ _ hurl) hrooted₁
  · intro fault s' hmisses
    cases hmisses with
    | unlisted _ _ hunobtained => exact hunobtained.rooted hdots h.place hrooted
    | unensured hload hurl hunensured =>
        obtain ⟨hrooted₁, hkeyed⟩ := hloaded _ _ hload
        exact hunensured.rooted hdots (hkeyed _ _ hurl) hrooted₁
    | undecoded hload hurl hensured _ =>
        obtain ⟨hrooted₁, hkeyed⟩ := hloaded _ _ hload
        exact hensured.rooted hdots (hkeyed _ _ hurl) hrooted₁

end Rooted

/-! ## Every fault has its stage -/

section Stages

variable {h h' : Host} {failure : Failure} {fault : Fault}

theorem Failure.unstaged_of_isRequest (f : Failure) (h : f.isRequest = true) : f.Unstaged :=
  Failure.IsOrderly.unstaged (.inl h)

/-- Unless replies name a stage of their own, no listing is a matter of the index, or goes on. -/
theorem TileIndex.Unobtained.index_or_escaped {index : TileIndex}
    (hunobtained : Unobtained index h fault h')
    (honly : h.network.Only (Reply.FailsAs Failure.Unstaged)) :
    (∃ cause, fault = .index cause) ∨ ∃ cause, fault = .escaped cause := by
  have hfetch : ∀ (url : String) (own : Bool) (failure : Failure), failure.Unstaged →
      (∃ cause, faultOfFetch (.ofFailure url own failure) = .index cause) ∨
        ∃ cause, faultOfFetch (.ofFailure url own failure) = .escaped cause := by
    intro url own failure hunstaged
    rw [FetchFault.ofFailure_of_unstaged hunstaged]
    cases own with
    | true => exact .inl ⟨_, rfl⟩
    | false => exact .inr ⟨_, Fault.ofFailure_of_unstaged hunstaged⟩
  cases hunobtained with
  | unasked _ => exact .inr ⟨_, rfl⟩
  | unreadable _ _ => exact .inl ⟨_, rfl⟩
  | unanswered _ hasked =>
      exact hfetch _ _ _ (hasked.failsAs honly Failure.unstaged_of_isRequest)
  | @unaddressed reply cause _ _ _ _ =>
      cases cause with
      | malformed _ => exact .inl ⟨_, rfl⟩
      | tooDeep _ => exact .inr ⟨_, rfl⟩
  | unpublished _ hasked _ _ hfail =>
      exact hfetch _ _ _ (hfail.failsAs (hasked.runs.only honly) Failure.unstaged_of_isRequest
        Failure.unstaged_ofDisk)

/-- So the file of a tile is a matter of the download. -/
theorem Unensured.download_or_escaped {path : FilePath}
    (hunensured : Unensured path url h fault h')
    (honly : h.network.Only (Reply.FailsAs Failure.Unstaged)) :
    (∃ cause, fault = .download cause) ∨ ∃ cause, fault = .escaped cause := by
  cases hunensured with
  | unasked _ => exact .inr ⟨_, rfl⟩
  | @unpublished failure _ _ _ _ hfail =>
      have hunstaged := hfail.failsAs honly Failure.unstaged_of_isRequest Failure.unstaged_ofDisk
      rw [FetchFault.ofFailure_of_unstaged hunstaged]
      cases failure.isRequest || failure.kind = .system with
      | true => exact .inl ⟨_, rfl⟩
      | false => exact .inr ⟨_, Fault.ofFailure_of_unstaged hunstaged⟩

end Stages

/-! ## Sound services -/

/-- The caches are coherent, the disk is as disks are, and no reply names a stage of the service. -/
structure Service.Sound (directory : Location) (s : Service) : Prop where
  coherent : s.Coherent directory RasterMemory.defaultLimit
  rooted : s.host.disk.tree.Rooted
  network : s.host.network.Only (Reply.FailsAs Failure.Unstaged)

theorem Service.kept_sound (directory : Location) : Kept (Sound directory) where
  noted := fun _ level text h => ⟨h.coherent.noted level text, h.rooted, h.network⟩
  rasterOf := fun s position h => by
    have hrooted := h.coherent.caches.endsIn_load_rooted h.coherent.dots h.rooted
      s.provider.downloader position.tileKey
    have hruns := Provider.endsIn_load_runs (.ofLocation directory) s.provider.downloader
      position.tileKey s.indexed
    have hload := h.coherent.ends_rasterOf_of_load position (fun _ _ _ _ hgood => hgood)
      (hrooted.and hruns)
    refine ((h.coherent.ends_rasterOf position).and hload).mono ?_ ?_
    · exact fun _ _ hgood => ⟨hgood.1.1, hgood.2.1, hgood.2.2.only h.network⟩
    · exact fun _ _ hbad => ⟨hbad.1.1, hbad.2.1, hbad.2.2.only h.network⟩
  setAutoRemove := fun s autoRemove h =>
    ⟨(kept_coherent directory _).setAutoRemove s autoRemove h.coherent, h.rooted, h.network⟩
  release := fun s h => by
    have hreleased : ∀ s', Released directory s s' → s'.Sound directory := by
      intro s' hreleased
      refine ⟨h.coherent.released hreleased, ?_, hreleased.network ▸ h.network⟩
      rcases hreleased.disk with heq | heq
      · exact heq ▸ h.rooted
      · exact heq ▸ h.rooted.eraseTree directory
    exact (ends_release h.coherent.dots h.coherent.place).mono (fun _ => hreleased)
      fun _ => hreleased

/-! ## Files that are spared -/

namespace Disk

variable {d d' d'' : Disk}

/-- Making directories makes and changes no file. -/
theorem Grown.file_iff (h : Grown directory d d') (l : Location) (content : ByteArray) :
    d'.tree.get? l = some (.file content) ↔ d.tree.get? l = some (.file content) := by
  rcases h.get? l with hsame | ⟨-, hnone, hdir⟩
  · rw [hsame]
  · simp [hnone, hdir]

/-- All files of the first disk are as they were, and at most that of the listing is new. -/
structure Spared (directory : Location) (d d' : Disk) : Prop where
  kept : ∀ l content, d.tree.get? l = some (.file content) →
    d'.tree.get? l = some (.file content)
  new : ∀ l content, d'.tree.get? l = some (.file content) →
    d.tree.get? l = some (.file content) ∨
      l = directory ++ [mappingsName] ∧ d.tree.get? l = none

theorem Spared.refl (directory : Location) (d : Disk) : Spared directory d d :=
  ⟨fun _ _ hfile => hfile, fun _ _ hfile => .inl hfile⟩

theorem Spared.grown (h : Spared directory d d') (hgrown : Grown directory d' d'') :
    Spared directory d d'' where
  kept := fun l content hfile => (hgrown.file_iff l content).mpr (h.kept l content hfile)
  new := fun l content hfile => h.new l content ((hgrown.file_iff l content).mp hfile)

/-- The file of the listing may come where it does not exist. -/
theorem Gained.spared {bytes : ByteArray} (h : Gained directory mappingsName bytes d d')
    (hrooted : d.tree.Rooted) (hdots : ".." ∉ directory)
    (habsent : d.exists? (.ofLocation (directory ++ [mappingsName])) = .ok false) :
    Spared directory d d' := by
  have hfile := dots_notMem_append hdots isFileName_mappings
  have hnone := get?_of_exists?_false hrooted hfile h.nameable habsent
  constructor
  · intro l content hget
    have hne : l ≠ directory ++ [mappingsName] := by
      rintro rfl
      rw [hnone] at hget
      cases hget
    rcases h.elsewhere l hne with hsame | ⟨-, hfree, -⟩
    · rw [hsame, hget]
    · rw [hfree] at hget
      cases hget
  · intro l content hget
    by_cases heq : l = directory ++ [mappingsName]
    · subst heq
      exact .inr ⟨rfl, hnone⟩
    · rcases h.elsewhere l heq with hsame | ⟨-, -, hdir⟩
      · exact .inl (hsame ▸ hget)
      · rw [hdir] at hget
        cases hget

end Disk

/-- Loading the listing spares all files. -/
theorem TileIndex.Loads.spared {s s' : Indexed} {listing : Listing} (hloads : Loads s listing s')
    (hdots : ".." ∉ directory) (hplace : s.index.directory = .ofLocation directory)
    (hrooted : s.host.disk.tree.Rooted) :
    Disk.Spared directory s.host.disk s'.host.disk := by
  cases hloads with
  | held _ => exact .refl _ _
  | @obtained h₁ text _ hobtained =>
      change Disk.Spared directory s.host.disk h₁.disk
      rcases hobtained.gained hdots hplace with heq | ⟨bytes, hgained, habsent⟩
      · exact heq ▸ .refl _ _
      · exact hgained.spared hrooted hdots habsent

/-- The index with a listing. -/
def TileIndex.loaded (index : TileIndex) (listing : Listing) : TileIndex :=
  { index with listing := some listing }

theorem TileIndex.Loads.index_eq {s s' : Indexed} {listing : Listing}
    (hloads : Loads s listing s') : s'.index = s.index.loaded listing := by
  cases hloads with
  | held hlisting => rw [loaded, ← hlisting]
  | obtained _ _ => rfl

/-! ## Ways that find nothing -/

namespace Service

variable {s s' : Service}

/-- The way to a raster without memory, for the provider of a service. -/
def load (s : Service) (key : TileKey) : IndexedM (Option Raster) :=
  (Provider.pipeline s.provider.directory s.provider.downloader).load key

theorem rasterOf_eq (s : Service) (key : TileKey) :
    rasterOf key s =
      match (Provider.pipeline s.provider.directory s.provider.downloader).get key s.cached with
      | .ok found t => .ok found (s.withCached t)
      | .error fault t => .error fault (s.withCached t) := by
  simp only [rasterOf, bind_apply, get_apply, onCached, onPart]
  cases (Provider.pipeline s.provider.directory s.provider.downloader).get key s.cached <;> rfl

/-- A raster that is held is found. -/
theorem rasterOf_of_held {raster : Raster} (hheld : s.provider.memory.find? key = some raster) :
    ∃ s', rasterOf key s = .ok (some raster) s' := by
  rw [rasterOf_eq, cached, Pipeline.get_of_held hheld]
  exact ⟨_, rfl⟩

/-- A raster that is not held is looked for without memory, and if none is found, the memory is as
it was. -/
theorem rasterOf_of_free (hfree : s.provider.memory.find? key = none) :
    rasterOf key s =
      match s.load key s.indexed with
      | .error fault t => .error fault (s.withCached (s.provider.memory, t))
      | .ok none t => .ok none (s.withCached (s.provider.memory, t))
      | .ok (some raster) t =>
          .ok (some raster) (s.withCached (s.provider.memory.insert key raster,
            if s.provider.memory.overfull then
              { t with host := t.host.note .debug Provider.emptiedNote }
            else t)) := by
  rw [rasterOf_eq, cached, Pipeline.get_of_free hfree, load, indexed]
  cases (Provider.pipeline s.provider.directory s.provider.downloader).load key
      ⟨s.provider.index, s.host⟩ with
  | error fault t => rfl
  | ok found t => cases found <;> rfl

/-! ## The ways to fail -/

/-- A query for a tile has failed before it came to the file of the tile: how it is answered, and
what it has left. -/
inductive Fails (directory : Location) (s : Service) (key : TileKey) : Status → Service → Prop
  | unavailable {cause : IndexFault} {h' : Host} : s.provider.index.listing = none →
      Unobtained s.provider.index s.host (.index cause) h' →
        Fails directory s key .indexUnavailable { s with host := h' }
  | noTile {listing : Listing} {t : Indexed} : Loads s.indexed listing t →
      listing.url? key = none →
        Fails directory s key .noTile (s.withCached (s.provider.memory, t))
  | downloadFailed {listing : Listing} {url : String} {t : Indexed} {cause : DownloadFault}
      {h' : Host} : Loads s.indexed listing t → listing.url? key = some url →
        Unensured (tileFile (.ofLocation directory) url) url t.host (.download cause) h' →
          Fails directory s key .downloadFailed
            (s.withCached (s.provider.memory, { t with host := h' }))

theorem Sound.fails_of_load_none (h : s.Sound directory) {t : Indexed}
    (hload : s.load key s.indexed = .ok none t) :
    s.Fails directory key .noTile (s.withCached (s.provider.memory, t)) := by
  rw [load, h.coherent.place] at hload
  have hends :=
    Provider.ends_pipeline_load (.ofLocation directory) s.provider.downloader key s.indexed
  cases hends.of_ok hload with
  | nothing hlisted hurl =>
      exact .noTile (TileIndex.loads_of_load hlisted) hurl

/-- What is missing is said by the fault: the listing is a matter of the index, and the file of a
tile is one of the download. -/
theorem Sound.fails_of_load_error (h : s.Sound directory) {fault : Fault} {t : Indexed}
    (hload : s.load key s.indexed = .error fault t) :
    ((∃ cause, fault = .index cause) →
      s.Fails directory key .indexUnavailable (s.withCached (s.provider.memory, t))) ∧
    ((∃ cause, fault = .download cause) →
      s.Fails directory key .downloadFailed (s.withCached (s.provider.memory, t))) := by
  rw [load, h.coherent.place] at hload
  have hends :=
    Provider.ends_pipeline_load (.ofLocation directory) s.provider.downloader key s.indexed
  cases hends.of_error hload with
  | unlisted _ hlisting hunobtained =>
      constructor
      · rintro ⟨cause, rfl⟩
        exact .unavailable hlisting hunobtained
      · rintro ⟨cause, rfl⟩
        rcases hunobtained.index_or_escaped h.network with ⟨_, heq⟩ | ⟨_, heq⟩ <;> cases heq
  | unensured hlisted hurl hunensured =>
      have hloads := TileIndex.loads_of_load hlisted
      constructor
      · rintro ⟨cause, rfl⟩
        have honly := hloads.runs.only h.network
        rcases hunensured.download_or_escaped honly with ⟨_, heq⟩ | ⟨_, heq⟩ <;> cases heq
      · rintro ⟨cause, rfl⟩
        exact .downloadFailed hloads hurl hunensured
  | undecoded _ _ _ _ => simp

/-- Looking for a raster fails in one of these ways, and only if it is not held. -/
theorem Sound.ends_rasterOf (h : s.Sound directory) (key : TileKey) :
    Ends (rasterOf key) s
      (fun found s' => found = none → s.provider.memory.find? key = none ∧
        s.Fails directory key .noTile s')
      (fun fault s' => s.provider.memory.find? key = none ∧
        ((∃ cause, fault = .index cause) → s.Fails directory key .indexUnavailable s') ∧
        ((∃ cause, fault = .download cause) → s.Fails directory key .downloadFailed s')) := by
  cases hfind : s.provider.memory.find? key with
  | some raster =>
      obtain ⟨s', hrun⟩ := rasterOf_of_held hfind
      exact (ends_of_ok hrun).mpr nofun
  | none =>
      have hrun := rasterOf_of_free hfind
      cases hload : s.load key s.indexed with
      | error fault t =>
          rw [hload] at hrun
          exact (ends_of_error hrun).mpr ⟨rfl, h.fails_of_load_error hload⟩
      | ok found t =>
          rw [hload] at hrun
          cases found with
          | some raster => exact (ends_of_ok hrun).mpr nofun
          | none => exact (ends_of_ok hrun).mpr fun _ => ⟨rfl, h.fails_of_load_none hload⟩

end Service

namespace Lookup

theorem status_ofFound_some (position : Position) (raster : Raster) :
    (ofFound position (some raster)).status = .ok ∨
      (ofFound position (some raster)).status = .noData ∨
        (ofFound position (some raster)).status = .decodeFailed := by
  simp only [ofFound]
  cases raster.sample position with
  | error missing => exact .inr (.inr rfl)
  | ok value =>
      dsimp only
      by_cases hmissing : value.isNaN = true
      · rw [if_pos hmissing]
        exact .inr (.inl rfl)
      · rw [if_neg hmissing]
        exact .inl rfl

end Lookup

/-- A query that is answered like this has failed in the way that the answer says. -/
theorem Service.Sound.fails_of_lookup {s s' : Service} (h : s.Sound directory)
    {latitude longitude : Float} {answer : Lookup}
    (hrun : lookup latitude longitude s = .ok answer s')
    (hstatus : answer.status = .indexUnavailable ∨ answer.status = .noTile ∨
      answer.status = .downloadFailed) :
    s.provider.projection.locate latitude longitude = .ok answer.position ∧
      s.provider.memory.find? answer.position.tileKey = none ∧
        ∃ s₁, s.Fails directory answer.position.tileKey answer.status s₁ ∧ s₁.Logged s' := by
  cases (ends_lookup latitude longitude s).of_ok hrun with
  | outside hplace _ =>
      rw [Projection.status_locate hplace] at hstatus
      simp at hstatus
  | @found position found s₁ _ hplace hfound hlog =>
      cases found with
      | none =>
          obtain ⟨hfree, hfails⟩ := (h.ends_rasterOf position.tileKey).of_ok hfound rfl
          exact ⟨hplace, hfree, s₁, hfails, hlog⟩
      | some raster =>
          rcases Lookup.status_ofFound_some position raster with heq | heq | heq <;>
            simp [heq] at hstatus
  | @degraded position fault _ s₁ _ hplace hmissed hanswer hlog =>
      obtain ⟨hfree, hindex, hdownload⟩ := (h.ends_rasterOf position.tileKey).of_error hmissed
      cases fault with
      | index cause =>
          cases hanswer
          exact ⟨hplace, hfree, s₁, hindex ⟨cause, rfl⟩, hlog⟩
      | download cause =>
          cases hanswer
          exact ⟨hplace, hfree, s₁, hdownload ⟨cause, rfl⟩, hlog⟩
      | decode cause =>
          cases hanswer
          simp [Lookup.without] at hstatus
      | escaped cause => cases hanswer

end PointElevation
