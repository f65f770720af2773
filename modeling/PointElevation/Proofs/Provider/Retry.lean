import PointElevation.Proofs.Provider.Failure

/-!
# The query after a failed one

A failure is not remembered.  A query without a listing obtains it as if for the first time, and if
it gets it, it goes on like a query with a listing; a query whose tile has no file downloads it, and
if that comes, it goes on like a query for which the file was there.  All this is to say what the
query is equal to (`Service.loadsAfresh`, `Service.fetchesAfresh`).

There is one exception.  Before anything is downloaded the disk is asked whether the file is there,
and the disk may refuse the question, because a name on the path is too long.  What a failed query
has done may be the reason for that: on the way to a directory that is not there no name is too
long, and the query has made the directory.
-/

namespace PointElevation

open Host

variable {directory : Location} {key : TileKey} {url : String} {listing : Listing}

/-- The one reason for which a disk refuses to say whether something is there. -/
theorem Disk.nameTooLong_of_exists? {d : Disk} {p : FilePath} {fault : DiskFault}
    (h : d.exists? p = .error fault) : ∃ path, fault = .refused .nameTooLong path := by
  unfold exists? find at h
  split at h
  · cases h
  · cases h
    exact ⟨_, rfl⟩
  · cases h

/-! ## Equations of the stages -/

section Stages

variable {s t : Indexed} {path : FilePath} {downloader : Downloader}

theorem TileIndex.load_of_listing (h : s.index.listing = some listing) :
    TileIndex.load s = .ok listing s := by
  simp [load, bind_apply, get_apply, pure_apply, h]

/-- What the log says when the listing is loaded. -/
def TileIndex.loadedNote (listing : Listing) : String :=
  "Loaded " ++ toString listing.size ++ " swissalti3d tile URLs"

theorem TileIndex.load_of_none (h : s.index.listing = none) :
    TileIndex.load s =
      match s.index.obtain s.host with
      | .ok listing h' => .ok listing ⟨s.index.loaded listing, h'.note .info (loadedNote listing)⟩
      | .error fault h' => .error fault { s with host := h' } := by
  simp only [load, bind_apply, get_apply, h, onIndexedHost, onPart]
  cases s.index.obtain s.host <;> rfl

/-- The way to a raster depends on the state as far as loading the listing does. -/
theorem Provider.load_congr (h : TileIndex.load s = TileIndex.load t) :
    (pipeline path downloader).load key s = (pipeline path downloader).load key t := by
  simp only [Pipeline.load, pipeline, TileIndex.resolve, bind_apply, h]

theorem Provider.load_of_error {fault : Fault} (h : TileIndex.load s = .error fault t) :
    (pipeline path downloader).load key s = .error fault t := by
  simp only [Pipeline.load, pipeline, TileIndex.resolve, bind_apply, h]

/-- With a listing, the way to the raster of a tile is by its file. -/
theorem Provider.load_of_url (path : FilePath) (downloader : Downloader)
    (h : s.index.listing = some listing)
    (hurl : listing.url? key = some url) :
    (pipeline path downloader).load key s =
      match ensureTileFile path downloader key url s.host with
      | .ok file h' =>
          (do
            let raster ← onIndexedHost (readTile file elevationBand)
            pure (some raster)) { s with host := h' }
      | .error fault h' => .error fault { s with host := h' } := by
  simp only [Pipeline.load, pipeline, TileIndex.resolve, bind_apply, TileIndex.load_of_listing h,
    pure_apply, hurl, onIndexedHost, onPart]
  cases ensureTileFile path downloader key url s.host <;> rfl

/-- What the log says when a tile is downloaded. -/
def fetchingNote (key : TileKey) (url : String) : String :=
  "Fetching tile " ++ key ++ " from " ++ url

theorem ensureTileFile_of_absent {h : Host}
    (habsent : h.disk.exists? (tileFile path url) = .ok false) (downloader : Downloader)
    (key : TileKey) :
    ensureTileFile path downloader key url h =
      match downloader.fetchFile url (tileFile path url) (h.note .info (fetchingNote key url)) with
      | .ok _ h' => .ok (tileFile path url) h'
      | .error fault h' => .error (.ofFetch fault) h' := by
  unfold fetchingNote
  simp only [ensureTileFile, bind_apply, recast, askDisk, habsent, Bool.not_false, if_true, say,
    modify_apply]
  cases downloader.fetchFile url (tileFile path url) _ <;> rfl

theorem ensureTileFile_of_error {h : Host} {fault : DiskFault}
    (hfault : h.disk.exists? (tileFile path url) = .error fault) :
    ensureTileFile path downloader key url h = .error (.escaped (.ofDisk fault)) h := by
  simp only [ensureTileFile, bind_apply, recast, askDisk, hfault]

end Stages

namespace Service

variable {s t : Service} {position : Position} {latitude longitude : Float}

/-! ## Equations of a query -/

theorem lookup_of_locate (h : s.provider.projection.locate latitude longitude = .ok position) :
    lookup latitude longitude s = lookupCovered position s := by
  unfold Projection.locate at h
  simp only [lookup]
  split at h
  · cases h
  · rename_i hfinite
    rw [if_neg hfinite, bind_apply, get_apply]
    dsimp only
    split at h
    · cases h
    · rename_i position' hposition
      split at h
      · rename_i hcovered
        cases h
        simp only [hposition, if_pos hcovered]
      · cases h

/-- A service like another, but for index and host, answers a query for a raster that is not held in
the same way if the ways without memory are the same. -/
theorem lookup_eq_of_load (hplace : s.provider.projection.locate latitude longitude = .ok position)
    (hfree : s.provider.memory.find? position.tileKey = none)
    (hprovider : t.provider = { s.provider with index := t.provider.index })
    (hload : s.load position.tileKey s.indexed = s.load position.tileKey t.indexed) :
    lookup latitude longitude s = lookup latitude longitude t := by
  have hmemory : t.provider.memory = s.provider.memory := by rw [hprovider]
  have hplace' : t.provider.projection.locate latitude longitude = .ok position := by
    rw [hprovider]
    exact hplace
  have hway : t.load position.tileKey = s.load position.tileKey := by
    unfold load
    rw [hprovider]
  have hcached : t.withCached = s.withCached := by
    funext u
    rw [withCached, withCached, hprovider]
  have hraster : rasterOf position.tileKey s = rasterOf position.tileKey t := by
    rw [rasterOf_of_free hfree, rasterOf_of_free (hmemory ▸ hfree), hmemory, hway, hcached, hload]
  rw [lookup_of_locate hplace, lookup_of_locate hplace']
  simp only [lookupCovered, bind_apply, outcome, hraster]

/-- If the way without memory fails, the query for a raster that is not held ends with that. -/
theorem lookup_of_load_error
    (hplace : s.provider.projection.locate latitude longitude = .ok position)
    (hfree : s.provider.memory.find? position.tileKey = none) {fault : Fault} {h : Host}
    (hload : s.load position.tileKey s.indexed = .error fault ⟨s.provider.index, h⟩) :
    lookup latitude longitude s =
      degrade position.tileKey position fault { s with host := h } := by
  have hraster : rasterOf position.tileKey s = .error fault { s with host := h } := by
    rw [rasterOf_of_free hfree, hload]
    rfl
  rw [lookup_of_locate hplace]
  simp only [lookupCovered, bind_apply, outcome, hraster]

/-- The service with a listing that was obtained, on the host that this has left. -/
def withListing (s : Service) (listing : Listing) (h : Host) : Service :=
  ⟨{ s.provider with index := s.provider.index.loaded listing },
    h.note .info (TileIndex.loadedNote listing)⟩

/-- A query obtains the listing: with it, the query is one of a service that has it, and without it,
the query ends with what is wrong with it. -/
def LoadsAfresh (s : Service) (latitude longitude : Float) (position : Position) : Prop :=
  match s.provider.index.obtain s.host with
  | .ok listing h =>
      lookup latitude longitude s = lookup latitude longitude (s.withListing listing h)
  | .error fault h =>
      lookup latitude longitude s = degrade position.tileKey position fault { s with host := h }

theorem loadsAfresh (hplace : s.provider.projection.locate latitude longitude = .ok position)
    (hfree : s.provider.memory.find? position.tileKey = none)
    (hlisting : s.provider.index.listing = none) : s.LoadsAfresh latitude longitude position := by
  have hload := TileIndex.load_of_none (s := s.indexed) hlisting
  unfold LoadsAfresh
  cases hobtain : s.provider.index.obtain s.host with
  | ok listing h =>
      rw [indexed, hobtain] at hload
      refine lookup_eq_of_load hplace hfree rfl (Provider.load_congr ?_)
      exact hload.trans (TileIndex.load_of_listing rfl).symm
  | error fault h =>
      rw [indexed, hobtain] at hload
      exact lookup_of_load_error hplace hfree (Provider.load_of_error hload)

/-- A query asks for the file of its tile: if a name is too long for the question, this is raised,
and otherwise the file is downloaded.  With it, the query is one for which it was there, and without
it, the query ends with what is wrong with the download. -/
inductive FetchesAfresh (s : Service) (latitude longitude : Float) (position : Position)
    (url : String) : Prop
  | refused {path : FilePath} :
      s.host.disk.exists? (tileFile s.provider.directory url) =
          .error (.refused .nameTooLong path) →
        lookup latitude longitude s = .error (.ofDisk (.refused .nameTooLong path)) s →
          FetchesAfresh s latitude longitude position url
  | fetched {h : Host} :
      s.host.disk.exists? (tileFile s.provider.directory url) = .ok false →
        s.provider.downloader.fetchFile url (tileFile s.provider.directory url)
          (s.host.note .info (fetchingNote position.tileKey url)) = .ok () h →
            lookup latitude longitude s = lookup latitude longitude { s with host := h } →
              FetchesAfresh s latitude longitude position url
  | failed {fault : FetchFault} {h : Host} :
      s.host.disk.exists? (tileFile s.provider.directory url) = .ok false →
        s.provider.downloader.fetchFile url (tileFile s.provider.directory url)
          (s.host.note .info (fetchingNote position.tileKey url)) = .error fault h →
            lookup latitude longitude s =
                degrade position.tileKey position (.ofFetch fault) { s with host := h } →
              FetchesAfresh s latitude longitude position url

theorem fetchesAfresh (hdots : ".." ∉ directory)
    (hdirectory : s.provider.directory = .ofLocation directory)
    (hplace : s.provider.projection.locate latitude longitude = .ok position)
    (hfree : s.provider.memory.find? position.tileKey = none)
    (hlisting : s.provider.index.listing = some listing)
    (hurl : listing.url? position.tileKey = some url) (hkey : keyOfUrl? url = some position.tileKey)
    (habsent : s.host.disk.exists? (tileFile s.provider.directory url) ≠ .ok true) :
    s.FetchesAfresh latitude longitude position url := by
  have hload := Provider.load_of_url s.provider.directory s.provider.downloader
    (s := s.indexed) hlisting hurl
  have hmissed : ∀ (fault : Fault) (h : Host),
      ensureTileFile s.provider.directory s.provider.downloader position.tileKey url s.host =
        .error fault h → lookup latitude longitude s =
          degrade position.tileKey position fault { s with host := h } := by
    intro fault h hensure
    refine lookup_of_load_error hplace hfree ?_
    rw [load, hload, indexed, hensure]
  cases hexists : s.host.disk.exists? (tileFile s.provider.directory url) with
  | error fault =>
      obtain ⟨path, rfl⟩ := Disk.nameTooLong_of_exists? hexists
      exact .refused hexists (hmissed _ _ (ensureTileFile_of_error hexists))
  | ok present =>
      cases present with
      | true => exact absurd hexists habsent
      | false =>
          have hensure := ensureTileFile_of_absent hexists s.provider.downloader position.tileKey
          cases hfetch : s.provider.downloader.fetchFile url (tileFile s.provider.directory url)
              (s.host.note .info (fetchingNote position.tileKey url)) with
          | error fault h =>
              rw [hfetch] at hensure
              exact .failed hexists hfetch (hmissed _ _ hensure)
          | ok _ h =>
              rw [hfetch] at hensure
              -- the file is there now, so looking for it again leaves the host as it is
              obtain ⟨publication⟩ := (Downloader.ends_fetchFile _ _ _ _).of_ok hfetch
              have hthere := Ensured.fetched publication hexists
              rw [hdirectory] at hthere
              have hpresent := hthere.exists?_eq hdots hkey
              rw [← hdirectory] at hpresent
              have hagain := ensureTileFile_of_exists hpresent s.provider.downloader
                position.tileKey
              have hload' := Provider.load_of_url s.provider.directory s.provider.downloader
                (s := ⟨s.provider.index, h⟩) hlisting hurl
              refine .fetched hexists hfetch (lookup_eq_of_load hplace hfree rfl ?_)
              rw [load, hload, indexed, hensure, indexed, hload', hagain]

/-! ## Failures leave no trace -/

/-- The service with another network. -/
def online (s : Service) (n : Network) : Service := { s with host := { s.host with network := n } }

/-- What a query that has failed has left, and what the next one does, on whatever network. -/
structure FailsCleanly (directory : Location) (s : Service) (latitude longitude : Float)
    (answer : Lookup) (s' : Service) : Prop where
  /-- without a listing nothing has changed, in memory or in any file, and the listing is obtained
  again -/
  unavailable : answer.status = .indexUnavailable →
    s'.provider = s.provider ∧ s.provider.index.listing = none ∧
      (∀ l content, s'.host.disk.tree.get? l = some (.file content) ↔
        s.host.disk.tree.get? l = some (.file content)) ∧
        ∀ n, (s'.online n).LoadsAfresh latitude longitude answer.position
  /-- the listing is loaded otherwise, and all that may be new is its file -/
  loaded : answer.status = .noTile ∨ answer.status = .downloadFailed → ∃ listing,
    s'.provider = { s.provider with index := s.provider.index.loaded listing } ∧
      Disk.Spared directory s.host.disk s'.host.disk
  /-- a tile that could not be downloaded is downloaded again -/
  downloadFailed : answer.status = .downloadFailed → ∃ listing url,
    s'.provider.index.listing = some listing ∧
      listing.url? answer.position.tileKey = some url ∧
        ∀ n, (s'.online n).FetchesAfresh latitude longitude answer.position url

/-- The file of a tile does not exist after its download has failed. -/
theorem not_exists_of_unensured {h h' : Host} {fault : Fault} (hrooted : h.disk.tree.Rooted)
    (hdots : ".." ∉ directory) (hkey : keyOfUrl? url = some key)
    (hunensured : Unensured (tileFile (.ofLocation directory) url) url h fault h')
    (hfault : ∀ cause, fault ≠ .escaped cause) :
    h'.disk.exists? (tileFile (.ofLocation directory) url) ≠ .ok true := by
  have hfile := dots_notMem_append hdots (isFileName_fileName hkey)
  have hgrown := hunensured.grown hdots hkey
  intro hthere
  rw [tileFile_eq hkey, exists?_place_eq_true_iff hfile, hgrown.get?_name] at hthere
  obtain ⟨hnameable, -, hlisted⟩ := hthere
  cases hunensured with
  | unasked _ => exact hfault _ rfl
  | unpublished habsent _ _ =>
      rw [tileFile_eq hkey] at habsent
      exact hlisted (Disk.get?_of_exists?_false hrooted hfile hnameable habsent)

/-- A query that has come to the listing has loaded it, and done nothing else that lasts. -/
theorem Sound.loaded_of_fails (h : s.Sound directory) {status : Status}
    (hfails : s.Fails directory key status t)
    (hstatus : status = .noTile ∨ status = .downloadFailed) :
    ∃ listing, t.provider = { s.provider with index := s.provider.index.loaded listing } ∧
      Disk.Spared directory s.host.disk t.host.disk := by
  have hdots := h.coherent.dots
  have hplaced := h.coherent.caches.place
  cases hfails with
  | unavailable _ _ => simp at hstatus
  | @noTile listing u hloads _ =>
      refine ⟨listing, ?_, hloads.spared hdots hplaced h.rooted⟩
      rw [withCached, hloads.index_eq]
      rfl
  | @downloadFailed listing url u cause h' hloads hurl hunensured =>
      have hkey := hloads.keyed h.coherent.caches.keyed _ _ hurl
      refine ⟨listing, ?_, ?_⟩
      · rw [withCached, hloads.index_eq]
        rfl
      · exact (hloads.spared hdots hplaced h.rooted).grown (hunensured.grown hdots hkey)

/-- A query whose download has failed has left the tile without a file. -/
theorem Sound.absent_of_fails (h : s.Sound directory)
    (hfails : s.Fails directory key .downloadFailed t) :
    ∃ listing url, t.provider.index.listing = some listing ∧ listing.url? key = some url ∧
      keyOfUrl? url = some key ∧
        t.host.disk.exists? (tileFile (.ofLocation directory) url) ≠ .ok true := by
  have hdots := h.coherent.dots
  cases hfails with
  | @downloadFailed listing url u cause h' hloads hurl hunensured =>
      have hkey := hloads.keyed h.coherent.caches.keyed _ _ hurl
      have hrooted := hloads.rooted hdots h.coherent.caches.place h.rooted
      refine ⟨listing, url, hloads.listing_eq, hurl, hkey, ?_⟩
      exact not_exists_of_unensured hrooted hdots hkey hunensured fun _ => Fault.noConfusion

theorem Sound.failsCleanly {s s' : Service} (h : s.Sound directory) {answer : Lookup}
    (hrun : lookup latitude longitude s = .ok answer s') :
    s.FailsCleanly directory latitude longitude answer s' := by
  have hlogged : ∀ {s₁ : Service}, s₁.Logged s' →
      s'.provider = s₁.provider ∧ s'.host.disk = s₁.host.disk := by
    rintro s₁ (rfl | ⟨level, text, rfl⟩) <;> exact ⟨rfl, rfl⟩
  constructor
  · intro hstatus
    obtain ⟨hplace, hfree, s₁, hfails, hlog⟩ := h.fails_of_lookup hrun (.inl hstatus)
    obtain ⟨hprovider, hdisk⟩ := hlogged hlog
    rw [hstatus] at hfails
    cases hfails with
    | unavailable hlisting hunobtained =>
        have hgrown := hunobtained.grown h.coherent.dots h.coherent.caches.place
        refine ⟨hprovider, hlisting, fun l content => ?_, fun n => loadsAfresh ?_ ?_ ?_⟩
        · rw [hdisk]
          exact hgrown.file_iff l content
        · rw [online, hprovider]
          exact hplace
        · rw [online, hprovider]
          exact hfree
        · rw [online, hprovider]
          exact hlisting
  · intro hstatus
    obtain ⟨-, -, s₁, hfails, hlog⟩ := h.fails_of_lookup hrun (.inr hstatus)
    obtain ⟨hprovider, hdisk⟩ := hlogged hlog
    rw [hdisk, hprovider]
    exact h.loaded_of_fails hfails hstatus
  · intro hstatus
    obtain ⟨hplace, hfree, s₁, hfails, hlog⟩ := h.fails_of_lookup hrun (.inr (.inr hstatus))
    obtain ⟨hprovider, hdisk⟩ := hlogged hlog
    have hfailed := hfails
    rw [hstatus] at hfailed
    obtain ⟨listing, url, hlisting, hurl, hkey, habsent⟩ := h.absent_of_fails hfailed
    obtain ⟨_, hsame, -⟩ := h.loaded_of_fails hfails (.inr hstatus)
    rw [← hprovider] at hlisting hsame
    refine ⟨listing, url, hlisting, hurl, fun n => ?_⟩
    have hdirectory : s'.provider.directory = .ofLocation directory := by
      rw [hsame]
      exact h.coherent.place
    refine fetchesAfresh (s := s'.online n) h.coherent.dots hdirectory ?_ ?_ hlisting hurl hkey ?_
    · rw [online, hsame]
      exact hplace
    · rw [online, hsame]
      exact hfree
    · rw [online, hdisk, hdirectory]
      exact habsent

/-- In every state of a provider, over a disk as disks are and a network whose failures name no
stage of the service: a query that is answered by no listing, no tile or a failed download has
touched no raster in memory and no file but possibly that of the listing, has loaded the listing
exactly if it got that far, and is not remembered.  The one thing that keeps the next query from
trying again is a name that is too long for the disk to be asked about. -/
theorem lookup_fails_cleanly {s₀ s' : Service} (h : s₀.Opened) (hrooted : s₀.host.disk.tree.Rooted)
    (honly : s₀.host.network.Only (Reply.FailsAs Failure.Unstaged)) (actions : List Action)
    {answer : Lookup}
    (hrun : lookup latitude longitude (s₀.performAll actions).2 = .ok answer s') :
    ∃ directory, s₀.provider.directory = .ofLocation directory ∧
      (s₀.performAll actions).2.FailsCleanly directory latitude longitude answer s' := by
  obtain ⟨directory, hcoherent⟩ := h.coherent
  have hsound : s₀.Sound directory := ⟨hcoherent, hrooted, honly⟩
  exact ⟨directory, hcoherent.place, ((kept_sound directory).performAll actions hsound).failsCleanly
    hrun⟩

/-- So it is on a bare host with a network on which all requests fail. -/
theorem lookup_fails_cleanly_bare :
    ∃ answer s', lookup 46.95 7.44 ⟨.fixed, .bare ⟨[], []⟩⟩ = .ok answer s' ∧
      answer.status = .indexUnavailable ∧ s'.provider = .fixed ∧
        ∀ n, (s'.online n).LoadsAfresh 46.95 7.44 answer.position := by
  have hopened : Opened ⟨.fixed, .bare ⟨[], []⟩⟩ :=
    .intro .fixed (Provider.create_bare _ 10.0 false)
  have hrooted : (bare ⟨[], []⟩).disk.tree.Rooted := FileTree.rooted_empty
  have honly : Network.Only (Reply.FailsAs Failure.Unstaged) ⟨[], []⟩ :=
    fun url r hmay => absurd hmay List.not_mem_nil
  have hrun : ∃ s', lookup 46.95 7.44 ⟨.fixed, .bare ⟨[], []⟩⟩ =
      .ok (.without .indexUnavailable ⟨2600000, 1200000⟩ (some "2600-1200")) s' := ⟨_, rfl⟩
  obtain ⟨s', hrun⟩ := hrun
  obtain ⟨directory, -, hclean⟩ := lookup_fails_cleanly hopened hrooted honly [] hrun
  obtain ⟨hprovider, -, -, hagain⟩ := hclean.unavailable rfl
  exact ⟨_, s', hrun, rfl, hprovider, hagain⟩

end Service

end PointElevation
