import PointElevation.Proofs.Provider.Escape
import PointElevation.Proofs.Provider.Onward

/-!
# What the disk alone answers

An answer comes from memory, from the disk or from the network.  By the time that it is given, the
disk has all that it takes to give it again: the listing and the file of the tile are put there
before they are used.  `Disk.Holds` says what a disk has for a key, and there are three facts about
it, on which everything here is built.

* A query that has come to an end with the tile leaves a disk that holds its answer
  (`Service.Coherent.holds_of_lookup`).
* What a disk holds stays as it is, as long as the directory is not removed (`kept_holds`).
* What a disk holds is answered from the disk, by every provider over the directory
  (`Service.Coherent.ends_lookup_of_holds`).

For a file that cannot be decoded, the first fact needs something of the network: a request may fail
in words of the last stage, and then the query ends as if there had been a file.
`Failure.LeavesDecoding` excludes this.
-/

namespace PointElevation

open PointElevation.Downloader (Published Unpublished)
open PointElevation.TileIndex (Obtained Unobtained Loads)
open PointElevation.Text (decodeAscii)

variable {directory : Location} {d d' : Disk} {key : TileKey} {listing : Listing} {url : String}
  {result : Except DecodeFault (Option Raster)}

/-! ## What a disk holds -/

namespace Disk

/-- The file of the listing can be read, and this is in it. -/
def Lists (directory : Location) (d : Disk) (listing : Listing) : Prop :=
  ∃ bytes, d.read (.ofLocation (directory ++ [mappingsName])) = .ok bytes ∧
    listing = .ofText (decodeAscii bytes)

/-- What a disk has for a key: the listing has no such tile, or the file of the tile is there,
whatever it decodes to. -/
inductive Holds (directory : Location) (d : Disk) (key : TileKey) :
    Except DecodeFault (Option Raster) → Prop
  | nothing {listing : Listing} : d.Lists directory listing → listing.url? key = none →
      Holds directory d key (.ok none)
  | tile {listing : Listing} {url : String} : d.Lists directory listing →
      listing.url? key = some url → d.exists? (tileFile (.ofLocation directory) url) = .ok true →
        Holds directory d key ((tileRaster d (tileFile (.ofLocation directory) url)).map some)

theorem Lists.keyed (h : d.Lists directory listing) : listing.Keyed := by
  obtain ⟨bytes, -, rfl⟩ := h
  exact Listing.keyed_ofText _

theorem Lists.unique {listing' : Listing} (h : d.Lists directory listing)
    (h' : d.Lists directory listing') : listing = listing' := by
  obtain ⟨bytes, hread, rfl⟩ := h
  obtain ⟨bytes', hread', rfl⟩ := h'
  rw [hread] at hread'
  cases hread'
  rfl

theorem lists_iff (hdots : ".." ∉ directory) :
    d.Lists directory listing ↔ Nameable directory mappingsName ∧ d.tree.Reaches directory ∧
      ∃ bytes, d.tree.get? (directory ++ [mappingsName]) = some (.file bytes) ∧
        listing = .ofText (decodeAscii bytes) := by
  have hfile := dots_notMem_append hdots isFileName_mappings
  simp only [Lists, read_place_eq_ok_iff hfile]
  constructor
  · rintro ⟨bytes, ⟨hnameable, hreach, hget⟩, hlisting⟩
    exact ⟨hnameable, hreach, bytes, hget, hlisting⟩
  · rintro ⟨hnameable, hreach, bytes, hget, hlisting⟩
    exact ⟨bytes, ⟨hnameable, hreach, hget⟩, hlisting⟩

theorem Lists.reaches (h : d.Lists directory listing) (hdots : ".." ∉ directory) :
    d.tree.Reaches directory := ((lists_iff hdots).mp h).2.1

theorem Lists.exists?_eq (h : d.Lists directory listing) (hdots : ".." ∉ directory) :
    d.exists? (.ofLocation (directory ++ [mappingsName])) = .ok true := by
  obtain ⟨hnameable, hreach, bytes, hget, -⟩ := (lists_iff hdots).mp h
  rw [exists?_place_eq_true_iff (dots_notMem_append hdots isFileName_mappings), hget]
  exact ⟨hnameable, hreach, by simp⟩

/-- A listing lasts as long as its file, where the directory can be reached. -/
theorem Lists.mono (h : d.Lists directory listing) (hdots : ".." ∉ directory)
    (hreach : d'.tree.Reaches directory)
    (hmappings : d'.tree.get? (directory ++ [mappingsName]) =
      d.tree.get? (directory ++ [mappingsName])) : d'.Lists directory listing := by
  obtain ⟨hnameable, -, bytes, hget, hlisting⟩ := (lists_iff hdots).mp h
  exact (lists_iff hdots).mpr ⟨hnameable, hreach, bytes, hmappings.trans hget, hlisting⟩

theorem Holds.reaches (h : d.Holds directory key result) (hdots : ".." ∉ directory) :
    d.tree.Reaches directory := by
  cases h with
  | nothing hlists _ => exact hlists.reaches hdots
  | tile hlists _ _ => exact hlists.reaches hdots

/-- What is held for a key lasts as long as the listing, the file of the tile and its notes. -/
theorem Holds.mono (h : d.Holds directory key result) (hdots : ".." ∉ directory)
    (hreach : d'.tree.Reaches directory)
    (hmappings : d'.tree.get? (directory ++ [mappingsName]) =
      d.tree.get? (directory ++ [mappingsName]))
    (hfiles : ∀ listing url, d.Lists directory listing → listing.url? key = some url →
      d.exists? (tileFile (.ofLocation directory) url) = .ok true →
        d'.tree.get? (directory ++ [fileName url]) = d.tree.get? (directory ++ [fileName url]) ∧
          d'.tree.get? (directory ++ [fileName url ++ notesSuffix]) =
            d.tree.get? (directory ++ [fileName url ++ notesSuffix])) :
    d'.Holds directory key result := by
  cases h with
  | nothing hlists hurl => exact .nothing (hlists.mono hdots hreach hmappings) hurl
  | @tile listing url hlists hurl hexists =>
      have hkey := hlists.keyed key url hurl
      have hfile := dots_notMem_append hdots (isFileName_fileName hkey)
      obtain ⟨htile, hnotes⟩ := hfiles listing url hlists hurl hexists
      rw [← tileRaster_congr hkey hdots (hlists.reaches hdots) hreach htile hnotes]
      refine .tile (hlists.mono hdots hreach hmappings) hurl ?_
      rw [tileFile_eq hkey, exists?_place_eq_true_iff hfile] at hexists ⊢
      rw [htile]
      exact ⟨hexists.1, hreach, hexists.2.2⟩

theorem Grown.lists (hgrown : Grown directory d d') (h : d.Lists directory listing)
    (hdots : ".." ∉ directory) : d'.Lists directory listing :=
  h.mono hdots ((h.reaches hdots).mono hgrown.directory_stays) (hgrown.get?_name _)

theorem Grown.holds (hgrown : Grown directory d d') (h : d.Holds directory key result)
    (hdots : ".." ∉ directory) : d'.Holds directory key result :=
  h.mono hdots ((h.reaches hdots).mono hgrown.directory_stays) (hgrown.get?_name _)
    fun _ _ _ _ _ => ⟨hgrown.get?_name _, hgrown.get?_name _⟩

theorem Gained.lists {bytes : ByteArray} (hgained : Gained directory (fileName url) bytes d d')
    (hkey : keyOfUrl? url = some key) (h : d.Lists directory listing) (hdots : ".." ∉ directory) :
    d'.Lists directory listing :=
  h.mono hdots hgained.reaches (hgained.get?_of_ne (Ne.symm (fileName_ne_mappings hkey)))

/-- What is held for a key does not change when the file of another tile comes to the directory, and
it is another tile if its file has not been there. -/
theorem Gained.holds {bytes : ByteArray} {position : Position}
    (hgained : Gained directory (fileName url) bytes d d') (hlists : d.Lists directory listing)
    (hurl : listing.url? position.tileKey = some url)
    (habsent : d.exists? (tileFile (.ofLocation directory) url) = .ok false)
    (h : d.Holds directory key result) (hdots : ".." ∉ directory) :
    d'.Holds directory key result := by
  have hkey := hlists.keyed _ _ hurl
  have hmappings := hgained.get?_of_ne (Ne.symm (fileName_ne_mappings hkey))
  refine h.mono hdots hgained.reaches hmappings fun listing' url' hlists' hurl' hexists' => ?_
  obtain rfl := hlists.unique hlists'
  have hkey' := hlists.keyed _ _ hurl'
  have hne : position.tileKey ≠ key := by
    rintro rfl
    cases hurl.symm.trans hurl'
    rw [habsent] at hexists'
    cases hexists'
  refine ⟨hgained.get?_of_ne ?_, hgained.get?_of_ne ?_⟩
  · exact fun hname => hne (key_eq_of_fileName_eq hkey hkey' hname.symm)
  · intro hname
    rcases key_of_fileName_eq_notes hkey' hkey hname.symm with heq | hnotes
    · exact hne heq
    · exact tileKey_ne_append_notes position key hnotes

end Disk

/-! ## Failures that leave decoding to the files -/

/-- A failure that does not name decoding as its stage. -/
def Failure.LeavesDecoding (f : Failure) : Prop := f.kind ≠ .staged .decoding

theorem Failure.Unstaged.leavesDecoding {f : Failure} (h : f.Unstaged) : f.LeavesDecoding := h _

theorem Failure.leavesDecoding_of_isRequest (f : Failure) (h : f.isRequest = true) :
    f.LeavesDecoding := (Failure.IsOrderly.unstaged (.inl h)).leavesDecoding

section Decoding

variable {h h' : Host} {failure : Failure} {cause : DecodeFault}

theorem Fault.ofFailure_ne_decode (hfailure : failure.LeavesDecoding) :
    Fault.ofFailure failure ≠ .decode cause := by
  unfold Fault.ofFailure
  split
  · exact Fault.noConfusion
  · exact Fault.noConfusion
  · exact absurd ‹_› hfailure
  · exact Fault.noConfusion

theorem TileIndex.faultOfFetch_ne_decode {own : Bool} (hfailure : failure.LeavesDecoding) :
    faultOfFetch (.ofFailure url own failure) ≠ .decode cause := by
  unfold FetchFault.ofFailure
  split
  · exact Fault.noConfusion
  · split
    · exact Fault.noConfusion
    · exact Fault.ofFailure_ne_decode hfailure

theorem Fault.ofFetch_ne_decode {own : Bool} (hfailure : failure.LeavesDecoding) :
    Fault.ofFetch (.ofFailure url own failure) ≠ .decode cause := by
  unfold FetchFault.ofFailure
  split
  · exact Fault.noConfusion
  · split
    · exact Fault.noConfusion
    · exact Fault.ofFailure_ne_decode hfailure

theorem leavesDecoding_of_unpublished {target : FilePath}
    (hfail : Unpublished url target h h' failure)
    (honly : h.network.Only (Reply.FailsAs Failure.LeavesDecoding)) : failure.LeavesDecoding :=
  hfail.failsAs honly Failure.leavesDecoding_of_isRequest
    fun fault => (Failure.unstaged_ofDisk fault).leavesDecoding

theorem TileIndex.Unobtained.ne_decode {index : TileIndex} {fault : Fault}
    (hunobtained : Unobtained index h fault h')
    (honly : h.network.Only (Reply.FailsAs Failure.LeavesDecoding)) : fault ≠ .decode cause := by
  cases hunobtained with
  | unasked _ => exact Fault.noConfusion
  | unreadable _ _ => exact Fault.noConfusion
  | unanswered _ hasked =>
      exact faultOfFetch_ne_decode (hasked.failsAs honly Failure.leavesDecoding_of_isRequest)
  | @unaddressed reply fault _ _ _ _ => cases fault <;> exact Fault.noConfusion
  | unpublished _ hasked _ _ hfail =>
      exact faultOfFetch_ne_decode (leavesDecoding_of_unpublished hfail (hasked.runs.only honly))

theorem Unensured.ne_decode {path : FilePath} {fault : Fault}
    (hunensured : Unensured path url h fault h')
    (honly : h.network.Only (Reply.FailsAs Failure.LeavesDecoding)) : fault ≠ .decode cause := by
  cases hunensured with
  | unasked _ => exact Fault.noConfusion
  | unpublished _ _ hfail =>
      exact Fault.ofFetch_ne_decode (leavesDecoding_of_unpublished hfail honly)

end Decoding

/-! ## Nothing but messages -/

/-- Nothing but messages came to the second host. -/
structure Host.Idle (h h' : Host) : Prop where
  disk : h'.disk = h.disk
  network : h'.network = h.network
  requests : h'.journal.requests = h.journal.requests
  files : h'.journal.files = h.journal.files

namespace Host.Idle

variable {h h' : Host}

theorem refl (h : Host) : h.Idle h := ⟨rfl, rfl, rfl, rfl⟩

theorem note (hidle : h.Idle h') (level : Level) (text : String) : h.Idle (h'.note level text) :=
  ⟨hidle.disk, hidle.network, hidle.requests, hidle.files⟩

end Host.Idle

/-! ## From the disk -/

namespace Caches.Coherent

variable {limit : Int} {memory : RasterMemory} {s s' : Indexed} {listing' : Listing}

/-- The listing that is loaded is the one on the disk, and the network is not asked for it. -/
theorem loads_of_lists (h : Coherent directory limit memory s) (hdots : ".." ∉ directory)
    (hlists : s.host.disk.Lists directory listing) (hloads : Loads s listing' s') :
    listing' = listing ∧ s.host.Idle s'.host := by
  cases hloads with
  | held hlisting =>
      -- the listing in memory agrees with its file
      obtain ⟨-, -, bytes, hget, rfl⟩ := (Disk.lists_iff hdots).mp hlists
      obtain ⟨bytes', hnode, rfl⟩ := h.written _ _ hlisting hget
      cases hnode
      exact ⟨rfl, .refl _⟩
  | obtained _ hobtained =>
      have hplace := TileIndex.mappingFile_eq h.place
      cases hobtained with
      | present _ hread =>
          rw [hplace] at hread
          exact ⟨Disk.Lists.unique ⟨_, hread, rfl⟩ hlists, (Host.Idle.refl _).note _ _⟩
      | fetched _ habsent _ _ =>
          rw [hplace, hlists.exists?_eq hdots] at habsent
          cases habsent

theorem not_unobtained_of_lists (h : Coherent directory limit memory s) (hdots : ".." ∉ directory)
    (hlists : s.host.disk.Lists directory listing) {fault : Fault} {h' : Host} :
    ¬ Unobtained s.index s.host fault h' := by
  have hplace := TileIndex.mappingFile_eq h.place
  have hexists := hlists.exists?_eq hdots
  obtain ⟨bytes, hread, -⟩ := hlists
  rw [← hplace] at hexists hread
  intro hunobtained
  cases hunobtained with
  | unasked hfault => cases hexists.symm.trans hfault
  | unreadable _ hfault => cases hread.symm.trans hfault
  | unanswered habsent _ => cases hexists.symm.trans habsent
  | unaddressed habsent _ _ => cases hexists.symm.trans habsent
  | unpublished habsent _ _ _ _ => cases hexists.symm.trans habsent

theorem load_of_lists (h : Coherent directory limit memory s) (hdots : ".." ∉ directory)
    (hlists : s.host.disk.Lists directory listing) :
    ∃ s', TileIndex.load s = .ok listing s' ∧ s.host.Idle s'.host := by
  have hends := TileIndex.ends_load s
  cases hload : TileIndex.load s with
  | ok listing' s' =>
      obtain ⟨rfl, hidle⟩ := h.loads_of_lists hdots hlists (hends.of_ok hload)
      exact ⟨s', rfl, hidle⟩
  | error fault s' =>
      obtain ⟨-, h', hunobtained, -⟩ := hends.of_error hload
      exact absurd hunobtained (h.not_unobtained_of_lists hdots hlists)

end Caches.Coherent

theorem ensureTileFile_of_exists {path : FilePath} {h : Host}
    (hexists : h.disk.exists? (tileFile path url) = .ok true) (downloader : Downloader)
    (key : TileKey) :
    ensureTileFile path downloader key url h = .ok (tileFile path url) h := by
  simp [ensureTileFile, Host.recast, Host.askDisk, hexists, bind_apply, pure_apply]

/-- What the disk holds for a key is found there. -/
theorem Caches.Coherent.ends_load_of_holds {limit : Int} {memory : RasterMemory} {s : Indexed}
    (h : Coherent directory limit memory s) (hdots : ".." ∉ directory)
    (hholds : s.host.disk.Holds directory key result) (downloader : Downloader) :
    Ends ((Provider.pipeline (.ofLocation directory) downloader).load key) s
      (fun found s' => result = .ok found ∧ s.host.Idle s'.host)
      (fun fault s' => (∃ cause, fault = .decode cause ∧ result = .error cause) ∧
        s.host.Idle s'.host) := by
  simp only [Pipeline.load, Provider.pipeline, TileIndex.resolve, ends_bind, ends_pure]
  cases hholds with
  | nothing hlists hurl =>
      obtain ⟨s₁, hload, hidle⟩ := h.load_of_lists hdots hlists
      simp only [ends_of_ok hload, hurl, ends_pure]
      exact ⟨trivial, hidle⟩
  | @tile listing url hlists hurl hexists =>
      obtain ⟨s₁, hload, hidle⟩ := h.load_of_lists hdots hlists
      rw [← hidle.disk] at hexists
      have hensured := ensureTileFile_of_exists hexists downloader key
      simp only [ends_of_ok hload, hurl, ends_bind, onIndexedHost, Host.ends_onPart,
        ends_of_ok hensured, ends_readTile, ends_pure, hidle.disk]
      cases tileRaster s.host.disk (tileFile (.ofLocation directory) url) with
      | ok raster => exact ⟨rfl, hidle⟩
      | error cause => exact ⟨⟨cause, rfl, rfl⟩, hidle⟩

/-- What the disk holds for a key is still held after another key was looked for. -/
theorem Caches.Coherent.endsIn_load_holds {limit : Int} {memory : RasterMemory} {s : Indexed}
    (h : Coherent directory limit memory s) (hdots : ".." ∉ directory)
    (hholds : s.host.disk.Holds directory key result) (downloader : Downloader)
    (position : Position) :
    EndsIn ((Provider.pipeline (.ofLocation directory) downloader).load position.tileKey) s
      fun s' => s'.host.disk.Holds directory key result := by
  obtain ⟨listing, hlists⟩ : ∃ listing, s.host.disk.Lists directory listing := by
    cases hholds with
    | nothing hlists _ => exact ⟨_, hlists⟩
    | tile hlists _ _ => exact ⟨_, hlists⟩
  -- loading the listing changes nothing, and then at most the file of the other tile comes
  have hloaded : ∀ listing' s₁, TileIndex.load s = .ok listing' s₁ →
      listing' = listing ∧ s₁.host.disk = s.host.disk := by
    intro listing' s₁ hload
    obtain ⟨heq, hidle⟩ :=
      h.loads_of_lists hdots hlists (TileIndex.loads_of_load hload)
    exact ⟨heq, hidle.disk⟩
  have hensured : ∀ (s₁ : Indexed) (url : String) (h' : Host), s₁.host.disk = s.host.disk →
      listing.url? position.tileKey = some url →
        Ensured (tileFile (.ofLocation directory) url) url s₁.host h' →
          h'.disk.Holds directory key result := by
    intro s₁ url h' hdisk hurl hensured
    have hkey := hlists.keyed _ _ hurl
    cases hensured with
    | present _ => exact hdisk ▸ hholds
    | fetched publication habsent =>
        have hfile := dots_notMem_append hdots (isFileName_fileName hkey)
        have hgained : Disk.Gained directory (fileName url) publication.bytes s₁.host.disk
          h'.disk := publication.gained (tileFile_eq hkey) hfile
        rw [hdisk] at hgained habsent
        exact hgained.holds hlists hurl habsent hholds hdots
  refine (Provider.ends_pipeline_load _ downloader position.tileKey s).mono ?_ ?_
  · intro found s' hfinds
    cases hfinds with
    | nothing hload _ => exact (hloaded _ _ hload).2 ▸ hholds
    | raster hload hurl hensures _ =>
        obtain ⟨rfl, hdisk⟩ := hloaded _ _ hload
        exact hensured _ _ _ hdisk hurl hensures
  · intro fault s' hmisses
    cases hmisses with
    | unlisted _ _ hunobtained => exact absurd hunobtained (h.not_unobtained_of_lists hdots hlists)
    | unensured hload hurl hunensured =>
        obtain ⟨rfl, hdisk⟩ := hloaded _ _ hload
        have hgrown := hunensured.grown hdots (hlists.keyed _ _ hurl)
        rw [hdisk] at hgrown
        exact hgrown.holds hholds hdots
    | undecoded hload hurl hensures _ =>
        obtain ⟨rfl, hdisk⟩ := hloaded _ _ hload
        exact hensured _ _ _ hdisk hurl hensures

/-! ## To the disk -/

/-- A listing that is held is on the disk. -/
def Indexed.Backed (directory : Location) (s : Indexed) : Prop :=
  ∀ listing, s.index.listing = some listing → s.host.disk.Lists directory listing

namespace Indexed.Backed

variable {s s' : Indexed} {h' : Host}

theorem loads (h : s.Backed directory) (hdots : ".." ∉ directory)
    (hplace : s.index.directory = .ofLocation directory) (hloads : Loads s listing s') :
    s'.Backed directory ∧ s'.host.disk.Lists directory listing := by
  cases hloads with
  | held hlisting => exact ⟨h, h _ hlisting⟩
  | @obtained h₁ text _ hobtained =>
      -- whether it was there or was fetched, the listing has just been read from its file
      have hlists : h₁.disk.Lists directory listing := by
        have hmappings := TileIndex.mappingFile_eq hplace
        cases hobtained with
        | present _ hread => exact ⟨_, hmappings ▸ hread, rfl⟩
        | fetched publication _ _ _ =>
            have hfile := dots_notMem_append hdots isFileName_mappings
            exact ⟨_, (publication.gained hmappings hfile).read hfile, rfl⟩
      refine ⟨fun listing' hlisting' => ?_, hlists⟩
      cases hlisting'
      exact hlists

theorem ensured (h : s.Backed directory) (hdots : ".." ∉ directory)
    (hkey : keyOfUrl? url = some key) (hlists : s.host.disk.Lists directory listing)
    (hensured : Ensured (tileFile (.ofLocation directory) url) url s.host h') :
    Backed directory { s with host := h' } ∧ h'.disk.Lists directory listing := by
  cases hensured with
  | present _ => exact ⟨h, hlists⟩
  | fetched publication _ =>
      have hfile := dots_notMem_append hdots (isFileName_fileName hkey)
      have hgained := publication.gained (tileFile_eq hkey) hfile
      refine ⟨fun listing' hlisting' => ?_, hgained.lists hkey hlists hdots⟩
      exact hgained.lists hkey (h _ hlisting') hdots

theorem unensured (h : s.Backed directory) (hdots : ".." ∉ directory)
    (hkey : keyOfUrl? url = some key) {fault : Fault}
    (hunensured : Unensured (tileFile (.ofLocation directory) url) url s.host fault h') :
    Backed directory { s with host := h' } :=
  fun _ hlisting => (hunensured.grown hdots hkey).lists (h _ hlisting) hdots

/-- What is found for a key is held by the disk from then on, and so is a file that cannot be
decoded, if the network leaves decoding to the files. -/
theorem ends_load (h : s.Backed directory) (hdots : ".." ∉ directory)
    (hplace : s.index.directory = .ofLocation directory) (downloader : Downloader) (key : TileKey) :
    Ends ((Provider.pipeline (.ofLocation directory) downloader).load key) s
      (fun found s' => s'.Backed directory ∧ s'.host.disk.Holds directory key (.ok found))
      (fun fault s' => s'.Backed directory ∧
        (s.host.network.Only (Reply.FailsAs Failure.LeavesDecoding) → ∀ cause,
          fault = .decode cause → s'.host.disk.Holds directory key (.error cause))) := by
  have hloaded : ∀ listing s₁, TileIndex.load s = .ok listing s₁ →
      s₁.Backed directory ∧ s₁.host.disk.Lists directory listing :=
    fun _ _ hload => h.loads hdots hplace (TileIndex.loads_of_load hload)
  refine (Provider.ends_pipeline_load _ downloader key s).mono ?_ ?_
  · intro found s' hfinds
    cases hfinds with
    | nothing hload hurl =>
        obtain ⟨hbacked, hlists⟩ := hloaded _ _ hload
        exact ⟨hbacked, .nothing hlists hurl⟩
    | raster hload hurl hensured hraster =>
        obtain ⟨hbacked, hlists⟩ := hloaded _ _ hload
        have hkey := hlists.keyed _ _ hurl
        obtain ⟨hbacked', hlists'⟩ := hbacked.ensured hdots hkey hlists hensured
        refine ⟨hbacked', ?_⟩
        have hholds := Disk.Holds.tile hlists' hurl (hensured.exists?_eq hdots hkey)
        rw [hraster] at hholds
        exact hholds
  · intro fault s' hmisses
    cases hmisses with
    | unlisted _ hlisting hunobtained =>
        refine ⟨fun listing hlisting' => ?_, ?_⟩
        · cases hlisting.symm.trans hlisting'
        · exact fun honly cause heq => absurd heq (hunobtained.ne_decode honly)
    | unensured hload hurl hunensured =>
        have hruns := (TileIndex.loads_of_load hload).runs
        obtain ⟨hbacked, hlists⟩ := hloaded _ _ hload
        have hkey := hlists.keyed _ _ hurl
        refine ⟨hbacked.unensured hdots hkey hunensured, ?_⟩
        exact fun honly cause heq => absurd heq (hunensured.ne_decode (hruns.only honly))
    | undecoded hload hurl hensured hraster =>
        obtain ⟨hbacked, hlists⟩ := hloaded _ _ hload
        have hkey := hlists.keyed _ _ hurl
        obtain ⟨hbacked', hlists'⟩ := hbacked.ensured hdots hkey hlists hensured
        refine ⟨hbacked', ?_⟩
        rintro - cause ⟨rfl⟩
        have hholds := Disk.Holds.tile hlists' hurl (hensured.exists?_eq hdots hkey)
        rw [hraster] at hholds
        exact hholds

end Indexed.Backed

end PointElevation
