import PointElevation.Proofs.Download.Fetch
import PointElevation.Proofs.Listing.NormalForm
import PointElevation.Provider.Query

/-!
# The stages to a raster

From a key to a raster there are three stages: the listing has to be had, then the file of the tile,
then what the file decodes to.  Each stage ends in one of a few ways, and these are the constructors
of the relations below, one relation for the ends that are good and one for the others.  They say
what the stage has seen on the disk and on the network, so whatever is to be known of a query is
read off them and not off the operations.
-/

namespace PointElevation

open PointElevation.Downloader (Published Unpublished)
open PointElevation.Text (decodeAscii decodeUtf8)

/-! ## Files of the directory -/

section Files

variable {directory : Location}

/-- The name of the file that holds the listing. -/
def mappingsName : String := "mappings.csv"

theorem isFileName_mappings : IsFileName mappingsName :=
  isFileName_of_mem (show 'm' ∈ mappingsName.toList by decide) (by decide) (by decide)

theorem TileIndex.mappingFile_eq {index : TileIndex} (h : index.directory = .ofLocation directory) :
    index.mappingFile = .ofLocation (directory ++ [mappingsName]) := by
  have hchild := child_ofLocation isFileName_mappings directory
  rw [← hchild, ← h]
  rfl

theorem TileIndex.mappingFile_name (index : TileIndex) : index.mappingFile.name = mappingsName :=
  name_child isFileName_mappings index.directory

theorem TileIndex.mappingFile_parent (index : TileIndex) :
    index.mappingFile.parent = index.directory := parent_child isFileName_mappings index.directory

theorem tileFile_eq {url : String} {key : TileKey} (hkey : keyOfUrl? url = some key) :
    tileFile (.ofLocation directory) url = .ofLocation (directory ++ [fileName url]) :=
  child_ofLocation (isFileName_fileName hkey) directory

theorem dots_notMem_append {name : String} (hdots : ".." ∉ directory) (hname : IsFileName name) :
    ".." ∉ directory ++ [name] := by
  rw [List.mem_append, List.mem_singleton, not_or]
  exact ⟨hdots, Ne.symm hname.dots⟩

end Files

/-! ## The listing -/

namespace TileIndex

variable {index : TileIndex} {h : Host} {s : Indexed} {directory : Location}

/-- The listing is obtained from its file, which may first have to be downloaded. -/
inductive Obtained (index : TileIndex) (h : Host) : Listing → Host → Prop
  | present {bytes : ByteArray} :
      h.disk.exists? index.mappingFile = .ok true → h.disk.read index.mappingFile = .ok bytes →
        Obtained index h (.ofText (decodeAscii bytes)) h
  | fetched {reply url : String} {h₁ h' : Host}
      (publication : Published url index.mappingFile h₁ h') :
      h.disk.exists? index.mappingFile = .ok false → Asked listingServiceUrl (.ok reply) h h₁ →
        listingAddress reply = .ok url →
          Obtained index h (.ofText (decodeAscii publication.bytes)) h'

/-- The listing is not obtained, and why not. -/
inductive Unobtained (index : TileIndex) (h : Host) : Fault → Host → Prop
  | unasked {fault : DiskFault} :
      h.disk.exists? index.mappingFile = .error fault →
        Unobtained index h (.escaped (.ofDisk fault)) h
  | unreadable {fault : DiskFault} :
      h.disk.exists? index.mappingFile = .ok true → h.disk.read index.mappingFile = .error fault →
        Unobtained index h (.index (.unreadable index.mappingFile fault.message)) h
  | unanswered {failure : Failure} {h' : Host} :
      h.disk.exists? index.mappingFile = .ok false → Asked listingServiceUrl (.error failure) h h' →
        Unobtained index h
          (faultOfFetch (.ofFailure listingServiceUrl failure.isRequest failure)) h'
  | unaddressed {reply : String} {cause : ReplyFault} {h' : Host} :
      h.disk.exists? index.mappingFile = .ok false → Asked listingServiceUrl (.ok reply) h h' →
        listingAddress reply = .error cause → Unobtained index h (faultOfReply cause) h'
  | unpublished {reply url : String} {failure : Failure} {h₁ h' : Host} :
      h.disk.exists? index.mappingFile = .ok false → Asked listingServiceUrl (.ok reply) h h₁ →
        listingAddress reply = .ok url → h₁.Runs h' →
          Unpublished url index.mappingFile h₁ h' failure →
            Unobtained index h
              (faultOfFetch
                (.ofFailure url (failure.isRequest || failure.kind = .system) failure)) h'

theorem Obtained.runs {listing : Listing} {h' : Host} (hobtained : Obtained index h listing h') :
    h.Runs h' := by
  cases hobtained with
  | present _ _ => exact .refl h
  | fetched publication _ hasked _ => exact hasked.runs.trans publication.runs

theorem Unobtained.runs {fault : Fault} {h' : Host} (hunobtained : Unobtained index h fault h') :
    h.Runs h' := by
  cases hunobtained with
  | unasked _ => exact .refl h
  | unreadable _ _ => exact .refl h
  | unanswered _ hasked => exact hasked.runs
  | unaddressed _ hasked _ => exact hasked.runs
  | unpublished _ hasked _ hruns _ => exact hasked.runs.trans hruns

/-- Obtaining the listing changes nothing on the disk, or its file has come to the directory. -/
theorem Obtained.gained {listing : Listing} {h' : Host} (hobtained : Obtained index h listing h')
    (hdots : ".." ∉ directory) (hplace : index.directory = .ofLocation directory) :
    h'.disk = h.disk ∨ ∃ bytes, Disk.Gained directory mappingsName bytes h.disk h'.disk ∧
      h.disk.exists? (.ofLocation (directory ++ [mappingsName])) = .ok false := by
  cases hobtained with
  | present _ _ => exact .inl rfl
  | fetched publication habsent hasked _ =>
      have hmappings := mappingFile_eq hplace
      have hfile := dots_notMem_append hdots isFileName_mappings
      have hgained := publication.gained hmappings hfile
      rw [hasked.disk] at hgained
      exact .inr ⟨_, hgained, hmappings ▸ habsent⟩

/-- Where the listing is not obtained, at most directories were made. -/
theorem Unobtained.grown {fault : Fault} {h' : Host} (hunobtained : Unobtained index h fault h')
    (hdots : ".." ∉ directory) (hplace : index.directory = .ofLocation directory) :
    Disk.Grown directory h.disk h'.disk := by
  cases hunobtained with
  | unasked _ => exact .refl _ _
  | unreadable _ _ => exact .refl _ _
  | unanswered _ hasked => exact hasked.disk ▸ .refl _ _
  | unaddressed _ hasked _ => exact hasked.disk ▸ .refl _ _
  | unpublished _ hasked _ _ hfail =>
      rw [mappingFile_eq hplace] at hfail
      have hgrown := hfail.grown hdots
      rw [hasked.disk] at hgrown
      exact hgrown

/-- What is there can at worst not be read, which is a refusal of the disk. -/
theorem ends_readFile (index : TileIndex) (h : Host) :
    Ends index.readFile h
      (fun listing h' => h' = h ∧ ∃ bytes, h.disk.read index.mappingFile = .ok bytes ∧
        listing = .ofText (decodeAscii bytes))
      (fun fault h' => h' = h ∧ ∃ cause, h.disk.read index.mappingFile = .error cause ∧
        (h.disk.exists? index.mappingFile = .ok true →
          fault = .index (.unreadable index.mappingFile cause.message))) := by
  simp only [readFile, ends_bind, Host.ends_recast, Host.ends_askDisk, ends_pure]
  refine ⟨fun bytes hread => ⟨trivial, bytes, hread, rfl⟩,
    fun cause hread => ⟨trivial, cause, hread, ?_⟩⟩
  intro hexists
  obtain rfl := refused_of_exists?_true hexists hread
  simp [Failure.ofDisk]

/-- Downloading the listing leaves the host as `Obtained` and `Unobtained` have it. -/
theorem ends_fetch (habsent : h.disk.exists? index.mappingFile = .ok false) :
    Ends index.fetch h
      (fun _ h' => ∃ reply url h₁, Asked listingServiceUrl (.ok reply) h h₁ ∧
        listingAddress reply = .ok url ∧ Nonempty (Published url index.mappingFile h₁ h'))
      (fun fault h' => Unobtained index h fault h') := by
  simp only [fetch, ends_bind, Host.ends_recast]
  refine (Downloader.ends_fetchText index.downloader listingServiceUrl h).mono ?_ ?_
  · intro reply h₁ hasked
    cases haddress : listingAddress reply with
    | error cause => exact .unaddressed habsent hasked haddress
    | ok url =>
        dsimp only
        simp only [Host.ends_recast]
        refine (Downloader.ends_fetchFile index.downloader url index.mappingFile h₁).mono ?_ ?_
        · intro _ h' hpublished
          exact ⟨reply, url, h₁, hasked, haddress, hpublished⟩
        · intro fault h' hend
          obtain ⟨hruns, failure, rfl, hfail⟩ := hend
          exact .unpublished habsent hasked haddress hruns hfail
  · intro fault h' hend
    obtain ⟨failure, rfl, hasked⟩ := hend
    exact .unanswered habsent hasked

theorem ends_obtain (index : TileIndex) (h : Host) :
    Ends index.obtain h (fun listing h' => Obtained index h listing h')
      (fun fault h' => Unobtained index h fault h') := by
  simp only [obtain, ends_bind, Host.ends_recast, Host.ends_askDisk]
  refine ⟨fun present hexists => ?_, fun fault hexists => .unasked hexists⟩
  cases present with
  | true =>
      simp only [Bool.not_true, Bool.false_eq_true, if_false]
      refine (ends_readFile index h).mono ?_ ?_
      · intro listing h' hend
        obtain ⟨rfl, bytes, hread, rfl⟩ := hend
        exact .present hexists hread
      · intro fault h' hend
        obtain ⟨rfl, cause, hread, hfault⟩ := hend
        rw [hfault hexists]
        exact .unreadable hexists hread
  | false =>
      -- it is downloaded, and then read as if it had been there
      simp only [Bool.not_false, if_true, ends_bind]
      refine (ends_fetch hexists).mono ?_ fun _ _ hfault => hfault
      intro _ h' hend
      obtain ⟨reply, url, h₁, hasked, haddress, ⟨publication⟩⟩ := hend
      -- what has just been published can be read
      have hread := publication.read
      refine (ends_readFile index h').mono ?_ ?_
      · intro listing h'' hend
        obtain ⟨rfl, bytes, hread', rfl⟩ := hend
        rw [hread] at hread'
        cases hread'
        exact .fetched publication hexists hasked haddress
      · intro fault h'' hend
        obtain ⟨rfl, cause, hread', -⟩ := hend
        rw [hread] at hread'
        cases hread'

/-- The listing is held, or it is obtained and then held. -/
inductive Loads (s : Indexed) : Listing → Indexed → Prop
  | held {listing : Listing} : s.index.listing = some listing → Loads s listing s
  | obtained {listing : Listing} {h' : Host} {text : String} : s.index.listing = none →
      Obtained s.index s.host listing h' →
        Loads s listing ⟨{ s.index with listing := some listing }, h'.note .info text⟩

theorem Loads.listing_eq {listing : Listing} {s' : Indexed} (hloads : Loads s listing s') :
    s'.index.listing = some listing := by
  cases hloads with
  | held hlisting => exact hlisting
  | obtained _ _ => rfl

theorem Obtained.keyed {listing : Listing} {h' : Host}
    (hobtained : Obtained index h listing h') : listing.Keyed := by
  cases hobtained with
  | present _ _ => exact Listing.keyed_ofText _
  | fetched _ _ _ _ => exact Listing.keyed_ofText _

theorem Loads.keyed {listing : Listing} {s' : Indexed} (hloads : Loads s listing s')
    (hkeyed : ∀ listing, s.index.listing = some listing → listing.Keyed) : listing.Keyed := by
  cases hloads with
  | held hlisting => exact hkeyed listing hlisting
  | obtained _ hobtained => exact hobtained.keyed

theorem Loads.runs {listing : Listing} {s' : Indexed} (hloads : Loads s listing s') :
    s.host.Runs s'.host := by
  cases hloads with
  | held _ => exact .refl _
  | obtained _ hobtained => exact hobtained.runs.trans (.of_eq rfl rfl)

theorem ends_load (s : Indexed) :
    Ends load s (fun listing s' => Loads s listing s')
      (fun fault s' => s.index.listing = none ∧
        ∃ h', Unobtained s.index s.host fault h' ∧ s' = { s with host := h' }) := by
  simp only [load, ends_bind, ends_get]
  cases hlisting : s.index.listing with
  | some listing => exact .held hlisting
  | none =>
      simp only [ends_bind, onIndexedHost, Host.ends_onPart, ends_modify, Host.ends_say, ends_pure]
      refine (ends_obtain s.index s.host).mono ?_ ?_
      · intro listing h' hobtained
        exact .obtained hlisting hobtained
      · intro fault h' hunobtained
        exact ⟨trivial, h', hunobtained, rfl⟩

theorem loads_of_load {listing : Listing} {s' : Indexed} (hload : load s = .ok listing s') :
    Loads s listing s' := (ends_load s).of_ok hload

end TileIndex

/-! ## The file of a tile -/

/-- The file of a tile is there, or it is downloaded. -/
inductive Ensured (path : FilePath) (url : String) (h : Host) : Host → Prop
  | present : h.disk.exists? path = .ok true → Ensured path url h h
  | fetched {text : String} {h' : Host} (publication : Published url path (h.note .info text) h') :
      h.disk.exists? path = .ok false → Ensured path url h h'

/-- The file of a tile is not there and cannot be downloaded, and why not. -/
inductive Unensured (path : FilePath) (url : String) (h : Host) : Fault → Host → Prop
  | unasked {fault : DiskFault} :
      h.disk.exists? path = .error fault → Unensured path url h (.escaped (.ofDisk fault)) h
  | unpublished {failure : Failure} {text : String} {h' : Host} :
      h.disk.exists? path = .ok false → (h.note .info text).Runs h' →
        Unpublished url path (h.note .info text) h' failure →
          Unensured path url h
            (.ofFetch (.ofFailure url (failure.isRequest || failure.kind = .system) failure)) h'

theorem Ensured.runs {path : FilePath} {url : String} {h h' : Host}
    (hensured : Ensured path url h h') : h.Runs h' := by
  cases hensured with
  | present _ => exact .refl h
  | fetched publication _ => exact .trans (.of_eq rfl rfl) publication.runs

theorem Unensured.runs {path : FilePath} {url : String} {h h' : Host} {fault : Fault}
    (hunensured : Unensured path url h fault h') : h.Runs h' := by
  cases hunensured with
  | unasked _ => exact .refl h
  | unpublished _ hruns _ => exact .trans (.of_eq rfl rfl) hruns

/-- A file of a tile that has been made sure of is there. -/
theorem Ensured.exists?_eq {directory : Location} (hdots : ".." ∉ directory) {key : TileKey}
    {url : String} (hkey : keyOfUrl? url = some key) {h h' : Host}
    (hensured : Ensured (tileFile (.ofLocation directory) url) url h h') :
    h'.disk.exists? (tileFile (.ofLocation directory) url) = .ok true := by
  have hfile := dots_notMem_append hdots (isFileName_fileName hkey)
  cases hensured with
  | present hexists => exact hexists
  | fetched publication _ =>
      have hgained := publication.gained (tileFile_eq hkey) hfile
      rw [tileFile_eq hkey, exists?_place_eq_true_iff hfile, hgained.here]
      exact ⟨hgained.nameable, hgained.reaches, by simp⟩

/-- Where the file of a tile is not had, at most directories were made. -/
theorem Unensured.grown {directory : Location} (hdots : ".." ∉ directory) {key : TileKey}
    {url : String} (hkey : keyOfUrl? url = some key) {h h' : Host} {fault : Fault}
    (hunensured : Unensured (tileFile (.ofLocation directory) url) url h fault h') :
    Disk.Grown directory h.disk h'.disk := by
  cases hunensured with
  | unasked _ => exact .refl _ _
  | unpublished _ _ hfail =>
      rw [tileFile_eq hkey] at hfail
      exact hfail.grown hdots

theorem ends_ensureTileFile (directory : FilePath) (d : Downloader) (key : TileKey) (url : String)
    (h : Host) :
    Ends (ensureTileFile directory d key url) h
      (fun path h' => path = tileFile directory url ∧ Ensured path url h h')
      (fun fault h' => Unensured (tileFile directory url) url h fault h') := by
  simp only [ensureTileFile, ends_bind, Host.ends_recast, Host.ends_askDisk]
  refine ⟨fun present hexists => ?_, fun fault hexists => .unasked hexists⟩
  cases present with
  | true =>
      simp only [Bool.not_true, Bool.false_eq_true, if_false, ends_pure]
      exact ⟨trivial, .present hexists⟩
  | false =>
      simp only [Bool.not_false, if_true, ends_bind, Host.ends_say, Host.ends_recast, ends_pure]
      refine (Downloader.ends_fetchFile d url _ _).mono ?_ ?_
      · intro _ h' hend
        obtain ⟨publication⟩ := hend
        exact ⟨trivial, .fetched publication hexists⟩
      · intro fault h' hend
        obtain ⟨hruns, failure, rfl, hfail⟩ := hend
        exact .unpublished hexists hruns hfail

/-! ## The raster of a file -/

/-- The raster in a tile file on a disk, with the notes beside it. -/
def tileRaster (d : Disk) (path : FilePath) : Except DecodeFault Raster :=
  decodeTile path elevationBand (d.read path).toOption (d.read (sideFile path)).toOption

theorem ends_readTile {path : FilePath} {h : Host} {good : Raster → Host → Prop}
    {bad : Fault → Host → Prop} :
    Ends (readTile path elevationBand) h good bad ↔
      match tileRaster h.disk path with
      | .ok raster => good raster h
      | .error fault => bad (.decode fault) h := by
  simp only [readTile, tileRaster, ends_bind, ends_get]
  cases decodeTile path elevationBand (h.disk.read path).toOption
      (h.disk.read (sideFile path)).toOption with
  | ok raster => rfl
  | error fault => rfl

theorem readTile_of_tileRaster {path : FilePath} {h : Host} {raster : Raster}
    (hraster : tileRaster h.disk path = .ok raster) :
    readTile path elevationBand h = .ok raster h := by
  unfold tileRaster at hraster
  simp [readTile, bind_apply, get_apply, pure_apply, hraster]

/-- A file with a raster can be read. -/
theorem exists_read_of_tileRaster {d : Disk} {path : FilePath} {raster : Raster}
    (h : tileRaster d path = .ok raster) : ∃ bytes, d.read path = .ok bytes := by
  unfold tileRaster at h
  cases hread : d.read path with
  | ok bytes => exact ⟨bytes, rfl⟩
  | error fault =>
      rw [hread] at h
      cases h

/-! ## All stages together -/

namespace Provider

open TileIndex (Unobtained)

/-- The way from a key to what is found, if there is such a tile. -/
inductive Finds (directory : FilePath) (key : TileKey) (s : Indexed) :
    Option Raster → Indexed → Prop
  | nothing {listing : Listing} {s₁ : Indexed} : TileIndex.load s = .ok listing s₁ →
      listing.url? key = none → Finds directory key s none s₁
  | raster {listing : Listing} {url : String} {s₁ : Indexed} {h' : Host} {raster : Raster} :
      TileIndex.load s = .ok listing s₁ → listing.url? key = some url →
        Ensured (tileFile directory url) url s₁.host h' →
          tileRaster h'.disk (tileFile directory url) = .ok raster →
            Finds directory key s (some raster) { s₁ with host := h' }

/-- The way from a key to where it was left, and why. -/
inductive Misses (directory : FilePath) (key : TileKey) (s : Indexed) : Fault → Indexed → Prop
  | unlisted {fault : Fault} {h' : Host} :
      TileIndex.load s = .error fault { s with host := h' } → s.index.listing = none →
        Unobtained s.index s.host fault h' → Misses directory key s fault { s with host := h' }
  | unensured {listing : Listing} {url : String} {s₁ : Indexed} {fault : Fault} {h' : Host} :
      TileIndex.load s = .ok listing s₁ → listing.url? key = some url →
        Unensured (tileFile directory url) url s₁.host fault h' →
          Misses directory key s fault { s₁ with host := h' }
  | undecoded {listing : Listing} {url : String} {s₁ : Indexed} {fault : DecodeFault} {h' : Host} :
      TileIndex.load s = .ok listing s₁ → listing.url? key = some url →
        Ensured (tileFile directory url) url s₁.host h' →
          tileRaster h'.disk (tileFile directory url) = .error fault →
            Misses directory key s (.decode fault) { s₁ with host := h' }

theorem ends_pipeline_load (path : FilePath) (d : Downloader) (key : TileKey) (s : Indexed) :
    Ends ((pipeline path d).load key) s (fun found s' => Finds path key s found s')
      (fun fault s' => Misses path key s fault s') := by
  simp only [Pipeline.load, pipeline, TileIndex.resolve, ends_bind, ends_pure]
  refine ((TileIndex.ends_load s).and (ends_self _ _)).mono ?_ ?_
  · intro listing s₁ hend
    obtain ⟨-, hload⟩ := hend
    cases hurl : listing.url? key with
    | none => exact .nothing hload hurl
    | some url =>
        simp only [ends_bind, onIndexedHost, Host.ends_onPart, ends_pure]
        refine (ends_ensureTileFile path d key url s₁.host).mono ?_ ?_
        · intro _ h' hend
          obtain ⟨rfl, hensured⟩ := hend
          rw [ends_readTile]
          cases hraster : tileRaster h'.disk (tileFile path url) with
          | ok raster => exact .raster hload hurl hensured hraster
          | error fault => exact .undecoded hload hurl hensured hraster
        · intro fault h' hunensured
          exact .unensured hload hurl hunensured
  · intro fault s' hend
    obtain ⟨⟨hlisting, h', hunobtained, rfl⟩, hload⟩ := hend
    exact .unlisted hload hlisting hunobtained

/-- Whatever comes of it, the host it leaves comes from the first by requests. -/
theorem endsIn_load_runs (path : FilePath) (d : Downloader) (key : TileKey) (s : Indexed) :
    EndsIn ((pipeline path d).load key) s fun s' => s.host.Runs s'.host := by
  have hloaded : ∀ listing s₁, TileIndex.load s = .ok listing s₁ → s.host.Runs s₁.host :=
    fun _ _ hload => (TileIndex.loads_of_load hload).runs
  refine (ends_pipeline_load path d key s).mono ?_ ?_
  · intro found s' hfinds
    cases hfinds with
    | nothing hload _ => exact hloaded _ _ hload
    | raster hload _ hensured _ => exact (hloaded _ _ hload).trans hensured.runs
  · intro fault s' hmisses
    cases hmisses with
    | unlisted _ _ hunobtained => exact hunobtained.runs
    | unensured hload _ hunensured => exact (hloaded _ _ hload).trans hunensured.runs
    | undecoded hload _ hensured _ => exact (hloaded _ _ hload).trans hensured.runs

end Provider

end PointElevation
