import PointElevation.Proofs.Provider.Retry

/-!
# What decides a query

A query for a position goes through its stages in order: the listing, the tile's place in it, the
tile's file, its raster, the pixel.  `Service.Verdict` says of each status and height what has to be
so of the service, of its disk and of its network for the query to be answered with them.  The first
stage that fails decides, and a raster that is held is looked at without the stages before it.

Both directions are proved along the stages.  What is so at a stage determines how the operation
ends that it is about, and however that ends, something is so that a verdict speaks of.  For the
second it matters that failures of the network do not name a stage of the service themselves.
-/

namespace PointElevation

open Host
open PointElevation.Number (Single)
open PointElevation.Text (decodeAscii)

/-! ## Failures of downloads -/

/-- A download that failed for itself, or by a failure that names no stage of the service. -/
def FetchFault.Unstaged (fault : FetchFault) : Prop :=
  (∃ cause, fault = .failed cause) ∨
    ∃ failure : Failure, failure.Unstaged ∧ fault = .escaped failure

theorem FetchFault.unstaged_ofFailure {failure : Failure} (h : failure.Unstaged) (url : String)
    (own : Bool) : (ofFailure url own failure).Unstaged := by
  rw [ofFailure_of_unstaged h]
  cases own with
  | true => exact .inl ⟨_, rfl⟩
  | false => exact .inr ⟨failure, h, rfl⟩

section Downloads

variable {d : Downloader} {url : String} {target : FilePath} {h h' : Host} {fault : FetchFault}

theorem Downloader.unstaged_of_fetchText (honly : h.network.Only (Reply.FailsAs Failure.Unstaged))
    (hrun : d.fetchText url h = .error fault h') : fault.Unstaged := by
  obtain ⟨failure, rfl, hasked⟩ := (ends_fetchText d url h).of_error hrun
  exact FetchFault.unstaged_ofFailure (hasked.failsAs honly Failure.unstaged_of_isRequest) _ _

theorem Downloader.unstaged_of_fetchFile (honly : h.network.Only (Reply.FailsAs Failure.Unstaged))
    (hrun : d.fetchFile url target h = .error fault h') : fault.Unstaged := by
  obtain ⟨-, failure, rfl, hfail⟩ := (ends_fetchFile d url target h).of_error hrun
  exact FetchFault.unstaged_ofFailure
    (hfail.failsAs honly Failure.unstaged_of_isRequest Failure.unstaged_ofDisk) _ _

end Downloads

/-! ## The listing -/

namespace TileIndex

/-- The file of the listing is had: it is there, or it is downloaded from where the listing service
says. -/
inductive Mapped (index : TileIndex) (h : Host) : Host → Prop
  | present : h.disk.exists? index.mappingFile = .ok true → Mapped index h h
  | fetched {reply url : String} {h₁ h' : Host} :
      h.disk.exists? index.mappingFile = .ok false →
        index.downloader.fetchText listingServiceUrl h = .ok reply h₁ →
          listingAddress reply = .ok url →
            index.downloader.fetchFile url index.mappingFile h₁ = .ok () h' → Mapped index h h'

/-- There is no listing to be had: the service does not answer, does not say where the listing is,
or the listing is not downloaded from there, or its file cannot be read. -/
inductive Unavailable (index : TileIndex) (h : Host) : Prop
  | unanswered {cause : DownloadFault} {h' : Host} :
      h.disk.exists? index.mappingFile = .ok false →
        index.downloader.fetchText listingServiceUrl h = .error (.failed cause) h' →
          Unavailable index h
  | unaddressed {reply : String} {cause : MalformedReply} {h₁ : Host} :
      h.disk.exists? index.mappingFile = .ok false →
        index.downloader.fetchText listingServiceUrl h = .ok reply h₁ →
          listingAddress reply = .error (.malformed cause) → Unavailable index h
  | undownloaded {reply url : String} {cause : DownloadFault} {h₁ h' : Host} :
      h.disk.exists? index.mappingFile = .ok false →
        index.downloader.fetchText listingServiceUrl h = .ok reply h₁ →
          listingAddress reply = .ok url →
            index.downloader.fetchFile url index.mappingFile h₁ = .error (.failed cause) h' →
              Unavailable index h
  | unreadable {obstacle : Obstacle} {path : FilePath} {h' : Host} : Mapped index h h' →
      h'.disk.read index.mappingFile = .error (.refused obstacle path) → Unavailable index h

variable {index : TileIndex} {h h' : Host} {listing : Listing}

theorem Mapped.runs (hmapped : index.Mapped h h') : h.Runs h' := by
  cases hmapped with
  | present _ => exact .refl h
  | fetched _ htext _ hfile =>
      have hasked := (Downloader.ends_fetchText _ _ _).of_ok htext
      obtain ⟨publication⟩ := (Downloader.ends_fetchFile _ _ _ _).of_ok hfile
      exact hasked.runs.trans publication.runs

theorem fetch_eq (index : TileIndex) (h : Host) :
    index.fetch h =
      match index.downloader.fetchText listingServiceUrl h with
      | .error fault h₁ => .error (faultOfFetch fault) h₁
      | .ok reply h₁ =>
          match listingAddress reply with
          | .error cause => .error (faultOfReply cause) h₁
          | .ok url =>
              match index.downloader.fetchFile url index.mappingFile h₁ with
              | .error fault h' => .error (faultOfFetch fault) h'
              | .ok _ h' => .ok () h' := by
  simp only [fetch, bind_apply, recast]
  cases index.downloader.fetchText listingServiceUrl h with
  | error fault h₁ => rfl
  | ok reply h₁ =>
      dsimp only
      cases listingAddress reply with
      | error cause => rfl
      | ok url =>
          dsimp only [recast]
          cases index.downloader.fetchFile url index.mappingFile h₁ <;> rfl

theorem obtain_of_present (hexists : h.disk.exists? index.mappingFile = .ok true) :
    index.obtain h = index.readFile h := by
  simp [obtain, bind_apply, recast, askDisk, hexists]

theorem obtain_of_absent (hexists : h.disk.exists? index.mappingFile = .ok false) :
    index.obtain h =
      match index.fetch h with
      | .error fault h' => .error fault h'
      | .ok _ h' => index.readFile h' := by
  simp only [obtain, bind_apply, recast, askDisk, hexists, Bool.not_false, if_true]
  cases index.fetch h <;> rfl

theorem obtain_of_mapped (hmapped : index.Mapped h h') : index.obtain h = index.readFile h' := by
  cases hmapped with
  | present hexists => exact obtain_of_present hexists
  | fetched hexists htext haddress hfile =>
      simp only [obtain_of_absent hexists, fetch_eq, htext, haddress, hfile]

theorem readFile_of_read {bytes : ByteArray} (hread : h.disk.read index.mappingFile = .ok bytes) :
    index.readFile h = .ok (.ofText (decodeAscii bytes)) h := by
  simp only [readFile, bind_apply, recast, askDisk, hread, pure_apply]

theorem obtain_of_unavailable (hnone : index.Unavailable h) :
    ∃ cause h', index.obtain h = .error (.index cause) h' := by
  cases hnone with
  | unanswered hexists htext =>
      rw [obtain_of_absent hexists, fetch_eq, htext]
      exact ⟨_, _, rfl⟩
  | unaddressed hexists htext haddress =>
      simp only [obtain_of_absent hexists, fetch_eq, htext, haddress]
      exact ⟨_, _, rfl⟩
  | undownloaded hexists htext haddress hfile =>
      simp only [obtain_of_absent hexists, fetch_eq, htext, haddress, hfile]
      exact ⟨_, _, rfl⟩
  | unreadable hmapped hread =>
      rw [obtain_of_mapped hmapped]
      simp only [readFile, bind_apply, recast, askDisk, hread]
      exact ⟨_, _, rfl⟩

/-- A fault on the way to the listing: there is none to be had, which is a matter of the index, or
the fault belongs to no stage. -/
def Amiss (index : TileIndex) (h : Host) (fault : Fault) : Prop :=
  index.Unavailable h ∧ (∃ cause, fault = .index cause) ∨ ∃ cause, fault = .escaped cause

theorem amiss_of_fetch {fault : FetchFault} (hunstaged : fault.Unstaged)
    (hfailed : ∀ cause, fault = .failed cause → index.Unavailable h) :
    index.Amiss h (faultOfFetch fault) := by
  rcases hunstaged with ⟨cause, rfl⟩ | ⟨failure, hunstaged, rfl⟩
  · exact .inl ⟨hfailed cause rfl, _, rfl⟩
  · exact .inr ⟨failure, Fault.ofFailure_of_unstaged hunstaged⟩

theorem ends_fetch_mapped (habsent : h.disk.exists? index.mappingFile = .ok false)
    (honly : h.network.Only (Reply.FailsAs Failure.Unstaged)) :
    Ends index.fetch h (fun _ h' => index.Mapped h h') (fun fault _ => index.Amiss h fault) := by
  simp only [fetch, ends_bind, ends_recast]
  refine (ends_self (index.downloader.fetchText listingServiceUrl) h).mono ?_ ?_
  · intro reply h₁ htext
    have honly₁ := ((Downloader.ends_fetchText _ _ _).of_ok htext).runs.only honly
    cases haddress : listingAddress reply with
    | error fault =>
        cases fault with
        | malformed cause => exact .inl ⟨.unaddressed habsent htext haddress, _, rfl⟩
        | tooDeep container => exact .inr ⟨_, rfl⟩
    | ok url =>
        dsimp only
        rw [ends_recast]
        refine (ends_self (index.downloader.fetchFile url index.mappingFile) h₁).mono ?_ ?_
        · intro _ h' hfile
          exact .fetched habsent htext haddress hfile
        · intro fault h' hfile
          refine amiss_of_fetch (Downloader.unstaged_of_fetchFile honly₁ hfile) ?_
          rintro cause rfl
          exact .undownloaded habsent htext haddress hfile
  · intro fault h₁ htext
    refine amiss_of_fetch (Downloader.unstaged_of_fetchText honly htext) ?_
    rintro cause rfl
    exact .unanswered habsent htext

/-- What is read from a file that is had is the listing. -/
theorem ends_readFile_of_mapped {h₁ : Host} (hmapped : index.Mapped h h₁) :
    Ends index.readFile h₁
      (fun listing h' => index.Mapped h h' ∧ ∃ bytes,
        h'.disk.read index.mappingFile = .ok bytes ∧ listing = .ofText (decodeAscii bytes))
      (fun fault _ => index.Amiss h fault) := by
  simp only [readFile, ends_bind, ends_recast, ends_askDisk, ends_pure]
  refine ⟨fun bytes hread => ⟨hmapped, bytes, hread, rfl⟩, fun fault hread => ?_⟩
  cases fault with
  | refused obstacle path => exact .inl ⟨.unreadable hmapped hread, _, rfl⟩
  | illegalName => exact .inr ⟨_, rfl⟩

theorem ends_obtain_mapped (honly : h.network.Only (Reply.FailsAs Failure.Unstaged)) :
    Ends index.obtain h
      (fun listing h' => index.Mapped h h' ∧ ∃ bytes,
        h'.disk.read index.mappingFile = .ok bytes ∧ listing = .ofText (decodeAscii bytes))
      (fun fault _ => index.Amiss h fault) := by
  simp only [obtain, ends_bind, ends_recast, ends_askDisk]
  refine ⟨fun present hexists => ?_, fun fault _ => .inr ⟨_, rfl⟩⟩
  cases present with
  | true =>
      simp only [Bool.not_true, Bool.false_eq_true, if_false]
      exact ends_readFile_of_mapped (.present hexists)
  | false =>
      simp only [Bool.not_false, if_true, ends_bind]
      refine (ends_fetch_mapped hexists honly).mono ?_ fun _ _ hamiss => hamiss
      exact fun _ _ hmapped => ends_readFile_of_mapped hmapped

end TileIndex

/-! ## Verdicts -/

namespace Service

/-- The listing that a query has, and the host then: it is loaded, or it is obtained and read. -/
inductive Lists (s : Service) : Listing → Host → Prop
  | loaded {listing : Listing} : s.provider.index.listing = some listing → Lists s listing s.host
  | read {bytes : ByteArray} {h : Host} : s.provider.index.listing = none →
      s.provider.index.Mapped s.host h →
        h.disk.read s.provider.index.mappingFile = .ok bytes →
          Lists s (.ofText (decodeAscii bytes))
            (h.note .info (TileIndex.loadedNote (.ofText (decodeAscii bytes))))

/-- The file of a tile that a query has, and the host then: it is there, or it is downloaded. -/
inductive Supplies (s : Service) (key : TileKey) : FilePath → Host → Prop
  | present {listing : Listing} {url : String} {h : Host} : s.Lists listing h →
      listing.url? key = some url →
        h.disk.exists? (tileFile s.provider.directory url) = .ok true →
          Supplies s key (tileFile s.provider.directory url) h
  | fetched {listing : Listing} {url : String} {h h' : Host} : s.Lists listing h →
      listing.url? key = some url →
        h.disk.exists? (tileFile s.provider.directory url) = .ok false →
          s.provider.downloader.fetchFile url (tileFile s.provider.directory url)
              (h.note .info (fetchingNote key url)) = .ok () h' →
            Supplies s key (tileFile s.provider.directory url) h'

/-- The raster that a query looks at: it is held, or else its file is decoded. -/
inductive Shows (s : Service) (key : TileKey) : Raster → Prop
  | held {raster : Raster} : s.provider.memory.find? key = some raster → Shows s key raster
  | decoded {path : FilePath} {h : Host} {raster : Raster} :
      s.provider.memory.find? key = none → s.Supplies key path h →
        tileRaster h.disk path = .ok raster → Shows s key raster

/-- What has to be so for a query for a position to be answered with a status and a height. -/
inductive Verdict (s : Service) (position : Position) : Status → Float → Prop
  | indexUnavailable : s.provider.memory.find? position.tileKey = none →
      s.provider.index.listing = none → s.provider.index.Unavailable s.host →
        Verdict s position .indexUnavailable 0.0
  | noTile {listing : Listing} {h : Host} : s.provider.memory.find? position.tileKey = none →
      s.Lists listing h → listing.url? position.tileKey = none →
        Verdict s position .noTile 0.0
  | downloadFailed {listing : Listing} {url : String} {h h' : Host} {cause : DownloadFault} :
      s.provider.memory.find? position.tileKey = none → s.Lists listing h →
        listing.url? position.tileKey = some url →
          h.disk.exists? (tileFile s.provider.directory url) = .ok false →
            s.provider.downloader.fetchFile url (tileFile s.provider.directory url)
                (h.note .info (fetchingNote position.tileKey url)) = .error (.failed cause) h' →
              Verdict s position .downloadFailed 0.0
  | undecodable {path : FilePath} {h : Host} {fault : DecodeFault} :
      s.provider.memory.find? position.tileKey = none → s.Supplies position.tileKey path h →
        tileRaster h.disk path = .error fault → Verdict s position .decodeFailed 0.0
  | outOfRange {raster : Raster} : s.Shows position.tileKey raster →
      ¬ (position.pixel.row < raster.rows ∧ position.pixel.column < raster.columns) →
        Verdict s position .decodeFailed 0.0
  | noData {raster : Raster} {value : Single} : s.Shows position.tileKey raster →
      raster.at? position.pixel.row position.pixel.column = some value → value.isNaN = true →
        Verdict s position .noData 0.0
  | ok {raster : Raster} {value : Single} : s.Shows position.tileKey raster →
      raster.at? position.pixel.row position.pixel.column = some value → value.isNaN = false →
        Verdict s position .ok value.toFloat

variable {s : Service} {key : TileKey} {listing : Listing} {url : String} {h h' : Host}
  {path : FilePath} {raster : Raster}

theorem Lists.runs (hlists : s.Lists listing h) : s.host.Runs h := by
  cases hlists with
  | loaded _ => exact .refl _
  | read _ hmapped _ => exact hmapped.runs.trans (.of_eq rfl rfl)

theorem load_of_lists (hlists : s.Lists listing h) :
    TileIndex.load s.indexed = .ok listing ⟨s.provider.index.loaded listing, h⟩ := by
  cases hlists with
  | loaded hlisting =>
      rw [TileIndex.load_of_listing hlisting, TileIndex.loaded, ← hlisting]
      rfl
  | read hlisting hmapped hread =>
      have hobtain : s.indexed.index.obtain s.indexed.host = _ :=
        (TileIndex.obtain_of_mapped hmapped).trans (TileIndex.readFile_of_read hread)
      rw [TileIndex.load_of_none hlisting, hobtain]
      rfl

theorem load_of_unlisted (hlists : s.Lists listing h) (hurl : listing.url? key = none) :
    s.load key s.indexed = .ok none ⟨s.provider.index.loaded listing, h⟩ := by
  simp only [load, Pipeline.load, Provider.pipeline, TileIndex.resolve, bind_apply,
    load_of_lists hlists, pure_apply, hurl]

/-- With the listing, the way to a raster is by its file. -/
theorem load_of_url (hlists : s.Lists listing h) (hurl : listing.url? key = some url) :
    s.load key s.indexed =
      match ensureTileFile s.provider.directory s.provider.downloader key url h with
      | .error fault h' => .error fault ⟨s.provider.index.loaded listing, h'⟩
      | .ok file h' =>
          match tileRaster h'.disk file with
          | .error fault => .error (.decode fault) ⟨s.provider.index.loaded listing, h'⟩
          | .ok raster => .ok (some raster) ⟨s.provider.index.loaded listing, h'⟩ := by
  have hload : TileIndex.load s.indexed =
      TileIndex.load ⟨s.provider.index.loaded listing, h⟩ :=
    (load_of_lists hlists).trans (TileIndex.load_of_listing rfl).symm
  rw [load, Provider.load_congr hload, Provider.load_of_url _ _ rfl hurl]
  cases ensureTileFile s.provider.directory s.provider.downloader key url h with
  | error fault h' => rfl
  | ok file h' =>
      simp only [bind_apply, onIndexedHost, onPart, readTile, tileRaster, get_apply]
      cases decodeTile file elevationBand (h'.disk.read file).toOption
          (h'.disk.read (sideFile file)).toOption <;> rfl

theorem load_of_supplies (hsupplies : s.Supplies key path h) : ∃ index,
    s.load key s.indexed =
      match tileRaster h.disk path with
      | .error fault => .error (.decode fault) ⟨index, h⟩
      | .ok raster => .ok (some raster) ⟨index, h⟩ := by
  cases hsupplies with
  | @present listing url _ hlists hurl hexists =>
      refine ⟨s.provider.index.loaded listing, ?_⟩
      rw [load_of_url hlists hurl, ensureTileFile_of_exists hexists]
  | @fetched listing url h₁ _ hlists hurl habsent hfile =>
      refine ⟨s.provider.index.loaded listing, ?_⟩
      rw [load_of_url hlists hurl, ensureTileFile_of_absent habsent, hfile]

theorem rasterOf_of_shows (hshows : s.Shows key raster) :
    ∃ s', rasterOf key s = .ok (some raster) s' := by
  cases hshows with
  | held hheld => exact rasterOf_of_held hheld
  | decoded hfree hsupplies hraster =>
      obtain ⟨index, hload⟩ := load_of_supplies hsupplies
      rw [hraster] at hload
      rw [rasterOf_of_free hfree, hload]
      exact ⟨_, rfl⟩

/-! ### From the verdict to the answer -/

section Answer

variable {latitude longitude : Float} {position : Position} {answer : Lookup} {s' : Service}
  {status : Status} {height : Float}

/-- The answer of a query is that for the raster that it has found, -/
theorem answer_of_rasterOf (hrun : lookup latitude longitude s = .ok answer s')
    (hplace : s.provider.projection.locate latitude longitude = .ok position)
    {found : Option Raster} {s₁ : Service} (hraster : rasterOf position.tileKey s = .ok found s₁) :
    answer = .ofFound position found ∧ s₁.Logged s' := by
  cases (ends_lookup latitude longitude s).of_ok hrun with
  | outside hplace' _ => cases hplace.symm.trans hplace'
  | found hplace' hraster' hlogged =>
      cases hplace.symm.trans hplace'
      cases hraster.symm.trans hraster'
      exact ⟨rfl, hlogged⟩
  | degraded hplace' hraster' _ _ =>
      cases hplace.symm.trans hplace'
      cases hraster.symm.trans hraster'

/-- or for the fault on the way to it. -/
theorem answer_of_rasterOf_error (hrun : lookup latitude longitude s = .ok answer s')
    (hplace : s.provider.projection.locate latitude longitude = .ok position)
    {fault : Fault} {s₁ : Service} (hraster : rasterOf position.tileKey s = .error fault s₁) :
    Lookup.ofFault position fault = .ok answer := by
  cases (ends_lookup latitude longitude s).of_ok hrun with
  | outside hplace' _ => cases hplace.symm.trans hplace'
  | found hplace' hraster' _ =>
      cases hplace.symm.trans hplace'
      cases hraster.symm.trans hraster'
  | degraded hplace' hraster' hanswer _ =>
      cases hplace.symm.trans hplace'
      cases hraster.symm.trans hraster'
      exact hanswer

theorem Verdict.answer_eq (hverdict : s.Verdict position status height)
    (hrun : lookup latitude longitude s = .ok answer s')
    (hplace : s.provider.projection.locate latitude longitude = .ok position) :
    answer = ⟨height, status, position, some position.tileKey⟩ := by
  -- either the way to a raster fails, or a raster is looked at
  have hmissed : ∀ {fault : Fault} {t : Indexed},
      s.provider.memory.find? position.tileKey = none →
        s.load position.tileKey s.indexed = .error fault t →
          Lookup.ofFault position fault = .ok answer := by
    intro fault t hfree hload
    have hraster := rasterOf_of_free hfree
    rw [hload] at hraster
    exact answer_of_rasterOf_error hrun hplace hraster
  have hshown : ∀ {raster : Raster}, s.Shows position.tileKey raster →
      answer = .ofFound position (some raster) := by
    intro raster hshows
    obtain ⟨s₁, hraster⟩ := rasterOf_of_shows hshows
    exact (answer_of_rasterOf hrun hplace hraster).1
  cases hverdict with
  | indexUnavailable hfree hlisting hnone =>
      obtain ⟨cause, h', hobtain⟩ := TileIndex.obtain_of_unavailable hnone
      have hload := TileIndex.load_of_none (s := s.indexed) hlisting
      rw [indexed, hobtain] at hload
      cases hmissed hfree (Provider.load_of_error hload)
      rfl
  | noTile hfree hlists hurl =>
      have hraster := rasterOf_of_free hfree
      rw [load_of_unlisted hlists hurl] at hraster
      exact (answer_of_rasterOf hrun hplace hraster).1
  | downloadFailed hfree hlists hurl habsent hfile =>
      have hload := load_of_url hlists hurl
      rw [ensureTileFile_of_absent habsent, hfile] at hload
      cases hmissed hfree hload
      rfl
  | undecodable hfree hsupplies hraster =>
      obtain ⟨index, hload⟩ := load_of_supplies hsupplies
      rw [hraster] at hload
      cases hmissed hfree hload
      rfl
  | outOfRange hshows hrange =>
      have hnone := Raster.at?_eq_none_iff.mpr hrange
      rw [hshown hshows, Lookup.ofFound, Raster.sample, hnone]
      rfl
  | noData hshows hvalue hmissing =>
      rw [hshown hshows, Lookup.ofFound, Raster.sample, hvalue]
      simp only [hmissing, if_true]
      rfl
  | ok hshows hvalue hmissing =>
      rw [hshown hshows, Lookup.ofFound, Raster.sample, hvalue]
      simp only [hmissing, Bool.false_eq_true, if_false]

theorem Verdict.ne_outsideCoverage (hverdict : s.Verdict position status height) :
    status ≠ .outsideCoverage := by
  cases hverdict <;> exact Status.noConfusion

/-- Looking at a raster that is held leaves nothing but a message. -/
theorem logged_of_held (hrun : lookup latitude longitude s = .ok answer s')
    (hplace : s.provider.projection.locate latitude longitude = .ok position)
    (hheld : s.provider.memory.find? position.tileKey = some raster) : s.Logged s' := by
  have hraster : rasterOf position.tileKey s = .ok (some raster) s := by
    rw [rasterOf_eq, cached, Pipeline.get_of_held hheld]
    rfl
  exact (answer_of_rasterOf hrun hplace hraster).2

/-! ### From the answer to the verdict -/

theorem ends_load_lists (honly : s.host.network.Only (Reply.FailsAs Failure.Unstaged)) :
    Ends TileIndex.load s.indexed
      (fun listing t => ∃ h, s.Lists listing h ∧ t = ⟨s.provider.index.loaded listing, h⟩)
      (fun fault _ => s.provider.index.listing = none ∧
        s.provider.index.Amiss s.host fault) := by
  cases hlisting : s.provider.index.listing with
  | some listing =>
      have hlists := Lists.loaded hlisting
      exact (ends_of_ok (load_of_lists hlists)).mpr ⟨_, hlists, rfl⟩
  | none =>
      have hload := TileIndex.load_of_none (s := s.indexed) hlisting
      cases hobtain : s.provider.index.obtain s.host with
      | error fault h =>
          rw [indexed, hobtain] at hload
          exact (ends_of_error hload).mpr
            ⟨rfl, (TileIndex.ends_obtain_mapped honly).of_error hobtain⟩
      | ok listing h =>
          rw [indexed, hobtain] at hload
          obtain ⟨hmapped, bytes, hread, rfl⟩ :=
            (TileIndex.ends_obtain_mapped honly).of_ok hobtain
          exact (ends_of_ok hload).mpr ⟨_, .read hlisting hmapped hread, rfl⟩

/-- The way to a raster without memory ends with a raster that is shown, or with a verdict. -/
def Judges (s : Service) (position : Position) : Prop :=
  Ends (s.load position.tileKey) s.indexed
    (fun found _ => (found = none → s.Verdict position .noTile 0.0) ∧
      ∀ raster, found = some raster → s.Shows position.tileKey raster)
    (fun fault _ => ∀ answer, Lookup.ofFault position fault = .ok answer →
      s.Verdict position answer.status answer.elevation)

theorem Supplies.judges (hsupplies : s.Supplies position.tileKey path h)
    (hfree : s.provider.memory.find? position.tileKey = none) : s.Judges position := by
  obtain ⟨index, hload⟩ := load_of_supplies hsupplies
  cases hraster : tileRaster h.disk path with
  | error fault =>
      rw [hraster] at hload
      refine (ends_of_error hload).mpr fun answer hanswer => ?_
      cases hanswer
      exact .undecodable hfree hsupplies hraster
  | ok raster =>
      rw [hraster] at hload
      refine (ends_of_ok hload).mpr ⟨nofun, fun raster' heq => ?_⟩
      cases heq
      exact .decoded hfree hsupplies hraster

theorem Lists.judges (hlists : s.Lists listing h) (hurl : listing.url? position.tileKey = some url)
    (honly : s.host.network.Only (Reply.FailsAs Failure.Unstaged))
    (hfree : s.provider.memory.find? position.tileKey = none) : s.Judges position := by
  have hload := load_of_url hlists hurl
  cases hexists : h.disk.exists? (tileFile s.provider.directory url) with
  | error fault =>
      rw [ensureTileFile_of_error hexists] at hload
      exact (ends_of_error hload).mpr fun answer => nofun
  | ok present =>
      cases present with
      | true => exact (Supplies.present hlists hurl hexists).judges hfree
      | false =>
          rw [ensureTileFile_of_absent hexists] at hload
          have honly' : (h.note .info (fetchingNote position.tileKey url)).network.Only
              (Reply.FailsAs Failure.Unstaged) := hlists.runs.only honly
          cases hfile : s.provider.downloader.fetchFile url
              (tileFile s.provider.directory url)
              (h.note .info (fetchingNote position.tileKey url)) with
          | ok _ h' => exact (Supplies.fetched hlists hurl hexists hfile).judges hfree
          | error fault h' =>
              rw [hfile] at hload
              refine (ends_of_error hload).mpr fun answer hanswer => ?_
              rcases Downloader.unstaged_of_fetchFile honly' hfile with
                ⟨cause, rfl⟩ | ⟨failure, hunstaged, rfl⟩
              · cases hanswer
                exact .downloadFailed hfree hlists hurl hexists hfile
              · rw [Fault.ofFetch, Fault.ofFailure_of_unstaged hunstaged] at hanswer
                cases hanswer

theorem judges (honly : s.host.network.Only (Reply.FailsAs Failure.Unstaged))
    (hfree : s.provider.memory.find? position.tileKey = none) : s.Judges position := by
  have hends := ends_load_lists honly
  cases hlisted : TileIndex.load s.indexed with
  | error fault t =>
      refine (ends_of_error (Provider.load_of_error hlisted)).mpr fun answer hanswer => ?_
      obtain ⟨hlisting, ⟨hnone, cause, rfl⟩ | ⟨cause, rfl⟩⟩ := hends.of_error hlisted
      · cases hanswer
        exact .indexUnavailable hfree hlisting hnone
      · cases hanswer
  | ok listing t =>
      obtain ⟨h, hlists, rfl⟩ := hends.of_ok hlisted
      cases hurl : listing.url? position.tileKey with
      | some url => exact hlists.judges hurl honly hfree
      | none =>
          refine (ends_of_ok (load_of_unlisted hlists hurl)).mpr ⟨fun _ => ?_, nofun⟩
          exact .noTile hfree hlists hurl

/-- Looking at a raster is a verdict. -/
theorem Shows.verdict (hshows : s.Shows position.tileKey raster) :
    s.Verdict position (Lookup.ofFound position (some raster)).status
      (Lookup.ofFound position (some raster)).elevation := by
  simp only [Lookup.ofFound, Raster.sample]
  cases hvalue : raster.at? position.pixel.row position.pixel.column with
  | none => exact .outOfRange hshows (Raster.at?_eq_none_iff.mp hvalue)
  | some value =>
      dsimp only
      cases hmissing : value.isNaN with
      | true => exact .noData hshows hvalue hmissing
      | false => exact .ok hshows hvalue hmissing

theorem verdict_of_lookup (honly : s.host.network.Only (Reply.FailsAs Failure.Unstaged))
    (hrun : lookup latitude longitude s = .ok answer s')
    (hplace : s.provider.projection.locate latitude longitude = .ok position) :
    s.Verdict position answer.status answer.elevation := by
  cases hfind : s.provider.memory.find? position.tileKey with
  | some raster =>
      have hshows := Shows.held hfind
      obtain ⟨s₁, hraster⟩ := rasterOf_of_shows hshows
      rw [(answer_of_rasterOf hrun hplace hraster).1]
      exact hshows.verdict
  | none =>
      have hends := judges honly hfind
      have hraster := rasterOf_of_free hfind
      cases hload : s.load position.tileKey s.indexed with
      | error fault t =>
          rw [hload] at hraster
          exact hends.of_error hload answer (answer_of_rasterOf_error hrun hplace hraster)
      | ok found t =>
          rw [hload] at hraster
          obtain ⟨hnone, hsome⟩ := hends.of_ok hload
          cases found with
          | none =>
              rw [(answer_of_rasterOf hrun hplace hraster).1]
              exact hnone rfl
          | some raster =>
              rw [(answer_of_rasterOf hrun hplace hraster).1]
              exact (hsome raster rfl).verdict

end Answer

end Service

end PointElevation
