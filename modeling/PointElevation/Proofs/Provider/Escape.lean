import PointElevation.Proofs.Provider.CacheRun

/-!
# What leaves a query

A query is meant to answer whatever goes wrong, and what goes wrong on the network or on the disk is
nearly always the fault of a stage.  The exceptions are listed here.  `TileIndex.Escapes` are those
on the way to the listing: its file cannot be asked for, the text of the service is not to be had
for another reason than a failed request, it nests too deeply, or the path of the file has a name
that no file can have.  `TileEscapes` are those on the way to the file of a tile.  With a network
that fails like a client or like the system, a query raises exactly in these cases.
-/

namespace PointElevation

open PointElevation.Downloader (Published Unpublished)
open PointElevation.TileIndex (Obtained Unobtained Loads)

/-! ## Orderly networks -/

/-- The failure is one of the request, or one of the system. -/
def Failure.IsOrderly (f : Failure) : Prop := f.isRequest = true ∨ f.kind = .system

/-- A failure that names no stage of the service. -/
def Failure.Unstaged (f : Failure) : Prop := ∀ stage, f.kind ≠ .staged stage

theorem Failure.IsOrderly.unstaged {f : Failure} (h : f.IsOrderly) : f.Unstaged := by
  intro stage hkind
  rcases h with hrequest | hsystem
  · simp [Failure.isRequest, hkind] at hrequest
  · rw [hkind] at hsystem
    cases hsystem

theorem Failure.unstaged_ofDisk (fault : DiskFault) : (Failure.ofDisk fault).Unstaged := by
  cases fault <;> exact fun _ => FailureKind.noConfusion

/-- The failure that is or ends a reply. -/
def Reply.cause? : Reply → Option Failure
  | .failure cause => some cause
  | .response _ _ _ cut => cut

/-- A reply that fails, if at all, by the request or by the system. -/
def Reply.Orderly (_ : String) (r : Reply) : Prop :=
  ∀ cause, r.cause? = some cause → cause.IsOrderly

theorem Reply.orderly_noRoute (url : String) : noRoute.Orderly url := by
  intro cause hcause
  cases hcause
  exact .inl (by decide)

theorem isRequest_of_statusFailure? {url reason : String} {status : Nat} {failure : Failure}
    (h : statusFailure? url status reason = some failure) : failure.isRequest = true := by
  unfold statusFailure? at h
  dsimp only at h
  split at h
  · cases h
    simp [Failure.isRequest]
  · split at h
    · cases h
      simp [Failure.isRequest]
    · cases h

/-- A text is not to be had because of a status, or because of the failure of the reply. -/
theorem Reply.of_text_error {url : String} {r : Reply} {failure : Failure}
    (htext : r.text url = .error failure) :
    failure.isRequest = true ∨ r.cause? = some failure := by
  cases r with
  | failure cause =>
      cases htext
      exact .inr rfl
  | response status reason pieces cut =>
      cases cut with
      | some cause =>
          cases htext
          exact .inr rfl
      | none =>
          simp only [Reply.text] at htext
          split at htext
          · rename_i fault hstatus
            cases htext
            exact .inl (isRequest_of_statusFailure? hstatus)
          · cases htext

theorem Reply.of_content_error {url : String} {r : Reply} {failure : Failure}
    (hcontent : r.content url = .error failure) :
    failure.isRequest = true ∨ r.cause? = some failure := by
  cases r with
  | failure cause =>
      cases hcontent
      exact .inr rfl
  | response status reason pieces cut =>
      simp only [Reply.content] at hcontent
      split at hcontent
      · rename_i fault hstatus
        cases hcontent
        exact .inl (isRequest_of_statusFailure? hstatus)
      · split at hcontent
        · cases hcontent
          exact .inr rfl
        · cases hcontent

theorem Reply.Orderly.text {url : String} {r : Reply} (h : r.Orderly url) {failure : Failure}
    (htext : r.text url = .error failure) : failure.IsOrderly :=
  (Reply.of_text_error htext).elim .inl (h failure)

theorem Reply.Orderly.content {url : String} {r : Reply} (h : r.Orderly url) {failure : Failure}
    (hcontent : r.content url = .error failure) : failure.IsOrderly :=
  (Reply.of_content_error hcontent).elim .inl (h failure)

theorem Network.Only.orderly {h h' : Host} (honly : h.network.Only Reply.Orderly) {url : String}
    {r : Reply} (hmem : (url, r) ∈ h.exchanges h') : r.Orderly url :=
  honly.exchanges Reply.orderly_noRoute _ _ hmem

/-! ## Networks that fail in one way -/

/-- The failure of a reply, if it has one, is of one sort. -/
def Reply.FailsAs (P : Failure → Prop) (_ : String) (r : Reply) : Prop :=
  ∀ cause, r.cause? = some cause → P cause

section FailsAs

variable {P : Failure → Prop} {h h' : Host} {url : String} {failure : Failure}

/-- An address without an answer fails the request. -/
theorem Network.Only.failsAs {r : Reply} (honly : h.network.Only (Reply.FailsAs P))
    (hrequest : ∀ f : Failure, f.isRequest = true → P f) (hmem : (url, r) ∈ h.exchanges h') :
    r.FailsAs P url := by
  refine honly.exchanges (fun _ cause hcause => ?_) _ _ hmem
  cases hcause
  exact hrequest _ (by decide)

/-- If failed requests are of that sort too, so is the failure of what was asked for as a text. -/
theorem Asked.failsAs (hasked : Asked url (.error failure) h h')
    (honly : h.network.Only (Reply.FailsAs P))
    (hrequest : ∀ f : Failure, f.isRequest = true → P f) : P failure := by
  obtain ⟨reply, hmem, htext⟩ := hasked.reply
  rcases Reply.of_text_error htext with hfailed | hcause
  · exact hrequest failure hfailed
  · exact honly.failsAs hrequest hmem failure hcause

/-- With the refusals of the disk, so is that of a file that was not published. -/
theorem Downloader.Unpublished.failsAs {target : FilePath}
    (hfail : Unpublished url target h h' failure) (honly : h.network.Only (Reply.FailsAs P))
    (hrequest : ∀ f : Failure, f.isRequest = true → P f) (hdisk : ∀ fault, P (.ofDisk fault)) :
    P failure := by
  cases hfail with
  | refused _ => exact hdisk _
  | reply _ _ hmem hcontent =>
      rcases Reply.of_content_error hcontent with hfailed | hcause
      · exact hrequest failure hfailed
      · exact honly.failsAs hrequest hmem failure hcause

end FailsAs

/-! ## Faults that belong to no stage -/

/-- Without a stage of its own, a failure goes on as it is. -/
theorem Fault.ofFailure_of_unstaged {failure : Failure} (h : failure.Unstaged) :
    Fault.ofFailure failure = .escaped failure := by
  unfold Fault.ofFailure
  split
  · exact absurd ‹_› (h .listing)
  · exact absurd ‹_› (h .download)
  · exact absurd ‹_› (h .decoding)
  · rfl

/-- Without a stage of its own, a failure is the download's if it is of the kinds that it owns. -/
theorem FetchFault.ofFailure_of_unstaged {url : String} {own : Bool} {failure : Failure}
    (h : failure.Unstaged) :
    FetchFault.ofFailure url own failure =
      if own then .failed (.ofRequest url failure) else .escaped failure := by
  rw [ofFailure, if_neg (h .download)]

theorem TileIndex.faultOfFetch_eq_escaped_iff {url : String} {own : Bool} {failure cause : Failure}
    (h : failure.Unstaged) :
    faultOfFetch (.ofFailure url own failure) = .escaped cause ↔ own = false ∧ failure = cause := by
  rw [FetchFault.ofFailure_of_unstaged h]
  cases own with
  | true => simp [faultOfFetch]
  | false => simp [faultOfFetch, Fault.ofFailure_of_unstaged h]

theorem Fault.ofFetch_eq_escaped_iff {url : String} {own : Bool} {failure cause : Failure}
    (h : failure.Unstaged) :
    Fault.ofFetch (.ofFailure url own failure) = .escaped cause ↔
      own = false ∧ failure = cause := by
  rw [FetchFault.ofFailure_of_unstaged h]
  cases own with
  | true => simp [Fault.ofFetch]
  | false => simp [Fault.ofFetch, Fault.ofFailure_of_unstaged h]

/-! ## Downloads that leave a query -/

section Downloads

variable {url : String} {target : FilePath} {h h' : Host} {failure cause : Failure}

theorem Failure.ofDisk_own_eq_false_iff {fault : DiskFault} :
    ((Failure.ofDisk fault).isRequest || (Failure.ofDisk fault).kind = .system) = false ↔
      fault = .illegalName := by
  cases fault <;> simp [Failure.ofDisk, Failure.isRequest]

theorem legal_of_published (publication : Published url target h h') :
    ¬ h.disk.CannotName target := by
  intro hcannot
  obtain ⟨hcheck, -⟩ := locate_eq_ok_iff.mp publication.takes.1
  rw [checkPath_eq_illegalName_iff.mpr hcannot.1] at hcheck
  cases hcheck

/-- A download that fails leaves the query exactly if the disk refuses the name of the file. -/
theorem escaped_of_unpublished_iff (hslash : '/' ∉ target.name.toList)
    (honly : h.network.Only Reply.Orderly) (hfail : Unpublished url target h h' failure) :
    (failure.isRequest || failure.kind = .system) = false ∧ failure = cause ↔
      h.disk.CannotName target ∧ Failure.ofDisk .illegalName = cause := by
  cases hfail with
  | refused hrefuses =>
      rw [Failure.ofDisk_own_eq_false_iff, ← hrefuses.eq_illegalName_iff hslash]
      constructor
      · rintro ⟨rfl, rfl⟩
        exact ⟨rfl, rfl⟩
      · rintro ⟨rfl, rfl⟩
        exact ⟨rfl, rfl⟩
  | reply hmake hcreate hreply hcontent =>
      have horderly := (honly.orderly hreply).content hcontent
      -- a reply that failed is the download's own; the name is legal, as a sibling has been made
      constructor
      · rintro ⟨hown, -⟩
        simp only [Bool.or_eq_false_iff, decide_eq_false_iff_not] at hown
        rcases horderly with hrequest | hsystem
        · rw [hown.1] at hrequest
          cases hrequest
        · exact absurd hsystem hown.2
      · rintro ⟨hcannot, -⟩
        rw [Disk.createTemporary_illegal hslash hcannot.1] at hcreate
        cases hcreate

theorem unstaged_of_unpublished (honly : h.network.Only Reply.Orderly)
    (hfail : Unpublished url target h h' failure) : failure.Unstaged := by
  cases hfail with
  | refused _ => exact Failure.unstaged_ofDisk _
  | reply _ _ hreply hcontent => exact ((honly.orderly hreply).content hcontent).unstaged

end Downloads

/-! ## The listing -/

namespace TileIndex

/-- What leaves a query on its way to a listing that is not loaded. -/
inductive Escapes (index : TileIndex) (h : Host) : Failure → Prop
  | unasked {fault : DiskFault} :
      h.disk.exists? index.mappingFile = .error fault → Escapes index h (.ofDisk fault)
  | unanswered {failure : Failure} :
      h.disk.exists? index.mappingFile = .ok false →
        h.network.text listingServiceUrl = .error failure → failure.isRequest = false →
          Escapes index h failure
  | nesting {reply : String} {container : Json.Container} :
      h.disk.exists? index.mappingFile = .ok false →
        h.network.text listingServiceUrl = .ok reply →
          listingAddress reply = .error (.tooDeep container) →
            Escapes index h ⟨.nesting, (ReplyFault.tooDeep container).message⟩
  | illegalName {reply url : String} :
      h.disk.exists? index.mappingFile = .ok false →
        h.network.text listingServiceUrl = .ok reply → listingAddress reply = .ok url →
          h.disk.CannotName index.mappingFile → Escapes index h (.ofDisk .illegalName)

variable {index : TileIndex} {h h' : Host} {cause : Failure}

/-- The cases exclude one another: the disk decides first, then the text, then what it says. -/
theorem escapes_iff :
    index.Escapes h cause ↔
      match h.disk.exists? index.mappingFile with
      | .error fault => .ofDisk fault = cause
      | .ok true => False
      | .ok false =>
          match h.network.text listingServiceUrl with
          | .error failure => failure.isRequest = false ∧ failure = cause
          | .ok reply =>
              match listingAddress reply with
              | .error (.malformed _) => False
              | .error (.tooDeep container) =>
                  ⟨.nesting, (ReplyFault.tooDeep container).message⟩ = cause
              | .ok _ => h.disk.CannotName index.mappingFile ∧ .ofDisk .illegalName = cause := by
  constructor
  · intro hescapes
    cases hescapes with
    | unasked hexists => simp only [hexists]
    | unanswered hexists htext hrequest =>
        simp only [hexists, htext]
        exact ⟨hrequest, trivial⟩
    | nesting hexists htext haddress => simp only [hexists, htext, haddress]
    | illegalName hexists htext haddress hcannot =>
        simp only [hexists, htext, haddress]
        exact ⟨hcannot, trivial⟩
  · intro hcase
    cases hexists : h.disk.exists? index.mappingFile with
    | error fault =>
        rw [hexists] at hcase
        subst hcase
        exact .unasked hexists
    | ok present =>
        cases present with
        | true =>
            rw [hexists] at hcase
            exact hcase.elim
        | false =>
            cases htext : h.network.text listingServiceUrl with
            | error failure =>
                simp only [hexists, htext] at hcase
                obtain ⟨hrequest, rfl⟩ := hcase
                exact .unanswered hexists htext hrequest
            | ok reply =>
                cases haddress : listingAddress reply with
                | ok url =>
                    simp only [hexists, htext, haddress] at hcase
                    obtain ⟨hcannot, rfl⟩ := hcase
                    exact .illegalName hexists htext haddress hcannot
                | error fault =>
                    cases fault with
                    | malformed _ => simp only [hexists, htext, haddress] at hcase
                    | tooDeep container =>
                        simp only [hexists, htext, haddress] at hcase
                        subst hcase
                        exact .nesting hexists htext haddress

theorem Obtained.not_escapes {listing : Listing} (hobtained : Obtained index h listing h') :
    ¬ index.Escapes h cause := by
  rw [escapes_iff]
  cases hobtained with
  | present hexists _ =>
      rw [hexists]
      exact id
  | fetched publication hexists hasked haddress =>
      simp only [hexists, hasked.text, haddress]
      have hlegal := legal_of_published publication
      rw [hasked.disk] at hlegal
      exact fun hcase => hlegal hcase.1

theorem Unobtained.escaped_iff (honly : h.network.Only Reply.Orderly) {fault : Fault}
    (hunobtained : Unobtained index h fault h') :
    fault = .escaped cause ↔ index.Escapes h cause := by
  rw [escapes_iff]
  cases hunobtained with
  | unasked hexists => simp only [hexists, Fault.escaped.injEq]
  | unreadable hexists hread => simp only [hexists, reduceCtorEq]
  | unanswered hexists hasked =>
      obtain ⟨reply, hreply, hfailure⟩ := hasked.reply
      have hunstaged := ((honly.orderly hreply).text hfailure).unstaged
      simp only [hexists, hasked.text, faultOfFetch_eq_escaped_iff hunstaged]
  | @unaddressed reply fault _ hexists hasked haddress =>
      cases fault with
      | malformed _ =>
          simp only [hexists, hasked.text, haddress, faultOfReply, reduceCtorEq]
      | tooDeep container =>
          simp only [hexists, hasked.text, haddress, faultOfReply, Fault.escaped.injEq]
  | unpublished hexists hasked haddress hruns hfail =>
      have honly₁ := hasked.runs.only honly
      have hunstaged := unstaged_of_unpublished honly₁ hfail
      have hslash : '/' ∉ index.mappingFile.name.toList := by
        rw [mappingFile_name]
        decide
      simp only [hexists, hasked.text, haddress, faultOfFetch_eq_escaped_iff hunstaged]
      rw [escaped_of_unpublished_iff hslash honly₁ hfail, hasked.disk]

end TileIndex

/-! ## The file of a tile -/

/-- What leaves a query on its way to the file of a tile. -/
inductive TileEscapes (path : FilePath) (h : Host) : Failure → Prop
  | unasked {fault : DiskFault} :
      h.disk.exists? path = .error fault → TileEscapes path h (.ofDisk fault)
  | illegalName : h.disk.exists? path = .ok false → h.disk.CannotName path →
      TileEscapes path h (.ofDisk .illegalName)

section Tile

variable {directory : Location} {name url : String} {path : FilePath} {h h' : Host}
  {cause : Failure}

theorem tileEscapes_iff :
    TileEscapes path h cause ↔
      match h.disk.exists? path with
      | .error fault => .ofDisk fault = cause
      | .ok true => False
      | .ok false => h.disk.CannotName path ∧ .ofDisk .illegalName = cause := by
  constructor
  · intro hescapes
    cases hescapes with
    | unasked hexists => simp only [hexists]
    | illegalName hexists hcannot =>
        simp only [hexists]
        exact ⟨hcannot, trivial⟩
  · intro hcase
    cases hexists : h.disk.exists? path with
    | error fault =>
        rw [hexists] at hcase
        subst hcase
        exact .unasked hexists
    | ok present =>
        rw [hexists] at hcase
        cases present with
        | true => exact hcase.elim
        | false =>
            obtain ⟨hcannot, rfl⟩ := hcase
            exact .illegalName hexists hcannot

theorem Ensured.not_escapes (hensured : Ensured path url h h') : ¬ TileEscapes path h cause := by
  rw [tileEscapes_iff]
  cases hensured with
  | present hexists =>
      rw [hexists]
      exact id
  | fetched publication hexists =>
      rw [hexists]
      exact fun hcase => legal_of_published publication hcase.1

theorem Unensured.escaped_iff (hslash : '/' ∉ name.toList) (honly : h.network.Only Reply.Orderly)
    {fault : Fault} (hunensured : Unensured (.ofLocation (directory ++ [name])) url h fault h') :
    fault = .escaped cause ↔ TileEscapes (.ofLocation (directory ++ [name])) h cause := by
  rw [tileEscapes_iff]
  cases hunensured with
  | unasked hexists => simp only [hexists, Fault.escaped.injEq]
  | @unpublished failure text _ hexists hruns hfail =>
      have honly₁ : (h.note .info text).network.Only Reply.Orderly := honly
      have hunstaged := unstaged_of_unpublished honly₁ hfail
      rw [hexists, Fault.ofFetch_eq_escaped_iff hunstaged,
        escaped_of_unpublished_iff (by rwa [name_ofLocation]) honly₁ hfail]
      rfl

end Tile

/-! ## Queries -/

namespace Service

/-- What leaves a query for a tile: on the way to the listing, or with the listing loaded on the way
to the file. -/
inductive Escapes (s : Service) (key : TileKey) : Failure → Prop
  | listing {cause : Failure} : s.provider.index.listing = none →
      s.provider.index.Escapes s.host cause → Escapes s key cause
  | tile {cause : Failure} {listing : Listing} {s₁ : Indexed} {url : String} :
      TileIndex.load ⟨s.provider.index, s.host⟩ = .ok listing s₁ → listing.url? key = some url →
        TileEscapes (tileFile s.provider.directory url) s₁.host cause → Escapes s key cause

/-- A provider keeps its files in a directory without dots, and what it has listed under keys. -/
structure Placed (directory : Location) (s : Service) : Prop where
  dots : ".." ∉ directory
  place : s.provider.directory = .ofLocation directory
  index : s.provider.index.directory = .ofLocation directory
  keyed : ∀ listing, s.provider.index.listing = some listing → listing.Keyed

variable {directory : Location} {limit : Int} {s : Service} {key : TileKey} {cause : Failure}

theorem Coherent.placed (h : s.Coherent directory limit) : s.Placed directory :=
  ⟨h.dots, h.place, h.caches.place, h.caches.keyed⟩

/-- While a listing is being loaded, only what leaves the query on the way to the listing does. -/
theorem escapes_iff_of_unlisted (hlisting : s.provider.index.listing = none)
    (hload : ∀ listing s₁, TileIndex.load ⟨s.provider.index, s.host⟩ ≠ .ok listing s₁) :
    s.Escapes key cause ↔ s.provider.index.Escapes s.host cause := by
  constructor
  · intro hescapes
    cases hescapes with
    | listing _ hescapes => exact hescapes
    | tile hload' _ _ => exact absurd hload' (hload _ _)
  · exact .listing hlisting

/-- Once a listing is loaded, only what leaves the query on the way to the tile does. -/
theorem Placed.escapes_iff_of_load (h : s.Placed directory) {listing : Listing}
    {s₁ : Indexed} (hload : TileIndex.load ⟨s.provider.index, s.host⟩ = .ok listing s₁) :
    s.Escapes key cause ↔ ∃ url, listing.url? key = some url ∧
      TileEscapes (tileFile (.ofLocation directory) url) s₁.host cause := by
  rw [← h.place]
  constructor
  · intro hescapes
    cases hescapes with
    | listing hlisting hescapes =>
        -- a listing that is loaded was held or has been obtained
        have hloads := TileIndex.loads_of_load hload
        cases hloads with
        | held hheld => cases hlisting.symm.trans hheld
        | obtained _ hobtained => exact absurd hescapes hobtained.not_escapes
    | tile hload' hurl hescapes =>
        cases hload.symm.trans hload'
        exact ⟨_, hurl, hescapes⟩
  · rintro ⟨url, hurl, hescapes⟩
    exact .tile hload hurl hescapes

theorem Placed.escapes_iff_of_url (h : s.Placed directory) {listing : Listing} {s₁ : Indexed}
    {url : String} (hload : TileIndex.load ⟨s.provider.index, s.host⟩ = .ok listing s₁)
    (hurl : listing.url? key = some url) :
    s.Escapes key cause ↔ TileEscapes (tileFile (.ofLocation directory) url) s₁.host cause := by
  rw [h.escapes_iff_of_load hload, hurl]
  simp

/-- Nothing leaves a query for a tile that there is not. -/
theorem Placed.not_escapes_of_url (h : s.Placed directory) {listing : Listing} {s₁ : Indexed}
    (hload : TileIndex.load ⟨s.provider.index, s.host⟩ = .ok listing s₁)
    (hurl : listing.url? key = none) : ¬ s.Escapes key cause := by
  rw [h.escapes_iff_of_load hload, hurl]
  simp

/-- The way to a raster fails with what belongs to no stage exactly in the cases that are listed. -/
theorem Placed.load_escapes_iff (h : s.Placed directory)
    (honly : s.host.network.Only Reply.Orderly) (d : Downloader) :
    (∃ t, (Provider.pipeline (.ofLocation directory) d).load key ⟨s.provider.index, s.host⟩ =
      .error (.escaped cause) t) ↔ s.Escapes key cause := by
  have hends := Provider.ends_pipeline_load (.ofLocation directory) d key
    ⟨s.provider.index, s.host⟩
  -- by the stage that was reached: what leaves the query does so at the stage that fails
  cases hrun : (Provider.pipeline (.ofLocation directory) d).load key
    ⟨s.provider.index, s.host⟩ with
  | ok found t =>
      simp only [reduceCtorEq, exists_false, false_iff]
      cases hends.of_ok hrun with
      | nothing hload hurl => exact h.not_escapes_of_url hload hurl
      | raster hload hurl hensured _ =>
          rw [h.escapes_iff_of_url hload hurl]
          exact hensured.not_escapes
  | error fault t =>
      simp only [EStateM.Result.error.injEq, exists_and_left, exists_eq', and_true]
      cases hends.of_error hrun with
      | unlisted hload hlisting hunobtained =>
          rw [hunobtained.escaped_iff honly]
          refine (escapes_iff_of_unlisted hlisting fun listing s₁ hload' => ?_).symm
          cases hload.symm.trans hload'
      | unensured hload hurl hunensured =>
          have hloads := TileIndex.loads_of_load hload
          have hkey := hloads.keyed h.keyed key _ hurl
          rw [h.escapes_iff_of_url hload hurl, tileFile_eq hkey]
          rw [tileFile_eq hkey] at hunensured
          exact hunensured.escaped_iff (slash_notMem_fileName _) (hloads.runs.only honly)
      | undecoded hload hurl hensured _ =>
          rw [h.escapes_iff_of_url hload hurl]
          simp only [reduceCtorEq, false_iff]
          exact hensured.not_escapes

/-- A query for a raster that is not held raises what leaves it. -/
theorem Placed.rasterOf_escapes_iff (h : s.Placed directory)
    (honly : s.host.network.Only Reply.Orderly) :
    (∃ s', rasterOf key s = .error (.escaped cause) s') ↔
      s.provider.memory.find? key = none ∧ s.Escapes key cause := by
  rw [← h.load_escapes_iff honly s.provider.downloader, ← h.place]
  simp only [rasterOf, bind_apply, get_apply, onCached, Host.onPart, Service.cached]
  cases hfind : s.provider.memory.find? key with
  | some raster => simp [Pipeline.get_of_held hfind]
  | none =>
      rw [Pipeline.get_of_free hfind]
      cases (Provider.pipeline s.provider.directory s.provider.downloader).load key
        ⟨s.provider.index, s.host⟩ with
      | error fault t => simp
      | ok found t => cases found <;> simp

/-- While the caches are coherent, no raster that is held keeps anything from leaving a query. -/
theorem Coherent.rasterOf_escapes_iff (h : s.Coherent directory limit)
    (honly : s.host.network.Only Reply.Orderly) (position : Position) :
    (∃ s', rasterOf position.tileKey s = .error (.escaped cause) s') ↔
      s.Escapes position.tileKey cause := by
  rw [h.placed.rasterOf_escapes_iff honly]
  refine ⟨fun hraises => hraises.2, fun hescapes => ⟨?_, hescapes⟩⟩
  -- for a raster that is held, the way without memory would not fail
  cases hfind : s.provider.memory.find? position.tileKey with
  | none => rfl
  | some raster =>
      obtain ⟨t, hload⟩ := (h.placed.load_escapes_iff honly s.provider.downloader).mpr hescapes
      rw [h.caches.load_of_held h.dots hfind] at hload
      cases hload

/-- Only an answer that is in order has a height. -/
theorem elevation_eq_zero_of_status_ne {latitude longitude : Float} {answer : Lookup} {s' : Service}
    (hrun : lookup latitude longitude s = .ok answer s') (hstatus : answer.status ≠ .ok) :
    answer.elevation = 0.0 := by
  cases (ends_lookup latitude longitude s).of_ok hrun with
  | outside hplace _ => exact (Projection.elevation_locate hplace).2
  | found _ _ _ => exact Lookup.elevation_ofFound hstatus
  | degraded _ _ hanswer _ => exact (Lookup.elevation_ofFault hanswer).2

/-- The number that stands for a height is that of the answer, and is raised where the answer is. -/
theorem elevation_eq (latitude longitude : Float) (s : Service) :
    elevation latitude longitude s =
      match lookup latitude longitude s with
      | .ok answer s' => .ok answer.elevation s'
      | .error cause s' => .error cause s' := by
  simp only [elevation, bind_apply]
  cases lookup latitude longitude s <;> rfl

/-- In every state of a provider, with a network that fails like a client or like the system, a
query raises exactly what is listed in `Escapes`.  In every other case it answers, the number that
stands for a height is that of the answer, and it is zero unless the answer is in order. -/
theorem query_raises_iff_escapes (h : s.Reachable) (honly : s.host.network.Only Reply.Orderly)
    (latitude longitude : Float) (cause : Failure) :
    ((∃ s', lookup latitude longitude s = .error cause s') ↔ ∃ position,
      s.provider.projection.locate latitude longitude = .ok position ∧
        s.Escapes position.tileKey cause) ∧
    (∀ s', elevation latitude longitude s = .error cause s' ↔
      lookup latitude longitude s = .error cause s') ∧
    ∀ answer s', lookup latitude longitude s = .ok answer s' →
      elevation latitude longitude s = .ok answer.elevation s' ∧
        (answer.status ≠ .ok → answer.elevation = 0.0) := by
  obtain ⟨directory, hcoherent⟩ := h.coherent
  simp only [lookup_raises_iff, hcoherent.rasterOf_escapes_iff honly, true_and]
  refine ⟨fun s' => ?_, ?_⟩
  · rw [elevation_eq]
    cases lookup latitude longitude s <;> simp
  · intro answer s' hrun
    rw [elevation_eq, hrun]
    exact ⟨rfl, elevation_eq_zero_of_status_ne hrun⟩

/-- So a failure of the system while the listing is asked for is raised, for every point of the
coverage, although the same failure of a download into a file is answered. -/
theorem query_raises_system_failure :
    let s : Service :=
      ⟨.standard 10.0 false, .bare ⟨[], [.failure ⟨.system, "Input/output error"⟩]⟩⟩
    s.Reachable ∧ ∀ position, Projection.lv95.locate 46.95 7.44 = .ok position →
      ∃ s', lookup 46.95 7.44 s = .error ⟨.system, "Input/output error"⟩ s' := by
  have hreachable := Reachable.created
    (Provider.create_bare ⟨[], [.failure ⟨.system, "Input/output error"⟩]⟩ 10.0 false)
  have honly : Network.Only Reply.Orderly ⟨[], [.failure ⟨.system, "Input/output error"⟩]⟩ := by
    refine Network.only_shared fun url cause hcause => ?_
    cases hcause
    exact .inr rfl
  refine ⟨hreachable, fun position hplace => ?_⟩
  have hescapes := (query_raises_iff_escapes hreachable honly 46.95 7.44
    ⟨.system, "Input/output error"⟩).1
  exact hescapes.mpr ⟨position, hplace, .listing rfl (.unanswered (exists?_bare _ _ _) rfl rfl)⟩

end Service

end PointElevation
