import PointElevation.Proofs.Provider.Reference

/-!
# A network that fails delays answers

The way to a raster is gone through once more, over a directory that holds nothing but bodies and
with a network that fails at any request and in the middle of any body.  Every stage leaves such a
directory again, and what it comes to is what the reference has at this point (`Bodies.answer`), or
a download of that very query failed (`Hindered`), or it is a fault that is raised.
-/

namespace PointElevation

open PointElevation.Downloader (Published Unpublished)
open PointElevation.TileIndex (Obtained Unobtained Loads)
open PointElevation.Text (decodeAscii decodeUtf8)

/-- The answer for a query that needed a download which failed: one of its own replies did, or the
disk refused the file. -/
inductive Hindered (b : Bodies) (directory : Location) (position : Position) (s : Indexed)
    (h' : Host) : Lookup → Prop
  | listing {url : String} {reply : Reply} : s.index.listing = none →
      url = listingServiceUrl ∨ b.address = .ok url →
        (url, reply) ∈ s.host.exchanges h' → reply.Fails url →
          Hindered b directory position s h'
            (.without .indexUnavailable position (some position.tileKey))
  | listingRefused {fault : DiskFault} : s.index.listing = none →
      Disk.Refuses (.ofLocation (directory ++ [mappingsName])) s.host.disk h'.disk fault →
        Hindered b directory position s h'
          (.without .indexUnavailable position (some position.tileKey))
  | tile {listing : Listing} {s₁ : Indexed} {url : String} {reply : Reply} :
      TileIndex.load s = .ok listing s₁ → listing.url? position.tileKey = some url →
        (url, reply) ∈ s.host.exchanges h' → reply.Fails url →
          Hindered b directory position s h'
            (.without .downloadFailed position (some position.tileKey))
  | tileRefused {listing : Listing} {s₁ : Indexed} {url : String} {fault : DiskFault} :
      TileIndex.load s = .ok listing s₁ → listing.url? position.tileKey = some url →
        Disk.Refuses (.ofLocation (directory ++ [fileName url])) s₁.host.disk h'.disk fault →
          Hindered b directory position s h'
            (.without .downloadFailed position (some position.tileKey))

namespace Hindered

variable {b : Bodies} {directory : Location} {position : Position} {s : Indexed} {h' : Host}
  {answer : Lookup}

/-- Messages are no part of it. -/
theorem note (hhindered : Hindered b directory position s h' answer) (level : Level)
    (text : String) : Hindered b directory position s (h'.note level text) answer := by
  cases hhindered with
  | listing hlisting hurl hreply hfails => exact .listing hlisting hurl hreply hfails
  | listingRefused hlisting hrefuses => exact .listingRefused hlisting hrefuses
  | tile hload hurl hreply hfails => exact .tile hload hurl hreply hfails
  | tileRefused hload hurl hrefuses => exact .tileRefused hload hurl hrefuses

end Hindered

/-! ## What failed downloads are answered with -/

/-- What a failed download of the listing is answered with. -/
theorem TileIndex.answer_of_faultOfFetch {url : String} {own : Bool} {failure : Failure}
    {position : Position} {answer : Lookup} (hunstaged : failure.Unstaged)
    (hanswer : Lookup.ofFault position (faultOfFetch (.ofFailure url own failure)) = .ok answer) :
    answer = .without .indexUnavailable position (some position.tileKey) := by
  rw [FetchFault.ofFailure_of_unstaged hunstaged] at hanswer
  cases own with
  | true =>
      cases hanswer
      rfl
  | false =>
      simp only [Bool.false_eq_true, if_false, faultOfFetch,
        Fault.ofFailure_of_unstaged hunstaged] at hanswer
      cases hanswer

/-- What a failed download of a tile is answered with. -/
theorem answer_of_ofFetch {url : String} {own : Bool} {failure : Failure} {position : Position}
    {answer : Lookup} (hunstaged : failure.Unstaged)
    (hanswer : Lookup.ofFault position (.ofFetch (.ofFailure url own failure)) = .ok answer) :
    answer = .without .downloadFailed position (some position.tileKey) := by
  rw [FetchFault.ofFailure_of_unstaged hunstaged] at hanswer
  cases own with
  | true =>
      cases hanswer
      rfl
  | false =>
      simp only [Bool.false_eq_true, if_false, Fault.ofFetch,
        Fault.ofFailure_of_unstaged hunstaged] at hanswer
      cases hanswer

namespace Host.Faithful

variable {b : Bodies} {directory : Location} {position : Position} {h h' : Host}
  {index : TileIndex} {listing : Listing} {url : String} {fault : Fault}

/-! ## The listing -/

/-- The service says where the listing of the bodies is. -/
theorem address_eq (hfaithful : h.Faithful b directory) {text : String}
    (hasked : Asked listingServiceUrl (.ok text) h h') : b.address = listingAddress text := by
  obtain ⟨reply, hreply, htext⟩ := hasked.reply
  rw [Bodies.address, ← (hfaithful.allows hreply).text htext]

theorem obtained (hfaithful : h.Faithful b directory) (hdots : ".." ∉ directory)
    (hplace : index.directory = .ofLocation directory)
    (hobtained : Obtained index h listing h') :
    b.listing? = some listing ∧ h'.Faithful b directory := by
  have hfile := dots_notMem_append hdots isFileName_mappings
  cases hobtained with
  | present _ hread =>
      rw [TileIndex.mappingFile_eq hplace, read_place_eq_ok_iff hfile] at hread
      obtain ⟨url, haddress, hnode⟩ := (hfaithful.stocked _ _ hread.2.2).of_mappings
      cases hnode
      exact ⟨Bodies.listing?_of_address haddress, hfaithful⟩
  | @fetched text url h₁ _ publication _ hasked haddress =>
      have haddress' := (hfaithful.address_eq hasked).trans haddress
      have hfaithful₁ := hfaithful.asked hasked
      rw [hfaithful₁.published publication]
      refine ⟨Bodies.listing?_of_address haddress', ?_⟩
      have hgained := publication.gained (TileIndex.mappingFile_eq hplace) hfile
      refine hfaithful₁.gained publication.runs hgained ?_
      rw [hfaithful₁.published publication]
      exact .mappings haddress'

theorem unobtained (hfaithful : h.Faithful b directory) (hdots : ".." ∉ directory)
    (hplace : index.directory = .ofLocation directory)
    (hunobtained : Unobtained index h fault h') : h'.Faithful b directory := by
  cases hunobtained with
  | unasked _ => exact hfaithful
  | unreadable _ _ => exact hfaithful
  | unanswered _ hasked => exact hfaithful.asked hasked
  | unaddressed _ hasked _ => exact hfaithful.asked hasked
  | unpublished _ hasked _ hruns hfail =>
      rw [TileIndex.mappingFile_eq hplace] at hfail
      exact (hfaithful.asked hasked).grown hruns (hfail.grown hdots)

/-! ## The file of a tile -/

theorem ensured (hfaithful : h.Faithful b directory) (hdots : ".." ∉ directory)
    (hlisting : b.listing? = some listing) (hurl : listing.url? position.tileKey = some url)
    (hensured : Ensured (tileFile (.ofLocation directory) url) url h h') :
    h'.Faithful b directory := by
  have hkey := Bodies.keyed_of_listing? hlisting _ _ hurl
  cases hensured with
  | present _ => exact hfaithful
  | @fetched text _ publication _ =>
      have hfile := dots_notMem_append hdots (isFileName_fileName hkey)
      have hgained := publication.gained (tileFile_eq hkey) hfile
      have hnoted := hfaithful.note .info text
      refine hnoted.gained publication.runs hgained ?_
      rw [hnoted.published publication]
      exact .tile hlisting hurl

/-- A file of a tile that is there decodes to what the body does. -/
theorem tileRaster_eq (hfaithful : h.Faithful b directory) (hdots : ".." ∉ directory)
    (hlisting : b.listing? = some listing) (hurl : listing.url? position.tileKey = some url)
    (hexists : h.disk.exists? (tileFile (.ofLocation directory) url) = .ok true) :
    tileRaster h.disk (tileFile (.ofLocation directory) url) =
      (b.raster url).mapError (.unreadable (fileName url)) := by
  have hkey := Bodies.keyed_of_listing? hlisting _ _ hurl
  have hfile := dots_notMem_append hdots (isFileName_fileName hkey)
  have hnotesFile := dots_notMem_append hdots (isFileName_notes url)
  rw [tileFile_eq hkey] at hexists ⊢
  obtain ⟨hnameable, hreach, hnode⟩ := (exists?_place_eq_true_iff hfile).mp hexists
  obtain ⟨node, hget⟩ := Option.ne_none_iff_exists'.mp hnode
  obtain rfl := (hfaithful.stocked _ _ hget).of_fileName hlisting hurl
  -- there are no notes beside it that could change the heights
  have hnotes : (h.disk.read (.ofLocation (directory ++ [fileName url ++ notesSuffix]))).toOption =
      none := by
    cases hread : h.disk.read (.ofLocation (directory ++ [fileName url ++ notesSuffix])) with
    | error fault => rfl
    | ok bytes =>
        obtain ⟨-, -, hnode⟩ := (read_place_eq_ok_iff hnotesFile).mp hread
        exact absurd (hfaithful.stocked _ _ hnode) (Bodies.Stocks.ne_notes hlisting hurl)
  rw [tileRaster, sideFile_ofLocation (isFileName_notes url), hnotes,
    (read_place_eq_ok_iff hfile).mpr ⟨hnameable, hreach, hget⟩, Bodies.raster]
  simp only [decodeTile, Except.toOption, Option.map_none, name_ofLocation]
  cases Tiff.read (b url) none elevationBand <;> rfl

theorem unensured (hfaithful : h.Faithful b directory) (hdots : ".." ∉ directory)
    (hlisting : b.listing? = some listing) (hurl : listing.url? position.tileKey = some url)
    (hunensured : Unensured (tileFile (.ofLocation directory) url) url h fault h') :
    h'.Faithful b directory := by
  have hkey := Bodies.keyed_of_listing? hlisting _ _ hurl
  cases hunensured with
  | unasked _ => exact hfaithful
  | unpublished _ hruns hfail =>
      rw [tileFile_eq hkey] at hfail
      exact (hfaithful.note _ _).grown hruns (hfail.grown hdots)

end Host.Faithful

/-! ## The way to a raster -/

/-- Index and directory are faithful to the bodies. -/
structure Indexed.Faithful (b : Bodies) (directory : Location) (s : Indexed) : Prop where
  dots : ".." ∉ directory
  index : s.index.Faithful b directory
  host : s.host.Faithful b directory

namespace Indexed.Faithful

variable {b : Bodies} {directory : Location} {position : Position} {s s₁ s' : Indexed}
  {h' : Host} {listing : Listing} {url : String} {fault : Fault} {answer : Lookup}

theorem loads (h : s.Faithful b directory) (hloads : Loads s listing s') :
    b.listing? = some listing ∧ s'.Faithful b directory := by
  cases hloads with
  | held hlisting => exact ⟨h.index.listed listing hlisting, h⟩
  | obtained _ hobtained =>
      obtain ⟨hlisting, hhost⟩ := h.host.obtained h.dots h.index.place hobtained
      refine ⟨hlisting, h.dots, ⟨h.index.place, ?_⟩, hhost.note _ _⟩
      intro listing' hheld
      cases hheld
      exact hlisting

theorem load (h : s.Faithful b directory) (hload : TileIndex.load s = .ok listing s') :
    b.listing? = some listing ∧ s'.Faithful b directory ∧ s.host.Runs s'.host := by
  have hloads := TileIndex.loads_of_load hload
  obtain ⟨hlisting, hfaithful⟩ := h.loads hloads
  exact ⟨hlisting, hfaithful, hloads.runs⟩

/-- What is found is what the reference finds. -/
theorem finds (h : s.Faithful b directory) {found : Option Raster}
    (hfinds : Provider.Finds (.ofLocation directory) position.tileKey s found s') :
    s'.Faithful b directory ∧ Lookup.ofFound position found = b.answer position ∧
      ∀ raster ∈ found, b.Renders position.tileKey raster := by
  cases hfinds with
  | nothing hload hurl =>
      obtain ⟨hlisting, hloaded, -⟩ := h.load hload
      exact ⟨hloaded, by simp only [Bodies.answer, hlisting, hurl], by simp⟩
  | @raster listing url s₁ h' raster hload hurl hensured hraster =>
      obtain ⟨hlisting, hloaded, -⟩ := h.load hload
      have hhost := hloaded.host.ensured h.dots hlisting hurl hensured
      have hkey := Bodies.keyed_of_listing? hlisting _ _ hurl
      rw [hhost.tileRaster_eq h.dots hlisting hurl (hensured.exists?_eq h.dots hkey)] at hraster
      have hrenders : b.Renders position.tileKey raster := by
        refine ⟨listing, url, hlisting, hurl, ?_⟩
        cases hbody : b.raster url with
        | ok raster' =>
            rw [hbody] at hraster
            cases hraster
            rfl
        | error defect =>
            rw [hbody] at hraster
            cases hraster
      refine ⟨⟨h.dots, hloaded.index, hhost⟩, hrenders.answer_eq.symm, ?_⟩
      intro raster' hmem
      cases hmem
      exact hrenders

/-- Without the listing the answer is the reference's, or a download failed. -/
theorem hindered_of_unobtained (h : s.Faithful b directory) (hunloaded : s.index.listing = none)
    (hunobtained : Unobtained s.index s.host fault h')
    (hanswer : Lookup.ofFault position fault = .ok answer) :
    answer = b.answer position ∨ Hindered b directory position s h' answer := by
  have hfile := dots_notMem_append h.dots isFileName_mappings
  cases hunobtained with
  | unasked _ => cases hanswer
  | unreadable hexists hread =>
      -- what is there is the body, which can be read
      rw [TileIndex.mappingFile_eq h.index.place] at hexists hread
      obtain ⟨hnameable, hreach, hnode⟩ := (exists?_place_eq_true_iff hfile).mp hexists
      obtain ⟨node, hget⟩ := Option.ne_none_iff_exists'.mp hnode
      obtain ⟨url, -, rfl⟩ := (h.host.stocked _ _ hget).of_mappings
      rw [(read_place_eq_ok_iff hfile).mpr ⟨hnameable, hreach, hget⟩] at hread
      cases hread
  | unanswered _ hasked =>
      obtain ⟨reply, hreply, htext⟩ := hasked.reply
      have horderly := (h.host.allows hreply).orderly.text htext
      obtain rfl := TileIndex.answer_of_faultOfFetch horderly.unstaged hanswer
      exact .inr (.listing hunloaded (.inl rfl) hreply (Reply.fails_of_text htext))
  | @unaddressed text cause _ _ hasked haddress =>
      -- the bodies have no listing either
      have haddress' := (h.host.address_eq hasked).trans haddress
      cases cause with
      | malformed cause =>
          cases hanswer
          exact .inl (by rw [Bodies.answer, Bodies.listing?, haddress'])
      | tooDeep container => cases hanswer
  | @unpublished text url failure h₁ _ _ hasked haddress hruns hfail =>
      have haddress' := (h.host.address_eq hasked).trans haddress
      have hhost := h.host.asked hasked
      obtain rfl := TileIndex.answer_of_faultOfFetch
        (unstaged_of_unpublished hhost.orderly hfail) hanswer
      rw [TileIndex.mappingFile_eq h.index.place] at hfail
      cases hfail with
      | refused hrefuses =>
          rw [hasked.disk] at hrefuses
          exact .inr (.listingRefused hunloaded hrefuses)
      | reply _ _ hfailed hcontent =>
          exact .inr (.listing hunloaded (.inr haddress')
            (hasked.runs.mem_exchanges_of_right hruns hfailed) (Reply.fails_of_content hcontent))

/-- Without the file of a tile a download failed. -/
theorem hindered_of_unensured (h : s.Faithful b directory)
    (hload : TileIndex.load s = .ok listing s₁) (hurl : listing.url? position.tileKey = some url)
    (hunensured : Unensured (tileFile (.ofLocation directory) url) url s₁.host fault h')
    (hanswer : Lookup.ofFault position fault = .ok answer) :
    Hindered b directory position s h' answer := by
  obtain ⟨hlisting, hloaded, hruns⟩ := h.load hload
  have hkey := Bodies.keyed_of_listing? hlisting _ _ hurl
  cases hunensured with
  | unasked _ => cases hanswer
  | @unpublished failure text _ _ hruns' hfail =>
      have hnoted := hloaded.host.note .info text
      obtain rfl := answer_of_ofFetch (unstaged_of_unpublished hnoted.orderly hfail) hanswer
      rw [tileFile_eq hkey] at hfail
      cases hfail with
      | refused hrefuses => exact .tileRefused hload hurl hrefuses
      | reply _ _ hfailed hcontent =>
          have hnote : s₁.host.Runs (s₁.host.note .info text) := .of_eq rfl rfl
          exact .tile hload hurl ((hruns.trans hnote).mem_exchanges_of_right hruns' hfailed)
            (Reply.fails_of_content hcontent)

/-- Where the way is left, the answer is the reference's, or a download failed. -/
theorem misses (h : s.Faithful b directory)
    (hmisses : Provider.Misses (.ofLocation directory) position.tileKey s fault s') :
    s'.Faithful b directory ∧ ∀ answer, Lookup.ofFault position fault = .ok answer →
      answer = b.answer position ∨ Hindered b directory position s s'.host answer := by
  cases hmisses with
  | unlisted _ hunloaded hunobtained =>
      have hhost := h.host.unobtained h.dots h.index.place hunobtained
      refine ⟨⟨h.dots, h.index, hhost⟩, fun answer hanswer => ?_⟩
      exact h.hindered_of_unobtained hunloaded hunobtained hanswer
  | unensured hload hurl hunensured =>
      obtain ⟨hlisting, hloaded, -⟩ := h.load hload
      have hhost := hloaded.host.unensured h.dots hlisting hurl hunensured
      refine ⟨⟨h.dots, hloaded.index, hhost⟩, fun answer hanswer => .inr ?_⟩
      exact h.hindered_of_unensured hload hurl hunensured hanswer
  | @undecoded listing url s₁ fault h' hload hurl hensured hraster =>
      obtain ⟨hlisting, hloaded, -⟩ := h.load hload
      have hhost := hloaded.host.ensured h.dots hlisting hurl hensured
      have hkey := Bodies.keyed_of_listing? hlisting _ _ hurl
      -- the body itself does not decode, and so the reference answers the same
      rw [hhost.tileRaster_eq h.dots hlisting hurl (hensured.exists?_eq h.dots hkey)] at hraster
      refine ⟨⟨h.dots, hloaded.index, hhost⟩, fun answer hanswer => .inl ?_⟩
      cases hanswer
      cases hbody : b.raster url with
      | ok raster =>
          rw [hbody] at hraster
          cases hraster
      | error defect => simp only [Bodies.answer, hlisting, hurl, hbody]

/-- Where there is room for the files, it was a reply that failed. -/
theorem exists_fails (h : s.Faithful b directory)
    (hhindered : Hindered b directory position s h' answer)
    (hmappings : h'.disk.HasRoom directory mappingsName)
    (htiles : ∀ listing url, b.listing? = some listing →
      listing.url? position.tileKey = some url → h'.disk.HasRoom directory (fileName url)) :
    ∃ url reply, (url, reply) ∈ s.host.exchanges h' ∧ reply.Fails url := by
  cases hhindered with
  | listing _ _ hreply hfails => exact ⟨_, _, hreply, hfails⟩
  | listingRefused _ hrefuses =>
      have hfile := dots_notMem_append h.dots isFileName_mappings
      exact absurd hmappings (hrefuses.not_hasRoom hfile (by decide))
  | tile _ _ hreply hfails => exact ⟨_, _, hreply, hfails⟩
  | tileRefused hload hurl hrefuses =>
      obtain ⟨hlisting, -, -⟩ := h.load hload
      have hkey := Bodies.keyed_of_listing? hlisting _ _ hurl
      have hfile := dots_notMem_append h.dots (isFileName_fileName hkey)
      exact absurd (htiles _ _ hlisting hurl)
        (hrefuses.not_hasRoom hfile (slash_notMem_fileName _))

end Indexed.Faithful

end PointElevation
