import PointElevation.Proofs.Provider.Escape

/-!
# A reference without caches

Where every address has one body, an answer is a function of the bodies alone: `Bodies.lookup`
projects the point, looks for its tile in the listing, and samples what the body of the tile decodes
to.  There is no disk in it, no network and no memory.

A network that `Bodies.Allows` all its replies may still fail at any request and in the middle of
any body.  What it brings to the disk are the bodies, whole and under their own names:
`Bodies.Stocks` says so of one file, `Host.Faithful` of the directory, and `Provider.Faithful` of
what a provider holds.
-/

namespace PointElevation

open PointElevation.Downloader (Published Unpublished)
open PointElevation.TileIndex (Obtained Unobtained Loads)
open PointElevation.Text (decodeAscii decodeUtf8)

/-- The body of each address. -/
abbrev Bodies := String → ByteArray

namespace Bodies

/-- The address of the listing. -/
def address (b : Bodies) : Except ReplyFault String :=
  listingAddress (decodeUtf8 (b listingServiceUrl))

/-- The listing, if it has an address. -/
def listing? (b : Bodies) : Option Listing :=
  match b.address with
  | .ok url => some (.ofText (decodeAscii (b url)))
  | .error _ => none

/-- What the body of a tile decodes to. -/
def raster (b : Bodies) (url : String) : Except Tiff.Defect Raster :=
  Tiff.read (b url) none elevationBand

/-- The answer at a position of the coverage. -/
def answer (b : Bodies) (position : Position) : Lookup :=
  match b.listing? with
  | none => .without .indexUnavailable position (some position.tileKey)
  | some listing =>
      match listing.url? position.tileKey with
      | none => .ofFound position none
      | some url =>
          match b.raster url with
          | .error _ => .without .decodeFailed position (some position.tileKey)
          | .ok raster => .ofFound position (some raster)

/-- A raster is what the body of a key's tile decodes to. -/
def Renders (b : Bodies) (key : TileKey) (raster : Raster) : Prop :=
  ∃ listing url, b.listing? = some listing ∧ listing.url? key = some url ∧ b.raster url = .ok raster

theorem Renders.answer_eq {b : Bodies} {position : Position} {raster : Raster}
    (h : b.Renders position.tileKey raster) :
    b.answer position = .ofFound position (some raster) := by
  obtain ⟨listing, url, hlisting, hurl, hraster⟩ := h
  simp only [answer, hlisting, hurl, hraster]

/-- The answer for a point. -/
def lookup (b : Bodies) (latitude longitude : Float) : Lookup :=
  match Projection.lv95.locate latitude longitude with
  | .error answer => answer
  | .ok position => b.answer position

/-- The replies of an address whose body may be delayed but not changed: the whole body with a
status that is none of an error, or a failure of the request. -/
inductive Allows (b : Bodies) (url : String) : Reply → Prop
  | whole {status : Nat} {reason : String} {pieces : List ByteArray} :
      statusFailure? url status reason = none → pieces.foldl (· ++ ·) .empty = b url →
        Allows b url (.response status reason pieces none)
  | refused {cause : Failure} : cause.isRequest = true → Allows b url (.failure cause)
  | cut {status : Nat} {reason : String} {pieces : List ByteArray} {cause : Failure} :
      cause.isRequest = true → Allows b url (.response status reason pieces (some cause))
  | status {status : Nat} {reason : String} {pieces : List ByteArray} :
      statusFailure? url status reason ≠ none → Allows b url (.response status reason pieces none)

variable {b : Bodies} {url : String} {r : Reply}

theorem allows_noRoute (b : Bodies) (url : String) : b.Allows url noRoute := .refused (by decide)

theorem Allows.orderly (h : b.Allows url r) : r.Orderly url := by
  intro cause hcause
  cases h with
  | whole _ _ => cases hcause
  | refused hrequest =>
      cases hcause
      exact .inl hrequest
  | cut hrequest =>
      cases hcause
      exact .inl hrequest
  | status _ => cases hcause

/-- A reply that is allowed fails by the request, or brings the body. -/
theorem Allows.content (h : b.Allows url r) {bytes : ByteArray}
    (hcontent : r.content url = .ok bytes) : bytes = b url := by
  cases h with
  | whole hstatus hbody =>
      simp only [Reply.content, hstatus] at hcontent
      cases hcontent
      exact hbody
  | refused _ => cases hcontent
  | cut _ =>
      simp only [Reply.content] at hcontent
      split at hcontent <;> cases hcontent
  | status hstatus =>
      simp only [Reply.content] at hcontent
      split at hcontent
      · cases hcontent
      · contradiction

theorem Allows.text (h : b.Allows url r) {text : String} (htext : r.text url = .ok text) :
    text = decodeUtf8 (b url) := by
  cases h with
  | whole hstatus hbody =>
      simp only [Reply.text, hstatus] at htext
      cases htext
      rw [hbody]
  | refused _ => cases htext
  | cut _ => cases htext
  | status hstatus =>
      simp only [Reply.text] at htext
      split at htext
      · cases htext
      · contradiction

/-! ## Files of the bodies -/

/-- A file of the directory is the listing or a tile, and holds its body. -/
inductive Stocks (b : Bodies) : String → Node → Prop
  | mappings {url : String} : b.address = .ok url → Stocks b mappingsName (.file (b url))
  | tile {listing : Listing} {position : Position} {url : String} : b.listing? = some listing →
      listing.url? position.tileKey = some url → Stocks b (fileName url) (.file (b url))

variable {listing : Listing} {position : Position} {node : Node}

theorem address_of_listing? (h : b.listing? = some listing) :
    ∃ url, b.address = .ok url ∧ listing = .ofText (decodeAscii (b url)) := by
  unfold listing? at h
  cases haddress : b.address with
  | ok url =>
      rw [haddress] at h
      cases h
      exact ⟨url, rfl, rfl⟩
  | error fault =>
      rw [haddress] at h
      cases h

theorem listing?_of_address (h : b.address = .ok url) :
    b.listing? = some (.ofText (decodeAscii (b url))) := by
  rw [listing?, h]

theorem keyed_of_listing? (h : b.listing? = some listing) : listing.Keyed := by
  obtain ⟨url, -, rfl⟩ := address_of_listing? h
  exact Listing.keyed_ofText _

/-- The listing's file holds the listing's body. -/
theorem Stocks.of_mappings (h : b.Stocks mappingsName node) :
    ∃ url, b.address = .ok url ∧ node = .file (b url) := by
  generalize hname : mappingsName = name at h
  cases h with
  | mappings haddress => exact ⟨_, haddress, rfl⟩
  | tile hlisting hurl =>
      exact absurd hname.symm (fileName_ne_mappings (keyed_of_listing? hlisting _ _ hurl))

/-- The file of a tile holds the body of the tile. -/
theorem Stocks.of_fileName (hlisting : b.listing? = some listing)
    (hurl : listing.url? position.tileKey = some url) (h : b.Stocks (fileName url) node) :
    node = .file (b url) := by
  have hkey := keyed_of_listing? hlisting _ _ hurl
  generalize hname : fileName url = name at h
  cases h with
  | mappings _ => exact absurd hname (fileName_ne_mappings hkey)
  | tile hlisting' hurl' =>
      -- the name tells the key, and the key the address
      have hkey' := keyed_of_listing? hlisting' _ _ hurl'
      rw [← key_eq_of_fileName_eq hkey hkey' hname] at hurl'
      cases hlisting.symm.trans hlisting'
      cases hurl.symm.trans hurl'
      rfl

/-- There are no notes on tiles. -/
theorem Stocks.ne_notes (hlisting : b.listing? = some listing)
    (hurl : listing.url? position.tileKey = some url) :
    ¬ b.Stocks (fileName url ++ notesSuffix) node := by
  intro h
  have hkey := keyed_of_listing? hlisting _ _ hurl
  generalize hname : fileName url ++ notesSuffix = name at h
  cases h with
  | mappings _ =>
      -- the two end in different letters
      have hlast := congrArg (fun s : String => s.toList.getLast?) hname
      have hnotes : notesSuffix.toList = ".aux.xm".toList ++ ['l'] := by decide
      have hmappings : mappingsName.toList = "mappings.cs".toList ++ ['v'] := by decide
      simp [String.toList_append, hnotes, hmappings] at hlast
  | @tile listing' position' url' hlisting' hurl' =>
      have hkey' := keyed_of_listing? hlisting' _ _ hurl'
      -- the tile with that name would be the same one, or its key would end like notes
      rcases key_of_fileName_eq_notes hkey hkey' hname.symm with heq | hnotes
      · rw [heq] at hurl'
        cases hlisting.symm.trans hlisting'
        cases hurl.symm.trans hurl'
        have hlength := congrArg String.length hname
        simp [notesSuffix] at hlength
      · exact tileKey_ne_append_notes _ _ hnotes

end Bodies

/-! ## What stays true along a run -/

/-- The directory holds nothing but bodies, and nothing else can come from the network. -/
structure Host.Faithful (b : Bodies) (directory : Location) (h : Host) : Prop where
  stocked : ∀ name node, h.disk.tree.get? (directory ++ [name]) = some node → b.Stocks name node
  network : h.network.Only b.Allows

/-- An index of the directory holds no listing but that of the bodies. -/
structure TileIndex.Faithful (b : Bodies) (directory : Location) (index : TileIndex) : Prop where
  place : index.directory = .ofLocation directory
  listed : ∀ listing, index.listing = some listing → b.listing? = some listing

/-- A provider over the directory holds the listing of the bodies, and rasters of its tiles. -/
structure Provider.Faithful (b : Bodies) (directory : Location) (p : Provider) : Prop where
  dots : ".." ∉ directory
  place : p.directory = .ofLocation directory
  projection : p.projection = .lv95
  index : p.index.Faithful b directory
  held : ∀ key raster, (key, raster) ∈ p.memory.held → b.Renders key raster

namespace Host.Faithful

variable {b : Bodies} {directory : Location} {h h' : Host} {name url : String} {bytes : ByteArray}

theorem orderly (hfaithful : h.Faithful b directory) : h.network.Only Reply.Orderly :=
  fun url r hmay => (hfaithful.network url r hmay).orderly

theorem allows (hfaithful : h.Faithful b directory) {r : Reply} (hmem : (url, r) ∈ h.exchanges h') :
    b.Allows url r :=
  hfaithful.network.exchanges b.allows_noRoute _ _ hmem

theorem note (hfaithful : h.Faithful b directory) (level : Level) (text : String) :
    (h.note level text).Faithful b directory := ⟨hfaithful.stocked, hfaithful.network⟩

theorem grown (hfaithful : h.Faithful b directory) (hruns : h.Runs h')
    (hgrown : Disk.Grown directory h.disk h'.disk) : h'.Faithful b directory where
  stocked := fun name node hnode => hfaithful.stocked name node (hgrown.get?_name name ▸ hnode)
  network := hruns.only hfaithful.network

theorem gained (hfaithful : h.Faithful b directory) (hruns : h.Runs h')
    (hgained : Disk.Gained directory name bytes h.disk h'.disk)
    (hstocks : b.Stocks name (.file bytes)) : h'.Faithful b directory where
  stocked := fun name' node hnode => by
    by_cases hname : name' = name
    · subst hname
      cases hgained.here.symm.trans hnode
      exact hstocks
    · exact hfaithful.stocked name' node (hgained.get?_of_ne hname ▸ hnode)
  network := hruns.only hfaithful.network

theorem asked (hfaithful : h.Faithful b directory) {answer : Except Failure String}
    (hasked : Asked url answer h h') : h'.Faithful b directory :=
  hfaithful.grown hasked.runs (hasked.disk ▸ .refl directory h.disk)

/-- What was published is the body. -/
theorem published (hfaithful : h.Faithful b directory) {target : FilePath}
    (publication : Published url target h h') : publication.bytes = b url :=
  (hfaithful.allows publication.asked).content publication.content

end Host.Faithful

end PointElevation
