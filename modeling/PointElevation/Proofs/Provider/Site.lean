import PointElevation.Proofs.Listing.Address
import PointElevation.Proofs.Provider.Delay
import PointElevation.Proofs.Provider.Settled

/-!
# Providers over one directory

Several providers may work over one directory, in turns, and each may be released and remove what
the others have downloaded (`Site`).  They share the host and nothing else, so it is enough that
what each of them holds comes from the bodies, whatever the directory holds by now.  This is kept by
every action (`Service.kept_faithful`), and it makes the network a matter of time only.
-/

namespace PointElevation

/-! ## The way to a raster, with memory -/

section Memory

variable {b : Bodies} {directory : Location} {memory : RasterMemory} {s : Indexed}
  {position : Position}

/-- A memory of rasters that are those of the bodies keeps this, and answers as the reference does,
or a download failed. -/
theorem Indexed.Faithful.ends_get (h : s.Faithful b directory)
    (hheld : ∀ key raster, (key, raster) ∈ memory.held → b.Renders key raster) (d : Downloader) :
    Ends ((Provider.pipeline (.ofLocation directory) d).get position.tileKey) (memory, s)
      (fun found t => (t.2.Faithful b directory ∧
          ∀ key raster, (key, raster) ∈ t.1.held → b.Renders key raster) ∧
        Lookup.ofFound position found = b.answer position)
      (fun fault t => (t.2.Faithful b directory ∧
          ∀ key raster, (key, raster) ∈ t.1.held → b.Renders key raster) ∧
        ∀ answer, Lookup.ofFault position fault = .ok answer →
          answer = b.answer position ∨ Hindered b directory position s t.2.host answer) := by
  unfold Ends
  -- a raster that is held is a body's, whatever has become of its file
  cases hfind : memory.find? position.tileKey with
  | some raster =>
      rw [Pipeline.get_of_held hfind]
      exact ⟨⟨h, hheld⟩, (hheld _ _ (RasterMemory.mem_held hfind)).answer_eq.symm⟩
  | none =>
      have hends := Provider.ends_pipeline_load (.ofLocation directory) d position.tileKey s
      rw [Pipeline.get_of_free hfind]
      cases hload : (Provider.pipeline (.ofLocation directory) d).load position.tileKey s with
      | error fault s₁ =>
          obtain ⟨hfaithful, hanswer⟩ := h.misses (hends.of_error hload)
          exact ⟨⟨hfaithful, hheld⟩, hanswer⟩
      | ok found s₁ =>
          obtain ⟨hfaithful, hanswer, hrenders⟩ := h.finds (hends.of_ok hload)
          cases found with
          | none => exact ⟨⟨hfaithful, hheld⟩, hanswer⟩
          | some raster =>
              dsimp only
              refine ⟨⟨?_, fun key raster' hmem => ?_⟩, hanswer⟩
              · by_cases hempty : memory.overfull = true
                · rw [if_pos hempty]
                  exact ⟨hfaithful.dots, hfaithful.index, hfaithful.host.note _ _⟩
                · rw [if_neg hempty]
                  exact hfaithful
              · rcases RasterMemory.mem_held_insert hmem with heq | hmem
                · cases heq
                  exact hrenders raster rfl
                · exact hheld key raster' hmem

end Memory

/-! ## Every action keeps what is held to the bodies -/

namespace Service

/-- A provider and its host are faithful to the bodies. -/
structure Faithful (b : Bodies) (directory : Location) (s : Service) : Prop where
  provider : s.provider.Faithful b directory
  host : s.host.Faithful b directory

namespace Faithful

variable {b : Bodies} {directory : Location} {s s' : Service}

theorem indexed (h : s.Faithful b directory) :
    Indexed.Faithful b directory ⟨s.provider.index, s.host⟩ :=
  ⟨h.provider.dots, h.provider.index, h.host⟩

theorem placed (h : s.Faithful b directory) : s.Placed directory where
  dots := h.provider.dots
  place := h.provider.place
  index := h.provider.index.place
  keyed := fun _ hlisting => Bodies.keyed_of_listing? (h.provider.index.listed _ hlisting)

theorem noted (h : s.Faithful b directory) (level : Level) (text : String) :
    (s.noted level text).Faithful b directory :=
  ⟨h.provider, h.host.note level text⟩

theorem ends_rasterOf (h : s.Faithful b directory) (position : Position) :
    Ends (rasterOf position.tileKey) s
      (fun found s' => s'.Faithful b directory ∧ Lookup.ofFound position found = b.answer position)
      (fun fault s' => s'.Faithful b directory ∧
        ∀ answer, Lookup.ofFault position fault = .ok answer → answer = b.answer position ∨
          Hindered b directory position ⟨s.provider.index, s.host⟩ s'.host answer) := by
  rw [Service.ends_rasterOf, h.provider.place]
  refine (h.indexed.ends_get h.provider.held s.provider.downloader).mono ?_ ?_
  · intro found t hend
    obtain ⟨⟨hfaithful, hheld⟩, hanswer⟩ := hend
    exact ⟨⟨⟨hfaithful.dots, h.provider.place, h.provider.projection, hfaithful.index, hheld⟩,
      hfaithful.host⟩, hanswer⟩
  · intro fault t hend
    obtain ⟨⟨hfaithful, hheld⟩, hanswer⟩ := hend
    exact ⟨⟨⟨hfaithful.dots, h.provider.place, h.provider.projection, hfaithful.index, hheld⟩,
      hfaithful.host⟩, hanswer⟩

theorem released (h : s.Faithful b directory) (hreleased : Released directory s s') :
    s'.Faithful b directory := by
  obtain ⟨p, host⟩ := s'
  obtain ⟨rfl, hnetwork, -, hdisk⟩ := hreleased
  constructor
  · exact ⟨h.provider.dots, h.provider.place, h.provider.projection, h.provider.index,
      fun _ _ hmem => absurd hmem List.not_mem_nil⟩
  · refine ⟨fun name node hnode => ?_, ?_⟩
    · rcases hdisk with heq | heq
      · exact h.host.stocked name node (heq ▸ hnode)
      · rw [heq, Disk.get?_without] at hnode
        cases hnode
    · intro url r hmay
      rw [hnetwork] at hmay
      exact h.host.network url r hmay

end Faithful

theorem kept_faithful (b : Bodies) (directory : Location) : Kept (Faithful b directory) where
  noted := fun _ level text h => h.noted level text
  rasterOf := fun _ position h =>
    (h.ends_rasterOf position).mono (fun _ _ hgood => hgood.1) fun _ _ hbad => hbad.1
  setAutoRemove := fun _ _ h =>
    ⟨⟨h.provider.dots, h.provider.place, h.provider.projection, h.provider.index,
      h.provider.held⟩, h.host⟩
  release := fun _ h => (ends_release h.provider.dots h.provider.place).mono
    (fun _ _ hgood => h.released hgood) fun _ _ hbad => h.released hbad

/-- A query is answered by the reference, or a download of its own failed. -/
theorem Faithful.answers {b : Bodies} {directory : Location} {s : Service}
    (h : s.Faithful b directory) {latitude longitude : Float} {answer : Lookup} {s' : Service}
    (hrun : lookup latitude longitude s = .ok answer s') :
    answer = b.lookup latitude longitude ∨ ∃ position,
      Projection.lv95.locate latitude longitude = .ok position ∧
        Hindered b directory position ⟨s.provider.index, s.host⟩ s'.host answer := by
  have hanswers := (ends_lookup latitude longitude s).of_ok hrun
  unfold Bodies.lookup
  cases hanswers with
  | outside hplace _ =>
      rw [h.provider.projection] at hplace
      exact .inl (by rw [hplace])
  | found hplace hraster _ =>
      rw [h.provider.projection] at hplace
      rw [hplace]
      exact .inl ((h.ends_rasterOf _).of_ok hraster).2
  | degraded hplace hraster hanswer hlogged =>
      rw [h.provider.projection] at hplace
      rw [hplace]
      refine (((h.ends_rasterOf _).of_error hraster).2 answer hanswer).imp_right fun hhindered => ?_
      refine ⟨_, rfl, ?_⟩
      rcases hlogged with rfl | ⟨level, text, rfl⟩
      · exact hhindered
      · exact hhindered.note level text

end Service

/-! ## Sites -/

/-- Providers over one directory, which are made and asked in any order, and the host that they
share. -/
inductive Site (directory : Location) (start : Host) : List Provider → Host → Prop
  | start : Site directory start [] start
  | opened {providers : List Provider} {h h' : Host} {path : String} {shared : Option Downloader}
      {timeout : Float} {autoRemove : Bool} {p : Provider} :
      Site directory start providers h →
        Provider.create path shared timeout autoRemove h = .ok p h' →
          p.directory = .ofLocation directory → Site directory start (p :: providers) h'
  | performed {before after : List Provider} {p : Provider} {h : Host} (action : Action) :
      Site directory start (before ++ p :: after) h →
        Site directory start (before ++ (Service.perform ⟨p, h⟩ action).2.provider :: after)
          (Service.perform ⟨p, h⟩ action).2.host

/-- A new provider holds nothing that could not come from the bodies. -/
theorem Provider.Fresh.faithful {directory : Location} {p : Provider} (h : p.Fresh directory)
    (b : Bodies) : p.Faithful b directory where
  dots := h.dots
  place := h.place
  projection := h.projection
  index := by
    rw [h.index]
    exact ⟨h.place, fun _ hlisting => by cases hlisting⟩
  held := fun _ _ hmem => by
    rw [h.memory] at hmem
    cases hmem

namespace Site

variable {b : Bodies} {directory : Location} {start h : Host} {providers : List Provider}

theorem faithful (hsite : Site directory start providers h)
    (honly : start.network.Only b.Allows)
    (hempty : ∀ name, start.disk.tree.get? (directory ++ [name]) = none) :
    h.Faithful b directory ∧ ∀ p ∈ providers, p.Faithful b directory := by
  -- over the steps of the site; a provider that acts changes the host for all others, but only to
  -- one that is faithful again
  induction hsite with
  | start =>
      refine ⟨⟨fun name node hnode => ?_, honly⟩, by simp⟩
      rw [hempty name] at hnode
      cases hnode
  | @opened providers h h' path shared timeout autoRemove p _ hcreate hplace ih =>
      obtain ⟨rfl, l, hfresh⟩ :=
        (Provider.ends_create path shared timeout autoRemove h).of_ok hcreate
      obtain rfl : l = directory := by
        simpa [FilePath.ofLocation] using hfresh.place.symm.trans hplace
      refine ⟨ih.1, fun p' hp' => ?_⟩
      rcases List.mem_cons.mp hp' with rfl | hp'
      · exact hfresh.faithful b
      · exact ih.2 p' hp'
  | @performed before after p h action _ ih =>
      have hp : Service.Faithful b directory ⟨p, h⟩ := ⟨ih.2 p (by simp), ih.1⟩
      have hperformed := (Service.kept_faithful b directory).perform action hp
      refine ⟨hperformed.host, fun p' hp' => ?_⟩
      rcases List.mem_append.mp hp' with hp' | hp'
      · exact ih.2 p' (List.mem_append_left _ hp')
      · rcases List.mem_cons.mp hp' with rfl | hp'
        · exact hperformed.provider
        · exact ih.2 p' (List.mem_append_right _ (List.mem_cons_of_mem _ hp'))

/-- Where there is room for the files, a query that is not answered by the reference has had a reply
that failed. -/
theorem exists_fails_of_ne (hsite : Site directory start providers h)
    (honly : start.network.Only b.Allows)
    (hempty : ∀ name, start.disk.tree.get? (directory ++ [name]) = none) {p : Provider}
    (hp : p ∈ providers) {latitude longitude : Float} {answer : Lookup} {s' : Service}
    (hrun : Service.lookup latitude longitude ⟨p, h⟩ = .ok answer s')
    (hmappings : s'.host.disk.HasRoom directory mappingsName)
    (htiles : ∀ listing position url, b.listing? = some listing →
      listing.url? (Position.tileKey position) = some url →
        s'.host.disk.HasRoom directory (fileName url))
    (hne : answer ≠ b.lookup latitude longitude) :
    ∃ url reply, (url, reply) ∈ h.exchanges s'.host ∧ reply.Fails url := by
  obtain ⟨hhost, hproviders⟩ := hsite.faithful honly hempty
  have hfaithful : Service.Faithful b directory ⟨p, h⟩ := ⟨hproviders p hp, hhost⟩
  rcases hfaithful.answers hrun with heq | ⟨position, -, hhindered⟩
  · exact absurd heq hne
  · refine hfaithful.indexed.exists_fails hhindered hmappings ?_
    exact fun listing url hlisting hurl => htiles listing position url hlisting hurl

/-- Where every address has one body, which the network may keep back but not change, and where the
directory is empty at first, no provider ever answers anything but the reference's answer, unless a
download of that very query failed.  What a query raises is listed in `Escapes`. -/
theorem answers_or_raises (hsite : Site directory start providers h)
    (honly : start.network.Only b.Allows)
    (hempty : ∀ name, start.disk.tree.get? (directory ++ [name]) = none) {p : Provider}
    (hp : p ∈ providers) (latitude longitude : Float) :
    (∀ answer s', Service.lookup latitude longitude ⟨p, h⟩ = .ok answer s' →
      answer = b.lookup latitude longitude ∨ ∃ position,
        Projection.lv95.locate latitude longitude = .ok position ∧
          Hindered b directory position ⟨p.index, h⟩ s'.host answer) ∧
    ∀ cause, (∃ s', Service.lookup latitude longitude ⟨p, h⟩ = .error cause s') ↔ ∃ position,
      Projection.lv95.locate latitude longitude = .ok position ∧
        p.memory.find? position.tileKey = none ∧
          Service.Escapes ⟨p, h⟩ position.tileKey cause := by
  obtain ⟨hhost, hproviders⟩ := hsite.faithful honly hempty
  have hfaithful : Service.Faithful b directory ⟨p, h⟩ := ⟨hproviders p hp, hhost⟩
  refine ⟨fun answer s' hrun => hfaithful.answers hrun, fun cause => ?_⟩
  simp only [Service.lookup_raises_iff, hfaithful.placed.rasterOf_escapes_iff hhost.orderly,
    (hproviders p hp).projection]

end Site

/-! ## Two tiles, and a network that fails at first -/

/-- Bodies of a listing of two tiles, and of the tiles. -/
def Bodies.cropped : Bodies := fun url =>
  if url = listingServiceUrl then "\x7b\"href\":\"h\"\x7d".toUTF8
  else if url = "h" then croppedListing.toUTF8
  else Tiff.planarFile

theorem Bodies.address_cropped : cropped.address = .ok "h" := by
  have hbody : cropped listingServiceUrl = "\x7b\"href\":\"h\"\x7d".toUTF8 := if_pos rfl
  have htext : Text.decodeUtf8 "\x7b\"href\":\"h\"\x7d".toUTF8 =
      String.ofList "\x7b\"href\":\"h\"\x7d".toList := by decide +kernel
  have hname : Json.SpellsString ('"' :: ("href".toList ++ ['"'])) "href" :=
    .intro (.plain (by simp))
  have hurl : Json.SpellsString ('"' :: ("h".toList ++ ['"'])) "h" := .intro (.plain (by simp))
  let members : List Json.Member := [⟨"href", "\"href\"".toList, .string "h", "\"h\"".toList⟩]
  have hmembers : members ≠ [] := List.cons_ne_nil _ _
  have hspells : Json.Spells "\x7b\"href\":\"h\"\x7d".toList (.object [("href", .string "h")]) :=
    .object hmembers
      (List.forall_mem_singleton.mpr (.of_string hname))
      (List.forall_mem_singleton.mpr (.string hurl))
  have hfits : Json.Fits Json.depthLimit (.object [("href", .string "h")]) :=
    .object (List.forall_mem_singleton.mpr (.string _))
  rw [address, hbody, htext]
  exact listingAddress_of_givesAddress (Json.parse_of_spells hspells hfits)
    ⟨by decide, [], [], rfl, List.forall_mem_nil _⟩

/-- The reference has a height in the last corner of the first tile. -/
theorem Bodies.answer_cropped : cropped.answer ⟨2600002, 1200994⟩ = .corner := by
  have htext : Text.decodeAscii (cropped "h") = croppedListing.toList := by decide +kernel
  have hlisting : cropped.listing? = some (.ofText croppedListing.toList) := by
    simp only [listing?, address_cropped, htext]
  have hkey : Position.tileKey ⟨2600002, 1200994⟩ = "2600-1200" := by decide +kernel
  obtain ⟨r, hread, -, -, hvalue⟩ := Tiff.exists_read_planar
  have hbody : cropped "h/a_b_2600-1200" = Tiff.planarFile := by
    rw [cropped, if_neg (by decide), if_neg (by decide)]
  have hraster : cropped.raster "h/a_b_2600-1200" = .ok r := by rw [raster, hbody, hread]
  simp only [answer, hlisting, hkey, Listing.url?_cropped, hraster]
  exact Lookup.ofFound_corner hvalue

/-- A network that has these bodies, but fails at the first request of the listing service and of
the first tile. -/
def Network.cropped : Network where
  replies :=
    [(listingServiceUrl,
      [.failure ⟨.transient, "reset"⟩, .response 200 "OK" [Bodies.cropped listingServiceUrl] none]),
     ("h", [.response 200 "OK" [Bodies.cropped "h"] none])]
  shared := [.response 503 "Busy" [] none, .response 200 "OK" [Tiff.planarFile] none]

theorem Network.only_cropped : cropped.Only Bodies.cropped.Allows := by
  refine only_of_forall ?_ fun url hnone r hr => ?_
  · refine List.forall_mem_cons.mpr ⟨?_, List.forall_mem_singleton.mpr ?_⟩
    · refine List.forall_mem_cons.mpr ⟨.refused (by decide), List.forall_mem_singleton.mpr ?_⟩
      exact .whole rfl (ByteArray.empty_append)
    · exact List.forall_mem_singleton.mpr (.whole rfl (ByteArray.empty_append))
  · have hother : url ≠ listingServiceUrl ∧ url ≠ "h" := by
      simpa [cropped, List.lookup_eq_none_iff] using hnone
    have hbody : Bodies.cropped url = Tiff.planarFile := by
      rw [Bodies.cropped, if_neg hother.1, if_neg hother.2]
    rcases List.mem_cons.mp hr with rfl | hr
    · exact .status nofun
    · rw [List.mem_singleton.mp hr]
      exact .whole rfl (by rw [hbody]; rfl)

/-- So does the second of two providers on a bare host, after the first has asked, with a network
that fails at first.  The reference has a height. -/
theorem Site.answers_or_raises_pair :
    let s := (Service.perform ⟨.standard 10.0 true, .bare .cropped⟩ (.lookup 46.96007 7.43864)).2
    let p := Provider.standard 10.0 false
    Bodies.cropped.answer ⟨2600002, 1200994⟩ = .corner ∧
    (∀ answer s', Service.lookup 46.96007 7.43864 ⟨p, s.host⟩ = .ok answer s' →
      answer = Bodies.cropped.lookup 46.96007 7.43864 ∨ ∃ position,
        Projection.lv95.locate 46.96007 7.43864 = .ok position ∧
          Hindered .cropped ["tmp", "swissalti3d"] position ⟨p.index, s.host⟩ s'.host answer) ∧
    ∀ cause, (∃ s', Service.lookup 46.96007 7.43864 ⟨p, s.host⟩ = .error cause s') ↔ ∃ position,
      Projection.lv95.locate 46.96007 7.43864 = .ok position ∧
        p.memory.find? position.tileKey = none ∧
          Service.Escapes ⟨p, s.host⟩ position.tileKey cause := by
  intro s p
  have hsite : Site ["tmp", "swissalti3d"] (.bare .cropped) [.standard 10.0 true, p]
      (.bare .cropped) :=
    .opened (.opened .start (Provider.create_bare .cropped 10.0 false) rfl)
      (Provider.create_bare .cropped 10.0 true) rfl
  have hasked : Site ["tmp", "swissalti3d"] (.bare .cropped) ([] ++ s.provider :: [p]) s.host :=
    .performed (.lookup 46.96007 7.43864) hsite
  refine ⟨Bodies.answer_cropped, ?_⟩
  refine answers_or_raises hasked Network.only_cropped (fun name => rfl) ?_ 46.96007 7.43864
  exact List.mem_cons_of_mem _ (List.mem_singleton_self p)

end PointElevation
