import PointElevation.Proofs.Provider.Backing

/-!
# Settled queries

A query is settled if it got as far as the tile: there is no such tile, or its file has a height at
the point, has none there, or cannot be decoded.  The disk then holds the answer, for this point and
for every other in the tile (`Service.Coherent.holds_of_lookup`), and from there it is given again
without a request (`Service.Coherent.ends_lookup_of_holds`).
-/

namespace PointElevation

open Host
open PointElevation.Text (decodeAscii)

variable {directory : Location} {key : TileKey} {result : Except DecodeFault (Option Raster)}

/-- Whether a query that ended so got as far as the tile. -/
def Status.settled : Status → Bool
  | .ok | .noData | .noTile | .decodeFailed => true
  | .outsideCoverage | .indexUnavailable | .downloadFailed => false

namespace Lookup

/-- The answer for what the disk holds. -/
def ofHeld (position : Position) : Except DecodeFault (Option Raster) → Lookup
  | .ok found => .ofFound position found
  | .error _ => .without .decodeFailed position (some position.tileKey)

theorem key_ofHeld (position : Position) (result : Except DecodeFault (Option Raster)) :
    (ofHeld position result).key = some position.tileKey := by
  cases result with
  | error cause => rfl
  | ok found =>
      cases found with
      | none => rfl
      | some raster =>
          simp only [ofHeld, ofFound]
          cases raster.sample position with
          | error missing => rfl
          | ok value =>
              dsimp only
              by_cases hmissing : value.isNaN = true
              · rw [if_pos hmissing]
                rfl
              · rw [if_neg hmissing]

/-- The one fault with which a query is settled is that of decoding. -/
theorem ofFault_settled {position : Position} {fault : Fault} {answer : Lookup}
    (h : ofFault position fault = .ok answer) (hsettled : answer.status.settled = true) :
    ∃ cause, fault = .decode cause ∧ answer = ofHeld position (.error cause) := by
  cases fault with
  | decode cause =>
      cases h
      exact ⟨cause, rfl, rfl⟩
  | index _ | download _ =>
      cases h
      cases hsettled
  | escaped _ => cases h

end Lookup

theorem Projection.status_locate {projection : Projection} {latitude longitude : Float}
    {answer : Lookup} (h : projection.locate latitude longitude = .error answer) :
    answer.status = .outsideCoverage := by
  obtain ⟨position, rfl⟩ := answer_of_locate h
  rfl

namespace Service

variable {limit : Int} {s s' t : Service} {position : Position} {latitude longitude : Float}
  {answer : Lookup}

theorem Logged.idle (h : s.Logged s') {host : Host} (hidle : host.Idle s.host) :
    host.Idle s'.host := by
  rcases h with rfl | ⟨level, text, rfl⟩
  · exact hidle
  · exact hidle.note level text

/-- The index and the host of a service. -/
def indexed (s : Service) : Indexed := ⟨s.provider.index, s.host⟩

/-- With coherent caches, what holds at the end of the way without memory holds at the end of the
way with it, as far as index and host go and messages do not matter. -/
theorem Coherent.ends_rasterOf_of_load (h : s.Coherent directory limit) (position : Position)
    {good : Option Raster → Indexed → Prop} {bad : Fault → Indexed → Prop}
    (hnote : ∀ found t level text, good found t →
      good found { t with host := t.host.note level text })
    (hload : Ends ((Provider.pipeline (.ofLocation directory) s.provider.downloader).load
      position.tileKey) s.indexed good bad) :
    Ends (rasterOf position.tileKey) s (fun found s' => good found s'.indexed)
      (fun fault s' => bad fault s'.indexed) := by
  refine (h.ends_rasterOf position).mono ?_ ?_
  · intro found s' hend
    obtain ⟨-, memory, t, hrun, rfl | rfl⟩ := hend
    · exact hload.of_ok hrun
    · exact hnote _ _ _ _ (hload.of_ok hrun)
  · intro fault s' hend
    obtain ⟨-, memory, t, hrun, rfl⟩ := hend
    exact hload.of_error hrun

/-! ## From the disk -/

/-- What the disk holds for the tile of a point is answered without a request, whatever is in
memory. -/
theorem Coherent.ends_lookup_of_holds (h : s.Coherent directory limit)
    (hplace : s.provider.projection.locate latitude longitude = .ok position)
    (hholds : s.host.disk.Holds directory position.tileKey result) :
    Ends (lookup latitude longitude) s
      (fun answer s' => answer = .ofHeld position result ∧ s.host.Idle s'.host)
      (fun _ _ => False) := by
  have hload := h.caches.ends_load_of_holds h.dots hholds s.provider.downloader
  have hraster := h.ends_rasterOf_of_load position
    (fun _ _ level text hgood => ⟨hgood.1, hgood.2.note level text⟩) hload
  refine (ends_lookup latitude longitude s).mono ?_ ?_
  · intro answer s' hanswers
    cases hanswers with
    | outside hplace' _ => cases hplace.symm.trans hplace'
    | found hplace' hrun hlog =>
        cases hplace.symm.trans hplace'
        obtain ⟨rfl, hidle⟩ := hraster.of_ok hrun
        exact ⟨rfl, hlog.idle hidle⟩
    | degraded hplace' hrun hanswer hlog =>
        cases hplace.symm.trans hplace'
        obtain ⟨⟨cause, rfl, rfl⟩, hidle⟩ := hraster.of_error hrun
        cases hanswer
        exact ⟨rfl, hlog.idle hidle⟩
  · rintro cause s' ⟨position', hplace', hrun⟩
    cases hplace.symm.trans hplace'
    obtain ⟨⟨cause', heq, -⟩, -⟩ := hraster.of_error hrun
    cases heq

/-! ## To the disk -/

/-- A service that starts holds nothing. -/
theorem Opened.backed (h : s.Opened) : ∃ directory,
    s.Coherent directory RasterMemory.defaultLimit ∧ s.indexed.Backed directory := by
  obtain ⟨hlisting, directory, hcoherent⟩ := h.fresh
  refine ⟨directory, hcoherent, fun listing hlisting' => ?_⟩
  cases hlisting.symm.trans hlisting'

/-- A settled query leaves what it answers on the disk. -/
theorem Coherent.holds_of_lookup (h : s.Coherent directory limit)
    (hbacked : s.indexed.Backed directory) (hrun : lookup latitude longitude s = .ok answer s')
    (hsettled : answer.status.settled = true)
    (hfile : answer.status = .decodeFailed →
      s.host.network.Only (Reply.FailsAs Failure.LeavesDecoding)) :
    ∃ position result, s.provider.projection.locate latitude longitude = .ok position ∧
      s'.host.disk.Holds directory position.tileKey result ∧ answer = .ofHeld position result := by
  have hraster : ∀ position : Position, Ends (rasterOf position.tileKey) s
      (fun found s₁ => s₁.host.disk.Holds directory position.tileKey (.ok found))
      (fun fault s₁ => s.host.network.Only (Reply.FailsAs Failure.LeavesDecoding) → ∀ cause,
        fault = .decode cause → s₁.host.disk.Holds directory position.tileKey (.error cause)) := by
    intro position
    have hload := hbacked.ends_load h.dots h.caches.place s.provider.downloader position.tileKey
    have hholds := hload.mono (fun _ _ hgood => hgood.2) fun _ _ hbad => hbad.2
    exact h.ends_rasterOf_of_load position (fun _ _ _ _ hgood => hgood) hholds
  cases (ends_lookup latitude longitude s).of_ok hrun with
  | outside hplace _ =>
      rw [Projection.status_locate hplace] at hsettled
      cases hsettled
  | @found position found _ _ hplace hfound hlog =>
      refine ⟨position, .ok found, hplace, ?_, rfl⟩
      rw [hlog.disk]
      exact (hraster position).of_ok hfound
  | @degraded position fault _ _ _ hplace hmissed hanswer hlog =>
      obtain ⟨cause, rfl, rfl⟩ := Lookup.ofFault_settled hanswer hsettled
      refine ⟨position, .error cause, hplace, ?_, rfl⟩
      rw [hlog.disk]
      exact (hraster position).of_error hmissed (hfile rfl) cause rfl

/-! ## On the disk -/

theorem Forgot.released (h : s.Forgot t) (directory : Location) : Released directory s t :=
  ⟨h.provider, h.network, h.requests, .inl h.disk, .inl (.idle h.disk h.files)⟩

/-- What the way to a raster keeps, and messages cannot change, lasts as the coherence does. -/
theorem keptOnward_of_load {P : Indexed → Prop}
    (hsame : ∀ t t' : Indexed, t'.index = t.index → t'.host.disk = t.host.disk →
      t'.host.network = t.host.network → P t → P t')
    (hload : ∀ s : Service, s.Coherent directory limit → P s.indexed → ∀ position : Position,
      EndsIn ((Provider.pipeline (.ofLocation directory) s.provider.downloader).load
        position.tileKey) s.indexed P) :
    KeptOnward fun s => s.Coherent directory limit ∧ P s.indexed where
  noted := fun s level text h => ⟨h.1.noted level text, hsame s.indexed _ rfl rfl rfl h.2⟩
  rasterOf := fun s position h => by
    have hraster := h.1.ends_rasterOf_of_load position
      (fun _ t level text hgood => hsame t _ rfl rfl rfl hgood) (hload s h.1 h.2 position)
    refine ((h.1.ends_rasterOf position).and hraster).mono ?_ ?_
    · exact fun _ _ hgood => ⟨hgood.1.1, hgood.2⟩
    · exact fun _ _ hbad => ⟨hbad.1.1, hbad.2⟩
  setAutoRemove := fun s autoRemove h => by
    refine ⟨(kept_coherent directory limit).setAutoRemove s autoRemove h.1, ?_⟩
    exact hsame s.indexed _ rfl rfl rfl h.2
  forgot := fun s s' hforgot h => by
    have hindex : s'.provider.index = s.provider.index := by
      rw [hforgot.provider]
      rfl
    refine ⟨h.1.released (hforgot.released directory), ?_⟩
    exact hsame s.indexed s'.indexed hindex hforgot.disk hforgot.network h.2

theorem keptOnward_backed (directory : Location) (limit : Int) :
    KeptOnward fun s => s.Coherent directory limit ∧ s.indexed.Backed directory := by
  refine keptOnward_of_load ?_ fun s hs hbacked position => ?_
  · intro t t' hindex hdisk _ hbacked listing hlisting
    rw [hindex] at hlisting
    rw [hdisk]
    exact hbacked listing hlisting
  · have hload := hbacked.ends_load hs.dots hs.caches.place s.provider.downloader position.tileKey
    exact hload.mono (fun _ _ hgood => hgood.1) fun _ _ hbad => hbad.1

/-- What the disk holds for a key stays as it is. -/
theorem keptOnward_holds (directory : Location) (limit : Int) (key : TileKey)
    (result : Except DecodeFault (Option Raster)) :
    KeptOnward fun s => s.Coherent directory limit ∧
      s.indexed.host.disk.Holds directory key result := by
  refine keptOnward_of_load (P := fun t => t.host.disk.Holds directory key result) ?_ ?_
  · exact fun _ _ _ hdisk _ hholds => hdisk ▸ hholds
  · exact fun s hs hholds position =>
      hs.caches.endsIn_load_holds hs.dots hholds s.provider.downloader position

/-- The network goes on with the replies that it has left. -/
theorem keptOnward_only (directory : Location) (limit : Int) (Q : String → Reply → Prop) :
    KeptOnward fun s => s.Coherent directory limit ∧ s.indexed.host.network.Only Q := by
  refine keptOnward_of_load (P := fun t => t.host.network.Only Q) ?_ ?_
  · exact fun _ _ _ _ hnetwork honly => hnetwork ▸ honly
  · intro s hs honly position
    have hruns := Provider.endsIn_load_runs (.ofLocation directory) s.provider.downloader
      position.tileKey s.indexed
    exact hruns.mono (fun _ _ hruns => hruns.only honly) fun _ _ hruns => hruns.only honly

/-- Points lie where they lay. -/
theorem keptOnward_projection (projection : Projection) :
    KeptOnward fun s => s.provider.projection = projection where
  noted := fun _ _ _ h => h
  rasterOf := fun s position h => by
    rw [EndsIn, ends_rasterOf]
    exact (ends_self _ _).mono (fun _ _ _ => h) fun _ _ _ => h
  setAutoRemove := fun _ _ h => h
  forgot := fun _ _ hforgot h => by
    rw [hforgot.provider]
    exact h

/-! ## Answers of a run -/

/-- On the way from the first service to the second, without the directory being removed, a query
was answered. -/
inductive Answered (s : Service) (latitude longitude : Float) (answer : Lookup) (s' : Service) :
    Prop
  | intro {t t' : Service} : s.Onward t → lookup latitude longitude t = .ok answer t' →
      t'.Onward s' → Answered s latitude longitude answer s'

theorem Answered.prepend {s₀ : Service} (h : s.Answered latitude longitude answer s')
    (hbefore : s₀.Onward s) : s₀.Answered latitude longitude answer s' := by
  obtain ⟨hto, hrun, hfrom⟩ := h
  exact ⟨hbefore.trans hto, hrun, hfrom⟩

theorem onward_of_lookup (hrun : lookup latitude longitude s = .ok answer s') : s.Onward s' :=
  (onward_lookup s latitude longitude).of_ok hrun

/-- The answers for a list of points are answers to queries. -/
theorem ends_lookupAll (points : List (Float × Float)) (s : Service) :
    Ends (lookupAll points) s
      (fun answers s' => s.Onward s' ∧
        List.Forall₂ (fun point answer => s.Answered point.1 point.2 answer s') points answers)
      (fun _ _ => True) := by
  induction points generalizing s with
  | nil => exact ⟨.refl, .nil⟩
  | cons point rest ih =>
      simp only [lookupAll, List.mapM_cons, ends_bind, ends_pure]
      refine (ends_self (lookup point.1 point.2) s).mono ?_ fun _ _ _ => trivial
      intro answer t hfirst
      refine (ih t).mono ?_ fun _ _ _ => trivial
      intro answers s' hend
      obtain ⟨honward, hanswers⟩ := hend
      have hstep := onward_of_lookup hfirst
      refine ⟨hstep.trans honward, .cons ⟨.refl, hfirst, honward⟩ ?_⟩
      exact hanswers.imp fun _ _ hanswered => hanswered.prepend hstep

/-- So are those in a batch. -/
theorem answered_fetchPoints {points : List (List Float)} {batch : Batch}
    (hrun : fetchPoints points s = .ok batch s') :
    List.Forall₂ (fun point answer => s.Answered point.1 point.2 answer s')
      (points.filterMap pair?) batch.lookups := by
  have hends : Ends (fetchPoints points) s
      (fun batch s' => List.Forall₂ (fun point answer => s.Answered point.1 point.2 answer s')
        (points.filterMap pair?) batch.lookups) (fun _ _ => True) := by
    unfold fetchPoints
    cases points.find? fun point => (pair? point).isNone with
    | some point => exact trivial
    | none =>
        simp only [ends_bind, ends_recast, ends_pure]
        exact (ends_lookupAll _ s).mono (fun _ _ hgood => hgood.2) fun _ _ _ => trivial
  exact hends.of_ok hrun

/-- What a run has answered, the disk holds at the end of it. -/
theorem Answered.holds {s₀ : Service} (h : s₀.Answered latitude longitude answer s)
    (hcoherent : s₀.Coherent directory limit) (hbacked : s₀.indexed.Backed directory)
    (hsettled : answer.status.settled = true)
    (hfile : answer.status = .decodeFailed →
      s₀.host.network.Only (Reply.FailsAs Failure.LeavesDecoding)) :
    s.Coherent directory limit ∧ ∃ position result,
      s₀.provider.projection.locate latitude longitude = .ok position ∧
        s.host.disk.Holds directory position.tileKey result ∧
          answer = .ofHeld position result := by
  obtain ⟨hto, hrun, hfrom⟩ := h
  -- up to the query, then through it, and from there on
  obtain ⟨ht, hbacked⟩ := (keptOnward_backed directory limit).onward hto ⟨hcoherent, hbacked⟩
  have hprojection := (keptOnward_projection s₀.provider.projection).onward hto rfl
  have honly := (keptOnward_only directory limit (Reply.FailsAs Failure.LeavesDecoding)).onward hto
  obtain ⟨position, result, hplace, hholds, hanswer⟩ := ht.holds_of_lookup hbacked hrun hsettled
    fun hstatus => (honly ⟨hcoherent, hfile hstatus⟩).2
  have ht' := ((kept_coherent directory limit).lookup latitude longitude _ ht).of_ok hrun
  have hend := (keptOnward_holds directory limit position.tileKey result).onward hfrom
    ⟨ht', hholds⟩
  rw [hprojection] at hplace
  exact ⟨hend.1, position, result, hplace, hend.2, hanswer⟩

/-- A new provider answers what it finds on the disk, and needs no network for it. -/
theorem Opened.exists_lookup_of_holds (h : s.Opened)
    (hdirectory : s.provider.directory = .ofLocation directory)
    (hplace : s.provider.projection.locate latitude longitude = .ok position)
    (hholds : s.host.disk.Holds directory position.tileKey result) :
    ∃ s', lookup latitude longitude s = .ok (.ofHeld position result) s' ∧ s.host.Idle s'.host ∧
      s'.provider.directory = s.provider.directory ∧
        s'.provider.projection = s.provider.projection := by
  obtain ⟨directory', hcoherent⟩ := h.coherent
  have hsame : FilePath.ofLocation directory' = .ofLocation directory :=
    hcoherent.place.symm.trans hdirectory
  obtain rfl : directory' = directory := by
    cases hsame
    rfl
  have hends := hcoherent.ends_lookup_of_holds hplace hholds
  cases hrun : lookup latitude longitude s with
  | error cause s' => exact (hends.of_error hrun).elim
  | ok answer s' =>
      obtain ⟨rfl, hidle⟩ := hends.of_ok hrun
      have hlast := ((kept_coherent _ _).lookup _ _ _ hcoherent).of_ok hrun
      have hprojection :=
        (keptOnward_projection s.provider.projection).onward (onward_of_lookup hrun) rfl
      exact ⟨s', rfl, hidle, hlast.place.trans hcoherent.place.symm, hprojection⟩

theorem Answered.onward {s₀ : Service} (h : s₀.Answered latitude longitude answer s) :
    s₀.Onward s := by
  obtain ⟨hto, hrun, hfrom⟩ := h
  exact (hto.trans (onward_of_lookup hrun)).trans hfrom

end Service

/-! ## A directory with a listing of no tiles -/

/-- A projection that takes all points to one position. -/
def Projection.fixed : Projection := fun _ _ => (2600000.5, 1200000.5)

theorem Projection.locate_fixed : fixed.locate 46.95 7.44 = .ok ⟨2600000, 1200000⟩ := rfl

/-- The standard provider for points that all lie in one position. -/
def Provider.fixed : Provider := { standard 10.0 false with projection := .fixed }

/-- A disk with nothing but an empty listing in the default directory. -/
def Disk.barren : Disk where
  tree := ⟨[(["tmp"], .directory), (["tmp", "swissalti3d"], .directory),
    (["tmp", "swissalti3d", "mappings.csv"], .file .empty)]⟩
  workDirectory := some []

theorem Service.opened_barren (n : Network) : Opened ⟨.fixed, ⟨.barren, n, ∅⟩⟩ :=
  .intro .fixed (Provider.create_standard (some .directory) rfl (by simp) 10.0 false)

/-- A network on which all requests fail in words of decoding. -/
def Network.undecoding : Network := ⟨[], [.failure ⟨.staged .decoding, "no raster"⟩]⟩

theorem Disk.holds_barren (key : TileKey) :
    Disk.barren.Holds ["tmp", "swissalti3d"] key (.ok none) := by
  have hlists : Disk.barren.Lists ["tmp", "swissalti3d"] (.ofText (decodeAscii .empty)) :=
    ⟨.empty, rfl, rfl⟩
  exact .nothing hlists (Listing.url?_empty key)

/-- Over such a disk, every network is as good as another. -/
theorem Service.lookup_barren (n : Network) :
    ∃ s, lookup 46.95 7.44 ⟨.fixed, ⟨.barren, n, ∅⟩⟩ =
        .ok (.ofHeld ⟨2600000, 1200000⟩ (.ok none)) s ∧
      Host.Idle ⟨.barren, n, ∅⟩ s.host ∧ s.provider.directory = Provider.fixed.directory ∧
        s.provider.projection = .fixed :=
  (opened_barren n).exists_lookup_of_holds rfl Projection.locate_fixed (Disk.holds_barren _)

/-! ## A directory with a listing of two tiles -/

theorem Listing.url?_cropped : (ofText croppedListing.toList).url? "2600-1200" =
    some "h/a_b_2600-1200" := by
  have hwritten : Text.Written ["h/a_b_2600-1200".toList, "h/a_b_2601-1200".toList]
      croppedListing.toList := by
    have hfirst : Text.Unbroken "h/a_b_2600-1200".toList := by decide
    exact .cons .lineFeed hfirst (.last (by decide))
  rw [url?_ofText hwritten]
  decide +kernel

/-- Each of the tiles gives a raster of three rows, with a value in its last corner. -/
theorem Tiff.exists_read_planar : ∃ r, read planarFile none elevationBand = .ok r ∧
    r.rows = 3 ∧ r.columns = 2 ∧ r.at? 2 1 = some (.ofInt (-607)) := by
  obtain ⟨r, hread, hshown⟩ := planar_writtenIn.exists_read none (by decide : 0 < _)
  exact ⟨r, hread, hshown.rows, hshown.columns, hshown.value 2 (by decide) 1 (by decide)⟩

/-- The disk has such a raster for the first tile. -/
theorem Disk.holds_cropped : ∃ r,
    Disk.cropped.Holds ["tmp", "swissalti3d"] "2600-1200" (.ok (some r)) ∧
      r.rows = 3 ∧ r.columns = 2 ∧ r.at? 2 1 = some (.ofInt (-607)) := by
  have htext : decodeAscii croppedListing.toUTF8 = croppedListing.toList := by decide +kernel
  have hlists : Disk.cropped.Lists ["tmp", "swissalti3d"] (.ofText croppedListing.toList) :=
    ⟨croppedListing.toUTF8, rfl, by rw [htext]⟩
  have hplace : tileFile (.ofLocation ["tmp", "swissalti3d"]) "h/a_b_2600-1200" =
      .ofLocation ["tmp", "swissalti3d", "a_b_2600-1200"] := by decide +kernel
  have hside : sideFile (.ofLocation ["tmp", "swissalti3d", "a_b_2600-1200"]) =
      .ofLocation ["tmp", "swissalti3d", "a_b_2600-1200.aux.xml"] := by decide +kernel
  obtain ⟨r, hread, hshown⟩ := Tiff.exists_read_planar
  have hraster : tileRaster .cropped (.ofLocation ["tmp", "swissalti3d", "a_b_2600-1200"]) =
      .ok r := by
    have hfile : Disk.cropped.read (.ofLocation ["tmp", "swissalti3d", "a_b_2600-1200"]) =
        .ok Tiff.planarFile := rfl
    have hnotes : (Disk.cropped.read (.ofLocation
        ["tmp", "swissalti3d", "a_b_2600-1200.aux.xml"])).toOption = none := rfl
    rw [tileRaster, hside, hfile, hnotes]
    simp only [decodeTile, Except.toOption, Option.map_none]
    rw [hread]
  have hholds := Disk.Holds.tile hlists Listing.url?_cropped (by rw [hplace]; rfl)
  rw [hplace, hraster] at hholds
  exact ⟨r, hholds, hshown⟩

/-- The answer for that corner. -/
def Lookup.corner : Lookup :=
  ⟨(Number.Single.ofInt (-607)).toFloat, .ok, ⟨2600002, 1200994⟩, some "2600-1200"⟩

theorem Lookup.ofFound_corner {r : Raster} (h : r.at? 2 1 = some (.ofInt (-607))) :
    ofFound ⟨2600002, 1200994⟩ (some r) = corner := by
  have hpixel : Position.pixel ⟨2600002, 1200994⟩ = ⟨1, 2⟩ := rfl
  have hsample : r.sample ⟨2600002, 1200994⟩ = .ok (.ofInt (-607)) := by
    rw [Raster.sample, hpixel, h]
  have hkey : Position.tileKey ⟨2600002, 1200994⟩ = "2600-1200" := by decide +kernel
  have hnumber : (Number.Single.ofInt (-607)).isNaN = false := by decide +kernel
  simp only [ofFound, hsample, hnumber, hkey, Bool.false_eq_true, if_false, corner]

/-- The standard provider for points that all lie in that corner. -/
def Provider.cornered : Provider :=
  { standard 10.0 false with projection := fun _ _ => (2600002.5, 1200994.5) }

namespace Service

theorem opened_cornered (n : Network) : Opened ⟨.cornered, ⟨.cropped, n, ∅⟩⟩ :=
  .intro _ (Provider.create_cropped n 10.0 false)

/-- The corner has its height on every network, and the tile's file is all that is needed. -/
theorem lookup_cornered (n : Network) :
    ∃ s, lookup 46.95 7.44 ⟨.cornered, ⟨.cropped, n, ∅⟩⟩ = .ok .corner s ∧
      Host.Idle ⟨.cropped, n, ∅⟩ s.host ∧ s.provider.directory = Provider.cornered.directory ∧
        s.provider.projection = Provider.cornered.projection := by
  have hkey : Position.tileKey ⟨2600002, 1200994⟩ = "2600-1200" := by decide +kernel
  obtain ⟨r, hholds, -, -, hvalue⟩ := Disk.holds_cropped
  have hplace : Provider.cornered.projection.locate 46.95 7.44 = .ok ⟨2600002, 1200994⟩ := rfl
  rw [← hkey] at hholds
  rw [← Lookup.ofFound_corner hvalue]
  exact (opened_cornered n).exists_lookup_of_holds rfl hplace hholds

end Service

end PointElevation
