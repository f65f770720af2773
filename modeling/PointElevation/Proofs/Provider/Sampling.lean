import PointElevation.Proofs.Grid.Cell
import PointElevation.Proofs.Provider.Settled
import PointElevation.Proofs.Provider.Verdict

/-!
# Which points of a tile have a height

A raster is asked for one pixel at a time, and that pixel is all that has to be there: whether the
raster is as large as a tile is never looked at (`Raster.sample`).  A raster that is large enough
therefore answers for every position, a smaller one for those whose pixel it has, and no other
(`Raster.isFull_iff`).

The same goes for queries.  The raster that answers one is held after it, and what it is held for is
the file of the tile, so a height is always the value of a pixel that the file has
(`Service.sampled_where_contained`).
-/

namespace PointElevation

/-! ## Rasters -/

namespace Raster

/-- The raster has the pixel. -/
def Contains (r : Raster) (pixel : Pixel) : Prop := pixel.row < r.rows ∧ pixel.column < r.columns

/-- The raster is as large as a tile. -/
def IsFull (r : Raster) : Prop := Grid.tilePixels ≤ r.rows ∧ Grid.tilePixels ≤ r.columns

/-- What a raster tells of a position, as the status and the height of an answer. -/
inductive Tells (r : Raster) (p : Position) : Status → Float → Prop
  | beyond : ¬ r.Contains p.pixel → Tells r p .decodeFailed 0.0
  | noData {value : Number.Single} : r.at? p.pixel.row p.pixel.column = some value →
      value.isNaN = true → Tells r p .noData 0.0
  | ok {value : Number.Single} : r.at? p.pixel.row p.pixel.column = some value →
      value.isNaN = false → Tells r p .ok value.toFloat

variable {r : Raster} {p : Position}

/-- A pixel that the raster has is sampled, -/
theorem sample_of_contains (h : r.Contains p.pixel) :
    ∃ value, r.at? p.pixel.row p.pixel.column = some value ∧ r.sample p = .ok value := by
  have hsome : r.at? p.pixel.row p.pixel.column ≠ none := fun hnone => at?_eq_none_iff.mp hnone h
  obtain ⟨value, hvalue⟩ := Option.ne_none_iff_exists'.mp hsome
  refine ⟨value, hvalue, ?_⟩
  rw [sample, hvalue]

/-- and any other is named as missing. -/
theorem sample_of_not_contains (h : ¬ r.Contains p.pixel) :
    r.sample p = .error ⟨r.rows, r.columns, p.pixel⟩ := by
  rw [sample, at?_eq_none_iff.mpr h]

/-- The rasters as large as a tile are those that have the pixel of every position. -/
theorem isFull_iff : r.IsFull ↔ ∀ p : Position, r.Contains p.pixel := by
  have htile : Grid.tilePixels = 500 := rfl
  unfold IsFull Contains
  rw [htile]
  constructor
  · rintro ⟨hrows, hcolumns⟩ p
    have hrow := p.row_lt
    have hcolumn := p.column_lt
    omega
  · intro hall
    -- the pixel in the corner farthest from the first
    obtain ⟨hrow, hcolumn⟩ := hall ⟨998, 0⟩
    have hcorner : (Position.pixel ⟨998, 0⟩) = ⟨499, 499⟩ := rfl
    rw [hcorner] at hrow hcolumn
    dsimp only at hrow hcolumn
    omega

/-- Any raster with a pixel has that of some position. -/
theorem exists_contains_iff :
    (∃ p : Position, r.Contains p.pixel) ↔ 0 < r.rows ∧ 0 < r.columns := by
  constructor
  · rintro ⟨p, hrow, hcolumn⟩
    exact ⟨Nat.zero_lt_of_lt hrow, Nat.zero_lt_of_lt hcolumn⟩
  · rintro ⟨hrows, hcolumns⟩
    exact ⟨⟨0, 999⟩, hrows, hcolumns⟩

/-- The answer for a raster is what the raster tells. -/
theorem ofFound_eq (r : Raster) (p : Position) : ∃ status height,
    Lookup.ofFound p (some r) = ⟨height, status, p, some p.tileKey⟩ ∧ r.Tells p status height := by
  by_cases hcontains : r.Contains p.pixel
  · obtain ⟨value, hvalue, hsample⟩ := sample_of_contains hcontains
    simp only [Lookup.ofFound, hsample]
    by_cases hmissing : value.isNaN = true
    · rw [if_pos hmissing]
      exact ⟨_, _, rfl, .noData hvalue hmissing⟩
    · rw [if_neg hmissing]
      exact ⟨_, _, rfl, .ok hvalue (Bool.eq_false_of_not_eq_true hmissing)⟩
  · simp only [Lookup.ofFound, sample_of_not_contains hcontains]
    exact ⟨_, _, rfl, .beyond hcontains⟩

end Raster

/-! ## Queries -/

namespace Service

variable {s s' s₀ : Service} {key : TileKey}

/-- The file of the tile is listed, and would be read as this raster. -/
def Reads (s : Service) (key : TileKey) (raster : Raster) : Prop :=
  ∃ listing url, s.provider.index.listing = some listing ∧ listing.url? key = some url ∧
    readTile (tileFile s.provider.directory url) elevationBand s.host = .ok raster s.host

/-- What is found for a key is held for it afterwards, and if nothing is found nothing is held. -/
theorem ends_rasterOf_find? (key : TileKey) (s : Service) :
    Ends (rasterOf key) s (fun found s' => s'.provider.memory.find? key = found)
      (fun _ s' => s'.provider.memory.find? key = none) := by
  rw [ends_rasterOf]
  show Ends _ (s.provider.memory, s.indexed) _ _
  cases hheld : s.provider.memory.find? key with
  | some raster =>
      rw [ends_of_ok (Pipeline.get_of_held hheld _)]
      exact hheld
  | none =>
      rw [Ends, Pipeline.get_of_free hheld]
      cases (Provider.pipeline s.provider.directory s.provider.downloader).load key s.indexed with
      | error fault t => exact hheld
      | ok found t =>
          cases found with
          | none => exact hheld
          | some raster =>
              show (s.provider.memory.insert key raster).find? key = some raster
              rw [RasterMemory.find?_insert_self, hheld, Option.getD_none]

theorem Logged.memory (h : s.Logged s') : s'.provider.memory = s.provider.memory := by
  rcases h with rfl | ⟨level, text, rfl⟩ <;> rfl

/-- The raster that is held for the tile of an answer is the one that has given it, and an answer
with a height has been given by one. -/
theorem tells_of_lookup {latitude longitude : Float} {answer : Lookup}
    (hrun : lookup latitude longitude s = .ok answer s') :
    (answer.status = .ok → ∃ key raster, answer.key = some key ∧
      s'.provider.memory.find? key = some raster) ∧
    ∀ key raster, answer.key = some key → s'.provider.memory.find? key = some raster →
      raster.Tells answer.position answer.status answer.elevation := by
  cases (ends_lookup latitude longitude s).of_ok hrun with
  | outside hplace _ =>
      obtain ⟨position, rfl⟩ := Projection.answer_of_locate hplace
      exact ⟨nofun, nofun⟩
  | @found position found s₁ _ _ hfound hlogged =>
      have hheld := (ends_rasterOf_find? position.tileKey s).of_ok hfound
      rw [← hlogged.memory] at hheld
      cases found with
      | none =>
          refine ⟨nofun, fun key raster hnamed hsome => ?_⟩
          cases hnamed
          cases hheld.symm.trans hsome
      | some raster =>
          obtain ⟨status, height, hanswer, htells⟩ := raster.ofFound_eq position
          rw [hanswer]
          refine ⟨fun _ => ⟨_, raster, rfl, hheld⟩, fun key raster' hnamed hsome => ?_⟩
          cases hnamed
          cases hheld.symm.trans hsome
          exact htells
  | @degraded position fault _ s₁ _ _ hmissed hanswer hlogged =>
      have hnone := (ends_rasterOf_find? position.tileKey s).of_error hmissed
      rw [← hlogged.memory] at hnone
      have hnokey : answer.key = some position.tileKey := by cases fault <;> cases hanswer <;> rfl
      refine ⟨fun hok => absurd hok (Lookup.elevation_ofFault hanswer).1, ?_⟩
      intro key raster hnamed hsome
      cases hnokey.symm.trans hnamed
      cases hnone.symm.trans hsome

/-- Rasters are sampled where they have a pixel, whatever their size: those as large as a tile
everywhere, and all but the empty ones somewhere.  So in every state of a provider, whatever was on
the disk and whatever the network answers, a query answers with a height only if the raster in the
tile's file has the pixel of the point, and then with the value there; and where that raster lacks
the pixel, decoding has failed. -/
theorem sampled_where_contained (h : s₀.Opened) (actions : List Action) {latitude longitude : Float}
    {answer : Lookup} (hrun : lookup latitude longitude (s₀.performAll actions).2 = .ok answer s') :
    (∀ (r : Raster) (p : Position),
      (r.Contains p.pixel → ∃ value,
        r.at? p.pixel.row p.pixel.column = some value ∧ r.sample p = .ok value) ∧
      (¬ r.Contains p.pixel → r.sample p = .error ⟨r.rows, r.columns, p.pixel⟩)) ∧
    (∀ r : Raster, (r.IsFull ↔ ∀ p : Position, r.Contains p.pixel) ∧
      ((∃ p : Position, r.Contains p.pixel) ↔ 0 < r.rows ∧ 0 < r.columns)) ∧
    (answer.status = .ok → ∃ key raster, answer.key = some key ∧
      s'.provider.memory.find? key = some raster) ∧
    ∀ key raster, answer.key = some key → s'.provider.memory.find? key = some raster →
      s'.Reads key raster ∧ raster.Tells answer.position answer.status answer.elevation := by
  obtain ⟨directory, hcoherent⟩ := h.coherent
  have hbefore := (kept_coherent directory _).performAll actions hcoherent
  have hafter := ((kept_coherent directory _).lookup latitude longitude _ hbefore).of_ok hrun
  obtain ⟨hok, htells⟩ := tells_of_lookup hrun
  refine ⟨fun r p => ⟨Raster.sample_of_contains, Raster.sample_of_not_contains⟩,
    fun r => ⟨Raster.isFull_iff, Raster.exists_contains_iff⟩, hok, ?_⟩
  intro key raster hnamed hheld
  constructor
  · obtain ⟨listing, url, hlisting, hurl, -, hread⟩ := hafter.held hheld
    exact ⟨listing, url, hlisting, hurl, hread⟩
  · exact htells key raster hnamed hheld

end Service

/-! ## A tile of three rows -/

namespace Service

/-- A provider over the disk with tiles of three rows, which cannot reach the network. -/
def cropped : Service := ⟨.cornered, ⟨.cropped, ⟨[], []⟩, ∅⟩⟩

theorem opened_cropped : cropped.Opened := opened_cornered ⟨[], []⟩

/-- A query for the corner finds the raster of three rows, and there its height. -/
theorem lookup_cropped : ∃ s' raster,
    lookup 46.95 7.44 cropped = .ok .corner s' ∧
      s'.provider.memory.find? "2600-1200" = some raster ∧
        raster.rows = 3 ∧ raster.columns = 2 := by
  obtain ⟨directory, hcoherent⟩ := opened_cropped.coherent
  obtain rfl : directory = ["tmp", "swissalti3d"] := by
    cases hcoherent.place
    rfl
  obtain ⟨r, hholds, hrows, hcolumns, -⟩ := Disk.holds_cropped
  obtain ⟨s', hrun, -⟩ := lookup_cornered ⟨[], []⟩
  have hplace : cropped.provider.projection.locate 46.95 7.44 = .ok ⟨2600002, 1200994⟩ := rfl
  have hkey : Position.tileKey ⟨2600002, 1200994⟩ = "2600-1200" := by decide +kernel
  rw [← hkey] at hholds ⊢
  have hraster := hcoherent.ends_rasterOf_of_load ⟨2600002, 1200994⟩
    (fun _ _ level text hgood => ⟨hgood.1, hgood.2.note level text⟩)
    (hcoherent.caches.ends_load_of_holds hcoherent.dots hholds cropped.provider.downloader)
  cases hfound : rasterOf (Position.tileKey ⟨2600002, 1200994⟩) cropped with
  | error fault s₁ =>
      obtain ⟨⟨cause, -, hfault⟩, -⟩ := hraster.of_error hfound
      cases hfault
  | ok found s₁ =>
      obtain ⟨hsome, -⟩ := hraster.of_ok hfound
      cases hsome
      have hheld := (ends_rasterOf_find? _ cropped).of_ok hfound
      rw [← (answer_of_rasterOf hrun hplace hfound).2.memory] at hheld
      exact ⟨s', r, hrun, hheld, hrows, hcolumns⟩

/-- The corner of a tile of three rows has a height, although the tile is far from full. -/
theorem sampled_where_contained_cropped :
    cropped.Opened ∧ ∃ answer s',
      lookup 46.95 7.44 (cropped.performAll [.status]).2 = .ok answer s' ∧
      answer.status = .ok ∧ ∃ raster, ¬ raster.IsFull ∧ s'.Reads "2600-1200" raster ∧
        raster.Tells ⟨2600002, 1200994⟩ .ok (Number.Single.ofInt (-607)).toFloat := by
  obtain ⟨s', raster, hrun, hheld, hrows, -⟩ := lookup_cropped
  obtain ⟨-, -, -, htold⟩ := sampled_where_contained opened_cropped [.status] hrun
  obtain ⟨hreads, htells⟩ := htold "2600-1200" raster rfl hheld
  refine ⟨opened_cropped, _, s', hrun, rfl, raster, fun hfull => ?_, hreads, htells⟩
  have htile : Grid.tilePixels = 500 := rfl
  have hlarge := hfull.1
  rw [htile, hrows] at hlarge
  omega

end Service

end PointElevation
