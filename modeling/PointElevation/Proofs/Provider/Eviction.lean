import PointElevation.Proofs.Host.Twins
import PointElevation.Proofs.Provider.CacheRun

/-!
# The limit of the memory

How many rasters are held before all of them are forgotten is seen by nobody.  Two providers that
differ only in this limit are kept side by side (`Service.Twins`): a raster that one of them holds
and the other does not is found by the other on a way that changes nothing, since its listing is
loaded and its file is on the disk.
-/

namespace PointElevation

open PointElevation.Host

/-! ## Stages are blind to the log -/

namespace Downloader

variable (d : Downloader) (url : String)

theorem blind_textAttempt : Blind Alike (d.textAttempt url) := by
  refine (blind_send _).bind fun reply => ?_
  cases reply with
  | failure cause => exact .throw cause
  | response status reason pieces cut =>
      cases cut with
      | some cause => exact .throw cause
      | none =>
          dsimp only
          cases statusFailure? url status reason with
          | some failure => exact .throw failure
          | none => exact .pure _

theorem blind_receive (l : Location) : Blind Alike (d.receive url l) := by
  refine (blind_send _).bind fun reply => ?_
  cases reply with
  | failure cause => exact .throw cause
  | response status reason pieces cut =>
      dsimp only
      cases statusFailure? url status reason with
      | some failure => exact .throw failure
      | none =>
          refine (Blind.forM (fun piece => blind_onFiles _) pieces).bind fun _ => ?_
          cases cut with
          | some cause => exact .throw cause
          | none => exact .pure _

theorem blind_fileAttempt (target : FilePath) : Blind Alike (d.fileAttempt url target) := by
  refine (blind_onFiles _).bind fun temporary => .tryCatch ?_ fun failure => ?_
  · exact (d.blind_receive url temporary).bind fun _ => blind_onFiles _
  · exact (blind_onFiles _).bind fun _ => .throw failure

theorem blind_retrying {α : Type} {operation : HostM Failure α} (h : Blind Alike operation)
    (pauses : List Float) : Blind Alike (retrying operation pauses) := by
  induction pauses with
  | nil => exact h
  | cons seconds rest ih =>
      refine .tryCatch h fun failure => ?_
      split
      · exact (blind_pause seconds).bind fun _ => ih
      · exact .throw failure

theorem blind_fetchText : Blind Alike (d.fetchText url) :=
  (blind_retrying (d.blind_textAttempt url) pauses).recast _

theorem blind_fetchFile (target : FilePath) : Blind Alike (d.fetchFile url target) := by
  refine (Blind.recast ?_ _).bind fun _ => blind_say _ _
  exact (blind_onFiles _).bind fun _ => blind_retrying (d.blind_fileAttempt url target) pauses

end Downloader

/-- Two indices and hosts are the same but for messages about forgotten rasters. -/
structure Indexed.Alike (s t : Indexed) : Prop where
  index : s.index = t.index
  host : s.host.Alike t.host

theorem Indexed.blind_onIndexedHost {ε α : Type} {operation : HostM ε α}
    (h : Blind Host.Alike operation) : Blind Indexed.Alike (onIndexedHost operation) :=
  h.onPart (fun _ _ hst => hst.host) fun _ _ _ _ hst hab => ⟨hst.index, hab⟩

namespace TileIndex

theorem blind_fetch (index : TileIndex) : Blind Host.Alike index.fetch := by
  refine ((index.downloader.blind_fetchText _).recast _).bind fun reply => ?_
  cases listingAddress reply with
  | error cause => exact .throw _
  | ok url => exact (index.downloader.blind_fetchFile url _).recast _

theorem blind_obtain (index : TileIndex) : Blind Host.Alike index.obtain := by
  have hread : Blind Host.Alike index.readFile :=
    ((blind_askDisk _).recast _).bind fun _ => .pure _
  refine ((blind_askDisk _).recast _).bind fun present => ?_
  cases present with
  | true => exact hread
  | false => exact index.blind_fetch.bind fun _ => hread

theorem blind_load : Blind Indexed.Alike load := by
  refine .get (fun s t h => by rw [h.index]) fun s => ?_
  dsimp only
  cases s.index.listing with
  | some listing => exact .pure listing
  | none =>
      refine (Indexed.blind_onIndexedHost s.index.blind_obtain).bind fun listing => ?_
      refine .bind (.modify fun s t (h : s.Alike t) => ⟨by rw [h.index], h.host⟩) fun _ => ?_
      exact (Indexed.blind_onIndexedHost (blind_say _ _)).bind fun _ => .pure listing

end TileIndex

theorem blind_ensureTileFile (directory : FilePath) (d : Downloader) (key : TileKey)
    (url : String) : Blind Host.Alike (ensureTileFile directory d key url) := by
  refine ((blind_askDisk _).recast _).bind fun present => ?_
  cases present with
  | true => exact .pure _
  | false =>
      refine (blind_say _ _).bind fun _ => ?_
      exact ((d.blind_fetchFile url _).recast _).bind fun _ => .pure _

theorem blind_readTile (path : FilePath) (band : Int) : Blind Host.Alike (readTile path band) := by
  refine .get (fun h h' halike => by rw [halike.disk]) fun h => ?_
  dsimp only
  split
  · exact .pure _
  · exact .throw _

theorem Provider.blind_load (directory : FilePath) (d : Downloader) (key : TileKey) :
    Blind Indexed.Alike ((pipeline directory d).load key) := by
  refine (TileIndex.blind_load.bind fun listing => .pure _).bind fun found => ?_
  cases found with
  | none => exact .pure none
  | some url =>
      refine (Indexed.blind_onIndexedHost (blind_ensureTileFile directory d key url)).bind ?_
      intro path
      exact (Indexed.blind_onIndexedHost (blind_readTile path _)).bind fun _ => .pure _

/-! ## Providers side by side -/

namespace Service

/-- Two services are the same but for the memory and messages about it. -/
structure Similar (s t : Service) : Prop where
  provider : t.provider = { s.provider with memory := t.provider.memory }
  host : s.host.Alike t.host

/-- Two services differ in the limit of the memory, and the caches of both are coherent. -/
structure Twins (directory : Location) (limit limit' : Int) (s t : Service) : Prop where
  left : s.Coherent directory limit
  right : t.Coherent directory limit'
  similar : s.Similar t

variable {directory : Location} {limit limit' : Int} {s t : Service}

theorem Similar.noted (h : s.Similar t) (level : Level) (text : String) :
    (s.noted level text).Similar (t.noted level text) :=
  ⟨h.provider, h.host.note level text⟩

theorem Similar.noted_left (h : s.Similar t) :
    (s.noted .debug Provider.emptiedNote).Similar t := ⟨h.provider, h.host.note_left⟩

theorem Similar.noted_right (h : s.Similar t) :
    s.Similar (t.noted .debug Provider.emptiedNote) := ⟨h.provider, h.host.symm.note_left.symm⟩

theorem Similar.withCached (h : s.Similar t) {a b : Indexed} (hab : a.Alike b)
    (memory memory' : RasterMemory) :
    (s.withCached (memory, a)).Similar (t.withCached (memory', b)) := by
  refine ⟨?_, hab.host⟩
  simp only [Service.withCached, hab.index]
  rw [h.provider]

theorem Twins.noted (h : Twins directory limit limit' s t) (level : Level) (text : String) :
    Twins directory limit limit' (s.noted level text) (t.noted level text) :=
  ⟨h.left.noted level text, h.right.noted level text, h.similar.noted level text⟩

/-- The raster of a tile is found in one as in the other, whichever of them holds it. -/
theorem blind_rasterOf (position : Position) :
    Blind (Twins directory limit limit') (rasterOf position.tileKey) := by
  intro s t htwins
  have hdownloader : t.provider.downloader = s.provider.downloader := by
    rw [htwins.similar.provider]
  -- without memory the two are abreast, and both answer as without memory
  have hload := Provider.blind_load (.ofLocation directory) s.provider.downloader position.tileKey
    ⟨s.provider.index, s.host⟩ ⟨t.provider.index, t.host⟩
    ⟨by rw [htwins.similar.provider], htwins.similar.host⟩
  rcases hload.ok_or_error with
    ⟨found, a, b, hloads, hloadt, halike⟩ | ⟨fault, a, b, hloads, hloadt, halike⟩
  · rw [← hdownloader] at hloadt
    obtain ⟨memory, s', hruns, hcoherents, heqs⟩ := htwins.left.rasterOf_of_load_ok hloads
    obtain ⟨memory', t', hrunt, hcoherentt, heqt⟩ := htwins.right.rasterOf_of_load_ok hloadt
    rw [hruns, hrunt]
    refine ⟨rfl, hcoherents, hcoherentt, ?_⟩
    have hsimilar := htwins.similar.withCached halike memory memory'
    rcases heqs with rfl | rfl
    · rcases heqt with rfl | rfl
      · exact hsimilar
      · exact hsimilar.noted_right
    · rcases heqt with rfl | rfl
      · exact hsimilar.noted_left
      · exact hsimilar.noted _ _
  · rw [← hdownloader] at hloadt
    obtain ⟨memory, hruns, hcoherents⟩ := htwins.left.rasterOf_of_load_error hloads
    obtain ⟨memory', hrunt, hcoherentt⟩ := htwins.right.rasterOf_of_load_error hloadt
    rw [hruns, hrunt]
    exact ⟨rfl, hcoherents, hcoherentt, htwins.similar.withCached halike _ _⟩

theorem blind_onHost_say {ε : Type} (level : Level) (text : String) :
    Blind (ε := ε) (Twins directory limit limit') (onHost (say level text)) :=
  fun _ _ h => ⟨rfl, h.noted level text⟩

theorem blind_withoutRaster {ε : Type} (key : TileKey) (position : Position) (status : Status)
    (reason : String) :
    Blind (ε := ε) (Twins directory limit limit') (withoutRaster key position status reason) :=
  (blind_onHost_say _ _).bind fun _ => .pure _

theorem blind_degrade (key : TileKey) (position : Position) (fault : Fault) :
    Blind (Twins directory limit limit') (degrade key position fault) := by
  cases fault with
  | escaped cause => exact .throw cause
  | index cause => exact blind_withoutRaster key position _ _
  | download cause => exact blind_withoutRaster key position _ _
  | decode cause => exact blind_withoutRaster key position _ _

theorem blind_lookupCovered (position : Position) :
    Blind (Twins directory limit limit') (lookupCovered position) := by
  refine (blind_rasterOf position).outcome.bind fun result => ?_
  cases result with
  | error fault => exact blind_degrade _ position fault
  | ok found =>
      cases found with
      | none => exact (blind_onHost_say _ _).bind fun _ => .pure _
      | some raster =>
          simp only [sampleLookup]
          cases raster.sample position with
          | error missing => exact blind_degrade _ position _
          | ok value =>
              dsimp only
              split
              · exact (blind_onHost_say _ _).bind fun _ => .pure _
              · exact .pure _

theorem blind_lookup (latitude longitude : Float) :
    Blind (Twins directory limit limit') (lookup latitude longitude) := by
  unfold lookup
  split
  · exact .pure _
  · refine .get (fun s t h => ?_) fun s => ?_
    · rw [h.similar.provider]
    · cases s.provider.projection.position? latitude longitude with
      | none => exact (blind_onHost_say _ _).bind fun _ => .pure _
      | some position =>
          dsimp only
          split
          · exact blind_lookupCovered position
          · exact .pure _

theorem blind_lookupAll (points : List (Float × Float)) :
    Blind (Twins directory limit limit') (lookupAll points) := by
  unfold lookupAll
  refine .mapM ?_ points
  rintro ⟨latitude, longitude⟩
  exact blind_lookup latitude longitude

theorem blind_fetchPoints (points : List (List Float)) :
    Blind (Twins directory limit limit') (fetchPoints points) := by
  unfold fetchPoints
  cases points.find? fun point => (pair? point).isNone with
  | some point => exact .throw _
  | none =>
      exact ((blind_lookupAll _).recast _).bind fun _ => .pure _

theorem blind_onHost {ε α : Type} {operation : HostM ε α} (h : Blind Host.Alike operation) :
    Blind Similar (onHost operation) :=
  h.onPart (fun _ _ hst => hst.host) fun _ _ _ _ hst hab => ⟨hst.provider, hab⟩

theorem similar_removeDirectory (p : Provider) : Blind Similar (removeDirectory p) := by
  unfold removeDirectory
  split
  · refine (blind_onHost (blind_askDisk _)).bind fun present => ?_
    split
    · exact (blind_onHost (blind_say _ _)).bind fun _ => blind_onHost (blind_onFiles _)
    · exact .pure _
  · exact .pure _

theorem similar_release : Blind Similar release := by
  rw [release_eq]
  refine .bind (.modify fun s t h => ⟨?_, h.host⟩) fun _ => ?_
  · simp only [Provider.clearMemory]
    rw [h.provider]
  refine .get (fun s t h => ?_) fun s => ?_
  · -- neither the client nor the directory has to do with the memory
    rw [h.provider]
    rfl
  dsimp only
  split
  · refine (blind_onHost (.modify fun h h' halike => ?_)).bind fun _ =>
      similar_removeDirectory s.provider
    exact { halike with closings := congrArg (· + 1) halike.closings }
  · exact similar_removeDirectory s.provider

theorem blind_release : Blind (Twins directory limit limit') release := by
  intro s t htwins
  have hleft := (kept_coherent directory limit).release s htwins.left
  have hright := (kept_coherent directory limit').release t htwins.right
  rcases (similar_release s t htwins.similar).ok_or_error with
    ⟨a, s', t', hs, ht, hsimilar⟩ | ⟨fault, s', t', hs, ht, hsimilar⟩
  · rw [hs, ht]
    exact ⟨rfl, hleft.of_ok hs, hright.of_ok ht, hsimilar⟩
  · rw [hs, ht]
    exact ⟨rfl, hleft.of_error hs, hright.of_error ht, hsimilar⟩

end Service

/-! ## The limit is not seen -/

/-- An outcome without the number of rasters that are held. -/
def Outcome.uncounted : Outcome → Outcome
  | .status counts => .status { counts with rastersCached := 0 }
  | outcome => outcome

namespace Service

variable {directory : Location} {limit limit' : Int} {s t : Service}

theorem twins_ending {ε α : Type} {operation : ServiceM ε α} {good : α → Outcome}
    {bad : ε → Outcome} (hblind : Blind (Twins directory limit limit') operation)
    (h : Twins directory limit limit' s t) :
    (ending operation good bad s).1 = (ending operation good bad t).1 ∧
      Twins directory limit limit' (ending operation good bad s).2
        (ending operation good bad t).2 := by
  unfold ending
  rcases (hblind s t h).ok_or_error with ⟨a, s', t', hs, ht, hst⟩ | ⟨fault, s', t', hs, ht, hst⟩
  · rw [hs, ht]
    exact ⟨rfl, hst⟩
  · rw [hs, ht]
    exact ⟨rfl, hst⟩

theorem Twins.perform (h : Twins directory limit limit' s t) (action : Action) :
    (s.perform action).1.uncounted = (t.perform action).1.uncounted ∧
      Twins directory limit limit' (s.perform action).2 (t.perform action).2 := by
  cases action with
  | lookup latitude longitude =>
      exact (twins_ending (blind_lookup latitude longitude) h).imp_left (congrArg _)
  | elevation latitude longitude =>
      refine (twins_ending ?_ h).imp_left (congrArg _)
      exact (blind_lookup latitude longitude).bind fun _ => .pure _
  | fetchPoints points => exact (twins_ending (blind_fetchPoints points) h).imp_left (congrArg _)
  | status =>
      refine ⟨?_, h⟩
      simp only [Service.perform, Outcome.uncounted, Provider.status]
      rw [h.similar.provider]
  | setAutoRemove autoRemove =>
      refine ⟨rfl, ⟨h.left.dots, h.left.place, h.left.caches⟩,
        ⟨h.right.dots, h.right.place, h.right.caches⟩, ?_, h.similar.host⟩
      simp only [Service.perform, Provider.setAutoRemove]
      rw [h.similar.provider]
  | release => exact (twins_ending blind_release h).imp_left (congrArg _)

theorem Twins.performAll (actions : List Action) (h : Twins directory limit limit' s t) :
    (s.performAll actions).1.map Outcome.uncounted =
        (t.performAll actions).1.map Outcome.uncounted ∧
      Twins directory limit limit' (s.performAll actions).2 (t.performAll actions).2 := by
  -- every action starts from what the one before has left of the two
  induction actions generalizing s t with
  | nil => exact ⟨rfl, h⟩
  | cons action rest ih =>
      obtain ⟨hfirst, hnext⟩ := h.perform action
      obtain ⟨hrest, hlast⟩ := ih hnext
      simp only [Service.performAll, List.map_cons, hfirst, hrest]
      exact ⟨trivial, hlast⟩

end Service

/-- The limit of the memory is unobservable: whatever is on the disk and whatever the network
answers, two new providers that differ only in it answer alike, one action after another, and leave
the same disk, network, requests and pauses behind.  Only the number of rasters that are held may
differ, and what is said about forgetting them. -/
theorem eviction_unobservable {directory : String} {shared : Option Downloader} {timeout : Float}
    {autoRemove : Bool} {h h' : Host} {p : Provider}
    (hcreate : Provider.create directory shared timeout autoRemove h = .ok p h')
    (limit limit' : Int) (actions : List Action) :
    let first := Service.performAll ⟨{ p with memory := .empty limit }, h'⟩ actions
    let second := Service.performAll ⟨{ p with memory := .empty limit' }, h'⟩ actions
    first.1.map Outcome.uncounted = second.1.map Outcome.uncounted ∧
      first.2.host.Alike second.2.host := by
  obtain ⟨-, l, hfresh⟩ :=
    (Provider.ends_create directory shared timeout autoRemove h).of_ok hcreate
  have htwins : Service.Twins l limit limit' ⟨{ p with memory := .empty limit }, h'⟩
      ⟨{ p with memory := .empty limit' }, h'⟩ :=
    ⟨hfresh.coherent limit h', hfresh.coherent limit' h', rfl, .refl h'⟩
  obtain ⟨houtcomes, hlast⟩ := htwins.performAll actions
  exact ⟨houtcomes, hlast.similar.host⟩

/-- So it is over a disk with two tiles, for a memory that has room for one raster only and one of
the usual size: the third query finds its raster gone in the one and held in the other. -/
theorem eviction_unobservable_cropped :
    ∃ p h, Provider.create "" none 10.0 false ⟨.cropped, ⟨[], []⟩, ∅⟩ = .ok p h ∧
      let actions := [.lookup 46.96007 7.43864, .lookup 46.96007 7.45179,
        .elevation 46.96007 7.43864, .release, .status, .elevation 46.96007 7.45179]
      let first := Service.performAll ⟨{ p with memory := .empty 0 }, h⟩ actions
      let second := Service.performAll ⟨{ p with memory := .empty 100 }, h⟩ actions
      first.1.map Outcome.uncounted = second.1.map Outcome.uncounted ∧
        first.2.host.Alike second.2.host :=
  ⟨_, _, Provider.create_cropped ⟨[], []⟩ 10.0 false,
    eviction_unobservable (Provider.create_cropped ⟨[], []⟩ 10.0 false) 0 100 _⟩

end PointElevation
