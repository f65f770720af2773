import PointElevation.Proofs.Provider.Onward
import PointElevation.Proofs.Provider.Tidy

/-!
# Nothing leaves the cache directory

The names of tile files are cut out of addresses that anybody may have written, and they decide
where files are put.  Every stage of a query is tidy nevertheless: the listing is put at a name of
its own, and a tile at the file name of an address with a key.  So queries touch nothing but files
of the cache directory and the directories on the way to it, and only a release that removes the
directory touches it otherwise.  All this is said of the journal, in which every operation on a file
is found, whether or not it left a trace.
-/

namespace PointElevation

open Host

variable {directory : Location}

/-- What was asked of a disk and answered. -/
theorem eq_ok_of_askDisk {ε α : Type} {question : Disk → Except DiskFault α} {f : Failure → ε}
    {h h' : Host} {a : α} (hrun : recast f (askDisk question) h = .ok a h') :
    question h.disk = .ok a ∧ h' = h := by
  have hends : Ends (recast f (askDisk question)) h
      (fun a h' => question h.disk = .ok a ∧ h' = h) fun _ _ => True := by
    simp only [ends_recast, ends_askDisk]
    exact ⟨fun a hanswer => ⟨hanswer, trivial⟩, fun _ _ => trivial⟩
  exact hends.of_ok hrun

/-! ## The listing -/

namespace TileIndex

variable {index : TileIndex} {h : Host} {s : Indexed}

theorem tidy_fetch (hdots : ".." ∉ directory) (hplace : index.directory = .ofLocation directory)
    (habsent : h.disk.exists? index.mappingFile = .ok false) :
    Tidy directory id index.fetch h := by
  have htext : Quiet id (recast faultOfFetch (index.downloader.fetchText listingServiceUrl)) h :=
    ends_recast.mpr (Downloader.work_fetchText index.downloader listingServiceUrl h)
  refine .bind (.of_quiet htext) fun reply h₁ hrun => ?_
  -- asking for the address of the listing has left the disk alone
  have hdisk : h₁.disk = h.disk := (htext.of_ok hrun).disk_eq
  cases listingAddress reply with
  | error cause => exact .of_quiet (.throw _ _)
  | ok url =>
      dsimp only
      rw [mappingFile_eq hplace] at habsent ⊢
      exact (tidy_fetchFile _ hdots .mappings (hdisk ▸ habsent)).recast _

theorem quiet_readFile (index : TileIndex) (h : Host) : Quiet id index.readFile h := by
  unfold readFile
  exact ((Quiet.askDisk _ h).recast _).bind fun _ _ _ => .pure _ _

theorem tidy_obtain (hdots : ".." ∉ directory) (hplace : index.directory = .ofLocation directory)
    (h : Host) : Tidy directory id index.obtain h := by
  refine .bind (.of_quiet ((Quiet.askDisk _ h).recast _)) fun present h₁ hrun => ?_
  obtain ⟨hexists, rfl⟩ := eq_ok_of_askDisk hrun
  cases present with
  | true => exact .of_quiet (quiet_readFile index h₁)
  | false =>
      exact (tidy_fetch hdots hplace hexists).bind fun _ h₂ _ =>
        .of_quiet (quiet_readFile index h₂)

theorem tidy_load (hdots : ".." ∉ directory) (hplace : s.index.directory = .ofLocation directory) :
    Tidy directory Indexed.host load s := by
  refine .bind (.of_quiet (.get s)) fun s₁ _ hget => ?_
  cases hget
  dsimp only
  cases s.index.listing with
  | some listing => exact .of_quiet (.pure _ _)
  | none =>
      refine ((tidy_obtain hdots hplace s.host).onPart rfl fun _ => rfl).bind fun listing s₁ _ => ?_
      refine .of_quiet (.bind (.modify rfl rfl) fun _ s₂ _ => ?_)
      exact .bind (.onPart (.say _ _ _) rfl fun _ => rfl) fun _ s₃ _ => .pure _ _

theorem tidy_resolve (hdots : ".." ∉ directory)
    (hplace : s.index.directory = .ofLocation directory) (key : TileKey) :
    Tidy directory Indexed.host (resolve key) s :=
  (tidy_load hdots hplace).bind fun _ _ _ => .of_quiet (.pure _ _)

/-- An address that is resolved is listed under its own key. -/
theorem keyOfUrl?_of_resolve
    (hkeyed : ∀ listing, s.index.listing = some listing → listing.Keyed) {key : TileKey}
    {url : String} {s' : Indexed} (hrun : resolve key s = .ok (some url) s') :
    keyOfUrl? url = some key := by
  have hends : Ends (resolve key) s (fun found _ => ∀ url ∈ found, keyOfUrl? url = some key)
      fun _ _ => True := by
    simp only [resolve, ends_bind, ends_pure]
    refine (ends_load s).mono (fun listing _ hloads url hurl => ?_) fun _ _ _ => trivial
    exact hloads.keyed hkeyed key url hurl
  exact hends.of_ok hrun url rfl

end TileIndex

/-! ## The file of a tile -/

theorem tidy_ensureTileFile (hdots : ".." ∉ directory) (d : Downloader) {key : TileKey}
    {url : String} (hkey : keyOfUrl? url = some key) (h : Host) :
    Tidy directory id (ensureTileFile (.ofLocation directory) d key url) h := by
  refine .bind (.of_quiet ((Quiet.askDisk _ h).recast _)) fun present h₁ hrun => ?_
  obtain ⟨hexists, rfl⟩ := eq_ok_of_askDisk hrun
  cases present with
  | true => exact .of_quiet (.pure _ _)
  | false =>
      rw [tileFile_eq hkey] at hexists ⊢
      refine .bind (.of_quiet (.say _ _ _)) fun _ h₂ hsay => ?_
      cases hsay
      refine ((tidy_fetchFile d hdots (.tile hkey) ?_).recast _).bind fun _ _ _ =>
        .of_quiet (.pure _ _)
      exact hexists

theorem quiet_readTile (path : FilePath) (band : Int) (h : Host) :
    Quiet id (readTile path band) h := by
  refine .bind (.get h) fun h₁ h₂ _ => ?_
  dsimp only
  cases decodeTile path band (h₁.disk.read path).toOption
      (h₁.disk.read (sideFile path)).toOption with
  | ok raster => exact .pure _ _
  | error fault => exact .throw _ _

/-! ## The way to a raster -/

theorem Provider.tidy_load (hdots : ".." ∉ directory) (d : Downloader) (key : TileKey) {s : Indexed}
    (hplace : s.index.directory = .ofLocation directory)
    (hkeyed : ∀ listing, s.index.listing = some listing → listing.Keyed) :
    Tidy directory Indexed.host ((pipeline (.ofLocation directory) d).load key) s := by
  refine (TileIndex.tidy_resolve hdots hplace key).bind fun url? s₁ hresolve => ?_
  cases url? with
  | none => exact .of_quiet (.pure _ _)
  | some url =>
      have hkey := TileIndex.keyOfUrl?_of_resolve hkeyed hresolve
      refine .bind (.onPart (tidy_ensureTileFile hdots d hkey s₁.host) rfl fun _ => rfl) ?_
      intro path s₂ _
      refine .bind (.of_quiet ?_) fun raster s₃ _ => .of_quiet (.pure _ _)
      exact .onPart (quiet_readTile path elevationBand s₂.host) rfl fun _ => rfl

/-- The way past the memory, put together like other operations. -/
theorem Pipeline.get_eq {ε σ : Type} (p : Pipeline ε σ) (key : TileKey) :
    p.get key = (do
      let s ← MonadState.get
      match s.1.find? key with
      | some raster => pure (some raster)
      | none => do
          let found ← onPart Prod.snd (fun s t => (s.1, t)) (p.load key)
          match found with
          | none => pure none
          | some raster => do
              p.put key raster
              pure (some raster)) := by
  funext s
  obtain ⟨memory, s⟩ := s
  rw [bind_apply, get_apply, Pipeline.get]
  dsimp only
  cases memory.find? key with
  | some raster => rfl
  | none =>
      dsimp only
      rw [bind_apply, onPart]
      dsimp only
      cases p.load key s with
      | error fault s₁ => rfl
      | ok found s₁ => cases found <;> rfl

theorem Provider.tidy_get (hdots : ".." ∉ directory) (d : Downloader) (key : TileKey)
    {s : RasterMemory × Indexed} (hplace : s.2.index.directory = .ofLocation directory)
    (hkeyed : ∀ listing, s.2.index.listing = some listing → listing.Keyed) :
    Tidy directory (fun s : RasterMemory × Indexed => s.2.host)
      ((pipeline (.ofLocation directory) d).get key) s := by
  rw [Pipeline.get_eq]
  refine .bind (.of_quiet (.get s)) fun s₁ _ hget => ?_
  cases hget
  cases s.1.find? key with
  | some raster => exact .of_quiet (.pure _ _)
  | none =>
      refine .bind ((tidy_load hdots d key hplace hkeyed).onPart rfl fun _ => rfl) ?_
      intro found s₂ _
      cases found with
      | none => exact .of_quiet (.pure _ _)
      | some raster =>
          -- forgetting rasters is said in the log and has nothing to do with files
          refine .of_quiet (.bind (.modify ?_ ?_) fun _ s₃ _ => .pure _ _)
          · dsimp only
            split <;> rfl
          · dsimp only
            split <;> rfl

/-! ## Removing the directory -/

/-- A directory is removed, and nothing is touched but that and what is below it. -/
structure FileEvent.Removes (directory : Location) (e : FileEvent) : Prop where
  operation : e.operation = .removeTree (.ofLocation directory)
  touches : ∀ l, e.Touches l → directory <+: l

theorem FileEvent.removes_removeTree (hdots : ".." ∉ directory) (d : Disk) :
    Removes directory ⟨.removeTree (.ofLocation directory), d⟩ := by
  have hends : EndsIn (Disk.removeTree (.ofLocation directory)) d fun d' =>
      ∀ l, directory <+: l ∨ d'.tree.get? l = d.tree.get? l := by
    refine (Disk.ends_removeTree hdots d).mono ?_ ?_
    · rintro _ d' rfl l
      by_cases hnil : l = []
      · exact .inr (by rw [hnil, FileTree.get?_nil, FileTree.get?_nil])
      · rw [Disk.without, FileTree.get?_eraseTree hnil]
        by_cases hbelow : directory.isPrefixOf l = true
        · exact .inl (List.isPrefixOf_iff_prefix.mp hbelow)
        · exact .inr (if_neg hbelow)
    · rintro fault d' rfl l
      exact .inr rfl
  refine ⟨rfl, fun l htouches => ?_⟩
  rcases htouches with hchanges | hhandled
  · exact of_changes (e := ⟨.removeTree (.ofLocation directory), d⟩) hends hchanges
  · exact absurd hhandled List.not_mem_nil

/-! ## Queries -/

namespace Service

variable {limit : Int} {s : Service}

theorem tidy_rasterOf (h : s.Coherent directory limit) (key : TileKey) :
    Tidy directory host (rasterOf key) s := by
  refine .bind (.of_quiet (.get s)) fun s₁ _ hget => ?_
  cases hget
  dsimp only
  rw [h.place]
  exact (Provider.tidy_get h.dots _ key h.caches.place h.caches.keyed).onPart rfl fun _ => rfl

/-- Saying something does nothing to files. -/
theorem quiet_say {ε : Type} (level : Level) (text : String) (s : Service) :
    Quiet host (onHost (say level text) : ServiceM ε Unit) s :=
  .onPart (.say level text s.host) rfl fun _ => rfl

theorem quiet_withoutRaster {ε : Type} (key : TileKey) (position : Position) (status : Status)
    (reason : String) (s : Service) :
    Quiet host (withoutRaster key position status reason : ServiceM ε Lookup) s :=
  (quiet_say _ _ s).bind fun _ _ _ => .pure _ _

theorem quiet_degrade (key : TileKey) (position : Position) (fault : Fault) (s : Service) :
    Quiet host (degrade key position fault) s := by
  cases fault with
  | escaped cause => exact .throw _ _
  | index _ | download _ | decode _ => exact quiet_withoutRaster _ _ _ _ s

theorem quiet_sampleLookup (key : TileKey) (position : Position) (raster : Raster) (s : Service) :
    Quiet host (sampleLookup key position raster) s := by
  unfold sampleLookup
  cases raster.sample position with
  | error missing => exact quiet_degrade _ _ _ s
  | ok value =>
      dsimp only
      by_cases hmissing : value.isNaN = true
      · rw [if_pos hmissing]
        exact (quiet_say _ _ s).bind fun _ _ _ => .pure _ _
      · rw [if_neg hmissing]
        exact .pure _ _

theorem tidy_lookupCovered (h : s.Coherent directory limit) (position : Position) :
    Tidy directory host (lookupCovered position) s := by
  refine (tidy_rasterOf h position.tileKey).outcome.bind fun result s₁ _ => .of_quiet ?_
  cases result with
  | error fault => exact quiet_degrade _ position fault s₁
  | ok found =>
      cases found with
      | none => exact (quiet_say _ _ s₁).bind fun _ _ _ => .pure _ _
      | some raster => exact quiet_sampleLookup _ position raster s₁

theorem tidy_lookup (h : s.Coherent directory limit) (latitude longitude : Float) :
    Tidy directory host (lookup latitude longitude) s := by
  unfold lookup
  by_cases hfinite : (latitude.isFinite && longitude.isFinite) = true
  · simp only [hfinite, Bool.not_true, Bool.false_eq_true, if_false]
    refine .bind (.of_quiet (.get s)) fun s₁ _ hget => ?_
    cases hget
    cases s.provider.projection.position? latitude longitude with
    | none =>
        exact .of_quiet ((quiet_say _ _ s).bind fun _ _ _ => .pure _ _)
    | some position =>
        dsimp only
        by_cases hcovered : position.Covered
        · rw [if_pos hcovered]
          exact tidy_lookupCovered h position
        · rw [if_neg hcovered]
          exact .of_quiet (.pure _ _)
  · simp only [hfinite, Bool.not_false, if_true]
    exact .of_quiet (.pure _ _)

theorem tidy_lookupAll (h : s.Coherent directory limit) (points : List (Float × Float)) :
    Tidy directory host (lookupAll points) s := by
  have hstep : ∀ (point : Float × Float) (s : Service), s.Coherent directory limit →
      Tidy directory host (lookup point.1 point.2) s ∧
        EndsIn (lookup point.1 point.2) s (Coherent directory limit) :=
    fun point s h => ⟨tidy_lookup h point.1 point.2, (kept_coherent directory limit).lookup _ _ s h⟩
  exact Tidy.mapM hstep points h

theorem tidy_fetchPoints (h : s.Coherent directory limit) (points : List (List Float)) :
    Tidy directory host (fetchPoints points) s := by
  unfold fetchPoints
  cases points.find? fun point => (pair? point).isNone with
  | some point => exact .of_quiet (.throw _ _)
  | none =>
      exact ((tidy_lookupAll h (points.filterMap pair?)).recast _).bind fun _ _ _ =>
        .of_quiet (.pure _ _)

/-! ## Actions -/

/-- The account of an action: the journal tells what it has done to files.  All that stays in the
directory, or else the action is a release that removes the directory; and an action that leaves the
directory is careful. -/
structure Account (directory : Location) (s : Service) (action : Action)
    (events : List FileEvent) : Prop where
  work : s.host.Work events (s.perform action).2.host
  within : s.Keeps action → ∀ e ∈ events, e.Within directory
  removes : ¬ s.Keeps action → ∀ e ∈ events, e.Removes directory
  careful : s.Keeps action → FileEvent.Careful s.host.disk events (s.perform action).2.host.disk

/-- The account of an action that leaves the directory. -/
theorem account_of_kempt {action : Action} (hkeeps : s.Keeps action)
    (hkempt : s.host.Kempt directory (s.perform action).2.host) :
    ∃ events, s.Account directory action events := by
  obtain ⟨events, hwork, hwithin, hcareful⟩ := hkempt
  exact ⟨events, hwork, fun _ => hwithin, fun hnot => absurd hkeeps hnot, fun _ => hcareful⟩

theorem kempt_ending {ε α : Type} {operation : ServiceM ε α} {good : α → Outcome}
    {bad : ε → Outcome} (htidy : Tidy directory host operation s) :
    s.host.Kempt directory (ending operation good bad s).2.host := by
  rw [ending_snd]
  exact endsIn_iff.mp htidy

theorem Coherent.account (h : s.Coherent directory limit) (action : Action) :
    ∃ events, s.Account directory action events := by
  cases action with
  | lookup latitude longitude =>
      have htidy := tidy_lookup h latitude longitude
      exact account_of_kempt (keeps_of_ne (by simp)) (kempt_ending htidy)
  | elevation latitude longitude =>
      have htidy : Tidy directory host (elevation latitude longitude) s :=
        (tidy_lookup h latitude longitude).bind fun _ _ _ => .of_quiet (.pure _ _)
      exact account_of_kempt (keeps_of_ne (by simp)) (kempt_ending htidy)
  | fetchPoints points =>
      exact account_of_kempt (keeps_of_ne (by simp)) (kempt_ending (tidy_fetchPoints h points))
  | status => exact account_of_kempt (keeps_of_ne (by simp)) (.of_idle (.refl _))
  | setAutoRemove autoRemove => exact account_of_kempt (keeps_of_ne (by simp)) (.of_idle (.refl _))
  | release =>
      have hreleased : Released directory s (s.perform .release).2 := by
        rw [perform, ending_snd]
        exact endsIn_iff.mp (ends_release h.dots h.place)
      rcases hreleased.work with hidle | ⟨hremove, hwork⟩
      · refine ⟨[], hidle, fun _ => List.forall_mem_nil _, fun _ => List.forall_mem_nil _,
          fun _ => ?_⟩
        exact hidle.disk_eq ▸ FileEvent.careful_nil _
      · have hgoes : ¬ s.Keeps .release := by
          intro hkeeps
          rw [hkeeps rfl] at hremove
          cases hremove
        refine ⟨_, hwork, fun hkeeps => absurd hkeeps hgoes, fun _ e he => ?_,
          fun hkeeps => absurd hkeeps hgoes⟩
        rw [List.mem_singleton.mp he]
        exact FileEvent.removes_removeTree h.dots _

end Service

/-- The tiles of a listing have files in a directory, none of which is the listing's and no two of
which are one. -/
structure Listing.Apart (directory : Location) (listing : Listing) : Prop where
  child : ∀ key url, listing.url? key = some url → ∃ name, IsFileName name ∧ name ≠ mappingsName ∧
    tileFile (.ofLocation directory) url = .ofLocation (directory ++ [name])
  injective : ∀ key url key' url', listing.url? key = some url → listing.url? key' = some url' →
    tileFile (.ofLocation directory) url = tileFile (.ofLocation directory) url' → key = key'

theorem Listing.Keyed.apart {listing : Listing} (h : listing.Keyed) (directory : Location) :
    listing.Apart directory where
  child := fun key url hurl =>
    have hkey := h key url hurl
    ⟨fileName url, isFileName_fileName hkey, fileName_ne_mappings hkey, tileFile_eq hkey⟩
  injective := fun key url key' url' hurl hurl' hfile => by
    have hkey := h key url hurl
    have hkey' := h key' url' hurl'
    rw [tileFile_eq hkey, tileFile_eq hkey'] at hfile
    have hname : fileName url = fileName url' := by simpa [FilePath.ofLocation] using hfile
    exact key_eq_of_fileName_eq hkey hkey' hname

/-- Whatever the network brings and whatever is asked of a provider, all that happens to files
happens in its cache directory, or makes that directory and those above it; the exception is a
release that is to remove the directory, and it removes just that.  The tiles of every listing have
files of their own in the directory. -/
theorem Service.files_stay_in_directory {s₀ : Service} (h : s₀.Opened) (actions : List Action)
    (action : Action) :
    ∃ directory : Location, s₀.provider.directory = .ofLocation directory ∧
      (∃ events, (s₀.performAll actions).2.Account directory action events) ∧
      ∀ text : List Char, (Listing.ofText text).Apart directory := by
  obtain ⟨directory, hcoherent⟩ := h.coherent
  have hreached := (kept_coherent directory _).performAll actions hcoherent
  refine ⟨directory, hcoherent.place, hreached.account action, fun text => ?_⟩
  exact (Listing.keyed_ofText text).apart directory

/-- So it is over a disk with two tiles, for a release that removes the directory with all that is
in it: this is one event, and leaves nothing of the directory. -/
theorem Service.files_stay_in_directory_cropped :
    let s₀ : Service := ⟨.standard 10.0 false, ⟨.cropped, ⟨[], []⟩, ∅⟩⟩
    let s := (s₀.performAll [.setAutoRemove true]).2
    s₀.Opened ∧ ∃ directory : Location, s₀.provider.directory = .ofLocation directory ∧
      s.Account directory .release [⟨.removeTree (.ofLocation directory), .cropped⟩] ∧
        s.host.disk.tree.get? directory = some .directory ∧
          (s.perform .release).2.host.disk.tree.get? directory = none ∧
            ∀ text : List Char, (Listing.ofText text).Apart directory := by
  intro s₀ s
  have hopened : s₀.Opened := .intro .lv95 (Provider.create_cropped ⟨[], []⟩ 10.0 false)
  obtain ⟨directory, hplace, ⟨events, haccount⟩, hapart⟩ :=
    files_stay_in_directory hopened [.setAutoRemove true] .release
  obtain rfl : ["tmp", "swissalti3d"] = directory := by
    cases hplace
    rfl
  -- the journal of the release shows the one event
  have hevents : events = [⟨.removeTree (.ofLocation ["tmp", "swissalti3d"]), .cropped⟩] :=
    haccount.work.files.symm
  rw [hevents] at haccount
  exact ⟨hopened, _, hplace, haccount, rfl, rfl, hapart⟩

end PointElevation
